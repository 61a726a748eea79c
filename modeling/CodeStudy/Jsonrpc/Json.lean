import CodeStudy.Base.OrdMap
import Mathlib.Data.String.Basic

/-!
# JSON values and errors

The part of `nlohmann::json` that the library uses, and `common.hpp`. The signed
and unsigned integers of a value are one constructor, a double is its bits; an
object keeps its entries in the order of their keys. A text stands for a
`std::string`, whose bytes need not be UTF-8.
-/

namespace CodeStudy.Jsonrpc

inductive Json where
  | null
  | bool (b : Bool)
  | int (n : Int)
  | float (bits : UInt64)
  | string (s : String)
  | array (elements : List Json)
  | object (entries : List (String × Json))
deriving Repr

namespace Json

/-- `find`, which finds nothing in a value that is no object. -/
def find (v : Json) (key : String) : Option Json :=
  match v with
  | .object entries => OrdMap.lookupEntry key entries
  | _ => none

/-- Assignment to `v[key]`, for an object. -/
def set (v : Json) (key : String) (value : Json) : Json :=
  match v with
  | .object entries => .object (OrdMap.insertEntry key value entries)
  | v => v

/-- An object given by its initializer list. -/
def ofEntries (entries : List (String × Json)) : Json :=
  entries.foldl (fun v e => v.set e.1 e.2) (.object [])

def isNumber : Json → Bool
  | .int _ | .float _ => true
  | _ => false

def isString : Json → Bool
  | .string _ => true
  | _ => false

def isNull : Json → Bool
  | .null => true
  | _ => false

def isArray : Json → Bool
  | .array _ => true
  | _ => false

def isObject : Json → Bool
  | .object _ => true
  | _ => false

def empty : Json → Bool
  | .null => true
  | .array elements => elements.isEmpty
  | .object entries => entries.isEmpty
  | .bool _ | .int _ | .float _ | .string _ => false

def size : Json → Nat
  | .null => 0
  | .array elements => elements.length
  | .object entries => entries.length
  | .bool _ | .int _ | .float _ | .string _ => 1

def typeName : Json → String
  | .null => "null"
  | .bool _ => "boolean"
  | .int _ | .float _ => "number"
  | .string _ => "string"
  | .array _ => "array"
  | .object _ => "object"

theorem find_set (entries : List (String × Json)) (key : String) (value : Json) (query : String) :
    ((Json.object entries).set key value).find query =
      if query = key then some value else (Json.object entries).find query :=
  OrdMap.lookup_insertEntry key value entries query

mutual

/-- The texts in a value, in the order in which they are written. -/
def texts : Json → List String
  | .string s => [s]
  | .array elements => elementTexts elements
  | .object entries => entryTexts entries
  | .null | .bool _ | .int _ | .float _ => []

def elementTexts : List Json → List String
  | [] => []
  | v :: elements => v.texts ++ elementTexts elements

def entryTexts : List (String × Json) → List String
  | [] => []
  | (key, v) :: entries => key :: (v.texts ++ entryTexts entries)

end

end Json

/-- What is taken of `nlohmann::json` as it is. -/
structure Library where
  /-- `json::parse`; the error is what a `parse_error` says. -/
  parse : String → Except String Json
  /-- What `dump` writes of a value whose texts are UTF-8. -/
  write : Json → String
  /-- What `dump` says of a text that is not UTF-8. -/
  notUtf8 : String → Option String
  /-- The integer part of a double, unless it is infinite or not a number. -/
  truncate : UInt64 → Option Int
  /-- Two values are the same key of a `std::map`, neither being less. -/
  sameKey : Json → Json → Bool

/-! ### `common.hpp` -/

def parseError : Int32 := -32700

def invalidRequest : Int32 := -32600

def methodNotFound : Int32 := -32601

def invalidParams : Int32 := -32602

def internalError : Int32 := -32603

/-- The constructor dumps the data and is `noexcept`, so that the data of an
exception that is thrown are UTF-8. -/
structure JsonRpcException where
  code : Int32
  message : String
  data : Json

/-- What a function throws, by the handler that catches it. -/
inductive Thrown where
  | rpc (e : JsonRpcException)
  /-- `json::type_error`. -/
  | typeError (what : String)
  /-- Another `std::exception`. -/
  | std (what : String)
  /-- What is no `std::exception`. -/
  | other

/-- `dump`, which throws at the first text that is not UTF-8. -/
def Library.dump (lib : Library) (v : Json) : Except Thrown String :=
  match v.texts.findSome? lib.notUtf8 with
  | some what => .error (.typeError ("[json.exception.type_error.316] " ++ what))
  | none => .ok (lib.write v)

/-- The library writes the value, and reads back what it wrote. -/
def Library.Inverts (lib : Library) (v : Json) : Prop :=
  ∃ text, lib.dump v = .ok text ∧ lib.parse text = .ok v

theorem Library.Inverts.parse {lib : Library} {v : Json} {text : String} (h : lib.Inverts v)
    (hdump : lib.dump v = .ok text) : lib.parse text = .ok v := by
  obtain ⟨text', hdump', hparse⟩ := h
  obtain rfl := Except.ok.inj (hdump.symm.trans hdump')
  exact hparse

/-- All texts in the value are UTF-8. -/
def Library.Writes (lib : Library) (v : Json) : Prop := ∀ text ∈ v.texts, lib.notUtf8 text = none

theorem Library.dump_eq_ok {lib : Library} {v : Json} {text : String} :
    lib.dump v = .ok text ↔ lib.Writes v ∧ lib.write v = text := by
  unfold dump Writes
  cases hfind : v.texts.findSome? lib.notUtf8 with
  | none =>
    rw [List.findSome?_eq_none_iff] at hfind
    exact ⟨fun h => ⟨hfind, Except.ok.inj h⟩, fun h => congrArg Except.ok h.2⟩
  | some what =>
    obtain ⟨t, ht, hwhat⟩ := List.exists_of_findSome?_eq_some hfind
    have hnot : ¬∀ t ∈ v.texts, lib.notUtf8 t = none := by
      intro h
      simp [h t ht] at hwhat
    simp [hnot]

/-- A conversion of the library fails. -/
def typeError302 (expected : String) (v : Json) : Thrown :=
  .typeError ("[json.exception.type_error.302] type must be " ++ expected ++ ", but is " ++
    v.typeName)

/-- Conversion to an integer type with the values `low ≤ n < high`, which wraps
an integer; `none` where it is undefined for a double. -/
def Json.getInteger (lib : Library) (wrap : Int → Int) (low high : Int) (v : Json) :
    Option (Except Thrown Int) :=
  match v with
  | .int n => some (.ok (wrap n))
  | .bool b => some (.ok (if b then 1 else 0))
  | .float bits =>
    match lib.truncate bits with
    | some n => if low ≤ n ∧ n < high then some (.ok n) else none
    | none => none
  | v => some (.error (typeError302 "number" v))

/-- `get<unsigned int>()`. -/
def Json.getUnsigned (lib : Library) (v : Json) : Option (Except Thrown Int) :=
  v.getInteger lib (· % 2 ^ 32) 0 (2 ^ 32)

/-- `get<int>()`. -/
def Json.getInt (lib : Library) (v : Json) : Option (Except Thrown Int) :=
  v.getInteger lib (fun n => n.bmod (2 ^ 32)) (-2 ^ 31) (2 ^ 31)

def validId (request : Json) : Bool :=
  (request.find "id").any fun id => id.isNumber || id.isString || id.isNull

def validIdNotNull (request : Json) : Bool :=
  (request.find "id").any fun id => id.isNumber || id.isString

def JsonRpcException.fromJson (value : Json) : JsonRpcException :=
  match value.find "code", value.find "message" with
  | some (.int code), some (.string message) =>
    match value.find "data" with
    | some data => ⟨Int32.ofInt code, message, data⟩
    | none => ⟨Int32.ofInt code, message, .null⟩
  | _, _ =>
    ⟨internalError,
      "invalid error response: \"code\" (integer number) and \"message\" (string) are required",
      .null⟩

end CodeStudy.Jsonrpc
