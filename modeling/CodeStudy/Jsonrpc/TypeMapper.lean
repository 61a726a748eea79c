import CodeStudy.Base.View
import CodeStudy.Jsonrpc.CallResult
import Mathlib.Data.List.Forall2

/-!
# From JSON values to parameters

`typemapper.hpp`. A JSON number has one of three kinds, and what is checked of a parameter depends on its kind
and on that of the parameter's type. The conversion that follows is a cast, which wraps what does not fit.
-/

namespace CodeStudy.Jsonrpc

/-! ### Values and their kinds -/

/-- `json::value_t`, without what no text can hold. -/
inductive ValueT where
  | null | object | array | string | boolean | numberInteger | numberUnsigned | numberFloat
  deriving DecidableEq, Repr

/-- A value with its kind. A text gives a number without a sign the unsigned kind, a program may give it either.
The kinds of the numbers inside a value are not looked at. -/
inductive Value where
  | null
  | object (entries : List (String × Json))
  | array (elements : List Json)
  | string (s : String)
  | boolean (b : Bool)
  | numberInteger (n : Int64)
  | numberUnsigned (n : UInt64)
  | numberFloat (bits : UInt64)

namespace Value

def type : Value → ValueT
  | null => .null
  | object _ => .object
  | array _ => .array
  | string _ => .string
  | boolean _ => .boolean
  | numberInteger _ => .numberInteger
  | numberUnsigned _ => .numberUnsigned
  | numberFloat _ => .numberFloat

/-- The number that an integer is. -/
def number? : Value → Option Int
  | numberInteger n => some n.toInt
  | numberUnsigned n => some n.toNat
  | _ => none

/-- The value of a text. -/
def ofJson : Json → Value
  | .null => null
  | .bool b => boolean b
  | .int n => if 0 ≤ n then numberUnsigned (.ofInt n) else numberInteger (.ofInt n)
  | .float bits => numberFloat bits
  | .string s => string s
  | .array elements => array elements
  | .object entries => object entries

end Value

def typeName : ValueT → String
  | .numberInteger => "integer"
  | .boolean => "boolean"
  | .numberFloat => "float"
  | .numberUnsigned => "unsigned integer"
  | .object => "object"
  | .array => "array"
  | .string => "string"
  | .null => "null"

/-! ### Types of parameters -/

/-- An integral type that has a `GetType` of its own. -/
structure IntegralType where
  isSigned : Bool
  bits : Nat
  bits_pos : 0 < bits
  bits_le : bits ≤ 64

namespace IntegralType

def short : IntegralType := ⟨true, 16, by decide, by decide⟩

def int : IntegralType := ⟨true, 32, by decide, by decide⟩

def longLong : IntegralType := ⟨true, 64, by decide, by decide⟩

def unsignedShort : IntegralType := ⟨false, 16, by decide, by decide⟩

def unsignedInt : IntegralType := ⟨false, 32, by decide, by decide⟩

def unsignedLongLong : IntegralType := ⟨false, 64, by decide, by decide⟩

variable (t : IntegralType)

/-- `std::numeric_limits<T>::min()`. -/
def min : Int := if t.isSigned then -2 ^ (t.bits - 1) else 0

/-- `std::numeric_limits<T>::max()`. -/
def max : Int := if t.isSigned then 2 ^ (t.bits - 1) - 1 else 2 ^ t.bits - 1

/-- A cast from an integer. -/
def cast (n : Int) : Int := if t.isSigned then n.bmod (2 ^ t.bits) else n % 2 ^ t.bits

def getType : ValueT := if t.isSigned then .numberInteger else .numberUnsigned

def InRange (n : Int) : Prop := t.min ≤ n ∧ n ≤ t.max

instance (n : Int) : Decidable (t.InRange n) := inferInstanceAs (Decidable (_ ∧ _))

/-- A cast keeps the numbers of the type and no others. -/
theorem cast_eq_iff (n : Int) : t.cast n = n ↔ t.InRange n := by
  have hpow : (2 : Int) ^ t.bits = 2 * 2 ^ (t.bits - 1) := by
    rw [← pow_succ', Nat.sub_add_cancel t.bits_pos]
  have hpos : (0 : Int) < 2 ^ (t.bits - 1) := by positivity
  rw [cast, InRange, min, max]
  cases t.isSigned with
  | true =>
      have hcast : ((2 ^ t.bits : Nat) : Int) = 2 * 2 ^ (t.bits - 1) := by rw [Nat.cast_pow, Nat.cast_ofNat, hpow]
      rw [if_pos rfl, if_pos rfl, if_pos rfl, Int.bmod_eq_iff (by positivity), hcast, sub_self]
      generalize (2 : Int) ^ (t.bits - 1) = half at *
      have hdvd : 2 * half ∣ 0 := dvd_zero _
      omega
  | false =>
      simp only [Bool.false_eq_true, if_false]
      have hpositive : (0 : Int) < 2 ^ t.bits := by positivity
      constructor
      · intro h
        have hnonneg := Int.emod_nonneg n hpositive.ne'
        have hlt := Int.emod_lt_of_pos n hpositive
        omega
      · rintro ⟨hnonneg, hle⟩
        exact Int.emod_eq_of_lt hnonneg (by omega)

end IntegralType

/-- The type of a parameter. Of a type that is not arithmetic and of a floating one the conversions are taken as
they are; that of an integer to a floating type and back is only compared. -/
inductive ParamType (β : Type) where
  | integral (t : IntegralType)
  | boolean
  | floating (comesBack : Int → Bool) (get : Value → β)
  | other (expected : ValueT) (get : Value → Except String β)

/-- What a handler gets for a parameter. -/
inductive Argument (β : Type) where
  | integral (n : Int)
  | boolean (b : Bool)
  | other (b : β)

namespace ParamType

variable {β : Type}

def getType : ParamType β → ValueT
  | integral t => t.getType
  | boolean => .boolean
  | floating _ _ => .numberFloat
  | other expected _ => expected

def isArithmetic : ParamType β → Bool
  | integral _ | boolean | floating _ _ => true
  | other _ _ => false

/-- `numeric_limits<T>::max()`, which is compared for types that expect an integer. -/
def max : ParamType β → Int
  | integral t => t.max
  | _ => 0

def comesBack : ParamType β → Int → Bool
  | floating comesBack _ => comesBack
  | _ => fun _ => true

end ParamType

def mustBe (index : Nat) (expectedType : ValueT) (x : Value) : JsonRpcException :=
  ⟨invalidParams, "invalid parameter: must be " ++ typeName expectedType ++ ", but is " ++ typeName x.type, .int index⟩

def exceedsRange (index : Nat) (expectedType : ValueT) : JsonRpcException :=
  ⟨invalidParams, "invalid parameter: exceeds value range of " ++ typeName expectedType, .int index⟩

def checkParamType {β : Type} (T : ParamType β) (index : Nat) (x : Value) : Except JsonRpcException Unit :=
  let expectedType := T.getType
  if T.isArithmetic then
    match expectedType, x with
    | .numberUnsigned, .numberInteger n => if n < 0 then .error (mustBe index expectedType x) else .ok ()
    | .numberInteger, .numberUnsigned n => if (n.toNat : Int) > T.max then .error (exceedsRange index expectedType) else .ok ()
    | .numberFloat, .numberUnsigned n => if T.comesBack n.toNat then .ok () else .error (exceedsRange index expectedType)
    | .numberFloat, .numberInteger n => if T.comesBack n.toInt then .ok () else .error (exceedsRange index expectedType)
    | _, _ => if x.type ≠ expectedType then .error (mustBe index expectedType x) else .ok ()
  else if x.type ≠ expectedType then .error (mustBe index expectedType x)
  else .ok ()

/-- `get<T>()` of a value that has passed the check. Nothing but an integer passes that of an integral type, and
nothing but a truth value that of `bool`. -/
def getParam {β : Type} (T : ParamType β) (x : Value) : Except Thrown (Argument β) :=
  match T with
  | .integral t =>
      match x.number? with
      | some n => .ok (.integral (t.cast n))
      | none => .error (.typeError "type must be number")
  | .boolean =>
      match x with
      | .boolean b => .ok (.boolean b)
      | _ => .error (.typeError "type must be boolean")
  | .floating _ get => .ok (.other (get x))
  | .other _ get => ((get x).map .other).mapError .typeError

def checkParamTypes {β : Type} : List (ParamType β) → Nat → List Value → Except JsonRpcException Unit
  | T :: types, index, x :: params => do
      checkParamType T index x
      checkParamTypes types (index + 1) params
  | _, _, _ => .ok ()

def getParams {β : Type} : List (ParamType β) → List Value → Except Thrown (List (Argument β))
  | T :: types, x :: params => do
      let argument ← getParam T x
      let arguments ← getParams types params
      .ok (argument :: arguments)
  | _, _ => .ok []

/-- As many values as the method has parameters are expected. -/
def wrongCount (formalSize actualSize : Nat) : JsonRpcException :=
  ⟨invalidParams, "invalid parameter: expected " ++ toString formalSize ++ " argument(s), but found " ++
    toString actualSize, .null⟩

/-- What the method is called with. -/
def callArguments {β : Type} (types : List (ParamType β)) (params : List Value) : Except Thrown (List (Argument β)) :=
  if params.length ≠ types.length then .error (.rpc (wrongCount types.length params.length))
  else
    match checkParamTypes types 0 params with
    | .error e => .error (.rpc e)
    | .ok () => getParams types params

/-- `params[index]` of what is no array. -/
def typeError305 (v : Json) : Thrown :=
  .typeError ("[json.exception.type_error.305] cannot use operator[] with a numeric argument with " ++ v.typeName)

/-- The handle of a method. The dispatcher calls it with an array; of another value the size is what is compared
first, too. -/
def createMethodHandle {β σ : Type} (types : List (ParamType β)) (method : List (Argument β) → σ → Except Thrown Json × σ) :
    Handle σ Json := fun params s =>
  match params with
  | .array elements =>
      match callArguments types (elements.map .ofJson) with
      | .error thrown => (.error thrown, s)
      | .ok arguments => method arguments s
  | params =>
      if params.size ≠ types.length then (.error (.rpc (wrongCount types.length params.size)), s)
      else if types.isEmpty then method [] s
      else (.error (typeError305 params), s)

/-! ### One parameter -/

/-- What the dispatcher turns into an `invalid_params` error, or what is one. -/
def Thrown.IsInvalidParams : Thrown → Prop
  | .rpc e => e.code = invalidParams
  | .typeError _ => True
  | .std _ | .other => False

/-- The exception of a check, with the index of the parameter. -/
structure JsonRpcException.Refuses (e : JsonRpcException) : Prop where
  code : e.code = invalidParams
  data : ∃ index : Nat, e.data = .int index

namespace ParamType

variable {β : Type}

/-- A value that a parameter takes: an integer, which is not negative where the kinds say so and not too large
where they differ, or a value of the kind of the type that can be converted. -/
def Accepts : ParamType β → Value → Prop
  | integral t, .numberInteger n => t.isSigned = true ∨ 0 ≤ n.toInt
  | integral t, .numberUnsigned n => t.isSigned = false ∨ n.toNat ≤ t.max
  | integral _, _ => False
  | boolean, x => x.type = .boolean
  | floating comesBack _, .numberInteger n => comesBack n.toInt
  | floating comesBack _, .numberUnsigned n => comesBack n.toNat
  | floating _ _, x => x.type = .numberFloat
  | other expected get, x => x.type = expected ∧ ∃ b, get x = .ok b

/-- The check of an integer for an integral parameter. -/
theorem checkParamType_integer (t : IntegralType) (index : Nat) (n : Int64) :
    checkParamType (β := β) (.integral t) index (.numberInteger n) =
      if t.isSigned = true ∨ 0 ≤ n.toInt then .ok () else .error (mustBe index t.getType (.numberInteger n)) := by
  obtain ⟨isSigned, bits, hpos, hle⟩ := t
  cases isSigned with
  | true => rfl
  | false =>
      show (if n < 0 then _ else _) = _
      have hiff : n < 0 ↔ n.toInt < 0 := by rw [Int64.lt_iff_toInt_lt, Int64.toInt_zero]
      by_cases hn : n < 0
      · rw [if_pos hn, if_neg (by simpa using hiff.mp hn)]
        rfl
      · rw [if_neg hn, if_pos (.inr (not_lt.mp fun hneg => hn (hiff.mpr hneg)))]

theorem checkParamType_unsigned (t : IntegralType) (index : Nat) (n : UInt64) :
    checkParamType (β := β) (.integral t) index (.numberUnsigned n) =
      if t.isSigned = false ∨ n.toNat ≤ t.max then .ok () else .error (exceedsRange index t.getType) := by
  obtain ⟨isSigned, bits, hpos, hle⟩ := t
  cases isSigned with
  | false => rfl
  | true =>
      show (if (n.toNat : Int) > IntegralType.max ⟨true, bits, hpos, hle⟩ then _ else _) = _
      by_cases hn : (n.toNat : Int) > IntegralType.max ⟨true, bits, hpos, hle⟩
      · rw [if_pos hn, if_neg (by simpa using hn)]
        rfl
      · rw [if_neg hn, if_pos (.inr (not_lt.mp hn))]

/-- A value that is taken passes the check and is converted. -/
theorem of_accepts {T : ParamType β} {x : Value} (h : T.Accepts x) (index : Nat) :
    checkParamType T index x = .ok () ∧ ∃ argument, getParam T x = .ok argument := by
  cases T with
  | integral t =>
      cases x with
      | numberInteger n => exact ⟨(checkParamType_integer t index n).trans (if_pos h), _, rfl⟩
      | numberUnsigned n => exact ⟨(checkParamType_unsigned t index n).trans (if_pos h), _, rfl⟩
      | null | object | array | string | boolean | numberFloat => exact absurd h not_false
  | boolean =>
      cases x with
      | boolean b => exact ⟨rfl, _, rfl⟩
      | null | object | array | string | numberInteger | numberUnsigned | numberFloat => cases h
  | floating comesBack get =>
      cases x with
      | numberInteger n => exact ⟨if_pos h, _, rfl⟩
      | numberUnsigned n => exact ⟨if_pos h, _, rfl⟩
      | numberFloat bits => exact ⟨rfl, _, rfl⟩
      | null | object | array | string | boolean => cases h
  | other expected get =>
      obtain ⟨htype, b, hb⟩ := h
      refine ⟨if_neg (not_not.mpr htype), .other b, ?_⟩
      rw [getParam, hb]
      rfl

/-- A value that is not taken fails the check, or it fails to be converted. -/
theorem of_not_accepts {T : ParamType β} {x : Value} (h : ¬ T.Accepts x) (index : Nat) :
    (∃ e, checkParamType T index x = .error e ∧ e.Refuses) ∨
      checkParamType T index x = .ok () ∧ ∃ what, getParam T x = .error (.typeError what) := by
  cases T with
  | integral t =>
      left
      cases x with
      | numberInteger n => exact ⟨_, (checkParamType_integer t index n).trans (if_neg h), rfl, index, rfl⟩
      | numberUnsigned n => exact ⟨_, (checkParamType_unsigned t index n).trans (if_neg h), rfl, index, rfl⟩
      | null | object | array | string | boolean | numberFloat =>
          obtain ⟨isSigned, bits, hpos, hle⟩ := t
          cases isSigned <;> exact ⟨_, rfl, rfl, index, rfl⟩
  | boolean =>
      left
      cases x with
      | boolean b => exact absurd rfl h
      | null | object | array | string | numberInteger | numberUnsigned | numberFloat => exact ⟨_, rfl, rfl, index, rfl⟩
  | floating comesBack get =>
      left
      cases x with
      | numberInteger n => exact ⟨_, if_neg h, rfl, index, rfl⟩
      | numberUnsigned n => exact ⟨_, if_neg h, rfl, index, rfl⟩
      | numberFloat bits => exact absurd rfl h
      | null | object | array | string | boolean => exact ⟨_, rfl, rfl, index, rfl⟩
  | other expected get =>
      by_cases htype : x.type = expected
      · right
        refine ⟨if_neg (not_not.mpr htype), ?_⟩
        cases hget : get x with
        | ok b => exact absurd ⟨htype, b, hget⟩ h
        | error what =>
            refine ⟨what, ?_⟩
            rw [getParam, hget]
            rfl
      · exact .inl ⟨_, if_pos htype, rfl, index, rfl⟩

/-- An integral parameter gets the cast of the number. -/
theorem getParam_integral {t : IntegralType} {x : Value} {argument : Argument β} (h : getParam (.integral t) x = .ok argument) :
    ∃ n, x.number? = some n ∧ argument = .integral (t.cast n) := by
  simp only [getParam] at h
  cases hn : x.number? with
  | none =>
      rw [hn] at h
      cases h
  | some n =>
      rw [hn] at h
      cases h
      exact ⟨n, rfl, rfl⟩

end ParamType

/-! ### A call -/

variable {β : Type}

theorem getElem?_getParams {types : List (ParamType β)} {params : List Value} {arguments : List (Argument β)}
    (h : getParams types params = .ok arguments) {i : Nat} {T : ParamType β} {x : Value} (hT : types[i]? = some T)
    (hx : params[i]? = some x) : ∃ argument, arguments[i]? = some argument ∧ getParam T x = .ok argument := by
  induction types generalizing params arguments i with
  | nil => cases hT
  | cons T' types ih =>
      cases params with
      | nil => cases hx
      | cons x' params =>
          rw [getParams, bind_eq_ok] at h
          obtain ⟨argument, hargument, h⟩ := h
          rw [bind_eq_ok] at h
          obtain ⟨rest, hrest, h⟩ := h
          cases h
          cases i with
          | zero =>
              cases hT
              cases hx
              exact ⟨argument, rfl, hargument⟩
          | succ i => exact ih hrest hT hx

/-- Values that are all taken pass the checks and are converted. -/
theorem checkParamTypes_of_accepts {types : List (ParamType β)} {params : List Value}
    (h : List.Forall₂ ParamType.Accepts types params) (index : Nat) :
    checkParamTypes types index params = .ok () ∧ ∃ arguments, getParams types params = .ok arguments := by
  induction h generalizing index with
  | nil => exact ⟨rfl, _, rfl⟩
  | cons hx _ ih =>
      obtain ⟨hcheck, argument, hget⟩ := ParamType.of_accepts hx index
      obtain ⟨hchecks, arguments, hgets⟩ := ih (index + 1)
      refine ⟨?_, argument :: arguments, ?_⟩
      · rw [checkParamTypes, hcheck]
        exact hchecks
      · rw [getParams, hget, ok_bind, hgets]
        rfl

/-- One value that is not taken fails the call. -/
theorem checkParamTypes_of_not_accepts {types : List (ParamType β)} {params : List Value}
    (hlength : params.length = types.length) (h : ¬ List.Forall₂ ParamType.Accepts types params) (index : Nat) :
    (∃ e, checkParamTypes types index params = .error e ∧ e.Refuses) ∨
      checkParamTypes types index params = .ok () ∧ ∃ what, getParams types params = .error (.typeError what) := by
  induction types generalizing params index with
  | nil =>
      rw [List.length_nil, List.length_eq_zero_iff] at hlength
      exact absurd (hlength ▸ List.Forall₂.nil) h
  | cons T types ih =>
      cases params with
      | nil => cases hlength
      | cons x params =>
          rw [List.length_cons, List.length_cons, Nat.add_right_cancel_iff] at hlength
          rw [List.forall₂_cons, not_and_or] at h
          have hothers : (∃ e, checkParamTypes types (index + 1) params = .error e ∧ e.Refuses) ∨
              checkParamTypes types (index + 1) params = .ok () := by
            by_cases hall : List.Forall₂ ParamType.Accepts types params
            · exact .inr (checkParamTypes_of_accepts hall _).1
            · exact (ih hlength hall (index + 1)).imp_right And.left
          by_cases hfirst : T.Accepts x
          · obtain ⟨hcheck, argument, hget⟩ := ParamType.of_accepts hfirst index
            rw [checkParamTypes, hcheck, ok_bind, getParams, hget, ok_bind]
            refine (ih hlength (h.resolve_left (not_not.mpr hfirst)) (index + 1)).imp_right fun ⟨hchecks, what, hgets⟩ => ?_
            exact ⟨hchecks, what, by rw [hgets]; rfl⟩
          · rcases ParamType.of_not_accepts hfirst index with ⟨e, hcheck, he⟩ | ⟨hcheck, what, hget⟩
            · exact .inl ⟨e, by rw [checkParamTypes, hcheck]; rfl, he⟩
            · rw [checkParamTypes, hcheck, ok_bind, getParams, hget]
              exact hothers.imp_right fun hchecks => ⟨hchecks, what, rfl⟩

/-- The method is called with the very numbers that were passed for its integral parameters, or the call fails with
`invalid_params`. -/
def ExactOrRefused (types : List (ParamType β)) (params : List Value) : Prop :=
  (∃ thrown, callArguments types params = .error thrown ∧ thrown.IsInvalidParams) ∨
    ∃ arguments, callArguments types params = .ok arguments ∧
      ∀ (i : Nat) (t : IntegralType) (x : Value), types[i]? = some (.integral t) → params[i]? = some x →
        ∃ n, x.number? = some n ∧ arguments[i]? = some (.integral n)

theorem callArguments_of_accepts {types : List (ParamType β)} {params : List Value}
    (h : List.Forall₂ ParamType.Accepts types params) : callArguments types params = getParams types params := by
  rw [callArguments, if_neg (not_not.mpr h.length_eq.symm), (checkParamTypes_of_accepts h 0).1]

/-- A call that is refused fails as the dispatcher expects it: with the index of a parameter if it has data. -/
theorem callArguments_of_not_accepts {types : List (ParamType β)} {params : List Value}
    (h : ¬ List.Forall₂ ParamType.Accepts types params) :
    (∃ what, callArguments types params = .error (.typeError what)) ∨
      ∃ e, callArguments types params = .error (.rpc e) ∧ e.code = invalidParams ∧
        (e.data = .null ∨ ∃ index : Nat, e.data = .int index) := by
  by_cases hlength : params.length = types.length
  · rw [callArguments, if_neg (not_not.mpr hlength)]
    rcases checkParamTypes_of_not_accepts hlength h 0 with ⟨e, hchecks, he⟩ | ⟨hchecks, what, hgets⟩
    · rw [hchecks]
      exact .inr ⟨e, rfl, he.code, .inr he.data⟩
    · rw [hchecks]
      exact .inl ⟨what, hgets⟩
  · exact .inr ⟨_, if_pos hlength, rfl, .inl rfl⟩

theorem exactOrRefused_of_not_accepts {types : List (ParamType β)} {params : List Value}
    (h : ¬ List.Forall₂ ParamType.Accepts types params) : ExactOrRefused types params := by
  rcases callArguments_of_not_accepts h with ⟨what, hcall⟩ | ⟨e, hcall, hcode, -⟩
  · exact .inl ⟨_, hcall, trivial⟩
  · exact .inl ⟨_, hcall, hcode⟩

/-- A call by position reaches the handle as it is. -/
theorem Dispatcher.invokeMethod_array {σ : Type} (lib : Library) {d : Dispatcher σ} {name : String}
    {handle : Handle σ Json} (hmethod : d.methods name = some handle) (elements : List Json) (s : σ) :
    d.invokeMethod lib name (.array elements) s =
      match handle (.array elements) s with
      | (.ok v, s') => some (.ok v, s')
      | (.error t, s') => (d.rethrow lib name t).map fun t' => (.error t', s') := by
  simp only [invokeMethod, invoke, hmethod, normalizeParameter]
  obtain ⟨given, s'⟩ := handle (.array elements) s
  cases given with
  | ok v => rfl
  | error t => rfl

/-- Values that a method takes reach it converted one by one. -/
theorem Dispatcher.invokeMethod_of_accepts {σ : Type} (lib : Library) {d : Dispatcher σ} {name : String}
    {types : List (ParamType β)} {method : List (Argument β) → σ → Except Thrown Json × σ}
    (hmethod : d.methods name = some (createMethodHandle types method)) {elements : List Json}
    (h : List.Forall₂ ParamType.Accepts types (elements.map .ofJson)) (s : σ) :
    ∃ arguments, getParams types (elements.map .ofJson) = .ok arguments ∧
      d.invokeMethod lib name (.array elements) s =
        match method arguments s with
        | (.ok v, s') => some (.ok v, s')
        | (.error t, s') => (d.rethrow lib name t).map fun t' => (.error t', s') := by
  obtain ⟨-, arguments, harguments⟩ := checkParamTypes_of_accepts h 0
  refine ⟨arguments, harguments, ?_⟩
  simp only [invokeMethod_array lib hmethod, createMethodHandle, callArguments_of_accepts h, harguments]

/-- A registered method that is called by position with values it does not take is not called, and the caller gets
`invalid_params`. -/
theorem Dispatcher.invokeMethod_of_not_accepts {σ : Type} (lib : Library) {d : Dispatcher σ} {name : String}
    {types : List (ParamType β)} {method : List (Argument β) → σ → Except Thrown Json × σ}
    (hmethod : d.methods name = some (createMethodHandle types method)) (hmapping : d.mapping name = none)
    {elements : List Json} (h : ¬ List.Forall₂ ParamType.Accepts types (elements.map .ofJson)) (s : σ) :
    ∃ e, d.invokeMethod lib name (.array elements) s = some (.error (.rpc e), s) ∧ e.code = invalidParams := by
  rw [invokeMethod_array lib hmethod]
  rcases callArguments_of_not_accepts h with ⟨what, hcall⟩ | ⟨e, hcall, hcode, hdata⟩
  · simp only [createMethodHandle, hcall]
    exact ⟨_, rfl, rfl⟩
  · simp only [createMethodHandle, hcall]
    rcases hdata with hnull | ⟨index, hindex⟩
    · rw [rethrow_rpc lib d name (.inr (by rw [hnull]; rfl))]
      exact ⟨e, rfl, hcode⟩
    · have hprocess : d.processTypeError lib name e =
          some (.ok ⟨e.code, e.message ++ " for parameter " ++ toString ((index : Int) % 2 ^ 32), .null⟩) := by
        rw [processTypeError, if_pos ⟨hcode, by rw [hindex]; rfl⟩, hindex, hmapping]
        rfl
      rw [rethrow, hprocess]
      exact ⟨_, rfl, hcode⟩

/-- No number is changed on the way if and only if a value is refused, the count of values included, or every number
is in the range of its parameter's type. -/
theorem exactOrRefused_iff (types : List (ParamType β)) (params : List Value) :
    ExactOrRefused types params ↔ (List.Forall₂ ParamType.Accepts types params →
      ∀ (i : Nat) (t : IntegralType) (x : Value) (n : Int), types[i]? = some (.integral t) → params[i]? = some x →
        x.number? = some n → t.InRange n) := by
  by_cases hall : List.Forall₂ ParamType.Accepts types params
  swap
  · exact iff_of_true (exactOrRefused_of_not_accepts hall) fun h => absurd h hall
  rw [forall_prop_of_true hall, ExactOrRefused, callArguments_of_accepts hall]
  obtain ⟨-, arguments, harguments⟩ := checkParamTypes_of_accepts hall 0
  have hcast {i : Nat} {t : IntegralType} {x : Value} (ht : types[i]? = some (.integral t)) (hx : params[i]? = some x) :
      ∃ n, x.number? = some n ∧ arguments[i]? = some (.integral (t.cast n)) := by
    obtain ⟨argument, hargument, hget⟩ := getElem?_getParams harguments ht hx
    obtain ⟨n, hn, rfl⟩ := ParamType.getParam_integral hget
    exact ⟨n, hn, hargument⟩
  constructor
  · rintro (⟨thrown, herror, -⟩ | ⟨arguments', hok, hexact⟩) i t x n ht hx hn
    · rw [harguments] at herror
      cases herror
    · rw [harguments] at hok
      cases hok
      obtain ⟨n', hn', hexact⟩ := hexact i t x ht hx
      obtain ⟨n'', hn'', hargument⟩ := hcast ht hx
      rw [hn, Option.some.injEq] at hn' hn''
      rw [hexact, Option.some.injEq, Argument.integral.injEq, ← hn', ← hn''] at hargument
      exact (t.cast_eq_iff n).mp hargument.symm
  · intro hrange
    refine .inr ⟨arguments, harguments, fun i t x ht hx => ?_⟩
    obtain ⟨n, hn, hargument⟩ := hcast ht hx
    rw [(t.cast_eq_iff n).mpr (hrange i t x n ht hx hn)] at hargument
    exact ⟨n, hn, hargument⟩

/-- A negative number far below the range of `int`, and a number that is one too large for `unsigned int`. -/
theorem not_exactOrRefused_wrapped :
    callArguments (β := Unit) [.integral .int] [.numberInteger (-3000000000)] = .ok [.integral 1294967296] ∧
      ¬ ExactOrRefused (β := Unit) [.integral .int] [.numberInteger (-3000000000)] ∧
      callArguments (β := Unit) [.integral .unsignedInt] [.numberUnsigned 4294967296] = .ok [.integral 0] ∧
      ¬ ExactOrRefused (β := Unit) [.integral .unsignedInt] [.numberUnsigned 4294967296] := by
  have hsigned : callArguments (β := Unit) [.integral .int] [.numberInteger (-3000000000)] =
      .ok [.integral 1294967296] := by rfl
  have hunsigned : callArguments (β := Unit) [.integral .unsignedInt] [.numberUnsigned 4294967296] =
      .ok [.integral 0] := by rfl
  refine ⟨hsigned, ?_, hunsigned, ?_⟩
  · rintro (⟨thrown, herror, -⟩ | ⟨arguments, hok, hexact⟩)
    · rw [hsigned] at herror
      cases herror
    · rw [hsigned] at hok
      cases hok
      obtain ⟨n, hn, hargument⟩ := hexact 0 .int _ rfl rfl
      cases hargument
      exact absurd hn (by decide)
  · rintro (⟨thrown, herror, -⟩ | ⟨arguments, hok, hexact⟩)
    · rw [hunsigned] at herror
      cases herror
    · rw [hunsigned] at hok
      cases hok
      obtain ⟨n, hn, hargument⟩ := hexact 0 .unsignedInt _ rfl rfl
      cases hargument
      exact absurd hn (by decide)

end CodeStudy.Jsonrpc
