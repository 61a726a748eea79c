import CodeStudy.Jsonrpc.Client

/-!
# Batches

The server's loop over the elements of a batch, and `batchclient.hpp`, which
finds the responses again by their ids. Each element that is no notification is
answered by one response with its id; the server's answer to a batch is always
an array, so an empty batch and one of notifications only are answered by `[]`.
-/

namespace CodeStudy.Jsonrpc

/-! ### The client's batches -/

/-- The element that `AddMethodCall` and `AddNamedMethodCall` push. -/
def methodCall (id : Id) (name : String) (params : Params) : Json :=
  (Json.ofEntries
    [("method", .string name), ("params", params.toJson), ("jsonrpc", .string "2.0")]).set
      "id" id.toJson

/-- The element that `AddNotificationCall` and `AddNamedNotificationCall` push. -/
def notificationCall (name : String) (params : Params) : Json :=
  .ofEntries [("method", .string name), ("params", params.toJson), ("jsonrpc", .string "2.0")]

/-- A call added to a `BatchRequest`. -/
inductive BatchEntry where
  | method (id : Id) (name : String) (params : Params)
  | notification (name : String) (params : Params)

def BatchEntry.toJson : BatchEntry → Json
  | .method id name params => methodCall id name params
  | .notification name params => notificationCall name params

def BatchEntry.id? : BatchEntry → Option Id
  | .method id _ _ => some id
  | .notification _ _ => none

structure BatchResponse where
  response : List Json
  results : Json → Option Nat
  errors : Json → Option Nat
  nullIds : List Nat

namespace BatchResponse

/-- `index[id] = i` for a map from ids to indices. -/
def assign (lib : Library) (index : Json → Option Nat) (id : Json) (i : Nat) : Json → Option Nat :=
  fun key => if lib.sameKey id key then some i else index key

/-- The constructor's loop body for the next element. -/
def push (lib : Library) (b : BatchResponse) (value : Json) : BatchResponse :=
  let i := b.response.length
  let b' := { b with response := b.response ++ [value] }
  match value.find "id" with
  | some id =>
    if validIdNotNull value ∧ (value.find "result").isSome then
      { b' with results := assign lib b.results id i }
    else if validIdNotNull value ∧ (value.find "error").isSome then
      { b' with errors := assign lib b.errors id i }
    else { b' with nullIds := b.nullIds ++ [i] }
  | none => { b' with nullIds := b.nullIds ++ [i] }

def ofResponse (lib : Library) (response : List Json) : BatchResponse :=
  response.foldl (push lib) ⟨[], fun _ => none, fun _ => none, []⟩

/-- `Get<json>`; for another type the result is converted afterwards. -/
def get (lib : Library) (b : BatchResponse) (id : Json) : Except Thrown Json :=
  match b.results id with
  | some i => .ok ((b.response.getD i .null).find "result" |>.getD .null)
  | none =>
    match b.errors id with
    | some i => .error (.rpc (.fromJson ((b.response.getD i .null).find "error" |>.getD .null)))
    | none =>
      match lib.dump id with
      | .ok text => .error (.rpc ⟨parseError, "no result found for id " ++ text, .null⟩)
      | .error t => .error t

end BatchResponse

section

variable {σ : Type}

def batchCall (lib : Library) (send : SendFunction σ) (request : List Json) (s : σ) :
    Option (Except Thrown BatchResponse × σ) :=
  match lib.dump (.array request) with
  | .error t => some (.error t, s)
  | .ok request =>
    (send request s).map fun (reply, s') =>
      match reply with
      | .error t => (.error t, s')
      | .ok text =>
        match lib.parse text with
        | .error what =>
          (.error (.rpc ⟨parseError, "invalid JSON response from server: " ++ what, .null⟩), s')
        | .ok (.array response) => (.ok (.ofResponse lib response), s')
        | .ok _ =>
          (.error (.rpc ⟨parseError, "invalid JSON response from server: expected array", .null⟩), s')

end

/-! ### What a batch should be answered with -/

/-- An element that passes the checks and has no id. -/
def isNotification (request : Json) : Bool :=
  match checkRequest request with
  | .ok _ => (request.find "id").isNone
  | .error _ => false

/-- A response object with this id: a result or an error, not both. -/
structure IsResponse (id v : Json) : Prop where
  object : v.isObject = true
  version : v.find "jsonrpc" = some (.string "2.0")
  id : v.find "id" = some id
  outcome : (v.find "result").isSome = !(v.find "error").isSome

/-- The elements to which a response is due. -/
def answerable (requests : List Json) : List Json := requests.filter fun r => !isNotification r

/-- The answer of JSON-RPC 2.0 to a batch. -/
inductive Answered : List Json → Reply → Prop where
  | emptyArray {v : Json} (h : IsResponse .null v) (herror : (v.find "error").isSome = true) :
    Answered [] (.dump v)
  | notifications {requests : List Json} (hne : requests ≠ [])
    (h : ∀ r ∈ requests, isNotification r = true) : Answered requests .empty
  | responses {requests responses : List Json} (hsome : ∃ r ∈ requests, isNotification r = false)
    (h : List.Forall₂ (fun r v => IsResponse (responseId r) v) (answerable requests) responses) :
    Answered requests (.dump (.array responses))

/-- The ids that are compared as they are: strings, and integers of 64 bits with
a sign. An `id_type` has an `int` or a string. -/
def IsKey (v : Json) : Prop := (∃ n, v = .int n ∧ -2 ^ 63 ≤ n ∧ n < 2 ^ 63) ∨ ∃ s, v = .string s

/-- All elements but notifications have such an id, and no two the same. -/
structure DistinctIds (requests : List Json) : Prop where
  keys : ∀ r ∈ answerable requests, IsKey (responseId r)
  distinct : (answerable requests).Pairwise fun r r' => responseId r ≠ responseId r'

/-- The result of a response, or its error. -/
def outcomeOf (v : Json) : Except Thrown Json :=
  match v.find "result" with
  | some result => .ok result
  | none => .error (.rpc (.fromJson (v.find "error" |>.getD .null)))

/-- The answer is returned, it is the one that is due, and the results and errors
of distinct ids are found in it. -/
structure BatchServed (lib : Library) (requests : List Json) (reply : Reply) : Prop where
  returned : ∃ text, reply.text lib = .ok text
  answered : Answered requests reply
  get : ∀ responses, reply = .dump (.array responses) → DistinctIds requests →
    List.Forall₂ (fun r v => (BatchResponse.ofResponse lib responses).get lib (responseId r) =
      outcomeOf v) (answerable requests) responses

end CodeStudy.Jsonrpc
