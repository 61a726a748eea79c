import CodeStudy.Jsonrpc.Server
import Mathlib.Tactic

/-!
# Calls over the in-memory connector

`client.hpp` with `inmemoryconnector.hpp`. A call goes through the encoding of
the request, its checks, the parameters' order, the handler, the response and
its decoding; what comes out is what the handler returned or threw.
-/

namespace CodeStudy.Jsonrpc

inductive Version where
  | v1
  | v2
deriving DecidableEq, Repr

/-- `id_type`. -/
inductive Id where
  | int (n : Int32)
  | string (s : String)
deriving DecidableEq, Repr

def Id.toJson : Id → Json
  | .int n => .int n.toInt
  | .string s => .string s

/-- The parameters of the overloads of `CallMethod` and of `CallMethodNamed`. -/
inductive Params where
  | none
  | positional (params : List Json)
  | named (params : OrdMap String Json)

def Params.toJson : Params → Json
  | .none => .object []
  | .positional params => .array params
  | .named params => .object params.entries

/-- The request that `call_method` sends. -/
def callRequest (v : Version) (id : Id) (name : String) (params : Json) : Json :=
  let j := (Json.ofEntries [("method", .string name)]).set "id" id.toJson
  let j := if v = .v2 then j.set "jsonrpc" (.string "2.0") else j
  if !params.empty && !params.isNull then j.set "params" params
  else if params.isArray then j.set "params" params
  else if v = .v1 then j.set "params" .null
  else j

structure JsonRpcResponse where
  id : Id
  result : Json

/-- The id of a response, as a string or as an `int`. -/
def Json.getId (lib : Library) (v : Json) : Option (Except Thrown Id) :=
  match v with
  | .string s => some (.ok (.string s))
  | v => (v.getInt lib).map fun converted => converted.map fun n => .int (Int32.ofInt n)

/-- What `call_method` makes of the response. -/
def readResponse (lib : Library) (response : Json) : Option (Except Thrown JsonRpcResponse) :=
  match response.find "error" with
  | some (.object entries) => some (.error (.rpc (.fromJson (.object entries))))
  | some (.string message) => some (.error (.rpc ⟨internalError, message, .null⟩))
  | _ =>
    match response.find "result", response.find "id" with
    | some result, some id =>
      (id.getId lib).map fun converted => converted.map fun id => ⟨id, result⟩
    | _, _ =>
      some (.error (.rpc ⟨internalError,
        "invalid server response: neither \"result\" nor \"error\" fields found", .null⟩))

/-- `IClientConnector::Send`. -/
abbrev SendFunction (σ : Type) := String → σ → Option (Except Thrown String × σ)

variable {σ : Type}

def callMethod (lib : Library) (send : SendFunction σ) (v : Version) (id : Id) (name : String)
    (params : Params) (s : σ) : Option (Except Thrown JsonRpcResponse × σ) :=
  match lib.dump (callRequest v id name params.toJson) with
  | .error t => some (.error t, s)
  | .ok request =>
    (send request s).bind fun (reply, s') =>
      match reply with
      | .error t => some (.error t, s')
      | .ok text =>
        match lib.parse text with
        | .error what =>
          some (.error (.rpc ⟨parseError, "invalid JSON response from server: " ++ what, .null⟩), s')
        | .ok response => (readResponse lib response).map (·, s')

/-- `InMemoryConnector::Send`. -/
def inMemory (lib : Library) (d : Dispatcher σ) : SendFunction σ := fun text s =>
  (d.handleRequest lib text s).map fun (reply, s') => (reply.text lib, s')

/-- The positional parameters that the parameters of a call stand for. -/
def Params.Denotes (d : Dispatcher σ) (name : String) : Params → List Json → Prop
  | .none, l => l = []
  | .positional params, l => l = params
  | .named params, l =>
    params.entries = [] ∧ l = [] ∨
      ∃ names, d.mapping name = some names ∧ params.entries ≠ [] ∧
        names.val.map params.lookup = l.map some

/-! ### Objects -/

namespace Json

@[simp] theorem isObject_set (v : Json) (key : String) (value : Json) :
    (v.set key value).isObject = v.isObject := by
  cases v <;> rfl

@[simp] theorem isObject_object (entries : List (String × Json)) :
    (Json.object entries).isObject = true := rfl

theorem find_set_of_isObject {v : Json} (h : v.isObject = true) (key : String) (value : Json)
    (query : String) :
    (v.set key value).find query = if query = key then some value else v.find query := by
  cases v with
  | object entries => exact find_set entries key value query
  | null | bool | int | float | string | array => simp [isObject] at h

@[simp] theorem find_object_nil (key : String) : (Json.object []).find key = Option.none := rfl

theorem eq_object_of_isObject {v : Json} (h : v.isObject = true) :
    ∃ entries, v = .object entries := by
  cases v with
  | object entries => exact ⟨entries, rfl⟩
  | null | bool | int | float | string | array => simp [isObject] at h

end Json

/-- A request is accepted when its four fields are as they should be. -/
theorem checkRequest_eq_ok {request : Json} {name : String}
    (hjsonrpc : request.find "jsonrpc" = some (.string "2.0"))
    (hmethod : request.find "method" = some (.string name))
    (hid : (request.find "id").isSome = true → validId request = true)
    (hparams : ∀ params, request.find "params" = some params →
      params.isArray = true ∨ params.isObject = true) :
    checkRequest request = .ok name := by
  have hvalid : ¬ ((request.find "id").isSome && !validId request) = true := by
    intro h
    obtain ⟨hsome, hinvalid⟩ := Bool.and_eq_true_iff.mp h
    simp [hid hsome] at hinvalid
  simp only [checkRequest, hjsonrpc, hmethod, if_neg hvalid]
  cases hfind : request.find "params" with
  | none => rfl
  | some params =>
    have hkind := hparams params hfind
    cases params with
    | null | array | object => rfl
    | bool | int | float | string => simp [Json.isArray, Json.isObject] at hkind

section Request

variable (id : Id) (name : String) (params : Json)

theorem isObject_callRequest (v : Version) : (callRequest v id name params).isObject = true := by
  unfold callRequest
  split_ifs <;> simp [Json.ofEntries]

theorem find_jsonrpc_callRequest :
    (callRequest .v2 id name params).find "jsonrpc" = some (.string "2.0") := by
  simp only [callRequest, ↓reduceIte]
  split_ifs <;> simp [Json.ofEntries, Json.find_set_of_isObject]

theorem find_method_callRequest (v : Version) :
    (callRequest v id name params).find "method" = some (.string name) := by
  unfold callRequest
  split_ifs <;> simp [Json.ofEntries, Json.find_set_of_isObject, Json.find_set]

theorem find_id_callRequest (v : Version) :
    (callRequest v id name params).find "id" = some id.toJson := by
  unfold callRequest
  split_ifs <;> simp [Json.ofEntries, Json.find_set_of_isObject]

theorem find_params_callRequest :
    (callRequest .v2 id name params).find "params" =
      if params.empty = true ∧ params.isArray = false then Option.none else some params := by
  unfold callRequest
  cases params with
  | null =>
    simp [Json.ofEntries, Json.find_set_of_isObject, Json.find_set, Json.empty, Json.isArray,
      Json.isNull]
  | array elements =>
    simp [Json.ofEntries, Json.find_set_of_isObject, Json.empty, Json.isArray, Json.isNull]
  | object entries =>
    by_cases hentries : entries.isEmpty = true <;>
      simp [Json.ofEntries, Json.find_set_of_isObject, Json.find_set, Json.empty, Json.isArray,
        Json.isNull, hentries]
  | bool | int | float | string =>
    simp [Json.ofEntries, Json.find_set_of_isObject, Json.empty, Json.isArray, Json.isNull]

theorem validId_callRequest (v : Version) : validId (callRequest v id name params) = true := by
  unfold validId
  rw [find_id_callRequest]
  cases id <;> rfl

theorem checkRequest_callRequest (h : params.isArray = true ∨ params.isObject = true) :
    checkRequest (callRequest .v2 id name params) = .ok name := by
  apply checkRequest_eq_ok (find_jsonrpc_callRequest id name params)
    (find_method_callRequest id name params .v2)
  · exact fun _ => validId_callRequest id name params .v2
  · intro found hfound
    rw [find_params_callRequest] at hfound
    split_ifs at hfound
    obtain rfl := Option.some.inj hfound
    exact h

end Request

theorem Params.isArray_or_isObject (params : Params) :
    params.toJson.isArray = true ∨ params.toJson.isObject = true := by
  cases params with
  | none => exact .inr rfl
  | positional => exact .inl rfl
  | named => exact .inr rfl

theorem mapM_namedParameter {params : Json} {names : List String} {l : List Json}
    (h : names.map params.find = l.map some) :
    names.mapM (Dispatcher.namedParameter params) = .ok l := by
  induction names generalizing l with
  | nil =>
    obtain rfl : l = [] := by simpa using h.symm
    rfl
  | cons name names ih =>
    cases l with
    | nil => simp at h
    | cons v l =>
      simp only [List.map_cons, List.cons.injEq] at h
      have hname : Dispatcher.namedParameter params name = .ok v := by
        simp [Dispatcher.namedParameter, h.1]
      rw [List.mapM_cons, hname, ih h.2]
      rfl

/-- The server puts the parameters of a call into their order. -/
theorem normalizeParameter_requestParams {d : Dispatcher σ} {name : String} {params : Params}
    {l : List Json} (h : params.Denotes d name l) (id : Id) :
    d.normalizeParameter name (requestParams (callRequest .v2 id name params.toJson)) =
      .ok (.array l) := by
  unfold requestParams
  rw [find_params_callRequest]
  cases params with
  | none =>
    obtain rfl : l = [] := h
    simp [Params.toJson, Json.empty, Json.isArray, Dispatcher.normalizeParameter]
  | positional params =>
    obtain rfl : l = params := h
    simp [Params.toJson, Json.isArray, Dispatcher.normalizeParameter]
  | named params =>
    obtain ⟨hempty, rfl⟩ | ⟨names, hmapping, hne, hnames⟩ := h
    · simp [Params.toJson, Json.empty, Json.isArray, hempty, Dispatcher.normalizeParameter]
    · have hfind : names.val.map (Json.object params.entries).find = l.map some := hnames
      have hnonempty : (Json.object params.entries).empty = false := by
        simpa [Json.empty] using hne
      simp [Params.toJson, hnonempty, Dispatcher.normalizeParameter, hmapping,
        mapM_namedParameter hfind, Except.map]

/-! ### Responses -/

theorem isNull_of_isObject {v : Json} (h : v.isObject = true) : v.isNull = false := by
  cases v with
  | object => rfl
  | null | bool | int | float | string | array => simp [Json.isObject] at h

theorem isObject_resultResponse (id result : Json) : (resultResponse id result).isObject = true := by
  simp [resultResponse, Json.ofEntries]

theorem isObject_errorResponse (id error : Json) : (errorResponse id error).isObject = true := by
  simp [errorResponse, Json.ofEntries]

theorem find_resultResponse (id result : Json) (key : String) :
    (resultResponse id result).find key =
      if key = "result" then some result
      else if key = "id" then some id
      else if key = "jsonrpc" then some (.string "2.0")
      else none := by
  simp [resultResponse, Json.ofEntries, Json.find_set_of_isObject, Json.find_set]

theorem find_errorResponse (id error : Json) (key : String) :
    (errorResponse id error).find key =
      if key = "jsonrpc" then some (.string "2.0")
      else if key = "error" then some error
      else if key = "id" then some id
      else none := by
  simp [errorResponse, Json.ofEntries, Json.find_set_of_isObject, Json.find_set]

theorem isObject_toError (t : Thrown) : t.toError.isObject = true := by
  cases t with
  | rpc e =>
    by_cases hnull : e.data.isNull = true <;>
      simp [Thrown.toError, hnull, errorObject, Json.ofEntries]
  | typeError | std | other => simp [Thrown.toError, errorObject, Json.ofEntries]

/-- The client reads the exception that the server wrote. -/
theorem fromJson_toError (e : JsonRpcException) :
    JsonRpcException.fromJson (Thrown.rpc e).toError = e := by
  obtain ⟨code, message, data⟩ := e
  unfold Thrown.toError
  by_cases hnull : data.isNull = true
  · have hdata : data = .null := by
      cases data with
      | null => rfl
      | bool | int | float | string | array | object => simp [Json.isNull] at hnull
    subst hdata
    simp [JsonRpcException.fromJson, errorObject, Json.ofEntries, Json.find_set_of_isObject,
      Json.find_set, Json.isNull]
  · simp [JsonRpcException.fromJson, errorObject, Json.ofEntries, Json.find_set_of_isObject,
      Json.find_set, hnull]

theorem readResponse_resultResponse (lib : Library) (id : Id) (result : Json) :
    readResponse lib (resultResponse id.toJson result) = some (.ok ⟨id, result⟩) := by
  unfold readResponse
  simp only [find_resultResponse]
  cases id with
  | int n => simp [Id.toJson, Json.getId, Json.getInt, Json.getInteger, Except.map]
  | string s => simp [Id.toJson, Json.getId, Except.map]

theorem readResponse_errorResponse (lib : Library) (id : Json) (e : JsonRpcException) :
    readResponse lib (errorResponse id (Thrown.rpc e).toError) = some (.error (.rpc e)) := by
  obtain ⟨entries, hentries⟩ := Json.eq_object_of_isObject (isObject_toError (.rpc e))
  have herror := fromJson_toError e
  rw [hentries] at herror
  simp [readResponse, find_errorResponse, hentries, herror]

/-! ### A call from end to end -/

section Call

variable {lib : Library} {d : Dispatcher σ} {id : Id} {name : String} {params : Params}
  {l : List Json} {handler : Handle σ Json}

theorem responseId_callRequest (id : Id) (name : String) (params : Json) :
    responseId (callRequest .v2 id name params) = id.toJson := by
  simp [responseId, validId_callRequest, find_id_callRequest]

/-- The server's part: the handler runs once, on the positional parameters. -/
theorem handleSingleRequest_callRequest (hmethod : d.methods name = some handler)
    (hparams : params.Denotes d name l) (s : σ) :
    d.handleSingleRequest lib (callRequest .v2 id name params.toJson) s =
      match handler (.array l) s with
      | (.ok v, s') => some (resultResponse id.toJson v, s')
      | (.error t, s') =>
        (d.rethrow lib name t).map fun t' => (errorResponse id.toJson t'.toError, s') := by
  unfold Dispatcher.handleSingleRequest Dispatcher.processSingleRequest Dispatcher.invokeMethod
    Dispatcher.invoke
  rw [checkRequest_callRequest id name params.toJson params.isArray_or_isObject]
  simp only [find_id_callRequest, hmethod, normalizeParameter_requestParams hparams,
    responseId_callRequest]
  obtain ⟨outcome, s'⟩ := handler (.array l) s
  cases outcome with
  | ok v => rfl
  | error t =>
    cases hrethrow : d.rethrow lib name t <;> simp [hrethrow, Except.map]

theorem handleRequest_callRequest (hmethod : d.methods name = some handler)
    (hparams : params.Denotes d name l)
    {text : String} (hrequest : lib.parse text = .ok (callRequest .v2 id name params.toJson)) (s : σ) :
    d.handleRequest lib text s =
      match handler (.array l) s with
      | (.ok v, s') => some (.dump (resultResponse id.toJson v), s')
      | (.error t, s') =>
        (d.rethrow lib name t).map fun t' => (.dump (errorResponse id.toJson t'.toError), s') := by
  obtain ⟨entries, hentries⟩ :=
    Json.eq_object_of_isObject (isObject_callRequest id name params.toJson .v2)
  have hhandle : d.handleSingleRequest lib (callRequest .v2 id name params.toJson) s = _ :=
    handleSingleRequest_callRequest hmethod hparams s
  unfold Dispatcher.handleRequest
  rw [hrequest]
  unfold Dispatcher.handleJson
  rw [hentries] at hhandle ⊢
  simp only [hhandle]
  obtain ⟨outcome, s'⟩ := handler (.array l) s
  cases outcome with
  | ok v => simp [isNull_of_isObject (isObject_resultResponse _ _)]
  | error t =>
    cases hrethrow : d.rethrow lib name t <;>
      simp [hrethrow, isNull_of_isObject (isObject_errorResponse _ _)]

/-- The whole call: what the handler returns, and what it throws as the
dispatcher throws it on. -/
theorem callMethod_eq (hmethod : d.methods name = some handler) (hparams : params.Denotes d name l)
    (hrequest : lib.Inverts (callRequest .v2 id name params.toJson)) {s : σ}
    (hresponse : ∀ text v s', lib.dump (callRequest .v2 id name params.toJson) = .ok text →
      d.handleRequest lib text s = some (.dump v, s') → lib.Inverts v) :
    callMethod lib (inMemory lib d) .v2 id name params s =
      match handler (.array l) s with
      | (.ok v, s') => some (.ok ⟨id, v⟩, s')
      | (.error t, s') =>
        (d.rethrow lib name t).bind fun t' =>
          (readResponse lib (errorResponse id.toJson t'.toError)).map (·, s') := by
  obtain ⟨request, hdump, hparse⟩ := hrequest
  have hhandle := handleRequest_callRequest hmethod hparams hparse s
  have hresponse := hresponse request
  unfold callMethod inMemory
  simp only [hdump]
  rw [hhandle] at hresponse ⊢
  revert hresponse
  obtain ⟨outcome, s'⟩ := handler (.array l) s
  intro hresponse
  cases outcome with
  | ok v =>
    obtain ⟨text, htext, hinverts⟩ := hresponse _ _ hdump rfl
    simp [Reply.text, htext, hinverts, readResponse_resultResponse]
  | error t =>
    cases hrethrow : d.rethrow lib name t with
    | none => simp [hrethrow]
    | some t' =>
      simp only [hrethrow] at hresponse
      obtain ⟨text, htext, hinverts⟩ := hresponse _ _ hdump rfl
      simp [hrethrow, Reply.text, htext, hinverts]

end Call

end CodeStudy.Jsonrpc
