import CodeStudy.Jsonrpc.Client

/-!
# What a caller gets

A call over the in-memory connector is the handler, for its results and for its
exceptions. The one exception that changes on the way is an `invalid_params`
error with data: the dispatcher reads the data as the index of the parameter
that is wrong, and puts its name into the message.
-/

namespace CodeStudy.Jsonrpc

variable {σ : Type}

theorem Dispatcher.rethrow_rpc (lib : Library) (d : Dispatcher σ) (name : String)
    {e : JsonRpcException} (h : e.code ≠ -32602 ∨ e.data.empty = true) :
    d.rethrow lib name (.rpc e) = some (.rpc e) := by
  have hkeep : ¬(e.code = -32602 ∧ e.data.empty = false) := by
    rintro ⟨hcode, hdata⟩
    obtain hne | hempty := h
    · exact hne hcode
    · exact absurd (hdata.symm.trans hempty) (by simp)
  simp [rethrow, processTypeError, hkeep]

/-- The rewritten exception: the same code, the parameter in the message and no
data. -/
theorem Dispatcher.of_processTypeError {lib : Library} {d : Dispatcher σ} {name : String}
    {e e' : JsonRpcException} (hcode : e.code = -32602) (hdata : e.data.empty = false)
    (h : d.processTypeError lib name e = some (.ok e')) :
    e'.code = e.code ∧ e'.data = .null ∧
      ∃ parameter, e'.message = e.message ++ " for parameter " ++ parameter := by
  unfold processTypeError at h
  rw [if_pos ⟨hcode, hdata⟩] at h
  obtain ⟨converted, -, h⟩ := Option.bind_eq_some_iff.mp h
  cases converted with
  | error t => simp at h
  | ok index =>
    cases hmapping : d.mapping name with
    | none =>
      simp only [hmapping, Option.some_inj, Except.ok.injEq] at h
      subst h
      exact ⟨rfl, rfl, toString index, rfl⟩
    | some names =>
      simp only [hmapping] at h
      obtain ⟨parameter, -, heq⟩ := Option.map_eq_some_iff.mp h
      obtain rfl := Except.ok.inj heq
      refine ⟨rfl, rfl, "\"" ++ parameter ++ "\"", ?_⟩
      simp only [String.append_assoc]

/-- A call yields what the handler returns on the positional parameters, and
throws what it throws. -/
theorem callMethod_handler (lib : Library) (d : Dispatcher σ) (id : Id) (name : String)
    (params : Params) (l : List Json) (handler : Handle σ Json) (s : σ)
    (hmethod : d.methods name = some handler) (hparams : params.Denotes d name l)
    (hrequest : lib.Inverts (callRequest .v2 id name params.toJson))
    (hresponse : ∀ text v s', lib.dump (callRequest .v2 id name params.toJson) = .ok text →
      d.handleRequest lib text s = some (.dump v, s') → lib.Inverts v) :
    (∀ v s', handler (.array l) s = (.ok v, s') →
      callMethod lib (inMemory lib d) .v2 id name params s = some (.ok ⟨id, v⟩, s')) ∧
    (∀ e s', handler (.array l) s = (.error (.rpc e), s') → e.code ≠ -32602 ∨ e.data.empty = true →
      callMethod lib (inMemory lib d) .v2 id name params s = some (.error (.rpc e), s')) ∧
    ∀ e e' s', handler (.array l) s = (.error (.rpc e), s') →
      e.code = -32602 → e.data.empty = false → d.processTypeError lib name e = some (.ok e') →
      callMethod lib (inMemory lib d) .v2 id name params s = some (.error (.rpc e'), s') ∧
        e'.code = e.code ∧ e'.data = .null ∧
          ∃ parameter, e'.message = e.message ++ " for parameter " ++ parameter := by
  have hcall := callMethod_eq hmethod hparams hrequest hresponse
  refine ⟨?_, ?_, ?_⟩
  · intro v s' hhandler
    rw [hcall, hhandler]
  · intro e s' hhandler hkeep
    rw [hcall, hhandler]
    simp [d.rethrow_rpc lib name hkeep, readResponse_errorResponse]
  · intro e e' s' hhandler hcode hdata hprocess
    refine ⟨?_, Dispatcher.of_processTypeError hcode hdata hprocess⟩
    have hrethrow : d.rethrow lib name (.rpc e) = some (.rpc e') := by
      simp [Dispatcher.rethrow, hprocess]
    rw [hcall, hhandler]
    simp [hrethrow, readResponse_errorResponse]

/-! ### One exchange -/

/-- The library on the two messages of an exchange, whose texts are UTF-8. -/
def exchangeLibrary (request response : Json) (requestText responseText : String) : Library where
  parse text :=
    if text = requestText then .ok request
    else if text = responseText then .ok response
    else .error "syntax error"
  write v := if (v.find "method").isSome then requestText else responseText
  notUtf8 _ := none
  truncate _ := none
  sameKey v w :=
    match v, w with
    | .int m, .int n => m == n
    | .string s, .string t => s == t
    | _, _ => false

section Exchange

variable {request response : Json} {requestText responseText : String}

theorem inverts_request (h : (request.find "method").isSome = true) :
    (exchangeLibrary request response requestText responseText).Inverts request := by
  exact ⟨requestText, Library.dump_eq_ok.mpr ⟨fun _ _ => rfl, by simp [exchangeLibrary, h]⟩, by simp [exchangeLibrary]⟩

theorem inverts_response (h : response.find "method" = none) (hne : responseText ≠ requestText) :
    (exchangeLibrary request response requestText responseText).Inverts response := by
  exact ⟨responseText, Library.dump_eq_ok.mpr ⟨fun _ _ => rfl, by simp [exchangeLibrary, h]⟩,
    by simp [exchangeLibrary, hne]⟩

end Exchange

/-- A method `subtract` with named parameters. -/
def subtract : Handle Unit Json := fun params s =>
  match params with
  | .array [.int a, .int b] => (.ok (.int (a - b)), s)
  | _ => (.error (.rpc ⟨invalidParams, "two integers expected", .null⟩), s)

def subtractServer : Dispatcher Unit :=
  (Dispatcher.initial.addMethod "subtract" subtract ["minuend", "subtrahend"]).2

def subtractParams : Params :=
  .named ((OrdMap.empty.insert "subtrahend" (.int 23)).insert "minuend" (.int 42))

def subtractLibrary : Library :=
  exchangeLibrary (callRequest .v2 (.int 3) "subtract" subtractParams.toJson)
    (resultResponse (.int 3) (.int 19))
    ("\x7b\"id\":3,\"jsonrpc\":\"2.0\",\"method\":\"subtract\"," ++
      "\"params\":\x7b\"minuend\":42,\"subtrahend\":23\x7d\x7d")
    "\x7b\"id\":3,\"jsonrpc\":\"2.0\",\"result\":19\x7d"

theorem subtractServer_methods : subtractServer.methods "subtract" = some subtract := by
  have hprefix : "subtract".startsWith "rpc." = false := by simp
  simp [subtractServer, Dispatcher.addMethod, Dispatcher.initial, Dispatcher.contains, hprefix]

theorem subtractParams_denotes :
    subtractParams.Denotes subtractServer "subtract" [.int 42, .int 23] := by
  have hprefix : "subtract".startsWith "rpc." = false := by simp
  refine .inr ⟨⟨["minuend", "subtrahend"], by simp⟩, ?_, ?_, ?_⟩
  · simp [subtractServer, Dispatcher.addMethod, Dispatcher.initial, Dispatcher.contains, hprefix,
      Dispatcher.mappingWith]
  · intro hempty
    have hlength := congrArg List.length hempty
    revert hlength
    decide
  · simp only [List.map_cons, List.map_nil]
    rw [OrdMap.lookup_insert, if_pos rfl, OrdMap.lookup_insert, if_neg (by decide),
      OrdMap.lookup_insert, if_pos rfl]

theorem callMethod_handler_subtract :
    callMethod subtractLibrary (inMemory subtractLibrary subtractServer) .v2 (.int 3) "subtract"
      subtractParams () = some (.ok ⟨.int 3, .int 19⟩, ()) := by
  have hrequest : subtractLibrary.Inverts
      (callRequest .v2 (.int 3) "subtract" subtractParams.toJson) := by
    apply inverts_request
    rw [find_method_callRequest]
    rfl
  apply (callMethod_handler subtractLibrary subtractServer (.int 3) "subtract" subtractParams
    [.int 42, .int 23] subtract () subtractServer_methods subtractParams_denotes hrequest ?_).1
  · rfl
  · intro text v s' hdump hhandle
    have hparse := hrequest.parse hdump
    rw [handleRequest_callRequest subtractServer_methods subtractParams_denotes hparse] at hhandle
    obtain ⟨hv, -⟩ := Prod.mk.inj (Option.some.inj hhandle)
    obtain rfl := Reply.dump.inj hv
    exact inverts_response (by simp [find_resultResponse]) (by decide)

/-! ### What a caller does not get -/

/-- A method that names the parameter that is wrong in the data. -/
def divide : Handle Unit Json := fun _ s =>
  (.error (.rpc ⟨invalidParams, "must not be zero", .int 1⟩), s)

def divideServer : Dispatcher Unit := (Dispatcher.initial.addMethod "divide" divide []).2

/-- The exception as the dispatcher throws it on. -/
def divideError : JsonRpcException := ⟨invalidParams, "must not be zero for parameter 1", .null⟩

def divideLibrary : Library :=
  exchangeLibrary (callRequest .v2 (.int 4) "divide" (.array [.int 1, .int 0]))
    (errorResponse (.int 4) (Thrown.rpc divideError).toError)
    "\x7b\"id\":4,\"jsonrpc\":\"2.0\",\"method\":\"divide\",\"params\":[1,0]\x7d"
    ("\x7b\"error\":\x7b\"code\":-32602,\"message\":\"must not be zero for parameter 1\"\x7d," ++
      "\"id\":4,\"jsonrpc\":\"2.0\"\x7d")

theorem divideServer_methods : divideServer.methods "divide" = some divide := by
  have hprefix : "divide".startsWith "rpc." = false := by simp
  simp [divideServer, Dispatcher.addMethod, Dispatcher.initial, Dispatcher.contains, hprefix]

theorem divideServer_mapping : divideServer.mapping "divide" = none := by
  have hprefix : "divide".startsWith "rpc." = false := by simp
  simp [divideServer, Dispatcher.addMethod, Dispatcher.initial, Dispatcher.contains, hprefix,
    Dispatcher.mappingWith]

theorem divideServer_rethrow :
    divideServer.rethrow divideLibrary "divide" (.rpc ⟨invalidParams, "must not be zero", .int 1⟩) =
      some (.rpc divideError) := by
  have hindex : Int.repr 1 = "1" := by decide
  simp [Dispatcher.rethrow, Dispatcher.processTypeError, invalidParams, Json.empty,
    Json.getUnsigned, Json.getInteger, divideServer_mapping, divideError, hindex]

/-- A request without `jsonrpc`, as a client of version 1 sends it, is refused. -/
theorem checkRequest_v1 (id : Id) (name : String) (params : Json) :
    checkRequest (callRequest .v1 id name params) =
      .error "invalid request: missing jsonrpc field set to \"2.0\"" := by
  have hfind : (callRequest .v1 id name params).find "jsonrpc" = none := by
    simp only [callRequest, reduceCtorEq, ↓reduceIte]
    split_ifs <;> simp [Json.ofEntries, Json.find_set_of_isObject, Json.find_set]
  unfold checkRequest
  rw [hfind]

/-- The handler throws code -32602, "must not be zero" and the data 1; the
caller receives another message and no data. A client of version 1 gets no call
through to the handler. -/
theorem callMethod_divide :
    checkRequest (callRequest .v1 (.int 4) "divide" (.array [.int 1, .int 0])) =
        .error "invalid request: missing jsonrpc field set to \"2.0\"" ∧
    (divide (.array [.int 1, .int 0]) ()).1 =
        .error (.rpc ⟨-32602, "must not be zero", .int 1⟩) ∧
      callMethod divideLibrary (inMemory divideLibrary divideServer) .v2 (.int 4) "divide"
        (.positional [.int 1, .int 0]) () =
          some (.error (.rpc ⟨-32602, "must not be zero for parameter 1", .null⟩), ()) := by
  have hrequest : divideLibrary.Inverts
      (callRequest .v2 (.int 4) "divide" (Params.positional [.int 1, .int 0]).toJson) := by
    apply inverts_request
    rw [find_method_callRequest]
    rfl
  have hparams : (Params.positional [.int 1, .int 0]).Denotes divideServer "divide"
    [.int 1, .int 0] := rfl
  refine ⟨checkRequest_v1 _ _ _, rfl, ?_⟩
  rw [callMethod_eq divideServer_methods hparams hrequest ?_]
  · simp only [divide, divideServer_rethrow, Option.bind_some, readResponse_errorResponse]
    rfl
  · intro text v s' hdump hhandle
    rw [handleRequest_callRequest divideServer_methods hparams (hrequest.parse hdump)] at hhandle
    simp only [divide, divideServer_rethrow, Option.map_some, Option.some_inj] at hhandle
    obtain ⟨hv, -⟩ := Prod.mk.inj hhandle
    obtain rfl := Reply.dump.inj hv
    exact inverts_response (by simp [find_errorResponse]) (by decide)

end CodeStudy.Jsonrpc
