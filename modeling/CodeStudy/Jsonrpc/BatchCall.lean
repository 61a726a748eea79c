import CodeStudy.Jsonrpc.BatchServed

/-!
# A batch from end to end

`BatchCall` over the in-memory connector. The handlers run one after another, and
each call is given what its own handler returned or threw, wherever the
notifications of the batch stand.
-/

namespace CodeStudy.Jsonrpc

variable {σ : Type}

/-! ### The elements -/

theorem checkRequest_methodCall (id : Id) (name : String) (params : Params) :
    checkRequest (methodCall id name params) = .ok name ∧
      (methodCall id name params).find "id" = some id.toJson := by
  have hid : (methodCall id name params).find "id" = some id.toJson := by
    simp [methodCall, Json.ofEntries, Json.find_set_of_isObject]
  refine ⟨checkRequest_eq_ok ?_ ?_ ?_ ?_, hid⟩
  · simp [methodCall, Json.ofEntries, Json.find_set_of_isObject]
  · simp [methodCall, Json.ofEntries, Json.find_set_of_isObject, Json.find_set]
  · intro _
    rw [validId, hid]
    cases id <;> rfl
  · have hparams := params.isArray_or_isObject
    simpa [methodCall, Json.ofEntries, Json.find_set_of_isObject] using hparams

theorem isNotification_methodCall (id : Id) (name : String) (params : Params) :
    isNotification (methodCall id name params) = false := by
  obtain ⟨hcheck, hid⟩ := checkRequest_methodCall id name params
  simp [isNotification, hcheck, hid]

theorem responseId_methodCall (id : Id) (name : String) (params : Params) :
    responseId (methodCall id name params) = id.toJson := by
  obtain ⟨hcheck, hid⟩ := checkRequest_methodCall id name params
  rw [responseId, if_pos (Dispatcher.validId_of_checkRequest hcheck hid), hid, Option.getD_some]

theorem Id.toJson_injective : Function.Injective Id.toJson := by
  intro a b h
  cases a with
  | int m =>
    cases b with
    | int n => rw [Int32.toInt_inj.mp (Json.int.inj h)]
    | string t => simp [Id.toJson] at h
  | string s =>
    cases b with
    | int n => simp [Id.toJson] at h
    | string t => rw [Json.string.inj h]

/-- The answers that are due to a batch of the client have the ids of its calls. -/
theorem responseId_answerable (entries : List BatchEntry) :
    (answerable (entries.map BatchEntry.toJson)).map responseId =
      (entries.filterMap BatchEntry.id?).map Id.toJson := by
  induction entries with
  | nil => rfl
  | cons entry entries ih =>
    unfold answerable at ih ⊢
    cases entry with
    | method id name params =>
      simp [BatchEntry.toJson, BatchEntry.id?, isNotification_methodCall, responseId_methodCall, ih]
    | notification name params =>
      rw [List.filterMap_cons_none rfl]
      simp [BatchEntry.toJson, isNotification_notificationCall, ih]

theorem distinctIds_toJson {entries : List BatchEntry}
    (h : (entries.filterMap BatchEntry.id?).Nodup) :
    DistinctIds (entries.map BatchEntry.toJson) where
  keys := by
    intro r hr
    have hmem : responseId r ∈ (entries.filterMap BatchEntry.id?).map Id.toJson := by
      rw [← responseId_answerable]
      exact List.mem_map_of_mem hr
    obtain ⟨id, -, hid⟩ := List.mem_map.mp hmem
    rw [← hid]
    cases id with
    | int n =>
      have hle := n.le_toInt
      have hlt := n.toInt_lt
      exact .inl ⟨n.toInt, rfl, by omega, by omega⟩
    | string s => exact .inr ⟨s, rfl⟩
  distinct := by
    apply List.pairwise_map.mp
    rw [responseId_answerable]
    exact h.map Id.toJson_injective

/-! ### What the calls come to -/

namespace Dispatcher

/-- What a call comes to for its caller: the handler's result, or the exception that
its error object is read as. -/
def callOutcome (lib : Library) (d : Dispatcher σ) (name : String) (params : Json) (s : σ) :
    Option (Except Thrown Json) :=
  (d.invokeMethod lib name params s).map fun (result, _) =>
    result.mapError fun t => .rpc (.fromJson t.toError)

/-- What the calls of a batch come to, each in the state that the elements before it leave. -/
def callOutcomes (lib : Library) (d : Dispatcher σ) :
    List BatchEntry → σ → List (Option (Except Thrown Json))
  | [], _ => []
  | .method id name params :: entries, s =>
    d.callOutcome lib name params.toJson s ::
      d.callOutcomes lib entries (d.runElement (methodCall id name params) s).2
  | .notification name params :: entries, s =>
    d.callOutcomes lib entries (d.runElement (notificationCall name params) s).2

end Dispatcher

theorem requestParams_methodCall (id : Id) (name : String) (params : Params) :
    requestParams (methodCall id name params) = params.toJson := by
  have hfind : (methodCall id name params).find "params" = some params.toJson := by
    simp [methodCall, Json.ofEntries, Json.find_set_of_isObject]
  rw [requestParams, hfind]
  cases params with
  | none | positional | named => rfl

theorem outcomeOf_resultResponse (id v : Json) : outcomeOf (resultResponse id v) = .ok v := by
  simp [outcomeOf, find_resultResponse]

theorem outcomeOf_errorResponse (id error : Json) :
    outcomeOf (errorResponse id error) = .error (.rpc (.fromJson error)) := by
  simp [outcomeOf, find_errorResponse]

section

variable {lib : Library} {d : Dispatcher σ}

/-- The response to a call is made of what its handler gives. -/
theorem handleSingleRequest_methodCall (id : Id) (name : String) (params : Params) (s : σ) :
    d.handleSingleRequest lib (methodCall id name params) s =
      (d.invokeMethod lib name params.toJson s).map fun (result, s') =>
        match result with
        | .ok v => (resultResponse id.toJson v, s')
        | .error t => (errorResponse id.toJson t.toError, s') := by
  obtain ⟨hcheck, hid⟩ := checkRequest_methodCall id name params
  unfold Dispatcher.handleSingleRequest Dispatcher.processSingleRequest
  simp only [hcheck, hid, requestParams_methodCall, responseId_methodCall, Option.map_map]
  congr 1
  funext given
  obtain ⟨result, s'⟩ := given
  cases result with
  | ok v => rfl
  | error t => rfl

theorem callOutcome_of_handleSingleRequest {id : Id} {name : String} {params : Params} {v : Json} {s s' : σ}
    (h : d.handleSingleRequest lib (methodCall id name params) s = some (v, s')) :
    d.callOutcome lib name params.toJson s = some (outcomeOf v) := by
  rw [handleSingleRequest_methodCall] at h
  obtain ⟨⟨result, s₁⟩, hinvoke, hgiven⟩ := Option.map_eq_some_iff.mp h
  rw [Dispatcher.callOutcome, hinvoke]
  cases result with
  | ok value =>
    obtain ⟨rfl, -⟩ := Prod.mk.inj hgiven
    exact congrArg some (outcomeOf_resultResponse _ value).symm
  | error t =>
    obtain ⟨rfl, -⟩ := Prod.mk.inj hgiven
    exact congrArg some (outcomeOf_errorResponse _ t.toError).symm

/-- The responses to a calm batch have what its calls come to. -/
theorem callOutcomes_of_handleBatch {entries : List BatchEntry} {responses : List Json} {s s' : σ}
    (hcalm : d.Calm lib (entries.map BatchEntry.toJson) s)
    (h : d.handleBatch lib (entries.map BatchEntry.toJson) s = some (responses, s')) :
    d.callOutcomes lib entries s = responses.map fun v => some (outcomeOf v) := by
  induction entries generalizing s responses with
  | nil =>
    obtain ⟨rfl, -⟩ := Prod.mk.inj (Option.some.inj h)
    rfl
  | cons entry entries ih =>
    obtain ⟨hhead, htail⟩ := hcalm
    obtain ⟨⟨v, s₁⟩, hv, hrest⟩ := Option.bind_eq_some_iff.mp h
    obtain ⟨⟨rest, s₂⟩, hbatch, heq⟩ := Option.map_eq_some_iff.mp hrest
    obtain ⟨hresponses, rfl⟩ := Prod.mk.inj heq
    obtain ⟨rfl, hcases⟩ := Dispatcher.handleSingleRequest_cases hv
    have hrestOutcomes := ih htail hbatch
    cases entry with
    | method id name params =>
      obtain ⟨-, ⟨hnotification, -⟩ | ⟨-, hresponse⟩⟩ | ⟨hwild, -⟩ := hcases
      · have hrequest := isNotification_methodCall id name params
        exact absurd (hrequest.symm.trans hnotification) Bool.false_ne_true
      · obtain rfl : v :: rest = responses := by
          simpa [isNull_of_isObject hresponse.object] using hresponses
        rw [Dispatcher.callOutcomes, callOutcome_of_handleSingleRequest hv, List.map_cons]
        exact congrArg _ hrestOutcomes
      · exact absurd hhead hwild
    | notification name params =>
      obtain ⟨-, ⟨-, rfl⟩ | ⟨hrequest, -⟩⟩ | ⟨hwild, -⟩ := hcases
      · obtain rfl : rest = responses := by simpa [Json.isNull] using hresponses
        exact hrestOutcomes
      · have hnotification := isNotification_notificationCall name params
        exact absurd (hrequest.symm.trans hnotification) Bool.false_ne_true
      · exact absurd hhead hwild

end

/-- Over the in-memory connector, `BatchCall` gives each call of a calm batch what
its handler returned or threw, under the id of the call. -/
theorem batchCall_inMemory {lib : Library} (hkeys : lib.KeysApart) {d : Dispatcher σ}
    {entries : List BatchEntry} (hids : (entries.filterMap BatchEntry.id?).Nodup) {s : σ}
    (hrequest : lib.Inverts (.array (entries.map BatchEntry.toJson)))
    (hcalm : d.Calm lib (entries.map BatchEntry.toJson) s)
    (hresponse : ∀ responses s', d.handleBatch lib (entries.map BatchEntry.toJson) s =
      some (responses, s') → lib.Inverts (.array responses)) :
    ∃ b s', batchCall lib (inMemory lib d) (entries.map BatchEntry.toJson) s = some (.ok b, s') ∧
      (entries.filterMap BatchEntry.id?).map (fun id => some (b.get lib id.toJson)) =
        d.callOutcomes lib entries s := by
  obtain ⟨responses, s', hbatch, hall⟩ := Dispatcher.handleBatch_of_calm hcalm
  obtain ⟨request, hdump, hparse⟩ := hrequest
  obtain ⟨text, htext, hread⟩ := hresponse responses s' hbatch
  have hget : List.Forall₂ (fun id v => (BatchResponse.ofResponse lib responses).get lib id = outcomeOf v)
      ((entries.filterMap BatchEntry.id?).map Id.toJson) responses := by
    rw [← responseId_answerable]
    exact List.forall₂_map_left_iff.mpr (get_answerable hkeys hall (distinctIds_toJson hids))
  refine ⟨.ofResponse lib responses, s', ?_, ?_⟩
  · simp [batchCall, hdump, inMemory, Dispatcher.handleRequest, hparse, Dispatcher.handleJson, hbatch,
      Reply.text, htext, hread]
  · rw [callOutcomes_of_handleBatch hcalm hbatch]
    have hequal := List.forall₂_map_left_iff.mp hget
    rw [← List.forall₂_eq_eq_eq, List.forall₂_map_left_iff, List.forall₂_map_right_iff]
    exact hequal.imp fun _ _ h => congrArg some h

/-- Two calls, the second without its parameters, and a notification that nobody handles. -/
def subtractBatch : List BatchEntry :=
  [.method (.int 1) "subtract" (.positional [.int 42, .int 23]), .notification "update" (.positional [.int 1]),
    .method (.string "a") "subtract" (.positional [])]

def subtractResponses : List Json :=
  [resultResponse (.int 1) (.int 19),
    errorResponse (.string "a") (Thrown.rpc ⟨invalidParams, "two integers expected", .null⟩).toError]

def batchText : String :=
  "[\x7b\"id\":1,\"jsonrpc\":\"2.0\",\"method\":\"subtract\",\"params\":[42,23]\x7d," ++
    "\x7b\"jsonrpc\":\"2.0\",\"method\":\"update\",\"params\":[1]\x7d," ++
    "\x7b\"id\":\"a\",\"jsonrpc\":\"2.0\",\"method\":\"subtract\",\"params\":[]\x7d]"

def responsesText : String :=
  "[\x7b\"id\":1,\"jsonrpc\":\"2.0\",\"result\":19\x7d," ++
    "\x7b\"error\":\x7b\"code\":-32602,\"message\":\"two integers expected\"\x7d,\"id\":\"a\",\"jsonrpc\":\"2.0\"\x7d]"

/-- The library on the batch and its responses. -/
def batchLibrary : Library :=
  { exchangeLibrary (.array (subtractBatch.map BatchEntry.toJson)) (.array subtractResponses)
      batchText responsesText with
    write v :=
      match v with
      | .array (element :: _) => if (element.find "method").isSome then batchText else responsesText
      | _ => responsesText }

/-- Nobody answers a notification that nobody handles. -/
theorem handleSingleRequest_update (params : Params) :
    subtractServer.handleSingleRequest batchLibrary (notificationCall "update" params) () = some (.null, ()) := by
  obtain ⟨hcheck, hid⟩ := checkRequest_notificationCall "update" params
  have hnone := (subtractServer_handlers "update").1
  simp [Dispatcher.handleSingleRequest, Dispatcher.processSingleRequest, hcheck, hid, Dispatcher.invokeNotification,
    hnone, Dispatcher.invoke]

theorem handleBatch_subtractBatch :
    subtractServer.handleBatch batchLibrary (subtractBatch.map BatchEntry.toJson) () =
      some (subtractResponses, ()) := by
  have hnull : Json.null.isNull = true := rfl
  simp [subtractBatch, BatchEntry.toJson, Dispatcher.handleBatch, handleSingleRequest_methodCall,
    handleSingleRequest_update, Dispatcher.invokeMethod, subtractServer_methods, Dispatcher.invoke, Params.toJson,
    Dispatcher.normalizeParameter, subtract, Dispatcher.rethrow_of_null, subtractResponses, Id.toJson, hnull,
    isNull_of_isObject, isObject_resultResponse, isObject_errorResponse]

theorem batchLibrary_keysApart : batchLibrary.KeysApart := exchangeLibrary_keysApart .null .null "" ""

theorem inverts_subtractBatch : batchLibrary.Inverts (.array (subtractBatch.map BatchEntry.toJson)) := by
  refine ⟨batchText, Library.dump_eq_ok.mpr ⟨fun _ _ => rfl, ?_⟩, ?_⟩
  · have hmethod : (methodCall (.int 1) "subtract" (.positional [.int 42, .int 23])).find "method" =
        some (.string "subtract") := by
      simp [methodCall, Json.ofEntries, Json.find_set_of_isObject, Json.find_set]
    simp [batchLibrary, subtractBatch, BatchEntry.toJson, hmethod]
  · simp [batchLibrary, exchangeLibrary]

theorem inverts_subtractResponses : batchLibrary.Inverts (.array subtractResponses) := by
  refine ⟨responsesText, Library.dump_eq_ok.mpr ⟨fun _ _ => rfl, ?_⟩, ?_⟩
  · simp [batchLibrary, subtractResponses, find_resultResponse]
  · have hne : responsesText ≠ batchText := by decide
    simp [batchLibrary, exchangeLibrary, hne]

theorem batchCall_inMemory_subtractBatch :
    ∃ b s', batchCall batchLibrary (inMemory batchLibrary subtractServer) (subtractBatch.map BatchEntry.toJson) () =
        some (.ok b, s') ∧
      b.get batchLibrary (.int 1) = .ok (.int 19) ∧
      b.get batchLibrary (.string "a") = .error (.rpc ⟨invalidParams, "two integers expected", .null⟩) := by
  have hids : (subtractBatch.filterMap BatchEntry.id?).Nodup := by
    simp [subtractBatch, List.filterMap_cons, BatchEntry.id?]
  have hcalm := @calm_of_tame Unit batchLibrary subtractServer subtractServer_tame
    (subtractBatch.map BatchEntry.toJson) ()
  obtain ⟨b, s', hcall, hget⟩ := batchCall_inMemory batchLibrary_keysApart hids inverts_subtractBatch hcalm (by
    intro responses s' hbatch
    rw [handleBatch_subtractBatch] at hbatch
    obtain ⟨rfl, -⟩ := Prod.mk.inj (Option.some.inj hbatch)
    exact inverts_subtractResponses)
  rw [callOutcomes_of_handleBatch hcalm handleBatch_subtractBatch] at hget
  refine ⟨b, s', hcall, ?_⟩
  simp only [subtractBatch, subtractResponses, List.filterMap_cons, BatchEntry.id?, List.filterMap_nil, List.map_cons,
    List.map_nil, outcomeOf_resultResponse, outcomeOf_errorResponse, fromJson_toError, List.cons.injEq,
    Option.some.injEq, and_true] at hget
  exact hget

end CodeStudy.Jsonrpc
