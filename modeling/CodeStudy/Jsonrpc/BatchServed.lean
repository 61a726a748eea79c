import CodeStudy.Jsonrpc.BatchHandlers
import CodeStudy.Jsonrpc.BatchIds
import CodeStudy.Jsonrpc.CallResult
import CodeStudy.Jsonrpc.ResponseTexts

/-!
# What the server answers to a batch

The batch as a whole is always answered by an array, so the answer is right unless
it should have been another. It is returned unless a result or an error has a text
that is not UTF-8.
-/

namespace CodeStudy.Jsonrpc

variable {σ : Type}

namespace Dispatcher

/-- The texts of a batch's results and errors are UTF-8, each handler being called
in the state in which the batch calls it. -/
def Writable (lib : Library) (d : Dispatcher σ) : List Json → σ → Prop
  | [], _ => True
  | request :: requests, s =>
    d.WritableElement lib request s ∧ d.Writable lib requests (d.runElement request s).2

theorem writableElement_of_isNotification {lib : Library} {d : Dispatcher σ} {request : Json} {s : σ}
    (h : isNotification request = true) : d.WritableElement lib request s := by
  intro method handle hcheck hid
  rw [isNotification, hcheck] at h
  cases hfind : request.find "id" <;> simp [hfind] at h hid

/-- The answer to a calm batch is written if its results and errors are. -/
theorem writes_handleBatch {lib : Library} (hlib : lib.Utf8) {d : Dispatcher σ}
    {requests responses : List Json} {s s' : σ} (hrequests : ∀ r ∈ requests, lib.Writes r)
    (hcalm : d.Calm lib requests s) (h : d.handleBatch lib requests s = some (responses, s')) :
    lib.Writes (.array responses) ↔ d.Writable lib requests s := by
  rw [Library.writes_array]
  induction requests generalizing s responses with
  | nil =>
    obtain ⟨rfl, rfl⟩ := Prod.mk.inj (Option.some.inj h)
    simp [Writable]
  | cons request requests ih =>
    obtain ⟨hhead, htail⟩ := hcalm
    obtain ⟨⟨v, s₁⟩, hv, hrest⟩ := Option.bind_eq_some_iff.mp h
    obtain ⟨⟨rest, s₂⟩, hbatch, heq⟩ := Option.map_eq_some_iff.mp hrest
    obtain ⟨hresponses, rfl⟩ := Prod.mk.inj heq
    obtain ⟨rfl, hcases⟩ := handleSingleRequest_cases hv
    have hrestWrites := ih (fun r hr => hrequests r (List.mem_cons_of_mem _ hr)) htail hbatch
    obtain ⟨-, ⟨hnotification, rfl⟩ | ⟨hrequest, hresponse⟩⟩ | ⟨hwild, -⟩ := hcases
    · obtain rfl : rest = responses := by simpa [Json.isNull] using hresponses
      rw [hrestWrites, Writable, and_iff_right (writableElement_of_isNotification hnotification)]
    · obtain rfl : v :: rest = responses := by
        simpa [isNull_of_isObject hresponse.object] using hresponses
      rw [List.forall_mem_cons, hrestWrites, Writable,
        writes_handleSingleRequest hlib (hrequests request List.mem_cons_self) hrequest hv]
    · exact absurd hhead hwild

end Dispatcher

/-- The answers to a batch whose ids are distinct are found under them. -/
theorem get_answerable {lib : Library} (hkeys : lib.KeysApart) {requests responses : List Json}
    (h : List.Forall₂ (fun r v => IsResponse (responseId r) v) (answerable requests) responses)
    (hids : DistinctIds requests) :
    List.Forall₂ (fun r v => (BatchResponse.ofResponse lib responses).get lib (responseId r) =
      outcomeOf v) (answerable requests) responses := by
  have hmap := List.forall₂_map_left_iff.mpr h
  have hget := BatchResponse.get_ofResponse hkeys hmap
    (by
      intro x hx
      obtain ⟨r, hr, rfl⟩ := List.mem_map.mp hx
      exact hids.keys r hr)
    (List.pairwise_map.mpr hids.distinct)
  exact List.forall₂_map_left_iff.mp hget

theorem checkRequest_notificationCall (name : String) (params : Params) :
    checkRequest (notificationCall name params) = .ok name ∧
      (notificationCall name params).find "id" = none := by
  have hid : (notificationCall name params).find "id" = none := by
    simp [notificationCall, Json.ofEntries, Json.find_set_of_isObject, Json.find_set]
  refine ⟨checkRequest_eq_ok ?_ ?_ ?_ ?_, hid⟩
  · simp [notificationCall, Json.ofEntries, Json.find_set_of_isObject]
  · simp [notificationCall, Json.ofEntries, Json.find_set_of_isObject, Json.find_set]
  · simp [hid]
  · have hparams := params.isArray_or_isObject
    simpa [notificationCall, Json.ofEntries, Json.find_set_of_isObject] using hparams

theorem isNotification_notificationCall (name : String) (params : Params) :
    isNotification (notificationCall name params) = true := by
  obtain ⟨hcheck, hid⟩ := checkRequest_notificationCall name params
  simp [isNotification, hcheck, hid]

/-- Handlers that throw neither foreign values nor data are calm. -/
theorem calm_of_tame {lib : Library} {d : Dispatcher σ}
    (h : ∀ r s, (d.runElement r s).1 ≠ some .other ∧
      ∀ e, (d.runElement r s).1 = some (.rpc e) → e.data = .null) (requests : List Json) (s : σ) :
    d.Calm lib requests s := by
  induction requests generalizing s with
  | nil => trivial
  | cons request requests ih =>
    refine ⟨?_, ih _⟩
    obtain ⟨hother, hrpc⟩ := h request s
    unfold Dispatcher.CalmElement
    cases hthrown : (d.runElement request s).1 with
    | none => trivial
    | some t =>
      cases t with
      | other => exact absurd hthrown hother
      | rpc e =>
        intro method _
        simp [Dispatcher.processTypeError, hrpc e hthrown, Json.empty]
      | typeError | std => trivial

theorem subtract_tame (params : Json) (s : Unit) :
    thrown (subtract params s) ≠ some .other ∧
      ∀ e, thrown (subtract params s) = some (.rpc e) → e.data = .null := by
  unfold subtract
  split
  · simp [thrown]
  · constructor
    · simp [thrown]
    · intro e he
      obtain rfl := Thrown.rpc.inj (Option.some.inj he)
      rfl

theorem subtractServer_handlers (name : String) :
    subtractServer.notifications name = none ∧
      (subtractServer.methods name = none ∨ subtractServer.methods name = some subtract) := by
  have hprefix : "subtract".startsWith "rpc." = false := by simp
  have hserver : subtractServer.notifications name = none ∧ subtractServer.methods name =
      Function.update (fun _ => none) "subtract" (some subtract) name := by
    simp [subtractServer, Dispatcher.addMethod, Dispatcher.initial, Dispatcher.contains, hprefix]
  refine ⟨hserver.1, ?_⟩
  rw [hserver.2]
  by_cases hname : name = "subtract"
  · exact .inr (by rw [hname, Function.update_self])
  · exact .inl (by rw [Function.update_of_ne hname])

theorem subtractServer_tame (r : Json) (s : Unit) :
    (subtractServer.runElement r s).1 ≠ some .other ∧
      ∀ e, (subtractServer.runElement r s).1 = some (.rpc e) → e.data = .null := by
  unfold Dispatcher.runElement
  cases hcheck : checkRequest r with
  | error message => simp
  | ok method =>
    obtain ⟨hnone, hmethods⟩ := subtractServer_handlers method
    by_cases hid : (r.find "id").isNone = true
    · simp [hid, hnone, Dispatcher.runHandle]
    · obtain hmissing | hfound := hmethods
      · simp [hid, hmissing, Dispatcher.runHandle]
      · cases hparams : subtractServer.normalizeParameter method (requestParams r) with
        | error t => simp [hid, hfound, hparams, Dispatcher.runHandle]
        | ok positional =>
          simpa [hid, hfound, hparams, Dispatcher.runHandle] using subtract_tame positional s

theorem exchangeLibrary_keysApart (request response : Json) (requestText responseText : String) :
    (exchangeLibrary request response requestText responseText).KeysApart := by
  rintro a b (⟨m, rfl, -⟩ | ⟨s, rfl⟩) (⟨n, rfl, -⟩ | ⟨t, rfl⟩) <;> simp [exchangeLibrary]

theorem exchangeLibrary_utf8 (request response : Json) (requestText responseText : String) :
    (exchangeLibrary request response requestText responseText).Utf8 where
  ascii _ _ := rfl
  append _ _ _ _ := rfl
  parse _ _ _ _ _ := rfl

theorem exchangeLibrary_writable (request response : Json) (requestText responseText : String)
    (d : Dispatcher σ) (requests : List Json) (s : σ) :
    d.Writable (exchangeLibrary request response requestText responseText) requests s := by
  induction requests generalizing s with
  | nil => trivial
  | cons r requests ih =>
    refine ⟨?_, ih _⟩
    intro method handle _ _ _
    split
    · exact fun _ _ => rfl
    · exact fun _ _ _ _ => rfl

/-- A call, a notification that nobody handles and an element that is no object. -/
def mixedBatch : List Json :=
  [methodCall (.int 1) "subtract" (.positional [.int 42, .int 23]),
    notificationCall "update" (.positional [.int 1]), .int 1]

def mixedText : String :=
  "[\x7b\"id\":1,\"jsonrpc\":\"2.0\",\"method\":\"subtract\",\"params\":[42,23]\x7d," ++
    "\x7b\"jsonrpc\":\"2.0\",\"method\":\"update\",\"params\":[1]\x7d,1]"

/-- A batch of one notification. -/
def notifyBatch : List Json := [notificationCall "update" (.positional [])]

def notifyText : String := "[\x7b\"jsonrpc\":\"2.0\",\"method\":\"update\",\"params\":[]\x7d]"

end CodeStudy.Jsonrpc
