import CodeStudy.Jsonrpc.Batch

/-!
# The handlers of a batch

One element makes one run of the loop's body, which leaves a response exactly if
the element is no notification, except for a notification whose handler throws
what is no `std::exception`.
-/

namespace CodeStudy.Jsonrpc

variable {σ : Type}

/-- What a handler threw, if anything. -/
def thrown {α : Type} (run : Except Thrown α × σ) : Option Thrown :=
  match run.1 with
  | .ok _ => none
  | .error t => some t

namespace Dispatcher

/-- What the handler throws that is called with these parameters, and the state
that it leaves; without a handler nothing happens. -/
def runHandle {α : Type} (d : Dispatcher σ) (handle : Option (Handle σ α)) (name : String)
    (params : Json) (s : σ) : Option Thrown × σ :=
  match handle, d.normalizeParameter name params with
  | some handle, .ok positional => (thrown (handle positional s), (handle positional s).2)
  | _, _ => (none, s)

/-- The handler that an element of a batch reaches. -/
def runElement (d : Dispatcher σ) (request : Json) (s : σ) : Option Thrown × σ :=
  match checkRequest request with
  | .error _ => (none, s)
  | .ok method =>
    if (request.find "id").isNone then
      d.runHandle (d.notifications method) method (requestParams request) s
    else d.runHandle (d.methods method) method (requestParams request) s

/-- No handler of a notification throws what is no `std::exception`, and the
data of an `invalid_params` exception can be read as the index of a parameter. -/
def CalmElement (lib : Library) (d : Dispatcher σ) (request : Json) (s : σ) : Prop :=
  match (d.runElement request s).1 with
  | some .other => isNotification request = false
  | some (.rpc e) =>
    ∀ method, checkRequest request = .ok method → (d.processTypeError lib method e).isSome = true
  | _ => True

/-- The handlers of a batch are calm, each in the state in which it is called. -/
def Calm (lib : Library) (d : Dispatcher σ) : List Json → σ → Prop
  | [], _ => True
  | request :: requests, s =>
    d.CalmElement lib request s ∧ d.Calm lib requests (d.runElement request s).2

/-! ### One element -/

theorem other_ne_of_processTypeError {lib : Library} {d : Dispatcher σ} {name : String}
    {e : JsonRpcException} {t : Thrown} (h : d.processTypeError lib name e = some (.error t)) :
    t ≠ .other := by
  unfold processTypeError at h
  split_ifs at h with hdata
  · obtain ⟨converted, hconverted, h⟩ := Option.bind_eq_some_iff.mp h
    cases converted with
    | ok index =>
      cases hmapping : d.mapping name with
      | none => simp [hmapping] at h
      | some names => simp [hmapping] at h
    | error t' =>
      obtain rfl : t' = t := by simpa using h
      rintro rfl
      unfold Json.getUnsigned Json.getInteger at hconverted
      split at hconverted <;> simp_all [typeError302]
      split at hconverted <;> simp_all
  · simp at h

theorem rethrow_eq_other {lib : Library} {d : Dispatcher σ} {name : String} {t : Thrown} :
    d.rethrow lib name t = some .other ↔ t = .other := by
  cases t with
  | typeError what => simp [rethrow]
  | std what => simp [rethrow]
  | other => simp [rethrow]
  | rpc e =>
    cases hprocess : d.processTypeError lib name e with
    | none => simp [rethrow, hprocess]
    | some processed =>
      cases processed with
      | ok e' => simp [rethrow, hprocess]
      | error t' => simp [rethrow, hprocess, other_ne_of_processTypeError hprocess]

theorem mapM_namedParameter_error {params : Json} {names : List String} {t : Thrown}
    (h : names.mapM (namedParameter params) = .error t) : ∃ e, t = .rpc e ∧ e.data = .null := by
  induction names with
  | nil => simp [pure, Except.pure] at h
  | cons name names ih =>
    rw [List.mapM_cons] at h
    cases hname : namedParameter params name with
    | error t' =>
      obtain rfl : t' = t := by simpa [hname, bind, Except.bind] using h
      unfold namedParameter at hname
      cases hfind : params.find name with
      | some v => simp [hfind] at hname
      | none =>
        simp only [hfind, Except.error.injEq] at hname
        exact ⟨_, hname.symm, rfl⟩
    | ok v =>
      cases hrest : names.mapM (namedParameter params) with
      | error t' =>
        obtain rfl : t' = t := by simpa [hname, hrest, bind, Except.bind] using h
        exact ih hrest
      | ok l => simp [hname, hrest, bind, Except.bind, pure, Except.pure] at h

/-- The dispatcher's own exceptions carry no data. -/
theorem normalizeParameter_error {d : Dispatcher σ} {name : String} {params : Json} {t : Thrown}
    (h : d.normalizeParameter name params = .error t) : ∃ e, t = .rpc e ∧ e.data = .null := by
  unfold normalizeParameter at h
  cases params with
  | array => simp at h
  | object entries =>
    cases hmapping : d.mapping name with
    | none =>
      simp only [hmapping, Except.error.injEq] at h
      exact ⟨_, h.symm, rfl⟩
    | some names =>
      cases hnames : names.val.mapM (namedParameter (.object entries)) with
      | error t' =>
        obtain rfl : t' = t := by simpa [hmapping, hnames, Except.map] using h
        exact mapM_namedParameter_error hnames
      | ok l => simp [hmapping, hnames, Except.map] at h
  | null | bool | int | float | string =>
    simp only [Except.error.injEq] at h
    exact ⟨_, h.symm, rfl⟩

theorem rethrow_of_null {lib : Library} {d : Dispatcher σ} {name : String} {e : JsonRpcException}
    (h : e.data = .null) : d.rethrow lib name (.rpc e) = some (.rpc e) := by
  simp [rethrow, processTypeError, h, Json.empty]

theorem rethrow_eq_none {lib : Library} {d : Dispatcher σ} {name : String} {t : Thrown} :
    d.rethrow lib name t = none ↔ ∃ e, t = .rpc e ∧ d.processTypeError lib name e = none := by
  cases t with
  | typeError what => simp [rethrow]
  | std what => simp [rethrow]
  | other => simp [rethrow]
  | rpc e => simp [rethrow]

section Invoke

variable {α : Type} {lib : Library} {d : Dispatcher σ} {handle : Option (Handle σ α)}
  {missing name : String} {params : Json} {s : σ}

/-- A call that is undefined: the handler's exception cannot be rewritten. -/
theorem invoke_eq_none (h : d.invoke lib handle missing name params s = none) :
    ∃ e, (d.runHandle handle name params s).1 = some (.rpc e) ∧
      d.processTypeError lib name e = none := by
  unfold invoke at h
  cases handle with
  | none => simp at h
  | some handle =>
    cases hparams : d.normalizeParameter name params with
    | error t =>
      obtain ⟨e, rfl, hdata⟩ := normalizeParameter_error hparams
      simp [hparams, rethrow_of_null hdata] at h
    | ok positional =>
      cases hrun : handle positional s with
      | mk outcome s' =>
        cases outcome with
        | ok v => simp [hparams, hrun] at h
        | error t =>
          have hnone : d.rethrow lib name t = none := by simpa [hparams, hrun] using h
          obtain ⟨e, rfl, hprocess⟩ := rethrow_eq_none.mp hnone
          exact ⟨e, by simp [runHandle, hparams, hrun, thrown], hprocess⟩

/-- A call that is defined leaves the handler's state, and throws what is no
`std::exception` exactly if the handler does. -/
theorem invoke_eq_some {outcome : Except Thrown α} {s' : σ}
    (h : d.invoke lib handle missing name params s = some (outcome, s')) :
    s' = (d.runHandle handle name params s).2 ∧
      (outcome = .error .other ↔ (d.runHandle handle name params s).1 = some .other) ∧
      ∀ e, (d.runHandle handle name params s).1 = some (.rpc e) →
        (d.processTypeError lib name e).isSome = true := by
  unfold invoke at h
  cases handle with
  | none =>
    obtain ⟨rfl, rfl⟩ := Prod.mk.inj (Option.some.inj h)
    simp [runHandle]
  | some handle =>
    cases hparams : d.normalizeParameter name params with
    | error t =>
      obtain ⟨e, rfl, hdata⟩ := normalizeParameter_error hparams
      simp only [hparams, rethrow_of_null hdata, Option.map_some, Option.some_inj] at h
      obtain ⟨rfl, rfl⟩ := Prod.mk.inj h
      simp [runHandle, hparams]
    | ok positional =>
      cases hrun : handle positional s with
      | mk result s₁ =>
        cases result with
        | ok v =>
          simp only [hparams, hrun, Option.some_inj] at h
          obtain ⟨rfl, rfl⟩ := Prod.mk.inj h
          simp [runHandle, hparams, hrun, thrown]
        | error t =>
          simp only [hparams, hrun] at h
          obtain ⟨t', ht', heq⟩ := Option.map_eq_some_iff.mp h
          obtain ⟨rfl, rfl⟩ := Prod.mk.inj heq
          have hother : d.rethrow lib name t = some .other ↔ t = .other := rethrow_eq_other
          rw [ht', Option.some_inj] at hother
          refine ⟨by simp [runHandle, hparams, hrun], ?_, ?_⟩
          · simp [runHandle, hparams, hrun, thrown, hother]
          · intro e he
            obtain rfl : t = .rpc e := by simpa [runHandle, hparams, hrun, thrown] using he
            cases hprocess : d.processTypeError lib name e with
            | some processed => rfl
            | none => simp [rethrow, hprocess] at ht'

end Invoke

theorem isResponse_resultResponse (id v : Json) : IsResponse id (resultResponse id v) where
  object := isObject_resultResponse id v
  version := by simp [find_resultResponse]
  id := by simp [find_resultResponse]
  outcome := by simp [find_resultResponse]

theorem isResponse_errorResponse (id v : Json) : IsResponse id (errorResponse id v) where
  object := isObject_errorResponse id v
  version := by simp [find_errorResponse]
  id := by simp [find_errorResponse]
  outcome := by simp [find_errorResponse]

theorem validId_of_checkRequest {request id : Json} {method : String}
    (h : checkRequest request = .ok method) (hid : request.find "id" = some id) :
    validId request = true := by
  unfold checkRequest at h
  split at h
  · split at h
    · by_contra hvalid
      have hinvalid : validId request = false := by simpa using hvalid
      simp [hid, hinvalid] at h
    · simp at h
  · simp at h

theorem calmElement_of {lib : Library} {d : Dispatcher σ} {request : Json} {s : σ} {method : String}
    (hcheck : checkRequest request = .ok method)
    (hother : (d.runElement request s).1 = some .other → isNotification request = false)
    (htype : ∀ e, (d.runElement request s).1 = some (.rpc e) →
      (d.processTypeError lib method e).isSome = true) : d.CalmElement lib request s := by
  unfold CalmElement
  cases hthrown : (d.runElement request s).1 with
  | none => trivial
  | some t =>
    cases t with
    | other => exact hother hthrown
    | rpc e =>
      intro method' hmethod'
      obtain rfl : method = method' := Except.ok.inj (hcheck.symm.trans hmethod')
      exact htype e hthrown
    | typeError | std => trivial

/-- An element whose handler is calm is handled. -/
theorem handleSingleRequest_ne_none {lib : Library} {d : Dispatcher σ} {request : Json} {s : σ}
    (hcalm : d.CalmElement lib request s) : d.handleSingleRequest lib request s ≠ none := by
  intro hnone
  have hprocess : d.processSingleRequest lib request s = none := by
    simpa [handleSingleRequest] using hnone
  unfold processSingleRequest at hprocess
  cases hcheck : checkRequest request with
  | error message => simp [hcheck] at hprocess
  | ok method =>
    have hundefined : ∃ e, (d.runElement request s).1 = some (.rpc e) ∧
        d.processTypeError lib method e = none := by
      cases hid : request.find "id" with
      | none =>
        have hinvoke : d.invokeNotification lib method (requestParams request) s = none := by
          simpa [hcheck, hid] using hprocess
        simpa [runElement, hcheck, hid] using invoke_eq_none hinvoke
      | some id =>
        have hinvoke : d.invokeMethod lib method (requestParams request) s = none := by
          simpa [hcheck, hid] using hprocess
        simpa [runElement, hcheck, hid] using invoke_eq_none hinvoke
    obtain ⟨e, hthrown, htype⟩ := hundefined
    simp only [CalmElement, hthrown] at hcalm
    have hsome := hcalm method hcheck
    rw [htype] at hsome
    exact absurd hsome (by simp)

/-- The state after an element is its handler's. A response is left with the
element's id, except for a notification whose handler is calm. -/
theorem handleSingleRequest_cases {lib : Library} {d : Dispatcher σ} {request v : Json} {s s' : σ}
    (h : d.handleSingleRequest lib request s = some (v, s')) :
    s' = (d.runElement request s).2 ∧
      (d.CalmElement lib request s ∧
          (isNotification request = true ∧ v = .null ∨
            isNotification request = false ∧ IsResponse (responseId request) v) ∨
        ¬d.CalmElement lib request s ∧ isNotification request = true ∧
          IsResponse (responseId request) v) := by
  obtain ⟨⟨outcome, s₁⟩, hprocess, heq⟩ := Option.map_eq_some_iff.mp h
  unfold processSingleRequest at hprocess
  cases hcheck : checkRequest request with
  | error message =>
    simp only [hcheck, Option.some_inj] at hprocess
    obtain ⟨rfl, rfl⟩ := Prod.mk.inj hprocess
    obtain ⟨rfl, rfl⟩ := Prod.mk.inj heq
    have hrun : d.runElement request s = (none, s) := by simp [runElement, hcheck]
    refine ⟨by rw [hrun], .inl ⟨by simp [CalmElement, hrun], .inr ⟨?_, ?_⟩⟩⟩
    · simp [isNotification, hcheck]
    · exact isResponse_errorResponse _ _
  | ok method =>
    cases hid : request.find "id" with
    | none =>
      have hnotification : isNotification request = true := by
        simp [isNotification, hcheck, hid]
      simp only [hcheck, hid] at hprocess
      obtain ⟨⟨result, s₂⟩, hinvoke, hresult⟩ := Option.map_eq_some_iff.mp hprocess
      have hrun : d.runElement request s =
          d.runHandle (d.notifications method) method (requestParams request) s := by
        simp [runElement, hcheck, hid]
      obtain ⟨hstate, hother, htype⟩ := invoke_eq_some hinvoke
      rw [← hrun] at hstate hother htype
      by_cases hforeign : result = .error .other
      · subst hforeign
        obtain ⟨rfl, rfl⟩ := Prod.mk.inj hresult
        obtain ⟨rfl, rfl⟩ := Prod.mk.inj heq
        refine ⟨hstate, .inr ⟨?_, hnotification, isResponse_errorResponse _ _⟩⟩
        intro hcalm
        simp only [CalmElement, hother.mp rfl] at hcalm
        exact absurd (hnotification.symm.trans hcalm) (by simp)
      · have hnull : outcome = .ok .null ∧ s₁ = s₂ := by
          cases result with
          | ok u => exact ⟨(Prod.mk.inj hresult).1.symm, (Prod.mk.inj hresult).2.symm⟩
          | error t =>
            cases t with
            | other => exact absurd rfl hforeign
            | rpc e => exact ⟨(Prod.mk.inj hresult).1.symm, (Prod.mk.inj hresult).2.symm⟩
            | typeError what => exact ⟨(Prod.mk.inj hresult).1.symm, (Prod.mk.inj hresult).2.symm⟩
            | std what => exact ⟨(Prod.mk.inj hresult).1.symm, (Prod.mk.inj hresult).2.symm⟩
        obtain ⟨rfl, rfl⟩ := hnull
        obtain ⟨rfl, rfl⟩ := Prod.mk.inj heq
        refine ⟨hstate, .inl ⟨calmElement_of hcheck ?_ htype, .inl ⟨hnotification, rfl⟩⟩⟩
        intro hthrown
        exact absurd (hother.mpr hthrown) hforeign
    | some id =>
      have hnotification : isNotification request = false := by
        simp [isNotification, hcheck, hid]
      have hresponseId : responseId request = id := by
        simp [responseId, validId_of_checkRequest hcheck hid, hid]
      simp only [hcheck, hid] at hprocess
      obtain ⟨⟨result, s₂⟩, hinvoke, hresult⟩ := Option.map_eq_some_iff.mp hprocess
      have hrun : d.runElement request s =
          d.runHandle (d.methods method) method (requestParams request) s := by
        simp [runElement, hcheck, hid]
      obtain ⟨hstate, -, htype⟩ := invoke_eq_some hinvoke
      rw [← hrun] at hstate htype
      obtain ⟨rfl, rfl⟩ := Prod.mk.inj hresult
      have hv : IsResponse (responseId request) v ∧ s' = s₂ := by
        cases result with
        | ok u =>
          obtain ⟨rfl, rfl⟩ := Prod.mk.inj heq
          rw [hresponseId]
          exact ⟨isResponse_resultResponse _ _, rfl⟩
        | error t =>
          obtain ⟨rfl, rfl⟩ := Prod.mk.inj heq
          exact ⟨isResponse_errorResponse _ _, rfl⟩
      exact ⟨hv.2.trans hstate, .inl ⟨calmElement_of hcheck (fun _ => hnotification) htype,
        .inr ⟨hnotification, hv.1⟩⟩⟩

/-! ### The batch -/

/-- A calm batch is handled, and its responses are those due. -/
theorem handleBatch_of_calm {lib : Library} {d : Dispatcher σ} {requests : List Json} {s : σ}
    (hcalm : d.Calm lib requests s) :
    ∃ responses s', d.handleBatch lib requests s = some (responses, s') ∧
      List.Forall₂ (fun r v => IsResponse (responseId r) v) (answerable requests) responses := by
  induction requests generalizing s with
  | nil => exact ⟨[], s, rfl, .nil⟩
  | cons request requests ih =>
    obtain ⟨hhead, htail⟩ := hcalm
    obtain ⟨⟨v, s₁⟩, hv⟩ := Option.ne_none_iff_exists'.mp (handleSingleRequest_ne_none hhead)
    obtain ⟨rfl, hcases⟩ := handleSingleRequest_cases hv
    obtain ⟨responses, s', hresponses, hall⟩ := ih htail
    obtain ⟨-, ⟨hnotification, rfl⟩ | ⟨hrequest, hresponse⟩⟩ | ⟨hwild, -⟩ := hcases
    · refine ⟨responses, s', ?_, ?_⟩
      · simp [handleBatch, hv, hresponses, Json.isNull]
      · simpa [answerable, hnotification] using hall
    · refine ⟨v :: responses, s', ?_, ?_⟩
      · simp [handleBatch, hv, hresponses, isNull_of_isObject hresponse.object]
      · simpa [answerable, hrequest] using ⟨hresponse, hall⟩
    · exact absurd hhead hwild

/-- A response that is not due makes the answer too long. -/
theorem calm_of_length {lib : Library} {d : Dispatcher σ} {requests responses : List Json}
    {s s' : σ} (h : d.handleBatch lib requests s = some (responses, s')) :
    (answerable requests).length ≤ responses.length ∧
      (responses.length ≤ (answerable requests).length → d.Calm lib requests s) := by
  induction requests generalizing s responses with
  | nil =>
    obtain ⟨rfl, rfl⟩ := Prod.mk.inj (Option.some.inj h)
    exact ⟨le_refl 0, fun _ => trivial⟩
  | cons request requests ih =>
    obtain ⟨⟨v, s₁⟩, hv, hrest⟩ := Option.bind_eq_some_iff.mp h
    obtain ⟨⟨rest, s₂⟩, htail, heq⟩ := Option.map_eq_some_iff.mp hrest
    obtain ⟨hresponses, rfl⟩ := Prod.mk.inj heq
    obtain ⟨rfl, hcases⟩ := handleSingleRequest_cases hv
    obtain ⟨hle, hcalm⟩ := ih htail
    obtain ⟨hhead, ⟨hnotification, rfl⟩ | ⟨hrequest, hresponse⟩⟩ | ⟨-, hnotification, hresponse⟩ :=
      hcases
    · have hsame : responses = rest := by simpa [Json.isNull] using hresponses.symm
      subst hsame
      simp only [answerable, hnotification, Bool.not_true, Bool.false_eq_true, not_false_eq_true,
        List.filter_cons_of_neg]
      exact ⟨hle, fun hlength => ⟨hhead, hcalm hlength⟩⟩
    · have hcons : responses = v :: rest := by
        simpa [isNull_of_isObject hresponse.object] using hresponses.symm
      subst hcons
      simp only [answerable, hrequest, Bool.not_false, List.filter_cons_of_pos, List.length_cons]
      exact ⟨Nat.succ_le_succ hle, fun hlength => ⟨hhead, hcalm (Nat.le_of_succ_le_succ hlength)⟩⟩
    · have hcons : responses = v :: rest := by
        simpa [isNull_of_isObject hresponse.object] using hresponses.symm
      subst hcons
      simp only [answerable, hnotification, Bool.not_true, Bool.false_eq_true, not_false_eq_true,
        List.filter_cons_of_neg, List.length_cons]
      unfold answerable at hle
      exact ⟨by omega, fun hlength => by omega⟩

end Dispatcher

end CodeStudy.Jsonrpc
