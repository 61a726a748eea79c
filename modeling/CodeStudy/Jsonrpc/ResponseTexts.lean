import CodeStudy.Jsonrpc.Batch

/-!
# The texts of a response

A response is written if its texts are UTF-8. Those of its fields' names are, and
so is its id, which was parsed; what is left is the result or the error.
-/

namespace CodeStudy.Jsonrpc

/-- What is relied on: ASCII is UTF-8, and so is one UTF-8 text after another and
every text that was parsed. -/
structure Library.Utf8 (lib : Library) : Prop where
  ascii : ∀ text : String, (∀ c ∈ text.toList, c.toNat < 128) → lib.notUtf8 text = none
  append : ∀ a b, lib.notUtf8 a = none → lib.notUtf8 b = none → lib.notUtf8 (a ++ b) = none
  parse : ∀ text v, lib.parse text = .ok v → lib.Writes v

namespace Json

theorem mem_elementTexts {text : String} {elements : List Json} :
    text ∈ elementTexts elements ↔ ∃ v ∈ elements, text ∈ v.texts := by
  induction elements with
  | nil => simp [elementTexts]
  | cons v elements ih => simp [elementTexts, ih]

theorem mem_entryTexts {text : String} {entries : List (String × Json)} :
    text ∈ entryTexts entries ↔ ∃ e ∈ entries, text = e.1 ∨ text ∈ e.2.texts := by
  induction entries with
  | nil => simp [entryTexts]
  | cons e entries ih =>
    obtain ⟨key, v⟩ := e
    simp [entryTexts, ih, or_assoc]

end Json

namespace Library

variable {lib : Library}

@[simp] theorem writes_null : lib.Writes .null := by simp [Writes, Json.texts]

@[simp] theorem writes_int (n : Int) : lib.Writes (.int n) := by simp [Writes, Json.texts]

@[simp] theorem writes_string {text : String} : lib.Writes (.string text) ↔ lib.notUtf8 text = none := by
  simp [Writes, Json.texts]

theorem writes_array {elements : List Json} : lib.Writes (.array elements) ↔ ∀ v ∈ elements, lib.Writes v := by
  constructor
  · intro h v hv text htext
    exact h text (Json.mem_elementTexts.mpr ⟨v, hv, htext⟩)
  · intro h text htext
    obtain ⟨v, hv, hmem⟩ := Json.mem_elementTexts.mp htext
    exact h v hv text hmem

theorem writes_object {entries : List (String × Json)} :
    lib.Writes (.object entries) ↔ ∀ e ∈ entries, lib.notUtf8 e.1 = none ∧ lib.Writes e.2 := by
  constructor
  · intro h e he
    exact ⟨h e.1 (Json.mem_entryTexts.mpr ⟨e, he, .inl rfl⟩),
      fun text htext => h text (Json.mem_entryTexts.mpr ⟨e, he, .inr htext⟩)⟩
  · intro h text htext
    obtain ⟨e, he, rfl | hmem⟩ := Json.mem_entryTexts.mp htext
    · exact (h e he).1
    · exact (h e he).2 text hmem

theorem Writes.find {v w : Json} {key : String} (h : lib.Writes v) (hfind : v.find key = some w) :
    lib.Writes w := by
  cases v with
  | object entries =>
    have hmem := OrdMap.mem_of_lookupEntry hfind
    exact (writes_object.mp h _ hmem).2
  | null | bool | int | float | string | array => simp [Json.find] at hfind

/-- A field that was not there adds its name and its value. -/
theorem writes_set {v : Json} (hobject : v.isObject = true) {key : String} (hnew : v.find key = none)
    (value : Json) :
    lib.Writes (v.set key value) ↔ (lib.notUtf8 key = none ∧ lib.Writes value) ∧ lib.Writes v := by
  obtain ⟨entries, rfl⟩ := Json.eq_object_of_isObject hobject
  rw [Json.set, writes_object, writes_object]
  simp only [OrdMap.mem_insertEntry_of_lookupEntry (show OrdMap.lookupEntry key entries = none from hnew),
    forall_eq_or_imp]

/-! ### Responses -/

/-- The names of the fields of a response are ASCII, and so is the version. -/
theorem Utf8.fieldNames (hlib : lib.Utf8) : ∀ name ∈ ["jsonrpc", "2.0", "id", "result", "error", "code", "message"],
    lib.notUtf8 name = none := by
  intro name hname
  apply hlib.ascii
  simp only [List.mem_cons, List.not_mem_nil, or_false] at hname
  rcases hname with rfl | rfl | rfl | rfl | rfl | rfl | rfl <;> simp

theorem writes_resultResponse (hlib : lib.Utf8) (id result : Json) :
    lib.Writes (resultResponse id result) ↔ lib.Writes id ∧ lib.Writes result := by
  have hnames := hlib.fieldNames
  simp only [List.forall_mem_cons] at hnames
  obtain ⟨hjsonrpc, hversion, hid, hresult, -⟩ := hnames
  have hempty : lib.Writes (.object []) := writes_object.mpr (by simp)
  simp only [resultResponse, Json.ofEntries, List.foldl_cons, List.foldl_nil]
  rw [writes_set (by simp) (by simp [Json.find_set_of_isObject, Json.find_set]), writes_set (by simp)
    (by simp [Json.find_set]), writes_set rfl rfl]
  simp [hversion, hjsonrpc, hid, hresult, hempty, and_comm]

theorem writes_errorResponse (hlib : lib.Utf8) (id error : Json) :
    lib.Writes (errorResponse id error) ↔ lib.Writes id ∧ lib.Writes error := by
  have hnames := hlib.fieldNames
  simp only [List.forall_mem_cons] at hnames
  obtain ⟨hjsonrpc, hversion, hid, -, herror, -⟩ := hnames
  have hempty : lib.Writes (.object []) := writes_object.mpr (by simp)
  simp only [errorResponse, Json.ofEntries, List.foldl_cons, List.foldl_nil]
  rw [writes_set (by simp) (by simp [Json.find_set_of_isObject, Json.find_set]), writes_set (by simp)
    (by simp [Json.find_set]), writes_set rfl rfl]
  simp [hversion, hjsonrpc, hid, herror, hempty, and_comm]

theorem writes_errorObject (hlib : lib.Utf8) (code : Int32) (message : String) :
    lib.Writes (errorObject code message) ↔ lib.notUtf8 message = none := by
  have hnames := hlib.fieldNames
  simp only [List.forall_mem_cons] at hnames
  obtain ⟨-, -, -, -, -, hcode, hmessage, -⟩ := hnames
  have hempty : lib.Writes (.object []) := writes_object.mpr (by simp)
  simp only [errorObject, Json.ofEntries, List.foldl_cons, List.foldl_nil]
  rw [writes_set (by simp) (by simp [Json.find_set]), writes_set rfl rfl]
  simp [hcode, hmessage, hempty]

end Library

/-! ### The response to an element -/

variable {σ : Type} {lib : Library} {d : Dispatcher σ}

namespace Dispatcher

/-- What a handler gives, or the dispatcher throws in its place. -/
def outcome {α : Type} (d : Dispatcher σ) (handle : Handle σ α) (name : String) (params : Json)
    (s : σ) : Except Thrown α :=
  match d.normalizeParameter name params with
  | .error t => .error t
  | .ok positional => (handle positional s).1

/-- The texts that go into the response to a request are UTF-8: those of the
handler's result, or of the error object that is made of its exception. -/
def WritableElement (lib : Library) (d : Dispatcher σ) (request : Json) (s : σ) : Prop :=
  ∀ method handle, checkRequest request = .ok method → (request.find "id").isSome = true →
    d.methods method = some handle →
      match d.outcome handle method (requestParams request) s with
      | .ok v => lib.Writes v
      | .error t => ∀ t', d.rethrow lib method t = some t' → lib.Writes t'.toError

theorem invoke_outcome {α : Type} {handle : Handle σ α} {missing name : String} {params : Json} {s s' : σ}
    {result : Except Thrown α} (h : d.invoke lib (some handle) missing name params s = some (result, s')) :
    (∃ v, d.outcome handle name params s = .ok v ∧ result = .ok v) ∨
      ∃ t t', d.outcome handle name params s = .error t ∧ d.rethrow lib name t = some t' ∧
        result = .error t' := by
  unfold invoke at h
  unfold outcome
  cases hparams : d.normalizeParameter name params with
  | error t =>
    simp only [hparams] at h
    obtain ⟨t', hrethrow, heq⟩ := Option.map_eq_some_iff.mp h
    exact .inr ⟨t, t', rfl, hrethrow, (Prod.mk.inj heq).1.symm⟩
  | ok positional =>
    cases hrun : handle positional s with
    | mk given s₁ =>
      cases given with
      | ok v =>
        simp only [hparams, hrun, Option.some_inj] at h
        exact .inl ⟨v, by simp [hrun], (Prod.mk.inj h).1.symm⟩
      | error t =>
        simp only [hparams, hrun] at h
        obtain ⟨t', hrethrow, heq⟩ := Option.map_eq_some_iff.mp h
        exact .inr ⟨t, t', by simp [hrun], hrethrow, (Prod.mk.inj heq).1.symm⟩

end Dispatcher

theorem notUtf8_of_checkRequest (hlib : lib.Utf8) {request : Json} {message : String}
    (h : checkRequest request = .error message) : lib.notUtf8 message = none := by
  apply hlib.ascii
  unfold checkRequest at h
  split at h
  · split at h
    · split at h
      · obtain rfl := Except.error.inj h
        simp
      · split at h
        · cases h
        · cases h
        · cases h
        · cases h
        · obtain rfl := Except.error.inj h
          simp
    · obtain rfl := Except.error.inj h
      simp
  · obtain rfl := Except.error.inj h
    simp

theorem find_method_of_checkRequest {request : Json} {method : String} (h : checkRequest request = .ok method) :
    request.find "method" = some (.string method) := by
  unfold checkRequest at h
  split at h
  · split at h
    · rename_i method' hmethod
      split at h
      · cases h
      · split at h
        · exact Except.ok.inj h ▸ hmethod
        · exact Except.ok.inj h ▸ hmethod
        · exact Except.ok.inj h ▸ hmethod
        · exact Except.ok.inj h ▸ hmethod
        · cases h
    · cases h
  · cases h

theorem writes_responseId {request : Json} (h : lib.Writes request) : lib.Writes (responseId request) := by
  unfold responseId
  split_ifs
  · cases hid : request.find "id" with
    | none => exact Library.writes_null
    | some id => exact h.find hid
  · exact Library.writes_null

/-- The response to a request is written if what its handler gives is. -/
theorem writes_handleSingleRequest (hlib : lib.Utf8) {request v : Json} {s s' : σ} (hrequest : lib.Writes request)
    (hid : isNotification request = false) (h : d.handleSingleRequest lib request s = some (v, s')) :
    lib.Writes v ↔ d.WritableElement lib request s := by
  have hresponseId := writes_responseId hrequest
  obtain ⟨⟨given, s₁⟩, hprocess, heq⟩ := Option.map_eq_some_iff.mp h
  obtain ⟨rfl, rfl⟩ := Prod.mk.inj heq
  unfold Dispatcher.processSingleRequest at hprocess
  cases hcheck : checkRequest request with
  | error message =>
    simp only [hcheck, Option.some_inj] at hprocess
    obtain ⟨rfl, rfl⟩ := Prod.mk.inj hprocess
    have hmessage := notUtf8_of_checkRequest hlib hcheck
    refine iff_of_true ?_ ?_
    · simp [Library.writes_errorResponse hlib, hresponseId, Thrown.toError, Json.isNull,
        Library.writes_errorObject hlib, hmessage]
    · intro method handle hok
      cases hcheck.symm.trans hok
  | ok method =>
    obtain ⟨id, hfind⟩ : ∃ id, request.find "id" = some id := by
      rw [isNotification, hcheck] at hid
      exact Option.isSome_iff_exists.mp (by simpa using hid)
    simp only [hcheck, hfind] at hprocess
    obtain ⟨⟨result, s₂⟩, hinvoke, hgiven⟩ := Option.map_eq_some_iff.mp hprocess
    obtain ⟨rfl, rfl⟩ := Prod.mk.inj hgiven
    have hidWrites : lib.Writes id := hrequest.find hfind
    unfold Dispatcher.invokeMethod at hinvoke
    cases hmethod : d.methods method with
    | none =>
      have hname : lib.notUtf8 method = none :=
        Library.writes_string.mp (hrequest.find (find_method_of_checkRequest hcheck))
      have hmessage := hlib.append "method not found: " method (hlib.ascii _ (by simp)) hname
      rw [hmethod] at hinvoke
      obtain ⟨rfl, -⟩ := Prod.mk.inj (Option.some.inj hinvoke)
      refine iff_of_true ?_ ?_
      · simp [Except.map, Library.writes_errorResponse hlib, hresponseId, Thrown.toError, Json.isNull,
          Library.writes_errorObject hlib, hmessage]
      · intro method' handle hok _ hsome
        obtain rfl := Except.ok.inj (hcheck.symm.trans hok)
        cases hmethod.symm.trans hsome
    | some handle =>
      rw [hmethod] at hinvoke
      have helement : d.WritableElement lib request s ↔
          match d.outcome handle method (requestParams request) s with
          | .ok v => lib.Writes v
          | .error t => ∀ t', d.rethrow lib method t = some t' → lib.Writes t'.toError := by
        constructor
        · intro hwritable
          exact hwritable method handle hcheck (by simp [hfind]) hmethod
        · intro hgives method' handle' hok _ hsome
          obtain rfl := Except.ok.inj (hcheck.symm.trans hok)
          obtain rfl := Option.some.inj (hmethod.symm.trans hsome)
          exact hgives
      rw [helement]
      obtain ⟨v, houtcome, rfl⟩ | ⟨t, t', houtcome, hrethrow, rfl⟩ := Dispatcher.invoke_outcome hinvoke
      · simp [Except.map, houtcome, Library.writes_resultResponse hlib, hidWrites]
      · simp [Except.map, houtcome, hrethrow, Library.writes_errorResponse hlib, hresponseId]

end CodeStudy.Jsonrpc
