import CodeStudy.Base.Channel
import CodeStudy.Base.Runs
import Mathlib.Data.List.Nodup
import Mathlib.Logic.Function.Basic

/-!
# A queue of events without repeats

Goroutines add events and then wake the loop, which handles them one after the other. An event that is added while an
equal one still waits replaces it. The loop asks whether there are events before it takes the lock.

An event is recorded with the number of its addition, which the program does not keep.
-/

namespace CodeStudy.DeviceEvents

variable {E : Type}

/-- What a goroutine that calls `addEvent` and then `doEvent` does next. -/
inductive Caller (E : Type) where
  | locking (event : E)
  /-- It holds the lock, and an equal event was taken out. -/
  | appending (event : E)
  | sending
  | returned
  deriving DecidableEq

inductive Loop where
  | receiving
  | checking
  | locking
  | doing
  deriving DecidableEq

structure State (E : Type) where
  evMap : List (Nat × E) := []
  doChan : Channel Bool := .make 20
  mu : Option Nat := none
  loop : Loop := .receiving
  callers : Nat → Caller E := fun _ => .returned
  begun : Nat := 0
  added : List E := []
  handled : List (Nat × E) := []
  panicked : Bool := false

inductive Action (E : Type) where
  | addEvent (event : E)
  | caller (i : Nat)
  | loop

def State.setCaller (s : State E) (i : Nat) (caller : Caller E) : State E :=
  { s with callers := Function.update s.callers i caller }

/-- The loop; it holds the lock only while it takes the first event. -/
def loopStep (s : State E) : Option (State E) :=
  match s.loop with
  | .receiving => s.doChan.receive.map fun doChan => { s with doChan, loop := .checking }
  | .checking => some { s with loop := if s.evMap.isEmpty then .receiving else .locking }
  | .locking =>
      if s.mu.isNone then
        match s.evMap with
        | [] => some { s with panicked := true }
        | currentEvent :: rest =>
            some { s with evMap := rest, handled := s.handled ++ [currentEvent], loop := .doing }
      else none
  | .doing => some { s with loop := .checking }

section

variable [DecidableEq E] (s : State E)

/-- A goroutine on its way through `addEvent` and `doEvent`. -/
def callerStep (i : Nat) : Option (State E) :=
  match s.callers i with
  | .locking event =>
      if s.mu.isNone then
        some { s.setCaller i (.appending event) with mu := some i, evMap := s.evMap.eraseP fun ev => ev.2 = event }
      else none
  | .appending event =>
      some { s.setCaller i .sending with
        mu := none, evMap := s.evMap ++ [(s.added.length, event)], added := s.added ++ [event] }
  | .sending => (s.doChan.send true).map fun doChan => { s.setCaller i .returned with doChan }
  | .returned => none

def step : Action E → Option (State E)
  | .addEvent event =>
      if s.panicked then none else some { s.setCaller s.begun (.locking event) with begun := s.begun + 1 }
  | .caller i => if s.panicked then none else callerStep s i
  | .loop => if s.panicked then none else loopStep s

end

variable {s s' : State E} {a : Action E}

/-! ### One step -/

theorem callerStep_cases [DecidableEq E] {i : Nat} (h : callerStep s i = some s') :
    (∃ event, s.callers i = .locking event ∧ s.mu = none ∧ s' = { s.setCaller i (.appending event) with
      mu := some i, evMap := s.evMap.eraseP fun ev => ev.2 = event }) ∨
    (∃ event, s.callers i = .appending event ∧ s' = { s.setCaller i .sending with
      mu := none, evMap := s.evMap ++ [(s.added.length, event)], added := s.added ++ [event] }) ∨
    ∃ doChan, s.callers i = .sending ∧ doChan.buffer ≠ [] ∧ s' = { s.setCaller i .returned with doChan } := by
  unfold callerStep at h
  split at h
  · rename_i event hcaller
    split_ifs at h with hfree
    exact .inl ⟨event, hcaller, Option.isNone_iff_eq_none.1 hfree, (Option.some.inj h).symm⟩
  · rename_i event hcaller
    exact .inr (.inl ⟨event, hcaller, (Option.some.inj h).symm⟩)
  · rename_i hcaller
    obtain ⟨doChan, hsend, heq⟩ := Option.map_eq_some_iff.1 h
    refine .inr (.inr ⟨doChan, hcaller, ?_, heq.symm⟩)
    rw [Channel.buffer_send hsend]
    simp
  · cases h

theorem loopStep_cases (h : loopStep s = some s') :
    (∃ doChan, s.loop = .receiving ∧ s' = { s with doChan, loop := .checking }) ∨
    (s.loop = .checking ∧ s.evMap = [] ∧ s' = { s with loop := .receiving }) ∨
    (s.loop = .checking ∧ s.evMap ≠ [] ∧ s' = { s with loop := .locking }) ∨
    (s.loop = .locking ∧ s.mu = none ∧ s.evMap = [] ∧ s' = { s with panicked := true }) ∨
    (∃ currentEvent rest, s.loop = .locking ∧ s.mu = none ∧ s.evMap = currentEvent :: rest ∧
      s' = { s with evMap := rest, handled := s.handled ++ [currentEvent], loop := .doing }) ∨
    (s.loop = .doing ∧ s' = { s with loop := .checking }) := by
  unfold loopStep at h
  split at h
  · rename_i hloop
    obtain ⟨doChan, -, heq⟩ := Option.map_eq_some_iff.1 h
    exact .inl ⟨doChan, hloop, heq.symm⟩
  · rename_i hloop
    cases h
    by_cases hempty : s.evMap = []
    · exact .inr (.inl ⟨hloop, hempty, by simp [hempty]⟩)
    · exact .inr (.inr (.inl ⟨hloop, hempty, by simp [hempty]⟩))
  · rename_i hloop
    split_ifs at h with hfree
    have hmu := Option.isNone_iff_eq_none.1 hfree
    split at h
    · rename_i hempty
      exact .inr (.inr (.inr (.inl ⟨hloop, hmu, hempty, (Option.some.inj h).symm⟩)))
    · rename_i currentEvent rest hevents
      exact .inr (.inr (.inr (.inr (.inl ⟨currentEvent, rest, hloop, hmu, hevents, (Option.some.inj h).symm⟩))))
  · rename_i hloop
    exact .inr (.inr (.inr (.inr (.inr ⟨hloop, (Option.some.inj h).symm⟩))))

theorem step_cases [DecidableEq E] (h : step s a = some s') : s.panicked = false ∧
    ((∃ event, s' = { s.setCaller s.begun (.locking event) with begun := s.begun + 1 }) ∨
      (∃ i, callerStep s i = some s') ∨ loopStep s = some s') := by
  cases a with
  | addEvent event =>
    simp only [step] at h
    split_ifs at h with hpanicked
    exact ⟨Bool.eq_false_iff.2 hpanicked, .inl ⟨event, (Option.some.inj h).symm⟩⟩
  | caller i =>
    simp only [step] at h
    split_ifs at h with hpanicked
    exact ⟨Bool.eq_false_iff.2 hpanicked, .inr (.inl ⟨i, h⟩)⟩
  | loop =>
    simp only [step] at h
    split_ifs at h with hpanicked
    exact ⟨Bool.eq_false_iff.2 hpanicked, .inr (.inr h)⟩

/-! ### The events -/

/-- Where keys are distinct, the first entry with a key is the only one. -/
theorem eraseP_eq_filter [DecidableEq E] {entries : List (Nat × E)} (h : (entries.map Prod.snd).Nodup) (event : E) :
    entries.eraseP (fun ev => ev.2 = event) = entries.filter fun ev => ev.2 ≠ event := by
  induction entries with
  | nil => rfl
  | cons ev entries ih =>
    rw [List.map_cons, List.nodup_cons] at h
    obtain ⟨hnew, hrest⟩ := h
    by_cases hev : ev.2 = event
    · have hothers : entries.filter (fun ev => ev.2 ≠ event) = entries := by
        apply List.filter_eq_self.2
        intro other hother
        simp only [ne_eq, decide_not, Bool.not_eq_true', decide_eq_false_iff_not]
        intro hsame
        exact hnew (hev ▸ hsame ▸ List.mem_map_of_mem hother)
      rw [List.eraseP_cons_of_pos (by simpa using hev), List.filter_cons_of_neg (by simpa using hev), hothers]
    · rw [List.eraseP_cons_of_neg (by simpa using hev), List.filter_cons_of_pos (by simpa using hev), ih hrest]

/-- Every event that was added is handled or waits, in the order of the additions, or an equal one was added after it.
No two that wait are equal. -/
structure Queued (s : State E) : Prop where
  outside : ∀ i, s.begun ≤ i → s.callers i = .returned
  holder : ∀ i, (∃ event, s.callers i = .appending event) ↔ s.mu = some i
  distinct : (s.evMap.map Prod.snd).Nodup
  fresh : ∀ i event, s.callers i = .appending event → event ∉ s.evMap.map Prod.snd
  ordered : ((s.handled ++ s.evMap).map Prod.fst).Pairwise (· < ·)
  known : ∀ ev ∈ s.handled ++ s.evMap, s.added[ev.1]? = some ev.2
  kept : ∀ n event, s.added[n]? = some event → (n, event) ∈ s.handled ++ s.evMap ∨
    (∃ m, n < m ∧ s.added[m]? = some event) ∨ ∃ i, s.callers i = .appending event

namespace Queued

theorem start : Queued ({} : State E) := by
  constructor <;> simp

/-- Nobody begins or ends to append, and the queue stays as it is. -/
theorem of_same (h : Queued s) (hevents : s'.evMap = s.evMap) (hhandled : s'.handled = s.handled)
    (hadded : s'.added = s.added) (hmu : s'.mu = s.mu) (houtside : ∀ i, s'.begun ≤ i → s'.callers i = .returned)
    (hcallers : ∀ i event, s'.callers i = .appending event ↔ s.callers i = .appending event) : Queued s' := by
  constructor
  · exact houtside
  · intro i
    rw [hmu, ← h.holder]
    exact exists_congr (hcallers i)
  · rw [hevents]
    exact h.distinct
  · intro i event hcaller
    rw [hevents]
    exact h.fresh i event ((hcallers i event).1 hcaller)
  · rw [hevents, hhandled]
    exact h.ordered
  · rw [hevents, hhandled, hadded]
    exact h.known
  · intro n event hn
    rw [hadded] at hn ⊢
    rw [hevents, hhandled]
    rcases h.kept n event hn with hmem | hlater | ⟨i, hcaller⟩
    · exact .inl hmem
    · exact .inr (.inl hlater)
    · exact .inr (.inr ⟨i, (hcallers i event).2 hcaller⟩)

theorem lt_added (h : Queued s) {ev : Nat × E} (hev : ev ∈ s.handled ++ s.evMap) : ev.1 < s.added.length := by
  have hknown := h.known ev hev
  exact (List.getElem?_eq_some_iff.1 hknown).1

theorem not_appending (h : Queued s) {i : Nat} (hmu : s.mu ≠ some i) (event : E) : s.callers i ≠ .appending event := by
  intro hcaller
  exact hmu ((h.holder i).1 ⟨event, hcaller⟩)

theorem lt_begun (h : Queued s) {i : Nat} (hcaller : s.callers i ≠ .returned) : i < s.begun := by
  by_contra hout
  exact hcaller (h.outside i (Nat.le_of_not_lt hout))

theorem outside_setCaller (h : Queued s) {i : Nat} (hi : i < s.begun) (caller : Caller E) :
    ∀ j, s.begun ≤ j → (s.setCaller i caller).callers j = .returned := by
  intro j hj
  have hne : j ≠ i := by omega
  simp only [State.setCaller, Function.update_of_ne hne]
  exact h.outside j hj

/-- An equal event that waits is taken out. -/
theorem lock [DecidableEq E] (h : Queued s) {i : Nat} {event : E} (hcaller : s.callers i = .locking event)
    (hmu : s.mu = none) : Queued { s.setCaller i (.appending event) with
      mu := some i, evMap := s.evMap.eraseP fun ev => ev.2 = event } := by
  have hnobody (j : Nat) (other : E) : s.callers j ≠ .appending other := h.not_appending (by simp [hmu]) other
  have hold : ∀ j other, Function.update s.callers i (.appending event) j = .appending other →
      j = i ∧ other = event := by
    intro j other hj
    by_cases hji : j = i
    · subst hji
      rw [Function.update_self] at hj
      exact ⟨rfl, (Caller.appending.inj hj).symm⟩
    · rw [Function.update_of_ne hji] at hj
      exact absurd hj (hnobody j other)
  have hsub : (s.evMap.filter fun ev => ev.2 ≠ event).Sublist s.evMap := List.filter_sublist
  rw [eraseP_eq_filter h.distinct]
  constructor
  · exact h.outside_setCaller (h.lt_begun (by simp [hcaller])) _
  · intro j
    constructor
    · rintro ⟨other, hj⟩
      rw [(hold j other hj).1]
    · intro hj
      cases hj
      exact ⟨event, Function.update_self _ _ _⟩
  · exact h.distinct.sublist (hsub.map Prod.snd)
  · intro j other hj hmem
    obtain ⟨ev, hev, heq⟩ := List.mem_map.1 hmem
    have hne : ev.2 ≠ event := by simpa using (List.mem_filter.1 hev).2
    exact hne (heq.trans (hold j other hj).2)
  · exact h.ordered.sublist ((hsub.append_left s.handled).map Prod.fst)
  · intro ev hev
    exact h.known ev ((hsub.append_left s.handled).subset hev)
  · intro n other hn
    rcases h.kept n other hn with hmem | hlater | ⟨j, hj⟩
    · by_cases heq : other = event
      · subst heq
        exact .inr (.inr ⟨i, Function.update_self _ _ _⟩)
      · refine .inl (List.mem_append.2 ((List.mem_append.1 hmem).imp_right ?_))
        intro hwaits
        exact List.mem_filter.2 ⟨hwaits, by simpa using heq⟩
    · exact .inr (.inl hlater)
    · exact absurd hj (hnobody j other)

theorem append (h : Queued s) {i : Nat} {event : E} (hcaller : s.callers i = .appending event) :
    Queued { s.setCaller i .sending with
      mu := none, evMap := s.evMap ++ [(s.added.length, event)], added := s.added ++ [event] } := by
  have hmu : s.mu = some i := (h.holder i).1 ⟨event, hcaller⟩
  have hnobody : ∀ j other, Function.update s.callers i .sending j ≠ .appending other := by
    intro j other
    by_cases hji : j = i
    · subst hji
      simp
    · rw [Function.update_of_ne hji]
      refine h.not_appending ?_ other
      rw [hmu]
      intro heq
      exact hji (Option.some.inj heq).symm
  constructor
  · exact h.outside_setCaller (h.lt_begun (by simp [hcaller])) _
  · intro j
    constructor
    · rintro ⟨other, hj⟩
      exact absurd hj (hnobody j other)
    · intro hj
      cases hj
  · show ((s.evMap ++ [(s.added.length, event)]).map Prod.snd).Nodup
    rw [List.map_append]
    exact h.distinct.append (List.nodup_singleton _) (List.disjoint_singleton.2 (h.fresh i event hcaller))
  · intro j other hj
    exact absurd hj (hnobody j other)
  · show ((s.handled ++ (s.evMap ++ [(s.added.length, event)])).map Prod.fst).Pairwise (· < ·)
    rw [← List.append_assoc, List.map_append, List.pairwise_append]
    refine ⟨h.ordered, List.pairwise_singleton _ _, ?_⟩
    intro n hn m hm
    obtain ⟨ev, hev, rfl⟩ := List.mem_map.1 hn
    rw [List.map_singleton, List.mem_singleton] at hm
    rw [hm]
    exact h.lt_added hev
  · intro ev hev
    change ev ∈ s.handled ++ (s.evMap ++ [(s.added.length, event)]) at hev
    rw [← List.append_assoc] at hev
    show (s.added ++ [event])[ev.1]? = some ev.2
    rcases List.mem_append.1 hev with hold | hlast
    · rw [List.getElem?_append_left (h.lt_added hold)]
      exact h.known ev hold
    · rw [List.mem_singleton.1 hlast]
      simp
  · intro n other hn
    change (s.added ++ [event])[n]? = some other at hn
    show (n, other) ∈ s.handled ++ (s.evMap ++ [(s.added.length, event)]) ∨
      (∃ m, n < m ∧ (s.added ++ [event])[m]? = some other) ∨ _
    rw [← List.append_assoc]
    by_cases hlt : n < s.added.length
    · rw [List.getElem?_append_left hlt] at hn
      rcases h.kept n other hn with hmem | ⟨m, hm, hlater⟩ | ⟨j, hj⟩
      · exact .inl (List.mem_append_left _ hmem)
      · refine .inr (.inl ⟨m, hm, ?_⟩)
        rw [List.getElem?_append_left (List.getElem?_eq_some_iff.1 hlater).1]
        exact hlater
      · have hji : j = i := Option.some.inj (((h.holder j).1 ⟨other, hj⟩).symm.trans hmu)
        subst hji
        cases hj.symm.trans hcaller
        exact .inr (.inl ⟨s.added.length, hlt, by simp⟩)
    · have hn' : n = s.added.length := by
        have hbound := (List.getElem?_eq_some_iff.1 hn).1
        rw [List.length_append, List.length_singleton] at hbound
        omega
      subst hn'
      have heq : other = event := by simpa using hn.symm
      subst heq
      exact .inl (List.mem_append_right _ (List.mem_singleton_self _))

/-- The loop takes the first event. -/
theorem take (h : Queued s) {currentEvent : Nat × E} {rest : List (Nat × E)}
    (hevents : s.evMap = currentEvent :: rest) : Queued { s with evMap := rest, handled := s.handled ++ [currentEvent], loop := .doing } := by
  have hall : s.handled ++ [currentEvent] ++ rest = s.handled ++ s.evMap := by
    rw [hevents, List.append_assoc, List.singleton_append]
  have hdistinct := h.distinct
  rw [hevents, List.map_cons] at hdistinct
  refine ⟨h.outside, h.holder, (List.nodup_cons.1 hdistinct).2, ?_, ?_, ?_, ?_⟩
  · intro i event hcaller hmem
    apply h.fresh i event hcaller
    rw [hevents, List.map_cons]
    exact List.mem_cons_of_mem _ hmem
  · show ((s.handled ++ [currentEvent] ++ rest).map Prod.fst).Pairwise (· < ·)
    rw [hall]
    exact h.ordered
  · intro ev hev
    change ev ∈ s.handled ++ [currentEvent] ++ rest at hev
    rw [hall] at hev
    exact h.known ev hev
  · intro n event hn
    show (n, event) ∈ s.handled ++ [currentEvent] ++ rest ∨ _
    rw [hall]
    exact h.kept n event hn

theorem step [DecidableEq E] (h : Queued s) (hstep : step s a = some s') : Queued s' := by
  obtain ⟨-, ⟨event, rfl⟩ | ⟨i, hcaller⟩ | hloop⟩ := step_cases hstep
  · refine h.of_same rfl rfl rfl rfl ?_ ?_
    · intro i hi
      have hne : i ≠ s.begun := by
        rintro rfl
        exact absurd hi (Nat.not_succ_le_self _)
      simp only [State.setCaller, Function.update_of_ne hne]
      exact h.outside i (Nat.le_of_succ_le hi)
    · intro i other
      by_cases hi : i = s.begun
      · subst hi
        simp [State.setCaller, h.outside s.begun (Nat.le_refl _)]
      · simp [State.setCaller, hi]
  · rcases callerStep_cases hcaller with ⟨event, hlocking, hmu, rfl⟩ | ⟨event, happending, rfl⟩ |
      ⟨doChan, hsending, -, rfl⟩
    · exact h.lock hlocking hmu
    · exact h.append happending
    · refine h.of_same rfl rfl rfl rfl (h.outside_setCaller (h.lt_begun (by simp [hsending])) _) ?_
      intro j other
      by_cases hji : j = i
      · subst hji
        simp [State.setCaller, hsending]
      · simp [State.setCaller, hji]
  · rcases loopStep_cases hloop with ⟨doChan, -, rfl⟩ | ⟨-, -, rfl⟩ | ⟨-, -, rfl⟩ | ⟨-, -, -, rfl⟩ |
      ⟨currentEvent, rest, -, -, hevents, rfl⟩ | ⟨-, rfl⟩
    · exact h.of_same rfl rfl rfl rfl h.outside fun _ _ => Iff.rfl
    · exact h.of_same rfl rfl rfl rfl h.outside fun _ _ => Iff.rfl
    · exact h.of_same rfl rfl rfl rfl h.outside fun _ _ => Iff.rfl
    · exact h.of_same rfl rfl rfl rfl h.outside fun _ _ => Iff.rfl
    · exact h.take hevents
    · exact h.of_same rfl rfl rfl rfl h.outside fun _ _ => Iff.rfl

end Queued

/-! ### The loop -/

/-- The loop waits only while somebody is on the way to wake it or nothing is left, and takes the lock only when an
event waits or is about to. -/
structure Awake (s : State E) : Prop where
  receiving : s.loop = .receiving → s.evMap = [] ∨ s.doChan.buffer ≠ [] ∨
    ∃ i, s.callers i = .sending ∨ ∃ event, s.callers i = .appending event
  locking : s.loop = .locking → s.evMap ≠ [] ∨ s.mu.isSome
  calm : s.panicked = false

namespace Awake

/-- A goroutine that is on its way goes on. -/
theorem setCaller (h : Awake s) {i : Nat} {caller : Caller E}
    (hidle : ∀ j, (s.callers j = .sending ∨ ∃ event, s.callers j = .appending event) → j ≠ i) (begun : Nat) :
    Awake { s.setCaller i caller with begun } := by
  refine ⟨?_, h.locking, h.calm⟩
  intro hloop
  refine (h.receiving hloop).imp_right fun hwoken => hwoken.imp_right ?_
  rintro ⟨j, hj⟩
  refine ⟨j, ?_⟩
  simp only [State.setCaller, Function.update_of_ne (hidle j hj)]
  exact hj

theorem callerStep [DecidableEq E] (h : Awake s) {i : Nat} (hstep : callerStep s i = some s') : Awake s' := by
  rcases callerStep_cases hstep with ⟨event, -, -, rfl⟩ | ⟨event, -, rfl⟩ | ⟨doChan, -, hbuffer, rfl⟩
  · refine ⟨?_, ?_, h.calm⟩
    · intro _
      exact .inr (.inr ⟨i, .inr ⟨event, Function.update_self _ _ _⟩⟩)
    · intro _
      exact .inr rfl
  · refine ⟨?_, ?_, h.calm⟩
    · intro _
      exact .inr (.inr ⟨i, .inl (Function.update_self _ _ _)⟩)
    · intro _
      exact .inl (by simp)
  · refine ⟨?_, h.locking, h.calm⟩
    intro _
    exact .inr (.inl hbuffer)

theorem loopStep (h : Awake s) (hstep : loopStep s = some s') : Awake s' := by
  rcases loopStep_cases hstep with ⟨doChan, -, rfl⟩ | ⟨-, hempty, rfl⟩ | ⟨-, hevents, rfl⟩ | ⟨hloop, hmu, hempty, rfl⟩ |
    ⟨currentEvent, rest, -, -, -, rfl⟩ | ⟨-, rfl⟩
  · exact ⟨by simp, by simp, h.calm⟩
  · exact ⟨fun _ => .inl hempty, by simp, h.calm⟩
  · exact ⟨by simp, fun _ => .inl hevents, h.calm⟩
  · rcases h.locking hloop with hsome | hheld
    · exact absurd hempty hsome
    · rw [hmu] at hheld
      cases hheld
  · exact ⟨by simp, by simp, h.calm⟩
  · exact ⟨by simp, by simp, h.calm⟩

theorem step [DecidableEq E] (h : Awake s) (hqueued : Queued s) (hstep : step s a = some s') : Awake s' := by
  obtain ⟨-, ⟨event, rfl⟩ | ⟨i, hcaller⟩ | hloop⟩ := step_cases hstep
  · apply h.setCaller
    rintro j hj rfl
    have hreturned := hqueued.outside s.begun (Nat.le_refl _)
    rcases hj with hsending | ⟨other, happending⟩
    · cases hsending.symm.trans hreturned
    · cases happending.symm.trans hreturned
  · exact h.callerStep hcaller
  · exact h.loopStep hloop

end Awake

/-! ### Runs -/

variable [DecidableEq E]

/-- After any actions. -/
def Reached (s : State E) : Prop := ∃ actions, runActions step ({} : State E) actions = some s

theorem Reached.invariant (h : Reached s) : Queued s ∧ Awake s := by
  obtain ⟨actions, hrun⟩ := h
  refine runActions_invariant (fun s => Queued s ∧ Awake s) ?_ ⟨Queued.start, ?_⟩ hrun
  · rintro s a t ⟨hqueued, hawake⟩ hstep
    exact ⟨hqueued.step hstep, hawake.step hqueued hstep⟩
  · constructor <;> simp

/-- The loop never asks an empty queue for its first event. No two events that wait are equal, and those that were
handled or wait are in the order in which they were added; every other event that was added was replaced by an equal
one. -/
theorem events_kept (h : Reached s) :
    s.panicked = false ∧ (s.evMap.map Prod.snd).Nodup ∧ ((s.handled ++ s.evMap).map Prod.fst).Pairwise (· < ·) ∧
      (∀ ev ∈ s.handled ++ s.evMap, s.added[ev.1]? = some ev.2) ∧
      ∀ n event, s.added[n]? = some event → (n, event) ∈ s.handled ++ s.evMap ∨
        (∃ m, n < m ∧ s.added[m]? = some event) ∨ ∃ i, s.callers i = .appending event := by
  obtain ⟨hqueued, hawake⟩ := h.invariant
  exact ⟨hawake.calm, hqueued.distinct, hqueued.ordered, hqueued.known, hqueued.kept⟩

/-- When everybody who added an event has returned and the loop waits to be woken with nothing in its channel, no event
waits: each one was handled, or an equal one that was added after it was. -/
theorem nothing_stranded (h : Reached s) (hreturned : ∀ i < s.begun, s.callers i = .returned)
    (hloop : s.loop = .receiving) (hbuffer : s.doChan.buffer = []) :
    s.evMap = [] ∧ ∀ n event, s.added[n]? = some event → ∃ m, n ≤ m ∧ (m, event) ∈ s.handled := by
  obtain ⟨hqueued, hawake⟩ := h.invariant
  have hall (i : Nat) : s.callers i = .returned := by
    by_cases hi : i < s.begun
    · exact hreturned i hi
    · exact hqueued.outside i (Nat.le_of_not_lt hi)
  have hempty : s.evMap = [] := by
    rcases hawake.receiving hloop with hempty | hfull | ⟨i, hi⟩
    · exact hempty
    · exact absurd hbuffer hfull
    · simp [hall] at hi
  refine ⟨hempty, ?_⟩
  intro n event hn
  -- an event that was replaced is followed by an equal one, and there are only so many after it
  induction hleft : s.added.length - n using Nat.strongRecOn generalizing n with
  | _ left ih =>
    rcases hqueued.kept n event hn with hmem | ⟨m, hm, hlater⟩ | ⟨i, happending⟩
    · rw [hempty, List.append_nil] at hmem
      exact ⟨n, Nat.le_refl n, hmem⟩
    · have hbound := (List.getElem?_eq_some_iff.1 hlater).1
      obtain ⟨k, hk, hhandled⟩ := ih (s.added.length - m) (by omega) m hlater rfl
      exact ⟨k, Nat.le_trans (Nat.le_of_lt hm) hk, hhandled⟩
    · cases happending.symm.trans (hall i)

/-- 5 is added again before the loop has come to it. -/
def repeated : List (Action Nat) :=
  [.addEvent 5, .addEvent 7, .addEvent 5, .caller 0, .caller 0, .caller 1, .caller 0, .loop, .loop, .caller 1,
    .caller 2, .caller 2, .caller 1, .caller 2, .loop, .loop, .loop, .loop, .loop, .loop, .loop, .loop, .loop, .loop]

theorem nothing_stranded_repeated : ∃ s : State Nat, runActions step {} repeated = some s ∧
    s.added = [5, 7, 5] ∧ s.handled = [(1, 7), (2, 5)] ∧ s.evMap = [] ∧
      ∀ n event, s.added[n]? = some event → ∃ m, n ≤ m ∧ (m, event) ∈ s.handled := by
  have hends : ((runActions step ({} : State Nat) repeated).map fun s =>
      (decide (∀ i < s.begun, s.callers i = .returned), s.loop, s.doChan.buffer)) = some (true, .receiving, []) := by
    decide
  have hevents : ((runActions step ({} : State Nat) repeated).map fun s => (s.added, s.handled)) =
      some ([5, 7, 5], [(1, 7), (2, 5)]) := by decide
  obtain ⟨s, hrun, hs⟩ := Option.map_eq_some_iff.1 hends
  rw [hrun, Option.map_some, Option.some.injEq, Prod.mk.injEq] at hevents
  simp only [Prod.mk.injEq, decide_eq_true_eq] at hs
  obtain ⟨hadded, hhandled⟩ := hevents
  obtain ⟨hreturned, hloop, hbuffer⟩ := hs
  obtain ⟨hempty, hall⟩ := nothing_stranded ⟨repeated, hrun⟩ hreturned hloop hbuffer
  exact ⟨s, hrun, hadded, hhandled, hempty, hall⟩

/-- The loop has seen an event that is taken out before the loop takes the lock, and put back. -/
def takenOut : List (Action Nat) :=
  [.addEvent 5, .caller 0, .caller 0, .caller 0, .loop, .loop, .addEvent 5, .caller 1]

theorem events_kept_takenOut : ∃ s : State Nat, runActions step {} takenOut = some s ∧ s.loop = .locking ∧
    s.evMap = [] ∧ s.panicked = false := by
  have hends : ((runActions step ({} : State Nat) takenOut).map fun s => (s.loop, s.evMap)) =
      some (.locking, []) := by decide
  obtain ⟨s, hrun, hs⟩ := Option.map_eq_some_iff.1 hends
  obtain ⟨hloop, hempty⟩ := Prod.mk.inj hs
  exact ⟨s, hrun, hloop, hempty, (events_kept ⟨takenOut, hrun⟩).1⟩

end CodeStudy.DeviceEvents
