import CodeStudy.Sigslot.Signal

/-!
# What an emission has done

The trace of a signal tells which slots an emission took a reference to and which of them it has called or skipped.
-/

namespace CodeStudy.Sigslot

/-- The emission that an event is about. -/
def Event.emission : Event → Option Nat
  | .referred e _ | .turn e _ | .skipped e _ _ | .called e _ | .ended e => some e
  | .connected _ _ | .disconnected _ | .blocked _ | .unblocked _ | .expired _ => none

/-- The slots that were listed when the emission took its reference. -/
def snapshot (e : Nat) : List Event → Option (List SlotId)
  | [] => none
  | .referred e' slots :: trace => if e' = e then some slots else snapshot e trace
  | _ :: trace => snapshot e trace

/-- The slots that the emission has called or skipped, in their order. -/
def decided (e : Nat) : List Event → List SlotId
  | [] => []
  | .skipped e' s _ :: trace => if e' = e then decided e trace ++ [s] else decided e trace
  | .called e' s :: trace => if e' = e then decided e trace ++ [s] else decided e trace
  | _ :: trace => decided e trace

def calls (e : Nat) : List Event → List SlotId
  | [] => []
  | .called e' s :: trace => if e' = e then calls e trace ++ [s] else calls e trace
  | _ :: trace => calls e trace

def lastBlocked (s : SlotId) : List Event → Bool
  | [] => false
  | .blocked s' :: trace => if s' = s then true else lastBlocked s trace
  | .unblocked s' :: trace => if s' = s then false else lastBlocked s trace
  | _ :: trace => lastBlocked s trace

/-- The slots before the `i`th one of a group. -/
def walked (groups : List Group) (g i : Nat) : List SlotId :=
  listed (groups.take g) ++ ((groups[g]?.map Group.slts).getD []).take i

variable {groups : List Group} {group : Group} {g i e : Nat} {s : SlotId} {trace events : List Event} {event : Event}

@[simp] theorem walked_start (groups : List Group) : walked groups 0 0 = [] := by
  simp [walked, listed]

theorem walked_nextGroup (hg : groups[g]? = some group) (hi : group.slts[i]? = none) :
    walked groups (g + 1) 0 = walked groups g i := by
  have hall : group.slts.take i = group.slts := List.take_of_length_le (List.getElem?_eq_none_iff.1 hi)
  simp [walked, listed, List.take_add_one, hg, hall]

theorem walked_nextSlot (hg : groups[g]? = some group) (hi : group.slts[i]? = some s) :
    walked groups g (i + 1) = walked groups g i ++ [s] := by
  simp [walked, hg, List.take_add_one, hi]

theorem walked_end (hg : groups[g]? = none) (i : Nat) : walked groups g i = listed groups := by
  have hall : groups.take g = groups := List.take_of_length_le (List.getElem?_eq_none_iff.1 hg)
  simp [walked, hg, hall]

theorem walked_isPrefix (groups : List Group) (g i : Nat) : walked groups g i <+: listed groups := by
  cases hg : groups[g]? with
  | none => exact walked_end hg i ▸ List.prefix_refl _
  | some group =>
    obtain ⟨hlt, heq⟩ := List.getElem?_eq_some_iff.1 hg
    have hsplit : listed groups = listed (groups.take g) ++ (group.slts ++ listed (groups.drop (g + 1))) := by
      conv_lhs => rw [← List.take_append_drop g groups, List.drop_eq_getElem_cons hlt, heq]
      simp [listed]
    rw [hsplit, walked, hg]
    apply (List.prefix_append_right_inj _).2
    exact (List.take_prefix i group.slts).trans (List.prefix_append _ _)

/-! ### Events of others -/

theorem snapshot_append_of_ne (hevents : ∀ event ∈ events, event.emission ≠ some e) :
    snapshot e (events ++ trace) = snapshot e trace := by
  induction events with
  | nil => rfl
  | cons event events ih =>
    have hrest := ih fun later hlater => hevents later (List.mem_cons_of_mem _ hlater)
    have hne := hevents event List.mem_cons_self
    cases event with
    | referred e' slots =>
      have he : e' ≠ e := fun heq => hne (heq ▸ rfl)
      simp [snapshot, he, hrest]
    | _ => exact hrest

theorem decided_append_of_ne (hevents : ∀ event ∈ events, event.emission ≠ some e) :
    decided e (events ++ trace) = decided e trace := by
  induction events with
  | nil => rfl
  | cons event events ih =>
    have hrest := ih fun later hlater => hevents later (List.mem_cons_of_mem _ hlater)
    have hne := hevents event List.mem_cons_self
    cases event with
    | skipped e' s reason =>
      have he : e' ≠ e := fun heq => hne (heq ▸ rfl)
      simp [decided, he, hrest]
    | called e' s =>
      have he : e' ≠ e := fun heq => hne (heq ▸ rfl)
      simp [decided, he, hrest]
    | _ => exact hrest

theorem lastBlocked_append_of_emission (hevents : ∀ event ∈ events, event.emission = some e) :
    lastBlocked s (events ++ trace) = lastBlocked s trace := by
  induction events with
  | nil => rfl
  | cons event events ih =>
    have hrest := ih fun later hlater => hevents later (List.mem_cons_of_mem _ hlater)
    have hself := hevents event List.mem_cons_self
    cases event with
    | blocked s' => simp [Event.emission] at hself
    | unblocked s' => simp [Event.emission] at hself
    | _ => exact hrest

theorem mem_of_lastBlocked (h : lastBlocked s trace = true) : .blocked s ∈ trace := by
  induction trace with
  | nil => cases h
  | cons event trace ih =>
    cases event with
    | blocked s' =>
      by_cases hs : s' = s
      · exact hs ▸ List.mem_cons_self
      · simp only [lastBlocked, hs, if_false] at h
        exact List.mem_cons_of_mem _ (ih h)
    | unblocked s' =>
      by_cases hs : s' = s
      · simp [lastBlocked, hs] at h
      · simp only [lastBlocked, hs, if_false] at h
        exact List.mem_cons_of_mem _ (ih h)
    | _ => exact List.mem_cons_of_mem _ (ih h)

/-- What the emissions do says nothing about slots and objects. -/
theorem mem_append_of_emission {events : List Event} (hevents : ∀ event ∈ events, event.emission = some e)
    (hnone : event.emission = none) : event ∈ events ++ trace ↔ event ∈ trace := by
  rw [List.mem_append, or_iff_right]
  intro hmem
  have hself := hevents event hmem
  simp [hnone] at hself

theorem count_calls (hskipped : ∀ reason, .skipped e s reason ∉ trace) :
    (calls e trace).count s = (decided e trace).count s := by
  induction trace with
  | nil => rfl
  | cons event trace ih =>
    have hrest := ih fun reason hmem => hskipped reason (List.mem_cons_of_mem _ hmem)
    cases event with
    | skipped e' s' reason =>
      by_cases he : e' = e
      · have hne : s' ≠ s := by
          intro heq
          subst heq he
          exact hskipped reason List.mem_cons_self
        simp [calls, decided, he, hrest, hne]
      · simpa [calls, decided, he] using hrest
    | called e' s' =>
      by_cases he : e' = e
      · simp [calls, decided, he, hrest]
      · simpa [calls, decided, he] using hrest
    | _ => exact hrest

/-! ### Where an emission is, and what it has done -/

/-- The slot of the turn has been called or skipped. -/
def Point.decided : Point → Bool
  | .running | .disconnect | .clean => true
  | .connected | .blocked | .lock | .stillConnected | .call => false

/-- What an emission has done with the list it has a reference to, at a stage. -/
def Follows (trace : List Event) (e : Nat) (list : Option (List Group)) : Stage → Prop
  | .idle | .starting => list = none ∧ snapshot e trace = none ∧ decided e trace = [] ∧ .ended e ∉ trace
  | .between g i => ∃ groups, list = some groups ∧ snapshot e trace = some (listed groups) ∧
      decided e trace = walked groups g i ∧ .ended e ∉ trace
  | .turn g i s point => ∃ groups group, list = some groups ∧ groups[g]? = some group ∧ group.slts[i]? = some s ∧
      snapshot e trace = some (listed groups) ∧
      decided e trace = walked groups g (if point.decided then i + 1 else i) ∧ .ended e ∉ trace
  | .ended => list = none ∧ ∃ slots, snapshot e trace = some slots ∧ decided e trace = slots

/-- What has been found out about a slot since its turn began. -/
structure Turn (slots : Slots) (holders : ObjectId → List Nat) (trace : List Event) (e : Nat) (s : SlotId)
    (point : Point) : Prop where
  began : ∃ during before, trace = during ++ .turn e s :: before ∧ .turn e s ∉ during ∧
    (point ≠ .connected → .disconnected s ∉ before) ∧
    (point = .lock ∨ point = .stillConnected ∨ point = .call → ∃ after until', during = after ++ until' ∧
      lastBlocked s (until' ++ .turn e s :: before) = false)
  tracked : point = .lock → (slots s).object ≠ none
  holds : point = .stillConnected ∨ point = .call ∨ point = .running →
    ∀ o, (slots s).object = some o → e ∈ holders o

theorem Follows.append {list : Option (List Group)} {stage : Stage} (h : Follows trace e list stage)
    (hevents : ∀ event ∈ events, event.emission ≠ some e) : Follows (events ++ trace) e list stage := by
  have hended : .ended e ∉ trace → .ended e ∉ events ++ trace := by
    intro hout hmem
    rcases List.mem_append.1 hmem with hmem | hmem
    · exact hevents _ hmem rfl
    · exact hout hmem
  cases stage with
  | idle =>
    obtain ⟨hlist, hsnapshot, hdecided, hout⟩ := h
    exact ⟨hlist, (snapshot_append_of_ne hevents).trans hsnapshot, (decided_append_of_ne hevents).trans hdecided,
      hended hout⟩
  | starting =>
    obtain ⟨hlist, hsnapshot, hdecided, hout⟩ := h
    exact ⟨hlist, (snapshot_append_of_ne hevents).trans hsnapshot, (decided_append_of_ne hevents).trans hdecided,
      hended hout⟩
  | between g i =>
    obtain ⟨groups, hlist, hsnapshot, hdecided, hout⟩ := h
    exact ⟨groups, hlist, (snapshot_append_of_ne hevents).trans hsnapshot,
      (decided_append_of_ne hevents).trans hdecided, hended hout⟩
  | turn g i s point =>
    obtain ⟨groups, group, hlist, hg, hi, hsnapshot, hdecided, hout⟩ := h
    exact ⟨groups, group, hlist, hg, hi, (snapshot_append_of_ne hevents).trans hsnapshot,
      (decided_append_of_ne hevents).trans hdecided, hended hout⟩
  | ended =>
    obtain ⟨hlist, slots, hsnapshot, hdecided⟩ := h
    exact ⟨hlist, slots, (snapshot_append_of_ne hevents).trans hsnapshot,
      (decided_append_of_ne hevents).trans hdecided⟩

/-- The turn goes on, whatever other threads do. -/
theorem Turn.append {slots slots' : Slots} {holders holders' : ObjectId → List Nat} {point : Point}
    (h : Turn slots holders trace e s point) (hevents : ∀ event ∈ events, event ≠ .turn e s)
    (hobject : (slots' s).object = (slots s).object) (hholders : ∀ o, e ∈ holders o → e ∈ holders' o) :
    Turn slots' holders' (events ++ trace) e s point := by
  obtain ⟨during, before, htrace, hlast, hconnected, hunblocked⟩ := h.began
  refine ⟨⟨events ++ during, before, by rw [htrace, List.append_assoc], ?_, hconnected, ?_⟩, ?_, ?_⟩
  · intro hmem
    rcases List.mem_append.1 hmem with hmem | hmem
    · exact hevents _ hmem rfl
    · exact hlast hmem
  · intro hpoint
    obtain ⟨after, until', heq, hlast⟩ := hunblocked hpoint
    exact ⟨events ++ after, until', by rw [heq, List.append_assoc], hlast⟩
  · intro hpoint
    rw [hobject]
    exact h.tracked hpoint
  · intro hpoint o ho
    exact hholders o (h.holds hpoint o (hobject ▸ ho))

abbrev Plain := State (Handle → Option (List Group))

structure Emissions (p : Plain) : Prop where
  follows : ∀ e, Follows p.trace e (p.store (.ref e)) (p.stages e)
  turn : ∀ e g i s point, p.stages e = .turn g i s point → Turn p.slots p.holders p.trace e s point
  known : ∀ e groups, p.store (.ref e) = some groups → ∀ s ∈ listed groups, s < p.nextSlot
  snapshots : ∀ e slots, snapshot e p.trace = some slots → slots.Nodup ∧ (∀ s ∈ slots, s < p.nextSlot) ∧
    slots.Pairwise fun s t => (p.slots s).group ≤ (p.slots t).group

variable {p q : Plain}

/-- The slot of a turn is one of the list. -/
theorem Emissions.turn_known (h : Emissions p) {point : Point} (hstage : p.stages e = .turn g i s point) :
    s < p.nextSlot := by
  have hfollows := h.follows e
  rw [hstage] at hfollows
  obtain ⟨groups, group, hlist, hg, hi, -⟩ := hfollows
  exact h.known e groups hlist s (mem_listed.2 ⟨group, List.mem_of_getElem? hg, List.mem_of_getElem? hi⟩)

/-- A step that no emission takes. -/
structure Outside (p q : Plain) : Prop where
  stages : q.stages = p.stages
  refs : ∀ e, q.store (.ref e) = p.store (.ref e)
  holders : q.holders = p.holders
  nextSlot : p.nextSlot ≤ q.nextSlot
  slots : ∀ s < p.nextSlot, (q.slots s).group = (p.slots s).group ∧ (q.slots s).object = (p.slots s).object
  trace : ∃ events, q.trace = events ++ p.trace ∧ ∀ event ∈ events, event.emission = none

theorem Emissions.outside (h : Emissions p) (hout : Outside p q) : Emissions q := by
  obtain ⟨events, htrace, hevents⟩ := hout.trace
  have hothers : ∀ e, ∀ event ∈ events, event.emission ≠ some e := by
    intro e event hmem
    simp [hevents event hmem]
  refine ⟨?_, ?_, ?_, ?_⟩
  · intro e
    rw [htrace, hout.refs, hout.stages]
    exact (h.follows e).append (hothers e)
  · intro e g i s point hstage
    rw [hout.stages] at hstage
    rw [htrace]
    apply (h.turn e g i s point hstage).append
    · intro event hmem heq
      exact hothers e event hmem (heq ▸ rfl)
    · exact (hout.slots s (h.turn_known hstage)).2
    · intro o ho
      rwa [hout.holders]
  · intro e groups hlist s hs
    rw [hout.refs] at hlist
    exact Nat.lt_of_lt_of_le (h.known e groups hlist s hs) hout.nextSlot
  · intro e slots hsnapshot
    rw [htrace, snapshot_append_of_ne (hothers e)] at hsnapshot
    obtain ⟨hnodup, hknown, hgroups⟩ := h.snapshots e slots hsnapshot
    refine ⟨hnodup, fun s hs => Nat.lt_of_lt_of_le (hknown s hs) hout.nextSlot, ?_⟩
    apply hgroups.imp_of_mem
    intro s t hs ht hle
    rwa [(hout.slots s (hknown s hs)).1, (hout.slots t (hknown t ht)).1]

/-- A step of the emission `e`. -/
structure Moves (e : Nat) (p q : Plain) : Prop where
  slots : q.slots = p.slots
  nextSlot : q.nextSlot = p.nextSlot
  gone : q.gone = p.gone
  cleaning : q.cleaning = p.cleaning
  stages : ∀ e' ≠ e, q.stages e' = p.stages e'
  lists : ∀ h ≠ .ref e, q.store h = p.store h
  holders : ∀ o, ∀ e' ≠ e, e' ∈ p.holders o → e' ∈ q.holders o
  alive : ∀ o, q.holders o ≠ [] → p.holders o ≠ [] ∨ p.gone o = false
  trace : ∃ events, q.trace = events ++ p.trace ∧ ∀ event ∈ events, event.emission = some e

theorem Emissions.moves (h : Emissions p) (hmoves : Moves e p q)
    (hfollows : Follows q.trace e (q.store (.ref e)) (q.stages e))
    (hturn : ∀ g i s point, q.stages e = .turn g i s point → Turn q.slots q.holders q.trace e s point)
    (hknown : ∀ groups, q.store (.ref e) = some groups → ∀ s ∈ listed groups, s < p.nextSlot)
    (hsnapshots : ∀ slots, snapshot e q.trace = some slots → slots.Nodup ∧ (∀ s ∈ slots, s < p.nextSlot) ∧
      slots.Pairwise fun s t => (p.slots s).group ≤ (p.slots t).group) : Emissions q := by
  obtain ⟨events, htrace, hevents⟩ := hmoves.trace
  have hothers : ∀ e' ≠ e, ∀ event ∈ events, event.emission ≠ some e' := by
    intro e' he event hmem heq
    rw [hevents event hmem, Option.some.injEq] at heq
    exact he heq.symm
  have hrefs : ∀ e' ≠ e, q.store (.ref e') = p.store (.ref e') := by
    intro e' he
    apply hmoves.lists
    intro heq
    exact he (Handle.ref.inj heq)
  refine ⟨?_, ?_, ?_, ?_⟩
  · intro e'
    by_cases he : e' = e
    · exact he ▸ hfollows
    · rw [htrace, hrefs e' he, hmoves.stages e' he]
      exact (h.follows e').append (hothers e' he)
  · intro e' g i s point hstage
    by_cases he : e' = e
    · subst he
      exact hturn g i s point hstage
    · rw [hmoves.stages e' he] at hstage
      rw [htrace]
      apply (h.turn e' g i s point hstage).append
      · intro event hmem heq
        exact hothers e' he event hmem (heq ▸ rfl)
      · rw [hmoves.slots]
      · intro o ho
        exact hmoves.holders o e' he ho
  · intro e' groups hlist
    rw [hmoves.nextSlot]
    by_cases he : e' = e
    · subst he
      exact hknown groups hlist
    · rw [hrefs e' he] at hlist
      exact h.known e' groups hlist
  · intro e' slots hsnapshot
    rw [hmoves.nextSlot, hmoves.slots]
    by_cases he : e' = e
    · subst he
      exact hsnapshots slots hsnapshot
    · rw [htrace, snapshot_append_of_ne (hothers e' he)] at hsnapshot
      exact h.snapshots e' slots hsnapshot

/-! ### What slots and objects are, and what the list is -/

/-- The flags of slots and objects are what the trace says. -/
structure Flags (p : Plain) : Prop where
  connected : ∀ s object, .connected s object ∈ p.trace ↔ s < p.nextSlot ∧ (p.slots s).object = object
  disconnected : ∀ s, (p.slots s).connected = false ↔ .disconnected s ∈ p.trace
  blocked : ∀ s, (p.slots s).blocked = lastBlocked s p.trace
  expired : ∀ o, p.gone o = true ↔ .expired o ∈ p.trace
  fresh : ∀ s, p.nextSlot ≤ s → (p.slots s).connected = true ∧ (p.slots s).blocked = false
  alive : ∀ o, p.holders o ≠ [] → p.gone o = false

theorem Flags.moves (h : Flags p) (hmoves : Moves e p q) : Flags q := by
  obtain ⟨events, htrace, hevents⟩ := hmoves.trace
  refine ⟨?_, ?_, ?_, ?_, ?_, ?_⟩
  · intro s object
    rw [hmoves.slots, hmoves.nextSlot, htrace, mem_append_of_emission hevents rfl]
    exact h.connected s object
  · intro s
    rw [hmoves.slots, htrace, mem_append_of_emission hevents rfl]
    exact h.disconnected s
  · intro s
    rw [hmoves.slots, htrace, lastBlocked_append_of_emission hevents]
    exact h.blocked s
  · intro o
    rw [hmoves.gone, htrace, mem_append_of_emission hevents rfl]
    exact h.expired o
  · intro s hs
    rw [hmoves.slots]
    rw [hmoves.nextSlot] at hs
    exact h.fresh s hs
  · intro o ho
    rw [hmoves.gone]
    rcases hmoves.alive o ho with hheld | halive
    · exact h.alive o hheld
    · exact halive

/-- The slot has been disconnected by someone who is about to have it removed. -/
def Leaving {σ : Type} (st : State σ) (s : SlotId) : Prop :=
  s ∈ st.cleaning ∨ ∃ e g i, st.stages e = .turn g i s .clean

/-- The list is in order, and a slot that is disconnected is about to go. -/
structure Lists (p : Plain) (groups : List Group) : Prop where
  list : p.store .slots = some groups
  placed : Placed groups p.slots
  known : ∀ s ∈ listed groups, s < p.nextSlot
  leaving : ∀ s ∈ listed groups, (p.slots s).connected = false → Leaving p s

theorem Lists.moves (h : Lists p groups) (hmoves : Moves e p q)
    (hclean : ∀ g i s, p.stages e = .turn g i s .clean → q.stages e ≠ .turn g i s .clean → s ∉ listed groups) :
    Lists q groups := by
  refine ⟨?_, ?_, ?_, ?_⟩
  · rw [hmoves.lists .slots (by simp)]
    exact h.list
  · rw [hmoves.slots]
    exact h.placed
  · rw [hmoves.nextSlot]
    exact h.known
  · intro s hs hconnected
    rw [hmoves.slots] at hconnected
    rcases h.leaving s hs hconnected with hmem | ⟨e', g, i, hstage⟩
    · exact Or.inl (hmoves.cleaning ▸ hmem)
    · by_cases he : e' = e
      · subst he
        by_cases hstay : q.stages e' = .turn g i s .clean
        · exact Or.inr ⟨e', g, i, hstay⟩
        · exact absurd hs (hclean g i s hstage hstay)
      · exact Or.inr ⟨e', g, i, (hmoves.stages e' he).trans hstage⟩

end CodeStudy.Sigslot
