import CodeStudy.Sigslot.CopyOnWrite
import CodeStudy.Sigslot.Emission

/-!
# Runs of a signal

What every step of a signal keeps, whoever takes it.
-/

namespace CodeStudy.Sigslot

structure Kept (p : Plain) : Prop where
  emissions : Emissions p
  flags : Flags p
  lists : ∃ groups, Lists p groups

variable {p q : Plain} {groups : List Group} {g i e : Nat} {s : SlotId} {copied : Bool}
  {f : List Group → Slots → List Group × Slots}

/-- The list and the slots are others, and nothing else. -/
structure Edited (p q : Plain) (groups : List Group) (slots : Slots) : Prop where
  list : q.store .slots = some groups
  slots : q.slots = slots
  refs : ∀ e, q.store (.ref e) = p.store (.ref e)
  nextSlot : q.nextSlot = p.nextSlot
  gone : q.gone = p.gone
  holders : q.holders = p.holders
  stages : q.stages = p.stages
  cleaning : q.cleaning = p.cleaning
  trace : q.trace = p.trace

theorem edit_own (hedit : p.edit ownValues copied f = some q) : ∃ groups, p.store .slots = some groups ∧
    Edited p q (f groups p.slots).1 (f groups p.slots).2 := by
  obtain ⟨groups, hread, hmap⟩ := Option.bind_eq_some_iff.1 hedit
  obtain ⟨store, hwrite, heq⟩ := Option.map_eq_some_iff.1 hmap
  have hread' : p.store .slots = some groups := hread
  simp only [ownValues, hread', Option.isSome_some, if_true, Option.some.injEq] at hwrite
  subst hwrite heq
  refine ⟨groups, hread', ⟨?_, rfl, ?_, rfl, rfl, rfl, rfl, rfl, rfl⟩⟩
  · show Function.update p.store .slots (some (f groups p.slots).1) .slots = _
    rw [Function.update_self]
  · intro e
    show Function.update p.store .slots (some (f groups p.slots).1) (.ref e) = _
    rw [Function.update_of_ne (by simp)]

/-! ### Steps of other threads -/

/-- Slots are taken out of the list. -/
theorem Kept.edit (h : Kept p) {cleaning : List SlotId}
    (hf : ∀ groups, Lists p groups → Placed (f groups p.slots).1 (f groups p.slots).2 ∧
      (∀ t ∈ listed (f groups p.slots).1, t ∈ listed groups ∧ (t ∈ p.cleaning → t ∈ cleaning)) ∧
      Reindexed (listed groups) p.slots (f groups p.slots).2)
    (hedit : ({ p with cleaning } : Plain).edit ownValues copied f = some q) : Kept q := by
  obtain ⟨groups', hlist, hedited⟩ := edit_own hedit
  obtain ⟨groups, hlists⟩ := h.lists
  have heq : groups' = groups := Option.some.inj (hlist.symm.trans hlists.list)
  subst heq
  obtain ⟨hplaced, hsub, hslots⟩ := hf groups' hlists
  have hq : q.slots = (f groups' p.slots).2 := hedited.slots
  refine ⟨h.emissions.outside ⟨hedited.stages, hedited.refs, hedited.holders, Nat.le_of_eq hedited.nextSlot.symm, ?_,
    [], hedited.trace, by simp⟩, ⟨?_, ?_, ?_, ?_, ?_, ?_⟩, _, ⟨hedited.list, hq ▸ hplaced, ?_, ?_⟩⟩
  · intro s hs
    rw [hq]
    exact ⟨hslots.gid s, hslots.object s⟩
  · intro s object
    rw [hq, hslots.object, hedited.nextSlot, hedited.trace]
    exact h.flags.connected s object
  · intro s
    rw [hq, hslots.connected, hedited.trace]
    exact h.flags.disconnected s
  · intro s
    rw [hq, hslots.blocked, hedited.trace]
    exact h.flags.blocked s
  · intro o
    rw [hedited.gone, hedited.trace]
    exact h.flags.expired o
  · intro s hs
    rw [hedited.nextSlot] at hs
    rw [hq, hslots.connected, hslots.blocked]
    exact h.flags.fresh s hs
  · intro o ho
    rw [hedited.gone]
    rw [hedited.holders] at ho
    exact h.flags.alive o ho
  · intro s hs
    rw [hedited.nextSlot]
    exact hlists.known s (hsub s hs).1
  · intro s hs hconnected
    rw [hq, hslots.connected] at hconnected
    rw [Leaving, hedited.cleaning, hedited.stages]
    rcases hlists.leaving s (hsub s hs).1 hconnected with hmem | hstage
    · exact Or.inl ((hsub s hs).2 hmem)
    · exact Or.inr hstage

theorem Kept.removed (removed : SlotId → Bool) (h : Kept p) {cleaning : List SlotId}
    (hf : ∀ groups, Lists p groups → Removed groups p.slots removed (f groups p.slots).1 (f groups p.slots).2)
    (hcleaning : ∀ t ∈ p.cleaning, t ∈ cleaning ∨ removed t = true)
    (hedit : ({ p with cleaning } : Plain).edit ownValues copied f = some q) : Kept q := by
  refine h.edit ?_ hedit
  intro groups hlists
  have hremoved := hf groups hlists
  refine ⟨hremoved.placed, ?_, hremoved.slots⟩
  intro t ht
  obtain ⟨hmem, hstay⟩ := List.mem_filter.1 (hremoved.left.subset ht)
  refine ⟨hmem, ?_⟩
  intro hclean
  rcases hcleaning t hclean with hkept | hgone
  · exact hkept
  · simp [hgone] at hstay

theorem Kept.connect (h : Kept p) {gid : Int32} {object : Option ObjectId}
    (hedit : ((({ p with nextSlot := p.nextSlot + 1 } : Plain).setSlot p.nextSlot { group := gid, object }).log
      (.connected p.nextSlot object)).edit ownValues copied (fun groups slots => addSlot groups slots p.nextSlot) =
        some q) : Kept q := by
  obtain ⟨groups', hlist, hedited⟩ := edit_own hedit
  obtain ⟨groups, hlists⟩ := h.lists
  have heq : groups' = groups := Option.some.inj (hlist.symm.trans hlists.list)
  subst heq
  set slots := Function.update p.slots p.nextSlot { group := gid, object } with hslots
  have hnew : p.nextSlot ∉ listed groups' := fun hmem => Nat.lt_irrefl _ (hlists.known _ hmem)
  have hold : ∀ t, t ≠ p.nextSlot → slots t = p.slots t := fun t ht => Function.update_of_ne ht ..
  have hnow : slots p.nextSlot = { group := gid, object } := Function.update_self ..
  have hplaced : Placed groups' slots := by
    apply hlists.placed.of_agree
    intro t ht
    rw [hold t (fun heq => hnew (heq ▸ ht))]
    exact ⟨rfl, rfl⟩
  obtain ⟨hplaced', hperm, hreindexed⟩ := hplaced.addSlot hnew
  have hq : q.slots = (addSlot groups' slots p.nextSlot).2 := hedited.slots
  have hflags : ∀ t, (q.slots t).connected = (p.slots t).connected ∧ (q.slots t).blocked = (p.slots t).blocked := by
    intro t
    rw [hq, hreindexed.connected, hreindexed.blocked]
    by_cases ht : t = p.nextSlot
    · obtain ⟨hconnected, hblocked⟩ := h.flags.fresh p.nextSlot (Nat.le_refl _)
      rw [ht, hnow, hconnected, hblocked]
      exact ⟨rfl, rfl⟩
    · rw [hold t ht]
      exact ⟨rfl, rfl⟩
  have hnext : q.nextSlot = p.nextSlot + 1 := hedited.nextSlot
  have htrace : q.trace = .connected p.nextSlot object :: p.trace := hedited.trace
  have hgone : q.gone = p.gone := hedited.gone
  refine ⟨h.emissions.outside ⟨hedited.stages, hedited.refs, hedited.holders, hnext ▸ Nat.le_succ _, ?_,
    [_], htrace, by simp [Event.emission]⟩, ⟨?_, ?_, ?_, ?_, ?_, ?_⟩, _, ⟨hedited.list, hq ▸ hplaced', ?_, ?_⟩⟩
  · intro t ht
    rw [hq, hreindexed.gid, hreindexed.object, hold t (Nat.ne_of_lt ht)]
    exact ⟨rfl, rfl⟩
  · intro t object'
    rw [hq, hreindexed.object, hnext, htrace, List.mem_cons, Event.connected.injEq]
    by_cases ht : t = p.nextSlot
    · rw [ht, hnow, h.flags.connected]
      simp [eq_comm]
    · rw [hold t ht, h.flags.connected]
      have hlt : t < p.nextSlot + 1 ↔ t < p.nextSlot :=
        ⟨fun hlt => Nat.lt_of_le_of_ne (Nat.le_of_lt_succ hlt) ht, Nat.lt_succ_of_lt⟩
      simp [ht, hlt]
  · intro t
    rw [(hflags t).1, htrace]
    simp [h.flags.disconnected t]
  · intro t
    rw [(hflags t).2, htrace]
    exact h.flags.blocked t
  · intro o
    rw [hgone, htrace]
    simpa using h.flags.expired o
  · intro t ht
    rw [(hflags t).1, (hflags t).2]
    rw [hnext] at ht
    exact h.flags.fresh t (Nat.le_of_succ_le ht)
  · intro o ho
    rw [hedited.gone]
    rw [hedited.holders] at ho
    exact h.flags.alive o ho
  · intro t ht
    rw [hnext]
    rcases List.mem_cons.1 (hperm.subset ht) with rfl | ht
    · exact Nat.lt_succ_self _
    · exact Nat.lt_succ_of_lt (hlists.known t ht)
  · intro t ht hconnected
    rw [(hflags t).1] at hconnected
    rw [Leaving, hedited.cleaning, hedited.stages]
    rcases List.mem_cons.1 (hperm.subset ht) with rfl | ht
    · have hfresh := (h.flags.fresh p.nextSlot (Nat.le_refl _)).1
      simp [hfresh] at hconnected
    · exact hlists.leaving t ht hconnected

/-- The fields of a slot but one flag. -/
theorem setSlot_agree (p : Plain) (s : SlotId) (slot : Slot) (hindex : slot.index = (p.slots s).index)
    (hgroup : slot.group = (p.slots s).group)
    (hobject : slot.object = (p.slots s).object) (t : SlotId) :
    (Function.update p.slots s slot t).index = (p.slots t).index ∧
      (Function.update p.slots s slot t).group = (p.slots t).group ∧
      (Function.update p.slots s slot t).object = (p.slots t).object := by
  by_cases ht : t = s
  · rw [ht, Function.update_self]
    exact ⟨hindex, hgroup, hobject⟩
  · rw [Function.update_of_ne ht]
    exact ⟨rfl, rfl, rfl⟩

/-- A slot is disconnected by someone who is going to have it removed. -/
theorem Kept.disconnect (h : Kept p) (hs : s < p.nextSlot) {cleaning : List SlotId}
    (hcleaning : ∀ t ∈ p.cleaning, t ∈ cleaning)
    (hleaving : s ∈ cleaning ∨ ∃ e g i, p.stages e = .turn g i s .clean) :
    Kept { p.disconnect s with cleaning } := by
  have hagree := setSlot_agree p s { p.slots s with connected := false } rfl rfl rfl
  have hblocked : ∀ t, (Function.update p.slots s { p.slots s with connected := false } t).blocked = (p.slots t).blocked := by
    intro t
    by_cases ht : t = s
    · rw [ht, Function.update_self]
    · rw [Function.update_of_ne ht]
  obtain ⟨groups, hlists⟩ := h.lists
  refine ⟨h.emissions.outside ⟨rfl, fun _ => rfl, rfl, Nat.le_refl _, fun t _ => (hagree t).2, [.disconnected s], rfl, ?_⟩,
    ⟨?_, ?_, ?_, ?_, ?_, h.flags.alive⟩, groups, ⟨hlists.list, ?_, hlists.known, ?_⟩⟩
  · simp [Event.emission]
  · intro t object
    show _ ∈ Event.disconnected s :: p.trace ↔ t < p.nextSlot ∧
      (Function.update p.slots s { p.slots s with connected := false } t).object = object
    rw [(hagree t).2.2, ← h.flags.connected t object]
    simp
  · intro t
    show (Function.update p.slots s { p.slots s with connected := false } t).connected = false ↔
      _ ∈ Event.disconnected s :: p.trace
    by_cases ht : t = s
    · simp [ht]
    · simp [ht, h.flags.disconnected t]
  · intro t
    exact (hblocked t).trans (h.flags.blocked t)
  · intro o
    show p.gone o = true ↔ _ ∈ Event.disconnected s :: p.trace
    simp [h.flags.expired o]
  · intro t ht
    have hne : t ≠ s := Nat.ne_of_gt (Nat.lt_of_lt_of_le hs ht)
    show (Function.update p.slots s { p.slots s with connected := false } t).connected = true ∧
      (Function.update p.slots s { p.slots s with connected := false } t).blocked = false
    rw [Function.update_of_ne hne]
    exact h.flags.fresh t ht
  · exact hlists.placed.of_agree fun t _ => ⟨(hagree t).1, (hagree t).2.1⟩
  · intro t ht hconnected
    by_cases hts : t = s
    · exact hts ▸ hleaving
    · have hold : (p.slots t).connected = false := by
        rw [← hconnected]
        show _ = (Function.update p.slots s { p.slots s with connected := false } t).connected
        rw [Function.update_of_ne hts]
      exact (hlists.leaving t ht hold).imp (hcleaning t) id

theorem Kept.setBlocked (h : Kept p) (hs : s < p.nextSlot) {blocked : Bool} {event : Event}
    (hevent : event = if blocked then .blocked s else .unblocked s) :
    Kept ((p.setSlot s { p.slots s with blocked }).log event) := by
  have hagree := setSlot_agree p s { p.slots s with blocked } rfl rfl rfl
  have hconnected : ∀ t, (Function.update p.slots s { p.slots s with blocked } t).connected = (p.slots t).connected := by
    intro t
    by_cases ht : t = s
    · rw [ht, Function.update_self]
    · rw [Function.update_of_ne ht]
  have hlast : ∀ t, lastBlocked t (event :: p.trace) = if s = t then blocked else lastBlocked t p.trace := by
    intro t
    cases blocked with
    | true => rw [hevent]; rfl
    | false => rw [hevent]; rfl
  have hother : event.emission = none ∧ (∀ t, event ≠ .disconnected t) ∧ (∀ o, event ≠ .expired o) ∧
      ∀ t object, event ≠ .connected t object := by
    cases blocked with
    | true => simp [hevent, Event.emission]
    | false => simp [hevent, Event.emission]
  obtain ⟨groups, hlists⟩ := h.lists
  refine ⟨h.emissions.outside ⟨rfl, fun _ => rfl, rfl, Nat.le_refl _, fun t _ => (hagree t).2, [event], rfl, ?_⟩,
    ⟨?_, ?_, ?_, ?_, ?_, h.flags.alive⟩, groups, ⟨hlists.list, ?_, hlists.known, ?_⟩⟩
  · simpa using hother.1
  · intro t object
    show _ ∈ event :: p.trace ↔ t < p.nextSlot ∧ (Function.update p.slots s { p.slots s with blocked } t).object = object
    rw [(hagree t).2.2, ← h.flags.connected t object, List.mem_cons, or_iff_right (hother.2.2.2 t object).symm]
  · intro t
    show (Function.update p.slots s { p.slots s with blocked } t).connected = false ↔ _ ∈ event :: p.trace
    rw [hconnected, List.mem_cons, or_iff_right (hother.2.1 t).symm]
    exact h.flags.disconnected t
  · intro t
    show (Function.update p.slots s { p.slots s with blocked } t).blocked = lastBlocked t (event :: p.trace)
    rw [hlast]
    by_cases ht : t = s
    · rw [ht, Function.update_self, if_pos rfl]
    · rw [Function.update_of_ne ht, if_neg (Ne.symm ht)]
      exact h.flags.blocked t
  · intro o
    show p.gone o = true ↔ _ ∈ event :: p.trace
    rw [List.mem_cons, or_iff_right (hother.2.2.1 o).symm]
    exact h.flags.expired o
  · intro t ht
    have hne : t ≠ s := Nat.ne_of_gt (Nat.lt_of_lt_of_le hs ht)
    show (Function.update p.slots s { p.slots s with blocked } t).connected = true ∧
      (Function.update p.slots s { p.slots s with blocked } t).blocked = false
    rw [Function.update_of_ne hne]
    exact h.flags.fresh t ht
  · exact hlists.placed.of_agree fun t _ => ⟨(hagree t).1, (hagree t).2.1⟩
  · intro t ht hgone
    exact hlists.leaving t ht ((hconnected t).symm.trans hgone)

theorem Kept.setBlock (h : Kept p) (block : Bool) : Kept { p with block } := by
  obtain ⟨groups, hlists⟩ := h.lists
  exact ⟨h.emissions.outside ⟨rfl, fun _ => rfl, rfl, Nat.le_refl _, fun _ _ => ⟨rfl, rfl⟩, [], rfl, by simp⟩,
    ⟨h.flags.connected, h.flags.disconnected, h.flags.blocked, h.flags.expired, h.flags.fresh, h.flags.alive⟩,
    groups, ⟨hlists.list, hlists.placed, hlists.known, hlists.leaving⟩⟩

theorem Kept.expire (h : Kept p) {o : ObjectId} (hfree : p.holders o = []) :
    Kept ({ p with gone := Function.update p.gone o true }.log (.expired o)) := by
  obtain ⟨groups, hlists⟩ := h.lists
  refine ⟨h.emissions.outside ⟨rfl, fun _ => rfl, rfl, Nat.le_refl _, fun _ _ => ⟨rfl, rfl⟩, [.expired o], rfl, ?_⟩,
    ⟨?_, ?_, h.flags.blocked, ?_, h.flags.fresh, ?_⟩, groups, ⟨hlists.list, hlists.placed, hlists.known, hlists.leaving⟩⟩
  · simp [Event.emission]
  · intro t object
    show _ ∈ Event.expired o :: p.trace ↔ t < p.nextSlot ∧ (p.slots t).object = object
    simp [h.flags.connected t object]
  · intro t
    show (p.slots t).connected = false ↔ _ ∈ Event.expired o :: p.trace
    simp [h.flags.disconnected t]
  · intro o'
    show Function.update p.gone o true o' = true ↔ _ ∈ Event.expired o :: p.trace
    by_cases ho : o' = o
    · simp [ho]
    · simp [ho, h.flags.expired o']
  · intro o' hheld
    show Function.update p.gone o true o' = false
    have hne : o' ≠ o := fun heq => hheld (heq ▸ hfree)
    rw [Function.update_of_ne hne]
    exact h.flags.alive o' hheld

/-! ### Steps of an emission -/

theorem Kept.moves (h : Kept p) (hmoves : Moves e p q)
    (hfollows : Follows q.trace e (q.store (.ref e)) (q.stages e))
    (hturn : ∀ g i s point, q.stages e = .turn g i s point → Turn q.slots q.holders q.trace e s point)
    (hknown : ∀ groups, q.store (.ref e) = some groups → ∀ s ∈ listed groups, s < p.nextSlot)
    (hsnapshots : ∀ slots, snapshot e q.trace = some slots → slots.Nodup ∧ (∀ s ∈ slots, s < p.nextSlot) ∧
      slots.Pairwise fun s t => (p.slots s).group ≤ (p.slots t).group)
    (hclean : ∀ g i s, p.stages e = .turn g i s .clean → ∀ groups, Lists p groups → s ∉ listed groups) : Kept q := by
  obtain ⟨groups, hlists⟩ := h.lists
  exact ⟨h.emissions.moves hmoves hfollows hturn hknown hsnapshots, h.flags.moves hmoves,
    groups, hlists.moves hmoves fun g i s hstage _ => hclean g i s hstage groups hlists⟩

/-- The emission goes on to another stage, with the reference that it has. -/
theorem Kept.advance (h : Kept p) {stage : Stage} (events : List Event) {holders : ObjectId → List Nat}
    (hevents : ∀ event ∈ events, event.emission = some e ∧ ∀ slots, event ≠ .referred e slots)
    (hothers : ∀ o, ∀ e' ≠ e, e' ∈ p.holders o → e' ∈ holders o)
    (halive : ∀ o, holders o ≠ [] → p.holders o ≠ [] ∨ p.gone o = false)
    (hfollows : Follows (events ++ p.trace) e (p.store (.ref e)) stage)
    (hturn : ∀ g i s point, stage = .turn g i s point → Turn p.slots holders (events ++ p.trace) e s point)
    (hclean : ∀ g i s, p.stages e = .turn g i s .clean → ∀ groups, Lists p groups → s ∉ listed groups) :
    Kept { p with stages := Function.update p.stages e stage, holders, trace := events ++ p.trace } := by
  have hstage : Function.update p.stages e stage e = stage := Function.update_self ..
  have hsnapshot : snapshot e (events ++ p.trace) = snapshot e p.trace := by
    clear hfollows hturn
    induction events with
    | nil => rfl
    | cons event events ih =>
      have hrest := ih fun later hlater => hevents later (List.mem_cons_of_mem _ hlater)
      obtain ⟨hself, hother⟩ := hevents event List.mem_cons_self
      cases event with
      | referred e' slots =>
        simp only [Event.emission, Option.some.injEq] at hself
        exact absurd (hself ▸ rfl) (hother slots)
      | _ => exact hrest
  refine h.moves ⟨rfl, rfl, rfl, rfl, fun e' he => Function.update_of_ne he .., fun _ _ => rfl, hothers, halive,
    events, rfl, fun event hevent => (hevents event hevent).1⟩ ?_ ?_ (h.emissions.known e) ?_ hclean
  · show Follows _ e _ (Function.update p.stages e stage e)
    rw [hstage]
    exact hfollows
  · intro g i s point heq
    exact hturn g i s point (hstage.symm.trans heq)
  · intro slots heq
    exact h.emissions.snapshots e slots (hsnapshot.symm.trans heq)

theorem Follows.goto {trace : List Event} {list : Option (List Group)} {point point' : Point}
    (h : Follows trace e list (.turn g i s point)) (hpoint : point'.decided = point.decided) :
    Follows trace e list (.turn g i s point') := by
  obtain ⟨groups, group, hlist, hg, hi, hsnapshot, hdecided, hout⟩ := h
  exact ⟨groups, group, hlist, hg, hi, hsnapshot, hpoint ▸ hdecided, hout⟩

/-- The slot is called or skipped. -/
theorem Follows.decide {trace : List Event} {list : Option (List Group)} {point : Point} {event : Event}
    (h : Follows trace e list (.turn g i s point)) (point' : Point) (hpoint : point.decided = false)
    (hpoint' : point'.decided = true)
    (hevent : event = .called e s ∨ ∃ reason, event = .skipped e s reason) :
    Follows (event :: trace) e list (.turn g i s point') := by
  obtain ⟨groups, group, hlist, hg, hi, hsnapshot, hdecided, hout⟩ := h
  simp only [hpoint, Bool.false_eq_true, if_false] at hdecided
  have hnext : decided e (event :: trace) = walked groups g (i + 1) ∧ snapshot e (event :: trace) = snapshot e trace ∧
      .ended e ≠ event := by
    rw [walked_nextSlot hg hi, ← hdecided]
    rcases hevent with rfl | ⟨reason, rfl⟩
    · simp [decided, snapshot]
    · simp [decided, snapshot]
  refine ⟨groups, group, hlist, hg, hi, hnext.2.1.trans hsnapshot, ?_, ?_⟩
  · rw [hpoint', if_pos rfl]
    exact hnext.1
  · rw [List.mem_cons, or_iff_right hnext.2.2]
    exact hout

theorem Follows.leave {trace : List Event} {list : Option (List Group)} {point : Point}
    (h : Follows trace e list (.turn g i s point)) (hpoint : point.decided = true) :
    Follows trace e list (.between g (i + 1)) := by
  obtain ⟨groups, group, hlist, hg, hi, hsnapshot, hdecided, hout⟩ := h
  simp only [hpoint, if_true] at hdecided
  exact ⟨groups, hlist, hsnapshot, hdecided, hout⟩

theorem Kept.follows_turn (h : Kept p) {point : Point} (hstage : p.stages e = .turn g i s point) :
    Follows p.trace e (p.store (.ref e)) (.turn g i s point) :=
  hstage ▸ h.emissions.follows e

/-- The slot is skipped, and what kept its object is let go. -/
theorem Kept.skip (h : Kept p) {point : Point} (hstage : p.stages e = .turn g i s point)
    (hpoint : point.decided = false) (reason : Reason) {holders : ObjectId → List Nat}
    (hothers : ∀ o, ∀ e' ≠ e, e' ∈ p.holders o → e' ∈ holders o)
    (halive : ∀ o, holders o ≠ [] → p.holders o ≠ []) :
    Kept { p with
      stages := Function.update p.stages e (.between g (i + 1))
      holders
      trace := .skipped e s reason :: p.trace } := by
  refine h.advance [.skipped e s reason] ?_ hothers (fun o ho => Or.inl (halive o ho)) ?_ ?_ ?_
  · simp [Event.emission]
  · exact ((h.follows_turn hstage).decide .disconnect hpoint rfl (Or.inr ⟨reason, rfl⟩)).leave rfl
  · intro g' i' s' point' heq
    cases heq
  · intro g' i' s' hclean
    rw [hstage, Stage.turn.injEq] at hclean
    simp [hclean.2.2.2, Point.decided] at hpoint

/-- The turn of a slot that was called or skipped is over. -/
theorem Kept.leave (h : Kept p) {point : Point} (hstage : p.stages e = .turn g i s point)
    (hpoint : point.decided = true) {holders : ObjectId → List Nat}
    (hothers : ∀ o, ∀ e' ≠ e, e' ∈ p.holders o → e' ∈ holders o)
    (halive : ∀ o, holders o ≠ [] → p.holders o ≠ [])
    (hclean : point = .clean → ∀ groups, Lists p groups → s ∉ listed groups) :
    Kept { p with stages := Function.update p.stages e (.between g (i + 1)), holders } := by
  refine h.advance [] (by simp) hothers (fun o ho => Or.inl (halive o ho)) ?_ ?_ ?_
  · exact (h.follows_turn hstage).leave hpoint
  · intro g' i' s' point' heq
    cases heq
  · intro g' i' s' hstage'
    rw [hstage, Stage.turn.injEq] at hstage'
    obtain ⟨-, -, rfl, hpoint'⟩ := hstage'
    exact hclean hpoint'

/-- The slot is looked at further. -/
theorem Kept.goto (h : Kept p) {point : Point} (point' : Point) (hstage : p.stages e = .turn g i s point)
    (hpoint : point'.decided = point.decided) (hnot : point ≠ .clean) {holders : ObjectId → List Nat}
    (hothers : ∀ o, ∀ e' ≠ e, e' ∈ p.holders o → e' ∈ holders o)
    (halive : ∀ o, holders o ≠ [] → p.holders o ≠ [] ∨ p.gone o = false)
    (hturn : Turn p.slots holders p.trace e s point') :
    Kept { p with stages := Function.update p.stages e (.turn g i s point'), holders } := by
  refine h.advance [] (by simp) hothers halive ?_ ?_ ?_
  · exact (h.follows_turn hstage).goto hpoint
  · intro g' i' s' point'' heq
    obtain ⟨-, -, rfl, rfl⟩ := Stage.turn.inj heq
    exact hturn
  · intro g' i' s' hstage'
    rw [hstage, Stage.turn.injEq] at hstage'
    exact absurd hstage'.2.2.2 hnot

/-- Nobody else lets go what an emission has locked. -/
theorem release_eq (p : Plain) (e : Nat) (s : SlotId) : ∃ holders, p.release e s = { p with holders } ∧
    (∀ o, ∀ e' ≠ e, e' ∈ p.holders o → e' ∈ holders o) ∧ ∀ o, holders o ≠ [] → p.holders o ≠ [] := by
  unfold State.release
  cases hobject : (p.slots s).object with
  | none => exact ⟨p.holders, rfl, fun _ _ _ hmem => hmem, fun _ hne => hne⟩
  | some o =>
    refine ⟨Function.update p.holders o ((p.holders o).erase e), rfl, ?_, ?_⟩
    · intro o' e' he hmem
      by_cases ho : o' = o
      · subst ho
        rw [Function.update_self]
        exact (List.mem_erase_of_ne he).2 hmem
      · rwa [Function.update_of_ne ho]
    · intro o' hne hnil
      by_cases ho : o' = o
      · subst ho
        simp [hnil] at hne
      · rw [Function.update_of_ne ho] at hne
        exact hne hnil

theorem Kept.takeTurn (h : Kept p) {point : Point} (hstage : p.stages e = .turn g i s point)
    (hstep : State.takeTurn ownValues copied p e g i s point = some q) : Kept q := by
  have hturn := h.emissions.turn e g i s point hstage
  obtain ⟨during, before, htrace, hlast, hconnected, hunblocked⟩ := hturn.began
  cases point with
  | connected =>
    simp only [State.takeTurn] at hstep
    split_ifs at hstep with hc
    · cases hstep
      refine h.goto .blocked hstage rfl (by simp) (fun _ _ _ hmem => hmem) (fun _ hne => Or.inl hne) ⟨?_, by simp, by simp⟩
      refine ⟨during, before, htrace, hlast, ?_, by simp⟩
      intro _ hmem
      have hgone := (h.flags.disconnected s).2 (htrace ▸ List.mem_append_right _ (List.mem_cons_of_mem _ hmem))
      simp [hgone] at hc
    · cases hstep
      exact h.skip hstage rfl .disconnected (fun _ _ _ hmem => hmem) fun _ hne => hne
  | blocked =>
    simp only [State.takeTurn] at hstep
    by_cases hb : (p.slots s).blocked
    · rw [if_pos hb] at hstep
      cases hstep
      exact h.skip hstage rfl .blocked (fun _ _ _ hmem => hmem) fun _ hne => hne
    · rw [if_neg hb] at hstep
      cases hstep
      have hbegan : ∀ point' : Point, ∃ during before, p.trace = during ++ .turn e s :: before ∧ .turn e s ∉ during ∧
          (point' ≠ .connected → .disconnected s ∉ before) ∧
          (point' = .lock ∨ point' = .stillConnected ∨ point' = .call → ∃ after until', during = after ++ until' ∧
            lastBlocked s (until' ++ .turn e s :: before) = false) := by
        intro point'
        refine ⟨during, before, htrace, hlast, fun _ => hconnected (by simp), fun _ => ⟨[], during, rfl, ?_⟩⟩
        rw [← htrace, ← h.flags.blocked s]
        simpa using hb
      cases hobject : (p.slots s).object with
      | none =>
        refine h.goto .call hstage rfl (by simp) (fun _ _ _ hmem => hmem) (fun _ hne => Or.inl hne)
          ⟨hbegan .call, by simp, ?_⟩
        intro _ o ho
        simp [hobject] at ho
      | some o =>
        exact h.goto .lock hstage rfl (by simp) (fun _ _ _ hmem => hmem) (fun _ hne => Or.inl hne)
          ⟨hbegan .lock, by simp [hobject], by simp⟩
  | lock =>
    cases hobject : (p.slots s).object with
    | none => simp [State.takeTurn, hobject] at hstep
    | some o =>
      simp only [State.takeTurn, hobject] at hstep
      split_ifs at hstep with hgone
      · cases hstep
        refine h.advance [.skipped e s .expired] ?_ (fun _ _ _ hmem => hmem) (fun _ hne => Or.inl hne)
          ((h.follows_turn hstage).decide _ rfl rfl (Or.inr ⟨_, rfl⟩)) ?_ ?_
        · simp [Event.emission]
        · intro g' i' s' point' heq
          obtain ⟨-, -, rfl, rfl⟩ := Stage.turn.inj heq
          refine ⟨⟨.skipped e s .expired :: during, before, by rw [htrace]; rfl, ?_, fun _ => hconnected (by simp),
            by simp⟩, by simp, by simp⟩
          simpa using hlast
        · intro g' i' s' hclean
          rw [hstage] at hclean
          cases hclean
      · cases hstep
        have hself : (p.acquire e o).holders o = e :: p.holders o := Function.update_self ..
        have hother : ∀ o' ≠ o, (p.acquire e o).holders o' = p.holders o' := fun o' ho => Function.update_of_ne ho ..
        refine h.goto .stillConnected hstage rfl (by simp) ?_ ?_
          ⟨⟨during, before, htrace, hlast, fun _ => hconnected (by simp), fun _ => hunblocked (Or.inl rfl)⟩, by simp, ?_⟩
        · intro o' e' _ hmem
          by_cases ho : o' = o
          · subst ho
            exact hself ▸ List.mem_cons_of_mem _ hmem
          · exact hother o' ho ▸ hmem
        · intro o' hne
          by_cases ho : o' = o
          · subst ho
            exact Or.inr (by simpa using hgone)
          · exact Or.inl (hother o' ho ▸ hne)
        · intro _ o' ho'
          have heq : o = o' := Option.some.inj (hobject.symm.trans ho')
          subst heq
          exact hself ▸ List.mem_cons_self
  | stillConnected =>
    simp only [State.takeTurn] at hstep
    split_ifs at hstep with hc
    · cases hstep
      exact h.goto .call hstage rfl (by simp) (fun _ _ _ hmem => hmem) (fun _ hne => Or.inl hne)
        ⟨⟨during, before, htrace, hlast, fun _ => hconnected (by simp), fun _ => hunblocked (by simp)⟩, by simp,
          fun _ => hturn.holds (by simp)⟩
    · obtain ⟨holders, heq, hothers, halive⟩ := release_eq p e s
      rw [heq] at hstep
      cases hstep
      exact h.skip hstage rfl .disconnected hothers halive
  | call =>
    cases hstep
    refine h.advance [.called e s] ?_ (fun _ _ _ hmem => hmem) (fun _ hne => Or.inl hne)
      ((h.follows_turn hstage).decide _ rfl rfl (Or.inl rfl)) ?_ ?_
    · simp [Event.emission]
    · intro g' i' s' point' heq
      obtain ⟨-, -, rfl, rfl⟩ := Stage.turn.inj heq
      refine ⟨⟨.called e s :: during, before, by rw [htrace]; rfl, ?_, fun _ => hconnected (by simp), by simp⟩, by simp,
        fun _ => hturn.holds (by simp)⟩
      simpa using hlast
    · intro g' i' s' hclean
      rw [hstage] at hclean
      cases hclean
  | running =>
    obtain ⟨holders, heq, hothers, halive⟩ := release_eq p e s
    simp only [State.takeTurn, heq] at hstep
    cases hstep
    exact h.leave hstage rfl hothers halive (by simp)
  | disconnect =>
    simp only [State.takeTurn] at hstep
    split_ifs at hstep with hc
    · cases hstep
      have hkept : Kept (p.setStage e (.turn g i s .clean)) :=
        h.goto .clean hstage rfl (by simp) (fun _ _ _ hmem => hmem) (fun _ hne => Or.inl hne)
          ⟨⟨during, before, htrace, hlast, fun _ => hconnected (by simp), by simp⟩, by simp, by simp⟩
      refine hkept.disconnect (h.emissions.turn_known hstage) (fun _ hmem => hmem) (Or.inr ⟨e, g, i, ?_⟩)
      exact Function.update_self ..
    · cases hstep
      exact h.leave hstage rfl (fun _ _ _ hmem => hmem) (fun _ hne => hne) (by simp)
  | clean =>
    obtain ⟨u, hedit, heq⟩ := Option.map_eq_some_iff.1 hstep
    obtain ⟨groups, hlist, hedited⟩ := edit_own hedit
    have hkept : Kept u := Kept.removed (· == s) h
      (fun groups hlists => hlists.placed.clean s) (fun _ hmem => Or.inl hmem) hedit
    subst heq
    refine hkept.leave (hedited.stages ▸ hstage) rfl (fun _ _ _ hmem => hmem) (fun _ hne => hne) ?_
    intro _ groups' hlists' hmem
    obtain ⟨before', hbefore'⟩ := h.lists
    have hgroups : groups = before' := Option.some.inj (hlist.symm.trans hbefore'.list)
    have hgroups' : groups' = (Sigslot.clean groups p.slots s).1 := Option.some.inj (hlists'.list.symm.trans hedited.list)
    subst hgroups hgroups'
    have hleft := (List.mem_filter.1 ((hbefore'.placed.clean s).left.subset hmem)).2
    simp at hleft

theorem Kept.proceed (h : Kept p) (hstep : p.proceed ownValues copied e = some q) : Kept q := by
  have hfollows := h.emissions.follows e
  cases hstage : p.stages e with
  | idle => simp [State.proceed, hstage] at hstep
  | starting =>
    rw [hstage] at hfollows
    obtain ⟨hnone, hsnapshot, hdecided, hout⟩ := hfollows
    obtain ⟨groups, hlists⟩ := h.lists
    have hcopy : ownValues.copy p.store .slots (.ref e) = some (Function.update p.store (.ref e) (some groups)) := by
      simp [ownValues, hlists.list, hnone]
    have hread : ownValues.read p.store .slots = some groups := hlists.list
    simp only [State.proceed, hstage, hread, Option.bind_some, hcopy, Option.map_some, Option.some.injEq] at hstep
    subst hstep
    have hlist : Function.update p.store (.ref e) (some groups) (.ref e) = some groups := Function.update_self ..
    have hnow : Function.update p.stages e (.between 0 0) e = .between 0 0 := Function.update_self ..
    have hself : snapshot e (.referred e (listed groups) :: p.trace) = some (listed groups) := by simp [snapshot]
    refine h.moves ⟨rfl, rfl, rfl, rfl, fun e' he => Function.update_of_ne he .., fun k hk => Function.update_of_ne hk ..,
      fun _ _ _ hmem => hmem, fun _ hne => Or.inl hne, [.referred e (listed groups)], rfl, ?_⟩ ?_ ?_ ?_ ?_ ?_
    · simp [Event.emission]
    · show Follows (.referred e (listed groups) :: p.trace) e (Function.update p.store (.ref e) (some groups) (.ref e))
        (Function.update p.stages e (.between 0 0) e)
      rw [hlist, hnow]
      refine ⟨groups, rfl, hself, ?_, ?_⟩
      · rw [walked_start]
        exact hdecided
      · simpa using hout
    · intro g i s point heq
      have hdone := hnow.symm.trans heq
      cases hdone
    · intro groups' hgroups'
      have heq : groups = groups' := Option.some.inj (hlist.symm.trans hgroups')
      exact heq ▸ hlists.known
    · intro slots hslots
      have heq : listed groups = slots := Option.some.inj (hself.symm.trans hslots)
      exact heq ▸ ⟨hlists.placed.nodup, hlists.known, hlists.placed.ascending⟩
    · intro g i s hclean
      rw [hstage] at hclean
      cases hclean
  | between g i =>
    rw [hstage] at hfollows
    obtain ⟨groups, hlist, hsnapshot, hdecided, hout⟩ := hfollows
    have hread : ownValues.read p.store (.ref e) = some groups := hlist
    have hclean : ∀ g i s, p.stages e = .turn g i s .clean → ∀ groups, Lists p groups → s ∉ listed groups := by
      intro g i s hclean
      rw [hstage] at hclean
      cases hclean
    simp only [State.proceed, hstage, hread, Option.bind_some] at hstep
    cases hg : groups[g]? with
    | none =>
      have hdrop : ownValues.drop p.store (.ref e) = some (Function.update p.store (.ref e) none) := by
        simp [ownValues, hlist]
      simp only [hg, hdrop, Option.map_some, Option.some.injEq] at hstep
      subst hstep
      have hgone : Function.update p.store (.ref e) none (.ref e) = none := Function.update_self ..
      have hnow : Function.update p.stages e .ended e = .ended := Function.update_self ..
      refine h.moves ⟨rfl, rfl, rfl, rfl, fun e' he => Function.update_of_ne he .., fun k hk => Function.update_of_ne hk ..,
        fun _ _ _ hmem => hmem, fun _ hne => Or.inl hne, [.ended e], rfl, ?_⟩ ?_ ?_ ?_ ?_ hclean
      · simp [Event.emission]
      · show Follows (.ended e :: p.trace) e (Function.update p.store (.ref e) none (.ref e))
          (Function.update p.stages e .ended e)
        rw [hgone, hnow]
        exact ⟨rfl, listed groups, hsnapshot, hdecided.trans (walked_end hg i)⟩
      · intro g i s point heq
        have hdone := hnow.symm.trans heq
        cases hdone
      · intro groups' hgroups'
        have hdone := hgone.symm.trans hgroups'
        cases hdone
      · intro slots hslots
        exact h.emissions.snapshots e slots hslots
    | some group =>
      simp only [hg] at hstep
      cases hi : group.slts[i]? with
      | none =>
        simp only [hi] at hstep
        cases hstep
        refine h.advance [] (by simp) (fun _ _ _ hmem => hmem) (fun _ hne => Or.inl hne) ?_ ?_ hclean
        · exact ⟨groups, hlist, hsnapshot, hdecided.trans (walked_nextGroup hg hi).symm, hout⟩
        · intro g' i' s point heq
          cases heq
      | some s =>
        simp only [hi] at hstep
        cases hstep
        refine h.advance [.turn e s] ?_ (fun _ _ _ hmem => hmem) (fun _ hne => Or.inl hne) ?_ ?_ hclean
        · simp [Event.emission]
        · exact ⟨groups, group, hlist, hg, hi, hsnapshot, hdecided, by simpa using hout⟩
        · intro g' i' s' point heq
          obtain ⟨-, -, rfl, rfl⟩ := Stage.turn.inj heq
          exact ⟨⟨[], p.trace, rfl, by simp, by simp, by simp⟩, by simp, by simp⟩
  | turn g i s point =>
    simp only [State.proceed, hstage] at hstep
    exact h.takeTurn hstage hstep
  | ended => simp [State.proceed, hstage] at hstep

/-- What is kept by every step. -/
theorem Kept.step (h : Kept p) {a : Action} (hstep : p.step ownValues a = some q) : Kept q := by
  cases a with
  | connect gid object copied =>
    simp only [State.step] at hstep
    exact h.connect hstep
  | exchange s =>
    simp only [State.step] at hstep
    split_ifs at hstep with hs hc
    · cases hstep
      exact h.disconnect hs (fun _ hmem => List.mem_cons_of_mem _ hmem) (Or.inl List.mem_cons_self)
    · cases hstep
      exact h
  | clean s copied =>
    simp only [State.step] at hstep
    split_ifs at hstep with hs
    refine Kept.removed (· == s) h (fun groups hlists => hlists.placed.clean s) ?_ hstep
    intro t ht
    by_cases hts : t = s
    · exact Or.inr (by simp [hts])
    · exact Or.inl ((List.mem_erase_of_ne hts).2 ht)
  | disconnectIf cond copied =>
    simp only [State.step] at hstep
    exact Kept.removed cond h (fun groups hlists => (hlists.placed.disconnectIf cond 0).1) (fun _ hmem => Or.inl hmem) hstep
  | disconnectGroup gid copied =>
    simp only [State.step] at hstep
    exact Kept.removed _ h (fun groups hlists => (hlists.placed.disconnectGroup gid).1) (fun _ hmem => Or.inl hmem) hstep
  | disconnectAll copied =>
    simp only [State.step] at hstep
    exact h.edit (fun groups _ => ⟨placed_nil _, by simp [listed], Reindexed.refl _ _⟩) hstep
  | block s =>
    simp only [State.step] at hstep
    split_ifs at hstep with hs
    cases hstep
    exact h.setBlocked hs rfl
  | unblock s =>
    simp only [State.step] at hstep
    split_ifs at hstep with hs
    cases hstep
    exact h.setBlocked hs rfl
  | blockSignal =>
    cases hstep
    exact h.setBlock true
  | unblockSignal =>
    cases hstep
    exact h.setBlock false
  | expire o =>
    simp only [State.step] at hstep
    split_ifs at hstep with ho
    cases hstep
    exact h.expire ho.2
  | emit e =>
    simp only [State.step] at hstep
    split_ifs at hstep with he hb
    · cases hstep
      exact h
    · cases hstep
      refine h.advance [] (by simp) (fun _ _ _ hmem => hmem) (fun _ hne => Or.inl hne) ?_ ?_ ?_
      · have hfollows := h.emissions.follows e
        rw [he] at hfollows
        exact hfollows
      · intro g i s point heq
        cases heq
      · intro g i s hclean
        rw [he] at hclean
        cases hclean
  | proceed e copied => exact h.proceed hstep

/-! ### What a step adds to the trace -/

/-- When a slot is called or skipped, and what a reference is taken to. -/
def Cause (p : Plain) : Event → Prop
  | .skipped _ s .disconnected => (p.slots s).connected = false
  | .skipped _ s .blocked => (p.slots s).blocked = true
  | .skipped e s .expired => (∃ g i, p.stages e = .turn g i s .lock) ∧ ∃ o, (p.slots s).object = some o ∧ p.gone o = true
  | .called e s => ∃ g i, p.stages e = .turn g i s .call
  | .referred _ slots => ∃ groups, p.store .slots = some groups ∧ listed groups = slots
  | _ => True

/-- Nothing, or one event. -/
def Adds (p q : Plain) : Prop :=
  q.trace = p.trace ∨ ∃ event, q.trace = event :: p.trace ∧ Cause p event

theorem adds_takeTurn {point : Point} (hstage : p.stages e = .turn g i s point)
    (hstep : State.takeTurn ownValues copied p e g i s point = some q) : Adds p q := by
  cases point with
  | connected =>
    simp only [State.takeTurn] at hstep
    split_ifs at hstep with hc
    · cases hstep
      exact Or.inl rfl
    · cases hstep
      exact Or.inr ⟨.skipped e s .disconnected, rfl, by simpa [Cause] using hc⟩
  | blocked =>
    simp only [State.takeTurn] at hstep
    by_cases hb : (p.slots s).blocked
    · rw [if_pos hb] at hstep
      cases hstep
      exact Or.inr ⟨.skipped e s .blocked, rfl, hb⟩
    · rw [if_neg hb] at hstep
      cases hstep
      exact Or.inl rfl
  | lock =>
    cases hobject : (p.slots s).object with
    | none => simp [State.takeTurn, hobject] at hstep
    | some o =>
      simp only [State.takeTurn, hobject] at hstep
      split_ifs at hstep with hgone
      · cases hstep
        exact Or.inr ⟨.skipped e s .expired, rfl, ⟨g, i, hstage⟩, o, hobject, hgone⟩
      · cases hstep
        exact Or.inl rfl
  | stillConnected =>
    simp only [State.takeTurn] at hstep
    split_ifs at hstep with hc
    · cases hstep
      exact Or.inl rfl
    · obtain ⟨holders, heq, -⟩ := release_eq p e s
      rw [heq] at hstep
      cases hstep
      exact Or.inr ⟨.skipped e s .disconnected, rfl, by simpa [Cause] using hc⟩
  | call =>
    cases hstep
    exact Or.inr ⟨.called e s, rfl, g, i, hstage⟩
  | running =>
    obtain ⟨holders, heq, -⟩ := release_eq p e s
    simp only [State.takeTurn, heq] at hstep
    cases hstep
    exact Or.inl rfl
  | disconnect =>
    simp only [State.takeTurn] at hstep
    split_ifs at hstep with hc
    · cases hstep
      exact Or.inr ⟨.disconnected s, rfl, trivial⟩
    · cases hstep
      exact Or.inl rfl
  | clean =>
    obtain ⟨u, hedit, heq⟩ := Option.map_eq_some_iff.1 hstep
    obtain ⟨groups, -, hedited⟩ := edit_own hedit
    subst heq
    exact Or.inl hedited.trace

theorem adds_proceed (hstep : p.proceed ownValues copied e = some q) : Adds p q := by
  cases hstage : p.stages e with
  | idle => simp [State.proceed, hstage] at hstep
  | starting =>
    simp only [State.proceed, hstage] at hstep
    obtain ⟨groups, hread, hmap⟩ := Option.bind_eq_some_iff.1 hstep
    obtain ⟨store, -, heq⟩ := Option.map_eq_some_iff.1 hmap
    subst heq
    exact Or.inr ⟨.referred e (listed groups), rfl, groups, hread, rfl⟩
  | between g i =>
    simp only [State.proceed, hstage] at hstep
    obtain ⟨groups, -, hwalk⟩ := Option.bind_eq_some_iff.1 hstep
    cases hg : groups[g]? with
    | none =>
      simp only [hg] at hwalk
      obtain ⟨store, -, heq⟩ := Option.map_eq_some_iff.1 hwalk
      subst heq
      exact Or.inr ⟨.ended e, rfl, trivial⟩
    | some group =>
      simp only [hg] at hwalk
      cases hi : group.slts[i]? with
      | none =>
        simp only [hi] at hwalk
        cases hwalk
        exact Or.inl rfl
      | some s =>
        simp only [hi] at hwalk
        cases hwalk
        exact Or.inr ⟨.turn e s, rfl, trivial⟩
  | turn g i s point =>
    simp only [State.proceed, hstage] at hstep
    exact adds_takeTurn hstage hstep
  | ended => simp [State.proceed, hstage] at hstep

theorem adds_step {a : Action} (hstep : p.step ownValues a = some q) : Adds p q := by
  cases a with
  | connect gid object copied =>
    simp only [State.step] at hstep
    obtain ⟨groups, -, hedited⟩ := edit_own hstep
    exact Or.inr ⟨.connected p.nextSlot object, hedited.trace, trivial⟩
  | exchange s =>
    simp only [State.step] at hstep
    split_ifs at hstep with hs hc
    · cases hstep
      exact Or.inr ⟨.disconnected s, rfl, trivial⟩
    · cases hstep
      exact Or.inl rfl
  | clean s copied =>
    simp only [State.step] at hstep
    split_ifs at hstep with hs
    obtain ⟨groups, -, hedited⟩ := edit_own hstep
    exact Or.inl hedited.trace
  | disconnectIf cond copied =>
    simp only [State.step] at hstep
    obtain ⟨groups, -, hedited⟩ := edit_own hstep
    exact Or.inl hedited.trace
  | disconnectGroup gid copied =>
    simp only [State.step] at hstep
    obtain ⟨groups, -, hedited⟩ := edit_own hstep
    exact Or.inl hedited.trace
  | disconnectAll copied =>
    simp only [State.step] at hstep
    obtain ⟨groups, -, hedited⟩ := edit_own hstep
    exact Or.inl hedited.trace
  | block s =>
    simp only [State.step] at hstep
    split_ifs at hstep with hs
    cases hstep
    exact Or.inr ⟨.blocked s, rfl, trivial⟩
  | unblock s =>
    simp only [State.step] at hstep
    split_ifs at hstep with hs
    cases hstep
    exact Or.inr ⟨.unblocked s, rfl, trivial⟩
  | blockSignal =>
    cases hstep
    exact Or.inl rfl
  | unblockSignal =>
    cases hstep
    exact Or.inl rfl
  | expire o =>
    simp only [State.step] at hstep
    split_ifs at hstep with ho
    cases hstep
    exact Or.inr ⟨.expired o, rfl, trivial⟩
  | emit e =>
    simp only [State.step] at hstep
    split_ifs at hstep with he hb
    · cases hstep
      exact Or.inl rfl
    · cases hstep
      exact Or.inl rfl
  | proceed e copied => exact adds_proceed hstep

end CodeStudy.Sigslot
