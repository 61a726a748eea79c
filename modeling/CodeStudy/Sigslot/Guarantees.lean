import CodeStudy.Sigslot.SignalRuns

/-!
# What a signal guarantees

Any number of threads connect and disconnect slots and emit the signal. Its list is shared by the emissions and
copied when it is changed.
-/

namespace CodeStudy.Sigslot

abbrev Signal := State (CopyOnWrite Handle (List Group))

namespace Signal

def new : Signal := { store := CopyOnWrite.start .slots [] }

def step (st : Signal) (a : Action) : Option Signal := State.step CopyOnWrite.store st a

/-- After any actions of any threads. -/
def Reached (st : Signal) : Prop :=
  ∃ actions, runActions step new actions = some st

/-- The signal with a list of its own for every reference. -/
abbrev plain (st : Signal) : Plain := State.plain CopyOnWrite.store st

/-- Every emission copies the list. -/
def plainNew : Plain := { store := fun h => if h = Handle.slots then some [] else none }

variable {st t : Signal} {a : Action} {e : Nat} {s : SlotId} {slots : List SlotId} {later earlier : List Event}
  {event : Event}

theorem plain_new : new.plain = plainNew := by
  simp only [plain, State.plain, new, plainNew]
  congr 1
  exact CopyOnWrite.read_start Handle.slots []

theorem kept_plainNew : Kept plainNew := by
  refine ⟨⟨?_, ?_, ?_, ?_⟩, ⟨?_, ?_, ?_, ?_, ?_, ?_⟩, [], ⟨rfl, placed_nil _, by simp [listed], by simp [listed]⟩⟩
  · intro e
    exact ⟨by simp [plainNew], rfl, rfl, by simp [plainNew]⟩
  · intro e g i s point hstage
    cases hstage
  · intro e groups hlist
    simp [plainNew] at hlist
  · intro e slots hsnapshot
    cases hsnapshot
  · simp [plainNew]
  · simp [plainNew]
  · intro s
    rfl
  · simp [plainNew]
  · simp [plainNew]
  · simp [plainNew]

structure Sound (st : Signal) : Prop where
  store : st.store.Ok
  kept : Kept st.plain

theorem Sound.step (h : Sound st) (hstep : step st a = some t) : Sound t := by
  obtain ⟨hok, hplain⟩ := State.step_plain CopyOnWrite.store_lawful h.store hstep
  exact ⟨hok, h.kept.step hplain⟩

theorem sound_new : Sound new := by
  refine ⟨CopyOnWrite.start_ok _ _, ?_⟩
  rw [plain_new]
  exact kept_plainNew

theorem Reached.sound (h : Reached st) : Sound st := by
  obtain ⟨actions, hrun⟩ := h
  exact runActions_invariant Sound Sound.step sound_new hrun

theorem Reached.step (h : Reached st) (hstep : step st a = some t) : Reached t := by
  obtain ⟨actions, hrun⟩ := h
  exact ⟨actions ++ [a], runActions_snoc hrun hstep⟩

theorem plain_run (h : st.store.Ok) {actions : List Action} (hrun : runActions step st actions = some t) :
    runActions (State.step ownValues) st.plain actions = some t.plain := by
  obtain ⟨actions', p, hsame, hrun', -, hp⟩ := runActions_simulation (fun st p => st.store.Ok ∧ p = State.plain
    CopyOnWrite.store st) Eq (by
      rintro st p a t ⟨hok, rfl⟩ hstep
      obtain ⟨hokt, hplain⟩ := State.step_plain CopyOnWrite.store_lawful hok hstep
      exact ⟨a, _, rfl, hplain, hokt, rfl⟩)
    ⟨h, rfl⟩ hrun
  rw [List.forall₂_eq_eq_eq] at hsame
  rw [hsame, hrun', hp]

/-- What a signal with shared lists does is what one does that copies its list for every emission. -/
theorem reached_iff_plain (p : Plain) : (∃ st, Reached st ∧ st.plain = p) ↔
    ∃ actions, runActions (State.step ownValues) plainNew actions = some p := by
  constructor
  · rintro ⟨st, ⟨actions, hrun⟩, rfl⟩
    exact ⟨actions, plain_new ▸ plain_run (CopyOnWrite.start_ok _ _) hrun⟩
  · rintro ⟨actions, hrun⟩
    obtain ⟨actions', st, -, hrun', -, hp⟩ := runActions_simulation (fun p st => st.store.Ok ∧ State.plain
      CopyOnWrite.store st = p) (fun _ _ => True) (by
        rintro p st a q ⟨hok, rfl⟩ hstep
        obtain ⟨b, t, ht, hplain⟩ := State.step_possible CopyOnWrite.store_lawful hok hstep
        exact ⟨b, t, trivial, ht, (State.step_plain CopyOnWrite.store_lawful hok ht).1, hplain⟩)
      ⟨CopyOnWrite.start_ok _ _, plain_new⟩ hrun
    exact ⟨st, ⟨actions', hrun'⟩, hp⟩

theorem reached_new : Reached new :=
  ⟨[], rfl⟩

theorem Reached.adds (h : Reached st) (hstep : Signal.step st a = some t) : Adds st.plain t.plain :=
  adds_step (State.step_plain CopyOnWrite.store_lawful h.sound.store hstep).2

/-- Every event has a cause in the state before it. -/
theorem Reached.cause (h : Reached st) (htrace : st.trace = later ++ event :: earlier) :
    ∃ before, Reached before ∧ before.trace = earlier ∧ Cause before.plain event := by
  obtain ⟨actions, hrun⟩ := h
  have hgrow : ∀ {st a t}, Reached st → Signal.step st a = some t →
      t.trace = st.trace ∨ ∃ event, t.trace = event :: st.trace := by
    intro st a t hreached hstep
    rcases hreached.adds hstep with hsame | ⟨event, hevent, -⟩
    · exact .inl hsame
    · exact .inr ⟨event, hevent⟩
  obtain ⟨u, a, v, hu, hstep, hbefore, hafter⟩ :=
    exists_step_of_event Reached.step hgrow reached_new rfl hrun htrace
  refine ⟨u, hu, hbefore, ?_⟩
  rcases hu.adds hstep with hsame | ⟨added, hadded, hcause⟩
  · have hlength : v.trace = u.trace := hsame
    rw [hafter, hbefore] at hlength
    simp at hlength
  · have heq : event :: earlier = added :: earlier := by
      rw [← hafter, ← hbefore]
      exact hadded
    exact (List.cons.inj heq).1 ▸ hcause

/-! ### The list -/

/-- Whatever is done at the same time: the groups are in ascending order, and every slot is listed once, in its group,
where its index says. -/
theorem reached_placed (h : Reached st) : ∃ groups, st.store.read .slots = some groups ∧ Placed groups st.slots ∧
    (listed groups).Nodup := by
  obtain ⟨groups, hlists⟩ := h.sound.kept.lists
  exact ⟨groups, hlists.list, hlists.placed, hlists.placed.nodup⟩

/-- Two slots are connected, and the first one is removed. -/
theorem reached_placed_removed : ∃ st, runActions step new [.connect 1 none true, .connect 0 none true, .exchange 0,
    .clean 0 true] = some st ∧ ∃ groups, st.store.read .slots = some groups ∧ Placed groups st.slots ∧
      (listed groups).Nodup := by
  obtain ⟨st, hst⟩ := Option.isSome_iff_exists.1 (show (runActions step new [.connect 1 none true, .connect 0 none true,
    .exchange 0, .clean 0 true]).isSome = true by decide +kernel)
  exact ⟨st, hst, reached_placed ⟨_, hst⟩⟩

/-- A slot whose connection was disconnected is listed only until it has been removed. -/
theorem reached_connected (h : Reached st) (hdone : st.cleaning = [])
    (hemissions : ∀ e g i s, st.stages e ≠ .turn g i s .clean) :
    ∃ groups, st.store.read .slots = some groups ∧ ∀ s ∈ listed groups, (st.slots s).connected = true := by
  obtain ⟨groups, hlists⟩ := h.sound.kept.lists
  refine ⟨groups, hlists.list, ?_⟩
  intro s hs
  by_contra hgone
  have hgone' : (st.plain.slots s).connected = false := Bool.eq_false_iff.2 hgone
  rcases hlists.leaving s hs hgone' with hmem | ⟨e, g, i, hstage⟩
  · have hempty : st.plain.cleaning = [] := hdone
    simp [hempty] at hmem
  · exact hemissions e g i s hstage

/-- The second of two slots is left. -/
theorem reached_connected_removed : ∃ st groups,
    runActions step new [.connect 0 none true, .connect 0 none true, .exchange 0, .clean 0 true] = some st ∧
      st.store.read .slots = some groups ∧ listed groups = [1] ∧ ∀ s ∈ listed groups, (st.slots s).connected = true := by
  have hrun : (runActions step new [.connect 0 none true, .connect 0 none true, .exchange 0, .clean 0 true]).map
      (fun st => (st.cleaning, st.stages, (st.store.read .slots).map listed)) = some ([], new.stages, some [1]) := rfl
  obtain ⟨st, hst, hstate⟩ := Option.map_eq_some_iff.1 hrun
  obtain ⟨hcleaning, hstages, hlisted⟩ := by simpa only [Prod.mk.injEq] using hstate
  obtain ⟨groups, hread, hconnected⟩ := reached_connected ⟨_, hst⟩ hcleaning (by
    intro e g i s hstage
    rw [hstages] at hstage
    cases hstage)
  rw [hread] at hlisted
  exact ⟨st, groups, hst, hread, Option.some.inj hlisted, hconnected⟩

/-- `disconnect` of a callable or of an object takes out the slots that match, and `disconnect` of a group those of the
group. Either returns how many they were. -/
theorem disconnect_counts (h : Reached st) (cond : SlotId → Bool) (gid : Int32) :
    ∃ groups, st.store.read .slots = some groups ∧
      (listed (disconnectIf cond groups st.slots 0).1).Perm ((listed groups).filter fun s => !cond s) ∧
      (disconnectIf cond groups st.slots 0).2.2 = (listed groups).countP cond ∧
      (listed (disconnectGroup groups gid).1).Perm ((listed groups).filter fun s => !((st.slots s).group == gid)) ∧
      (disconnectGroup groups gid).2 = (listed groups).countP fun s => (st.slots s).group == gid := by
  obtain ⟨groups, hlists⟩ := h.sound.kept.lists
  obtain ⟨hremoved, hcount⟩ := hlists.placed.disconnectIf cond 0
  obtain ⟨hremoved', hcount'⟩ := hlists.placed.disconnectGroup gid
  exact ⟨groups, hlists.list, hremoved.left, hcount.trans (Nat.zero_add _), hremoved'.left, hcount'⟩

/-- Two slots of a group, of which one matches. -/
theorem disconnect_counts_one : ∃ st, runActions step new [.connect 0 none true, .connect 0 none true] = some st ∧
    ∃ groups, st.store.read .slots = some groups ∧
      (disconnectIf (· == 0) groups st.slots 0).2.2 = (listed groups).countP (· == 0) := by
  obtain ⟨st, hst⟩ := Option.isSome_iff_exists.1 (show (runActions step new [.connect 0 none true,
    .connect 0 none true]).isSome = true by decide +kernel)
  obtain ⟨groups, hread, -, hcount, -⟩ := disconnect_counts ⟨_, hst⟩ (· == 0) 0
  exact ⟨st, hst, groups, hread, hcount⟩

/-! ### Emissions -/

/-- A slot is removed with its group while an emission is under way. -/
def removedMeanwhile : List Action :=
  [.connect 0 none true, .emit 0, .proceed 0 true, .disconnectGroup 0 true, .proceed 0 true, .proceed 0 true,
    .proceed 0 true, .proceed 0 true, .proceed 0 true, .proceed 0 true, .proceed 0 true]

theorem exists_removedMeanwhile : ∃ st, runActions step new removedMeanwhile = some st ∧
    st.trace = [.ended 0, .called 0 0, .turn 0 0, .referred 0 [0], .connected 0 none] := by
  apply Option.map_eq_some_iff.1
  decide +kernel

theorem snapshot_eq_some {trace : List Event} (h : snapshot e trace = some slots) :
    ∃ later earlier, trace = later ++ .referred e slots :: earlier := by
  induction trace with
  | nil => cases h
  | cons event trace ih =>
    have hlater : snapshot e trace = some slots →
        ∃ later earlier, event :: trace = later ++ .referred e slots :: earlier := by
      intro hsome
      obtain ⟨later, earlier, heq⟩ := ih hsome
      exact ⟨event :: later, earlier, by rw [heq]; rfl⟩
    cases event with
    | referred e' slots' =>
      by_cases he : e' = e
      · simp only [snapshot, he, if_true, Option.some.injEq] at h
        exact ⟨[], trace, by rw [he, h]; rfl⟩
      · simp only [snapshot, he, if_false] at h
        exact hlater h
    | _ => exact hlater h

theorem Reached.decided (h : Reached st) (hsnapshot : snapshot e st.trace = some slots) :
    decided e st.trace <+: slots ∧ (.ended e ∈ st.trace → decided e st.trace = slots) := by
  have hfollows : Follows st.trace e (st.store.read (.ref e)) (st.stages e) := h.sound.kept.emissions.follows e
  cases hstage : st.stages e with
  | idle =>
    rw [hstage] at hfollows
    simp [hfollows.2.1] at hsnapshot
  | starting =>
    rw [hstage] at hfollows
    simp [hfollows.2.1] at hsnapshot
  | between g i =>
    rw [hstage] at hfollows
    obtain ⟨groups, -, hself, hdecided, hout⟩ := hfollows
    have heq : listed groups = slots := Option.some.inj (hself.symm.trans hsnapshot)
    exact ⟨heq ▸ hdecided ▸ walked_isPrefix groups g i, fun hended => absurd hended hout⟩
  | turn g i s point =>
    rw [hstage] at hfollows
    obtain ⟨groups, group, -, -, -, hself, hdecided, hout⟩ := hfollows
    have heq : listed groups = slots := Option.some.inj (hself.symm.trans hsnapshot)
    exact ⟨heq ▸ hdecided ▸ walked_isPrefix groups g _, fun hended => absurd hended hout⟩
  | ended =>
    rw [hstage] at hfollows
    obtain ⟨-, slots', hself, hdecided⟩ := hfollows
    have heq : slots' = slots := Option.some.inj (hself.symm.trans hsnapshot)
    exact ⟨heq ▸ hdecided ▸ List.prefix_refl _, fun _ => hdecided.trans heq⟩

/-- An emission goes through the slots that were listed when it took its reference, each once, in ascending order of
their groups, and when it has ended it has called or skipped each of them. -/
theorem emission_decides (h : Reached st) (hsnapshot : snapshot e st.trace = some slots) :
    (∃ before later groups, Reached before ∧ st.trace = later ++ .referred e slots :: before.trace ∧
      before.store.read .slots = some groups ∧ listed groups = slots) ∧
    slots.Nodup ∧ (slots.Pairwise fun s t => (st.slots s).group ≤ (st.slots t).group) ∧
    decided e st.trace <+: slots ∧ (.ended e ∈ st.trace → decided e st.trace = slots) := by
  obtain ⟨later, earlier, htrace⟩ := snapshot_eq_some hsnapshot
  obtain ⟨before, hbefore, hearlier, groups, hread, hlisted⟩ := h.cause htrace
  obtain ⟨hnodup, -, hgroups⟩ := h.sound.kept.emissions.snapshots e slots hsnapshot
  exact ⟨⟨before, later, groups, hbefore, by rw [htrace, hearlier], hread, hlisted⟩, hnodup, hgroups, h.decided hsnapshot⟩

theorem emission_decides_removedMeanwhile : ∃ st, runActions step new removedMeanwhile = some st ∧
    (.ended 0 ∈ st.trace → decided 0 st.trace = [0]) := by
  obtain ⟨st, hst, htrace⟩ := exists_removedMeanwhile
  exact ⟨st, hst, (emission_decides ⟨_, hst⟩ (by rw [htrace]; rfl)).2.2.2.2⟩

/-- A slot is skipped only if it was disconnected, blocked, or its object is gone. -/
theorem Reached.skipped (h : Reached st) {reason : Reason} (hskipped : .skipped e s reason ∈ st.trace) :
    .disconnected s ∈ st.trace ∨ .blocked s ∈ st.trace ∨
      ∃ o, .connected s (some o) ∈ st.trace ∧ .expired o ∈ st.trace := by
  obtain ⟨later, earlier, htrace⟩ := List.append_of_mem hskipped
  obtain ⟨before, hbefore, hearlier, hcause⟩ := h.cause htrace
  have hflags := hbefore.sound.kept.flags
  have hsub : ∀ event ∈ before.trace, event ∈ st.trace := by
    intro event hevent
    rw [htrace]
    exact List.mem_append_right _ (List.mem_cons_of_mem _ (hearlier ▸ hevent))
  cases reason with
  | disconnected => exact Or.inl (hsub _ ((hflags.disconnected s).1 hcause))
  | blocked => exact Or.inr (Or.inl (hsub _ (mem_of_lastBlocked ((hflags.blocked s).symm.trans hcause))))
  | expired =>
    obtain ⟨⟨g, i, hstage⟩, o, hobject, hgone⟩ := hcause
    have hknown := hbefore.sound.kept.emissions.turn_known hstage
    exact Or.inr (Or.inr ⟨o, hsub _ ((hflags.connected s _).2 ⟨hknown, hobject⟩), hsub _ ((hflags.expired o).1 hgone)⟩)

/-- A slot that was listed when an emission took its reference, and was not disconnected or blocked and did not lose its
object until the emission ended, has been called once by it, even if the list was changed. -/
theorem called_once (h : Reached st) (hsnapshot : snapshot e st.trace = some slots) (hended : .ended e ∈ st.trace)
    (hs : s ∈ slots) (hconnected : .disconnected s ∉ st.trace) (hunblocked : .blocked s ∉ st.trace)
    (hobject : ∀ o, .connected s (some o) ∈ st.trace → .expired o ∉ st.trace) : (calls e st.trace).count s = 1 := by
  obtain ⟨hnodup, -⟩ := h.sound.kept.emissions.snapshots e slots hsnapshot
  have hskipped : ∀ reason, .skipped e s reason ∉ st.trace := by
    intro reason hmem
    rcases h.skipped hmem with hgone | hblocked | ⟨o, ho, hexpired⟩
    · exact hconnected hgone
    · exact hunblocked hblocked
    · exact hobject o ho hexpired
  rw [count_calls hskipped, (h.decided hsnapshot).2 hended]
  exact List.count_eq_one_of_mem hnodup hs

theorem called_once_removedMeanwhile : ∃ st, runActions step new removedMeanwhile = some st ∧
    (calls 0 st.trace).count 0 = 1 := by
  obtain ⟨st, hst, htrace⟩ := exists_removedMeanwhile
  refine ⟨st, hst, called_once ⟨_, hst⟩ (by rw [htrace]; rfl) ?_ List.mem_cons_self ?_ ?_ ?_⟩
  · simp [htrace]
  · simp [htrace]
  · simp [htrace]
  · simp [htrace]

/-- A slot is not called in a turn that began after it was disconnected, nor when it was blocked all the time from
there to the call, nor after its object was gone. -/
theorem call_allowed (h : Reached st) (htrace : st.trace = later ++ .called e s :: earlier) :
    (∃ during before, earlier = during ++ .turn e s :: before ∧ .turn e s ∉ during ∧ .disconnected s ∉ before ∧
      ∃ after until', during = after ++ until' ∧ lastBlocked s (until' ++ .turn e s :: before) = false) ∧
    ∀ o, .connected s (some o) ∈ st.trace → .expired o ∉ earlier := by
  obtain ⟨before, hbefore, hearlier, g, i, hstage⟩ := h.cause htrace
  have hkept := hbefore.sound.kept
  have hturn := hkept.emissions.turn e g i s .call hstage
  have hknown := hkept.emissions.turn_known hstage
  refine ⟨?_, ?_⟩
  · obtain ⟨during, before', heq, hlast, hconnected, hunblocked⟩ := hturn.began
    exact ⟨during, before', hearlier ▸ heq, hlast, hconnected (by simp), hunblocked (by simp)⟩
  · intro o ho hexpired
    have hthen : .connected s (before.slots s).object ∈ st.trace := by
      have hmem : .connected s (before.slots s).object ∈ before.trace :=
        (hkept.flags.connected s _).2 ⟨hknown, rfl⟩
      rw [htrace]
      exact List.mem_append_right _ (List.mem_cons_of_mem _ (hearlier ▸ hmem))
    have hflags := h.sound.kept.flags
    have hobject : (before.slots s).object = some o :=
      ((hflags.connected s _).1 hthen).2.symm.trans ((hflags.connected s _).1 ho).2
    have hheld : e ∈ before.holders o := hturn.holds (by simp) o hobject
    have halive := hkept.flags.alive o (List.ne_nil_of_mem hheld)
    have hgone := (hkept.flags.expired o).2 (hearlier ▸ hexpired)
    rw [hgone] at halive
    cases halive

/-- A slot that tracks an object is unblocked and blocked again in its turn, and the object goes after the call. -/
def blockedMeanwhile : List Action :=
  [.connect 0 (some 5) true, .block 0, .emit 0, .proceed 0 true, .proceed 0 true, .proceed 0 true, .unblock 0,
    .proceed 0 true, .block 0, .proceed 0 true, .proceed 0 true, .proceed 0 true, .proceed 0 true, .expire 5]

theorem call_allowed_blockedMeanwhile : ∃ st earlier, runActions step new blockedMeanwhile = some st ∧
    st.trace = [.expired 5] ++ .called 0 0 :: earlier ∧
    (∃ during before, earlier = during ++ .turn 0 0 :: before ∧ .turn 0 0 ∉ during ∧ .disconnected 0 ∉ before ∧
      ∃ after until', during = after ++ until' ∧ lastBlocked 0 (until' ++ .turn 0 0 :: before) = false) ∧
    .expired 5 ∉ earlier := by
  have hrun : (runActions step new blockedMeanwhile).map State.trace = some ([.expired 5] ++ .called 0 0 ::
      [.blocked 0, .unblocked 0, .turn 0 0, .referred 0 [0], .blocked 0, .connected 0 (some 5)]) := by decide +kernel
  obtain ⟨st, hst, htrace⟩ := Option.map_eq_some_iff.1 hrun
  obtain ⟨hturn, halive⟩ := call_allowed ⟨_, hst⟩ htrace
  exact ⟨st, _, hst, htrace, hturn, halive 5 (by simp [htrace])⟩

end Signal

end CodeStudy.Sigslot
