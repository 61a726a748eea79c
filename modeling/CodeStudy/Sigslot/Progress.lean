import CodeStudy.Sigslot.Guarantees

/-!
# Emissions end

An emission has a bounded number of steps left, whatever other threads do in between, and can always take the next
one.
-/

namespace CodeStudy.Sigslot

def Action.proceeds (e : Nat) : Action → Bool
  | .proceed e' _ => e' == e
  | _ => false

/-- How far the turn of a slot has come. -/
def Point.rank : Point → Nat
  | .connected => 1
  | .blocked => 2
  | .lock => 3
  | .stillConnected => 4
  | .call => 5
  | .running => 6
  | .disconnect => 4
  | .clean => 5

/-- A bound of the steps that an emission has left. -/
def stepsLeft (groups : List Group) : Stage → Nat
  | .between g i => 7 * ((listed groups).length - (walked groups g i).length) + (groups.length - g) + 1
  | .turn g i _ point =>
      7 * ((listed groups).length - (walked groups g i).length) + (groups.length - g) + 1 - point.rank
  | .idle | .starting | .ended => 0

variable {p q : Plain} {groups : List Group} {group : Group} {g i e : Nat} {s : SlotId} {a : Action} {copied : Bool}

theorem walked_lt (hg : groups[g]? = some group) (hi : group.slts[i]? = some s) :
    (walked groups g i).length < (listed groups).length ∧
      (walked groups g (i + 1)).length = (walked groups g i).length + 1 := by
  have hnext : (walked groups g (i + 1)).length = (walked groups g i).length + 1 := by
    rw [walked_nextSlot hg hi, List.length_append, List.length_singleton]
  have hle := (walked_isPrefix groups g (i + 1)).length_le
  exact ⟨by omega, hnext⟩

/-- What a step of another thread leaves to an emission. -/
def Untouched (e : Nat) (p q : Plain) : Prop :=
  q.stages e = p.stages e ∧ q.store (.ref e) = p.store (.ref e)

theorem Edited.untouched {slots : Slots} (h : Edited p q groups slots) (e : Nat) : Untouched e p q :=
  ⟨by rw [h.stages], h.refs e⟩

theorem takeTurn_untouched {e' : Nat} (he : e ≠ e') {point : Point}
    (hstep : State.takeTurn ownValues copied p e' g i s point = some q) : Untouched e p q := by
  have hstage : ∀ stage, Function.update p.stages e' stage e = p.stages e := fun stage => Function.update_of_ne he ..
  cases point with
  | connected =>
    simp only [State.takeTurn] at hstep
    split_ifs at hstep <;> cases hstep <;> exact ⟨hstage _, rfl⟩
  | blocked =>
    simp only [State.takeTurn] at hstep
    by_cases hb : (p.slots s).blocked
    · rw [if_pos hb] at hstep
      cases hstep
      exact ⟨hstage _, rfl⟩
    · rw [if_neg hb] at hstep
      cases hstep
      exact ⟨hstage _, rfl⟩
  | lock =>
    cases hobject : (p.slots s).object with
    | none => simp [State.takeTurn, hobject] at hstep
    | some o =>
      simp only [State.takeTurn, hobject] at hstep
      split_ifs at hstep <;> cases hstep <;> exact ⟨hstage _, rfl⟩
  | stillConnected =>
    obtain ⟨holders, heq, -⟩ := release_eq p e' s
    simp only [State.takeTurn, heq] at hstep
    split_ifs at hstep <;> cases hstep <;> exact ⟨hstage _, rfl⟩
  | call =>
    cases hstep
    exact ⟨hstage _, rfl⟩
  | running =>
    obtain ⟨holders, heq, -⟩ := release_eq p e' s
    simp only [State.takeTurn, heq] at hstep
    cases hstep
    exact ⟨hstage _, rfl⟩
  | disconnect =>
    simp only [State.takeTurn] at hstep
    split_ifs at hstep <;> cases hstep <;> exact ⟨hstage _, rfl⟩
  | clean =>
    obtain ⟨u, hedit, heq⟩ := Option.map_eq_some_iff.1 hstep
    obtain ⟨groups, -, hedited⟩ := edit_own hedit
    obtain ⟨hstages, hlist⟩ := hedited.untouched e
    subst heq
    exact ⟨(Function.update_of_ne he ..).trans hstages, hlist⟩

theorem proceed_untouched {e' : Nat} (he : e ≠ e') (hstep : p.proceed ownValues copied e' = some q) :
    Untouched e p q := by
  have hstage : ∀ stage, Function.update p.stages e' stage e = p.stages e := fun stage => Function.update_of_ne he ..
  have href : Handle.ref e ≠ Handle.ref e' := fun heq => he (Handle.ref.inj heq)
  cases hstages : p.stages e' with
  | idle => simp [State.proceed, hstages] at hstep
  | starting =>
    simp only [State.proceed, hstages] at hstep
    obtain ⟨groups, -, hmap⟩ := Option.bind_eq_some_iff.1 hstep
    obtain ⟨store, hcopy, heq⟩ := Option.map_eq_some_iff.1 hmap
    subst heq
    have hlist : store (.ref e) = p.store (.ref e) := by
      simp only [ownValues] at hcopy
      split_ifs at hcopy
      cases hcopy
      exact Function.update_of_ne href ..
    exact ⟨hstage _, hlist⟩
  | between g i =>
    simp only [State.proceed, hstages] at hstep
    obtain ⟨groups, -, hwalk⟩ := Option.bind_eq_some_iff.1 hstep
    cases hg : groups[g]? with
    | none =>
      simp only [hg] at hwalk
      obtain ⟨store, hdrop, heq⟩ := Option.map_eq_some_iff.1 hwalk
      subst heq
      have hlist : store (.ref e) = p.store (.ref e) := by
        simp only [ownValues] at hdrop
        split_ifs at hdrop
        cases hdrop
        exact Function.update_of_ne href ..
      exact ⟨hstage _, hlist⟩
    | some group =>
      simp only [hg] at hwalk
      cases hi : group.slts[i]? with
      | none =>
        simp only [hi] at hwalk
        cases hwalk
        exact ⟨hstage _, rfl⟩
      | some s =>
        simp only [hi] at hwalk
        cases hwalk
        exact ⟨hstage _, rfl⟩
  | turn g i s point =>
    simp only [State.proceed, hstages] at hstep
    exact takeTurn_untouched he hstep
  | ended => simp [State.proceed, hstages] at hstep

/-- The stage and the list of an emission are its own. -/
theorem step_untouched (hstep : p.step ownValues a = some q) (ha : a.proceeds e = false) (hstage : p.stages e ≠ .idle) :
    Untouched e p q := by
  cases a with
  | connect gid object copied =>
    simp only [State.step] at hstep
    obtain ⟨groups, -, hedited⟩ := edit_own hstep
    exact hedited.untouched e
  | clean s copied =>
    simp only [State.step] at hstep
    split_ifs at hstep with hs
    obtain ⟨groups, -, hedited⟩ := edit_own hstep
    exact hedited.untouched e
  | disconnectIf cond copied =>
    simp only [State.step] at hstep
    obtain ⟨groups, -, hedited⟩ := edit_own hstep
    exact hedited.untouched e
  | disconnectGroup gid copied =>
    simp only [State.step] at hstep
    obtain ⟨groups, -, hedited⟩ := edit_own hstep
    exact hedited.untouched e
  | disconnectAll copied =>
    simp only [State.step] at hstep
    obtain ⟨groups, -, hedited⟩ := edit_own hstep
    exact hedited.untouched e
  | emit e' =>
    simp only [State.step] at hstep
    split_ifs at hstep with he hb
    · cases hstep
      exact ⟨rfl, rfl⟩
    · cases hstep
      have hne : e ≠ e' := fun heq => hstage (heq ▸ he)
      exact ⟨Function.update_of_ne hne .., rfl⟩
  | proceed e' copied =>
    have hne : e ≠ e' := by
      intro heq
      simp [Action.proceeds, heq] at ha
    exact proceed_untouched hne hstep
  | exchange s =>
    simp only [State.step] at hstep
    split_ifs at hstep <;> cases hstep <;> exact ⟨rfl, rfl⟩
  | block s =>
    simp only [State.step] at hstep
    split_ifs at hstep
    cases hstep
    exact ⟨rfl, rfl⟩
  | unblock s =>
    simp only [State.step] at hstep
    split_ifs at hstep
    cases hstep
    exact ⟨rfl, rfl⟩
  | expire o =>
    simp only [State.step] at hstep
    split_ifs at hstep
    cases hstep
    exact ⟨rfl, rfl⟩
  | blockSignal =>
    cases hstep
    exact ⟨rfl, rfl⟩
  | unblockSignal =>
    cases hstep
    exact ⟨rfl, rfl⟩

/-! ### The steps that are left -/

theorem takeTurn_stepsLeft {point : Point} (hg : groups[g]? = some group) (hi : group.slts[i]? = some s)
    (hstep : State.takeTurn ownValues copied p e g i s point = some q) :
    stepsLeft groups (q.stages e) < stepsLeft groups (.turn g i s point) ∧ q.store (.ref e) = p.store (.ref e) := by
  obtain ⟨hlt, hnext⟩ := walked_lt hg hi
  have hglt := (List.getElem?_eq_some_iff.1 hg).1
  have hstage : ∀ stages : Nat → Stage, ∀ stage, Function.update stages e stage e = stage :=
    fun stages stage => Function.update_self ..
  have hgoto : ∀ point', point.rank < point'.rank → point'.rank ≤ 6 → ∀ stages : Nat → Stage,
      stepsLeft groups (Function.update stages e (.turn g i s point') e) < stepsLeft groups (.turn g i s point) := by
    intro point' hrank hsix stages
    rw [hstage]
    simp only [stepsLeft]
    omega
  have hleave : ∀ stages : Nat → Stage,
      stepsLeft groups (Function.update stages e (.between g (i + 1)) e) < stepsLeft groups (.turn g i s point) := by
    intro stages
    have hrank : point.rank ≤ 6 := by cases point <;> decide
    rw [hstage]
    simp only [stepsLeft, hnext]
    omega
  cases point with
  | connected =>
    simp only [State.takeTurn] at hstep
    split_ifs at hstep
    · cases hstep
      exact ⟨hgoto .blocked (by decide) (by decide) _, rfl⟩
    · cases hstep
      exact ⟨hleave _, rfl⟩
  | blocked =>
    simp only [State.takeTurn] at hstep
    by_cases hb : (p.slots s).blocked
    · rw [if_pos hb] at hstep
      cases hstep
      exact ⟨hleave _, rfl⟩
    · rw [if_neg hb] at hstep
      cases hstep
      refine ⟨hgoto _ ?_ ?_ _, rfl⟩
      · split_ifs <;> decide
      · split_ifs <;> decide
  | lock =>
    cases hobject : (p.slots s).object with
    | none => simp [State.takeTurn, hobject] at hstep
    | some o =>
      simp only [State.takeTurn, hobject] at hstep
      split_ifs at hstep
      · cases hstep
        exact ⟨hgoto .disconnect (by decide) (by decide) _, rfl⟩
      · cases hstep
        exact ⟨hgoto .stillConnected (by decide) (by decide) _, rfl⟩
  | stillConnected =>
    obtain ⟨holders, heq, -⟩ := release_eq p e s
    simp only [State.takeTurn, heq] at hstep
    split_ifs at hstep
    · cases hstep
      exact ⟨hgoto .call (by decide) (by decide) _, rfl⟩
    · cases hstep
      exact ⟨hleave _, rfl⟩
  | call =>
    cases hstep
    exact ⟨hgoto .running (by decide) (by decide) _, rfl⟩
  | running =>
    obtain ⟨holders, heq, -⟩ := release_eq p e s
    simp only [State.takeTurn, heq] at hstep
    cases hstep
    exact ⟨hleave _, rfl⟩
  | disconnect =>
    simp only [State.takeTurn] at hstep
    split_ifs at hstep
    · cases hstep
      exact ⟨hgoto .clean (by decide) (by decide) _, rfl⟩
    · cases hstep
      exact ⟨hleave _, rfl⟩
  | clean =>
    obtain ⟨u, hedit, heq⟩ := Option.map_eq_some_iff.1 hstep
    obtain ⟨groups', -, hedited⟩ := edit_own hedit
    subst heq
    exact ⟨hleave _, hedited.refs e⟩

/-- A step of an emission that has a reference is the last one, or leaves fewer. -/
theorem proceed_stepsLeft (h : Kept p) (hlist : p.store (.ref e) = some groups)
    (hstep : p.proceed ownValues copied e = some q) :
    stepsLeft groups (q.stages e) < stepsLeft groups (p.stages e) ∧
      (q.stages e = .ended ∨ q.store (.ref e) = some groups) := by
  have hfollows := h.emissions.follows e
  cases hstage : p.stages e with
  | idle => simp [State.proceed, hstage] at hstep
  | starting =>
    rw [hstage] at hfollows
    have hnone : p.store (.ref e) = none := hfollows.1
    rw [hlist] at hnone
    cases hnone
  | between g i =>
    have hread : ownValues.read p.store (.ref e) = some groups := hlist
    simp only [State.proceed, hstage, hread, Option.bind_some] at hstep
    cases hg : groups[g]? with
    | none =>
      simp only [hg] at hstep
      obtain ⟨store, -, heq⟩ := Option.map_eq_some_iff.1 hstep
      subst heq
      have hended : Function.update p.stages e .ended e = .ended := Function.update_self ..
      refine ⟨?_, Or.inl hended⟩
      show stepsLeft groups (Function.update p.stages e .ended e) < _
      rw [hended]
      simp [stepsLeft]
    | some group =>
      have hglt := (List.getElem?_eq_some_iff.1 hg).1
      simp only [hg] at hstep
      cases hi : group.slts[i]? with
      | none =>
        simp only [hi] at hstep
        cases hstep
        refine ⟨?_, Or.inr hlist⟩
        show stepsLeft groups (Function.update p.stages e (.between (g + 1) 0) e) < _
        rw [Function.update_self]
        simp only [stepsLeft, walked_nextGroup hg hi]
        omega
      | some s =>
        obtain ⟨hlt, -⟩ := walked_lt hg hi
        simp only [hi] at hstep
        cases hstep
        refine ⟨?_, Or.inr hlist⟩
        show stepsLeft groups (Function.update p.stages e (.turn g i s .connected) e) < _
        rw [Function.update_self]
        simp only [stepsLeft, Point.rank]
        omega
  | turn g i s point =>
    rw [hstage] at hfollows
    obtain ⟨groups', group, hlist', hg, hi, -⟩ := hfollows
    have heq : groups' = groups := Option.some.inj (hlist'.symm.trans hlist)
    subst heq
    simp only [State.proceed, hstage] at hstep
    obtain ⟨hless, hsame⟩ := takeTurn_stepsLeft hg hi hstep
    exact ⟨hless, Or.inr (hsame.trans hlist)⟩
  | ended => simp [State.proceed, hstage] at hstep

/-- An emission that has ended takes no step. -/
theorem ended_countP {actions : List Action} (hstage : p.stages e = .ended)
    (hrun : runActions (State.step ownValues) p actions = some q) : actions.countP (Action.proceeds e) = 0 := by
  induction actions generalizing p with
  | nil => rfl
  | cons a actions ih =>
    obtain ⟨u, hu, hrest⟩ := Option.bind_eq_some_iff.1 hrun
    have ha : a.proceeds e = false := by
      cases a with
      | proceed e' copied =>
        by_contra hself
        have he : e' = e := by simpa [Action.proceeds] using hself
        subst he
        simp [State.step, State.proceed, hstage] at hu
      | _ => rfl
    have hstill : u.stages e = .ended := (step_untouched hu ha (by simp [hstage])).1.trans hstage
    rw [List.countP_cons_of_neg (by simp [ha])]
    exact ih hstill hrest

theorem run_countP (h : Kept p) (hlist : p.store (.ref e) = some groups) {actions : List Action}
    (hrun : runActions (State.step ownValues) p actions = some q) :
    actions.countP (Action.proceeds e) ≤ stepsLeft groups (p.stages e) := by
  induction actions generalizing p with
  | nil => exact Nat.zero_le _
  | cons a actions ih =>
    obtain ⟨u, hu, hrest⟩ := Option.bind_eq_some_iff.1 hrun
    by_cases ha : a.proceeds e = true
    · obtain ⟨copied, heq⟩ : ∃ copied, a = .proceed e copied := by
        cases a with
        | proceed e' copied =>
          have he : e' = e := by simpa [Action.proceeds] using ha
          exact ⟨copied, by rw [he]⟩
        | _ => simp [Action.proceeds] at ha
      subst heq
      obtain ⟨hless, hnext⟩ := proceed_stepsLeft h hlist hu
      rw [List.countP_cons_of_pos ha]
      rcases hnext with hended | hlist'
      · rw [ended_countP hended hrest]
        omega
      · have hrest' := ih (h.step hu) hlist' hrest
        omega
    · have ha' : a.proceeds e = false := by simpa using ha
      have hidle : p.stages e ≠ .idle := by
        intro hidle
        have hfollows := h.emissions.follows e
        rw [hidle] at hfollows
        have hnone : p.store (.ref e) = none := hfollows.1
        rw [hlist] at hnone
        cases hnone
      obtain ⟨hstage, hsame⟩ := step_untouched hu ha' hidle
      rw [List.countP_cons_of_neg ha, ← hstage]
      exact ih (h.step hu) (hsame.trans hlist) hrest

theorem edit_enabled (h : Kept p) (f : List Group → Slots → List Group × Slots) :
    ∃ q, p.edit ownValues true f = some q := by
  obtain ⟨groups, hlists⟩ := h.lists
  have hread : ownValues.read p.store .slots = some groups := hlists.list
  have hwrite : ownValues.write true p.store .slots (f groups p.slots).1 =
      some (Function.update p.store .slots (some (f groups p.slots).1)) := if_pos (Option.isSome_of_eq_some hlists.list)
  exact ⟨_, by simp only [State.edit, hread, Option.bind_some, hwrite, Option.map_some]; rfl⟩

theorem takeTurn_enabled (h : Kept p) {point : Point} (hstage : p.stages e = .turn g i s point) :
    ∃ q, State.takeTurn ownValues true p e g i s point = some q := by
  have hturn := h.emissions.turn e g i s point hstage
  cases point with
  | connected =>
    simp only [State.takeTurn]
    split_ifs <;> exact ⟨_, rfl⟩
  | blocked =>
    simp only [State.takeTurn]
    by_cases hb : (p.slots s).blocked
    · exact ⟨_, if_pos hb⟩
    · exact ⟨_, if_neg hb⟩
  | lock =>
    obtain ⟨o, ho⟩ := Option.ne_none_iff_exists'.1 (hturn.tracked rfl)
    simp only [State.takeTurn, ho]
    split_ifs <;> exact ⟨_, rfl⟩
  | stillConnected =>
    simp only [State.takeTurn]
    split_ifs <;> exact ⟨_, rfl⟩
  | call => exact ⟨_, rfl⟩
  | running => exact ⟨_, rfl⟩
  | disconnect =>
    simp only [State.takeTurn]
    split_ifs <;> exact ⟨_, rfl⟩
  | clean =>
    obtain ⟨u, hu⟩ := edit_enabled h fun groups slots => clean groups slots s
    exact ⟨_, by simp only [State.takeTurn, hu, Option.map_some]; rfl⟩

/-- Nothing that other threads do stops an emission. -/
theorem proceed_enabled (h : Kept p) (hidle : p.stages e ≠ .idle) (hended : p.stages e ≠ .ended) :
    ∃ q, p.proceed ownValues true e = some q := by
  have hfollows := h.emissions.follows e
  cases hstage : p.stages e with
  | idle => exact absurd hstage hidle
  | starting =>
    rw [hstage] at hfollows
    have hnone : p.store (.ref e) = none := hfollows.1
    obtain ⟨groups, hlists⟩ := h.lists
    have hread : ownValues.read p.store .slots = some groups := hlists.list
    have hcopy : ownValues.copy p.store .slots (.ref e) = some (Function.update p.store (.ref e) (p.store .slots)) :=
      if_pos ⟨Option.isSome_of_eq_some hlists.list, hnone⟩
    exact ⟨_, by simp only [State.proceed, hstage, hread, Option.bind_some, hcopy, Option.map_some]; rfl⟩
  | between g i =>
    rw [hstage] at hfollows
    obtain ⟨groups, hlist, -⟩ := hfollows
    have hread : ownValues.read p.store (.ref e) = some groups := hlist
    simp only [State.proceed, hstage, hread, Option.bind_some]
    cases hg : groups[g]? with
    | none =>
      have hdrop : ownValues.drop p.store (.ref e) = some (Function.update p.store (.ref e) none) :=
        if_pos (Option.isSome_of_eq_some hlist)
      exact ⟨_, by simp only [hdrop, Option.map_some]; rfl⟩
    | some group =>
      simp only []
      cases hi : group.slts[i]? with
      | none => exact ⟨_, rfl⟩
      | some s => exact ⟨_, rfl⟩
  | turn g i s point =>
    simp only [State.proceed, hstage]
    exact takeTurn_enabled h hstage
  | ended => exact absurd hstage hended

theorem stepsLeft_le (groups : List Group) (stage : Stage) :
    stepsLeft groups stage ≤ 7 * (listed groups).length + groups.length + 1 := by
  cases stage with
  | between g i =>
    simp only [stepsLeft]
    omega
  | turn g i s point =>
    simp only [stepsLeft]
    omega
  | _ => exact Nat.zero_le _

/-- A reference that was taken is not forgotten. -/
theorem Adds.snapshot_ne_none (h : Adds p q) (hsome : snapshot e p.trace ≠ none) : snapshot e q.trace ≠ none := by
  rcases h with hsame | ⟨event, hevent, -⟩
  · rwa [hsame]
  · rw [hevent]
    cases event with
    | referred e' slots =>
      simp only [snapshot]
      split_ifs
      · simp
      · exact hsome
    | _ => exact hsome

namespace Signal

variable {st t : Signal}

/-- However others connect, disconnect, block and emit in between: an emission with a list of `n` slots in `m` groups
takes at most `7 * n + m + 1` steps from then on, and can always take one until it has ended. -/
theorem emission_ends (h : Reached st) (hlist : st.store.read (.ref e) = some groups) {actions : List Action}
    (hrun : runActions step st actions = some t) :
    actions.countP (Action.proceeds e) ≤ 7 * (listed groups).length + groups.length + 1 ∧
      (t.stages e = .ended ∨ ∃ copied u, step t (.proceed e copied) = some u) := by
  have hkept := h.sound.kept
  have hplain := plain_run h.sound.store hrun
  have ht : Sound t := runActions_invariant Sound Sound.step h.sound hrun
  refine ⟨Nat.le_trans (run_countP hkept hlist hplain) (stepsLeft_le groups _), ?_⟩
  have hreferred : snapshot e st.trace ≠ none := by
    intro hnone
    have hfollows : Follows st.trace e (st.store.read (.ref e)) (st.stages e) := hkept.emissions.follows e
    cases hstage : st.stages e with
    | idle => simp [Follows, hstage, hlist] at hfollows
    | starting => simp [Follows, hstage, hlist] at hfollows
    | between g i => simp [Follows, hstage, hnone] at hfollows
    | turn g i s point => simp [Follows, hstage, hnone] at hfollows
    | ended => simp [Follows, hstage, hlist] at hfollows
  have hstill : snapshot e t.plain.trace ≠ none :=
    runActions_invariant (fun p : Plain => snapshot e p.trace ≠ none)
      (fun hsome hstep => (adds_step hstep).snapshot_ne_none hsome) hreferred hplain
  have hidle : t.stages e ≠ .idle := by
    intro hidle
    have hfollows := ht.kept.emissions.follows e
    have hstage : t.plain.stages e = .idle := hidle
    rw [hstage] at hfollows
    exact hstill hfollows.2.1
  by_cases hended : t.stages e = .ended
  · exact Or.inl hended
  · obtain ⟨q, hq⟩ := proceed_enabled ht.kept hidle hended
    obtain ⟨copied, u, hu⟩ := State.proceed_possible CopyOnWrite.store_lawful ht.store hq
    exact Or.inr ⟨copied, u, hu⟩

/-- The slot's group is removed meanwhile. -/
theorem emission_ends_removed : ∃ st t, runActions step new [.connect 0 none true, .emit 0, .proceed 0 true] = some st ∧
    runActions step st [.disconnectGroup 0 true, .proceed 0 true] = some t ∧
      (t.stages 0 = .ended ∨ ∃ copied u, step t (.proceed 0 copied) = some u) := by
  have hrun : (runActions step new [.connect 0 none true, .emit 0, .proceed 0 true]).bind (fun st =>
      (st.store.read (.ref 0)).map fun _ => ()) = some () := by decide +kernel
  obtain ⟨st, hst, hread⟩ := Option.bind_eq_some_iff.1 hrun
  obtain ⟨groups, hlist, -⟩ := Option.map_eq_some_iff.1 hread
  have hnext : ((runActions step new [.connect 0 none true, .emit 0, .proceed 0 true]).bind fun st =>
      runActions step st [.disconnectGroup 0 true, .proceed 0 true]).isSome = true := by decide +kernel
  rw [hst] at hnext
  obtain ⟨t, ht⟩ := Option.isSome_iff_exists.1 hnext
  exact ⟨st, t, hst, ht, (emission_ends ⟨_, hst⟩ hlist ht).2⟩

end Signal

end CodeStudy.Sigslot
