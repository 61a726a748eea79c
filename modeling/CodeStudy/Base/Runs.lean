import Mathlib.Data.List.Forall2

/-!
# Runs of a system

A system takes the steps that its states allow. What every step keeps holds in every state of a run, and when a
state remembers what happened, each event was added by a step from a state of the run that remembers what was before.
-/

namespace CodeStudy

variable {σ α ε : Type}

/-- The state after the actions, if each of them was possible. -/
def runActions (step : σ → α → Option σ) (s : σ) : List α → Option σ
  | [] => some s
  | a :: as => (step s a).bind fun t => runActions step t as

variable {step : σ → α → Option σ} {s t : σ} {as : List α}

theorem runActions_snoc {u : σ} {a : α} (hrun : runActions step s as = some t) (hstep : step t a = some u) :
    runActions step s (as ++ [a]) = some u := by
  induction as generalizing s with
  | nil =>
    cases hrun
    simp [runActions, hstep]
  | cons b as ih =>
    obtain ⟨v, hv, hrest⟩ := Option.bind_eq_some_iff.1 hrun
    simp [runActions, hv, ih hrest]

theorem runActions_append {bs : List α} (hrun : runActions step s as = some t) :
    runActions step s (as ++ bs) = runActions step t bs := by
  induction as generalizing s with
  | nil =>
    cases hrun
    rfl
  | cons a as ih =>
    obtain ⟨u, hu, hrest⟩ := Option.bind_eq_some_iff.1 hrun
    simp [runActions, hu, ih hrest]

theorem runActions_invariant (Inv : σ → Prop) (hstep : ∀ {s a t}, Inv s → step s a = some t → Inv t) (hs : Inv s)
    (hrun : runActions step s as = some t) : Inv t := by
  induction as generalizing s with
  | nil =>
    cases hrun
    exact hs
  | cons a as ih =>
    obtain ⟨u, hu, hrest⟩ := Option.bind_eq_some_iff.1 hrun
    exact ih (hstep hs hu) hrest

/-- Each action is taken in a state that allows it. -/
def Allowed (step : σ → α → Option σ) (ok : σ → α → Prop) (s : σ) : List α → Prop
  | [] => True
  | a :: as => ok s a ∧ ∀ t ∈ step s a, Allowed step ok t as

instance decidableAllowed {ok : σ → α → Prop} [∀ s a, Decidable (ok s a)] (s : σ) :
    (as : List α) → Decidable (Allowed step ok s as)
  | [] => inferInstanceAs (Decidable True)
  | a :: as =>
      have (t : σ) : Decidable (Allowed step ok t as) := decidableAllowed t as
      inferInstanceAs (Decidable (ok s a ∧ ∀ t ∈ step s a, Allowed step ok t as))

theorem allowed_invariant {ok : σ → α → Prop} (Inv : σ → Prop)
    (hstep : ∀ {s a t}, Inv s → ok s a → step s a = some t → Inv t) (hs : Inv s) (hallowed : Allowed step ok s as)
    (hrun : runActions step s as = some t) : Inv t := by
  induction as generalizing s with
  | nil =>
    cases hrun
    exact hs
  | cons a as ih =>
    obtain ⟨u, hu, hrest⟩ := Option.bind_eq_some_iff.1 hrun
    exact ih (hstep hs hallowed.1 hu) (hallowed.2 u hu) hrest

/-- A system that does what another one does, step by step, does what it does in a run. -/
theorem runActions_simulation {τ β : Type} {step' : τ → β → Option τ} (Rel : σ → τ → Prop) (Same : α → β → Prop)
    (hstep : ∀ {s s' a t}, Rel s s' → step s a = some t → ∃ b t', Same a b ∧ step' s' b = some t' ∧ Rel t t')
    {s' : τ} (hs : Rel s s') (hrun : runActions step s as = some t) :
    ∃ bs t', List.Forall₂ Same as bs ∧ runActions step' s' bs = some t' ∧ Rel t t' := by
  induction as generalizing s s' with
  | nil =>
    cases hrun
    exact ⟨[], s', List.Forall₂.nil, rfl, hs⟩
  | cons a as ih =>
    obtain ⟨u, hu, hrest⟩ := Option.bind_eq_some_iff.1 hrun
    obtain ⟨b, u', hsame, hstep', hrel⟩ := hstep hs hu
    obtain ⟨bs, t', hsames, hrun', hrel'⟩ := ih hrel hrest
    exact ⟨b :: bs, t', List.Forall₂.cons hsame hsames, by simp [runActions, hstep', hrun'], hrel'⟩

/-- Each event was added by a step from a state with the invariant. -/
def Fired (step : σ → α → Option σ) (Inv : σ → Prop) (trace : σ → List ε) (t : σ) : Prop :=
  ∀ later event earlier, trace t = later ++ event :: earlier →
    ∃ u a v, Inv u ∧ step u a = some v ∧ trace u = earlier ∧ trace v = event :: earlier

/-- The step that added an event, and the state before it. -/
theorem exists_step_of_event {Inv : σ → Prop} {trace : σ → List ε}
    (hstep : ∀ {s a t}, Inv s → step s a = some t → Inv t)
    (hgrow : ∀ {s a t}, Inv s → step s a = some t → trace t = trace s ∨ ∃ event, trace t = event :: trace s)
    (hs : Inv s) (hempty : trace s = []) (hrun : runActions step s as = some t) {later earlier : List ε} {event : ε}
    (htrace : trace t = later ++ event :: earlier) :
    ∃ u a v, Inv u ∧ step u a = some v ∧ trace u = earlier ∧ trace v = event :: earlier := by
  refine (runActions_invariant (fun t => Inv t ∧ Fired step Inv trace t) ?_ ⟨hs, ?_⟩ hrun).2 later event earlier htrace
  · rintro s a t ⟨hinv, hbefore⟩ hst
    refine ⟨hstep hinv hst, ?_⟩
    intro later event earlier htrace
    rcases hgrow hinv hst with hsame | ⟨new, hnew⟩
    · exact hbefore later event earlier (hsame ▸ htrace)
    · cases later with
      | nil =>
        rw [List.nil_append] at htrace
        have hearlier : trace s = earlier := (List.cons.inj (hnew.symm.trans htrace)).2
        exact ⟨s, a, t, hinv, hst, hearlier, htrace⟩
      | cons last later =>
        exact hbefore later event earlier (List.cons.inj (hnew.symm.trans htrace)).2
  · intro later event earlier htrace
    simp [hempty] at htrace

end CodeStudy
