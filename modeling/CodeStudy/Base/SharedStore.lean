import Mathlib.Logic.Function.Basic

/-!
# Values that are shared until they are written

Handles to values, with what a program does with them: it reads and writes through a handle, copies a handle and
drops it. A store is lawful if every handle behaves as a variable with a value of its own.
-/

namespace CodeStudy

/-- A write has a choice to make, and may be impossible with one of its outcomes. -/
structure SharedStore (σ H T : Type) where
  read : σ → H → Option T
  write : Bool → σ → H → T → Option σ
  copy : σ → H → H → Option σ
  drop : σ → H → Option σ

/-- Every handle has its own value, in the states that the operations lead to. -/
structure SharedStore.Lawful {σ H T : Type} (store : SharedStore σ H T) (ok : σ → Prop) : Prop where
  write : ∀ {choice s h value t}, ok s → store.write choice s h value = some t →
    ok t ∧ (store.read s h).isSome ∧ store.read t h = some value ∧ ∀ k ≠ h, store.read t k = store.read s k
  copy : ∀ {s h h' t}, ok s → store.copy s h h' = some t →
    ok t ∧ ((store.read s h).isSome ∧ store.read s h' = none) ∧ store.read t h' = store.read s h ∧
      ∀ k ≠ h', store.read t k = store.read s k
  drop : ∀ {s h t}, ok s → store.drop s h = some t →
    ok t ∧ (store.read s h).isSome ∧ store.read t h = none ∧ ∀ k ≠ h, store.read t k = store.read s k
  canWrite : ∀ {s h}, ok s → (store.read s h).isSome → ∀ value, ∃ choice, (store.write choice s h value).isSome
  canCopy : ∀ {s h h'}, ok s → (store.read s h).isSome → store.read s h' = none → (store.copy s h h').isSome
  canDrop : ∀ {s h}, ok s → (store.read s h).isSome → (store.drop s h).isSome

/-! ### Plain values -/

variable {H T : Type} [DecidableEq H]

/-- Every handle has its own copy. -/
def ownValues : SharedStore (H → Option T) H T where
  read s h := s h
  write _ s h value := if (s h).isSome then some (Function.update s h (some value)) else none
  copy s h h' := if (s h).isSome ∧ s h' = none then some (Function.update s h' (s h)) else none
  drop s h := if (s h).isSome then some (Function.update s h none) else none

/-! ### Runs -/

namespace SharedStore

inductive Op (H T : Type) where
  | write (choice : Bool) (h : H) (value : T)
  | copy (h h' : H)
  | drop (h : H)

variable {σ : Type} (store : SharedStore σ H T)

def step (s : σ) : Op H T → Option σ
  | .write choice h value => store.write choice s h value
  | .copy h h' => store.copy s h h'
  | .drop h => store.drop s h

def run (s : σ) : List (Op H T) → Option σ
  | [] => some s
  | op :: ops => (store.step s op).bind fun s => run s ops

variable {store} {ok : σ → Prop} {s t : σ}

/-- An operation does to the values that are read what it does to values of their own. -/
theorem Lawful.step_read (law : store.Lawful ok) (hok : ok s) {op : Op H T} (hstep : store.step s op = some t) :
    ok t ∧ ownValues.step (store.read s) op = some (store.read t) := by
  cases op with
  | write choice h value =>
    obtain ⟨hok, hsome, hself, hothers⟩ := law.write hok hstep
    refine ⟨hok, ?_⟩
    simp only [step, ownValues, if_pos hsome, Option.some.injEq]
    funext k
    by_cases hk : k = h
    · rw [hk, Function.update_self, hself]
    · rw [Function.update_of_ne hk, hothers k hk]
  | copy h h' =>
    obtain ⟨hok, hcan, hself, hothers⟩ := law.copy hok hstep
    refine ⟨hok, ?_⟩
    simp only [step, ownValues, if_pos hcan, Option.some.injEq]
    funext k
    by_cases hk : k = h'
    · rw [hk, Function.update_self, hself]
    · rw [Function.update_of_ne hk, hothers k hk]
  | drop h =>
    obtain ⟨hok, hsome, hself, hothers⟩ := law.drop hok hstep
    refine ⟨hok, ?_⟩
    simp only [step, ownValues, if_pos hsome, Option.some.injEq]
    funext k
    by_cases hk : k = h
    · rw [hk, Function.update_self, hself]
    · rw [Function.update_of_ne hk, hothers k hk]

theorem Lawful.run_read (law : store.Lawful ok) (hok : ok s) {ops : List (Op H T)} (hrun : store.run s ops = some t) :
    ok t ∧ ownValues.run (store.read s) ops = some (store.read t) := by
  induction ops generalizing s with
  | nil =>
    cases hrun
    exact ⟨hok, rfl⟩
  | cons op ops ih =>
    simp only [run, Option.bind_eq_some_iff] at hrun
    obtain ⟨u, hstep, hrest⟩ := hrun
    obtain ⟨hoku, hread⟩ := law.step_read hok hstep
    obtain ⟨hokt, hrun⟩ := ih hoku hrest
    exact ⟨hokt, by simp [run, hread, hrun]⟩

end SharedStore

end CodeStudy
