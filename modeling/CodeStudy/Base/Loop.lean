import Mathlib.Logic.Relation

/-!
# Loops as step functions

A loop whose body ends with a jump back or a return is a function from states to either the next
state or the result. Iterating it takes fuel; a measure that every jump decreases bounds the fuel
that is needed, and an invariant that every jump keeps gives the postcondition of every return.
-/

namespace CodeStudy

inductive Step (σ ρ : Type) where
  | next (state : σ)
  | done (result : ρ)

namespace Step

variable {σ ρ : Type}

def iterate (step : σ → Step σ ρ) : Nat → σ → Option ρ
  | 0, _ => none
  | fuel + 1, s =>
      match step s with
      | .next s' => iterate step fuel s'
      | .done r => some r

/-- The states the loop passes through. -/
def Reached (step : σ → Step σ ρ) : σ → σ → Prop :=
  Relation.ReflTransGen fun s s' => step s = .next s'

/-- The state after a number of jumps, when the loop makes that many. -/
def after (step : σ → Step σ ρ) : Nat → σ → Option σ
  | 0, s => some s
  | n + 1, s =>
      match step s with
      | .next s' => after step n s'
      | .done _ => none

variable {step : σ → Step σ ρ}

theorem reached_after {n : Nat} {s s' : σ} (h : after step n s = some s') : Reached step s s' := by
  induction n generalizing s with
  | zero =>
      cases h
      exact Relation.ReflTransGen.refl
  | succ n ih =>
      rw [after] at h
      cases hs : step s with
      | next s₁ =>
          simp only [hs] at h
          exact Relation.ReflTransGen.head hs (ih h)
      | done r => simp [hs] at h

theorem reached_invariant {Inv : σ → Prop}
    (hstep : ∀ s s', Inv s → step s = .next s' → Inv s') {s s' : σ} (hs : Inv s)
    (h : Reached step s s') : Inv s' := by
  induction h with
  | refl => exact hs
  | tail _ hlast ih => exact hstep _ _ ih hlast

/-- A result is returned by one of the states the loop passes through. -/
theorem iterate_reached {fuel : Nat} {s : σ} {r : ρ} (h : iterate step fuel s = some r) :
    ∃ s', Reached step s s' ∧ step s' = .done r := by
  induction fuel generalizing s with
  | zero => simp [iterate] at h
  | succ fuel ih =>
      rw [iterate] at h
      cases hs : step s with
      | next s₁ =>
          simp only [hs] at h
          obtain ⟨s', hreach, hdone⟩ := ih h
          exact ⟨s', Relation.ReflTransGen.head hs hreach, hdone⟩
      | done r' =>
          simp only [hs, Option.some.injEq] at h
          exact ⟨s, Relation.ReflTransGen.refl, h ▸ hs⟩

/-- Fuel above a measure that every jump decreases is enough. -/
theorem iterate_isSome {Inv : σ → Prop} {measure : σ → Nat}
    (hstep : ∀ s s', Inv s → step s = .next s' → Inv s' ∧ measure s' < measure s)
    {fuel : Nat} {s : σ} (hs : Inv s) (hfuel : measure s < fuel) :
    (iterate step fuel s).isSome := by
  induction fuel generalizing s with
  | zero => omega
  | succ fuel ih =>
      rw [iterate]
      cases hnext : step s with
      | next s' =>
          obtain ⟨hs', hlt⟩ := hstep s s' hs hnext
          exact ih hs' (by omega)
      | done r => rfl

end Step

end CodeStudy
