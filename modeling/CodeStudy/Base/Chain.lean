import CodeStudy.Base.Loop
import Mathlib.Algebra.BigOperators.Group.List.Basic
import Mathlib.Data.Fintype.Pigeonhole

/-!
# Loops that follow offsets

Entries of a buffer are linked by their distances: an entry says how far it is to the next one, and
the last entry says zero. A loop over them adds the distances up in the number type of the program,
where a sum can come back to where it was. The loop returns unless it does.
-/

namespace CodeStudy

namespace Step

section

variable {σ ρ : Type} {step : σ → Step σ ρ}

/-- The loop comes to its end. -/
def Returns (step : σ → Step σ ρ) (s : σ) : Prop := ∃ fuel r, iterate step fuel s = some r

/-- Fuel runs out in the state after as many jumps. -/
theorem iterate_eq_none_iff {n : Nat} {s : σ} :
    iterate step n s = none ↔ ∃ s', after step n s = some s' := by
  induction n generalizing s with
  | zero => exact iff_of_true rfl ⟨s, rfl⟩
  | succ n ih =>
      rw [iterate, after]
      cases step s with
      | next s₁ => exact ih
      | done r =>
          refine iff_of_false (fun h => ?_) (fun h => ?_)
          · cases h
          · obtain ⟨s', h⟩ := h
            cases h

theorem after_add (m n : Nat) (s : σ) : after step (m + n) s = (after step m s).bind (after step n) := by
  induction m generalizing s with
  | zero => rw [Nat.zero_add, after, Option.bind_some]
  | succ m ih =>
      rw [Nat.add_right_comm, after, after]
      cases step s with
      | next s₁ => exact ih s₁
      | done r => rfl

/-- A loop that makes any number of jumps never returns. -/
theorem not_returns_of_after {s : σ} (h : ∀ n, ∃ m s', n ≤ m ∧ after step m s = some s') : ¬ Returns step s := by
  rintro ⟨fuel, r, hr⟩
  obtain ⟨m, s', hle, hm⟩ := h fuel
  obtain ⟨k, rfl⟩ := Nat.exists_eq_add_of_le hle
  rw [after_add] at hm
  obtain ⟨s₁, hs₁, -⟩ := Option.bind_eq_some_iff.mp hm
  rw [iterate_eq_none_iff.mpr ⟨s₁, hs₁⟩] at hr
  cases hr

/-- A loop whose states are all different in what decides about a jump, and that jumps only where
this is below a bound, returns. -/
theorem iterate_isSome_of_distinct {key : σ → Nat} {bound : Nat} {s : σ}
    (hkey : ∀ s₁ s₂, step s₁ = .next s₂ → key s₁ < bound)
    (hdistinct : ∀ i k s₁ s₂, after step i s = some s₁ → after step (k + 1) s₁ = some s₂ → key s₁ ≠ key s₂) :
    (iterate step (bound + 1) s).isSome := by
  by_contra hnone
  rw [Option.not_isSome_iff_eq_none, iterate_eq_none_iff] at hnone
  obtain ⟨last, hlast⟩ := hnone
  -- the states before the last one, with the jump that each of them makes
  have hstate (i : Fin (bound + 1)) : ∃ s₁ s₂, after step i s = some s₁ ∧ step s₁ = .next s₂ := by
    obtain ⟨k, hk⟩ := Nat.exists_eq_add_of_lt i.isLt
    rw [hk, Nat.add_assoc, after_add] at hlast
    obtain ⟨s₁, hs₁, hrest⟩ := Option.bind_eq_some_iff.mp hlast
    rw [after] at hrest
    cases hjump : step s₁ with
    | next s₂ => exact ⟨s₁, s₂, hs₁, hjump⟩
    | done r =>
        simp only [hjump] at hrest
        cases hrest
  choose state jump hafter hjump using hstate
  have hcard : Fintype.card (Fin bound) < Fintype.card (Fin (bound + 1)) := by
    rw [Fintype.card_fin, Fintype.card_fin]
    exact Nat.lt_succ_self bound
  obtain ⟨i, j, hne, hsame⟩ := Fintype.exists_ne_map_eq_of_card_lt
    (fun i => (⟨key (state i), hkey _ _ (hjump i)⟩ : Fin bound)) hcard
  have hsame' : key (state i) = key (state j) := Fin.mk.inj hsame
  have hlt (i j : Fin (bound + 1)) (hij : i < j) : key (state i) ≠ key (state j) := by
    obtain ⟨k, hk⟩ := Nat.exists_eq_add_of_lt (Fin.lt_def.mp hij)
    have hj := hafter j
    rw [hk, Nat.add_assoc, after_add, hafter i, Option.bind_some] at hj
    exact hdistinct i k _ _ (hafter i) hj
  obtain hij | hji := lt_or_gt_of_ne hne
  · exact hlt i j hij hsame'
  · exact hlt j i hji hsame'.symm

end

/-! ### Links -/

section

variable {α σ ρ : Type} [AddGroup α] {link : α → Option α}

/-- The distances of entries that follow one another, the first of them at an offset. -/
def Links (link : α → Option α) : α → List α → Prop
  | _, [] => True
  | offset, d :: ds => link offset = some d ∧ d ≠ 0 ∧ Links link (offset + d) ds

theorem links_append {offset : α} {ds ds' : List α} :
    Links link offset (ds ++ ds') ↔ Links link offset ds ∧ Links link (offset + ds.sum) ds' := by
  induction ds generalizing offset with
  | nil => rw [List.nil_append, List.sum_nil, add_zero, Links, true_and]
  | cons d ds ih => rw [List.cons_append, Links, Links, ih, List.sum_cons, add_assoc, and_assoc, and_assoc]

/-- Some of the entries that follow one another from the beginning lead back to the first of them. -/
def Cyclic (link : α → Option α) : Prop := ∃ pre ds, ds ≠ [] ∧ Links link 0 (pre ++ ds) ∧ ds.sum = 0

/-- The entries of a cycle can be followed any number of times. -/
theorem links_replicate {offset : α} {ds : List α} (h : Links link offset ds) (hsum : ds.sum = 0) (n : Nat) :
    Links link offset (List.replicate n ds).flatten := by
  induction n with
  | zero => trivial
  | succ n ih =>
      rw [List.replicate_succ, List.flatten_cons, links_append, hsum, add_zero]
      exact ⟨h, ih⟩

/-- A loop jumps from entry to entry. -/
structure Follows (step : α × σ → Step (α × σ) ρ) (link : α → Option α) : Prop where
  sound : ∀ offset s offset' s', step (offset, s) = .next (offset', s') →
    ∃ d, link offset = some d ∧ d ≠ 0 ∧ offset' = offset + d

/-- And it jumps wherever there is a next entry. -/
structure FollowsAll (step : α × σ → Step (α × σ) ρ) (link : α → Option α) : Prop extends Follows step link where
  complete : ∀ offset s d, link offset = some d → d ≠ 0 → ∃ s', step (offset, s) = .next (offset + d, s')

variable {step : α × σ → Step (α × σ) ρ}

theorem Follows.links_of_after (h : Follows step link) {n : Nat} {offset offset' : α} {s s' : σ}
    (hafter : after step n (offset, s) = some (offset', s')) :
    ∃ ds, ds.length = n ∧ Links link offset ds ∧ offset' = offset + ds.sum := by
  induction n generalizing offset s with
  | zero =>
      cases hafter
      exact ⟨[], rfl, trivial, (add_zero _).symm⟩
  | succ n ih =>
      rw [after] at hafter
      cases hjump : step (offset, s) with
      | done r =>
          simp only [hjump] at hafter
          cases hafter
      | next state =>
          obtain ⟨offset₁, s₁⟩ := state
          simp only [hjump] at hafter
          obtain ⟨d, hd, hne, rfl⟩ := h.sound _ _ _ _ hjump
          obtain ⟨ds, hlength, hlinks, rfl⟩ := ih hafter
          refine ⟨d :: ds, ?_, ⟨hd, hne, hlinks⟩, ?_⟩
          · rw [List.length_cons, hlength]
          · rw [List.sum_cons, add_assoc]

theorem FollowsAll.after_of_links (h : FollowsAll step link) {offset : α} {ds : List α}
    (hlinks : Links link offset ds) (s : σ) : ∃ s', after step ds.length (offset, s) = some (offset + ds.sum, s') := by
  induction ds generalizing offset s with
  | nil =>
      rw [List.sum_nil, add_zero]
      exact ⟨s, rfl⟩
  | cons d ds ih =>
      obtain ⟨hd, hne, hlinks⟩ := hlinks
      obtain ⟨s₁, hjump⟩ := h.complete _ s _ hd hne
      obtain ⟨s', hafter⟩ := ih hlinks s₁
      refine ⟨s', ?_⟩
      rw [List.length_cons, after, List.sum_cons, ← add_assoc]
      simp only [hjump]
      exact hafter

/-- Without a cycle the loop returns, after no more entries than there are offsets. -/
theorem Follows.iterate_isSome (h : Follows step link) {key : α → Nat} (hinj : Function.Injective key) {bound : Nat}
    (hbound : ∀ offset d, link offset = some d → key offset < bound) (hacyclic : ¬ Cyclic link) (s : σ) :
    (iterate step (bound + 1) (0, s)).isSome := by
  apply @iterate_isSome_of_distinct _ _ _ (fun state => key state.1)
  · rintro ⟨offset, s₁⟩ ⟨offset', s₂⟩ hjump
    obtain ⟨d, hd, -⟩ := h.sound _ _ _ _ hjump
    exact hbound offset d hd
  · rintro i k ⟨offset, s₁⟩ ⟨offset', s₂⟩ hfirst hsecond hsame
    obtain ⟨pre, -, hpre, hoffset⟩ := h.links_of_after hfirst
    obtain ⟨ds, hlength, hds, hoffset'⟩ := h.links_of_after hsecond
    have hsum : ds.sum = 0 := by
      have hback : offset = offset' := hinj hsame
      rw [← hback] at hoffset'
      exact left_eq_add.mp hoffset'
    refine hacyclic ⟨pre, ds, ?_, ?_, hsum⟩
    · rintro rfl
      cases hlength
    · rw [links_append, ← hoffset]
      exact ⟨hpre, hds⟩

/-- A loop that follows every link does not return from a cycle. -/
theorem FollowsAll.not_returns (h : FollowsAll step link) (hcyclic : Cyclic link) (s : σ) :
    ¬ Returns step (0, s) := by
  obtain ⟨pre, ds, hne, hlinks, hsum⟩ := hcyclic
  obtain ⟨hpre, hds⟩ := links_append.mp hlinks
  apply not_returns_of_after
  intro n
  have hmany : Links link 0 (pre ++ (List.replicate n ds).flatten) :=
    links_append.mpr ⟨hpre, links_replicate hds hsum n⟩
  obtain ⟨s', hafter⟩ := h.after_of_links hmany s
  refine ⟨_, _, ?_, hafter⟩
  have hpos : 1 ≤ ds.length := List.length_pos_of_ne_nil hne
  rw [List.length_append, List.length_flatten, List.map_replicate, List.sum_replicate_nat]
  exact (Nat.le_mul_of_pos_right n hpos).trans (Nat.le_add_left _ _)

end

end Step

end CodeStudy
