import Mathlib.Data.List.Basic

/-!
# Cutting a string at its separators

A string is cut at the first separator, which goes away, or it is cut at all of them. In the second case a
separator ends a piece, so nothing stands behind a last separator.
-/

namespace CodeStudy

section

variable {α : Type} [DecidableEq α]

/-- What stands before the first separator and what stands behind it, if there is one. -/
def cutAt (sep : α) : List α → List α × Option (List α)
  | [] => ([], none)
  | a :: s => if a = sep then ([], some s) else (a :: (cutAt sep s).1, (cutAt sep s).2)

/-- The pieces that the separators end, and what stands behind the last separator if anything does. -/
def pieces (sep : α) : List α → List (List α)
  | [] => []
  | a :: s =>
      if a = sep then [] :: pieces sep s
      else match pieces sep s with
        | [] => [[a]]
        | piece :: rest => (a :: piece) :: rest

variable {sep : α} {s : List α}

/-- What has no separator in it stays before the cut. -/
theorem cutAt_append (h : sep ∉ s) (rest : List α) :
    cutAt sep (s ++ rest) = (s ++ (cutAt sep rest).1, (cutAt sep rest).2) := by
  induction s with
  | nil => rfl
  | cons a s ih =>
      obtain ⟨hne, hnotMem⟩ := List.ne_and_not_mem_of_not_mem_cons h
      rw [List.cons_append, cutAt, if_neg (Ne.symm hne), ih hnotMem, List.cons_append]

theorem cutAt_of_notMem (h : sep ∉ s) : cutAt sep s = (s, none) := by
  have hcut := cutAt_append h []
  rwa [List.append_nil, cutAt, List.append_nil] at hcut

theorem cutAt_first (h : sep ∉ s) (rest : List α) : cutAt sep (s ++ sep :: rest) = (s, some rest) := by
  rw [cutAt_append h, cutAt, if_pos rfl, List.append_nil]

/-- Either there is no separator, or the string is cut at the first. -/
theorem cutAt_cases (sep : α) (s : List α) :
    sep ∉ s ∧ cutAt sep s = (s, none) ∨
      ∃ front back, sep ∉ front ∧ s = front ++ sep :: back ∧ cutAt sep s = (front, some back) := by
  by_cases h : sep ∈ s
  · obtain ⟨front, back, rfl, hnotMem⟩ := List.eq_append_cons_of_mem h
    exact .inr ⟨front, back, hnotMem, rfl, cutAt_first hnotMem back⟩
  · exact .inl ⟨h, cutAt_of_notMem h⟩

theorem length_lt_of_cutAt (sep : α) (hs : s ≠ []) : ((cutAt sep s).2.getD []).length < s.length := by
  rcases cutAt_cases sep s with ⟨-, heq⟩ | ⟨front, back, -, rfl, heq⟩
  · rw [heq]
    exact List.length_pos_iff.mpr hs
  · rw [heq, List.length_append, List.length_cons]
    show back.length < _
    omega

theorem pieces_append (h : sep ∉ s) (rest : List α) : pieces sep (s ++ sep :: rest) = s :: pieces sep rest := by
  induction s with
  | nil => exact if_pos rfl
  | cons a s ih =>
      obtain ⟨hne, hnotMem⟩ := List.ne_and_not_mem_of_not_mem_cons h
      rw [List.cons_append, pieces, if_neg (Ne.symm hne), ih hnotMem]

theorem pieces_of_notMem (h : sep ∉ s) (hs : s ≠ []) : pieces sep s = [s] := by
  induction s with
  | nil => exact absurd rfl hs
  | cons a s ih =>
      obtain ⟨hne, hnotMem⟩ := List.ne_and_not_mem_of_not_mem_cons h
      rw [pieces, if_neg (Ne.symm hne)]
      cases s with
      | nil => rfl
      | cons b s => rw [ih hnotMem (List.cons_ne_nil b s)]

theorem ne_nil_of_pieces {piece : List α} {rest : List (List α)} (h : pieces sep s = piece :: rest) : s ≠ [] := by
  rintro rfl
  cases h

/-- The first piece is what is cut off, and the others are those of the rest. -/
theorem pieces_eq (hs : s ≠ []) : pieces sep s = (cutAt sep s).1 :: pieces sep ((cutAt sep s).2.getD []) := by
  rcases cutAt_cases sep s with ⟨hnotMem, heq⟩ | ⟨front, back, hnotMem, rfl, heq⟩
  · rw [heq, pieces_of_notMem hnotMem hs]
    rfl
  · rw [heq, pieces_append hnotMem]
    rfl

end

end CodeStudy
