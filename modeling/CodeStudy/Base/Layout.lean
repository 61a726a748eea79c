import CodeStudy.Base.Slice

/-!
# Blocks with a layout

A block whose pieces have given sizes. Any block of the right size has such pieces. A copy over one of the
places puts another piece there, and what stands in a place is its piece.
-/

namespace CodeStudy

structure Layout (sizes : List Nat) (pieces : List Bytes) (block : Bytes) : Prop where
  sizes_eq : pieces.map List.length = sizes
  flatten_eq : pieces.flatten = block

namespace Layout

variable {sizes : List Nat} {pieces : List Bytes} {block src : Bytes} {i : Nat}

theorem exists_of_length (h : block.length = sizes.sum) : ∃ pieces, Layout sizes pieces block := by
  induction sizes generalizing block with
  | nil => exact ⟨[], rfl, (List.length_eq_zero_iff.mp h).symm⟩
  | cons size sizes ih =>
      rw [List.sum_cons] at h
      obtain ⟨pieces, hpieces⟩ := @ih (block.drop size) (by rw [List.length_drop]; omega)
      refine ⟨block.take size :: pieces, ?_, ?_⟩
      · rw [List.map_cons, hpieces.sizes_eq, List.length_take, Nat.min_eq_left (by omega)]
      · rw [List.flatten_cons, hpieces.flatten_eq, List.take_append_drop]

theorem length_pieces (l : Layout sizes pieces block) : pieces.length = sizes.length := by
  rw [← l.sizes_eq, List.length_map]

theorem length_eq (l : Layout sizes pieces block) : block.length = sizes.sum := by
  rw [← l.flatten_eq, List.length_flatten, l.sizes_eq]

/-- The pieces in front of a place. -/
theorem length_take (l : Layout sizes pieces block) (i : Nat) :
    (pieces.take i).flatten.length = (sizes.take i).sum := by
  rw [List.length_flatten, List.map_take, l.sizes_eq]

/-- A block at one of its places. -/
theorem block_eq (l : Layout sizes pieces block) {piece : Bytes} (h : pieces[i]? = some piece) :
    block = (pieces.take i).flatten ++ (piece ++ (pieces.drop (i + 1)).flatten) := by
  obtain ⟨hi, rfl⟩ := List.getElem?_eq_some_iff.mp h
  rw [← l.flatten_eq, ← List.flatten_cons, ← List.flatten_append, ← List.drop_eq_getElem_cons hi,
    List.take_append_drop]

theorem slice_eq (l : Layout sizes pieces block) {piece : Bytes} (h : pieces[i]? = some piece) :
    slice block (sizes.take i).sum piece.length = piece := by
  rw [slice, l.block_eq h, ← l.length_take i, List.drop_left, List.take_left]

/-- A place is inside the block. -/
theorem sum_take_le (l : Layout sizes pieces block) {size : Nat} (h : sizes[i]? = some size) :
    (sizes.take i).sum + size ≤ block.length := by
  obtain ⟨hi, rfl⟩ := List.getElem?_eq_some_iff.mp h
  have hsplit := congrArg List.sum (List.take_append_drop (i + 1) sizes)
  rw [List.sum_append, List.take_succ_eq_append_getElem hi, List.sum_append, List.sum_singleton] at hsplit
  rw [l.length_eq]
  omega

/-- A copy over a place. -/
theorem memcpy (l : Layout sizes pieces block) (h : sizes[i]? = some src.length) :
    Layout sizes (pieces.set i src) (memcpy block (sizes.take i).sum src) := by
  have hpiece : ∃ piece, pieces[i]? = some piece ∧ piece.length = src.length := by
    rw [← l.sizes_eq, List.getElem?_map, Option.map_eq_some_iff] at h
    exact h
  obtain ⟨piece, hpiece, hlength⟩ := hpiece
  have hi : i < pieces.length := (List.getElem?_eq_some_iff.mp hpiece).1
  obtain ⟨hlt, hsize⟩ := List.getElem?_eq_some_iff.mp h
  constructor
  · rw [List.map_set, l.sizes_eq, ← hsize, List.set_getElem_self]
  · rw [l.block_eq hpiece, memcpy_eq (l.length_take i) hlength, List.set_eq_take_append_cons_drop, if_pos hi,
      List.flatten_append, List.flatten_cons]

end Layout

end CodeStudy
