import CodeStudy.Base.Slice
import CodeStudy.Samba.Protocol

/-!
# Reading the fields that were written

A field of an io vector holds the value last written to it. Fields that do not overlap do not
disturb each other.
-/

namespace CodeStudy.Samba

variable {width width' offset offset' value : Nat} {iov : Bytes}

theorem setField_eq (h : offset + width ≤ iov.length) :
    setField width iov offset value = memcpy iov offset (leBytes width value) := by
  rw [setField, if_neg (by omega)]

theorem getField_eq (h : offset + width ≤ iov.length) :
    getField width iov offset = some (leNat (slice iov offset width)) := by
  rw [getField, if_neg (by omega), slice]

theorem slice_setField_of_disjoint {n : Nat}
    (hdisjoint : offset' + n ≤ offset ∨ offset + width ≤ offset') :
    slice (setField width iov offset value) offset' n = slice iov offset' n := by
  by_cases h : offset + width ≤ iov.length
  · rw [setField_eq h]
    refine slice_memcpy_of_disjoint ?_ ?_
    · rw [length_leBytes]
      exact h
    · rw [length_leBytes]
      exact hdisjoint
  · rw [setField, if_pos (by omega)]

theorem slice_setField_self (h : offset + width ≤ iov.length) :
    slice (setField width iov offset value) offset width = leBytes width value := by
  have hcopied := @slice_memcpy_self iov (leBytes width value) offset (by rw [length_leBytes]; exact h)
  rw [length_leBytes] at hcopied
  rw [setField_eq h]
  exact hcopied

/-- The value last written. -/
theorem getField_setField (h : offset + width ≤ iov.length) :
    getField width (setField width iov offset value) offset = some (value % 256 ^ width) := by
  rw [getField_eq (by rw [length_setField]; exact h), slice_setField_self h, leNat_leBytes]

/-- A field written elsewhere. -/
theorem getField_setField_of_disjoint
    (hdisjoint : offset' + width' ≤ offset ∨ offset + width ≤ offset') :
    getField width' (setField width iov offset value) offset' = getField width' iov offset' := by
  rw [getField, getField, length_setField]
  split_ifs
  · rfl
  · rw [← slice, ← slice, slice_setField_of_disjoint hdisjoint]

/-- A field of what was allocated and zeroed. -/
theorem getField_replicate {n : Nat} (h : offset + width ≤ n) :
    getField width (List.replicate n 0) offset = some 0 := by
  have hzero (m : Nat) : leNat (List.replicate m 0) = 0 := by
    induction m with
    | zero => rfl
    | succ m ih => rw [List.replicate_succ, leNat, ih]; rfl
  rw [getField, if_neg (by rw [List.length_replicate]; omega), List.drop_replicate, List.take_replicate,
    hzero]

/-- A field of an io vector, in a message that has the vector in it. -/
theorem getField_append (before after : Bytes) (h : getField width iov offset = some value) :
    getField width (before ++ (iov ++ after)) (before.length + offset) = some value := by
  rw [getField] at h
  split_ifs at h with hlt
  rw [getField_eq (by simp only [List.length_append]; omega), slice, List.drop_length_add_append,
    ← slice, slice_append_left (by omega), slice]
  exact h

theorem getField_append_left (h : offset + width ≤ iov.length) (after : Bytes) :
    getField width (iov ++ after) offset = getField width iov offset := by
  rw [getField_eq (by rw [List.length_append]; omega), getField_eq h, slice_append_left h]

theorem getField_append_right (before : Bytes) :
    getField width (before ++ iov) (before.length + offset) = getField width iov offset := by
  rw [getField, getField, List.drop_length_add_append, List.length_append]
  simp only [Nat.add_assoc, gt_iff_lt, Nat.add_lt_add_iff_left]

theorem getField_smb2SetUint16 {offset : Nat} (h : offset + 2 ≤ iov.length) (value : UInt16) :
    getField 2 (smb2SetUint16 iov offset value) offset = some value.toNat := by
  have hlt : value.toNat < 256 ^ 2 := value.toNat_lt
  rw [smb2SetUint16, getField_setField h, Nat.mod_eq_of_lt hlt]

theorem getField_smb2SetUint32 {offset : Nat} (h : offset + 4 ≤ iov.length) (value : UInt32) :
    getField 4 (smb2SetUint32 iov offset value) offset = some value.toNat := by
  have hlt : value.toNat < 256 ^ 4 := value.toNat_lt
  rw [smb2SetUint32, getField_setField h, Nat.mod_eq_of_lt hlt]

theorem smb2GetUint64_smb2SetUint64 {offset : Nat} (h : offset + 8 ≤ iov.length) (value default : UInt64) :
    smb2GetUint64 (smb2SetUint64 iov offset value) offset default = value := by
  have hlt : value.toNat < 256 ^ 8 := value.toNat_lt
  rw [smb2GetUint64, smb2SetUint64, getField_setField h, Option.elim_some, Nat.mod_eq_of_lt hlt,
    UInt64.ofNat_toNat]

theorem smb2GetUint64_smb2SetUint64_of_disjoint (hdisjoint : offset' + 8 ≤ offset ∨ offset + 8 ≤ offset')
    (value default : UInt64) :
    smb2GetUint64 (smb2SetUint64 iov offset value) offset' default = smb2GetUint64 iov offset' default := by
  rw [smb2GetUint64, smb2GetUint64, smb2SetUint64, getField_setField_of_disjoint hdisjoint]

end CodeStudy.Samba
