import CodeStudy.Base.Bytes

/-!
# What stands where in a buffer

A buffer that is filled by copying pieces over it holds, at every place, the last piece that was
copied there. Two rules say so for the bytes at an offset: they are the piece just copied, or they
are what they were before a copy that is elsewhere.
-/

namespace CodeStudy

/-- The bytes of a buffer from an offset on, at most so many. -/
def slice (b : Bytes) (offset n : Nat) : Bytes := (b.drop offset).take n

theorem getElem?_slice (b : Bytes) (offset n i : Nat) :
    (slice b offset n)[i]? = if i < n then b[offset + i]? else none := by
  rw [slice, List.getElem?_take, List.getElem?_drop]

theorem length_slice {b : Bytes} {offset n : Nat} (h : offset + n ≤ b.length) : (slice b offset n).length = n := by
  rw [slice, List.length_take, List.length_drop]
  omega

theorem slice_add (b : Bytes) (offset m n : Nat) :
    slice b offset (m + n) = slice b offset m ++ slice b (offset + m) n := by
  rw [slice, slice, slice, List.take_add, List.drop_drop]

/-- A piece of a piece. -/
theorem slice_slice {b : Bytes} {offset m i n : Nat} (h : i + n ≤ m) :
    slice (slice b offset m) i n = slice b (offset + i) n := by
  rw [slice, slice, slice, List.drop_take, List.take_take, List.drop_drop, Nat.min_eq_left (by omega)]

theorem leNat_slice_lt {b : Bytes} {width : Nat} (offset : Nat) : leNat (slice b offset width) < 256 ^ width := by
  refine (leNat_lt _).trans_le (Nat.pow_le_pow_right (by decide) ?_)
  rw [slice]
  exact List.length_take_le _ _

/-- What stands in the first of two buffers. -/
theorem slice_append_left {b rest : Bytes} {offset n : Nat} (h : offset + n ≤ b.length) :
    slice (b ++ rest) offset n = slice b offset n := by
  rw [slice, slice, List.drop_append_of_le_length (by omega),
    List.take_append_of_le_length (by rw [List.length_drop]; omega)]

/-- What stands between two buffers. -/
theorem slice_append_middle (pre b post : Bytes) : slice (pre ++ b ++ post) pre.length b.length = b := by
  rw [slice, List.append_assoc, List.drop_left, List.take_left]

theorem getElem?_memcpy {dst src : Bytes} {position : Nat} (h : position + src.length ≤ dst.length) (i : Nat) :
    (memcpy dst position src)[i]? =
      if position ≤ i ∧ i < position + src.length then src[i - position]? else dst[i]? := by
  have htake : (dst.take position).length = position := by
    rw [List.length_take]
    omega
  rw [memcpy, List.append_assoc, List.getElem?_append, htake]
  by_cases hbefore : i < position
  · rw [if_pos hbefore, if_neg (by omega), List.getElem?_take, if_pos hbefore]
  · rw [if_neg hbefore, List.getElem?_append]
    by_cases hinside : i - position < src.length
    · rw [if_pos hinside, if_pos (by omega)]
    · rw [if_neg hinside, if_neg (by omega), List.getElem?_drop]
      congr 1
      omega

/-- A copy into the first of two buffers. -/
theorem memcpy_append_left {dst src : Bytes} {position : Nat} (h : position + src.length ≤ dst.length)
    (rest : Bytes) : memcpy (dst ++ rest) position src = memcpy dst position src ++ rest := by
  rw [memcpy, memcpy, List.take_append_of_le_length (by omega), List.drop_append_of_le_length h,
    List.append_assoc, List.append_assoc, List.append_assoc]

/-- A copy over a piece of its size. -/
theorem memcpy_eq {pre old post src : Bytes} {position : Nat} (hpre : pre.length = position)
    (hold : old.length = src.length) : memcpy (pre ++ (old ++ post)) position src = pre ++ (src ++ post) := by
  have hdrop : (pre ++ old ++ post).drop (pre.length + src.length) = post := by
    rw [← hold, ← List.length_append, List.drop_left]
  rw [memcpy, ← hpre, List.take_left, ← List.append_assoc pre old post, hdrop, List.append_assoc]

/-- The piece that was copied. -/
theorem slice_memcpy_self {dst src : Bytes} {position : Nat} (h : position + src.length ≤ dst.length) :
    slice (memcpy dst position src) position src.length = src := by
  ext i : 1
  rw [getElem?_slice, getElem?_memcpy h]
  by_cases hi : i < src.length
  · rw [if_pos hi, if_pos (by omega), Nat.add_sub_cancel_left]
  · rw [if_neg hi, List.getElem?_eq_none (by omega)]

/-- What a copy elsewhere leaves. -/
theorem slice_memcpy_of_disjoint {dst src : Bytes} {position offset n : Nat}
    (h : position + src.length ≤ dst.length)
    (hdisjoint : offset + n ≤ position ∨ position + src.length ≤ offset) :
    slice (memcpy dst position src) offset n = slice dst offset n := by
  ext i : 1
  rw [getElem?_slice, getElem?_slice, getElem?_memcpy h]
  by_cases hi : i < n
  · rw [if_pos hi, if_pos hi, if_neg (by omega)]
  · rw [if_neg hi, if_neg hi]

/-- Copying back what stands there. -/
theorem memcpy_slice {b : Bytes} {position n : Nat} (h : position + n ≤ b.length) :
    memcpy b position (slice b position n) = b := by
  ext i : 1
  have hlength := length_slice h
  rw [getElem?_memcpy (by omega), getElem?_slice]
  by_cases hi : position ≤ i ∧ i < position + n
  · rw [if_pos (by omega), if_pos (by omega), Nat.add_sub_cancel' hi.1]
  · rw [if_neg (by omega)]

/-- Copying over a piece of the same size. -/
theorem memcpy_memcpy_self {dst src src' : Bytes} {position : Nat} (h : position + src.length ≤ dst.length)
    (hsize : src'.length = src.length) : memcpy (memcpy dst position src) position src' = memcpy dst position src' := by
  ext i : 1
  rw [getElem?_memcpy (by rw [length_memcpy h]; omega), getElem?_memcpy h, getElem?_memcpy (by omega), hsize]
  by_cases hi : position ≤ i ∧ i < position + src.length
  · rw [if_pos hi, if_pos hi]
  · rw [if_neg hi, if_neg hi, if_neg hi]

end CodeStudy
