import CodeStudy.Base.Slice
import CodeStudy.Base.View

/-!
# Writes into a block

A write inside a block replaces the bytes that stand there, and the block keeps its size. A write that
leaves the block has no defined behaviour.
-/

namespace CodeStudy

/-- Write bytes over a block. -/
def store (block : Bytes) (position : Nat) (bytes : Bytes) : Except Fault Bytes :=
  if position + bytes.length ≤ block.length then .ok (memcpy block position bytes) else .error .undefined

section

variable {block block' bytes : Bytes} {position : Nat}

theorem store_of_le (h : position + bytes.length ≤ block.length) :
    store block position bytes = .ok (memcpy block position bytes) := if_pos h

theorem store_of_lt (h : block.length < position + bytes.length) :
    store block position bytes = .error .undefined := if_neg (not_le.mpr h)

theorem le_of_store (h : store block position bytes = .ok block') : position + bytes.length ≤ block.length := by
  rw [store] at h
  split_ifs at h with hle
  exact hle

theorem length_store (h : store block position bytes = .ok block') : block'.length = block.length := by
  have hle := le_of_store h
  rw [store_of_le hle, Except.ok.injEq] at h
  rw [← h, length_memcpy hle]

/-- The bytes that stand there are replaced. -/
theorem store_eq {pre old post : Bytes} (hblock : block = pre ++ (old ++ post)) (hpre : pre.length = position)
    (hold : old.length = bytes.length) : store block position bytes = .ok (pre ++ (bytes ++ post)) := by
  have hle : position + bytes.length ≤ block.length := by
    rw [hblock, List.length_append, List.length_append]
    omega
  rw [store_of_le hle, hblock, memcpy_eq hpre hold]

end

/-- A block of a given size in two pieces. -/
theorem exists_append_of_length {b : Bytes} {m n : Nat} (h : b.length = m + n) :
    ∃ x y, b = x ++ y ∧ x.length = m ∧ y.length = n :=
  ⟨b.take m, b.drop m, (List.take_append_drop m b).symm, by rw [List.length_take]; omega,
    by rw [List.length_drop]; omega⟩

end CodeStudy
