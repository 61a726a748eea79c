import CodeStudy.Base.Slice

/-!
# Offsets of 32 bits

The encoders and decoders of remote procedure calls and of extended attributes move through their
buffers with unsigned offsets of 32 bits, which they round up to multiples of four.
-/

namespace CodeStudy.Samba

def add32 (a b : Nat) : Nat := (a + b) % 2 ^ 32

def sub32 (a b : Nat) : Nat := (a + (2 ^ 32 - b % 2 ^ 32)) % 2 ^ 32

/-- The next offset that is a multiple of four. -/
def align4 (offset : Nat) : Nat := if offset % 4 ≠ 0 then add32 offset (4 - offset % 4) else offset

/-- The little-endian words of four bytes in a buffer. -/
def word (b : Bytes) (i : Nat) : Nat := leNat (slice b (4 * i) 4)

theorem add32_eq {a b : Nat} (h : a + b < 2 ^ 32) : add32 a b = a + b := Nat.mod_eq_of_lt h

theorem align4_eq {n : Nat} (h : n % 4 = 0) : align4 n = n := if_neg (by omega)

theorem align4_aligned {n : Nat} (h : n < 2 ^ 32) : align4 n % 4 = 0 ∧ align4 n < 2 ^ 32 := by
  rw [align4, add32]
  split_ifs <;> omega

/-- An offset near the end of the address range is rounded up to zero. -/
theorem align4_cases {n : Nat} (h : n < 2 ^ 32) :
    (n ≤ align4 n ∧ align4 n < n + 4) ∨ (align4 n = 0 ∧ 2 ^ 32 < n + 4) := by
  rw [align4, add32]
  split_ifs <;> omega

theorem sub32_eq {a b : Nat} (h : b ≤ a) (ha : a < 2 ^ 32) : sub32 a b = a - b := by
  have hb : b % 2 ^ 32 = b := Nat.mod_eq_of_lt (by omega)
  have hsum : a + (2 ^ 32 - b) = a - b + 2 ^ 32 := by omega
  rw [sub32, hb, hsum, Nat.add_mod_right, Nat.mod_eq_of_lt (by omega)]

/-- Whole words in front of an offset do not change its padding. -/
theorem align4_add32 {k n m : Nat} (hk : k % 4 = 0) (hm : align4 n = m) (h : k + m < 2 ^ 32) :
    align4 (add32 k n) = k + m := by
  have hmod : add32 k n % 4 = n % 4 := by
    rw [add32]
    omega
  rw [align4, hmod]
  by_cases hn : n % 4 ≠ 0
  · rw [align4, if_pos hn, add32] at hm
    rw [if_pos hn, add32, add32]
    omega
  · rw [align4, if_neg hn] at hm
    rw [if_neg hn, hm, add32_eq h]

end CodeStudy.Samba
