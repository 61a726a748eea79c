import Mathlib.Data.List.Basic
import Mathlib.Tactic.Ring

/-!
# Bytes and machine integers

Byte strings with the two byte orders, and the conversions a program makes between integer types of
different width and sign. A conversion to a signed type of `w` bits keeps the value modulo `2 ^ w`
and picks the representative nearest to zero, which is what the balanced remainder computes.
-/

namespace CodeStudy

abbrev Bytes := List UInt8

/-- A block of memory of a given size. -/
abbrev Block (n : Nat) := { b : Bytes // b.length = n }

/-! ### Byte order -/

/-- The number a little-endian byte string spells. -/
def leNat : Bytes → Nat
  | [] => 0
  | b :: bs => b.toNat + 256 * leNat bs

/-- The number a big-endian byte string spells. -/
def beNat (bs : Bytes) : Nat := leNat bs.reverse

theorem leNat_lt (bs : Bytes) : leNat bs < 256 ^ bs.length := by
  induction bs with
  | nil => simp [leNat]
  | cons b bs ih =>
      have hb := b.toNat_lt
      rw [leNat, List.length_cons, pow_succ]
      omega

/-- The `width` low bytes of a number, least significant first. -/
def leBytes : Nat → Nat → Bytes
  | 0, _ => []
  | width + 1, n => UInt8.ofNat n :: leBytes width (n / 256)

/-- The `width` low bytes of a number, most significant first. -/
def beBytes (width n : Nat) : Bytes := (leBytes width n).reverse

@[simp] theorem length_leBytes (width n : Nat) : (leBytes width n).length = width := by
  induction width generalizing n with
  | zero => rfl
  | succ width ih => rw [leBytes, List.length_cons, ih]

@[simp] theorem length_beBytes (width n : Nat) : (beBytes width n).length = width := by
  rw [beBytes, List.length_reverse, length_leBytes]

theorem leNat_leBytes (width n : Nat) : leNat (leBytes width n) = n % 256 ^ width := by
  induction width generalizing n with
  | zero => rw [leBytes, leNat, Nat.pow_zero, Nat.mod_one]
  | succ width ih =>
      rw [leBytes, leNat, ih, Nat.pow_succ', Nat.mod_mul]
      rfl

theorem leNat_leBytes_of_lt {width n : Nat} (h : n < 256 ^ width) : leNat (leBytes width n) = n := by
  rw [leNat_leBytes, Nat.mod_eq_of_lt h]

theorem leBytes_leNat (bs : Bytes) : leBytes bs.length (leNat bs) = bs := by
  induction bs with
  | nil => rfl
  | cons b bs ih =>
      have hb := b.toNat_lt
      have hdiv : (b.toNat + 256 * leNat bs) / 256 = leNat bs := by omega
      have hlow : UInt8.ofNat (b.toNat + 256 * leNat bs) = b := by
        rw [← UInt8.toNat_inj, UInt8.toNat_ofNat']
        omega
      rw [List.length_cons, leNat, leBytes, hdiv, hlow, ih]

theorem leNat_append (bs cs : Bytes) : leNat (bs ++ cs) = leNat bs + 256 ^ bs.length * leNat cs := by
  induction bs with
  | nil => simp [leNat]
  | cons b bs ih =>
      rw [List.cons_append, leNat, leNat, ih, List.length_cons, pow_succ]
      ring

/-- A little-endian number in two parts. -/
theorem leBytes_add (m n k : Nat) : leBytes (m + n) k = leBytes m k ++ leBytes n (k / 256 ^ m) := by
  induction m generalizing k with
  | zero => rw [Nat.zero_add, Nat.pow_zero, Nat.div_one, leBytes, List.nil_append]
  | succ m ih => rw [Nat.succ_add, leBytes, leBytes, ih, Nat.div_div_eq_div_mul, ← Nat.pow_succ', List.cons_append]

/-- The first byte is the most significant one. -/
theorem beNat_cons (b : UInt8) (bs : Bytes) : beNat (b :: bs) = 256 ^ bs.length * b.toNat + beNat bs := by
  rw [beNat, List.reverse_cons, leNat_append, List.length_reverse, leNat, leNat, beNat]
  ring

theorem beNat_lt (bs : Bytes) : beNat bs < 256 ^ bs.length := by
  have hlt := leNat_lt bs.reverse
  rw [List.length_reverse] at hlt
  exact hlt

theorem beBytes_beNat (bs : Bytes) : beBytes bs.length (beNat bs) = bs := by
  have hle := leBytes_leNat bs.reverse
  rw [List.length_reverse] at hle
  rw [beBytes, beNat, hle, List.reverse_reverse]

/-! ### Copying into a buffer -/

/-- The buffer after `src` was copied over it from position `at` on. -/
def memcpy (dst : Bytes) (position : Nat) (src : Bytes) : Bytes :=
  dst.take position ++ src ++ dst.drop (position + src.length)

theorem length_memcpy {dst src : Bytes} {position : Nat} (h : position + src.length ≤ dst.length) :
    (memcpy dst position src).length = dst.length := by
  simp only [memcpy, List.length_append, List.length_take, List.length_drop]
  omega

theorem take_memcpy {dst src : Bytes} {position : Nat} (h : position + src.length ≤ dst.length) :
    (memcpy dst position src).take (position + src.length) = dst.take position ++ src := by
  have hlen : (dst.take position ++ src).length = position + src.length := by
    simp only [List.length_append, List.length_take]
    omega
  rw [memcpy, List.take_append_of_le_length hlen.ge, ← hlen, List.take_length]

/-! ### Unsigned conversions -/

theorem toNat_ofNat_uint16 {n : Nat} (h : n < 2 ^ 16) : (UInt16.ofNat n).toNat = n :=
  UInt16.toNat_ofNat_of_lt' h

theorem toNat_ofNat_uint32 {n : Nat} (h : n < 2 ^ 32) : (UInt32.ofNat n).toNat = n :=
  UInt32.toNat_ofNat_of_lt' h

theorem toNat_ofNat_uint64 {n : Nat} (h : n < 2 ^ 64) : (UInt64.ofNat n).toNat = n :=
  UInt64.toNat_ofNat_of_lt' h

theorem uint64_ofInt_natCast (n : Nat) : UInt64.ofInt n = UInt64.ofNat n := by
  have h : ((n : Int) % 2 ^ 64).toNat = n % 2 ^ 64 := by omega
  rw [UInt64.ofInt, h, UInt64.ofNat_mod_size]

/-! ### Signed conversions -/

/-- Conversion to a 32-bit signed integer. -/
def toInt32 (x : Int) : Int := x.bmod (2 ^ 32)

/-- Conversion to a 64-bit signed integer. -/
def toInt64 (x : Int) : Int := x.bmod (2 ^ 64)

theorem toInt32_of_lt {x : Int} (h0 : 0 ≤ x) (h : x < 2 ^ 31) : toInt32 x = x := by
  rw [toInt32, Int.bmod_def]
  omega

theorem toInt32_neg {x : Int} (h0 : 2 ^ 31 ≤ x) (h : x < 2 ^ 32) : toInt32 x < 0 := by
  rw [toInt32, Int.bmod_def]
  omega

theorem toInt32_lt (x : Int) : toInt32 x < 2 ^ 31 := by
  rw [toInt32, Int.bmod_def]
  omega

end CodeStudy
