import CodeStudy.Base.Bytes

/-!
# CMAC

The message authentication code of RFC 4493 over a cipher on blocks of 128 bits. A block is a string
of bits, the first byte of a message being the first bits of its first block. The subkeys are the
cipher of the zero block, doubled once and twice in the field of 2 ^ 128 elements.
-/

namespace CodeStudy

/-! ### Bytes as strings of bits -/

/-- The bits of sixteen bytes, the first byte first. -/
def blockBits (b : Bytes) : BitVec 128 := BitVec.ofNat 128 (beNat b)

/-- The bytes of a block. -/
def bitsBlock (x : BitVec 128) : Block 16 := ⟨beBytes 16 x.toNat, length_beBytes _ _⟩

theorem two_pow_128 : 256 ^ 16 = 2 ^ 128 := by norm_num

theorem toNat_blockBits {b : Bytes} (h : b.length = 16) : (blockBits b).toNat = beNat b := by
  have hlt := beNat_lt b
  rw [h, two_pow_128] at hlt
  rw [blockBits, BitVec.toNat_ofNat, Nat.mod_eq_of_lt hlt]

theorem bitsBlock_blockBits (b : Block 16) : bitsBlock (blockBits b.1) = b := by
  apply Subtype.ext
  have hbytes := beBytes_beNat b.1
  rw [b.2] at hbytes
  have hbits : (bitsBlock (blockBits b.1)).1 = beBytes 16 (blockBits b.1).toNat := rfl
  rw [hbits, toNat_blockBits b.2, hbytes]

/-! ### Adding and shifting bytes -/

theorem xor_byte_add (a b : UInt8) (m n : Nat) :
    (a.toNat + 256 * m) ^^^ (b.toNat + 256 * n) = (a ^^^ b).toNat + 256 * (m ^^^ n) := by
  apply Nat.eq_of_testBit_eq
  intro i
  have ha : a.toNat < 2 ^ 8 := a.toNat_lt
  have hb : b.toNat < 2 ^ 8 := b.toNat_lt
  have hab : (a ^^^ b).toNat < 2 ^ 8 := (a ^^^ b).toNat_lt
  rw [Nat.testBit_xor, Nat.add_comm a.toNat, Nat.add_comm b.toNat, Nat.add_comm (a ^^^ b).toNat,
    show 256 = 2 ^ 8 from rfl, Nat.testBit_two_pow_mul_add _ ha, Nat.testBit_two_pow_mul_add _ hb,
    Nat.testBit_two_pow_mul_add _ hab]
  split_ifs
  · rw [UInt8.toNat_xor, Nat.testBit_xor]
  · rw [Nat.testBit_xor]

theorem leNat_zipWith_xor {as bs : Bytes} (h : as.length = bs.length) :
    leNat (List.zipWith (· ^^^ ·) as bs) = leNat as ^^^ leNat bs := by
  induction as generalizing bs with
  | nil =>
      rw [List.length_nil] at h
      rw [List.length_eq_zero_iff.mp h.symm]
      rfl
  | cons a as ih =>
      cases bs with
      | nil => cases h
      | cons b bs =>
          rw [List.zipWith_cons_cons, leNat, leNat, leNat, ih (Nat.succ.inj h), xor_byte_add]

theorem blockBits_zipWith_xor {as bs : Bytes} (has : as.length = 16) (hbs : bs.length = 16) :
    blockBits (List.zipWith (· ^^^ ·) as bs) = blockBits as ^^^ blockBits bs := by
  have hlen : (List.zipWith (· ^^^ ·) as bs).length = 16 := by
    rw [List.length_zipWith, has, hbs, Nat.min_self]
  apply BitVec.eq_of_toNat_eq
  rw [BitVec.toNat_xor, toNat_blockBits hlen, toNat_blockBits has, toNat_blockBits hbs, beNat, beNat, beNat,
    List.reverse_zipWith (has.trans hbs.symm), leNat_zipWith_xor]
  rw [List.length_reverse, List.length_reverse, has, hbs]

/-! ### The code -/

namespace Cmac

/-- The number of bytes in a block. -/
abbrev blockSize : Nat := 16

/-- What is added when a bit is shifted out. -/
def constRb : BitVec 128 := 0x87

/-- A one-bit shift to the left, reduced. -/
def double (x : BitVec 128) : BitVec 128 := if x.msb then (x <<< 1) ^^^ constRb else x <<< 1

/-- A partial block, filled up with one 1 and then zeros. -/
def padding (b : Bytes) : Bytes := b ++ 0x80 :: List.replicate (blockSize - (b.length + 1)) 0

/-- The block at an index of a message; the last one may be partial. -/
def blockAt (message : Bytes) (i : Nat) : Bytes := (message.drop (blockSize * i)).take blockSize

/-- The number of blocks. A message without bytes has one, which is partial. -/
def blockCount (message : Bytes) : Nat := if message = [] then 1 else (message.length + 15) / blockSize

section

variable (cipher : BitVec 128 → BitVec 128)

def subkey1 : BitVec 128 := double (cipher 0)

def subkey2 : BitVec 128 := double (subkey1 cipher)

/-- The last block, complete or filled up, under the subkey that tells which. -/
def lastBlock (message : Bytes) : BitVec 128 :=
  let last := blockAt message (blockCount message - 1)
  if message ≠ [] ∧ message.length % blockSize = 0 then blockBits last ^^^ subkey1 cipher
  else blockBits (padding last) ^^^ subkey2 cipher

/-- The chaining value before a block. -/
def chain (message : Bytes) : Nat → BitVec 128
  | 0 => 0
  | i + 1 => cipher (chain message i ^^^ blockBits (blockAt message i))

def mac (message : Bytes) : BitVec 128 :=
  cipher (lastBlock cipher message ^^^ chain cipher message (blockCount message - 1))

end

end Cmac

end CodeStudy
