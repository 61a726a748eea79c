import CodeStudy.Base.Cmac
import CodeStudy.Base.View

/-!
# The CMAC of a message

The program computes the code that signs a message in two buffers of sixteen bytes: `mac` holds the
chaining value, and `scratch` what the cipher returned last, over which the last block is copied. A
message lies in memory, so the number of its blocks is computed without a wrap-around.
-/

namespace CodeStudy.Samba

abbrev aes128KeyLen : Nat := 16

/-! ### The program -/

/-- Shift a byte to the left, with the bit that enters it and the bit that leaves it. -/
def shiftByte (b : UInt8) (shifted : Bytes × UInt8) : Bytes × UInt8 :=
  (((b <<< 1) ||| shifted.2) :: shifted.1, (b &&& 0x80) >>> 7)

theorem length_shiftByte_foldr (data : Bytes) : (data.foldr shiftByte ([], 0)).1.length = data.length := by
  induction data with
  | nil => rfl
  | cons b data ih => rw [List.foldr_cons, shiftByte, List.length_cons, List.length_cons, ih]

/-- Shift from the last byte to the first, and return the bit that is left over. -/
def aesCmacShiftLeft (data : Block aes128KeyLen) : Block aes128KeyLen × UInt8 :=
  (⟨(data.1.foldr shiftByte ([], 0)).1, by rw [length_shiftByte_foldr, data.2]⟩,
    (data.1.foldr shiftByte ([], 0)).2)

def aesCmacXor (data value : Block aes128KeyLen) : Block aes128KeyLen :=
  ⟨List.zipWith (· ^^^ ·) data.1 value.1, by rw [List.length_zipWith, data.2, value.2, Nat.min_self]⟩

def zeroBlock : Block aes128KeyLen := ⟨List.replicate aes128KeyLen 0, List.length_replicate⟩

def rb : Block aes128KeyLen := ⟨List.replicate (aes128KeyLen - 1) 0 ++ [0x87], rfl⟩

def aesCmacDouble (data : Block aes128KeyLen) : Block aes128KeyLen :=
  let shifted := aesCmacShiftLeft data
  if shifted.2 ≠ 0 then aesCmacXor shifted.1 rb else shifted.1

/-- Copy bytes over a block. -/
def overwrite {n : Nat} (b : Block n) (position : Nat) (src : Bytes) : Except Fault (Block n) :=
  if h : position + src.length ≤ b.1.length then .ok ⟨memcpy b.1 position src, by rw [length_memcpy h, b.2]⟩
  else .error .undefined

/-- Copy a partial block, and fill it up. -/
def copyPadded (scratch : Block aes128KeyLen) (last : Bytes) : Except Fault (Block aes128KeyLen) := do
  let scratch ← overwrite scratch 0 last
  let scratch ← overwrite scratch last.length [0x80]
  overwrite scratch (last.length + 1) (List.replicate (aes128KeyLen - (last.length + 1)) 0)

section

-- The cipher, from the key and a block.
variable (aes : Block aes128KeyLen → Block aes128KeyLen → Block aes128KeyLen)

def aesCmacSubKeys (key : Block aes128KeyLen) : Block aes128KeyLen × Block aes128KeyLen :=
  let subKey1 := aesCmacDouble (aes key zeroBlock)
  (subKey1, aesCmacDouble subKey1)

/-- One round of the loop, from `mac` and `scratch`. -/
def aesCmacRound (key : Block aes128KeyLen) (msg : View) (buffers : Block aes128KeyLen × Block aes128KeyLen)
    (i : Nat) : Except Fault (Block aes128KeyLen × Block aes128KeyLen) := do
  let block ← msg.copy (i * aes128KeyLen) aes128KeyLen
  let scratch := aes key (aesCmacXor buffers.1 block)
  .ok (scratch, scratch)

def smb3AesCmac128 (key : Block aes128KeyLen) (msg : View) : Except Fault (Block aes128KeyLen) := do
  let count := (msg.len + aes128KeyLen - 1) / aes128KeyLen
  let rem := msg.len % aes128KeyLen
  let isLastBlockComplete := count ≠ 0 ∧ rem = 0
  let n := if count = 0 then 1 else count
  let subKeys := aesCmacSubKeys aes key
  let buffers ← (List.range (n - 1)).foldlM (aesCmacRound aes key msg) (zeroBlock, zeroBlock)
  let scratch ←
    if isLastBlockComplete then do
      let last ← msg.copy ((n - 1) * aes128KeyLen) aes128KeyLen
      .ok (aesCmacXor last subKeys.1)
    else do
      let last ← msg.copy ((n - 1) * aes128KeyLen) rem
      let scratch ← copyPadded buffers.2 last.1
      .ok (aesCmacXor scratch subKeys.2)
  .ok (aes key (aesCmacXor buffers.1 scratch))

end

/-! ### Blocks as strings of bits -/

theorem toNat_shiftByte (b cin : UInt8) (h : cin.toNat ≤ 1) :
    ((b <<< 1) ||| cin).toNat + 256 * ((b &&& 0x80) >>> 7).toNat = 2 * b.toNat + cin.toNat := by
  have hb := b.toNat_lt
  have hlow : ((b <<< 1) ||| cin).toNat = 2 * (b.toNat % 128) + cin.toNat := by
    have hshift : (b <<< 1).toNat = 2 ^ 1 * (b.toNat % 128) := by
      rw [UInt8.toNat_shiftLeft, Nat.shiftLeft_eq]
      show b.toNat * 2 ^ 1 % 2 ^ 8 = _
      omega
    rw [UInt8.toNat_or, hshift, ← Nat.two_pow_add_eq_or_of_lt (by omega), Nat.pow_one]
  have hhigh : ((b &&& 0x80) >>> 7).toNat = b.toNat / 128 := by
    rw [UInt8.toNat_shiftRight, UInt8.toNat_and]
    show (b.toNat &&& 128) >>> 7 = _
    rw [Nat.shiftRight_and_distrib, Nat.shiftRight_eq_div_pow]
    show b.toNat / 128 &&& 1 = _
    rw [Nat.and_one_is_mod]
    omega
  omega

/-- The bytes shifted and the bit left over are twice the number. -/
theorem beNat_foldr_shiftByte (data : Bytes) :
    beNat (data.foldr shiftByte ([], 0)).1 + 256 ^ data.length * (data.foldr shiftByte ([], 0)).2.toNat =
        2 * beNat data ∧ (data.foldr shiftByte ([], 0)).2.toNat ≤ 1 := by
  induction data with
  | nil => exact ⟨rfl, Nat.zero_le 1⟩
  | cons b data ih =>
      obtain ⟨ih, hcin⟩ := ih
      rw [List.foldr_cons]
      generalize hshifted : data.foldr shiftByte ([], 0) = shifted at ih hcin
      have hlength : shifted.1.length = data.length := by rw [← hshifted, length_shiftByte_foldr]
      have hbyte := toNat_shiftByte b shifted.2 hcin
      have hb := b.toNat_lt
      show beNat (((b <<< 1) ||| shifted.2) :: shifted.1) +
          256 ^ (data.length + 1) * ((b &&& 0x80) >>> 7).toNat = _ ∧ ((b &&& 0x80) >>> 7).toNat ≤ 1
      refine ⟨?_, by omega⟩
      rw [beNat_cons, beNat_cons, hlength]
      calc
        _ = 256 ^ data.length * (((b <<< 1) ||| shifted.2).toNat + 256 * ((b &&& 0x80) >>> 7).toNat) +
              beNat shifted.1 := by ring
        _ = 2 * (256 ^ data.length * b.toNat) +
              (beNat shifted.1 + 256 ^ data.length * shifted.2.toNat) := by rw [hbyte]; ring
        _ = 2 * (256 ^ data.length * b.toNat + beNat data) := by rw [ih]; ring

section

variable (data : Block aes128KeyLen)

theorem toNat_aesCmacShiftLeft :
    (blockBits (aesCmacShiftLeft data).1.1).toNat + 2 ^ 128 * (aesCmacShiftLeft data).2.toNat =
        2 * (blockBits data.1).toNat ∧ (aesCmacShiftLeft data).2.toNat ≤ 1 := by
  have hshift := beNat_foldr_shiftByte data.1
  have hlength : data.1.length = 16 := data.2
  rw [hlength, two_pow_128] at hshift
  rw [toNat_blockBits (aesCmacShiftLeft data).1.2, toNat_blockBits data.2]
  exact hshift

theorem blockBits_aesCmacShiftLeft : blockBits (aesCmacShiftLeft data).1.1 = blockBits data.1 <<< 1 := by
  have hshift := (toNat_aesCmacShiftLeft data).1
  have hlt := (blockBits (aesCmacShiftLeft data).1.1).isLt
  apply BitVec.eq_of_toNat_eq
  rw [BitVec.toNat_shiftLeft, Nat.shiftLeft_eq]
  omega

theorem aesCmacShiftLeft_carry : (aesCmacShiftLeft data).2 ≠ 0 ↔ (blockBits data.1).msb = true := by
  obtain ⟨hshift, hcarry⟩ := toNat_aesCmacShiftLeft data
  have hlt := (blockBits (aesCmacShiftLeft data).1.1).isLt
  have hzero : (aesCmacShiftLeft data).2 = 0 ↔ (aesCmacShiftLeft data).2.toNat = 0 := UInt8.toNat_inj.symm
  rw [Ne, hzero, BitVec.msb_eq_decide, decide_eq_true_iff]
  omega

theorem blockBits_aesCmacXor (value : Block aes128KeyLen) :
    blockBits (aesCmacXor data value).1 = blockBits data.1 ^^^ blockBits value.1 :=
  blockBits_zipWith_xor data.2 value.2

theorem blockBits_aesCmacDouble : blockBits (aesCmacDouble data).1 = Cmac.double (blockBits data.1) := by
  have hrb : blockBits rb.1 = Cmac.constRb := by decide
  rw [aesCmacDouble, Cmac.double]
  by_cases hcarry : (blockBits data.1).msb = true
  · rw [if_pos hcarry, if_pos ((aesCmacShiftLeft_carry data).mpr hcarry), blockBits_aesCmacXor,
      blockBits_aesCmacShiftLeft, hrb]
  · rw [if_neg hcarry, if_neg (mt (aesCmacShiftLeft_carry data).mp hcarry), blockBits_aesCmacShiftLeft]

end

/-! ### The last block -/

theorem overwrite_ok {n : Nat} (b : Block n) (position : Nat) (src : Bytes) (h : position + src.length ≤ n) :
    ∃ b', overwrite b position src = .ok b' ∧ b'.1 = memcpy b.1 position src := by
  have hle : position + src.length ≤ b.1.length := by rwa [b.2]
  refine ⟨⟨memcpy b.1 position src, by rw [length_memcpy hle, b.2]⟩, ?_, rfl⟩
  rw [overwrite, dif_pos hle]

/-- What the program copies over its buffer is the padded block, whatever stood there. -/
theorem copyPadded_eq (scratch : Block aes128KeyLen) {last : Bytes} (hlast : last.length < aes128KeyLen) :
    ∃ padded, copyPadded scratch last = .ok padded ∧ padded.1 = Cmac.padding last := by
  have hfill : (last.length + 1) + (List.replicate (aes128KeyLen - (last.length + 1)) (0 : UInt8)).length =
      aes128KeyLen := by
    rw [List.length_replicate]
    omega
  obtain ⟨b₁, h₁, hb₁⟩ := overwrite_ok scratch 0 last (by omega)
  obtain ⟨b₂, h₂, hb₂⟩ := overwrite_ok b₁ last.length [0x80] (Nat.succ_le_of_lt hlast)
  obtain ⟨b₃, h₃, hb₃⟩ := overwrite_ok b₂ (last.length + 1) _ hfill.le
  refine ⟨b₃, ?_, ?_⟩
  · rw [copyPadded, h₁, ok_bind, h₂, ok_bind, h₃]
  · have hfirst : 0 + last.length ≤ scratch.1.length := by
      rw [scratch.2]
      omega
    have hsecond : last.length + [(0x80 : UInt8)].length ≤ b₁.1.length := by
      rw [b₁.2]
      exact hlast
    have htake₁ : b₁.1.take last.length = last := by
      have h := take_memcpy hfirst
      rw [Nat.zero_add, List.take_zero, List.nil_append] at h
      rw [hb₁, h]
    have htake₂ : b₂.1.take (last.length + 1) = last ++ [0x80] := by
      have h := take_memcpy hsecond
      rw [htake₁] at h
      rw [hb₂]
      exact h
    rw [hb₃, memcpy, htake₂, hfill, List.drop_eq_nil_of_le b₂.2.le, List.append_nil, List.append_assoc]
    rfl

/-! ### The code -/

section

variable (aes : Block aes128KeyLen → Block aes128KeyLen → Block aes128KeyLen) (key : Block aes128KeyLen)

/-- The cipher under a key, on strings of bits. -/
def cipherBits (x : BitVec 128) : BitVec 128 := blockBits (aes key (bitsBlock x)).1

theorem blockBits_aes (b : Block aes128KeyLen) :
    blockBits (aes key b).1 = cipherBits aes key (blockBits b.1) := by
  rw [cipherBits, bitsBlock_blockBits]

theorem blockBits_zeroBlock : blockBits zeroBlock.1 = 0 := by decide

theorem blockBits_aesCmacSubKeys :
    blockBits (aesCmacSubKeys aes key).1.1 = Cmac.subkey1 (cipherBits aes key) ∧
      blockBits (aesCmacSubKeys aes key).2.1 = Cmac.subkey2 (cipherBits aes key) := by
  have hfirst : blockBits (aesCmacSubKeys aes key).1.1 = Cmac.subkey1 (cipherBits aes key) := by
    show blockBits (aesCmacDouble (aes key zeroBlock)).1 = _
    rw [blockBits_aesCmacDouble, blockBits_aes, blockBits_zeroBlock]
    rfl
  refine ⟨hfirst, ?_⟩
  show blockBits (aesCmacDouble (aesCmacSubKeys aes key).1).1 = _
  rw [blockBits_aesCmacDouble, hfirst]
  rfl

theorem copy_blockAt (msg : Bytes) {i n : Nat} (h : i * aes128KeyLen + n ≤ msg.length) :
    ∃ b, (View.of msg).copy (i * aes128KeyLen) n = .ok b ∧ b.1 = (msg.drop (Cmac.blockSize * i)).take n := by
  refine ⟨⟨(msg.drop (i * aes128KeyLen)).take n, ?_⟩, dif_pos h, ?_⟩
  · rw [List.length_take, List.length_drop]
    omega
  · show (msg.drop (i * aes128KeyLen)).take n = _
    rw [Nat.mul_comm i]

/-- After each round of the loop `mac` is the chaining value. -/
theorem foldlM_aesCmacRound (msg : Bytes) (n : Nat) (hn : n * aes128KeyLen ≤ msg.length) :
    ∃ mac scratch, (List.range n).foldlM (aesCmacRound aes key (View.of msg)) (zeroBlock, zeroBlock) =
        .ok (mac, scratch) ∧
      blockBits mac.1 = Cmac.chain (cipherBits aes key) msg n := by
  induction n with
  | zero => exact ⟨zeroBlock, zeroBlock, rfl, blockBits_zeroBlock⟩
  | succ n ih =>
      rw [Nat.succ_mul] at hn
      obtain ⟨mac, scratch, hrounds, hmac⟩ := ih (by omega)
      obtain ⟨block, hcopy, hblock⟩ := copy_blockAt msg hn
      refine ⟨aes key (aesCmacXor mac block), aes key (aesCmacXor mac block), ?_, ?_⟩
      · rw [List.range_succ, List.foldlM_append, hrounds, ok_bind, List.foldlM_cons, aesCmacRound, hcopy, ok_bind,
          ok_bind]
        rfl
      · rw [blockBits_aes, blockBits_aesCmacXor, hmac, hblock, Cmac.chain]
        rfl

/-- The program counts the blocks and knows a complete last block as the standard does. -/
theorem blockCount_eq (msg : Bytes) :
    let count := (msg.length + aes128KeyLen - 1) / aes128KeyLen
    (if count = 0 then 1 else count) = Cmac.blockCount msg ∧
      (count ≠ 0 ∧ msg.length % aes128KeyLen = 0 ↔ msg ≠ [] ∧ msg.length % Cmac.blockSize = 0) := by
  intro count
  have hcount : count = (msg.length + 15) / 16 := rfl
  rw [Cmac.blockCount]
  by_cases hmsg : msg = []
  · have hzero : count = 0 := by
      rw [hcount, hmsg]
      rfl
    exact ⟨by rw [if_pos hzero, if_pos hmsg], by simp only [hzero, hmsg, ne_eq, not_true_eq_false, false_and]⟩
  · have hlength := List.length_pos_of_ne_nil hmsg
    have hpos : count ≠ 0 := by omega
    exact ⟨by rw [if_neg hpos, if_neg hmsg]; rfl, by simp only [hpos, hmsg, ne_eq, not_false_eq_true, true_and]⟩

/-- What a message has before its last block and in it. -/
theorem length_last (msg : Bytes) :
    (Cmac.blockCount msg - 1) * 16 +
      (if msg ≠ [] ∧ msg.length % Cmac.blockSize = 0 then 16 else msg.length % 16) = msg.length := by
  rw [Cmac.blockCount]
  by_cases hmsg : msg = []
  · rw [if_pos hmsg, if_neg (fun h => h.1 hmsg), hmsg]
    rfl
  · have hpos := List.length_pos_of_ne_nil hmsg
    rw [if_neg hmsg, Cmac.blockSize]
    by_cases hrem : msg.length % 16 = 0
    · rw [if_pos ⟨hmsg, hrem⟩]
      omega
    · rw [if_neg (fun h => hrem h.2)]
      omega

theorem smb3AesCmac128_eq (msg : Bytes) :
    smb3AesCmac128 aes key (View.of msg) = .ok (bitsBlock (Cmac.mac (cipherBits aes key) msg)) := by
  have hlength := length_last msg
  have hbefore : (Cmac.blockCount msg - 1) * 16 ≤ msg.length := Nat.le.intro hlength
  obtain ⟨mac, scratch, hrounds, hmac⟩ := foldlM_aesCmacRound aes key msg _ hbefore
  obtain ⟨hcount, hcomplete⟩ := blockCount_eq msg
  obtain ⟨hsubkey1, hsubkey2⟩ := blockBits_aesCmacSubKeys aes key
  -- It is enough that the last block is right.
  suffices hlast : ∃ last : Block aes128KeyLen,
      smb3AesCmac128 aes key (View.of msg) = .ok (aes key (aesCmacXor mac last)) ∧
        blockBits last.1 = Cmac.lastBlock (cipherBits aes key) msg by
    obtain ⟨last, hcode, hlast⟩ := hlast
    rw [hcode, ← bitsBlock_blockBits (aes key (aesCmacXor mac last)), blockBits_aes, blockBits_aesCmacXor, hmac,
      hlast, Cmac.mac, BitVec.xor_comm]
  by_cases hfull : msg ≠ [] ∧ msg.length % Cmac.blockSize = 0
  · rw [if_pos hfull] at hlength
    obtain ⟨last, hcopy, hlast⟩ := copy_blockAt msg hlength.le
    refine ⟨aesCmacXor last (aesCmacSubKeys aes key).1, ?_, ?_⟩
    · rw [smb3AesCmac128, View.len_of]
      simp only [if_pos (hcomplete.mpr hfull)]
      rw [hcount, hrounds, ok_bind]
      simp only [hcopy, ok_bind]
    · rw [blockBits_aesCmacXor, hlast, hsubkey1, Cmac.lastBlock, if_pos hfull]
      rfl
  · rw [if_neg hfull] at hlength
    obtain ⟨last, hcopy, hlast⟩ := copy_blockAt msg hlength.le
    have hrem : last.1.length = msg.length % 16 := last.2
    have hpartial : msg.length % 16 < 16 := Nat.mod_lt _ (by decide)
    obtain ⟨padded, hpad, hpadded⟩ := copyPadded_eq scratch (hrem.trans_lt hpartial)
    have hblock : last.1 = Cmac.blockAt msg (Cmac.blockCount msg - 1) := by
      have hdrop : (msg.drop (Cmac.blockSize * (Cmac.blockCount msg - 1))).length = msg.length % 16 := by
        rw [List.length_drop, Nat.mul_comm]
        exact Nat.sub_eq_of_eq_add' hlength.symm
      rw [hlast, Cmac.blockAt, List.take_of_length_le hdrop.le,
        List.take_of_length_le (hdrop.trans_le hpartial.le)]
    refine ⟨aesCmacXor padded (aesCmacSubKeys aes key).2, ?_, ?_⟩
    · rw [smb3AesCmac128, View.len_of]
      simp only [if_neg (mt hcomplete.mp hfull)]
      rw [hcount, hrounds, ok_bind]
      simp only [hcopy, ok_bind, hpad]
    · rw [blockBits_aesCmacXor, hpadded, hblock, hsubkey2, Cmac.lastBlock, if_neg hfull]

end

end CodeStudy.Samba
