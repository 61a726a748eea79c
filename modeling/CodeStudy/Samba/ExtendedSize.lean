import CodeStudy.Samba.ExtendedAttributes

/-!
# The size of encoded attributes

The memory for extended attributes is allocated by one loop and filled by another. The first pads the
running total, the second each attribute by its own length. They agree as long as what came before is a
multiple of four. Both count in 32 bits: attributes of four gigabytes and more have a size that wrapped, and
the second loop is past the end of the memory before its own offset wraps.
-/

namespace CodeStudy.Samba

/-- In memory of the size that was asked for, whatever it holds, every write is inside and the length that
is reported is the size. -/
def WrittenInside (info : List ExtendedAttribute) : Prop :=
  ∀ memory : Bytes, memory.length = smb2GetFileExtendedSize info →
    ∃ buffer, smb2EncodeFileExtendedInfo info memory 0 = .ok (buffer, smb2GetFileExtendedSize info)

/-- The loop ends at a multiple of four, after a last turn that wrapped or not. -/
theorem smb2GetFileExtendedSize_aligned (info : List ExtendedAttribute) :
    smb2GetFileExtendedSize info % 4 = 0 ∧ smb2GetFileExtendedSize info < 2 ^ 32 := by
  have hloop (size : Nat) (hsize : size % 4 = 0 ∧ size < 2 ^ 32) :
      let total := info.foldl
        (fun size e => align4 (add32 (add32 (add32 size 8) (e.name.length + 1)) e.value.length)) size
      total % 4 = 0 ∧ total < 2 ^ 32 := by
    induction info generalizing size with
    | nil => exact hsize
    | cons e info ih => exact ih _ (align4_aligned (Nat.mod_lt _ (by decide)))
  exact hloop 0 (by decide)

/-- One turn that stays in memory of less than four gigabytes moves the offset without wrapping. -/
theorem le_of_encodeFullEaInfo {e : ExtendedAttribute} {last : Bool} {memory buffer : Bytes} {offset next : Nat}
    (hlt : memory.length < 2 ^ 32) (hmemory : memory.length % 4 = 0) (hoffset : offset % 4 = 0)
    (h : encodeFullEaInfo e last memory offset = .ok (buffer, next)) :
    next = offset + e.paddedLength ∧ next ≤ memory.length ∧ buffer.length = memory.length := by
  have hlength : e.length = 8 + e.name.length + 1 + e.value.length := rfl
  have hpadded : e.paddedLength = e.length + (4 - e.length % 4) % 4 := rfl
  rw [encodeFullEaInfo, bind_eq_ok] at h
  obtain ⟨buffer₁, h₁, h⟩ := h
  obtain ⟨buffer₂, h₂, h⟩ := bind_eq_ok.mp h
  obtain ⟨buffer₃, h₃, h⟩ := bind_eq_ok.mp h
  obtain ⟨buffer₄, h₄, h⟩ := bind_eq_ok.mp h
  obtain ⟨buffer₅, h₅, h⟩ := bind_eq_ok.mp h
  have hlength₁ := length_store h₁
  have hlength₂ := length_store h₂
  have hlength₃ := length_store h₃
  have hlength₄ := length_store h₄
  have hlength₅ := length_store h₅
  -- the lengths lie in the memory, so the name does not begin before them
  have hvalueLength := le_of_store h₂
  rw [length_leBytes] at hvalueLength
  have hnameAt : add32 offset 8 = offset + 8 := add32_eq (by omega)
  rw [hnameAt] at h₄ h₅ h
  have hname := le_of_store h₄
  rw [List.length_append, List.length_singleton] at hname
  have hvalueAt : add32 (offset + 8) (e.name.length + 1) = offset + 8 + (e.name.length + 1) := add32_eq (by omega)
  rw [hvalueAt] at h₅ h
  have hvalue := le_of_store h₅
  have hbehind : add32 (offset + 8 + (e.name.length + 1)) e.value.length = offset + e.length := by
    rw [add32_eq (by omega)]
    omega
  have hnext : (if e.length % 4 ≠ 0 then add32 (offset + e.length) (4 - e.length % 4) else offset + e.length) =
      offset + e.paddedLength := by
    split_ifs
    · rw [add32_eq (by omega)]
      omega
    · omega
  simp only [hbehind, hnext] at h
  cases last with
  | true =>
      cases h
      exact ⟨rfl, by omega, by omega⟩
  | false =>
      obtain ⟨buffer₆, h₆, h⟩ := bind_eq_ok.mp h
      have hlength₆ := length_store h₆
      cases h
      exact ⟨rfl, by omega, by omega⟩

/-- Attributes that are encoded inside such memory are no longer than it. -/
theorem le_of_smb2EncodeFileExtendedInfo {info : List ExtendedAttribute} {memory buffer : Bytes} {offset len : Nat}
    (hlt : memory.length < 2 ^ 32) (hmemory : memory.length % 4 = 0) (hoffset : offset % 4 = 0)
    (hinside : offset ≤ memory.length) (h : smb2EncodeFileExtendedInfo info memory offset = .ok (buffer, len)) :
    offset + (info.map ExtendedAttribute.paddedLength).sum ≤ memory.length := by
  induction info generalizing memory offset with
  | nil => exact hinside
  | cons e info ih =>
      rw [smb2EncodeFileExtendedInfo, bind_eq_ok] at h
      obtain ⟨⟨written, next⟩, hfirst, hrest⟩ := h
      obtain ⟨hnext, hle, hlength⟩ := le_of_encodeFullEaInfo hlt hmemory hoffset hfirst
      have hpadded := e.paddedLength_mod
      have hfits := ih (hlength ▸ hlt) (hlength ▸ hmemory) (by omega) (by omega) hrest
      rw [hlength, hnext] at hfits
      rw [List.map_cons, List.sum_cons]
      omega

/-- A size that wrapped is too small: the writes go on up to where the total wraps. -/
theorem sum_lt_of_writtenInside {info : List ExtendedAttribute} (h : WrittenInside info) :
    (info.map ExtendedAttribute.paddedLength).sum < 2 ^ 32 := by
  obtain ⟨hmod, hlt⟩ := smb2GetFileExtendedSize_aligned info
  have hmemory : (List.replicate (smb2GetFileExtendedSize info) (0 : UInt8)).length = smb2GetFileExtendedSize info :=
    List.length_replicate
  obtain ⟨buffer, hencoded⟩ := h _ hmemory
  rw [← hmemory] at hmod hlt
  have hle := le_of_smb2EncodeFileExtendedInfo hlt hmod rfl (Nat.zero_le _) hencoded
  omega

/-- The bytes that are written all lie below the size, and the length that is reported is the size, if and
only if the padded attributes take less than four gigabytes. -/
theorem writtenInside_iff (info : List ExtendedAttribute) :
    WrittenInside info ↔ (info.map ExtendedAttribute.paddedLength).sum < 2 ^ 32 := by
  refine ⟨sum_lt_of_writtenInside, fun hsize memory hmemory => ?_⟩
  have hsum := smb2GetFileExtendedSize_eq info hsize
  have hencoded := @smb2EncodeFileExtendedInfo_eq info [] memory rfl (by omega)
    (by rw [List.length_nil]; omega)
  rw [List.nil_append, List.length_nil, Nat.zero_add, hmemory] at hencoded
  exact ⟨_, hencoded⟩

/-- An attribute of the greatest length. -/
def longestAttribute : ExtendedAttribute where
  name := List.replicate 255 1
  value := List.replicate 65535 0
  name_le := List.length_replicate.le
  value_le := List.length_replicate.le
  noTerminator := by
    rw [List.mem_replicate]
    decide

/-- So many of them that the size wraps to 61904. -/
theorem not_writtenInside_longestAttributes : ¬ WrittenInside (List.replicate 65274 longestAttribute) := by
  have hname : longestAttribute.name.length = 255 := List.length_replicate
  have hvalue : longestAttribute.value.length = 65535 := List.length_replicate
  have hpadded : longestAttribute.paddedLength = 65800 := by
    rw [ExtendedAttribute.paddedLength, ExtendedAttribute.length, hname, hvalue]
  have hsum : ((List.replicate 65274 longestAttribute).map ExtendedAttribute.paddedLength).sum = 65274 * 65800 := by
    rw [List.map_replicate, hpadded, List.sum_replicate_nat]
  intro h
  have hlt := sum_lt_of_writtenInside h
  rw [hsum] at hlt
  exact absurd hlt (by decide)

end CodeStudy.Samba
