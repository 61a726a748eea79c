import CodeStudy.Base.Store
import CodeStudy.Samba.LinkedEntries
import CodeStudy.Samba.Offsets

/-!
# Extended attributes, there and back

The library encodes the extended attributes that are to be set and decodes those a server sends. The two do
not agree: the encoder puts a terminator behind a name that the decoder does not expect, says where the next
attribute is from the beginning of the buffer where the decoder counts from the attribute before, and leaves
the last of these fields as the memory was.
-/

namespace CodeStudy.Samba

structure ExtendedAttribute where
  name : Bytes
  value : Bytes
  name_le : name.length ≤ 255
  value_le : value.length ≤ 65535
  noTerminator : 0 ∉ name

namespace ExtendedAttribute

/-- The attribute as the application has it. -/
def info (e : ExtendedAttribute) : Smb2FileExtendedInfo :=
  ⟨e.name, .ofNat e.name.length, e.value, .ofNat e.value.length⟩

/-- The size of an encoded attribute. -/
def length (e : ExtendedAttribute) : Nat := 8 + e.name.length + 1 + e.value.length

/-- With the bytes up to the next one. -/
def paddedLength (e : ExtendedAttribute) : Nat := e.length + (4 - e.length % 4) % 4

end ExtendedAttribute

/-! ### The encoder -/

def smb2GetFileExtendedSize (info : List ExtendedAttribute) : Nat :=
  info.foldl (fun size e => align4 (add32 (add32 (add32 size 8) (e.name.length + 1)) e.value.length)) 0

/-- One turn of the loop. -/
def encodeFullEaInfo (e : ExtendedAttribute) (last : Bool) (buffer : Bytes) (offset : Nat) :
    Except Fault (Bytes × Nat) := do
  let buffer ← store buffer (offset + 5) [.ofNat e.name.length]
  let buffer ← store buffer (offset + 6) (leBytes 2 e.value.length)
  let buffer ← store buffer (offset + 4) [0]
  let nameAt := add32 offset 8
  let buffer ← store buffer nameAt (e.name ++ [0])
  let valueAt := add32 nameAt (e.name.length + 1)
  let buffer ← store buffer valueAt e.value
  let behind := add32 valueAt e.value.length
  let next := if e.length % 4 ≠ 0 then add32 behind (4 - e.length % 4) else behind
  -- the offset is the one in the buffer, and the last attribute gets none
  let buffer ← if last then .ok buffer else store buffer offset (leBytes 4 next)
  .ok (buffer, next)

/-- The buffer and the length that is reported. -/
def smb2EncodeFileExtendedInfo : List ExtendedAttribute → Bytes → Nat → Except Fault (Bytes × Nat)
  | [], buffer, offset => .ok (buffer, offset)
  | e :: info, buffer, offset => do
      let (buffer, offset) ← encodeFullEaInfo e info.isEmpty buffer offset
      smb2EncodeFileExtendedInfo info buffer offset

/-- What is encoded in memory with the given contents is decoded to the same attributes. -/
def AttributesComeBack (info : List ExtendedAttribute) (memory : Bytes) : Prop :=
  ∃ buffer len, smb2EncodeFileExtendedInfo info memory 0 = .ok (buffer, len) ∧
    ∀ fullEaInfo fuel, info.length ≤ fuel →
      smb2DecodeFileExtendedInfo fuel plentiful fullEaInfo (buffer.take len) =
        some (.ok (), info.map ExtendedAttribute.info)

/-- One or two attributes with values of zeros, in memory that has a zero where the last attribute has the
distance to the next one. -/
structure ZeroValues (info : List ExtendedAttribute) (memory : Bytes) : Prop where
  few : info.length ≤ 2
  zeros : ∀ e ∈ info, ∀ b ∈ e.value, b = 0
  unlinked : leNat (slice memory (info.dropLast.map ExtendedAttribute.paddedLength).sum 4) = 0

/-- Where the decoder looks for the third attribute there is room for one. -/
def LooksElsewhere : List ExtendedAttribute → Prop
  | first :: _ :: third :: info =>
      first.paddedLength + 8 + third.name.length + third.value.length ≤
        third.paddedLength + (info.map ExtendedAttribute.paddedLength).sum
  | _ => False

/-! ### Sizes -/

namespace ExtendedAttribute

variable (e : ExtendedAttribute)

theorem paddedLength_mod : e.paddedLength % 4 = 0 := by
  rw [paddedLength]
  omega

theorem length_le_paddedLength : e.length ≤ e.paddedLength := Nat.le_add_right _ _

theorem paddedLength_lt : e.paddedLength < 65536 + 272 := by
  have hname := e.name_le
  have hvalue := e.value_le
  rw [paddedLength, length]
  omega

theorem twelve_le_paddedLength : 12 ≤ e.paddedLength := by
  rw [paddedLength, length]
  omega

end ExtendedAttribute

/-- The size is the sum of the sizes of the attributes. -/
theorem smb2GetFileExtendedSize_eq (info : List ExtendedAttribute)
    (h : (info.map ExtendedAttribute.paddedLength).sum < 2 ^ 32) :
    smb2GetFileExtendedSize info = (info.map ExtendedAttribute.paddedLength).sum := by
  have hloop : ∀ (info : List ExtendedAttribute) (size : Nat), size % 4 = 0 →
      size + (info.map ExtendedAttribute.paddedLength).sum < 2 ^ 32 →
      info.foldl (fun size e => align4 (add32 (add32 (add32 size 8) (e.name.length + 1)) e.value.length)) size =
        size + (info.map ExtendedAttribute.paddedLength).sum := by
    intro info
    induction info with
    | nil => exact fun size _ _ => rfl
    | cons e info ih =>
        intro size hsize hlt
        rw [List.map_cons, List.sum_cons] at hlt ⊢
        have hle := e.length_le_paddedLength
        have hnext : align4 (add32 (add32 (add32 size 8) (e.name.length + 1)) e.value.length) = size + e.paddedLength := by
          have hlength : e.length = 8 + e.name.length + 1 + e.value.length := rfl
          have hpadded : e.paddedLength = e.length + (4 - e.length % 4) % 4 := rfl
          have hsum : size + 8 + (e.name.length + 1) + e.value.length = size + e.length := by omega
          have hmod : (size + e.length) % 4 = e.length % 4 := by omega
          rw [add32_eq (show size + 8 < 2 ^ 32 by omega),
            add32_eq (show size + 8 + (e.name.length + 1) < 2 ^ 32 by omega),
            add32_eq (show size + 8 + (e.name.length + 1) + e.value.length < 2 ^ 32 by omega), hsum, align4, hmod]
          split_ifs with hpad
          · rw [add32_eq (by omega)]
            omega
          · omega
        rw [List.foldl_cons, hnext, ih _ (by have := e.paddedLength_mod; omega) (by omega), Nat.add_assoc]
  have hsum := hloop info 0 rfl (by omega)
  rw [Nat.zero_add] at hsum
  exact hsum

/-! ### The bytes of an attribute -/

namespace ExtendedAttribute

variable (e : ExtendedAttribute)

/-- An encoded attribute: the distance, the lengths, the name with its terminator, the value and what
remains of the memory behind it. -/
def bytes (next padding : Bytes) : Bytes :=
  next ++ ([0] ++ ([UInt8.ofNat e.name.length] ++ (leBytes 2 e.value.length ++ (e.name ++ [0] ++ (e.value ++ padding)))))

theorem length_bytes {next padding : Bytes} (hnext : next.length = 4)
    (hpadding : e.length + padding.length = e.paddedLength) : (e.bytes next padding).length = e.paddedLength := by
  have hlength : e.length = 8 + e.name.length + 1 + e.value.length := rfl
  simp only [bytes, List.length_append, length_leBytes, List.length_cons, List.length_nil]
  omega

end ExtendedAttribute

/-- One turn of the loop writes the attribute over the memory at its offset. -/
theorem encodeFullEaInfo_eq (e : ExtendedAttribute) (last : Bool) {pre old post : Bytes} (hpre : pre.length % 4 = 0)
    (hold : old.length = e.paddedLength) (hsize : pre.length + e.paddedLength < 2 ^ 32) :
    encodeFullEaInfo e last (pre ++ (old ++ post)) pre.length =
      .ok (pre ++ (e.bytes (if last then old.take 4 else leBytes 4 (pre.length + e.paddedLength)) (old.drop e.length) ++
        post), pre.length + e.paddedLength) := by
  have hlength : e.length = 8 + e.name.length + 1 + e.value.length := rfl
  have hpadded : e.paddedLength = e.length + (4 - e.length % 4) % 4 := rfl
  obtain ⟨link, old₁, rfl, hlink, hold₁⟩ := @exists_append_of_length old 4 (e.paddedLength - 4) (by omega)
  obtain ⟨flags, old₂, rfl, hflags, hold₂⟩ := @exists_append_of_length old₁ 1 (e.paddedLength - 5) (by omega)
  obtain ⟨nameLength, old₃, rfl, hnameLength, hold₃⟩ :=
    @exists_append_of_length old₂ 1 (e.paddedLength - 6) (by omega)
  obtain ⟨valueLength, old₄, rfl, hvalueLength, hold₄⟩ :=
    @exists_append_of_length old₃ 2 (e.paddedLength - 8) (by omega)
  obtain ⟨name, old₅, rfl, hname, hold₅⟩ :=
    @exists_append_of_length old₄ (e.name.length + 1) (e.paddedLength - 8 - (e.name.length + 1)) (by omega)
  obtain ⟨value, padding, rfl, hvalue, hpadding⟩ :=
    @exists_append_of_length old₅ e.value.length (e.paddedLength - e.length) (by omega)
  -- every write replaces a piece of its size
  have hwrite (before piece after bytes : Bytes) (n : Nat) (hbefore : before.length = n)
      (hpiece : piece.length = bytes.length) :
      store (before ++ (piece ++ after)) n bytes = .ok (before ++ (bytes ++ after)) := store_eq rfl hbefore hpiece
  have hnameLen := hwrite (pre ++ (link ++ flags)) nameLength
    (valueLength ++ (name ++ (value ++ (padding ++ post)))) [.ofNat e.name.length] (pre.length + 5)
    (by simp only [List.length_append]; omega) hnameLength
  have hvalueLen := hwrite (pre ++ (link ++ (flags ++ [.ofNat e.name.length]))) valueLength
    (name ++ (value ++ (padding ++ post))) (leBytes 2 e.value.length) (pre.length + 6)
    (by simp only [List.length_append, List.length_singleton]; omega) (by rw [length_leBytes, hvalueLength])
  have hflag := hwrite (pre ++ link) flags
    ([.ofNat e.name.length] ++ (leBytes 2 e.value.length ++ (name ++ (value ++ (padding ++ post))))) [0] (pre.length + 4)
    (by simp only [List.length_append]; omega) hflags
  have hnameBytes := hwrite (pre ++ (link ++ ([0] ++ ([.ofNat e.name.length] ++ leBytes 2 e.value.length)))) name
    (value ++ (padding ++ post)) (e.name ++ [0]) (pre.length + 8)
    (by simp only [List.length_append, List.length_singleton, length_leBytes]; omega)
    (by rw [List.length_append, List.length_singleton, hname])
  have hvalueBytes := hwrite
    (pre ++ (link ++ ([0] ++ ([.ofNat e.name.length] ++ (leBytes 2 e.value.length ++ (e.name ++ [0])))))) value
    (padding ++ post) e.value (pre.length + 8 + (e.name.length + 1))
    (by simp only [List.length_append, List.length_singleton, length_leBytes]; omega) hvalue
  have hnext := hwrite pre link
    ([0] ++ ([.ofNat e.name.length] ++ (leBytes 2 e.value.length ++ (e.name ++ ([0] ++ (e.value ++ (padding ++ post)))))))
    (leBytes 4 (pre.length + e.paddedLength)) pre.length rfl (by rw [length_leBytes, hlink])
  simp only [List.append_assoc] at hnameLen hvalueLen hflag hnameBytes hvalueBytes hnext
  have hbehind : pre.length + 8 + (e.name.length + 1) + e.value.length = pre.length + e.length := by omega
  have hoffset : (if e.length % 4 ≠ 0 then add32 (pre.length + e.length) (4 - e.length % 4) else pre.length + e.length) =
      pre.length + e.paddedLength := by
    split_ifs
    · rw [add32_eq (by omega)]
      omega
    · omega
  have hlinkBytes : (link ++ (flags ++ (nameLength ++ (valueLength ++ (name ++ (value ++ padding)))))).take 4 = link := by
    rw [← hlink, List.take_left]
  have hpaddingBytes : (link ++ (flags ++ (nameLength ++ (valueLength ++ (name ++ (value ++ padding)))))).drop e.length =
      padding := by
    have hfront : (link ++ (flags ++ (nameLength ++ (valueLength ++ (name ++ value))))).length = e.length := by
      simp only [List.length_append]
      omega
    rw [← hfront]
    simp only [← List.append_assoc]
    exact List.drop_left
  rw [hlinkBytes, hpaddingBytes, encodeFullEaInfo, ExtendedAttribute.bytes]
  simp only [List.append_assoc, hnameLen, ok_bind, hvalueLen, hflag, add32_eq (show pre.length + 8 < 2 ^ 32 by omega),
    hnameBytes, add32_eq (show pre.length + 8 + (e.name.length + 1) < 2 ^ 32 by omega), hvalueBytes,
    add32_eq (show pre.length + 8 + (e.name.length + 1) + e.value.length < 2 ^ 32 by omega), hbehind, hoffset]
  cases last with
  | true => rfl
  | false =>
      simp only [Bool.false_eq_true, if_false, hnext, ok_bind]

/-- The bytes of attributes, the first of them at an offset, over the memory for them. -/
def encodedEntries (offset : Nat) : List ExtendedAttribute → Bytes → Bytes
  | [], _ => []
  | e :: info, memory =>
      e.bytes (if info.isEmpty then (memory.take e.paddedLength).take 4 else leBytes 4 (offset + e.paddedLength))
          ((memory.take e.paddedLength).drop e.length) ++
        encodedEntries (offset + e.paddedLength) info (memory.drop e.paddedLength)

theorem smb2EncodeFileExtendedInfo_eq (info : List ExtendedAttribute) {pre memory : Bytes} (hpre : pre.length % 4 = 0)
    (hmemory : memory.length = (info.map ExtendedAttribute.paddedLength).sum)
    (hsize : pre.length + memory.length < 2 ^ 32) :
    smb2EncodeFileExtendedInfo info (pre ++ memory) pre.length =
      .ok (pre ++ encodedEntries pre.length info memory, pre.length + memory.length) := by
  induction info generalizing pre memory with
  | nil =>
      have hnone : memory = [] := List.length_eq_zero_iff.mp hmemory
      rw [hnone]
      rfl
  | cons e info ih =>
      rw [List.map_cons, List.sum_cons] at hmemory
      obtain ⟨old, post, rfl, hold, hpost⟩ := exists_append_of_length hmemory
      rw [List.length_append, hold] at hsize
      have hmod := e.paddedLength_mod
      have htake : (old ++ post).take e.paddedLength = old := by rw [← hold, List.take_left]
      have hdrop : (old ++ post).drop e.paddedLength = post := by rw [← hold, List.drop_left]
      rw [smb2EncodeFileExtendedInfo, encodeFullEaInfo_eq e info.isEmpty hpre hold (by omega), encodedEntries, htake, hdrop]
      generalize hentry : e.bytes _ _ = entry
      have hlength : (pre ++ entry).length = pre.length + e.paddedLength := by
        rw [← hentry, List.length_append, e.length_bytes]
        · split_ifs
          · rw [List.length_take, hold]
            have := e.twelve_le_paddedLength
            omega
          · exact length_leBytes _ _
        · have hle := e.length_le_paddedLength
          rw [List.length_drop, hold]
          omega
      have hrest := @ih (pre ++ entry) post (by omega) hpost (by omega)
      rw [hlength] at hrest
      simp only [ok_bind]
      rw [← List.append_assoc, hrest, List.length_append, hold, List.append_assoc, Nat.add_assoc]

/-! ### Decoding an attribute -/

namespace ExtendedAttribute

variable (e : ExtendedAttribute)

/-- The attribute with a value that begins with the terminator of the name. -/
def shifted : Smb2FileExtendedInfo := { e.info with value := (0 :: e.value).take e.value.length }

/-- The values that are the same after that are the ones of zeros. -/
theorem shifted_eq_info_iff : e.shifted = e.info ↔ ∀ b ∈ e.value, b = 0 := by
  have hvalues : e.shifted = e.info ↔ (0 :: e.value).take e.value.length = e.value := by
    constructor
    · exact fun h => congrArg Smb2FileExtendedInfo.value h
    · intro h
      rw [shifted, h]
      rfl
  rw [hvalues]
  generalize e.value = value
  induction value with
  | nil => exact iff_of_true rfl nofun
  | cons b value ih =>
      rw [List.length_cons, List.take_succ_cons, List.cons.injEq, List.forall_mem_cons]
      constructor
      · rintro ⟨rfl, h⟩
        exact ⟨rfl, ih.mp h⟩
      · rintro ⟨rfl, h⟩
        exact ⟨rfl, ih.mpr h⟩

theorem decode_bytes (fullEaInfo : Smb2FileFullEaInfo) (next : UInt32) (padding rest : Bytes) :
    smb2DecodeFileFullEaInfo (fun _ => true) fullEaInfo (.of (e.bytes (leBytes 4 next.toNat) padding ++ rest)) =
      .ok ⟨next, 0, .ofNat e.name.length, .ofNat e.value.length, e.name, e.shifted.value⟩ := by
  have hname := e.name_le
  have hvalue := e.value_le
  have hshifted : (0 :: e.value).take e.value.length ++ (0 :: e.value).drop e.value.length ++ (padding ++ rest) =
      0 :: (e.value ++ (padding ++ rest)) := by
    rw [List.take_append_drop, List.cons_append]
  have hlength : ((0 :: e.value).take e.value.length).length = e.value.length := by
    rw [List.length_take, List.length_cons]
    omega
  generalize hvec : View.of (e.bytes (leBytes 4 next.toNat) padding ++ rest) = vec
  have hlen : vec.len = (e.bytes (leBytes 4 next.toNat) padding ++ rest).length := by rw [← hvec, View.len_of]
  have hbuf : vec.buf = leBytes 4 next.toNat ++ (leBytes 1 0 ++ (leBytes 1 e.name.length ++
      (leBytes 2 e.value.length ++ (e.name ++ ((0 :: e.value).take e.value.length ++
        ((0 :: e.value).drop e.value.length ++ (padding ++ rest))))))) := by
    have happend : e.bytes (leBytes 4 next.toNat) padding ++ rest = leBytes 4 next.toNat ++ (leBytes 1 0 ++
        (leBytes 1 e.name.length ++ (leBytes 2 e.value.length ++ (e.name ++ (0 :: (e.value ++ (padding ++ rest))))))) := by
      simp only [bytes, List.append_assoc]
      rfl
    rw [← hvec, ← List.append_assoc (List.take _ _), hshifted]
    exact happend
  simp only [bytes, List.length_append, length_leBytes, List.length_singleton] at hlen
  have hnext : vec.get 4 0 fullEaInfo.nextEntryOffset.toNat = .ok next.toNat :=
    View.get_leBytes [] _ hbuf List.length_nil next.toNat_lt (by omega) _
  have hflags : vec.get 1 4 fullEaInfo.flags.toNat = .ok 0 :=
    View.get_leBytes (leBytes 4 next.toNat) _ (by simp only [hbuf, List.append_assoc]; rfl) (length_leBytes _ _) (by decide)
      (by omega) _
  have hnameLength : vec.get 1 5 fullEaInfo.eaNameLength.toNat = .ok e.name.length :=
    View.get_leBytes (leBytes 4 next.toNat ++ leBytes 1 0) _ (by simp only [hbuf, List.append_assoc]; rfl)
      (by simp) (by omega) (by omega) _
  have hvalueLength : vec.get 2 6 fullEaInfo.eaValueLength.toNat = .ok e.value.length :=
    View.get_leBytes (leBytes 4 next.toNat ++ (leBytes 1 0 ++ leBytes 1 e.name.length)) _
      (by simp only [hbuf, List.append_assoc]; rfl) (by simp) (by omega) (by omega) _
  have hnameBytes : vec.copy 8 e.name.length = .ok ⟨e.name, rfl⟩ :=
    View.copy_eq (leBytes 4 next.toNat ++ (leBytes 1 0 ++ (leBytes 1 e.name.length ++ leBytes 2 e.value.length))) _ _
      (by simp only [hbuf, List.append_assoc]; rfl) (by simp) rfl
  have hvalueBytes : vec.copy (8 + e.name.length) e.value.length =
      .ok ⟨(0 :: e.value).take e.value.length, hlength⟩ :=
    View.copy_eq (leBytes 4 next.toNat ++ (leBytes 1 0 ++ (leBytes 1 e.name.length ++ (leBytes 2 e.value.length ++ e.name))))
      _ _ (by simp only [hbuf, List.append_assoc]; rfl) (by simp; omega) hlength
  simp only [smb2DecodeFileFullEaInfo, hnext, hflags, hnameLength, hvalueLength, ok_bind, hnameBytes, hvalueBytes,
    Bool.true_eq_false, if_false, UInt32.ofNat_toNat]
  rfl

end ExtendedAttribute

/-- An attribute in memory, with what is between it and the next one. -/
structure ChainedAttribute where
  entry : ExtendedAttribute
  padding : Bytes

namespace ChainedAttribute

def encode (c : ChainedAttribute) (next : Nat) : Bytes := c.entry.bytes (leBytes 4 next) c.padding

theorem fixedDistance : FixedDistance encode := by
  intro c n
  simp only [encode, ExtendedAttribute.bytes, List.length_append, length_leBytes]
  exact ⟨trivial, by omega⟩

end ChainedAttribute

theorem decodesTo_extendedInfo (c : ChainedAttribute) :
    DecodesTo ChainedAttribute.encode (decodeExtendedInfo plentiful) ExtendedInfoState.nodes
      (fun c => c.entry.shifted) c := by
  intro next rest s
  refine ⟨⟨⟨next, 0, .ofNat c.entry.name.length, .ofNat c.entry.value.length, c.entry.name, c.entry.shifted.value⟩,
    s.nodes ++ [c.entry.shifted]⟩, ?_, rfl⟩
  have hdecode : smb2DecodeFileFullEaInfo (fun site => plentiful site s.nodes.length) s.fullEaInfo
      (.of (c.encode next.toNat ++ rest)) = _ := c.entry.decode_bytes s.fullEaInfo next c.padding rest
  rw [decodeExtendedInfo, hdecode]
  simp only [plentiful, Bool.true_eq_false, and_false, if_false]
  rfl

section

variable {vec : Bytes} {s : ExtendedInfoState}

/-- One turn of the loop, at an attribute. -/
theorem extendedInfoStep_bytes (e : ExtendedAttribute) (next : UInt32) {pre padding rest : Bytes}
    (hvec : vec = pre ++ (e.bytes (leBytes 4 next.toNat) padding ++ rest)) (hsize : vec.length < 2 ^ 32) :
    ∃ s', s'.nodes = s.nodes ++ [e.shifted] ∧ extendedInfoStep plentiful vec (.ofNat pre.length, s) =
      if next = 0 then .done (.ok (), s') else .next (.ofNat pre.length + next, s') := by
  subst hvec
  have hpos : 0 < (ChainedAttribute.encode ⟨e, padding⟩ next.toNat).length := by
    have hfixed := ChainedAttribute.fixedDistance ⟨e, padding⟩ next.toNat
    omega
  exact entryStep_linked (decodesTo_extendedInfo ⟨e, padding⟩) hpos hsize s

/-- The loop decodes an attribute at its offset, and keeps the node it makes of it. -/
theorem nodes_of_iterate {fuel : Nat} {offset : UInt32} {s' : ExtendedInfoState}
    (h : Step.iterate (extendedInfoStep plentiful vec) fuel (offset, s) = some (.ok (), s')) :
    ∃ info more, offset.toNat < vec.length ∧
      smb2DecodeFileFullEaInfo (fun _ => true) s.fullEaInfo (.of (vec.drop offset.toNat)) = .ok info ∧
      s'.nodes = s.nodes ++ ⟨info.eaName, info.eaNameLength, info.eaValue, info.eaValueLength⟩ :: more := by
  induction fuel generalizing offset s with
  | zero => cases h
  | succ fuel ih =>
      rw [Step.iterate, extendedInfoStep, entryStep] at h
      by_cases hinside : vec.length ≤ offset.toNat
      · rw [if_pos hinside] at h
        cases h
      · rw [if_neg hinside] at h
        cases hdecode : smb2DecodeFileFullEaInfo (fun _ => true) s.fullEaInfo (.of (vec.drop offset.toNat)) with
        | error fault =>
            have hnode : decodeExtendedInfo plentiful (.of (vec.drop offset.toNat)) s = (s, .error fault) := by
              rw [decodeExtendedInfo, show (fun site => plentiful site s.nodes.length) = fun _ => true from rfl, hdecode]
            rw [hnode] at h
            cases h
        | ok info =>
            have hnode : decodeExtendedInfo plentiful (.of (vec.drop offset.toNat)) s =
                (⟨info, s.nodes ++ [⟨info.eaName, info.eaNameLength, info.eaValue, info.eaValueLength⟩]⟩,
                  .ok info.nextEntryOffset) := by
              rw [decodeExtendedInfo, show (fun site => plentiful site s.nodes.length) = fun _ => true from rfl, hdecode]
              simp only [plentiful, Bool.true_eq_false, and_false, if_false]
            rw [hnode] at h
            simp only at h
            split_ifs at h with hlast
            · cases h
              exact ⟨info, [], not_le.mp hinside, rfl, rfl⟩
            · obtain ⟨info', more, -, -, hnodes⟩ := ih h
              refine ⟨info, ⟨info'.eaName, info'.eaNameLength, info'.eaValue, info'.eaValueLength⟩ :: more,
                not_le.mp hinside, rfl, ?_⟩
              rw [hnodes, List.append_assoc]
              rfl

/-- What an attribute is made of lies in the buffer. -/
theorem le_of_decode {alloc : EntryAlloc → Bool} {info info' : Smb2FileFullEaInfo} {vec : View}
    (h : smb2DecodeFileFullEaInfo alloc info vec = .ok info') :
    8 + info'.eaName.length + info'.eaValue.length ≤ vec.buf.length := by
  obtain ⟨nextEntryOffset, -, h⟩ := bind_eq_ok.mp h
  obtain ⟨flags, -, h⟩ := bind_eq_ok.mp h
  obtain ⟨nameLength, -, h⟩ := bind_eq_ok.mp h
  obtain ⟨valueLength, -, h⟩ := bind_eq_ok.mp h
  split_ifs at h
  obtain ⟨name, -, h⟩ := bind_eq_ok.mp h
  obtain ⟨value, hvalue, h⟩ := bind_eq_ok.mp h
  cases h
  have hle := View.le_of_copy hvalue
  have hname := name.2
  have hvalueLength := value.2
  simp only at hname hvalueLength ⊢
  omega

end

/-! ### There and back -/

/-- The bytes of a distance that is left as the memory was. -/
theorem leBytes_slice {memory : Bytes} {place : Nat} (h : place + 4 ≤ memory.length) :
    leBytes 4 (UInt32.ofNat (leNat (slice memory place 4))).toNat = slice memory place 4 := by
  have hbytes := leBytes_leNat (slice memory place 4)
  have hlt := leNat_lt (slice memory place 4)
  rw [length_slice h] at hbytes hlt
  rw [toNat_ofNat_uint32 hlt, hbytes]

section

variable {memory : Bytes} {offset : Nat} (e : ExtendedAttribute)

theorem encodedEntries_last (h : memory.length = e.paddedLength) :
    encodedEntries offset [e] memory =
      e.bytes (leBytes 4 (UInt32.ofNat (leNat (slice memory 0 4))).toNat) (memory.drop e.length) := by
  have htwelve := e.twelve_le_paddedLength
  have hwhole : memory.take e.paddedLength = memory := List.take_of_length_le h.le
  rw [leBytes_slice (by omega), encodedEntries, hwhole, encodedEntries, List.append_nil]
  rfl

theorem encodedEntries_cons (next : ExtendedAttribute) (info : List ExtendedAttribute) :
    encodedEntries offset (e :: next :: info) memory =
      e.bytes (leBytes 4 (offset + e.paddedLength)) ((memory.take e.paddedLength).drop e.length) ++
        encodedEntries (offset + e.paddedLength) (next :: info) (memory.drop e.paddedLength) := rfl

theorem length_bytes_cons (h : e.paddedLength ≤ memory.length) (n : Nat) :
    (e.bytes (leBytes 4 n) ((memory.take e.paddedLength).drop e.length)).length = e.paddedLength := by
  have hle := e.length_le_paddedLength
  refine e.length_bytes (length_leBytes _ _) ?_
  rw [List.length_drop, List.length_take]
  omega

end

theorem length_encodedEntries (info : List ExtendedAttribute) {memory : Bytes} {offset : Nat}
    (h : memory.length = (info.map ExtendedAttribute.paddedLength).sum) :
    (encodedEntries offset info memory).length = memory.length := by
  induction info generalizing memory offset with
  | nil => exact h.symm
  | cons e info ih =>
      rw [List.map_cons, List.sum_cons] at h
      have hle := e.length_le_paddedLength
      have htwelve := e.twelve_le_paddedLength
      have hrest := @ih (memory.drop e.paddedLength) (offset + e.paddedLength) (by rw [List.length_drop]; omega)
      rw [encodedEntries, List.length_append, hrest, List.length_drop, e.length_bytes]
      · omega
      · split_ifs
        · rw [List.length_take, List.length_take]
          omega
        · exact length_leBytes _ _
      · rw [List.length_drop, List.length_take]
        omega

/-- What is encoded, and how the loop of the decoder comes to its end over it. -/
theorem attributesComeBack_iff_iterate {info : List ExtendedAttribute} {memory : Bytes}
    (hmemory : memory.length = (info.map ExtendedAttribute.paddedLength).sum) (hsize : memory.length < 2 ^ 32) :
    AttributesComeBack info memory ↔ ∀ fullEaInfo fuel, info.length ≤ fuel → ∃ s',
      Step.iterate (extendedInfoStep plentiful (encodedEntries 0 info memory)) fuel (0, ⟨fullEaInfo, []⟩) =
        some (.ok (), s') ∧ s'.nodes = info.map ExtendedAttribute.info := by
  have hencode := @smb2EncodeFileExtendedInfo_eq info [] memory rfl hmemory (by rw [List.length_nil]; omega)
  rw [List.nil_append, List.nil_append, List.length_nil, Nat.zero_add] at hencode
  have hwhole : (encodedEntries 0 info memory).take memory.length = encodedEntries 0 info memory := by
    rw [← @length_encodedEntries info memory 0 hmemory, List.take_length]
  have hdecode (fullEaInfo : Smb2FileFullEaInfo) (fuel : Nat) :
      smb2DecodeFileExtendedInfo fuel plentiful fullEaInfo (encodedEntries 0 info memory) =
        some (.ok (), info.map ExtendedAttribute.info) ↔ ∃ s',
      Step.iterate (extendedInfoStep plentiful (encodedEntries 0 info memory)) fuel (0, ⟨fullEaInfo, []⟩) =
        some (.ok (), s') ∧ s'.nodes = info.map ExtendedAttribute.info := by
    rw [smb2DecodeFileExtendedInfo, Option.map_eq_some_iff]
    constructor
    · rintro ⟨⟨result, s'⟩, hloop, hresult⟩
      obtain ⟨rfl, hnodes⟩ := Prod.mk.inj hresult
      exact ⟨s', hloop, hnodes⟩
    · rintro ⟨s', hloop, hnodes⟩
      exact ⟨_, hloop, Prod.ext rfl hnodes⟩
  constructor
  · rintro ⟨buffer, len, hbuffer, h⟩ fullEaInfo fuel hfuel
    rw [hencode] at hbuffer
    cases hbuffer
    have hresult := h fullEaInfo fuel hfuel
    rw [hwhole] at hresult
    exact (hdecode fullEaInfo fuel).mp hresult
  · intro h
    refine ⟨_, _, hencode, fun fullEaInfo fuel hfuel => ?_⟩
    rw [hwhole]
    exact (hdecode fullEaInfo fuel).mpr (h fullEaInfo fuel hfuel)

section

variable {vec pre padding rest : Bytes} {e : ExtendedAttribute}

/-- The loop stops at the last attribute if the memory had a zero there. -/
theorem iterate_last {link : UInt32} (hvec : vec = pre ++ e.bytes (leBytes 4 link.toNat) padding)
    (hsize : vec.length < 2 ^ 32) (s : ExtendedInfoState) : ∃ s', s'.nodes = s.nodes ++ [e.shifted] ∧
      (link = 0 → ∀ fuel, Step.iterate (extendedInfoStep plentiful vec) (fuel + 1) (.ofNat pre.length, s) =
        some (.ok (), s')) ∧
      (link ≠ 0 → Step.iterate (extendedInfoStep plentiful vec) 1 (.ofNat pre.length, s) = none) := by
  rw [← List.append_nil (e.bytes _ _)] at hvec
  obtain ⟨s', hnodes, hstep⟩ := @extendedInfoStep_bytes vec s e link pre padding [] hvec hsize
  refine ⟨s', hnodes, fun hlink fuel => ?_, fun hlink => ?_⟩
  · rw [Step.iterate, hstep, if_pos hlink]
  · rw [Step.iterate, hstep, if_neg hlink]
    rfl

/-- The loop goes on from any other attribute, by the distance that the encoder wrote. -/
theorem iterate_next {next : Nat} (hvec : vec = pre ++ (e.bytes (leBytes 4 next) padding ++ rest))
    (hsize : vec.length < 2 ^ 32) (hpos : 0 < next) (hnext : pre.length + next < 2 ^ 32) (s : ExtendedInfoState) :
    ∃ s', s'.nodes = s.nodes ++ [e.shifted] ∧
      ∀ fuel, Step.iterate (extendedInfoStep plentiful vec) (fuel + 1) (.ofNat pre.length, s) =
        Step.iterate (extendedInfoStep plentiful vec) fuel (.ofNat (pre.length + next), s') := by
  have htoNat : (UInt32.ofNat next).toNat = next := toNat_ofNat_uint32 (by omega)
  have hne : UInt32.ofNat next ≠ 0 := by
    intro hzero
    rw [hzero] at htoNat
    exact absurd htoNat hpos.ne
  rw [← htoNat] at hvec
  obtain ⟨s', hnodes, hstep⟩ := @extendedInfoStep_bytes vec s e (.ofNat next) pre padding rest hvec hsize
  refine ⟨s', hnodes, fun fuel => ?_⟩
  rw [Step.iterate, hstep, if_neg hne, ← UInt32.ofNat_add]

end

theorem ofNat_eq_zero_iff {n : Nat} (h : n < 2 ^ 32) : UInt32.ofNat n = 0 ↔ n = 0 := by
  rw [← UInt32.toNat_inj, toNat_ofNat_uint32 h]
  rfl

section

variable {memory : Bytes}

theorem attributesComeBack_one_iff (e : ExtendedAttribute) (hmemory : memory.length = e.paddedLength) :
    AttributesComeBack [e] memory ↔ ZeroValues [e] memory := by
  have hlt := e.paddedLength_lt
  rw [attributesComeBack_iff_iterate (by simpa using hmemory) (by omega)]
  have hlink := ofNat_eq_zero_iff (@leNat_slice_lt memory 4 0)
  have hlength := @length_encodedEntries [e] memory 0 (by simpa using hmemory)
  obtain hloop := fun s => @iterate_last _ [] _ e _
    ((List.nil_append _).trans (@encodedEntries_last memory 0 e hmemory).symm).symm (by omega) s
  constructor
  · intro h
    obtain ⟨s', hresult, hnodes⟩ := h {} 1 le_rfl
    obtain ⟨s'', hnodes'', hstops, hmore⟩ := hloop ⟨{}, []⟩
    by_cases hzero : UInt32.ofNat (leNat (slice memory 0 4)) = 0
    · have hstop := hstops hzero 0
      rw [List.length_nil] at hstop
      have hsame := hresult.symm.trans hstop
      cases hsame
      refine ⟨Nat.le_succ 1, ?_, hlink.mp hzero⟩
      rw [List.forall_mem_singleton, ← e.shifted_eq_info_iff]
      exact List.cons.inj (hnodes''.symm.trans hnodes) |>.1
    · have hnone := hmore hzero
      rw [List.length_nil] at hnone
      cases hresult.symm.trans hnone
  · rintro ⟨-, hzeros, hunlinked⟩ fullEaInfo fuel hfuel
    obtain ⟨fuel, rfl⟩ : ∃ n, fuel = n + 1 := ⟨fuel - 1, by rw [List.length_singleton] at hfuel; omega⟩
    obtain ⟨s'', hnodes'', hstops, -⟩ := hloop ⟨fullEaInfo, []⟩
    refine ⟨s'', hstops (hlink.mpr hunlinked) fuel, ?_⟩
    rw [hnodes'', e.shifted_eq_info_iff.mpr (hzeros e (List.mem_singleton_self e))]
    rfl

/-- The first of at least two attributes. -/
theorem exists_iterate_first (e next : ExtendedAttribute) (info : List ExtendedAttribute)
    (hle : e.paddedLength ≤ memory.length) {vec : Bytes} (hvec : vec = encodedEntries 0 (e :: next :: info) memory)
    (hsize : vec.length < 2 ^ 32) (s : ExtendedInfoState) : ∃ pre s', pre.length = e.paddedLength ∧
      vec = pre ++ encodedEntries e.paddedLength (next :: info) (memory.drop e.paddedLength) ∧
      s'.nodes = s.nodes ++ [e.shifted] ∧
      ∀ fuel, Step.iterate (extendedInfoStep plentiful vec) (fuel + 1) (0, s) =
        Step.iterate (extendedInfoStep plentiful vec) fuel (.ofNat e.paddedLength, s') := by
  have hlt := e.paddedLength_lt
  have htwelve := e.twelve_le_paddedLength
  rw [encodedEntries_cons, Nat.zero_add] at hvec
  obtain ⟨s', hnodes, hloop⟩ := iterate_next ((List.nil_append _).trans hvec.symm).symm hsize (by omega)
    (by rw [List.length_nil]; omega) s
  rw [List.length_nil, Nat.zero_add] at hloop
  exact ⟨_, s', length_bytes_cons e hle _, hvec, hnodes, hloop⟩

theorem attributesComeBack_two_iff (e₁ e₂ : ExtendedAttribute) (hmemory : memory.length = e₁.paddedLength + e₂.paddedLength) :
    AttributesComeBack [e₁, e₂] memory ↔ ZeroValues [e₁, e₂] memory := by
  have hlt₁ := e₁.paddedLength_lt
  have hlt₂ := e₂.paddedLength_lt
  rw [attributesComeBack_iff_iterate (by simpa using hmemory) (by omega)]
  have hlink := ofNat_eq_zero_iff (@leNat_slice_lt memory 4 e₁.paddedLength)
  have hlength := @length_encodedEntries [e₁, e₂] memory 0 (by simpa using hmemory)
  generalize hvec : encodedEntries 0 [e₁, e₂] memory = vec at hlength ⊢
  -- both attributes are decoded; what follows depends on the memory
  have hloop (fullEaInfo : Smb2FileFullEaInfo) : ∃ s'', s''.nodes = [e₁.shifted, e₂.shifted] ∧
      (leNat (slice memory e₁.paddedLength 4) = 0 → ∀ fuel,
        Step.iterate (extendedInfoStep plentiful vec) (fuel + 2) (0, ⟨fullEaInfo, []⟩) = some (.ok (), s'')) ∧
      (leNat (slice memory e₁.paddedLength 4) ≠ 0 →
        Step.iterate (extendedInfoStep plentiful vec) 2 (0, ⟨fullEaInfo, []⟩) = none) := by
    obtain ⟨pre, s', hpre, hsplit, hnodes, hfirst⟩ :=
      @exists_iterate_first memory e₁ e₂ [] (by omega) _ hvec.symm (by omega) ⟨fullEaInfo, []⟩
    have hrest : (memory.drop e₁.paddedLength).length = e₂.paddedLength := by
      rw [List.length_drop]
      omega
    have hslice : slice (memory.drop e₁.paddedLength) 0 4 = slice memory e₁.paddedLength 4 := by
      rw [slice, slice, List.drop_zero]
    rw [encodedEntries_last e₂ hrest, hslice] at hsplit
    obtain ⟨s'', hnodes', hstops, hmore⟩ := iterate_last hsplit (by omega) s'
    rw [hpre] at hstops hmore
    refine ⟨s'', ?_, fun hzero fuel => ?_, fun hne => ?_⟩
    · rw [hnodes', hnodes]
      rfl
    · rw [hfirst, hstops (hlink.mpr hzero)]
    · rw [hfirst, hmore fun hzero => hne (hlink.mp hzero)]
  constructor
  · intro h
    obtain ⟨s', hresult, hnodes⟩ := h {} 2 le_rfl
    obtain ⟨s'', hnodes'', hstops, hmore⟩ := hloop {}
    by_cases hzero : leNat (slice memory e₁.paddedLength 4) = 0
    · cases hresult.symm.trans (hstops hzero 0)
      have hsame : [e₁.shifted, e₂.shifted] = [e₁.info, e₂.info] := hnodes''.symm.trans hnodes
      obtain ⟨h₁, hsame⟩ := List.cons.inj hsame
      refine ⟨le_rfl, ?_, ?_⟩
      · rw [List.forall_mem_cons, List.forall_mem_singleton]
        exact ⟨e₁.shifted_eq_info_iff.mp h₁, e₂.shifted_eq_info_iff.mp (List.cons.inj hsame).1⟩
      · simpa using hzero
    · cases hresult.symm.trans (hmore hzero)
  · rintro ⟨-, hzeros, hunlinked⟩ fullEaInfo fuel hfuel
    obtain ⟨fuel, rfl⟩ : ∃ n, fuel = n + 2 := ⟨fuel - 2, by simp only [List.length_cons, List.length_nil] at hfuel; omega⟩
    obtain ⟨s'', hnodes'', hstops, -⟩ := hloop fullEaInfo
    rw [List.forall_mem_cons, List.forall_mem_singleton] at hzeros
    refine ⟨s'', hstops (by simpa using hunlinked) fuel, ?_⟩
    rw [hnodes'', e₁.shifted_eq_info_iff.mpr hzeros.1, e₂.shifted_eq_info_iff.mpr hzeros.2]
    rfl

/-- The third attribute is looked for in front of what the distance of the second one leads to. -/
theorem looksElsewhere_of_comeBack (e₁ e₂ e₃ : ExtendedAttribute) (info : List ExtendedAttribute)
    (hmemory : memory.length = ((e₁ :: e₂ :: e₃ :: info).map ExtendedAttribute.paddedLength).sum)
    (hsize : memory.length < 2 ^ 32) (h : AttributesComeBack (e₁ :: e₂ :: e₃ :: info) memory) :
    LooksElsewhere (e₁ :: e₂ :: e₃ :: info) := by
  rw [attributesComeBack_iff_iterate hmemory hsize] at h
  have hlength := @length_encodedEntries _ memory 0 hmemory
  simp only [List.map_cons, List.sum_cons] at hmemory
  have hlt₁ := e₁.paddedLength_lt
  have hlt₂ := e₂.paddedLength_lt
  have htwelve := e₂.twelve_le_paddedLength
  generalize hvec : encodedEntries 0 (e₁ :: e₂ :: e₃ :: info) memory = vec at h hlength
  obtain ⟨s₃, hresult, hnodes⟩ := h {} (info.length + 1 + 1 + 1) le_rfl
  obtain ⟨pre, s₁, hpre, hsplit, hnodes₁, hfirst⟩ :=
    @exists_iterate_first memory e₁ e₂ (e₃ :: info) (by omega) _ hvec.symm (by omega) ⟨{}, []⟩
  rw [encodedEntries_cons] at hsplit
  obtain ⟨s₂, hnodes₂, hsecond⟩ := iterate_next hsplit (by omega) (by omega) (by omega) s₁
  rw [hpre] at hsecond
  rw [hfirst, hsecond] at hresult
  obtain ⟨node, more, hinside, hdecode, hnodes₃⟩ := nodes_of_iterate hresult
  have hoffset : (UInt32.ofNat (e₁.paddedLength + (e₁.paddedLength + e₂.paddedLength))).toNat =
      e₁.paddedLength + (e₁.paddedLength + e₂.paddedLength) := toNat_ofNat_uint32 (by omega)
  have hle := le_of_decode hdecode
  rw [hoffset] at hinside hle
  have hdrop : (View.of (vec.drop (e₁.paddedLength + (e₁.paddedLength + e₂.paddedLength)))).buf.length =
      vec.length - (e₁.paddedLength + (e₁.paddedLength + e₂.paddedLength)) := List.length_drop
  have hthird : Smb2FileExtendedInfo.mk node.eaName node.eaNameLength node.eaValue node.eaValueLength = e₃.info := by
    rw [hnodes₂, hnodes₁] at hnodes₃
    have hsame := hnodes₃.symm.trans hnodes
    have htail := (List.cons.inj (List.cons.inj hsame).2).2
    exact (List.cons.inj htail).1
  have hname : node.eaName = e₃.name := congrArg Smb2FileExtendedInfo.name hthird
  have hvalue : node.eaValue = e₃.value := congrArg Smb2FileExtendedInfo.value hthird
  rw [hname, hvalue] at hle
  rw [LooksElsewhere]
  omega

end

/-- The place is behind the third attribute, which is in the buffer if there is a fourth one. -/
theorem four_le_of_looksElsewhere {info : List ExtendedAttribute} (h : LooksElsewhere info) : 4 ≤ info.length := by
  obtain _ | ⟨e₁, _ | ⟨e₂, _ | ⟨e₃, _ | ⟨e₄, info⟩⟩⟩⟩ := info
  · exact h.elim
  · exact h.elim
  · exact h.elim
  · have htwelve := e₁.twelve_le_paddedLength
    have hpadded : e₃.paddedLength = e₃.length + (4 - e₃.length % 4) % 4 := rfl
    have hlength : e₃.length = 8 + e₃.name.length + 1 + e₃.value.length := rfl
    simp only [LooksElsewhere, List.map_nil, List.sum_nil] at h
    omega
  · simp only [List.length_cons]
    omega

/-- Attributes come back when there are one or two of them with values of zeros and the memory has a zero in
the right place. Otherwise they do not, unless there are four and more, so long that the decoder finds bytes
where it looks for the third one. -/
theorem attributesComeBack_of_zeroValues {info : List ExtendedAttribute} {memory : Bytes} (hne : info ≠ [])
    (hmemory : memory.length = smb2GetFileExtendedSize info) :
    (ZeroValues info memory → AttributesComeBack info memory) ∧
      (AttributesComeBack info memory → ZeroValues info memory ∨ 4 ≤ info.length ∧ LooksElsewhere info) := by
  suffices h : (ZeroValues info memory → AttributesComeBack info memory) ∧
      (AttributesComeBack info memory → ZeroValues info memory ∨ LooksElsewhere info) from
    ⟨h.1, fun hround => (h.2 hround).imp_right fun helse => ⟨four_le_of_looksElsewhere helse, helse⟩⟩
  obtain _ | ⟨e₁, info⟩ := info
  · exact absurd rfl hne
  have hlt₁ := e₁.paddedLength_lt
  obtain _ | ⟨e₂, info⟩ := info
  · have hsum : ([e₁].map ExtendedAttribute.paddedLength).sum = e₁.paddedLength := List.sum_singleton
    rw [smb2GetFileExtendedSize_eq _ (by omega), hsum] at hmemory
    have hiff := attributesComeBack_one_iff e₁ hmemory
    exact ⟨hiff.mpr, fun h => Or.inl (hiff.mp h)⟩
  have hlt₂ := e₂.paddedLength_lt
  obtain _ | ⟨e₃, info⟩ := info
  · have hsum : ([e₁, e₂].map ExtendedAttribute.paddedLength).sum = e₁.paddedLength + e₂.paddedLength := by simp
    rw [smb2GetFileExtendedSize_eq _ (by omega), hsum] at hmemory
    have hiff := attributesComeBack_two_iff e₁ e₂ hmemory
    exact ⟨hiff.mpr, fun h => Or.inl (hiff.mp h)⟩
  have hlt₃ := e₃.paddedLength_lt
  have hname := e₃.name_le
  have hvalue := e₃.value_le
  refine ⟨fun h => absurd h.few (by simp), fun h => Or.inr ?_⟩
  by_cases hsize : ((e₁ :: e₂ :: e₃ :: info).map ExtendedAttribute.paddedLength).sum < 2 ^ 32
  · rw [smb2GetFileExtendedSize_eq _ hsize] at hmemory
    exact looksElsewhere_of_comeBack e₁ e₂ e₃ info hmemory (by omega) h
  · -- attributes of four gigabytes are many
    simp only [List.map_cons, List.sum_cons] at hsize
    rw [LooksElsewhere]
    omega

/-- Two attributes, the first with a value of two zeros. -/
def zeroAttributes : List ExtendedAttribute :=
  [⟨[0x61], [0, 0], by decide, by decide, by decide⟩, ⟨[0x62], [], by decide, by decide, by decide⟩]

theorem attributesComeBack_zeroAttributes : AttributesComeBack zeroAttributes (List.replicate 24 0) :=
  (attributesComeBack_of_zeroValues (List.cons_ne_nil _ _) (by decide)).1 ⟨by decide, by simp, by decide⟩

/-- One attribute with the value 1. -/
def oneAttribute : ExtendedAttribute := ⟨[0x61], [1], by decide, by decide, by decide⟩

/-- In cleared memory, the value comes back as 0. -/
theorem not_attributesComeBack_oneAttribute : (List.replicate 12 (0 : UInt8)).length = smb2GetFileExtendedSize [oneAttribute] ∧
    ¬ AttributesComeBack [oneAttribute] (List.replicate 12 0) := by
  refine ⟨by decide, fun h => ?_⟩
  have hzero := ((attributesComeBack_one_iff oneAttribute (by decide)).mp h).zeros oneAttribute (List.mem_singleton_self _) 1
    (List.mem_singleton_self _)
  exact absurd hzero (by decide)

end CodeStudy.Samba
