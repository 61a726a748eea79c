import Mathlib.Algebra.Order.BigOperators.Group.List
import CodeStudy.Samba.Context

/-!
# The layout of a frame

A request is one io vector for the header, the vectors of its body and the padding that makes its
size a multiple of eight. A chain points from each header to the next through `nextCommand`, and its
frame is announced with one length. The program keeps the sizes of vectors in the type `size_t`, but
the link and the announced length are 32-bit numbers, and the data of a WRITE is added through a
function that takes its length as an `int`.
-/

namespace CodeStudy.Samba

/-! ### Sizes as the program keeps them -/

/-- The io vectors of a request as far as their sizes go. -/
structure IovSizes where
  totalSize : UInt64 := 0
  lens : List UInt64 := []

namespace IovSizes

def smb2AddIovector (v : IovSizes) (len : UInt64) : IovSizes := ⟨v.totalSize + len, v.lens ++ [len]⟩

/-- The length stored with a buffer when it is passed as an `int`. -/
def intLen (len : Nat) : UInt64 := UInt64.ofInt (toInt32 len)

/-- The sum is an `int`; only its last three bits are looked at. -/
def smb2PadTo64bit (v : IovSizes) : IovSizes :=
  let len := v.lens.foldl (fun len l => len + l.toUInt32) (0 : UInt32)
  if len &&& 7 = 0 then v else v.smb2AddIovector (intLen (8 - (len &&& 7).toNat))

/-- The bytes of all vectors, by the lengths stored with them. -/
def size (v : IovSizes) : Nat := (v.lens.map UInt64.toNat).sum

end IovSizes

/-- The commands that pass the length of their variable part as an `int`. -/
def Smb2Command.passesInt : Smb2Command → Bool
  | .write | .treeConnect => true
  | _ => false

namespace RequestSpec

/-- The lengths stored with the vectors of the body. -/
def bodyLens (spec : RequestSpec) : List UInt64 :=
  if spec.command.passesInt then
    spec.body.dropLast.map (fun iov => UInt64.ofNat iov.length) ++
      spec.body.getLast?.toList.map fun data => IovSizes.intLen data.length
  else spec.body.map fun iov => UInt64.ofNat iov.length

/-- The sizes of the vectors that `createPdu` makes. -/
def sizes (spec : RequestSpec) : IovSizes :=
  (spec.bodyLens.foldl IovSizes.smb2AddIovector
    (IovSizes.smb2AddIovector {} (IovSizes.intLen smb2HeaderSize))).smb2PadTo64bit

/-- The number of bytes of the request, padded. -/
def wireSize (spec : RequestSpec) : Nat := (smb2HeaderSize + byteCount spec.body + 7) / 8 * 8

/-- The lengths in the structures that describe requests are 32-bit fields. -/
def InRange (spec : RequestSpec) : Prop := ∀ iov ∈ spec.body, iov.length < 2 ^ 32

end RequestSpec

/-- Where the header of a request stands in the frame. -/
def headerOffset (specs : List RequestSpec) (index : Nat) : Nat :=
  ((specs.take index).map fun spec => spec.sizes.size).sum

/-- A frame is laid out as its headers and its announced length say. -/
structure FrameLaidOut (smb2 : Smb2Context) (first : RequestSpec) (others : List RequestSpec) :
    Prop where
  total : ∀ spec ∈ first :: others, spec.sizes.totalSize.toNat = spec.sizes.size
  aligned : ∀ spec ∈ first :: others, 8 ∣ spec.sizes.size
  linked : ∀ index pdu, (createChain smb2 first others).members[index]? = some pdu →
    index < others.length → headerOffset (first :: others) index + pdu.header.nextCommand.toNat =
      headerOffset (first :: others) (index + 1)
  last : (createChain smb2 first others).last.header.nextCommand = 0
  related : ∀ index pdu, (createChain smb2 first others).members[index]? = some pdu →
    (pdu.header.flags &&& smb2FlagsRelatedOperations ≠ 0 ↔ 0 < index)
  length : (createChain smb2 first others).getReqNBLength.toNat =
    (((first :: others).flatMap fun spec => spec.sizes.lens).map UInt64.toNat).sum

/-- The data of every WRITE has a length that is an `int`, and the frame one of 32 bits. -/
structure ChainFits (specs : List RequestSpec) : Prop where
  data : ∀ spec ∈ specs, spec.command.passesInt → ∀ iov ∈ spec.body.getLast?, iov.length < 2 ^ 31
  frame : (specs.map RequestSpec.wireSize).sum < 2 ^ 32

/-! ### The members of a chain -/

section

variable {smb2 : Smb2Context}

/-- A request that others come before. -/
def Smb2Pdu.asRelated (pdu : Smb2Pdu) : Smb2Pdu :=
  pdu.relink pdu.header.nextCommand (pdu.header.flags ||| smb2FlagsRelatedOperations)

/-- A request whose header points behind its end, when there is something. -/
def Smb2Pdu.linkIf (pdu : Smb2Pdu) (isLinked : Bool) : Smb2Pdu :=
  if isLinked then pdu.relink (UInt32.ofNat pdu.out.totalSize) pdu.header.flags else pdu

/-- Requests linked one after the other, from one that is not linked yet. -/
def linkFrom (last : Smb2Pdu) : List Smb2Pdu → List Smb2Pdu
  | [] => [last]
  | next :: others => last.linkIf true :: linkFrom next.asRelated others

theorem members_foldl_smb2AddCompoundPdu (specs : List RequestSpec) (chain : PduChain) :
    (specs.foldl (fun chain spec => chain.smb2AddCompoundPdu (createPdu smb2 spec)) chain).members =
      chain.members.dropLast ++ linkFrom chain.last (specs.map (createPdu smb2)) := by
  induction specs generalizing chain with
  | nil => exact chain.members_eq
  | cons spec specs ih =>
      have hdrop : (chain.smb2AddCompoundPdu (createPdu smb2 spec)).members.dropLast =
          chain.members.dropLast ++ [chain.last.linkIf true] := by
        rw [PduChain.members_smb2AddCompoundPdu]
        simp [Smb2Pdu.linkIf]
      rw [List.foldl_cons, ih, hdrop, PduChain.last_smb2AddCompoundPdu, List.append_assoc]
      rfl

theorem members_createChain (first : RequestSpec) (others : List RequestSpec) :
    (createChain smb2 first others).members =
      linkFrom (createPdu smb2 first) (others.map (createPdu smb2)) :=
  members_foldl_smb2AddCompoundPdu others { head := createPdu smb2 first }

theorem length_linkFrom (last : Smb2Pdu) (pdus : List Smb2Pdu) :
    (linkFrom last pdus).length = pdus.length + 1 := by
  induction pdus generalizing last with
  | nil => rfl
  | cons next others ih => rw [linkFrom, List.length_cons, ih, List.length_cons]

theorem getElem?_linkFrom (last : Smb2Pdu) (pdus : List Smb2Pdu) (index : Nat) :
    (linkFrom last pdus)[index]? = ((last :: pdus.map Smb2Pdu.asRelated)[index]?).map fun pdu =>
      pdu.linkIf (decide (index < pdus.length)) := by
  induction pdus generalizing last index with
  | nil =>
      cases index with
      | zero => rfl
      | succ index => rfl
  | cons next others ih =>
      cases index with
      | zero => rfl
      | succ index =>
          rw [linkFrom, List.getElem?_cons_succ, ih, List.map_cons, List.getElem?_cons_succ,
            List.length_cons]
          simp only [Nat.add_lt_add_iff_right]

theorem Smb2Pdu.nextCommand_linkIf (pdu : Smb2Pdu) (isLinked : Bool) :
    (pdu.linkIf isLinked).header.nextCommand =
      if isLinked then UInt32.ofNat pdu.out.totalSize else pdu.header.nextCommand := by
  cases isLinked <;> rfl

theorem Smb2Pdu.flags_linkIf (pdu : Smb2Pdu) (isLinked : Bool) :
    (pdu.linkIf isLinked).header.flags = pdu.header.flags := by
  cases isLinked <;> rfl

theorem links_createPdu (spec : RequestSpec) :
    (createPdu smb2 spec).header.nextCommand = 0 ∧ (createPdu smb2 spec).header.flags = 0 := by
  simp only [createPdu]
  split_ifs
  · exact ⟨rfl, rfl⟩
  · exact ⟨rfl, rfl⟩

/-- The member at a position of a chain, with the request it was built for. -/
theorem exists_spec_of_getElem? {first : RequestSpec} {others : List RequestSpec} {index : Nat}
    {pdu : Smb2Pdu} (h : (createChain smb2 first others).members[index]? = some pdu) :
    ∃ spec, (first :: others)[index]? = some spec ∧
      pdu.header.nextCommand = (if index < others.length then
        UInt32.ofNat (createPdu smb2 spec).out.totalSize else 0) ∧
      pdu.header.flags = if 0 < index then smb2FlagsRelatedOperations else 0 := by
  rw [members_createChain, getElem?_linkFrom, List.length_map] at h
  obtain ⟨built, hbuilt, rfl⟩ := Option.map_eq_some_iff.mp h
  rw [Smb2Pdu.nextCommand_linkIf, Smb2Pdu.flags_linkIf]
  simp only [decide_eq_true_eq]
  cases index with
  | zero =>
      cases hbuilt
      exact ⟨first, rfl, by rw [(links_createPdu first).1], (links_createPdu first).2⟩
  | succ index =>
      rw [List.getElem?_cons_succ, List.map_map, List.getElem?_map] at hbuilt
      obtain ⟨spec, hspec, rfl⟩ := Option.map_eq_some_iff.mp hbuilt
      have hnext : (createPdu smb2 spec).asRelated.header.nextCommand = 0 := (links_createPdu spec).1
      have hflags : (createPdu smb2 spec).asRelated.header.flags = smb2FlagsRelatedOperations := by
        show (createPdu smb2 spec).header.flags ||| smb2FlagsRelatedOperations = _
        rw [(links_createPdu spec).2]
        rfl
      refine ⟨spec, hspec, ?_, hflags⟩
      show (if index + 1 < others.length then UInt32.ofNat (createPdu smb2 spec).out.totalSize
        else (createPdu smb2 spec).asRelated.header.nextCommand) = _
      rw [hnext]

end

/-! ### The size of a request -/

namespace IovSizes

theorem lens_foldl (lens : List UInt64) (v : IovSizes) :
    (lens.foldl smb2AddIovector v).lens = v.lens ++ lens := by
  induction lens generalizing v with
  | nil => exact (List.append_nil _).symm
  | cons len lens ih => rw [List.foldl_cons, ih, smb2AddIovector, List.append_assoc]; rfl

/-- The running total is the sum of the lengths, modulo `2 ^ 64`. -/
def Counted (v : IovSizes) : Prop := v.totalSize = UInt64.ofNat v.size

theorem size_smb2AddIovector (v : IovSizes) (len : UInt64) :
    (v.smb2AddIovector len).size = v.size + len.toNat := by
  simp [size, smb2AddIovector]

theorem Counted.smb2AddIovector {v : IovSizes} (h : v.Counted) (len : UInt64) :
    (v.smb2AddIovector len).Counted := by
  rw [Counted, size_smb2AddIovector, UInt64.ofNat_add, ← h, UInt64.ofNat_toNat]
  rfl

theorem Counted.foldl {v : IovSizes} (h : v.Counted) (lens : List UInt64) :
    (lens.foldl IovSizes.smb2AddIovector v).Counted := by
  induction lens generalizing v with
  | nil => exact h
  | cons len lens ih => exact ih (h.smb2AddIovector len)

theorem Counted.smb2PadTo64bit {v : IovSizes} (h : v.Counted) : v.smb2PadTo64bit.Counted := by
  simp only [IovSizes.smb2PadTo64bit]
  split_ifs
  · exact h
  · exact h.smb2AddIovector _

theorem toNat_intLen {len : Nat} (h : len < 2 ^ 31) : (intLen len).toNat = len := by
  rw [intLen, toInt32_of_lt (by omega) (by exact_mod_cast h), uint64_ofInt_natCast,
    toNat_ofNat_uint64 (by omega)]

/-- A length beyond the `int` range becomes an enormous one. -/
theorem le_toNat_intLen {len : Nat} (h : 2 ^ 31 ≤ len) (hlt : len < 2 ^ 32) :
    2 ^ 32 ≤ (intLen len).toNat := by
  have hint : toInt32 len = (len : Int) - 2 ^ 32 := by
    rw [toInt32, Int.bmod_def]
    omega
  rw [intLen, hint, UInt64.ofInt, toNat_ofNat_uint64 (by omega)]
  omega

theorem foldl_toUInt32 (lens : List UInt64) (len : UInt32) :
    lens.foldl (fun len l => len + l.toUInt32) len =
      len + UInt32.ofNat (lens.map UInt64.toNat).sum := by
  induction lens generalizing len with
  | nil => exact (UInt32.add_zero len).symm
  | cons l lens ih =>
      rw [List.foldl_cons, ih, List.map_cons, List.sum_cons, UInt32.ofNat_add, ← UInt32.add_assoc,
        UInt32.ofNat_uInt64ToNat]

/-- The padding makes the bytes a multiple of eight. -/
theorem size_smb2PadTo64bit (v : IovSizes) : v.smb2PadTo64bit.size = (v.size + 7) / 8 * 8 := by
  have hbits : ((UInt32.ofNat v.size) &&& 7).toNat = v.size % 8 := by
    rw [UInt32.toNat_and, UInt32.toNat_ofNat']
    show (v.size % 2 ^ 32) &&& (2 ^ 3 - 1) = v.size % 8
    rw [Nat.and_two_pow_sub_one_eq_mod]
    omega
  rw [smb2PadTo64bit, foldl_toUInt32, UInt32.zero_add]
  show (if UInt32.ofNat v.size &&& 7 = 0 then v
    else v.smb2AddIovector (intLen (8 - (UInt32.ofNat v.size &&& 7).toNat))).size = _
  split_ifs with hzero
  · have hmod : v.size % 8 = 0 := by rw [← hbits, hzero]; rfl
    omega
  · have hmod : v.size % 8 ≠ 0 := by
      rw [← hbits]
      exact fun h => hzero (UInt32.toNat_inj.mp h)
    rw [size_smb2AddIovector, hbits, toNat_intLen (by omega)]
    omega

end IovSizes

namespace RequestSpec

variable (spec : RequestSpec)

theorem size_sizes : spec.sizes.size =
    (smb2HeaderSize + (spec.bodyLens.map UInt64.toNat).sum + 7) / 8 * 8 := by
  rw [sizes, IovSizes.size_smb2PadTo64bit, IovSizes.size, IovSizes.lens_foldl, List.map_append,
    List.sum_append]
  rfl

theorem counted_sizes : spec.sizes.Counted := by
  have hempty : IovSizes.Counted {} := rfl
  exact ((hempty.smb2AddIovector _).foldl _).smb2PadTo64bit

variable {spec}

/-- The stored lengths are the true ones unless an `int` was too small for one of them. -/
theorem bodyLens_eq (hrange : spec.InRange)
    (hdata : spec.command.passesInt → ∀ iov ∈ spec.body.getLast?, iov.length < 2 ^ 31) :
    spec.bodyLens.map UInt64.toNat = spec.body.map List.length := by
  have hvec : ∀ iovs : List Bytes, (∀ iov ∈ iovs, iov.length < 2 ^ 32) →
      (iovs.map fun iov => UInt64.ofNat iov.length).map UInt64.toNat = iovs.map List.length := by
    intro iovs hiovs
    rw [List.map_map]
    apply List.map_congr_left
    intro iov hiov
    exact toNat_ofNat_uint64 ((hiovs iov hiov).trans (by decide))
  rw [bodyLens]
  split_ifs with hint
  · rw [List.map_append, hvec _ fun iov hiov => hrange iov (List.dropLast_subset _ hiov)]
    cases hlast : spec.body.getLast? with
    | none => simp [List.getLast?_eq_none_iff.mp hlast]
    | some data =>
        obtain ⟨pre, hbody⟩ := List.getLast?_eq_some_iff.mp hlast
        rw [hbody, List.dropLast_concat, List.map_append]
        simp [IovSizes.toNat_intLen (hdata hint data hlast)]
  · exact hvec _ hrange

theorem size_eq_wireSize (hrange : spec.InRange)
    (hdata : spec.command.passesInt → ∀ iov ∈ spec.body.getLast?, iov.length < 2 ^ 31) :
    spec.sizes.size = spec.wireSize := by
  rw [size_sizes, bodyLens_eq hrange hdata]
  rfl

/-- A length that an `int` does not hold makes the request larger than any frame. -/
theorem data_lt_of_size_lt (hrange : spec.InRange) (hsize : spec.sizes.size < 2 ^ 32) :
    spec.command.passesInt → ∀ iov ∈ spec.body.getLast?, iov.length < 2 ^ 31 := by
  intro hint data hlast
  by_contra hle
  have hmem : data ∈ spec.body := List.mem_of_mem_getLast? hlast
  have hlarge := IovSizes.le_toNat_intLen (not_lt.mp hle) (hrange data hmem)
  have hstored : (IovSizes.intLen data.length).toNat ∈ spec.bodyLens.map UInt64.toNat := by
    rw [bodyLens, if_pos hint, Option.mem_def.mp hlast]
    simp
  have hle := List.le_sum_of_mem hstored
  rw [size_sizes] at hsize
  omega

theorem byteCount_smb2PadTo64bit (v : Smb2IoVectors) :
    byteCount v.smb2PadTo64bit.iovs = (byteCount v.iovs + 7) / 8 * 8 := by
  simp only [Smb2IoVectors.smb2PadTo64bit]
  split_ifs with hmod
  · omega
  · show byteCount (v.iovs ++ [List.replicate (8 - byteCount v.iovs % 8) 0]) = _
    rw [byteCount_append, byteCount_cons, byteCount_nil, List.length_replicate]
    omega

theorem byteCount_createPdu (smb2 : Smb2Context) (spec : RequestSpec) :
    byteCount (createPdu smb2 spec).out.iovs = spec.wireSize := by
  have hbody := Smb2IoVectors.iovs_smb2AppendIovectors
    (Smb2Pdu.new smb2 spec.command spec.appData).out ⟨0, spec.body⟩
  show byteCount ((Smb2Pdu.new smb2 spec.command spec.appData).out.smb2AppendIovectors
    ⟨0, spec.body⟩).smb2PadTo64bit.iovs = _
  rw [byteCount_smb2PadTo64bit, hbody, byteCount_append]
  rfl

end RequestSpec

/-! ### Frames -/

section

variable {smb2 : Smb2Context} {first : RequestSpec} {others : List RequestSpec}

theorem sum_lens_eq (specs : List RequestSpec) :
    ((specs.flatMap fun spec => spec.sizes.lens).map UInt64.toNat).sum =
      (specs.map fun spec => spec.sizes.size).sum := by
  induction specs with
  | nil => rfl
  | cons spec specs ih =>
      rw [List.flatMap_cons, List.map_append, List.sum_append, ih, List.map_cons, List.sum_cons]
      rfl

/-- The announced length is the number of bytes, modulo `2 ^ 32`. -/
theorem getReqNBLength_createChain :
    (createChain smb2 first others).getReqNBLength =
      UInt32.ofNat ((first :: others).map RequestSpec.wireSize).sum := by
  have hsizes : ∀ (pdus : List Smb2Pdu) (last : Smb2Pdu),
      byteCount ((linkFrom last pdus).flatMap fun p => p.out.iovs) =
        byteCount last.out.iovs + (pdus.map fun p => byteCount p.out.iovs).sum := by
    intro pdus
    induction pdus with
    | nil => simp [linkFrom]
    | cons next pdus ih =>
        intro last
        rw [linkFrom, List.flatMap_cons, byteCount_append, ih]
        rfl
  rw [PduChain.getReqNBLength_eq _ (counted_createChain smb2 first others),
    PduChain.iovs_getAllComOutVecs, members_createChain, hsizes, List.map_map,
    RequestSpec.byteCount_createPdu]
  simp only [Function.comp_def, RequestSpec.byteCount_createPdu]
  rfl

theorem headerOffset_succ {specs : List RequestSpec} {index : Nat} {spec : RequestSpec}
    (h : specs[index]? = some spec) :
    headerOffset specs (index + 1) = headerOffset specs index + spec.sizes.size := by
  rw [headerOffset, List.take_add_one, h, Option.toList_some, List.map_append, List.sum_append]
  simp [headerOffset]

theorem frameLaidOut_of_fits (hrange : ∀ spec ∈ first :: others, spec.InRange)
    (hfits : ChainFits (first :: others)) : FrameLaidOut smb2 first others := by
  have hsize : ∀ spec ∈ first :: others, spec.sizes.size = spec.wireSize := fun spec hspec =>
    RequestSpec.size_eq_wireSize (hrange spec hspec) (hfits.data spec hspec)
  have hlt : ∀ spec ∈ first :: others, spec.wireSize < 2 ^ 32 := fun spec hspec =>
    lt_of_le_of_lt (List.le_sum_of_mem (List.mem_map_of_mem hspec)) hfits.frame
  refine ⟨?_, ?_, ?_, ?_, ?_, ?_⟩
  · intro spec hspec
    have hlt := hlt spec hspec
    rw [spec.counted_sizes, toNat_ofNat_uint64 (by rw [hsize spec hspec]; omega)]
  · intro spec hspec
    rw [hsize spec hspec]
    exact Nat.dvd_mul_left _ _
  · intro index pdu hpdu hindex
    obtain ⟨spec, hspec, hnext, -⟩ := exists_spec_of_getElem? hpdu
    have hmem := List.mem_of_getElem? hspec
    have hcounted : (createPdu smb2 spec).out.totalSize = spec.wireSize :=
      (counted_createPdu smb2 spec).trans (RequestSpec.byteCount_createPdu smb2 spec)
    rw [headerOffset_succ hspec, hnext, if_pos hindex, hcounted,
      toNat_ofNat_uint32 (hlt spec hmem), hsize spec hmem]
  · have hlast : (createChain smb2 first others).members[others.length]? =
        some (createChain smb2 first others).last := by
      have hlen : (createChain smb2 first others).members.length = others.length + 1 := by
        rw [members_createChain, length_linkFrom, List.length_map]
      have hend := List.getLast?_eq_getElem? (l := (createChain smb2 first others).members)
      rw [hlen, Nat.add_sub_cancel] at hend
      rw [← hend, PduChain.members_eq, List.getLast?_concat]
    obtain ⟨spec, -, hnext, -⟩ := exists_spec_of_getElem? hlast
    rw [hnext, if_neg (lt_irrefl _)]
  · intro index pdu hpdu
    obtain ⟨spec, -, -, hflags⟩ := exists_spec_of_getElem? hpdu
    rw [hflags]
    by_cases hindex : 0 < index
    · simp only [hindex, iff_true]
      decide
    · simp [hindex]
  · rw [getReqNBLength_createChain, toNat_ofNat_uint32 hfits.frame, sum_lens_eq,
      List.map_congr_left hsize]

theorem fits_of_frameLaidOut (hrange : ∀ spec ∈ first :: others, spec.InRange)
    (h : FrameLaidOut smb2 first others) : ChainFits (first :: others) := by
  have hlength := h.length
  rw [sum_lens_eq] at hlength
  have htotal : ((first :: others).map fun spec => spec.sizes.size).sum < 2 ^ 32 :=
    hlength ▸ UInt32.toNat_lt _
  have hdata : ∀ spec ∈ first :: others, spec.command.passesInt →
      ∀ iov ∈ spec.body.getLast?, iov.length < 2 ^ 31 := by
    intro spec hspec
    apply RequestSpec.data_lt_of_size_lt (hrange spec hspec)
    exact lt_of_le_of_lt (List.le_sum_of_mem
      (List.mem_map_of_mem (f := fun spec : RequestSpec => spec.sizes.size) hspec)) htotal
  refine ⟨hdata, ?_⟩
  have hsize : ∀ spec ∈ first :: others, spec.sizes.size = spec.wireSize := fun spec hspec =>
    RequestSpec.size_eq_wireSize (hrange spec hspec) (hdata spec hspec)
  rwa [List.map_congr_left hsize] at htotal

theorem frameLaidOut_iff_fits (hrange : ∀ spec ∈ first :: others, spec.InRange) :
    FrameLaidOut smb2 first others ↔ ChainFits (first :: others) :=
  ⟨fits_of_frameLaidOut hrange, frameLaidOut_of_fits hrange⟩

end

/-- A CREATE with a name of one letter, which needs padding. -/
def createLetter : RequestSpec where
  command := .create
  appData := 0
  body := [List.replicate 56 0, [0x66, 0]]

def closeCreated : RequestSpec where
  command := .close
  appData := 1
  body := [List.replicate 24 0]

theorem frameLaidOut_createLetter : (∀ spec ∈ [createLetter, closeCreated], spec.InRange) ∧
    FrameLaidOut (.fresh smb2Version0311) createLetter [closeCreated] := by
  have hrange : ∀ spec ∈ [createLetter, closeCreated], spec.InRange := by
    simp only [RequestSpec.InRange]
    decide
  exact ⟨hrange, (frameLaidOut_iff_fits hrange).mpr ⟨by decide, by decide⟩⟩

/-- An IOCTL with some bytes of input. -/
def ioctlRequest (inputCount : Nat) : RequestSpec where
  command := .ioctl
  appData := 0
  body := [List.replicate 56 0, List.replicate inputCount 0]

theorem wireSize_ioctlRequest (inputCount : Nat) :
    ([ioctlRequest inputCount].map RequestSpec.wireSize).sum = (127 + inputCount) / 8 * 8 := by
  have hbody : byteCount (ioctlRequest inputCount).body = 56 + inputCount := by
    simp only [ioctlRequest, byteCount_cons, byteCount_nil, List.length_replicate, Nat.add_zero]
  rw [List.map_singleton, List.sum_singleton, RequestSpec.wireSize, hbody, smb2HeaderSize]
  omega

/-- As much input as makes a frame of exactly `2 ^ 32` bytes. -/
theorem not_frameLaidOut_ioctlRequest : (ioctlRequest (2 ^ 32 - 120)).InRange ∧
    (createChain (.fresh smb2Version0311) (ioctlRequest (2 ^ 32 - 120)) []).getReqNBLength = 0 ∧
    ¬ FrameLaidOut (.fresh smb2Version0311) (ioctlRequest (2 ^ 32 - 120)) [] := by
  have hrange : (ioctlRequest (2 ^ 32 - 120)).InRange := by
    intro iov hiov
    rcases List.mem_pair.mp hiov with rfl | rfl
    · rw [List.length_replicate]
      omega
    · rw [List.length_replicate]
      omega
  have hsum := wireSize_ioctlRequest (2 ^ 32 - 120)
  refine ⟨hrange, ?_, fun h => ?_⟩
  · rw [getReqNBLength_createChain, hsum]
    decide
  · have hfits := (fits_of_frameLaidOut (List.forall_mem_singleton.mpr hrange) h).frame
    rw [hsum] at hfits
    omega

end CodeStudy.Samba
