import CodeStudy.Base.Chain
import CodeStudy.Base.View
import CodeStudy.Samba.Ucs2
import Mathlib.Data.UInt

/-!
# Chains of entries

Directory entries, extended attributes and the streams of a file come as chains: every entry begins
with the distance to the next one, and the last one says zero. Three loops of the client walk through
such chains. They differ in what they decode; each of them compares its offset with the length of the
buffer and lets the offset, a number of 32 bits, overflow.
-/

namespace CodeStudy.Samba

/-- The places where the decoders allocate memory for an entry. -/
inductive EntryAlloc where
  | name | value | node
  deriving DecidableEq

/-- Which allocations succeed, with the number of entries decoded before. -/
abbrev EntryMemory := EntryAlloc → Nat → Bool

/-- One turn of a loop over a chain. -/
def entryStep {σ : Type} (vec : Bytes) (malformed : String) (decode : View → σ → σ × Except Fault UInt32) :
    UInt32 × σ → Step (UInt32 × σ) (Except Fault Unit × σ)
  | (offset, s) =>
      if vec.length ≤ offset.toNat then .done (.error (.failed (-1) malformed), s)
      else
        match decode (.of (vec.drop offset.toNat)) s with
        | (s, .error fault) => .done (.error fault, s)
        | (s, .ok next) => if next = 0 then .done (.ok (), s) else .next (offset + next, s)

/-- A name of the wire as a C string. The conversion counts its bytes in an `int`, and it returns a
null pointer when there is no memory. -/
def decodeName (alloc : Bool) (vec : View) (offset ucs2Len : Nat) : Except Fault (Option Bytes) := do
  let ucs2 ← vec.copy offset (ucs2Len * 2)
  let str := ucs2ToUtf8 (ucs2Units ucs2.1)
  if str.length + 1 < 2 ^ 31 then .ok (if alloc then some str else none) else .error .undefined

/-! ### Directory entries -/

structure Smb2FileIdFullDirectoryInformation where
  nextEntryOffset : UInt32 := 0
  fileIndex : UInt32 := 0
  creationTime : UInt64 := 0
  lastAccessTime : UInt64 := 0
  lastWriteTime : UInt64 := 0
  changeTime : UInt64 := 0
  endOfFile : UInt64 := 0
  allocationSize : UInt64 := 0
  fileAttributes : UInt32 := 0
  eaSize : UInt32 := 0
  fileId : UInt64 := 0
  name : Bytes := []

/-- The name comes last in an entry: where it fits, the fields before it do. `nameLen` is what the
variable for the length of the name holds before it is read. -/
def smb2DecodeFileidfulldirectoryinformation (alloc : Bool) (fs : Smb2FileIdFullDirectoryInformation)
    (nameLen : UInt32) (vec : View) : Except Fault Smb2FileIdFullDirectoryInformation := do
  let nameLen ← vec.get 4 60 nameLen.toNat
  if (80 + UInt32.ofNat nameLen).toNat > vec.len then
    .error (.failed (-1) "smb2_decode_fileidfulldirectoryinformation:Malformed name in query.\n")
  else
    let nextEntryOffset ← vec.get 4 0 fs.nextEntryOffset.toNat
    let fileIndex ← vec.get 4 4 fs.fileIndex.toNat
    let endOfFile ← vec.get 8 40 fs.endOfFile.toNat
    let allocationSize ← vec.get 8 48 fs.allocationSize.toNat
    let fileAttributes ← vec.get 4 56 fs.fileAttributes.toNat
    let eaSize ← vec.get 4 64 fs.eaSize.toNat
    let fileId ← vec.get 8 72 fs.fileId.toNat
    let name ← decodeName alloc vec 80 (nameLen / 2)
    let creationTime ← vec.get 8 8 fs.creationTime.toNat
    let lastAccessTime ← vec.get 8 16 fs.lastAccessTime.toNat
    let lastWriteTime ← vec.get 8 24 fs.lastWriteTime.toNat
    let changeTime ← vec.get 8 32 fs.changeTime.toNat
    match name with
    -- the caller makes a string of the null pointer
    | none => .error .undefined
    | some name =>
        .ok {
          nextEntryOffset := .ofNat nextEntryOffset
          fileIndex := .ofNat fileIndex
          creationTime := .ofNat creationTime
          lastAccessTime := .ofNat lastAccessTime
          lastWriteTime := .ofNat lastWriteTime
          changeTime := .ofNat changeTime
          endOfFile := .ofNat endOfFile
          allocationSize := .ofNat allocationSize
          fileAttributes := .ofNat fileAttributes
          eaSize := .ofNat eaSize
          fileId := .ofNat fileId
          name }

def smb2TypeFile : UInt32 := 0
def smb2TypeDirectory : UInt32 := 1
def smb2FileAttributeDirectory : UInt32 := 0x10

/-- The entry of the directory that is made of the fields. -/
def Smb2FileIdFullDirectoryInformation.toDirent (fs : Smb2FileIdFullDirectoryInformation) : Smb2dirent where
  name := cString fs.name
  type := if fs.fileAttributes &&& smb2FileAttributeDirectory ≠ 0 then smb2TypeDirectory else smb2TypeFile
  nlink := 0
  ino := fs.fileId
  size := fs.endOfFile
  atime := fs.lastAccessTime
  mtime := fs.lastWriteTime
  ctime := fs.changeTime
  crtime := fs.creationTime
  allocationSize := fs.allocationSize
  attributes := fs.fileAttributes
  eaSize := fs.eaSize

/-- The variables of the loop over directory entries. -/
structure DirentState where
  fs : Smb2FileIdFullDirectoryInformation
  entries : List Smb2dirent

def decodeDirent (alloc : EntryMemory) (nameLen : UInt32) (vec : View) (s : DirentState) :
    DirentState × Except Fault UInt32 :=
  match smb2DecodeFileidfulldirectoryinformation (alloc .name s.entries.length) s.fs nameLen vec with
  | .error fault => (s, .error fault)
  | .ok fs => ({ fs, entries := s.entries ++ [fs.toDirent] }, .ok fs.nextEntryOffset)

def direntStep (alloc : EntryMemory) (nameLen : UInt32) (vec : Bytes) :
    UInt32 × DirentState → Step (UInt32 × DirentState) (Except Fault Unit × DirentState) :=
  entryStep vec "Malformed query directory reply." (decodeDirent alloc nameLen)

/-- The entries are appended to those the directory has. -/
def decodeDirents (fuel : Nat) (alloc : EntryMemory) (nameLen : UInt32) (fs : Smb2FileIdFullDirectoryInformation)
    (entries : List Smb2dirent) (vec : Bytes) : Option (Except Fault Unit × List Smb2dirent) :=
  (Step.iterate (direntStep alloc nameLen vec) fuel (0, ⟨fs, entries⟩)).map fun result =>
    (result.1, result.2.entries)

/-! ### Extended attributes -/

structure Smb2FileFullEaInfo where
  nextEntryOffset : UInt32 := 0
  flags : UInt8 := 0
  eaNameLength : UInt8 := 0
  eaValueLength : UInt16 := 0
  eaName : Bytes := []
  eaValue : Bytes := []

def smb2DecodeFileFullEaInfo (alloc : EntryAlloc → Bool) (info : Smb2FileFullEaInfo) (vec : View) :
    Except Fault Smb2FileFullEaInfo := do
  let nextEntryOffset ← vec.get 4 0 info.nextEntryOffset.toNat
  let flags ← vec.get 1 4 info.flags.toNat
  let eaNameLength ← vec.get 1 5 info.eaNameLength.toNat
  let eaValueLength ← vec.get 2 6 info.eaValueLength.toNat
  if alloc .name = false then
    .error (.failed (-1) "smb2_decode_file_full_ea_info:Failed to allocate ea name")
  else if alloc .value = false then
    .error (.failed (-1) "smb2_decode_file_full_ea_info:Failed to allocate ea value")
  else
    -- nothing compares the two lengths with that of the buffer
    let eaName ← vec.copy 8 eaNameLength
    let eaValue ← vec.copy (8 + eaNameLength) eaValueLength
    .ok {
      nextEntryOffset := .ofNat nextEntryOffset
      flags := .ofNat flags
      eaNameLength := .ofNat eaNameLength
      eaValueLength := .ofNat eaValueLength
      eaName := eaName.1
      eaValue := eaValue.1 }

structure Smb2FileExtendedInfo where
  name : Bytes
  nameLen : UInt8
  value : Bytes
  valueLen : UInt16

/-- The variables of the loop over extended attributes, with the nodes that are filled. -/
structure ExtendedInfoState where
  fullEaInfo : Smb2FileFullEaInfo
  nodes : List Smb2FileExtendedInfo

def decodeExtendedInfo (alloc : EntryMemory) (vec : View) (s : ExtendedInfoState) :
    ExtendedInfoState × Except Fault UInt32 :=
  match smb2DecodeFileFullEaInfo (fun site => alloc site s.nodes.length) s.fullEaInfo vec with
  | .error fault => (s, .error fault)
  | .ok info =>
      let node : Smb2FileExtendedInfo := ⟨info.eaName, info.eaNameLength, info.eaValue, info.eaValueLength⟩
      if info.nextEntryOffset ≠ 0 ∧ alloc .node s.nodes.length = false then
        -- the nodes are freed
        (⟨info, []⟩, .error (.failed (-1)
          "smb2_decode_file_extended_info:Failed to allocate smb2_file_extended_info"))
      else (⟨info, s.nodes ++ [node]⟩, .ok info.nextEntryOffset)

def extendedInfoStep (alloc : EntryMemory) (vec : Bytes) :
    UInt32 × ExtendedInfoState → Step (UInt32 × ExtendedInfoState) (Except Fault Unit × ExtendedInfoState) :=
  entryStep vec "smb2_decode_file_extended_info:Malformed query reply" (decodeExtendedInfo alloc)

def smb2DecodeFileExtendedInfo (fuel : Nat) (alloc : EntryMemory) (fullEaInfo : Smb2FileFullEaInfo) (vec : Bytes) :
    Option (Except Fault Unit × List Smb2FileExtendedInfo) :=
  (Step.iterate (extendedInfoStep alloc vec) fuel (0, ⟨fullEaInfo, []⟩)).map fun result =>
    (result.1, result.2.nodes)

/-! ### Streams -/

structure Smb2FileFullStreamInfo where
  nextEntryOffset : UInt32
  streamNameLength : UInt32
  streamSize : UInt64
  streamAllocationSize : UInt64
  streamName : Bytes

/-- The structure is cleared before every entry. -/
def smb2DecodeFileFullStreamInfo (alloc : Bool) (vec : View) : Except Fault Smb2FileFullStreamInfo := do
  let nextEntryOffset ← vec.get 4 0 0
  let streamNameLength ← vec.get 4 4 0
  let streamSize ← vec.get 8 8 0
  let streamAllocationSize ← vec.get 8 16 0
  -- nothing compares the length with that of the buffer
  match ← decodeName alloc vec 24 (streamNameLength / 2) with
  | none => .error (.failed (-1)
      "smb2_decode_file_full_stream_info:Failed to allocate memory for stream name")
  | some streamName =>
      .ok {
        nextEntryOffset := .ofNat nextEntryOffset
        streamNameLength := .ofNat streamNameLength
        streamSize := .ofNat streamSize
        streamAllocationSize := .ofNat streamAllocationSize
        streamName }

/-- The bytes a node has for its name. -/
def streamNameSize : Nat := 4096

structure Smb2FileStreamInfo where
  name : Bytes
  size : UInt64
  allocationSize : UInt64

def decodeStreamInfo (alloc : EntryMemory) (vec : View) (nodes : List Smb2FileStreamInfo) :
    List Smb2FileStreamInfo × Except Fault UInt32 :=
  match smb2DecodeFileFullStreamInfo (alloc .name nodes.length) vec with
  | .error fault => ([], .error fault)
  | .ok info =>
      -- as many bytes are copied as the name has units
      let count := info.streamNameLength.toNat / 2
      if streamNameSize < count then ([], .error .undefined)
      else
        let node : Smb2FileStreamInfo := {
          name := memcpy (List.replicate streamNameSize 0) 0 ((info.streamName ++ [0]).take count)
          size := info.streamSize
          allocationSize := info.streamAllocationSize }
        if info.nextEntryOffset ≠ 0 ∧ alloc .node nodes.length = false then
          ([], .error (.failed (-1)
            "smb2_decode_file_stream_info:Failed to allocate smb2_file_stream_info"))
        else (nodes ++ [node], .ok info.nextEntryOffset)

def streamInfoStep (alloc : EntryMemory) (vec : Bytes) :
    UInt32 × List Smb2FileStreamInfo →
      Step (UInt32 × List Smb2FileStreamInfo) (Except Fault Unit × List Smb2FileStreamInfo) :=
  entryStep vec "smb2_decode_file_stream_info:Malformed query reply" (decodeStreamInfo alloc)

/-- After an error the nodes are freed, the first one of the caller with them. -/
def smb2DecodeFileStreamInfo (fuel : Nat) (alloc : EntryMemory) (vec : Bytes) :
    Option (Except Fault Unit × List Smb2FileStreamInfo) :=
  (Step.iterate (streamInfoStep alloc vec) fuel (0, [])).map fun result =>
    match result with
    | (.ok (), nodes) => (.ok (), nodes)
    | (.error fault, _) => (.error fault, [])

/-! ### What a chain links -/

/-- Every allocation succeeds. -/
def plentiful : EntryMemory := fun _ _ => true

/-- How far the entry at an offset says it is to the next one, when the entry can be decoded. -/
def entryLink {σ : Type} (vec : Bytes) (decode : View → σ → σ × Except Fault UInt32) (s : σ) (offset : UInt32) :
    Option UInt32 :=
  if vec.length ≤ offset.toNat then none else (decode (.of (vec.drop offset.toNat)) s).2.toOption

def direntLink (vec : Bytes) : UInt32 → Option UInt32 := entryLink vec (decodeDirent plentiful 0) ⟨{}, []⟩

def extendedInfoLink (vec : Bytes) : UInt32 → Option UInt32 := entryLink vec (decodeExtendedInfo plentiful) ⟨{}, []⟩

def streamInfoLink (vec : Bytes) : UInt32 → Option UInt32 := entryLink vec (decodeStreamInfo plentiful) []

theorem toOption_eq_some {x : Except Fault UInt32} {d : UInt32} : x.toOption = some d ↔ x = .ok d := by
  cases x with
  | error fault => exact iff_of_false (fun h => by cases h) (fun h => by cases h)
  | ok a =>
      constructor
      · intro h
        cases h
        rfl
      · intro h
        cases h
        rfl

section

variable {σ ι : Type} {vec : Bytes} {malformed : String} {decode : ι → View → σ → σ × Except Fault UInt32} {i : ι}
  {s₀ : σ}

/-- What an entry says depends on the entry alone, as long as it can be decoded. -/
def EntryDecodesLocally (decode : ι → View → σ → σ × Except Fault UInt32) (i : ι) : Prop :=
  ∀ i' b s d, (decode i' (.of b) s).2 = .ok d → ∀ s', (decode i (.of b) s').2 = .ok d

theorem follows_entryStep (hlocal : EntryDecodesLocally decode i) (i' : ι) :
    Step.Follows (entryStep vec malformed (decode i')) (entryLink vec (decode i) s₀) where
  sound offset s offset' s' h := by
    rw [entryStep] at h
    by_cases hend : vec.length ≤ offset.toNat
    · rw [if_pos hend] at h
      cases h
    · rw [if_neg hend] at h
      split at h
      · cases h
      · rename_i s₁ d hdecode
        by_cases hzero : d = 0
        · rw [if_pos hzero] at h
          cases h
        · rw [if_neg hzero] at h
          cases h
          refine ⟨d, ?_, hzero, rfl⟩
          rw [entryLink, if_neg hend, toOption_eq_some]
          exact hlocal i' _ s d (by rw [hdecode]) s₀

theorem followsAll_entryStep (hlocal : EntryDecodesLocally decode i) :
    Step.FollowsAll (entryStep vec malformed (decode i)) (entryLink vec (decode i) s₀) where
  toFollows := follows_entryStep hlocal i
  complete offset s d hlink hne := by
    rw [entryLink] at hlink
    split_ifs at hlink with hend
    have hdecode := hlocal i _ s₀ d (toOption_eq_some.mp hlink) s
    generalize hresult : decode i (.of (vec.drop offset.toNat)) s = result at hdecode
    obtain ⟨s', ret⟩ := result
    simp only at hdecode
    refine ⟨s', ?_⟩
    rw [entryStep, if_neg hend, hresult, hdecode]
    exact if_neg hne

/-- A loop over a chain returns, whatever can be allocated and whatever its variables hold, unless the
distances of some entries in a row add up to a multiple of 2^32. -/
theorem entryStep_returns_iff (hlocal : EntryDecodesLocally decode i) :
    (∀ i' s, Step.Returns (entryStep vec malformed (decode i')) (0, s)) ↔
      ¬ Step.Cyclic (entryLink vec (decode i) s₀) := by
  constructor
  · intro h hcyclic
    exact (followsAll_entryStep hlocal).not_returns hcyclic s₀ (h i s₀)
  · intro hacyclic i' s
    have hbound (offset d : UInt32) (hlink : entryLink vec (decode i) s₀ offset = some d) :
        offset.toNat < vec.length := by
      rw [entryLink] at hlink
      split_ifs at hlink with hend
      exact not_le.mp hend
    have hfollows : Step.Follows (entryStep vec malformed (decode i')) (entryLink vec (decode i) s₀) :=
      follows_entryStep hlocal i'
    have hsome := hfollows.iterate_isSome (fun _ _ => UInt32.toNat_inj.mp) hbound hacyclic s
    obtain ⟨r, hr⟩ := Option.isSome_iff_exists.mp hsome
    exact ⟨_, r, hr⟩

end

/-- Entries that do not reach past the last offset of 32 bits come to an end. -/
theorem not_cyclic_of_forward {link : UInt32 → Option UInt32}
    (h : ∀ offset d, link offset = some d → offset.toNat + d.toNat < 2 ^ 32) : ¬ Step.Cyclic link := by
  have hsum {offset : UInt32} {ds : List UInt32} (hlinks : Step.Links link offset ds) :
      (offset + ds.sum).toNat = offset.toNat + (ds.map UInt32.toNat).sum := by
    induction ds generalizing offset with
    | nil => rw [List.sum_nil, add_zero, List.map_nil, List.sum_nil, Nat.add_zero]
    | cons d ds ih =>
        obtain ⟨hd, -, hlinks⟩ := hlinks
        have hadd : (offset + d).toNat = offset.toNat + d.toNat := by
          rw [UInt32.toNat_add, Nat.mod_eq_of_lt (h _ _ hd)]
        rw [List.sum_cons, ← add_assoc, ih hlinks, hadd, List.map_cons, List.sum_cons, Nat.add_assoc]
  rintro ⟨pre, ds, hne, hlinks, hzero⟩
  rw [Step.links_append] at hlinks
  have hback := hsum hlinks.2
  rw [hzero, add_zero] at hback
  cases ds with
  | nil => exact hne rfl
  | cons d ds =>
      obtain ⟨-, hd, -⟩ := hlinks.2
      rw [List.map_cons, List.sum_cons] at hback
      apply hd
      rw [← UInt32.toNat_inj]
      show d.toNat = 0
      omega

/-- So such a loop returns if no entry of the buffer reaches so far. -/
theorem entryStep_returns_of_forward {σ ι : Type} {vec : Bytes} {malformed : String}
    {decode : ι → View → σ → σ × Except Fault UInt32} {i : ι} {s₀ : σ}
    (hlocal : EntryDecodesLocally decode i)
    (h : ∀ offset d, entryLink vec (decode i) s₀ offset = some d → offset.toNat + d.toNat < 2 ^ 32)
    (i' : ι) (s : σ) : Step.Returns (entryStep vec malformed (decode i')) (0, s) :=
  (entryStep_returns_iff hlocal).mpr (not_cyclic_of_forward h) i' s

/-! ### What an entry says -/

theorem decodeName_eq_some {alloc : Bool} {vec : View} {offset ucs2Len : Nat} {str : Bytes}
    (h : decodeName alloc vec offset ucs2Len = .ok (some str)) : alloc = true := by
  obtain ⟨ucs2, -, h'⟩ := bind_eq_ok.mp h
  cases alloc with
  | true => rfl
  | false =>
      simp only [Bool.false_eq_true, if_false] at h'
      split_ifs at h'
      cases h'

/-- A directory entry that can be decoded has all its fields. -/
theorem length_of_dirent {alloc : Bool} {fs fs' : Smb2FileIdFullDirectoryInformation} {nameLen : UInt32} {b : Bytes}
    (h : smb2DecodeFileidfulldirectoryinformation alloc fs nameLen (.of b) = .ok fs') : 80 ≤ b.length := by
  obtain ⟨nameLen', -, h⟩ := bind_eq_ok.mp h
  split_ifs at h with hlong
  iterate 7 obtain ⟨_, -, h⟩ := bind_eq_ok.mp h
  obtain ⟨name, hname, -⟩ := bind_eq_ok.mp h
  obtain ⟨ucs2, hcopy, -⟩ := bind_eq_ok.mp hname
  have hle : 80 + nameLen' / 2 * 2 ≤ b.length := View.le_of_copy hcopy
  omega

/-- Its fields are those of the buffer, and none is left from the entry before. -/
theorem dirent_fields {alloc : Bool} {fs fs' : Smb2FileIdFullDirectoryInformation} {nameLen : UInt32} {b : Bytes}
    (h : smb2DecodeFileidfulldirectoryinformation alloc fs nameLen (.of b) = .ok fs')
    (fs₂ : Smb2FileIdFullDirectoryInformation) (nameLen₂ : UInt32) :
    smb2DecodeFileidfulldirectoryinformation true fs₂ nameLen₂ (.of b) = .ok fs' := by
  have hlength := length_of_dirent h
  have halloc : alloc = true := by
    obtain ⟨nameLen', -, h⟩ := bind_eq_ok.mp h
    split_ifs at h with hlong
    iterate 7 obtain ⟨_, -, h⟩ := bind_eq_ok.mp h
    obtain ⟨name, hname, h⟩ := bind_eq_ok.mp h
    iterate 4 obtain ⟨_, -, h⟩ := bind_eq_ok.mp h
    cases name with
    | none => cases h
    | some str => exact decodeName_eq_some hname
  rw [halloc] at h
  rw [← h]
  simp (disch := omega) only [smb2DecodeFileidfulldirectoryinformation, View.get_of, ok_bind]

theorem entryDecodesLocally_dirent (nameLen₀ : UInt32) :
    EntryDecodesLocally (fun i : EntryMemory × UInt32 => decodeDirent i.1 i.2) (plentiful, nameLen₀) := by
  rintro ⟨alloc, nameLen⟩ b s d h s'
  simp only [decodeDirent] at h ⊢
  split at h
  · cases h
  · rename_i fs hfs
    rw [show plentiful .name s'.entries.length = true from rfl, dirent_fields hfs s'.fs nameLen₀]
    exact h

/-- The fixed part of an attribute that can be decoded is in the buffer. -/
theorem length_of_fullEaInfo {alloc : EntryAlloc → Bool} {info info' : Smb2FileFullEaInfo} {b : Bytes}
    (h : smb2DecodeFileFullEaInfo alloc info (.of b) = .ok info') : 8 ≤ b.length := by
  iterate 4 obtain ⟨_, -, h⟩ := bind_eq_ok.mp h
  split_ifs at h
  obtain ⟨name, hname, -⟩ := bind_eq_ok.mp h
  have hle := View.le_of_copy hname
  exact le_trans (Nat.le_add_right _ _) hle

theorem fullEaInfo_fields {alloc : EntryAlloc → Bool} {info info' : Smb2FileFullEaInfo} {b : Bytes}
    (h : smb2DecodeFileFullEaInfo alloc info (.of b) = .ok info') (info₂ : Smb2FileFullEaInfo) :
    smb2DecodeFileFullEaInfo (fun _ => true) info₂ (.of b) = .ok info' := by
  have hlength := length_of_fullEaInfo h
  simp (disch := omega) only [smb2DecodeFileFullEaInfo, View.get_of, ok_bind] at h ⊢
  split_ifs at h
  rw [if_neg (by decide), if_neg (by decide)]
  exact h

theorem entryDecodesLocally_extendedInfo : EntryDecodesLocally decodeExtendedInfo plentiful := by
  intro alloc b s d h s'
  simp only [decodeExtendedInfo] at h ⊢
  split at h
  · cases h
  · rename_i info hinfo
    split_ifs at h
    have hinfo' : smb2DecodeFileFullEaInfo (fun site => plentiful site s'.nodes.length) s'.fullEaInfo (.of b) =
        .ok info := fullEaInfo_fields hinfo s'.fullEaInfo
    rw [hinfo']
    simp only [plentiful, Bool.true_eq_false, and_false, if_false]
    exact h

theorem fullStreamInfo_plentiful {alloc : Bool} {info : Smb2FileFullStreamInfo} {b : Bytes}
    (h : smb2DecodeFileFullStreamInfo alloc (.of b) = .ok info) :
    smb2DecodeFileFullStreamInfo true (.of b) = .ok info := by
  have halloc : alloc = true := by
    iterate 4 obtain ⟨_, -, h⟩ := bind_eq_ok.mp h
    obtain ⟨name, hname, h⟩ := bind_eq_ok.mp h
    cases name with
    | none => cases h
    | some str => exact decodeName_eq_some hname
  rw [← halloc]
  exact h

theorem entryDecodesLocally_streamInfo : EntryDecodesLocally decodeStreamInfo plentiful := by
  intro alloc b s d h s'
  simp only [decodeStreamInfo] at h ⊢
  split at h
  · cases h
  · rename_i info hinfo
    split_ifs at h with hlong hnode
    rw [show plentiful .name s'.length = true from rfl, fullStreamInfo_plentiful hinfo]
    simp only [plentiful, hlong, Bool.true_eq_false, and_false, if_false]
    exact h

/-- The three loops return on a buffer, whatever can be allocated, if and only if no entries that they
come to in a row have distances that add up to a multiple of 2^32. -/
theorem entryLoops_return_iff (vec : Bytes) :
    ((∀ alloc nameLen s, Step.Returns (direntStep alloc nameLen vec) (0, s)) ↔ ¬ Step.Cyclic (direntLink vec)) ∧
    ((∀ alloc s, Step.Returns (extendedInfoStep alloc vec) (0, s)) ↔ ¬ Step.Cyclic (extendedInfoLink vec)) ∧
    ((∀ alloc s, Step.Returns (streamInfoStep alloc vec) (0, s)) ↔ ¬ Step.Cyclic (streamInfoLink vec)) := by
  refine ⟨?_, entryStep_returns_iff entryDecodesLocally_extendedInfo, entryStep_returns_iff entryDecodesLocally_streamInfo⟩
  have hdirent := @entryStep_returns_iff _ _ vec "Malformed query directory reply." _ _ ⟨{}, []⟩ (entryDecodesLocally_dirent 0)
  refine Iff.trans ?_ hdirent
  exact ⟨fun h i => h i.1 i.2, fun h alloc nameLen => h (alloc, nameLen)⟩

/-- An entry without a name, and so many bytes to the next one. -/
def emptyDirent (distance : Nat) : Bytes := leBytes 4 distance ++ List.replicate 76 0

/-- Two entries that lead to each other. -/
theorem not_returns_direntStep :
    ¬ Step.Returns (direntStep plentiful 0 (emptyDirent 80 ++ emptyDirent (2 ^ 32 - 80))) (0, ⟨{}, []⟩) := by
  have hfollows := @followsAll_entryStep _ _ (emptyDirent 80 ++ emptyDirent (2 ^ 32 - 80))
    "Malformed query directory reply." _ _ ⟨{}, []⟩ (entryDecodesLocally_dirent 0)
  have hfirst : direntLink (emptyDirent 80 ++ emptyDirent (2 ^ 32 - 80)) 0 = some 80 := by decide +kernel
  have hsecond : direntLink (emptyDirent 80 ++ emptyDirent (2 ^ 32 - 80)) 80 = some (0 - 80) := by decide +kernel
  refine hfollows.not_returns ⟨[], [80, 0 - 80], ?_, ⟨hfirst, by decide, ?_, by decide, trivial⟩, by decide⟩ _
  · intro h
    cases h
  · exact hsecond

end CodeStudy.Samba
