import CodeStudy.Base.Defined
import CodeStudy.Base.Store
import CodeStudy.Samba.ShareBounds
import CodeStudy.Samba.ShareResponse

/-!
# The SID of an account

A server answers the question for the SID of an account with the SID of its domain and a number of
relative ids. The parser walks through the answer, copies the SID of the domain, makes its block larger
by the number of relative ids and writes the first of them behind the sub-authorities. Nothing in it asks
how many there are, and the length of the answer is used for the place of its status only: an answer that ends
too early is read on in the caller's array, which has zeros there.
-/

namespace CodeStudy.Samba

/-! ### The parser -/

def readUint (width : Nat) (b : Bytes) (offset : Nat) : Except Fault Nat := do
  let bytes ← (View.of b).copy offset width
  .ok (leNat bytes.1)

theorem length_noWords : ([] : List UInt32).length = 0 := rfl

/-- Words that follow one another. -/
def readWords (b : Bytes) : (count offset : Nat) → Except Fault { l : List UInt32 // l.length = count }
  | 0, _ => .ok ⟨[], length_noWords⟩
  | count + 1, offset => do
      let first ← readU32 b offset
      let rest ← readWords b count (add32 offset 4)
      .ok ⟨.ofNat first :: rest.1, congrArg Nat.succ rest.2⟩

/-- What the parser reads: the SID of the domain, the number of relative ids and the first of them. -/
structure LookupNames where
  revision : UInt8
  idAuth : Block 6
  subAuths : List UInt32
  subAuths_lt : subAuths.length < 256
  ridEntries : UInt32
  rid : UInt32

/-- Whether there is memory for the SID and for the larger one, and what is in new memory. -/
structure SidMemory where
  malloc : Bool := true
  realloc : Bool := true
  junk : (n : Nat) → Block n := fun n => ⟨List.replicate n 0, List.length_replicate⟩

theorem length_lt_of_count {subAuthCount : Nat}
    (subAuths : { l : List UInt32 // l.length = (UInt8.ofNat subAuthCount).toNat }) : subAuths.1.length < 256 :=
  subAuths.2.trans_lt (UInt8.ofNat subAuthCount).toNat_lt

/-- The number of relative ids and the first of them. -/
def readRids (buffer : Bytes) (offset : Nat) : Except Fault (UInt32 × UInt32) := do
  let ridEntries ← readU32 buffer offset
  let offset := add32 (add32 offset 4) 4
  let _ridMaxCount ← readU32 buffer offset
  let offset := add32 offset 4
  let _sidTypeValue ← readUint 2 buffer offset
  let offset := align4 (add32 offset 2)
  let rid ← readU32 buffer offset
  let offset := add32 offset 4
  let _domainIndex ← readU32 buffer offset
  .ok (.ofNat ridEntries, .ofNat rid)

/-- The SID of the domain, and the relative ids behind it. -/
def readDomainSid (malloc : Bool) (buffer : Bytes) (offset : Nat) : Except Fault LookupNames := do
  let maxSubAuthCount ← readU32 buffer offset
  let offset := add32 offset 4
  let revision ← readUint 1 buffer offset
  let offset := add32 offset 1
  let subAuthCount ← readUint 1 buffer offset
  let offset := add32 offset 1
  if maxSubAuthCount ≠ (UInt8.ofNat subAuthCount).toNat then
    .error (.failed (-1) "lsarpc_parse_LookupNamesRes: Mismatch of sub-auth counts")
  else if malloc = false then
    .error (.failed (-1) "lsarpc_parse_LookupNamesRes: failed to allocate memory for sid")
  else do
    let idAuth ← (View.of buffer).copy offset 6
    let offset := align4 (add32 offset 6)
    let subAuths ← readWords buffer (UInt8.ofNat subAuthCount).toNat offset
    let offset := align4 (add32 offset (4 * (UInt8.ofNat subAuthCount).toNat))
    let (ridEntries, rid) ← readRids buffer offset
    .ok { revision := .ofNat revision, idAuth, subAuths := subAuths.1
          subAuths_lt := length_lt_of_count subAuths
          ridEntries, rid }

/-- The reads of the parser, in its order. Most of the fields are not used. -/
def readLookupNames (malloc : Bool) (buffer : Bytes) (bufLen : Nat) : Except Fault LookupNames := do
  let status ← readU32 buffer (sub32 bufLen 4)
  if status ≠ 0 then .error (.failed (-1) "")
  else do
    let _numEntries ← readU32 buffer 4
    let _maxEntries ← readU32 buffer 12
    let _maxCount ← readU32 buffer 16
    let _length ← readUint 2 buffer 20
    let _maxLength ← readUint 2 buffer 22
    let domainName ← (View.of buffer).copy 32 12
    readDomainSid malloc buffer (align4 (add32 44 (2 * word domainName.1 2)))

/-- The writes of the parser: the SID of the domain into a block of its size, and the relative id into the
block that it was made. -/
def LookupNames.build (memory : SidMemory) (r : LookupNames) : Except Fault Bytes := do
  let oldSubAuthCount := UInt8.ofNat r.subAuths.length
  let sidbuf := (memory.junk (8 + 4 * oldSubAuthCount.toNat)).1
  let sidbuf ← store sidbuf 0 [r.revision, oldSubAuthCount]
  let sidbuf ← store sidbuf 2 r.idAuth.1
  let sidbuf ← store sidbuf 8 (r.subAuths.flatMap fun subAuth => leBytes 4 subAuth.toNat)
  -- the number of entries is added in eight bits
  let subAuthCount := oldSubAuthCount + UInt8.ofNat r.ridEntries.toNat
  if memory.realloc = false then
    .error (.failed (-1) "lsarpc_parse_LookupNamesRes: failed to allocate2 memory for sid")
  else do
    let sidbuf := realloc memory.junk sidbuf (8 + 4 * subAuthCount.toNat)
    let sidbuf ← store sidbuf 0 [r.revision, subAuthCount]
    store sidbuf (8 + 4 * oldSubAuthCount.toNat) (leBytes 4 r.rid.toNat)

def lsarpcParseLookupNamesRes (memory : SidMemory) (buffer : Bytes) (bufLen : Nat) : Except Fault Bytes := do
  let r ← readLookupNames memory.malloc buffer bufLen
  r.build memory

/-! ### What it is to give -/

/-- The bytes of the SID of the domain with the relative id as its last sub-authority. -/
def LookupNames.accountSid (r : LookupNames) : Bytes :=
  [r.revision, UInt8.ofNat (r.subAuths.length + 1)] ++ r.idAuth.1 ++
    ((r.subAuths ++ [r.rid]).flatMap fun subAuth => leBytes 4 subAuth.toNat)

/-- A SID of one sub-authority more than that of the domain can be made, of the one relative id. -/
def LookupNames.Extensible (r : LookupNames) : Prop := r.ridEntries = 1 ∧ r.subAuths.length < 255

instance (r : LookupNames) : Decidable r.Extensible := inferInstanceAs (Decidable (_ ∧ _))

/-- Where the SID of the domain begins, behind the name of the domain. -/
def sidOffset (buffer : Bytes) : Nat := align4 (add32 44 (2 * leNat (slice buffer 40 4)))

/-- Its number of sub-authorities. -/
def subAuthCount (buffer : Bytes) : Nat := leNat (slice buffer (sidOffset buffer + 5) 1)

/-- Where the relative ids begin, with their number. -/
def ridOffset (buffer : Bytes) : Nat := sidOffset buffer + 12 + 4 * subAuthCount buffer

/-- Nothing is read outside of the memory from the response on or written outside of a block. What is accepted is a
response that has the first relative id in front of its status and can be extended to the SID that is returned. -/
def GivesAccountSid (memory : SidMemory) (buffer : Bytes) (bufLen : Nat) : Prop :=
  Meets (lsarpcParseLookupNamesRes memory buffer bufLen) fun sid =>
    ∃ r, readLookupNames memory.malloc buffer bufLen = .ok r ∧ ridOffset buffer + 28 ≤ bufLen ∧ r.Extensible ∧
      sid = r.accountSid ∧ sid.length = 8 + 4 * (r.subAuths.length + 1)

/-- The numbers of sub-authorities are in the memory, and if they agree, the response has the first relative id in
front of its status, there is no other, and fewer than 255 sub-authorities are in front of it. -/
def NamesOneRid (buffer : Bytes) (bufLen : Nat) : Prop :=
  sidOffset buffer + 6 ≤ buffer.length ∧
    (leNat (slice buffer (sidOffset buffer) 4) = subAuthCount buffer →
      ridOffset buffer + 28 ≤ bufLen ∧ leNat (slice buffer (ridOffset buffer) 4) = 1 ∧ subAuthCount buffer < 255)

instance (buffer : Bytes) (bufLen : Nat) : Decidable (NamesOneRid buffer bufLen) := inferInstanceAs (Decidable (_ ∧ _))

/-- The status is in the memory, and if it is that of success, the rest of the response is as it has to be. -/
def NamesOneAccount (buffer : Bytes) (bufLen : Nat) : Prop :=
  4 ≤ bufLen ∧ bufLen ≤ buffer.length ∧
    (leNat (slice buffer (bufLen - 4) 4) = 0 → 44 ≤ buffer.length ∧ NamesOneRid buffer bufLen)

instance (buffer : Bytes) (bufLen : Nat) : Decidable (NamesOneAccount buffer bufLen) :=
  inferInstanceAs (Decidable (_ ∧ _))

/-! ### The block -/

namespace LookupNames

variable (r : LookupNames)

theorem toNat_subAuthCount : (UInt8.ofNat r.subAuths.length).toNat = r.subAuths.length :=
  UInt8.toNat_ofNat_of_lt' r.subAuths_lt

/-- The bytes of the SID of the domain. -/
def domainSid : Bytes :=
  [r.revision, UInt8.ofNat r.subAuths.length] ++ (r.idAuth.1 ++ r.subAuths.flatMap fun subAuth => leBytes 4 subAuth.toNat)

theorem length_words (words : List UInt32) : (words.flatMap fun word => leBytes 4 word.toNat).length = 4 * words.length := by
  induction words with
  | nil => rfl
  | cons word words ih =>
      rw [List.flatMap_cons, List.length_append, length_leBytes, ih, List.length_cons]
      omega

theorem length_domainSid : r.domainSid.length = 8 + 4 * r.subAuths.length := by
  rw [domainSid, List.length_append, List.length_append, r.idAuth.2, length_words]
  show 2 + (6 + 4 * r.subAuths.length) = _
  omega

/-- The first block holds the SID of the domain. -/
theorem build_eq (memory : SidMemory) : r.build memory =
    if memory.realloc = false then .error (.failed (-1) "lsarpc_parse_LookupNamesRes: failed to allocate2 memory for sid")
    else
      let subAuthCount := UInt8.ofNat r.subAuths.length + UInt8.ofNat r.ridEntries.toNat
      store (CodeStudy.Samba.realloc memory.junk r.domainSid (8 + 4 * subAuthCount.toNat)) 0
        [r.revision, subAuthCount] >>= fun sidbuf =>
          store sidbuf (8 + 4 * r.subAuths.length) (leBytes 4 r.rid.toNat) := by
  obtain ⟨first, rest, hjunk, hfirst, hrest⟩ := @exists_append_of_length
    (memory.junk (8 + 4 * r.subAuths.length)).1 2 (6 + 4 * r.subAuths.length) (by rw [(memory.junk _).2]; omega)
  obtain ⟨auth, words, rfl, hauth, hwords⟩ := exists_append_of_length hrest
  have hhead := @store_eq _ [r.revision, UInt8.ofNat r.subAuths.length] 0 [] first (auth ++ words) hjunk rfl hfirst
  have hidAuth := @store_eq _ r.idAuth.1 2 [r.revision, UInt8.ofNat r.subAuths.length] auth words rfl rfl
    (by rw [hauth, r.idAuth.2])
  have hsubAuths := @store_eq ([r.revision, UInt8.ofNat r.subAuths.length] ++ (r.idAuth.1 ++ words))
    (r.subAuths.flatMap fun subAuth => leBytes 4 subAuth.toNat) 8
    ([r.revision, UInt8.ofNat r.subAuths.length] ++ r.idAuth.1) words [] (by simp only [List.append_assoc, List.append_nil])
    (by rw [List.length_append, r.idAuth.2]; rfl) (by rw [hwords, length_words])
  simp only [List.append_assoc, List.append_nil, List.nil_append] at hhead hsubAuths
  have hblock : (memory.junk (8 + 4 * (UInt8.ofNat r.subAuths.length).toNat)).1 =
      (memory.junk (8 + 4 * r.subAuths.length)).1 := by rw [toNat_subAuthCount]
  simp only [build, hblock, toNat_subAuthCount, hhead, ok_bind, hidAuth, hsubAuths]
  rfl

/-- The larger block has room for the relative id, and holds the SID of the account. -/
theorem build_of_extensible {memory : SidMemory} (h : r.Extensible) (hrealloc : memory.realloc = true) :
    r.build memory = .ok r.accountSid := by
  obtain ⟨hone, hlt⟩ := h
  have hcount : (UInt8.ofNat r.subAuths.length + UInt8.ofNat r.ridEntries.toNat) = UInt8.ofNat (r.subAuths.length + 1) := by
    rw [hone, UInt8.ofNat_add]
    rfl
  have htoNat : (UInt8.ofNat (r.subAuths.length + 1)).toNat = r.subAuths.length + 1 :=
    UInt8.toNat_ofNat_of_lt' (show r.subAuths.length + 1 < 2 ^ 8 by omega)
  have hsize : 8 + 4 * (r.subAuths.length + 1) = r.domainSid.length + 4 := by
    rw [length_domainSid]
    omega
  obtain ⟨room, more, hjunk, hroom, -⟩ := @exists_append_of_length
    (memory.junk (8 + 4 * (r.subAuths.length + 1))).1 4 (4 + 4 * (r.subAuths.length + 1)) (by rw [(memory.junk _).2]; omega)
  have hlarger : CodeStudy.Samba.realloc memory.junk r.domainSid (8 + 4 * (r.subAuths.length + 1)) =
      r.domainSid ++ room := by
    rw [CodeStudy.Samba.realloc, hjunk, hsize, ← List.append_assoc, List.take_left' (by rw [List.length_append, hroom])]
  have hhead := @store_eq _ [r.revision, UInt8.ofNat (r.subAuths.length + 1)] 0 []
    [r.revision, UInt8.ofNat r.subAuths.length]
    (r.idAuth.1 ++ r.subAuths.flatMap (fun subAuth => leBytes 4 subAuth.toNat) ++ room)
    (show r.domainSid ++ room = _ by simp only [domainSid, List.append_assoc, List.nil_append]) rfl rfl
  have hrid := @store_eq _ (leBytes 4 r.rid.toNat) (8 + 4 * r.subAuths.length)
    ([r.revision, UInt8.ofNat (r.subAuths.length + 1)] ++
      (r.idAuth.1 ++ r.subAuths.flatMap fun subAuth => leBytes 4 subAuth.toNat)) room []
    rfl (by
      rw [List.length_append, List.length_append, r.idAuth.2, length_words]
      show 2 + (6 + 4 * r.subAuths.length) = _
      omega) (by rw [hroom, length_leBytes])
  simp only [List.append_assoc, List.nil_append, List.append_nil] at hhead hrid
  rw [build_eq, if_neg (by rw [hrealloc]; decide)]
  simp only [hcount, htoNat, hlarger, hhead, ok_bind, hrid]
  rw [accountSid, List.flatMap_append, List.flatMap_singleton]
  simp only [List.append_assoc]

/-- With memory for both blocks, the SID is written, or something outside of a block. -/
theorem build_cases {memory : SidMemory} (hrealloc : memory.realloc = true) :
    r.build memory = .error .undefined ∨ ∃ sid, r.build memory = .ok sid := by
  have hstore (block : Bytes) (position : Nat) (bytes : Bytes) :
      store block position bytes = .error .undefined ∨ ∃ block', store block position bytes = .ok block' := by
    rw [store]
    split_ifs
    · exact Or.inr ⟨_, rfl⟩
    · exact Or.inl rfl
  rw [build_eq, if_neg (by rw [hrealloc]; decide)]
  simp only
  obtain hundefined | ⟨block, hblock⟩ := hstore (CodeStudy.Samba.realloc memory.junk r.domainSid
    (8 + 4 * (UInt8.ofNat r.subAuths.length + UInt8.ofNat r.ridEntries.toNat).toNat)) 0
    [r.revision, UInt8.ofNat r.subAuths.length + UInt8.ofNat r.ridEntries.toNat]
  · rw [hundefined]
    exact Or.inl rfl
  · rw [hblock]
    exact hstore _ _ _

end LookupNames

theorem length_accountSid (r : LookupNames) : r.accountSid.length = 8 + 4 * (r.subAuths.length + 1) := by
  simp only [LookupNames.accountSid, List.length_append, r.idAuth.2, LookupNames.length_words, List.length_cons,
    List.length_nil]

/-! ### Marshalled responses -/

/-- An answer with one domain, as a server marshals it. -/
structure LookupNamesResponse where
  referent : UInt32
  domainsReferent : UInt32
  maxEntries : UInt32
  length : UInt16
  maximumLength : UInt16
  namePointer : UInt32
  sidPointer : UInt32
  nameMaxCount : UInt32
  domainName : List UInt16
  result : LookupNames
  sidsPointer : UInt32
  ridMaxCount : UInt32
  sidType : UInt16
  domainIndex : UInt32
  /-- What is behind the first relative id. -/
  rest : Bytes

namespace LookupNamesResponse

variable (m : LookupNamesResponse)

def nameBytes : Bytes := padded (ucs2Bytes m.domainName)

def sidBytes : Bytes :=
  leBytes 4 m.result.subAuths.length ++ (leBytes 1 m.result.revision.toNat ++ (leBytes 1 m.result.subAuths.length ++
    (m.result.idAuth.1 ++ m.result.subAuths.flatMap fun subAuth => leBytes 4 subAuth.toNat)))

def ridBytes : Bytes :=
  leBytes 4 m.result.ridEntries.toNat ++ (leBytes 4 m.sidsPointer.toNat ++ (leBytes 4 m.ridMaxCount.toNat ++
    (leBytes 2 m.sidType.toNat ++ ([0, 0] ++ (leBytes 4 m.result.rid.toNat ++ leBytes 4 m.domainIndex.toNat)))))

def head : Bytes :=
  leBytes 4 m.referent.toNat ++ (leBytes 4 1 ++ (leBytes 4 m.domainsReferent.toNat ++ (leBytes 4 m.maxEntries.toNat ++
    (leBytes 4 1 ++ (leBytes 2 m.length.toNat ++ (leBytes 2 m.maximumLength.toNat ++ (leBytes 4 m.namePointer.toNat ++
      (leBytes 4 m.sidPointer.toNat ++ (leBytes 4 m.nameMaxCount.toNat ++ (leBytes 4 0 ++
        leBytes 4 m.domainName.length))))))))))

/-- The bytes of the response, with the status of success. -/
def stub : Bytes := m.head ++ (m.nameBytes ++ (m.sidBytes ++ (m.ridBytes ++ (m.rest ++ leBytes 4 0))))

end LookupNamesResponse

theorem readUint_complete {width n : Nat} {b pre post : Bytes} {offset : Nat} (hb : b = pre ++ (leBytes width n ++ post))
    (hoffset : pre.length = offset) (hn : n < 256 ^ width) : readUint width b offset = .ok n := by
  rw [← List.append_assoc] at hb
  rw [readUint, View.copy_eq pre (leBytes width n) post hb hoffset (length_leBytes width n), ok_bind,
    leNat_leBytes_of_lt hn]

theorem readWords_complete (words : List UInt32) {b pre post : Bytes} {count offset : Nat}
    (hb : b = pre ++ ((words.flatMap fun word => leBytes 4 word.toNat) ++ post)) (hcount : words.length = count)
    (hoffset : pre.length = offset) (hsize : b.length < 2 ^ 32) :
    readWords b count offset = .ok ⟨words, hcount⟩ := by
  subst hcount
  induction words generalizing pre offset with
  | nil => rfl
  | cons word words ih =>
      rw [List.flatMap_cons, List.append_assoc] at hb
      have hlength := congrArg List.length hb
      simp only [List.length_append, length_leBytes] at hlength
      have hfirst : readU32 b offset = .ok word.toNat :=
        readU32_complete (hb.trans (List.append_assoc _ _ _).symm) hoffset word.toNat_lt
      have hrest := @ih (pre ++ leBytes 4 word.toNat) (add32 offset 4) (hb.trans (List.append_assoc _ _ _).symm)
        (by rw [List.length_append, length_leBytes, add32_eq (by omega), hoffset])
      show readWords b (words.length + 1) offset = _
      rw [readWords, hfirst, ok_bind, hrest, ok_bind]
      simp only [UInt32.ofNat_toNat]

section

variable {m : LookupNamesResponse} {stub tail : Bytes}

theorem length_domainSidBytes (m : LookupNamesResponse) : m.sidBytes.length = 12 + 4 * m.result.subAuths.length := by
  simp only [LookupNamesResponse.sidBytes, List.length_append, length_leBytes, m.result.idAuth.2, LookupNames.length_words]
  omega

/-- The fields in front of the name of the domain, of which its length is used. -/
theorem read_head (hstub : stub = m.head ++ (m.nameBytes ++ (m.sidBytes ++ (m.ridBytes ++ tail)))) :
    readU32 stub 4 = .ok 1 ∧ readU32 stub 12 = .ok m.maxEntries.toNat ∧ readU32 stub 16 = .ok 1 ∧
      readUint 2 stub 20 = .ok m.length.toNat ∧ readUint 2 stub 22 = .ok m.maximumLength.toNat ∧
      (View.of stub).copy 32 12 = .ok ⟨leBytes 4 m.nameMaxCount.toNat ++ (leBytes 4 0 ++
        leBytes 4 m.domainName.length), rfl⟩ := by
  have hfront : stub = leBytes 4 m.referent.toNat ++ (leBytes 4 1 ++ (leBytes 4 m.domainsReferent.toNat ++
      (leBytes 4 m.maxEntries.toNat ++ (leBytes 4 1 ++ (leBytes 2 m.length.toNat ++ (leBytes 2 m.maximumLength.toNat ++
        (leBytes 4 m.namePointer.toNat ++ (leBytes 4 m.sidPointer.toNat ++ ((leBytes 4 m.nameMaxCount.toNat ++ (leBytes 4 0 ++
          leBytes 4 m.domainName.length)) ++ (m.nameBytes ++ (m.sidBytes ++ (m.ridBytes ++ tail)))))))))))) := by
    rw [hstub, LookupNamesResponse.head]
    simp only [List.append_assoc]
  refine ⟨?_, ?_, ?_, ?_, ?_, ?_⟩
  · exact @readU32_complete _ (leBytes 4 m.referent.toNat) _ _ _ (hfront.trans (List.append_assoc _ _ _).symm) rfl
      (by decide)
  · exact @readU32_complete _ (leBytes 4 m.referent.toNat ++ (leBytes 4 1 ++ leBytes 4 m.domainsReferent.toNat)) _ _ _
      (by rw [hfront]; simp only [List.append_assoc]; rfl) rfl m.maxEntries.toNat_lt
  · exact @readU32_complete _ (leBytes 4 m.referent.toNat ++ (leBytes 4 1 ++ (leBytes 4 m.domainsReferent.toNat ++
      leBytes 4 m.maxEntries.toNat))) _ _ _ (by rw [hfront]; simp only [List.append_assoc]; rfl) rfl (by decide)
  · exact @readUint_complete 2 _ _ (leBytes 4 m.referent.toNat ++ (leBytes 4 1 ++ (leBytes 4 m.domainsReferent.toNat ++
      (leBytes 4 m.maxEntries.toNat ++ leBytes 4 1)))) _ _ (by rw [hfront]; simp only [List.append_assoc]; rfl) rfl
      m.length.toNat_lt
  · exact @readUint_complete 2 _ _ (leBytes 4 m.referent.toNat ++ (leBytes 4 1 ++ (leBytes 4 m.domainsReferent.toNat ++
      (leBytes 4 m.maxEntries.toNat ++ (leBytes 4 1 ++ leBytes 2 m.length.toNat))))) _ _
      (by rw [hfront]; simp only [List.append_assoc]; rfl) rfl m.maximumLength.toNat_lt
  · exact View.copy_eq (leBytes 4 m.referent.toNat ++ (leBytes 4 1 ++ (leBytes 4 m.domainsReferent.toNat ++
      (leBytes 4 m.maxEntries.toNat ++ (leBytes 4 1 ++ (leBytes 2 m.length.toNat ++ (leBytes 2 m.maximumLength.toNat ++
        (leBytes 4 m.namePointer.toNat ++ leBytes 4 m.sidPointer.toNat))))))))
      (leBytes 4 m.nameMaxCount.toNat ++ (leBytes 4 0 ++ leBytes 4 m.domainName.length))
      (m.nameBytes ++ (m.sidBytes ++ (m.ridBytes ++ tail)))
      (hfront.trans (by simp only [List.append_assoc])) rfl rfl

/-- The SID of the domain, behind its name. -/
theorem read_sid {front : Bytes} {offset count : Nat} (hfront : front.length = offset)
    (hstub : stub = front ++ (m.sidBytes ++ (m.ridBytes ++ tail))) (hsize : stub.length < 2 ^ 32)
    (hcount : m.result.subAuths.length = count) :
    readU32 stub offset = .ok m.result.subAuths.length ∧ readUint 1 stub (offset + 4) = .ok m.result.revision.toNat ∧
      readUint 1 stub (offset + 4 + 1) = .ok m.result.subAuths.length ∧
      (View.of stub).copy (offset + 4 + 1 + 1) 6 = .ok m.result.idAuth ∧
      readWords stub count (offset + 12) = .ok ⟨m.result.subAuths, hcount⟩ := by
  have hlt := m.result.subAuths_lt
  have hsid : stub = front ++ (leBytes 4 m.result.subAuths.length ++ (leBytes 1 m.result.revision.toNat ++
      (leBytes 1 m.result.subAuths.length ++ (m.result.idAuth.1 ++
        ((m.result.subAuths.flatMap fun subAuth => leBytes 4 subAuth.toNat) ++ (m.ridBytes ++ tail)))))) := by
    rw [hstub, LookupNamesResponse.sidBytes]
    simp only [List.append_assoc]
  refine ⟨?_, ?_, ?_, ?_, ?_⟩
  · exact @readU32_complete _ front _ _ _ (hsid.trans (List.append_assoc _ _ _).symm) hfront (by omega)
  · exact @readUint_complete 1 _ _ (front ++ leBytes 4 m.result.subAuths.length) _ _
      (by rw [hsid]; simp only [List.append_assoc]; rfl)
      (by rw [List.length_append, hfront, length_leBytes]) m.result.revision.toNat_lt
  · exact @readUint_complete 1 _ _ (front ++ (leBytes 4 m.result.subAuths.length ++ leBytes 1 m.result.revision.toNat)) _ _
      (by rw [hsid]; simp only [List.append_assoc]; rfl)
      (by simp only [List.length_append, hfront, length_leBytes]) hlt
  · exact View.copy_eq (front ++ (leBytes 4 m.result.subAuths.length ++ (leBytes 1 m.result.revision.toNat ++
      leBytes 1 m.result.subAuths.length))) m.result.idAuth.1
      ((m.result.subAuths.flatMap fun subAuth => leBytes 4 subAuth.toNat) ++ (m.ridBytes ++ tail))
      (hsid.trans (by simp only [List.append_assoc]))
      (by simp only [List.length_append, hfront, length_leBytes]) m.result.idAuth.2
  · exact @readWords_complete m.result.subAuths _ (front ++ (leBytes 4 m.result.subAuths.length ++
      (leBytes 1 m.result.revision.toNat ++ (leBytes 1 m.result.subAuths.length ++ m.result.idAuth.1)))) _ _ _
      (by rw [hsid]; simp only [List.append_assoc]; rfl) hcount
      (by simp only [List.length_append, hfront, length_leBytes, m.result.idAuth.2]) hsize

/-- The relative ids, behind the SID of the domain. -/
theorem read_rid {front : Bytes} {offset : Nat} (hfront : front.length = offset)
    (hstub : stub = front ++ (m.ridBytes ++ tail)) :
    readU32 stub offset = .ok m.result.ridEntries.toNat ∧ readU32 stub (offset + 4 + 4) = .ok m.ridMaxCount.toNat ∧
      readUint 2 stub (offset + 4 + 4 + 4) = .ok m.sidType.toNat ∧
      readU32 stub (offset + 4 + 4 + 4 + 4) = .ok m.result.rid.toNat ∧
      readU32 stub (offset + 4 + 4 + 4 + 4 + 4) = .ok m.domainIndex.toNat := by
  have hrid : stub = front ++ (leBytes 4 m.result.ridEntries.toNat ++ (leBytes 4 m.sidsPointer.toNat ++
      (leBytes 4 m.ridMaxCount.toNat ++ (leBytes 2 m.sidType.toNat ++ ([0, 0] ++ (leBytes 4 m.result.rid.toNat ++
        (leBytes 4 m.domainIndex.toNat ++ tail))))))) := by
    rw [hstub, LookupNamesResponse.ridBytes]
    simp only [List.append_assoc]
  refine ⟨?_, ?_, ?_, ?_, ?_⟩
  · exact @readU32_complete _ front _ _ _ (hrid.trans (List.append_assoc _ _ _).symm) hfront m.result.ridEntries.toNat_lt
  · exact @readU32_complete _ (front ++ (leBytes 4 m.result.ridEntries.toNat ++ leBytes 4 m.sidsPointer.toNat)) _ _ _
      (by rw [hrid]; simp only [List.append_assoc]; rfl)
      (by simp only [List.length_append, hfront, length_leBytes]) m.ridMaxCount.toNat_lt
  · exact @readUint_complete 2 _ _ (front ++ (leBytes 4 m.result.ridEntries.toNat ++ (leBytes 4 m.sidsPointer.toNat ++
      leBytes 4 m.ridMaxCount.toNat))) _ _ (by rw [hrid]; simp only [List.append_assoc]; rfl)
      (by simp only [List.length_append, hfront, length_leBytes]) m.sidType.toNat_lt
  · exact @readU32_complete _ (front ++ (leBytes 4 m.result.ridEntries.toNat ++ (leBytes 4 m.sidsPointer.toNat ++
      (leBytes 4 m.ridMaxCount.toNat ++ (leBytes 2 m.sidType.toNat ++ [0, 0]))))) _ _ _
      (by rw [hrid]; simp only [List.append_assoc]; rfl)
      (by simp only [List.length_append, hfront, length_leBytes, List.length_cons, List.length_nil]) m.result.rid.toNat_lt
  · exact @readU32_complete _ (front ++ (leBytes 4 m.result.ridEntries.toNat ++ (leBytes 4 m.sidsPointer.toNat ++
      (leBytes 4 m.ridMaxCount.toNat ++ (leBytes 2 m.sidType.toNat ++ ([0, 0] ++ leBytes 4 m.result.rid.toNat)))))) _ _ _
      (by rw [hrid]; simp only [List.append_assoc]; rfl)
      (by simp only [List.length_append, hfront, length_leBytes, List.length_cons, List.length_nil]) m.domainIndex.toNat_lt

/-- The parser reads what the server marshalled, whatever is behind it in the memory. -/
theorem readLookupNames_stub (m : LookupNamesResponse) (behind : Bytes) (hsize : (m.stub ++ behind).length < 2 ^ 32) :
    readLookupNames true (m.stub ++ behind) m.stub.length = .ok m.result := by
  have hstub : m.stub ++ behind =
      m.head ++ (m.nameBytes ++ (m.sidBytes ++ (m.ridBytes ++ (m.rest ++ (leBytes 4 0 ++ behind))))) := by
    rw [LookupNamesResponse.stub]
    simp only [List.append_assoc]
  have hhead : m.head.length = 44 := rfl
  have hname : m.nameBytes.length % 4 = 0 := length_padded_mod _
  have hsid := length_domainSidBytes m
  have hrid : m.ridBytes.length = 24 := rfl
  have hcount : (UInt8.ofNat m.result.subAuths.length).toNat = m.result.subAuths.length :=
    UInt8.toNat_ofNat_of_lt' m.result.subAuths_lt
  have hresponse : m.stub.length =
      44 + (m.nameBytes.length + (12 + 4 * m.result.subAuths.length + (24 + (m.rest.length + 4)))) := by
    rw [LookupNamesResponse.stub]
    simp only [List.length_append, hhead, hsid, hrid, length_leBytes]
  generalize m.stub.length = bufLen at *
  generalize m.stub ++ behind = stub at *
  have hlength := congrArg List.length hstub
  simp only [List.length_append, hhead, hsid, hrid, length_leBytes] at hlength
  have hstatus : readU32 stub (sub32 bufLen 4) = .ok 0 := by
    rw [sub32_eq (by omega) (by omega)]
    refine @readU32_complete _ (m.head ++ (m.nameBytes ++ (m.sidBytes ++ (m.ridBytes ++ m.rest)))) behind _ _ ?_ ?_ (by decide)
    · rw [hstub]
      simp only [List.append_assoc]
    · simp only [List.length_append, hhead, hsid, hrid]
      omega
  obtain ⟨hnumEntries, hmaxEntries, hmaxCount, hlengthField, hmaximumLength, hdomainName⟩ := read_head hstub
  have hword : word (leBytes 4 m.nameMaxCount.toNat ++ (leBytes 4 0 ++ leBytes 4 m.domainName.length)) 2 =
      m.domainName.length := by
    have hbytes := length_ucs2Bytes m.domainName
    have hpadded := length_padded (ucs2Bytes m.domainName)
    have hnameLength : m.nameBytes.length = (padded (ucs2Bytes m.domainName)).length := rfl
    exact leNat_leBytes_of_lt (show m.domainName.length < 256 ^ 4 by omega)
  have hsidAt : align4 (add32 44 (2 * m.domainName.length)) = 44 + m.nameBytes.length := by
    have hbytes := length_ucs2Bytes m.domainName
    have hpadded := length_padded (ucs2Bytes m.domainName)
    have hnameLength : m.nameBytes.length = (padded (ucs2Bytes m.domainName)).length := rfl
    rw [add32_eq (by omega), show 44 + 2 * m.domainName.length = 44 + (ucs2Bytes m.domainName).length by omega, hnameLength]
    exact align4_add rfl (by omega)
  obtain ⟨hmaxSubAuths, hrevision, hsubAuthCount, hidAuth, hwords⟩ := @read_sid m stub (m.rest ++ (leBytes 4 0 ++ behind))
    (m.head ++ m.nameBytes)
    (44 + m.nameBytes.length) _ (by rw [List.length_append, hhead]) (by rw [hstub, List.append_assoc]) hsize hcount.symm
  obtain ⟨hridEntries, hridMaxCount, hsidType, hridField, hdomainIndex⟩ := @read_rid m stub
    (m.rest ++ (leBytes 4 0 ++ behind))
    (m.head ++ (m.nameBytes ++ m.sidBytes)) (44 + m.nameBytes.length + 12 + 4 * m.result.subAuths.length)
    (by
      simp only [List.length_append, hhead, hsid]
      omega) (by rw [hstub]; simp only [List.append_assoc])
  have hauthEnd : align4 (44 + m.nameBytes.length + 4 + 1 + 1 + 6) = 44 + m.nameBytes.length + 12 :=
    align4_eq (by omega)
  have hsidEnd : align4 (44 + m.nameBytes.length + 12 + 4 * m.result.subAuths.length) =
      44 + m.nameBytes.length + 12 + 4 * m.result.subAuths.length := align4_eq (by omega)
  generalize hat : 44 + m.nameBytes.length + 12 + 4 * m.result.subAuths.length = ridAt at *
  have hridPlace : align4 (ridAt + 4 + 4 + 4 + 2) = ridAt + 4 + 4 + 4 + 4 := by
    rw [align4, if_pos (by omega), add32_eq (by omega)]
    omega
  rw [readLookupNames, hstatus, ok_bind, if_neg (not_not.mpr rfl)]
  simp only [readDomainSid, hnumEntries, ok_bind, hmaxEntries, hmaxCount, hlengthField, hmaximumLength, hdomainName, hword, hsidAt,
    hmaxSubAuths, add32_eq (show 44 + m.nameBytes.length + 4 < 2 ^ 32 by omega), hrevision,
    add32_eq (show 44 + m.nameBytes.length + 4 + 1 < 2 ^ 32 by omega), hsubAuthCount,
    add32_eq (show 44 + m.nameBytes.length + 4 + 1 + 1 < 2 ^ 32 by omega), ne_eq, hidAuth,
    add32_eq (show 44 + m.nameBytes.length + 4 + 1 + 1 + 6 < 2 ^ 32 by omega), Bool.true_eq_false, hauthEnd]
  rw [if_neg (not_not.mpr hcount.symm), if_neg not_false]
  simp only [readRids, hwords, ok_bind, hcount,
    add32_eq (show 44 + m.nameBytes.length + 12 + 4 * m.result.subAuths.length < 2 ^ 32 by omega), hat, hsidEnd, hridEntries,
    add32_eq (show ridAt + 4 < 2 ^ 32 by omega), add32_eq (show ridAt + 4 + 4 < 2 ^ 32 by omega), hridMaxCount,
    add32_eq (show ridAt + 4 + 4 + 4 < 2 ^ 32 by omega), hsidType,
    add32_eq (show ridAt + 4 + 4 + 4 + 2 < 2 ^ 32 by omega), hridPlace, hridField,
    add32_eq (show ridAt + 4 + 4 + 4 + 4 + 4 < 2 ^ 32 by omega), hdomainIndex, UInt8.ofNat_toNat, UInt32.ofNat_toNat]

end

/-! ### What is read -/

section

variable {buffer : Bytes}

theorem definedWhere_readUint (b : Bytes) (width offset : Nat) :
    DefinedWhere (readUint width b offset) (offset + width ≤ b.length) fun n => n = leNat (slice b offset width) := by
  refine ((definedWhere_copy b offset width).bind fun _ bytes hbytes => DefinedWhere.ok ?_).congr (iff_of_eq (and_true _))
  rw [hbytes]

theorem definedWhere_readWords (hsize : buffer.length < 2 ^ 32) (count : Nat) {offset : Nat}
    (hoffset : offset ≤ buffer.length) :
    DefinedWhere (readWords buffer count offset) (offset + 4 * count ≤ buffer.length) fun _ => True := by
  induction count generalizing offset with
  | zero => exact (DefinedWhere.ok trivial).congr (iff_of_true trivial hoffset)
  | succ count ih =>
      refine ((definedWhere_readU32 buffer offset).bind fun hfirst first _ =>
        (@ih (add32 offset 4) ?_).bind fun _ rest _ => DefinedWhere.ok trivial).congr ?_
      · rw [add32_eq (by omega)]
        exact hfirst
      · constructor
        · rintro ⟨hfirst, hrest, -⟩
          rw [add32_eq (by omega)] at hrest
          omega
        · intro hall
          have hhere : add32 offset 4 = offset + 4 := add32_eq (by omega)
          exact ⟨by omega, by omega, trivial⟩

theorem definedWhere_readRids (hsize : buffer.length < 2 ^ 31) {offset : Nat} (haligned : offset % 4 = 0) :
    DefinedWhere (readRids buffer offset) (offset + 24 ≤ buffer.length)
      fun rids => rids.1 = .ofNat (leNat (slice buffer offset 4)) := by
  refine ((definedWhere_readU32 buffer offset).bind fun hentries ridEntries hread =>
    (?_ : DefinedWhere _ (offset + 24 ≤ buffer.length) _)).congr (and_iff_right_of_imp fun h => by omega)
  have htypeEnd : align4 (offset + 4 + 4 + 4 + 2) = offset + 16 := by
    rw [align4, if_pos (by omega), add32_eq (by omega)]
    omega
  simp only [add32_eq (show offset + 4 < 2 ^ 32 by omega), add32_eq (show offset + 4 + 4 < 2 ^ 32 by omega),
    add32_eq (show offset + 4 + 4 + 4 < 2 ^ 32 by omega), add32_eq (show offset + 4 + 4 + 4 + 2 < 2 ^ 32 by omega),
    htypeEnd, add32_eq (show offset + 16 + 4 < 2 ^ 32 by omega)]
  refine ((definedWhere_readU32 buffer _).bind fun _ _ _ => (definedWhere_readUint buffer 2 _).bind fun _ _ _ =>
    (definedWhere_readU32 buffer _).bind fun _ _ _ => (definedWhere_readU32 buffer _).bind fun _ _ _ =>
      DefinedWhere.ok ?_).congr ?_
  · rw [hread]
  · constructor
    · rintro ⟨-, -, -, h, -⟩
      exact h
    · intro h
      exact ⟨by omega, by omega, by omega, h, trivial⟩

theorem extensible_iff {count entries : Nat} {revision : UInt8} {idAuth : Block 6} {rid : UInt32}
    (subAuths : { l : List UInt32 // l.length = count }) (hcount : subAuths.1.length < 256) (hentries : entries < 2 ^ 32) :
    LookupNames.Extensible { revision, idAuth, subAuths := subAuths.1, subAuths_lt := hcount
                             ridEntries := .ofNat entries, rid } ↔ entries = 1 ∧ count < 255 := by
  rw [LookupNames.Extensible, subAuths.2, ← UInt32.toNat_inj, UInt32.toNat_ofNat_of_lt' hentries]
  exact Iff.rfl

theorem sidOffset_mod (buffer : Bytes) : sidOffset buffer % 4 = 0 := (align4_aligned (Nat.mod_lt _ (by decide))).1

theorem meets_readDomainSid (hsize : buffer.length < 2 ^ 31) {bufLen : Nat} (hlen : bufLen ≤ buffer.length) :
    Meets (readDomainSid true buffer (sidOffset buffer)) (fun r => ridOffset buffer + 28 ≤ bufLen ∧ r.Extensible) ↔
      NamesOneRid buffer bufLen := by
  have hcount : (UInt8.ofNat (subAuthCount buffer)).toNat = subAuthCount buffer :=
    UInt8.toNat_ofNat_of_lt' (@leNat_slice_lt buffer 1 _)
  have haligned := sidOffset_mod buffer
  refine ((definedWhere_readU32 buffer (sidOffset buffer)).meets_bind fun hfirst maxSubAuthCount hmax =>
    (?_ : Meets _ _ ↔ NamesOneRid buffer bufLen)).trans
      (and_iff_right_of_imp fun h => (Nat.add_le_add_left (by decide) _).trans h.1)
  simp only [hmax, add32_eq (show sidOffset buffer + 4 < 2 ^ 32 by omega),
    add32_eq (show sidOffset buffer + 4 + 1 < 2 ^ 32 by omega),
    add32_eq (show sidOffset buffer + 4 + 1 + 1 < 2 ^ 32 by omega)]
  refine ((definedWhere_readUint buffer 1 _).meets_bind fun _ revision _ =>
    (definedWhere_readUint buffer 1 _).meets_bind fun hsid count (hread : count = subAuthCount buffer) => ?_).trans
      (and_iff_right_of_imp fun h => (Nat.le_succ _).trans h.1)
  rw [hread]
  by_cases hmismatch : leNat (slice buffer (sidOffset buffer) 4) ≠ subAuthCount buffer
  · rw [if_pos (hcount.symm ▸ hmismatch)]
    exact iff_of_true (meets_failed _ _) fun h => absurd h hmismatch
  rw [if_neg (hcount.symm ▸ hmismatch), imp_iff_right (not_not.mp hmismatch), if_neg (by decide)]
  have hauthEnd : align4 (add32 (sidOffset buffer + 4 + 1 + 1) 6) = sidOffset buffer + 12 := by
    rw [add32_eq (by omega), align4_eq (by omega)]
  have hridPlace : align4 (add32 (sidOffset buffer + 12) (4 * (UInt8.ofNat (subAuthCount buffer)).toNat)) =
      ridOffset buffer := by
    have hlt : subAuthCount buffer < 256 := leNat_slice_lt _
    rw [hcount, ridOffset, add32_eq (by omega), align4_eq (by omega)]
  have hridAligned : ridOffset buffer % 4 = 0 := by
    rw [ridOffset]
    omega
  rw [hauthEnd, hridPlace]
  refine ((definedWhere_copy buffer _ 6).meets_bind fun hauth idAuth _ =>
    (definedWhere_readWords (by omega) _ (by omega)).meets_bind fun _ subAuths _ =>
    (definedWhere_readRids hsize hridAligned).meets_bind fun _ rids hrids =>
      (?_ : Meets _ _ ↔ ridOffset buffer + 28 ≤ bufLen ∧ leNat (slice buffer (ridOffset buffer) 4) = 1 ∧
        subAuthCount buffer < 255)).trans ?_
  · obtain ⟨ridEntries, rid⟩ := rids
    obtain rfl : ridEntries = .ofNat (leNat (slice buffer (ridOffset buffer) 4)) := hrids
    rw [meets_ok, extensible_iff subAuths (length_lt_of_count subAuths) (leNat_slice_lt _), hcount]
  · rw [hcount, ridOffset]
    constructor
    · rintro ⟨-, -, -, h⟩
      exact h
    · intro h
      exact ⟨by omega, by omega, by omega, h⟩

/-- What has to be in the memory for the answer to be read, and that it names one account. -/
theorem meets_readLookupNames {bufLen : Nat} (hsize : buffer.length < 2 ^ 31) (hlen : bufLen < 2 ^ 32) :
    Meets (readLookupNames true buffer bufLen) (fun r => ridOffset buffer + 28 ≤ bufLen ∧ r.Extensible) ↔
      NamesOneAccount buffer bufLen := by
  have hplace : sub32 bufLen 4 + 4 ≤ buffer.length ↔ 4 ≤ bufLen ∧ bufLen ≤ buffer.length := by
    by_cases hfour : 4 ≤ bufLen
    · rw [sub32_eq hfour hlen]
      omega
    · rw [sub32]
      omega
  rw [NamesOneAccount, ← and_assoc, ← hplace, readLookupNames]
  refine (definedWhere_readU32 _ _).meets_bind fun hstatus status hread => ?_
  have hfour := hplace.mp hstatus
  rw [sub32_eq hfour.1 hlen] at hread
  rw [hread]
  by_cases hfailed : leNat (slice buffer (bufLen - 4) 4) ≠ 0
  · rw [if_pos hfailed]
    exact iff_of_true (meets_failed _ _) fun h => absurd h hfailed
  rw [if_neg hfailed, imp_iff_right (not_not.mp hfailed)]
  refine ((definedWhere_readU32 buffer 4).meets_bind fun _ _ _ => (definedWhere_readU32 buffer 12).meets_bind fun _ _ _ =>
    (definedWhere_readU32 buffer 16).meets_bind fun _ _ _ => (definedWhere_readUint buffer 2 20).meets_bind fun _ _ _ =>
    (definedWhere_readUint buffer 2 22).meets_bind fun _ _ _ => (definedWhere_copy buffer 32 12).meets_bind
      fun _ domainName hname => (?_ : Meets _ _ ↔ NamesOneRid buffer bufLen)).trans ?_
  · have hoffset : align4 (add32 44 (2 * word domainName.1 2)) = sidOffset buffer := by
      rw [word, hname, slice_slice (by decide), sidOffset]
    rw [hoffset]
    exact meets_readDomainSid hsize hfour.2
  · constructor
    · rintro ⟨-, -, -, -, -, hhead, hrest⟩
      exact ⟨hhead, hrest⟩
    · rintro ⟨hhead, hrest⟩
      exact ⟨by omega, by omega, by omega, by omega, by omega, hhead, hrest⟩

/-- Without memory for the first block the parser only fails earlier. -/
theorem meets_readLookupNames_malloc {bufLen : Nat} {post : LookupNames → Prop}
    (h : Meets (readLookupNames true buffer bufLen) post) (malloc : Bool) :
    Meets (readLookupNames malloc buffer bufLen) post := by
  cases malloc with
  | true => exact h
  | false =>
      refine h.bind_mono fun status h => ?_
      by_cases hstatus : status ≠ 0
      · rw [if_pos hstatus]
        exact meets_failed _ _
      rw [if_neg hstatus] at h ⊢
      -- the six fields in front of the SID, and the three before there is a block
      refine h.bind_mono fun _ h => h.bind_mono fun _ h => h.bind_mono fun _ h => h.bind_mono fun _ h =>
        h.bind_mono fun _ h => h.bind_mono fun _ h => ?_
      refine h.bind_mono fun _ h => h.bind_mono fun _ h => h.bind_mono fun _ _ => ?_
      split
      · exact meets_failed _ _
      · exact meets_failed _ _

end

/-! ### What is accepted -/

/-- A response that is read and not refused has one relative id, in the response, and can be extended. -/
theorem GivesAccountSid.extensible {buffer : Bytes} {bufLen : Nat} (h : GivesAccountSid {} buffer bufLen) :
    Meets (readLookupNames true buffer bufLen) fun r => ridOffset buffer + 28 ≤ bufLen ∧ r.Extensible := by
  refine (meets_bind.mp h).mono fun r hr hbuild => ?_
  obtain hundefined | ⟨sid, hsid⟩ := @LookupNames.build_cases r {} rfl
  · exact absurd hundefined hbuild.defined
  · obtain ⟨r', hr', hinside, hextensible, -⟩ := hbuild.result sid hsid
    cases hr.symm.trans hr'
    exact ⟨hinside, hextensible⟩

/-- An answer for one name, with a domain of no name. -/
def marshal (result : LookupNames) (rest : Bytes) : LookupNamesResponse where
  referent := 1
  domainsReferent := 2
  maxEntries := 32
  length := 0
  maximumLength := 0
  namePointer := 3
  sidPointer := 4
  nameMaxCount := 0
  domainName := []
  result := result
  sidsPointer := 5
  ridMaxCount := result.ridEntries
  sidType := 1
  domainIndex := 0
  rest := rest

theorem length_ntAuthority : ([0, 0, 0, 0, 0, 5] : Bytes).length = 6 := rfl

/-- The caller's array from the response on. It has 64 KiB with the header of the call, and zeros behind what was
received. -/
def inArray (response : Bytes) : Bytes := response ++ List.replicate (65536 - 24 - response.length) 0

theorem length_inArray {response : Bytes} (h : response.length ≤ 65512) : (inArray response).length = 65512 := by
  rw [inArray, List.length_append, List.length_replicate]
  omega

/-- The account S-1-5-21-500. -/
def oneRid : LookupNamesResponse :=
  marshal { revision := 1, idAuth := ⟨[0, 0, 0, 0, 0, 5], length_ntAuthority⟩, subAuths := [21], subAuths_lt := by decide
            ridEntries := 1, rid := 500 }
    (leBytes 4 1)

/-- The domain S-1-5-21 with two relative ids. -/
def twoRids : LookupNamesResponse :=
  marshal { revision := 1, idAuth := ⟨[0, 0, 0, 0, 0, 5], length_ntAuthority⟩, subAuths := [21], subAuths_lt := by decide
            ridEntries := 2, rid := 500 }
    (leBytes 4 1 ++ leBytes 4 501 ++ leBytes 4 0 ++ leBytes 4 2)

/-- A domain with 255 sub-authorities. -/
def longSid : LookupNamesResponse :=
  marshal { revision := 1, idAuth := ⟨[0, 0, 0, 0, 0, 5], length_ntAuthority⟩, subAuths := List.replicate 255 1
            subAuths_lt := by rw [List.length_replicate]; decide
            ridEntries := 1, rid := 500 } (leBytes 4 1)

/-- The answer with two relative ids, of which the SID of the domain is the last thing before the status. -/
def cutOff : Bytes := twoRids.stub.take 60 ++ leBytes 4 0

/-- A response that the server marshalled is accepted, wherever it is. -/
theorem GivesAccountSid.extensible_of_stub {m : LookupNamesResponse} {behind : Bytes}
    (h : GivesAccountSid {} (m.stub ++ behind) m.stub.length) (hsize : (m.stub ++ behind).length < 2 ^ 32) :
    m.result.Extensible := by
  have hresult := h.extensible
  rw [readLookupNames_stub m behind hsize] at hresult
  exact (meets_ok.mp hresult).2

end CodeStudy.Samba
