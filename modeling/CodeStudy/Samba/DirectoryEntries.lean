import CodeStudy.Samba.LinkedEntries
import Mathlib.Data.List.TakeWhile

/-!
# Directories that arrive

What a server lists of a directory arrives as a chain of entries, a reply at a time. Decoding a chain
appends the entries it was made of. The names are the exception: the decoder passes them on as C
strings, and it counts their bytes in an `int`.
-/

namespace CodeStudy.Samba

/-! ### Entries -/

/-- An entry of a directory, as a server knows it. The name is made of characters of one unit. -/
structure DirectoryEntry where
  fileIndex : UInt32
  creationTime : UInt64
  lastAccessTime : UInt64
  lastWriteTime : UInt64
  changeTime : UInt64
  endOfFile : UInt64
  allocationSize : UInt64
  fileAttributes : UInt32
  eaSize : UInt32
  reserved : UInt32
  fileId : UInt64
  name : List Char
  bmp : ∀ c ∈ name, c.toNat < 2 ^ 16

namespace DirectoryEntry

variable (e : DirectoryEntry)

def units : List UInt16 := e.name.map fun c => UInt16.ofNat c.toNat

def nameUtf8 : Bytes := e.name.flatMap String.utf8EncodeChar

/-- The entry as the application should see it. -/
def toDirent : Smb2dirent where
  name := e.nameUtf8
  type := if e.fileAttributes &&& smb2FileAttributeDirectory ≠ 0 then smb2TypeDirectory else smb2TypeFile
  nlink := 0
  ino := e.fileId
  size := e.endOfFile
  atime := e.lastAccessTime
  mtime := e.lastWriteTime
  ctime := e.changeTime
  crtime := e.creationTime
  allocationSize := e.allocationSize
  attributes := e.fileAttributes
  eaSize := e.eaSize

/-- The bytes before the name. -/
def encodeFixed (next : Nat) : Bytes :=
  leBytes 4 next ++ (leBytes 4 e.fileIndex.toNat ++ (leBytes 8 e.creationTime.toNat ++
    (leBytes 8 e.lastAccessTime.toNat ++ (leBytes 8 e.lastWriteTime.toNat ++ (leBytes 8 e.changeTime.toNat ++
      (leBytes 8 e.endOfFile.toNat ++ (leBytes 8 e.allocationSize.toNat ++ (leBytes 4 e.fileAttributes.toNat ++
        (leBytes 4 (e.units.length * 2) ++ (leBytes 4 e.eaSize.toNat ++ (leBytes 4 e.reserved.toNat ++
          leBytes 8 e.fileId.toNat)))))))))))

/-- An entry, with the distance to the next one. -/
def encode (next : Nat) : Bytes := e.encodeFixed next ++ ucs2Bytes e.units

def size : Nat := 80 + e.units.length * 2

theorem length_encodeFixed (next : Nat) : (e.encodeFixed next).length = 80 := by
  simp only [encodeFixed, List.length_append, length_leBytes]

theorem length_encode (next : Nat) : (e.encode next).length = e.size := by
  rw [encode, List.length_append, e.length_encodeFixed, length_ucs2Bytes, size]

theorem ucs2ToUtf8_units : ucs2ToUtf8 e.units = e.nameUtf8 := by
  rw [ucs2ToUtf8, units, nameUtf8, List.flatMap_map]
  refine List.flatMap_congr fun c hc => ?_
  exact unitUtf8_ofNat (e.bmp c hc)

/-- What the fields of an entry are decoded to. -/
def information (next : UInt32) : Smb2FileIdFullDirectoryInformation where
  nextEntryOffset := next
  fileIndex := e.fileIndex
  creationTime := e.creationTime
  lastAccessTime := e.lastAccessTime
  lastWriteTime := e.lastWriteTime
  changeTime := e.changeTime
  endOfFile := e.endOfFile
  allocationSize := e.allocationSize
  fileAttributes := e.fileAttributes
  eaSize := e.eaSize
  fileId := e.fileId
  name := e.nameUtf8

/-- The name, behind the fields. -/
theorem decodeName_encode (next : Nat) (rest : Bytes) :
    decodeName true (.of (e.encode next ++ rest)) 80 e.units.length =
      if e.nameUtf8.length + 1 < 2 ^ 31 then .ok (some e.nameUtf8) else .error .undefined := by
  have hcopy : (View.of (e.encode next ++ rest)).copy 80 (e.units.length * 2) =
      .ok ⟨ucs2Bytes e.units, length_ucs2Bytes e.units⟩ :=
    View.copy_eq (e.encodeFixed next) _ rest rfl (e.length_encodeFixed next) (length_ucs2Bytes e.units)
  rw [decodeName, hcopy, ok_bind]
  simp only [ucs2Units_ucs2Bytes, e.ucs2ToUtf8_units, if_true]

theorem decode_encode (next : UInt32) (rest : Bytes) (hsize : e.size < 2 ^ 32)
    (fs : Smb2FileIdFullDirectoryInformation) (nameLen : UInt32) :
    smb2DecodeFileidfulldirectoryinformation true fs nameLen (.of (e.encode next.toNat ++ rest)) =
      if e.nameUtf8.length + 1 < 2 ^ 31 then .ok (e.information next) else .error .undefined := by
  rw [size] at hsize
  have hname : e.units.length * 2 < 256 ^ 4 := by omega
  have hlen : (View.of (e.encode next.toNat ++ rest)).len = 80 + e.units.length * 2 + rest.length := by
    rw [View.len_of, List.length_append, length_encode, size]
  have hfits : ¬ (80 + UInt32.ofNat (e.units.length * 2)).toNat > 80 + e.units.length * 2 + rest.length := by
    rw [UInt32.toNat_add, toNat_ofNat_uint32 hname]
    show ¬ (80 + e.units.length * 2) % 2 ^ 32 > _
    rw [Nat.mod_eq_of_lt hsize]
    omega
  have hhalf : e.units.length * 2 / 2 = e.units.length := Nat.mul_div_cancel _ (by decide)
  have hutf8 := e.decodeName_encode next.toNat rest
  rw [smb2DecodeFileidfulldirectoryinformation, hlen]
  generalize hvec : View.of (e.encode next.toNat ++ rest) = vec at hutf8 ⊢
  have hfields {width offset : Nat} (value : Nat) : vec.get width offset value =
      (View.of (e.encodeFixed next.toNat ++ (ucs2Bytes e.units ++ rest))).get width offset value := by
    rw [← hvec, encode, List.append_assoc]
  simp (disch := simp) only [hfields, encodeFixed, List.append_assoc, View.get_append_right, length_leBytes,
    Nat.reduceSub, View.get_uint32, View.get_uint64, View.get_leBytes_append hname, ok_bind, if_neg hfits, hhalf, hutf8]
  by_cases hint : e.nameUtf8.length + 1 < 2 ^ 31
  · rw [if_pos hint, if_pos hint, ok_bind]
    simp only [information, UInt32.ofNat_toNat, UInt64.ofNat_toNat]
  · rw [if_neg hint, if_neg hint]
    rfl

end DirectoryEntry

/-! ### Chains -/

/-- An entry of a chain, with the bytes between it and the next one. -/
structure ChainedEntry where
  entry : DirectoryEntry
  padding : Bytes

namespace ChainedEntry

variable (c : ChainedEntry)

def size : Nat := c.entry.size + c.padding.length

def encode (next : Nat) : Bytes := c.entry.encode next ++ c.padding

/-- The entry that is appended to the directory. -/
def arrived : Smb2dirent := { c.entry.toDirent with name := cString c.entry.nameUtf8 }

/-- The bytes of the name can be counted in an `int`. -/
def Countable : Prop := c.entry.nameUtf8.length + 1 < 2 ^ 31

instance : Decidable c.Countable := inferInstanceAs (Decidable (_ < _))

theorem length_encode (next : Nat) : (c.encode next).length = c.size := by
  rw [encode, List.length_append, c.entry.length_encode, size]

theorem size_pos : 0 < c.size := by
  rw [size, DirectoryEntry.size]
  omega

end ChainedEntry

/-- The bytes of a chain. -/
def encodeChain : List ChainedEntry → Bytes
  | [] => []
  | [last] => last.encode 0
  | c :: next :: chain => c.encode c.size ++ encodeChain (next :: chain)

section

variable {alloc : EntryMemory} {nameLen : UInt32} {fs : Smb2FileIdFullDirectoryInformation} {entries : List Smb2dirent}

theorem fixedDistance_chainedEntry : FixedDistance ChainedEntry.encode := by
  intro c n
  rw [c.length_encode, c.length_encode]
  exact ⟨rfl, c.size_pos⟩

theorem encodeChain_eq_linkEntries (chain : List ChainedEntry) : encodeChain chain = linkEntries ChainedEntry.encode chain := by
  induction chain with
  | nil => rfl
  | cons c chain ih =>
      cases chain with
      | nil => rfl
      | cons c' chain => rw [encodeChain, linkEntries, c.length_encode, ih]

/-- One entry, in front of whatever follows it. -/
theorem decodesTo_dirent (halloc : ∀ n, alloc .name n = true) {c : ChainedEntry} (hcount : c.Countable)
    (hsize : c.size < 2 ^ 32) :
    DecodesTo ChainedEntry.encode (decodeDirent alloc nameLen) DirentState.entries ChainedEntry.arrived c := by
  intro next rest s
  have hentry : c.entry.size < 2 ^ 32 := (Nat.le_add_right _ _).trans_lt hsize
  have hdecode := c.entry.decode_encode next (c.padding ++ rest) hentry s.fs nameLen
  rw [ChainedEntry.Countable] at hcount
  rw [if_pos hcount] at hdecode
  refine ⟨⟨c.entry.information next, s.entries ++ [c.arrived]⟩, ?_, rfl⟩
  rw [ChainedEntry.encode, List.append_assoc, decodeDirent, halloc, hdecode]
  rfl

/-- Decoding a chain appends its entries, with their names up to the first U+0000. -/
theorem decodeDirents_arrived (halloc : ∀ n, alloc .name n = true) {chain : List ChainedEntry} (hne : chain ≠ [])
    (hcount : ∀ c ∈ chain, c.Countable) (hsize : (encodeChain chain).length < 2 ^ 32) {fuel : Nat}
    (hfuel : chain.length ≤ fuel) :
    decodeDirents fuel alloc nameLen fs entries (encodeChain chain) =
      some (.ok (), entries ++ chain.map ChainedEntry.arrived) := by
  rw [encodeChain_eq_linkEntries] at hsize ⊢
  have hdecode : ∀ c ∈ chain, DecodesTo ChainedEntry.encode (decodeDirent alloc nameLen) DirentState.entries
      ChainedEntry.arrived c := by
    intro c hc
    have hle := length_le_linkEntries fixedDistance_chainedEntry hc
    rw [c.length_encode] at hle
    exact decodesTo_dirent halloc (hcount c hc) (hle.trans_lt hsize)
  obtain ⟨s', hout, hloop⟩ := @iterate_entryStep_linked _ _ _ _ _ "Malformed query directory reply." _ _
    fixedDistance_chainedEntry chain hne hdecode [] hsize fuel hfuel ⟨fs, entries⟩
  rw [decodeDirents]
  have hloop' : Step.iterate (direntStep alloc nameLen (linkEntries ChainedEntry.encode chain)) fuel (0, ⟨fs, entries⟩) =
      some (.ok (), s') := hloop
  rw [hloop', Option.map_some, hout]

/-- A name without U+0000 arrives whole. -/
theorem ChainedEntry.arrived_eq {c : ChainedEntry} (hname : ∀ char ∈ c.entry.name, char.toNat ≠ 0) :
    c.arrived = c.entry.toDirent := by
  have hunits : ∀ unit ∈ c.entry.units, unit ≠ 0 := by
    intro unit hunit hzero
    obtain ⟨char, hchar, rfl⟩ := List.mem_map.mp hunit
    apply hname char hchar
    rw [← UInt16.toNat_ofNat_of_lt' (c.entry.bmp char hchar), hzero]
    rfl
  have hbytes : ∀ b ∈ c.entry.nameUtf8, b ≠ 0 := by
    intro b hb hzero
    rw [← c.entry.ucs2ToUtf8_units] at hb
    obtain ⟨unit, hunit, hmem⟩ := List.mem_flatMap.mp hb
    rw [hzero] at hmem
    exact zero_notMem_unitUtf8 (hunits unit hunit) hmem
  have hwhole : cString c.entry.nameUtf8 = c.entry.nameUtf8 := by
    rw [cString, List.takeWhile_eq_self_iff]
    intro b hb
    exact decide_eq_true (hbytes b hb)
  rw [arrived, hwhole]
  rfl

/-- Decoding a chain appends its entries to those the directory has, in order and as the server knows
them. -/
theorem decodeDirents_encodeChain (halloc : ∀ n, alloc .name n = true) {chain : List ChainedEntry} (hne : chain ≠ [])
    (hname : ∀ c ∈ chain, (∀ char ∈ c.entry.name, char.toNat ≠ 0) ∧ c.Countable)
    (hsize : (encodeChain chain).length < 2 ^ 32) {fuel : Nat} (hfuel : chain.length ≤ fuel) :
    decodeDirents fuel alloc nameLen fs entries (encodeChain chain) =
      some (.ok (), entries ++ chain.map fun c => c.entry.toDirent) := by
  rw [decodeDirents_arrived halloc hne (fun c hc => (hname c hc).2) hsize hfuel]
  congr 3
  exact List.map_congr_left fun c hc => ChainedEntry.arrived_eq (hname c hc).1

/-- A name whose bytes cannot be counted: the behaviour is not defined. -/
theorem decodeDirents_uncountable (halloc : ∀ n, alloc .name n = true) {c : ChainedEntry} (hcount : ¬ c.Countable)
    (hsize : (encodeChain [c]).length < 2 ^ 32) (fuel : Nat) :
    decodeDirents (fuel + 1) alloc nameLen fs entries (encodeChain [c]) = some (.error .undefined, entries) := by
  have hlength : (encodeChain [c]).length = c.size := c.length_encode 0
  have hpos := c.size_pos
  have hentry : c.entry.size < 2 ^ 32 := by
    have hle : c.entry.size ≤ c.size := Nat.le_add_right _ _
    omega
  have hdecode := c.entry.decode_encode 0 c.padding hentry fs nameLen
  rw [ChainedEntry.Countable] at hcount
  rw [if_neg hcount] at hdecode
  have hdrop : (encodeChain [c]).drop (0 : UInt32).toNat = c.entry.encode (0 : UInt32).toNat ++ c.padding := rfl
  have hstep : direntStep alloc nameLen (encodeChain [c]) (0, ⟨fs, entries⟩) =
      .done (.error .undefined, ⟨fs, entries⟩) := by
    have hzero : (0 : UInt32).toNat = 0 := rfl
    rw [direntStep, entryStep, if_neg (by omega), hdrop, decodeDirent, halloc, hdecode]
  rw [decodeDirents, Step.iterate, hstep]
  rfl

end

/-- An entry of which only the name matters. -/
def namedEntry (name : List Char) (bmp : name.all (fun c => c.toNat < 2 ^ 16) = true) : DirectoryEntry :=
  ⟨0, 0, 0, 0, 0, 0, 0, 0, 0, 0, 0, name, fun c hc => of_decide_eq_true (List.all_eq_true.mp bmp c hc)⟩

/-- A padded entry, and one whose name is not ASCII. -/
def twoFiles : List ChainedEntry :=
  [⟨namedEntry ['a'] (by decide), [0, 0, 0, 0, 0, 0]⟩, ⟨namedEntry ['ä', 'b'] (by decide), []⟩]

/-- The directory has an entry of an earlier reply. -/
theorem decodeDirents_twoFiles :
    decodeDirents 2 plentiful 0 {} [(namedEntry ['.'] (by decide)).toDirent] (encodeChain twoFiles) =
      some (.ok (), [(namedEntry ['.'] (by decide)).toDirent] ++ twoFiles.map fun c => c.entry.toDirent) := by
  have hname : ∀ c ∈ twoFiles, (∀ char ∈ c.entry.name, char.toNat ≠ 0) ∧ c.Countable := by
    intro c hc
    rw [twoFiles, List.mem_cons, List.mem_singleton] at hc
    obtain rfl | rfl := hc
    · exact ⟨List.forall_mem_singleton.mpr (by decide), by decide⟩
    · exact ⟨List.forall_mem_cons.mpr ⟨by decide, List.forall_mem_singleton.mpr (by decide)⟩, by decide⟩
  exact decodeDirents_encodeChain (fun _ => rfl) (List.cons_ne_nil _ _) hname (by decide +kernel) (Nat.le_refl 2)

/-- A file with a long name, all of whose characters take three bytes. -/
def euros (n : Nat) : ChainedEntry :=
  ⟨namedEntry (List.replicate n '€') (by rw [List.all_replicate]; split <;> rfl), []⟩

theorem length_euros (n : Nat) : (encodeChain [euros n]).length = 80 + n * 2 := by
  have hlength : (encodeChain [euros n]).length = (euros n).size := (euros n).length_encode 0
  have hunits : (euros n).entry.units.length = n := by
    rw [DirectoryEntry.units, List.length_map]
    exact List.length_replicate
  rw [hlength, ChainedEntry.size, DirectoryEntry.size, hunits]
  rfl

theorem not_countable_euros {n : Nat} (h : 2 ^ 31 ≤ n * 3) : ¬ (euros n).Countable := by
  have hlength : (euros n).entry.nameUtf8.length = n * 3 := by
    show ((List.replicate n '€').flatMap String.utf8EncodeChar).length = n * 3
    rw [List.length_flatMap, List.map_replicate, List.sum_replicate_nat]
    rfl
  rw [ChainedEntry.Countable, hlength]
  omega

/-- A name with U+0000 in it arrives cut off, one of a billion three-byte characters does not arrive, and
a buffer without entries is refused. -/
theorem not_decodeDirents_anyNames :
    decodeDirents 1 plentiful 0 {} [] (encodeChain [⟨namedEntry ['a', Char.ofNat 0, 'b'] (by decide), []⟩]) ≠
        some (.ok (), [(namedEntry ['a', Char.ofNat 0, 'b'] (by decide)).toDirent]) ∧
      (encodeChain [euros (2 ^ 30)]).length < 2 ^ 32 ∧
      decodeDirents 1 plentiful 0 {} [] (encodeChain [euros (2 ^ 30)]) ≠
        some (.ok (), [(euros (2 ^ 30)).entry.toDirent]) ∧
      decodeDirents 1 plentiful 0 {} [] (encodeChain []) ≠ some (.ok (), []) := by
  have hsize : (encodeChain [euros (2 ^ 30)]).length < 2 ^ 32 := by
    rw [length_euros]
    omega
  refine ⟨?_, hsize, ?_, ?_⟩
  · intro h
    have hnames := congrArg (Option.map fun result => result.2.map Smb2dirent.name) h
    exact absurd hnames (by decide +kernel)
  · rw [decodeDirents_uncountable (fun _ => rfl) (not_countable_euros (by omega)) hsize 0]
    intro h
    cases h
  · intro h
    have hfault := congrArg (Option.map fun result => result.1.toOption) h
    exact absurd hfault (by decide)

end CodeStudy.Samba
