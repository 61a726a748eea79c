import CodeStudy.Samba.DirectoryEntries

/-!
# Streams that arrive

The alternate data streams of a file arrive as a chain of entries. The decoder converts the name of a
stream to UTF-8 and copies it into the node: as many bytes as the name has units. That is the whole name if
all its characters take one byte, and cuts off the end of every other name.
-/

namespace CodeStudy.Samba

/-- A stream, as a server knows it. The name is made of characters of one unit. -/
structure StreamEntry where
  name : List Char
  bmp : ∀ c ∈ name, c.toNat < 2 ^ 16
  size : UInt64
  allocationSize : UInt64

namespace StreamEntry

variable (e : StreamEntry)

def units : List UInt16 := e.name.map fun c => UInt16.ofNat c.toNat

def nameUtf8 : Bytes := e.name.flatMap String.utf8EncodeChar

/-- The bytes before the name. -/
def encodeFixed (next : Nat) : Bytes :=
  leBytes 4 next ++ (leBytes 4 (e.units.length * 2) ++ (leBytes 8 e.size.toNat ++ leBytes 8 e.allocationSize.toNat))

/-- What the decoder keeps of the name. -/
def keptName : Bytes := e.nameUtf8.take e.units.length

/-- The node of a stream with a name, whose array is cleared before. -/
def node (name : Bytes) : Smb2FileStreamInfo where
  name := name ++ List.replicate (streamNameSize - name.length) 0
  size := e.size
  allocationSize := e.allocationSize

theorem length_encodeFixed (next : Nat) : (e.encodeFixed next).length = 24 := by
  simp only [encodeFixed, List.length_append, length_leBytes]

theorem ucs2ToUtf8_units : ucs2ToUtf8 e.units = e.nameUtf8 := by
  rw [ucs2ToUtf8, units, nameUtf8, List.flatMap_map]
  exact List.flatMap_congr fun c hc => unitUtf8_ofNat (e.bmp c hc)

end StreamEntry

/-! ### Characters and bytes -/

/-- No character has fewer bytes than units, and only ASCII characters have as many. -/
theorem length_utf8Chars (chars : List Char) :
    chars.length ≤ (chars.flatMap String.utf8EncodeChar).length ∧
      ((chars.flatMap String.utf8EncodeChar).length ≤ chars.length ↔ ∀ c ∈ chars, c.toNat < 0x80) := by
  induction chars with
  | nil => exact ⟨le_rfl, fun _ => List.forall_mem_nil _, fun _ => le_rfl⟩
  | cons c chars ih =>
      have hone : (String.utf8EncodeChar c).length = 1 ↔ c.toNat < 0x80 := by
        rw [String.length_utf8EncodeChar, Char.utf8Size_eq_one_iff]
        exact Nat.lt_succ_iff.symm
      have hpos : 0 < (String.utf8EncodeChar c).length := List.length_pos_of_ne_nil String.utf8EncodeChar_ne_nil
      rw [List.flatMap_cons, List.length_append, List.length_cons, List.forall_mem_cons, ← ih.2, ← hone]
      omega

/-- The terminator behind a string is where the string ends. -/
theorem cString_append_zeros (b : Bytes) (n : Nat) : cString (b ++ List.replicate n 0) = cString b := by
  rw [cString, cString, List.takeWhile_append]
  split_ifs with hwhole
  · have hzeros : (List.replicate n (0 : UInt8)).takeWhile (· ≠ 0) = [] := by
      cases n with
      | zero => rfl
      | succ n => rfl
    rw [hzeros, List.append_nil]
    exact ((List.takeWhile_prefix _).eq_of_length hwhole).symm
  · rfl

namespace StreamEntry

variable (e : StreamEntry)

theorem length_units_le : e.units.length ≤ e.nameUtf8.length := by
  rw [units, List.length_map]
  exact (length_utf8Chars e.name).1

theorem length_keptName : e.keptName.length = e.units.length := by
  rw [keptName, List.length_take, Nat.min_eq_left e.length_units_le]

/-- The name can be read from the node if and only if its characters are ASCII, and none is U+0000. -/
theorem cString_keptName_iff :
    cString (e.node e.keptName).name = e.nameUtf8 ↔ ∀ c ∈ e.name, 0 < c.toNat ∧ c.toNat < 0x80 := by
  have hnode : cString (e.node e.keptName).name = cString e.keptName := cString_append_zeros _ _
  rw [hnode]
  constructor
  · intro hname
    have hlength : e.nameUtf8.length ≤ e.name.length := by
      have hle := (List.takeWhile_prefix (fun b : UInt8 => decide (b ≠ 0)) : _ <+: e.keptName).length_le
      rw [← cString, hname, length_keptName, units, List.length_map] at hle
      exact hle
    have hascii := (length_utf8Chars e.name).2.mp hlength
    intro c hc
    refine ⟨?_, hascii c hc⟩
    by_contra hzero
    -- a terminator inside the name would have ended it
    have hmem : (0 : UInt8) ∈ e.nameUtf8 := by
      refine List.mem_flatMap.mpr ⟨c, hc, ?_⟩
      have hval : c.val.toNat = 0 := Nat.eq_zero_of_not_pos hzero
      rw [String.utf8EncodeChar, hval]
      exact List.mem_singleton_self 0
    rw [← hname] at hmem
    have hnonzero := List.mem_takeWhile_imp hmem
    exact absurd hnonzero (by decide)
  · intro hchars
    have hlength := (length_utf8Chars e.name).2.mpr fun c hc => (hchars c hc).2
    have hkept : e.keptName = e.nameUtf8 := by
      rw [keptName, List.take_of_length_le]
      rw [units, List.length_map]
      exact hlength
    rw [hkept, cString, List.takeWhile_eq_self_iff]
    intro b hb
    obtain ⟨c, hc, hbc⟩ := List.mem_flatMap.mp hb
    obtain ⟨hpos, hsmall⟩ := hchars c hc
    have hval : c.val.toNat ≤ 0x7f := Nat.le_of_lt_succ hsmall
    have hbyte : b = UInt8.ofNat c.toNat := by
      simp only [String.utf8EncodeChar, if_pos hval, List.mem_singleton] at hbc
      exact hbc
    refine decide_eq_true fun hzero => ?_
    have hnat : (UInt8.ofNat c.toNat).toNat = c.toNat := UInt8.toNat_ofNat_of_lt' (hsmall.trans (by decide))
    rw [← hbyte, hzero] at hnat
    rw [← hnat] at hpos
    exact absurd hpos (by decide)

/-! ### Decoding -/

/-- An entry, with the distance to the next one. -/
def encode (next : Nat) : Bytes := e.encodeFixed next ++ ucs2Bytes e.units

theorem decode_encode (hfits : e.nameUtf8.length ≤ streamNameSize) (next : UInt32) (rest : Bytes) :
    smb2DecodeFileFullStreamInfo true (.of (e.encode next.toNat ++ rest)) =
      .ok ⟨next, UInt32.ofNat (e.units.length * 2), e.size, e.allocationSize, e.nameUtf8⟩ := by
  rw [streamNameSize] at hfits
  have hunits := e.length_units_le
  have hlength : e.units.length * 2 < 256 ^ 4 := by omega
  have hhalf : e.units.length * 2 / 2 = e.units.length := Nat.mul_div_cancel _ (by decide)
  have hcopy : (View.of (e.encode next.toNat ++ rest)).copy 24 (e.units.length * 2) =
      .ok ⟨ucs2Bytes e.units, length_ucs2Bytes e.units⟩ :=
    View.copy_eq (e.encodeFixed next.toNat) _ rest rfl (e.length_encodeFixed next.toNat) (length_ucs2Bytes e.units)
  have hname : decodeName true (.of (e.encode next.toNat ++ rest)) 24 e.units.length = .ok (some e.nameUtf8) := by
    rw [decodeName, hcopy, ok_bind]
    simp only [ucs2Units_ucs2Bytes, e.ucs2ToUtf8_units, if_true]
    rw [if_pos (by omega)]
  rw [smb2DecodeFileFullStreamInfo]
  generalize hvec : View.of (e.encode next.toNat ++ rest) = vec at hname ⊢
  have hfields {width offset : Nat} (value : Nat) : vec.get width offset value =
      (View.of (e.encodeFixed next.toNat ++ (ucs2Bytes e.units ++ rest))).get width offset value := by
    rw [← hvec, encode, List.append_assoc]
  simp (disch := simp) only [hfields, encodeFixed, List.append_assoc, View.get_append_right, length_leBytes,
    Nat.reduceSub, View.get_uint32, View.get_uint64, View.get_leBytes_append hlength, ok_bind, hhalf, hname]
  simp only [UInt32.ofNat_toNat, UInt64.ofNat_toNat]

theorem decodeStreamInfo_encode (hfits : e.nameUtf8.length ≤ streamNameSize) (next : UInt32) (rest : Bytes)
    (nodes : List Smb2FileStreamInfo) : decodeStreamInfo plentiful (.of (e.encode next.toNat ++ rest)) nodes =
      (nodes ++ [e.node e.keptName], .ok next) := by
  have hunits := e.length_units_le
  have hcount : (UInt32.ofNat (e.units.length * 2)).toNat / 2 = e.units.length := by
    rw [streamNameSize] at hfits
    rw [toNat_ofNat_uint32 (by omega), Nat.mul_div_cancel _ (by decide)]
  have hkept : (e.nameUtf8 ++ [0]).take e.units.length = e.keptName := List.take_append_of_le_length hunits
  have hnode : memcpy (List.replicate streamNameSize 0) 0 e.keptName = (e.node e.keptName).name := by
    rw [memcpy, List.take_zero, List.nil_append, Nat.zero_add, List.drop_replicate]
    rfl
  have hroom : ¬ streamNameSize < e.units.length := not_lt.mpr (hunits.trans hfits)
  rw [decodeStreamInfo, show plentiful .name nodes.length = true from rfl, e.decode_encode hfits next rest]
  simp only [hcount, hroom, if_false, hkept, hnode, plentiful, Bool.true_eq_false, and_false]
  rfl

end StreamEntry

/-! ### Chains -/

/-- An entry of a chain, with the bytes between it and the next one. -/
structure ChainedStream where
  entry : StreamEntry
  padding : Bytes

namespace ChainedStream

def encode (c : ChainedStream) (next : Nat) : Bytes := c.entry.encode next ++ c.padding

theorem fixedDistance : FixedDistance encode := by
  intro c n
  simp only [encode, StreamEntry.encode, List.length_append, StreamEntry.length_encodeFixed]
  exact ⟨trivial, by omega⟩

end ChainedStream

/-- The decoder returns 0, and the nodes have the names, as C strings, and the sizes of the streams. -/
def StreamsArrive (chain : List ChainedStream) : Prop :=
  ∀ fuel, chain.length ≤ fuel → ∃ nodes,
    smb2DecodeFileStreamInfo fuel plentiful (linkEntries ChainedStream.encode chain) = some (.ok (), nodes) ∧
      nodes.map (fun node => (cString node.name, node.size, node.allocationSize)) =
        chain.map fun c => (c.entry.nameUtf8, c.entry.size, c.entry.allocationSize)

theorem decodesTo_streamInfo {c : ChainedStream} (hfits : c.entry.nameUtf8.length ≤ streamNameSize) :
    DecodesTo ChainedStream.encode (decodeStreamInfo plentiful) id
      (fun c : ChainedStream => c.entry.node c.entry.keptName) c := by
  intro next rest nodes
  refine ⟨_, ?_, rfl⟩
  rw [ChainedStream.encode, List.append_assoc]
  exact c.entry.decodeStreamInfo_encode hfits next (c.padding ++ rest) nodes

/-- What does arrive. -/
theorem decodeStreams_kept {chain : List ChainedStream} (hne : chain ≠ [])
    (hfits : ∀ c ∈ chain, c.entry.nameUtf8.length ≤ streamNameSize)
    (hsize : (linkEntries ChainedStream.encode chain).length < 2 ^ 32) {fuel : Nat} (hfuel : chain.length ≤ fuel) :
    smb2DecodeFileStreamInfo fuel plentiful (linkEntries ChainedStream.encode chain) =
      some (.ok (), chain.map fun c => c.entry.node c.entry.keptName) := by
  obtain ⟨s', hout, hloop⟩ := @iterate_entryStep_linked _ _ _ _ _ "smb2_decode_file_stream_info:Malformed query reply"
    _ _ ChainedStream.fixedDistance chain hne (fun c hc => decodesTo_streamInfo (hfits c hc)) [] hsize fuel hfuel []
  have hloop' : Step.iterate (streamInfoStep plentiful (linkEntries ChainedStream.encode chain)) fuel (0, []) =
      some (.ok (), s') := hloop
  rw [smb2DecodeFileStreamInfo, hloop', Option.map_some]
  exact congrArg (fun nodes => some (Except.ok (), nodes)) hout

/-- The streams arrive as they are if and only if their names are ASCII. -/
theorem streamsArrive_iff {chain : List ChainedStream} (hne : chain ≠ [])
    (hfits : ∀ c ∈ chain, c.entry.nameUtf8.length ≤ streamNameSize)
    (hsize : (linkEntries ChainedStream.encode chain).length < 2 ^ 32) :
    StreamsArrive chain ↔ ∀ c ∈ chain, ∀ char ∈ c.entry.name, 0 < char.toNat ∧ char.toNat < 0x80 := by
  have hentry (c : ChainedStream) : (cString (c.entry.node c.entry.keptName).name, c.entry.size, c.entry.allocationSize) =
      (c.entry.nameUtf8, c.entry.size, c.entry.allocationSize) ↔ ∀ char ∈ c.entry.name, 0 < char.toNat ∧ char.toNat < 0x80 := by
    rw [Prod.mk.injEq, and_iff_left rfl]
    exact c.entry.cString_keptName_iff
  constructor
  · intro h
    obtain ⟨nodes, hdecode, hnodes⟩ := h chain.length le_rfl
    rw [decodeStreams_kept hne hfits hsize le_rfl, Option.some.injEq, Prod.mk.injEq] at hdecode
    rw [← hdecode.2, List.map_map, List.map_inj_left] at hnodes
    exact fun c hc => (hentry c).mp (hnodes c hc)
  · intro h fuel hfuel
    refine ⟨_, decodeStreams_kept hne hfits hsize hfuel, ?_⟩
    rw [List.map_map, List.map_inj_left]
    exact fun c hc => (hentry c).mpr (h c hc)

/-- A padded entry and another one. -/
def twoStreams : List ChainedStream :=
  [⟨⟨[':', 'a'], by simp, 5, 8⟩, [0, 0, 0, 0]⟩, ⟨⟨[':', 'b', 'c'], by simp, 0, 0⟩, []⟩]

theorem streamsArrive_twoStreams : StreamsArrive twoStreams := by
  have hfits : ∀ c ∈ twoStreams, c.entry.nameUtf8.length ≤ streamNameSize := by
    rw [twoStreams]
    rw [List.forall_mem_cons, List.forall_mem_singleton]
    exact ⟨by decide, by decide⟩
  refine (streamsArrive_iff (List.cons_ne_nil _ _) hfits (by decide)).mpr ?_
  rw [List.forall_mem_cons, List.forall_mem_singleton]
  exact ⟨by simp, by simp⟩

/-- A stream whose name ends in a letter of two bytes. -/
def umlautStream : ChainedStream := ⟨⟨[':', 'ä'], by simp, 0, 0⟩, []⟩

/-- The last byte of the name is missing. -/
theorem not_streamsArrive_umlaut : ¬ StreamsArrive [umlautStream] := by
  intro h
  obtain ⟨nodes, hdecode, hnodes⟩ := h [umlautStream].length le_rfl
  have hfits : ∀ c ∈ [umlautStream], c.entry.nameUtf8.length ≤ streamNameSize := List.forall_mem_singleton.mpr (by decide)
  rw [decodeStreams_kept (List.cons_ne_nil _ _) hfits (by decide) le_rfl, Option.some.injEq, Prod.mk.injEq] at hdecode
  rw [← hdecode.2, List.map_map, List.map_inj_left] at hnodes
  have hname := congrArg Prod.fst (hnodes umlautStream (List.mem_singleton_self _))
  have hascii := umlautStream.entry.cString_keptName_iff.mp hname 'ä' (List.mem_cons_of_mem _ (List.mem_singleton_self _))
  exact absurd hascii (by decide)

end CodeStudy.Samba
