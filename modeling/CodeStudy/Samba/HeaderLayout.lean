import CodeStudy.Base.Layout
import CodeStudy.Samba.Context
import CodeStudy.Samba.Fields

/-!
# The 64 bytes of a header

The fields of a header lie one behind the other and cover all of its io vector. What is written over a vector
does not depend on what was there, and what is read is what is written. The id of an asynchronous request has
the eight bytes in which a synchronous one has its process and its tree.
-/

namespace CodeStudy.Samba

/-- The two arrays of a header have the sizes that the type gives them. -/
structure Smb2Header.Sized (h : Smb2Header) : Prop where
  protocolId : h.protocolId.length = 4
  signature : h.signature.length = 16

abbrev WireHeader := { h : Smb2Header // h.Sized }

/-- The sizes of the fields, with the union as one field. -/
def headerSizes : List Nat := [4, 2, 2, 4, 2, 2, 4, 4, 8, 8, 8, 16]

/-- The bytes of the fields, in their order. -/
def Smb2Header.pieces (h : Smb2Header) : List Bytes :=
  [h.protocolId, leBytes 2 h.structSize.toNat, leBytes 2 h.creditCharge.toNat, leBytes 4 h.status.toNat,
    leBytes 2 h.command.toNat, leBytes 2 h.creditRequestResponse.toNat, leBytes 4 h.flags.toNat,
    leBytes 4 h.nextCommand.toNat, leBytes 8 h.messageId.toNat, leBytes 8 h.asyncId.toNat, leBytes 8 h.sessionId.toNat,
    h.signature]

/-- The first io vector of a request with a given header, after the header was encoded over it. -/
def encodedHeader (smb2 : Smb2Context) (pdu : Smb2Pdu) (h : Smb2Header) (iov : Bytes) : Bytes :=
  (encodeHeader smb2 { pdu with
    header := h
    out := { pdu.out with iovs := iov :: pdu.out.iovs.tail } }).2.out.iovs.headD []

theorem encodedHeader_eq (smb2 : Smb2Context) (pdu : Smb2Pdu) (h : Smb2Header) (iov : Bytes) :
    encodedHeader smb2 pdu h iov = { h with messageId := smb2.messageId }.write iov := rfl

/-! ### The union -/

theorem toNat_asyncId (h : Smb2Header) : h.asyncId.toNat = h.processId.toNat + 2 ^ 32 * h.treeId.toNat := by
  have hprocess := h.processId.toNat_lt
  have htree := h.treeId.toNat_lt
  exact toNat_ofNat_uint64 (by omega)

/-- The low bytes of a number. -/
theorem leBytes_mod (width n : Nat) : leBytes width (n % 256 ^ width) = leBytes width n := by
  have hback := leBytes_leNat (leBytes width n)
  rw [length_leBytes, leNat_leBytes] at hback
  exact hback

/-- The bytes of an async id are those of its two halves. -/
theorem leBytes_asyncId (h : Smb2Header) :
    leBytes 8 h.asyncId.toNat = leBytes 4 h.processId.toNat ++ leBytes 4 h.treeId.toNat := by
  have hprocess := h.processId.toNat_lt
  have hlow : (h.processId.toNat + 2 ^ 32 * h.treeId.toNat) % 256 ^ 4 = h.processId.toNat := by omega
  have hhigh : (h.processId.toNat + 2 ^ 32 * h.treeId.toNat) / 256 ^ 4 = h.treeId.toNat := by omega
  rw [toNat_asyncId, leBytes_add 4 4, hhigh, ← leBytes_mod 4, hlow]

/-! ### Fields in their places -/

section

variable {sizes : List Nat} {pieces : List Bytes} {iov : Bytes} {width offset : Nat}

/-- A field written over its place. -/
theorem setField_layout (l : Layout sizes pieces iov) (i value : Nat) (hwidth : sizes[i]? = some width)
    (hoffset : (sizes.take i).sum = offset) :
    Layout sizes (pieces.set i (leBytes width value)) (setField width iov offset value) := by
  have hle := l.sum_take_le hwidth
  rw [hoffset] at hle
  rw [setField_eq hle, ← hoffset]
  apply l.memcpy
  rw [length_leBytes, hwidth]

/-- A field read from its place has the bytes of the piece there. -/
theorem exists_getField_layout (l : Layout sizes pieces iov) {i : Nat} {piece : Bytes} (hwidth : sizes[i]? = some width)
    (hpiece : pieces[i]? = some piece) (hoffset : (sizes.take i).sum = offset) :
    ∃ value, getField width iov offset = some value ∧ value < 256 ^ width ∧ leBytes width value = piece := by
  have hle := l.sum_take_le hwidth
  rw [hoffset] at hle
  have hlength : piece.length = width := by
    rw [← l.sizes_eq, List.getElem?_map, hpiece] at hwidth
    exact Option.some.inj hwidth
  have hslice := l.slice_eq hpiece
  rw [hlength, hoffset] at hslice
  refine ⟨leNat piece, ?_, ?_, ?_⟩
  · rw [getField_eq hle, hslice]
  · rw [← hlength]
    exact leNat_lt piece
  · rw [← hlength]
    exact leBytes_leNat piece

theorem leBytes_smb2GetUint16 (l : Layout sizes pieces iov) (i : Nat) {piece : Bytes} (hwidth : sizes[i]? = some 2)
    (hpiece : pieces[i]? = some piece) (hoffset : (sizes.take i).sum = offset) :
    leBytes 2 (smb2GetUint16 iov offset 0).toNat = piece := by
  obtain ⟨value, hvalue, hlt, hbytes⟩ := exists_getField_layout l hwidth hpiece hoffset
  rw [smb2GetUint16, hvalue, Option.elim_some, toNat_ofNat_uint16 hlt, hbytes]

theorem leBytes_smb2GetUint32 (l : Layout sizes pieces iov) (i : Nat) {piece : Bytes} (hwidth : sizes[i]? = some 4)
    (hpiece : pieces[i]? = some piece) (hoffset : (sizes.take i).sum = offset) :
    leBytes 4 (smb2GetUint32 iov offset 0).toNat = piece := by
  obtain ⟨value, hvalue, hlt, hbytes⟩ := exists_getField_layout l hwidth hpiece hoffset
  rw [smb2GetUint32, hvalue, Option.elim_some, toNat_ofNat_uint32 hlt, hbytes]

theorem leBytes_smb2GetUint64 (l : Layout sizes pieces iov) (i : Nat) {piece : Bytes} (hwidth : sizes[i]? = some 8)
    (hpiece : pieces[i]? = some piece) (hoffset : (sizes.take i).sum = offset) :
    leBytes 8 (smb2GetUint64 iov offset 0).toNat = piece := by
  obtain ⟨value, hvalue, hlt, hbytes⟩ := exists_getField_layout l hwidth hpiece hoffset
  rw [smb2GetUint64, hvalue, Option.elim_some, toNat_ofNat_uint64 hlt, hbytes]

end

/-- A synchronous request and an asynchronous one write the same eight bytes. -/
theorem write_union (h : Smb2Header) {iov : Bytes} (hiov : iov.length = 64) :
    smb2SetUint32 (smb2SetUint32 iov 32 h.processId) 36 h.treeId = smb2SetUint64 iov 32 h.asyncId := by
  obtain ⟨pieces, l⟩ := @Layout.exists_of_length [32, 4, 4, 24] iov hiov
  obtain ⟨pre, process, tree, post, rfl⟩ := List.length_eq_four.mp l.length_pieces
  obtain ⟨hsizes, hblock⟩ := l
  have lsync : Layout [32, 4, 4, 24] _ iov := ⟨hsizes, hblock⟩
  have lasync : Layout [32, 8, 24] [pre, process ++ tree, post] iov := by
    simp only [List.map_cons, List.map_nil, List.cons.injEq, and_true] at hsizes
    obtain ⟨hpre, hprocess, htree, hpost⟩ := hsizes
    refine ⟨?_, ?_⟩
    · rw [List.map_cons, List.map_cons, List.map_cons, List.map_nil, List.length_append, hpre, hprocess, htree, hpost]
    · rw [← hblock]
      simp only [List.flatten_cons, List.append_assoc]
  have hprocess := setField_layout lsync 1 h.processId.toNat rfl (show _ = 32 from rfl)
  have htree := setField_layout hprocess 2 h.treeId.toNat rfl (show _ = 36 from rfl)
  have hasync := setField_layout lasync 1 h.asyncId.toNat rfl (show _ = 32 from rfl)
  have hboth : pre ++ (leBytes 4 h.processId.toNat ++ (leBytes 4 h.treeId.toNat ++ (post ++ []))) =
      pre ++ (leBytes 8 h.asyncId.toNat ++ (post ++ [])) := by
    rw [leBytes_asyncId, List.append_assoc]
  exact htree.flatten_eq.symm.trans (hboth.trans hasync.flatten_eq)

/-! ### The whole vector -/

/-- What is written over a vector covers all of it. -/
theorem write_layout {h : Smb2Header} (hsized : h.Sized) {iov : Bytes} (hiov : iov.length = 64) :
    Layout headerSizes h.pieces (h.write iov) := by
  obtain ⟨pieces, l⟩ := @Layout.exists_of_length headerSizes iov hiov
  match pieces, l.length_pieces with
  | [_, _, _, _, _, _, _, _, _, _, _, _], _ =>
    have l₀ : Layout headerSizes _ (memcpy iov 0 h.protocolId) := @Layout.memcpy _ _ _ h.protocolId 0 l
      (by rw [hsized.protocolId]; rfl)
    have l₁ := setField_layout l₀ 1 h.structSize.toNat rfl (show _ = 4 from rfl)
    have l₂ := setField_layout l₁ 2 h.creditCharge.toNat rfl (show _ = 6 from rfl)
    have l₃ := setField_layout l₂ 3 h.status.toNat rfl (show _ = 8 from rfl)
    have l₄ := setField_layout l₃ 4 h.command.toNat rfl (show _ = 12 from rfl)
    have l₅ := setField_layout l₄ 5 h.creditRequestResponse.toNat rfl (show _ = 14 from rfl)
    have l₆ := setField_layout l₅ 6 h.flags.toNat rfl (show _ = 16 from rfl)
    have l₇ := setField_layout l₆ 7 h.nextCommand.toNat rfl (show _ = 20 from rfl)
    have l₈ := setField_layout l₇ 8 h.messageId.toNat rfl (show _ = 24 from rfl)
    have l₉ := setField_layout l₈ 9 h.asyncId.toNat rfl (show _ = 32 from rfl)
    have l₁₀ := setField_layout l₉ 10 h.sessionId.toNat rfl (show _ = 40 from rfl)
    have l₁₁ := @Layout.memcpy _ _ _ h.signature 11 l₁₀ (by rw [hsized.signature]; rfl)
    have hunion := write_union h l₈.length_eq
    simp only [smb2SetUint32, smb2SetUint64] at hunion
    simp only [Smb2Header.write, smb2SetUint16, smb2SetUint32, smb2SetUint64, hunion, ite_self]
    exact l₁₁

/-- The process and the tree are the halves of the async id. -/
theorem read_union {iov : Bytes} (hiov : iov.length = 64) :
    smb2GetUint32 iov 32 0 = UInt32.ofNat ((smb2GetUint64 iov 32 0).toNat % 2 ^ 32) ∧
      smb2GetUint32 iov 36 0 = UInt32.ofNat ((smb2GetUint64 iov 32 0).toNat / 2 ^ 32) := by
  have hprocess : getField 4 iov 32 = some (leNat (slice iov 32 4)) := getField_eq (by omega)
  have htree : getField 4 iov 36 = some (leNat (slice iov 36 4)) := getField_eq (by omega)
  have hasync : getField 8 iov 32 = some (leNat (slice iov 32 8)) := getField_eq (by omega)
  have hlow := @leNat_slice_lt iov 4 32
  have hhigh := @leNat_slice_lt iov 4 36
  have hsum : leNat (slice iov 32 8) = leNat (slice iov 32 4) + 256 ^ 4 * leNat (slice iov 36 4) := by
    rw [slice_add iov 32 4 4, leNat_append, length_slice (by omega)]
  have hvalue : (smb2GetUint64 iov 32 0).toNat = leNat (slice iov 32 4) + 256 ^ 4 * leNat (slice iov 36 4) := by
    rw [smb2GetUint64, hasync, Option.elim_some, hsum, toNat_ofNat_uint64 (by omega)]
  rw [smb2GetUint32, smb2GetUint32, hprocess, htree, Option.elim_some, Option.elim_some, hvalue]
  constructor
  · congr 1
    omega
  · congr 1
    omega

/-- The header in a vector of the right size. -/
theorem decodeHeader_eq {iov : Bytes} (hiov : iov.length = 64) : decodeHeader iov = some {
    protocolId := iov.take 4
    structSize := smb2GetUint16 iov 4 0
    creditCharge := smb2GetUint16 iov 6 0
    status := smb2GetUint32 iov 8 0
    command := smb2GetUint16 iov 12 0
    creditRequestResponse := smb2GetUint16 iov 14 0
    flags := smb2GetUint32 iov 16 0
    nextCommand := smb2GetUint32 iov 20 0
    messageId := smb2GetUint64 iov 24 0
    processId := UInt32.ofNat ((smb2GetUint64 iov 32 0).toNat % 2 ^ 32)
    treeId := UInt32.ofNat ((smb2GetUint64 iov 32 0).toNat / 2 ^ 32)
    sessionId := smb2GetUint64 iov 40 0
    signature := (iov.drop 48).take 16 } := by
  have hsize : ¬ iov.length ≠ smb2HeaderSize := not_not.mpr hiov
  obtain ⟨hprocess, htree⟩ := read_union hiov
  rw [decodeHeader, if_neg hsize]
  simp only [hprocess, htree, ite_self]

/-- What is read from a vector are its pieces. -/
theorem decodeHeader_layout {pieces : List Bytes} {iov : Bytes} (l : Layout headerSizes pieces iov) :
    ∃ h : WireHeader, decodeHeader iov = some h.1 ∧ h.1.pieces = pieces := by
  have hiov : iov.length = 64 := l.length_eq
  refine ⟨⟨_, ⟨?_, ?_⟩⟩, decodeHeader_eq hiov, ?_⟩
  · rw [List.length_take]
    omega
  · rw [List.length_take, List.length_drop]
    omega
  match pieces, l.length_pieces with
  | [p₀, _, _, _, _, _, _, _, _, _, _, p₁₁], _ =>
    have hsizes := l.sizes_eq
    simp only [headerSizes, List.map_cons, List.map_nil, List.cons.injEq, and_true] at hsizes
    have hfirst : iov.take 4 = p₀ := by
      rw [← @Layout.slice_eq _ _ _ 0 l p₀ rfl, hsizes.1]
      rfl
    have hlast : (iov.drop 48).take 16 = p₁₁ := by
      rw [← @Layout.slice_eq _ _ _ 11 l p₁₁ rfl, hsizes.2.2.2.2.2.2.2.2.2.2.2]
      rfl
    have hasync := leBytes_smb2GetUint64 l 9 rfl rfl (show _ = 32 from rfl)
    have hunion (value : UInt64) : (UInt32.ofNat (value.toNat % 2 ^ 32)).toNat +
        2 ^ 32 * (UInt32.ofNat (value.toNat / 2 ^ 32)).toNat = value.toNat := by
      have hlt := value.toNat_lt
      rw [toNat_ofNat_uint32 (Nat.mod_lt _ (by decide)), toNat_ofNat_uint32 (by omega)]
      omega
    simp only [Smb2Header.pieces, toNat_asyncId, hunion, hasync, hfirst, hlast,
      leBytes_smb2GetUint16 l 1 rfl rfl (show _ = 4 from rfl), leBytes_smb2GetUint16 l 2 rfl rfl (show _ = 6 from rfl),
      leBytes_smb2GetUint32 l 3 rfl rfl (show _ = 8 from rfl), leBytes_smb2GetUint16 l 4 rfl rfl (show _ = 12 from rfl),
      leBytes_smb2GetUint16 l 5 rfl rfl (show _ = 14 from rfl), leBytes_smb2GetUint32 l 6 rfl rfl (show _ = 16 from rfl),
      leBytes_smb2GetUint32 l 7 rfl rfl (show _ = 20 from rfl), leBytes_smb2GetUint64 l 8 rfl rfl (show _ = 24 from rfl),
      leBytes_smb2GetUint64 l 10 rfl rfl (show _ = 40 from rfl)]

/-- No two headers have the same bytes. -/
theorem pieces_injective {h h' : Smb2Header} (heq : h.pieces = h'.pieces) : h = h' := by
  have hnumber {width m n : Nat} (hm : m < 256 ^ width) (hn : n < 256 ^ width) (hbytes : leBytes width m = leBytes width n) :
      m = n := by
    rw [← leNat_leBytes_of_lt hm, hbytes, leNat_leBytes_of_lt hn]
  have hhalf {m n m' n' : UInt32} (hsum : m.toNat + 2 ^ 32 * n.toNat = m'.toNat + 2 ^ 32 * n'.toNat) : m = m' ∧ n = n' := by
    have hm := m.toNat_lt
    have hm' := m'.toNat_lt
    rw [← UInt32.toNat_inj, ← UInt32.toNat_inj]
    omega
  simp only [Smb2Header.pieces, List.cons.injEq, and_true] at heq
  obtain ⟨h₀, h₁, h₂, h₃, h₄, h₅, h₆, h₇, h₈, h₉, h₁₀, h₁₁⟩ := heq
  have hid := hnumber h.asyncId.toNat_lt h'.asyncId.toNat_lt h₉
  rw [toNat_asyncId, toNat_asyncId] at hid
  obtain ⟨hprocess, htree⟩ := hhalf hid
  have h₁' := UInt16.toNat_inj.mp (hnumber h.structSize.toNat_lt h'.structSize.toNat_lt h₁)
  have h₂' := UInt16.toNat_inj.mp (hnumber h.creditCharge.toNat_lt h'.creditCharge.toNat_lt h₂)
  have h₃' := UInt32.toNat_inj.mp (hnumber (UInt32.toNat_lt h.status) (UInt32.toNat_lt h'.status) h₃)
  have h₄' := UInt16.toNat_inj.mp (hnumber h.command.toNat_lt h'.command.toNat_lt h₄)
  have h₅' := UInt16.toNat_inj.mp
    (hnumber h.creditRequestResponse.toNat_lt h'.creditRequestResponse.toNat_lt h₅)
  have h₆' := UInt32.toNat_inj.mp (hnumber h.flags.toNat_lt h'.flags.toNat_lt h₆)
  have h₇' := UInt32.toNat_inj.mp (hnumber h.nextCommand.toNat_lt h'.nextCommand.toNat_lt h₇)
  have h₈' := UInt64.toNat_inj.mp (hnumber h.messageId.toNat_lt h'.messageId.toNat_lt h₈)
  have h₁₀' := UInt64.toNat_inj.mp (hnumber h.sessionId.toNat_lt h'.sessionId.toNat_lt h₁₀)
  obtain ⟨_, _, _, _, _, _, _, _, _, _, _, _, _⟩ := h
  obtain ⟨_, _, _, _, _, _, _, _, _, _, _, _, _⟩ := h'
  simp only at h₀ h₁' h₂' h₃' h₄' h₅' h₆' h₇' h₈' hprocess htree h₁₀' h₁₁
  rw [h₀, h₁', h₂', h₃', h₄', h₅', h₆', h₇', h₈', hprocess, htree, h₁₀', h₁₁]

/-- For every header, what is decoded from the 64 bytes that are written is the header with the message id that
was assigned; and for every 64 bytes, the header that is decoded from them is written as the same bytes, when
the next message id is the one in them. -/
theorem headerRoundTrips (smb2 : Smb2Context) (pdu : Smb2Pdu) (iov : Block 64) :
    (∀ h : WireHeader, decodeHeader (encodedHeader smb2 pdu h.1 iov.1) = some { h.1 with messageId := smb2.messageId }) ∧
    ∀ block : Block 64, ∃ h : WireHeader, decodeHeader block.1 = some h.1 ∧
      encodedHeader { smb2 with messageId := h.1.messageId } pdu h.1 iov.1 = block.1 := by
  constructor
  · intro h
    have hsized : { h.1 with messageId := smb2.messageId }.Sized := ⟨h.2.protocolId, h.2.signature⟩
    obtain ⟨h', hdecoded, hpieces⟩ := decodeHeader_layout (write_layout hsized iov.2)
    rw [encodedHeader_eq, hdecoded, pieces_injective hpieces]
  · intro block
    obtain ⟨pieces, l⟩ := @Layout.exists_of_length headerSizes block.1 block.2
    obtain ⟨h, hdecoded, hpieces⟩ := decodeHeader_layout l
    have hwritten := write_layout h.2 iov.2
    refine ⟨h, hdecoded, ?_⟩
    rw [encodedHeader_eq, ← l.flatten_eq, ← hpieces]
    exact hwritten.flatten_eq.symm

end CodeStudy.Samba
