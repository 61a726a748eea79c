import CodeStudy.Samba.Fields
import CodeStudy.Samba.Requests
import CodeStudy.Samba.Ucs2

/-!
# Where the variable data of a request are

The fixed part of a request says where its variable data begin, counted from the header, and how
long they are. The offsets are constants and always right. The lengths are right but for names whose
size does not fit into the 16 bits of its field, for a WRITE of two gigabytes and more, and for an
IOCTL that announces output, which no request has.
-/

namespace CodeStudy.Samba

/-- Variable data with the fields that describe them, each given by its width and its place in the
fixed part. -/
structure VariableData where
  offsetField : Nat × Nat
  lengthField : Nat × Nat
  data : Bytes
  /-- What the second field is to hold: a number of bytes, but for the contexts of a NEGOTIATE. -/
  length : Nat := data.length

/-- A message has the data where the one field says, and as many as the other says. -/
def VariableData.Designated (v : VariableData) (pdu : Bytes) : Prop :=
  ∃ before after, pdu = before ++ v.data ++ after ∧
    getField v.offsetField.1 pdu (smb2HeaderSize + v.offsetField.2) = some before.length ∧
    getField v.lengthField.1 pdu (smb2HeaderSize + v.lengthField.2) = some v.length

/-- The units a name is sent as; an empty name is not converted. -/
def sentName (env : Env) (name : Bytes) : List UInt16 :=
  if cString name = [] then [] else (env.utf8ToUcs2 (cString name)).getD []

/-- The data of a SET_INFO. -/
def SetInfoData.sent (env : Env) : SetInfoData → Bytes
  | endOfFile size => encodeEndOfFile size
  | rename replaceIfExist fileName =>
      encodeRename replaceIfExist ((env.utf8ToUcs2 (cString fileName)).getD [])
  | basic info => encodeBasicInfo info
  | fullExtended buf | security buf => buf.bytes
  | other .. => []

/-- A request of a command with variable data. -/
inductive Smb2Request where
  | create (req : Smb2CreateRequest)
  | queryDirectory (req : Smb2QueryDirectoryRequest)
  | write (req : Smb2WriteRequest) (enough : req.length.toNat ≤ req.buf.length)
  | ioctl (req : Smb2IoctlRequest)
  | setInfo (req : Smb2SetInfoRequest)
  | sessionSetup (req : Smb2SessionSetupRequest)
  | treeConnect (req : Smb2TreeConnectRequest)
  | negotiate (req : Smb2NegotiateRequest)

namespace Smb2Request

def command : Smb2Request → Smb2Command
  | create _ => .create
  | queryDirectory _ => .queryDirectory
  | write .. => .write
  | ioctl _ => .ioctl
  | setInfo _ => .setInfo
  | sessionSetup _ => .sessionSetup
  | treeConnect _ => .treeConnect
  | negotiate _ => .negotiate

def encodeRequest (env : Env) (smb2 : Smb2Context) : Smb2Request → Encoded
  | create req => req.encode env
  | queryDirectory req => req.encode env
  | write req _ => req.encode smb2
  | ioctl req => req.encode
  | setInfo req => req.encode env
  | sessionSetup req => .body req.encode
  | treeConnect req => .body req.encode
  | negotiate req => .body req.encode

/-- The variable data by the places of their fields. The contexts of a CREATE, the channel
information of a WRITE and the output of an IOCTL have fields too, but are never sent. -/
def variableData (env : Env) (smb2 : Smb2Context) : Smb2Request → List VariableData
  | create req =>
      [{ offsetField := (2, 44), lengthField := (2, 46)
         data := ucs2Bytes ((sentName env req.name).map serverSeparator) },
       { offsetField := (4, 48), lengthField := (4, 52), data := [] }]
  | queryDirectory req =>
      [{ offsetField := (2, 24), lengthField := (2, 26), data := ucs2Bytes (sentName env req.name) }]
  | write req _ =>
      [{ offsetField := (2, 2), lengthField := (4, 4)
         data := req.buf.take (singleCreditLength smb2 req.length).toNat },
       { offsetField := (2, 40), lengthField := (2, 42), data := [] }]
  | ioctl req =>
      [{ offsetField := (4, 24), lengthField := (4, 28), data := req.input.bytes },
       { offsetField := (4, 36), lengthField := (4, 40), data := [] }]
  | setInfo req => [{ offsetField := (2, 8), lengthField := (4, 4), data := req.input.sent env }]
  | sessionSetup req =>
      [{ offsetField := (2, 12), lengthField := (2, 14), data := req.securityBuffer.bytes }]
  | treeConnect req => [{ offsetField := (2, 4), lengthField := (2, 6), data := req.path.bytes }]
  | negotiate req =>
      if req.encodeNegotiateContexts = [] then []
      else
        [{ offsetField := (4, 28), lengthField := (2, 32), data := req.encodeNegotiateContexts.flatten
           length := req.encodeNegotiateContexts.length }]

/-- The PDU that is made of a request has its variable data where the fixed part says. -/
def Described (env : Env) (smb2 : Smb2Context) (appData : Nat) (req : Smb2Request) : Prop :=
  ∃ body, req.encodeRequest env smb2 = .body body ∧ ∀ v ∈ req.variableData env smb2,
    v.Designated (createPdu smb2 { command := req.command, appData, body }).out.iovs.flatten

/-- The fields can hold the lengths. -/
def Fits (env : Env) (smb2 : Smb2Context) : Smb2Request → Prop
  | create req => (sentName env req.name).length < 2 ^ 15
  | queryDirectory req => (sentName env req.name).length < 2 ^ 15
  | write req _ => (singleCreditLength smb2 req.length).toNat < 2 ^ 31
  | ioctl req => req.outputCount = 0
  | _ => True

instance (env : Env) (smb2 : Smb2Context) (req : Smb2Request) : Decidable (req.Fits env smb2) :=
  match req with
  | create _ | queryDirectory _ | write .. => Nat.decLt _ _
  | ioctl _ => inferInstanceAs (Decidable (_ = _))
  | setInfo _ | sessionSetup _ | treeConnect _ | negotiate _ => .isTrue trivial

end Smb2Request

/-! ### Reading the fields of a fixed part -/

section

variable {smb2 : Smb2Context} {command : Smb2Command} {appData : Nat} {body : List Bytes}
  {v : VariableData} {fixed rest : Bytes} {n : Nat}

theorem flatten_createPdu (smb2 : Smb2Context) (spec : RequestSpec) :
    ∃ pad, (createPdu smb2 spec).out.iovs.flatten =
      List.replicate smb2HeaderSize 0 ++ (spec.body.flatten ++ pad) := by
  obtain ⟨pad, hiovs⟩ := iovs_createPdu smb2 spec
  refine ⟨pad.flatten, ?_⟩
  rw [hiovs, List.flatten_cons, List.flatten_append]

/-- When data are where the one field says, what decides is the other field. -/
theorem VariableData.designated_iff (before after : Bytes) (hbody : body.flatten = fixed ++ rest)
    (hdata : List.replicate smb2HeaderSize 0 ++ body.flatten = before ++ v.data ++ after)
    (hoffset : getField v.offsetField.1 fixed v.offsetField.2 = some before.length)
    (hlength : getField v.lengthField.1 fixed v.lengthField.2 = some n) :
    v.Designated (createPdu smb2 { command, appData, body }).out.iovs.flatten ↔ n = v.length := by
  obtain ⟨pad, hpdu⟩ := flatten_createPdu smb2 { command, appData, body }
  have hread {width offset value : Nat} (h : getField width fixed offset = some value) :
      getField width (createPdu smb2 { command, appData, body }).out.iovs.flatten (smb2HeaderSize + offset) = some value := by
    have happend := getField_append (List.replicate smb2HeaderSize 0) (rest ++ pad) h
    rw [List.length_replicate] at happend
    rw [hpdu, hbody, List.append_assoc]
    exact happend
  constructor
  · rintro ⟨-, -, -, -, h⟩
    rw [hread hlength] at h
    exact Option.some.inj h
  · rintro rfl
    refine ⟨before, after ++ pad, ?_, hread hoffset, hread hlength⟩
    rw [hpdu, ← List.append_assoc, hdata, List.append_assoc]

/-- Data right behind the fixed part. -/
theorem VariableData.designated_behind_iff (hbody : body.flatten = fixed ++ (v.data ++ rest))
    (hoffset : getField v.offsetField.1 fixed v.offsetField.2 = some (smb2HeaderSize + fixed.length))
    (hlength : getField v.lengthField.1 fixed v.lengthField.2 = some n) :
    v.Designated (createPdu smb2 { command, appData, body }).out.iovs.flatten ↔ n = v.length := by
  apply designated_iff (List.replicate smb2HeaderSize 0 ++ fixed) rest hbody _ _ hlength
  · rw [hbody, List.append_assoc, List.append_assoc]
  · rw [hoffset, List.length_append, List.length_replicate]

/-- Where there are no data, any offset into the message will do. -/
theorem VariableData.designated_empty_iff {offset : Nat} (hbody : body.flatten = fixed ++ rest)
    (hempty : v.data = []) (hoffset : getField v.offsetField.1 fixed v.offsetField.2 = some offset)
    (hle : offset ≤ smb2HeaderSize + fixed.length)
    (hlength : getField v.lengthField.1 fixed v.lengthField.2 = some n) :
    v.Designated (createPdu smb2 { command, appData, body }).out.iovs.flatten ↔ n = v.length := by
  apply designated_iff ((List.replicate smb2HeaderSize 0 ++ fixed).take offset)
    ((List.replicate smb2HeaderSize 0 ++ fixed).drop offset ++ rest) hbody _ _ hlength
  · rw [hempty, List.append_nil, ← List.append_assoc, List.take_append_drop, hbody, List.append_assoc]
  · rw [hoffset, List.length_take, List.length_append, List.length_replicate, Nat.min_eq_left hle]

end

/-! ### The fixed parts -/

section

variable (req : Smb2CreateRequest) (nameLength : UInt16)

theorem Smb2CreateRequest.length_fixed : (req.fixed nameLength).length = 56 := by
  simp [Smb2CreateRequest.fixed]

theorem Smb2CreateRequest.getField_fixed :
    getField 2 (req.fixed nameLength) 44 = some (smb2HeaderSize + (req.fixed nameLength).length) ∧
      getField 2 (req.fixed nameLength) 46 = some nameLength.toNat ∧
      getField 4 (req.fixed nameLength) 48 = some 0 ∧
      getField 4 (req.fixed nameLength) 52 = some req.createContextLength.toNat := by
  rw [req.length_fixed nameLength]
  refine ⟨?_, ?_, ?_, getField_smb2SetUint32 (by simp) _⟩
  · simp (disch := decide) only [fixed, smb2SetUint32, getField_setField_of_disjoint]
    exact getField_smb2SetUint16 (by simp [length_setField]) _
  · simp (disch := decide) only [fixed, smb2SetUint8, smb2SetUint16, smb2SetUint32, smb2SetUint64,
      getField_setField_of_disjoint]
    exact getField_smb2SetUint16 (by simp) _
  · simp (disch := decide) only [fixed, smb2SetUint8, smb2SetUint16, smb2SetUint32, smb2SetUint64,
      getField_setField_of_disjoint, getField_replicate]

end

section

variable (req : Smb2QueryDirectoryRequest) (nameLength : UInt16)

theorem Smb2QueryDirectoryRequest.length_fixed : (req.fixed nameLength).length = 32 := by
  simp [Smb2QueryDirectoryRequest.fixed]

theorem Smb2QueryDirectoryRequest.getField_fixed :
    getField 2 (req.fixed nameLength) 24 = some (smb2HeaderSize + (req.fixed nameLength).length) ∧
      getField 2 (req.fixed nameLength) 26 = some nameLength.toNat := by
  rw [req.length_fixed nameLength]
  constructor
  · simp (disch := decide) only [fixed, smb2SetUint32, getField_setField_of_disjoint]
    exact getField_smb2SetUint16 (by simp [length_setField]) _
  · simp (disch := decide) only [fixed, smb2SetUint8, smb2SetUint16, smb2SetUint32, smb2SetUint64,
      getField_setField_of_disjoint]
    exact getField_smb2SetUint16 (by simp) _

end

section

variable (req : Smb2WriteRequest) (length : UInt32)

theorem Smb2WriteRequest.length_fixed : (req.fixed length).length = 48 := by
  simp [Smb2WriteRequest.fixed]

theorem Smb2WriteRequest.getField_fixed :
    getField 2 (req.fixed length) 2 = some (smb2HeaderSize + (req.fixed length).length) ∧
      getField 4 (req.fixed length) 4 = some length.toNat ∧
      getField 2 (req.fixed length) 40 = some 0 ∧
      getField 2 (req.fixed length) 42 = some req.writeChannelInfoLength.toNat := by
  rw [req.length_fixed length]
  refine ⟨?_, ?_, ?_, ?_⟩
  · simp (disch := decide) only [fixed, smb2SetUint32, smb2SetUint64, getField_setField_of_disjoint]
    simp (disch := decide) only [smb2SetUint16, getField_setField_of_disjoint]
    exact getField_smb2SetUint16 (by simp [length_setField]) _
  · simp (disch := decide) only [fixed, smb2SetUint16, smb2SetUint32, smb2SetUint64,
      getField_setField_of_disjoint]
    exact getField_smb2SetUint32 (by simp [length_setField]) _
  · simp (disch := decide) only [fixed, smb2SetUint16, smb2SetUint32, smb2SetUint64,
      getField_setField_of_disjoint, getField_replicate]
  · simp (disch := decide) only [fixed, smb2SetUint32, getField_setField_of_disjoint]
    exact getField_smb2SetUint16 (by simp [length_setField]) _

end

section

variable (req : Smb2IoctlRequest)

theorem Smb2IoctlRequest.length_fixed : req.fixed.length = 56 := by
  simp [Smb2IoctlRequest.fixed]

theorem Smb2IoctlRequest.getField_fixed :
    getField 4 req.fixed 24 = some (smb2HeaderSize + req.fixed.length) ∧
      getField 4 req.fixed 28 = some req.input.size ∧
      getField 4 req.fixed 36 = some (smb2HeaderSize + req.fixed.length) ∧
      getField 4 req.fixed 40 = some req.outputCount.toNat := by
  rw [req.length_fixed]
  refine ⟨?_, ?_, ?_, ?_⟩
  all_goals simp (disch := decide) only [fixed, smb2SetUint16, smb2SetUint32, smb2SetUint64,
    getField_setField_of_disjoint]
  · exact getField_smb2SetUint32 (by simp [length_setField]) _
  · have hsize : (UInt32.ofNat req.input.size).toNat = req.input.size := toNat_ofNat_uint32 req.input.fits
    exact (getField_smb2SetUint32 (by simp [length_setField]) _).trans (congrArg some hsize)
  · exact getField_smb2SetUint32 (by simp [length_setField]) _
  · exact getField_smb2SetUint32 (by simp [length_setField]) _

end

section

variable (req : Smb2SetInfoRequest)

theorem length_convertSeparator (iov : Bytes) (offset : Nat) :
    (convertSeparator iov offset).length = iov.length := by
  rw [convertSeparator]
  split_ifs
  · exact length_smb2SetUint16 _ _ _
  · rfl

/-- A field that is no separator is not converted. -/
theorem getField_convertSeparator {iov : Bytes} (offset : Nat) {value : Nat}
    (h : getField 2 iov (2 * offset) = some value) (hvalue : value ≠ 0x002f) (i : Nat) :
    getField 2 (convertSeparator iov (2 * i)) (2 * offset) = some value := by
  rw [convertSeparator]
  split_ifs with hsep
  · have hne : i ≠ offset := by
      rintro rfl
      exact hvalue (Option.some.inj (h.symm.trans hsep))
    rw [smb2SetUint16, getField_setField_of_disjoint (by omega), h]
  · exact h

/-- The fixed part of a SET_INFO, as it is when the length is written. -/
structure Smb2SetInfoRequest.FixedPart (iov : Bytes) : Prop where
  length : iov.length = 32
  offset : getField 2 iov 8 = some 96

theorem Smb2SetInfoRequest.fixedPart_fixed : FixedPart req.fixed where
  length := by simp [Smb2SetInfoRequest.fixed]
  offset := by
    simp (disch := decide) only [fixed, smb2SetUint32, smb2SetUint64, getField_setField_of_disjoint]
    exact getField_smb2SetUint16 (by simp) _

/-- The loop over the fixed part does not reach the offset: it is no separator. -/
theorem Smb2SetInfoRequest.fixedPart_renameFixed (units : Nat) : FixedPart (req.renameFixed units) := by
  rw [renameFixed]
  induction units with
  | zero =>
      rw [List.range_zero, List.foldl_nil]
      exact req.fixedPart_fixed
  | succ units ih =>
      rw [List.range_succ, List.foldl_append, List.foldl_cons, List.foldl_nil]
      exact ⟨(length_convertSeparator _ _).trans ih.length,
        getField_convertSeparator 4 ih.offset (by decide) units⟩

theorem Smb2SetInfoRequest.FixedPart.getField {iov : Bytes} (h : FixedPart iov) (length : UInt32) :
    getField 2 (smb2SetUint32 iov 4 length) 8 =
        some (smb2HeaderSize + (smb2SetUint32 iov 4 length).length) ∧
      getField 4 (smb2SetUint32 iov 4 length) 4 = some length.toNat := by
  rw [length_smb2SetUint32, h.length]
  constructor
  · rw [smb2SetUint32, getField_setField_of_disjoint (by decide)]
    exact h.offset
  · exact getField_smb2SetUint32 (by rw [h.length]; decide) _

end

section

variable (req : Smb2SessionSetupRequest)

theorem Smb2SessionSetupRequest.length_fixed : req.fixed.length = 24 := by
  simp [Smb2SessionSetupRequest.fixed]

theorem Smb2SessionSetupRequest.getField_fixed :
    getField 2 req.fixed 12 = some (smb2HeaderSize + req.fixed.length) ∧
      getField 2 req.fixed 14 = some req.securityBuffer.size := by
  have hsize : (UInt16.ofNat req.securityBuffer.size).toNat = req.securityBuffer.size :=
    toNat_ofNat_uint16 req.securityBuffer.fits
  rw [req.length_fixed]
  constructor
  · simp (disch := decide) only [fixed, smb2SetUint64, getField_setField_of_disjoint]
    rw [smb2SetUint16, getField_setField_of_disjoint (by decide)]
    exact getField_smb2SetUint16 (by simp) _
  · simp (disch := decide) only [fixed, smb2SetUint64, getField_setField_of_disjoint]
    exact (getField_smb2SetUint16 (by simp) _).trans (congrArg some hsize)

end

section

variable (req : Smb2TreeConnectRequest)

theorem Smb2TreeConnectRequest.length_fixed : req.fixed.length = 8 := by
  simp [Smb2TreeConnectRequest.fixed]

theorem Smb2TreeConnectRequest.getField_fixed :
    getField 2 req.fixed 4 = some (smb2HeaderSize + req.fixed.length) ∧
      getField 2 req.fixed 6 = some req.path.size := by
  have hsize : (UInt16.ofNat req.path.size).toNat = req.path.size := toNat_ofNat_uint16 req.path.fits
  rw [req.length_fixed]
  constructor
  · rw [fixed, smb2SetUint16, getField_setField_of_disjoint (by decide)]
    exact getField_smb2SetUint16 (by simp) _
  · exact (getField_smb2SetUint16 (by simp) _).trans (congrArg some hsize)

end

section

variable (req : Smb2NegotiateRequest)

theorem Smb2NegotiateRequest.le_fixedLength : 36 + 2 * req.dialects.length ≤ req.fixedLength := by
  rw [fixedLength]
  split_ifs
  · exact le_rfl
  · exact Nat.le_add_right _ _

theorem Smb2NegotiateRequest.fixedLength_le : req.fixedLength ≤ 64 := by
  have hle := req.dialects_le
  rw [smb2NegotiateMaxDialects] at hle
  rw [fixedLength]
  split_ifs <;> omega

theorem Smb2NegotiateRequest.length_writeDialects (dialects : List UInt16) (iov : Bytes) (offset : Nat) :
    (writeDialects iov offset dialects).length = iov.length := by
  induction dialects generalizing iov offset with
  | nil => rfl
  | cons dialect dialects ih => rw [writeDialects, ih, length_smb2SetUint16]

/-- The fields that describe the contexts are written last. -/
theorem Smb2NegotiateRequest.fixed_eq (h : smb2Version0311 ≤ req.maxDialect) :
    ∃ iov : Bytes, iov.length = req.fixedLength ∧ req.fixed =
      smb2SetUint16 (smb2SetUint16 (smb2SetUint32 iov 28 (UInt32.ofNat (64 + req.fixedLength))) 32
        (UInt16.ofNat req.encodeNegotiateContexts.length)) 34 0 := by
  have hle := req.le_fixedLength
  refine ⟨_, ?_, if_neg (UInt16.not_lt.mpr h)⟩
  rw [length_writeDialects, length_memcpy]
  · simp
  · rw [req.length_clientGuid, smb2GuidSize]
    simp
    omega

theorem Smb2NegotiateRequest.length_encodeNegotiateContexts :
    req.encodeNegotiateContexts.length ≤ 2 := by
  rw [encodeNegotiateContexts]
  split_ifs <;> simp

theorem Smb2NegotiateRequest.dialect_of_contexts (h : req.encodeNegotiateContexts ≠ []) :
    smb2Version0311 ≤ req.maxDialect := by
  apply req.dialect_of_flags
  by_contra hflags
  rw [not_or, not_not, not_not] at hflags
  apply h
  rw [encodeNegotiateContexts, if_neg (not_not.mpr hflags.1), if_neg (not_not.mpr hflags.2), List.append_nil]

theorem Smb2NegotiateRequest.getField_fixed (h : smb2Version0311 ≤ req.maxDialect) :
    getField 4 req.fixed 28 = some (smb2HeaderSize + req.fixed.length) ∧
      getField 2 req.fixed 32 = some req.encodeNegotiateContexts.length := by
  obtain ⟨iov, hlength, hfixed⟩ := req.fixed_eq h
  have hle := req.le_fixedLength
  have hoffset : (UInt32.ofNat (64 + req.fixedLength)).toNat = smb2HeaderSize + req.fixed.length := by
    have hlt := req.fixedLength_le
    rw [toNat_ofNat_uint32 (by omega), hfixed, length_smb2SetUint16, length_smb2SetUint16,
      length_smb2SetUint32, hlength, smb2HeaderSize]
  have hcount : (UInt16.ofNat req.encodeNegotiateContexts.length).toNat =
      req.encodeNegotiateContexts.length := by
    have hlt := req.length_encodeNegotiateContexts
    exact toNat_ofNat_uint16 (by omega)
  rw [← hoffset, hfixed]
  constructor
  · rw [smb2SetUint16, getField_setField_of_disjoint (by decide), smb2SetUint16,
      getField_setField_of_disjoint (by decide)]
    exact getField_smb2SetUint32 (by omega) _
  · rw [smb2SetUint16, getField_setField_of_disjoint (by decide)]
    exact (getField_smb2SetUint16 (by rw [length_smb2SetUint32]; omega) _).trans (congrArg some hcount)

end

/-! ### What is sent behind them -/

section

variable {env : Env} {smb2 : Smb2Context}

theorem Smb2CreateRequest.encode_of_not_refused {req : Smb2CreateRequest} (h : req.encode env ≠ .refused) :
    req.createContextLength = 0 ∧ ∃ filler : Bytes, req.encode env =
      .body [req.fixed (UInt16.ofNat (2 * (sentName env req.name).length)),
        ucs2Bytes ((sentName env req.name).map serverSeparator) ++ filler] := by
  rw [encode] at h ⊢
  rw [sentName]
  by_cases hname : cString req.name = []
  · simp only [if_pos hname] at h ⊢
    by_cases hcontexts : req.createContextLength = 0
    · rw [if_neg (not_not.mpr hcontexts)]
      exact ⟨hcontexts, [0], rfl⟩
    · exact absurd (if_pos hcontexts) h
  · simp only [if_neg hname] at h ⊢
    cases hucs2 : env.utf8ToUcs2 (cString req.name) with
    | none =>
        rw [hucs2] at h
        exact absurd rfl h
    | some units =>
        simp only [hucs2] at h
        split_ifs at h with hrefused
        · exact absurd rfl h
        · rw [not_or, not_not] at hrefused
          refine ⟨hrefused.2, [], ?_⟩
          simp only [if_neg (not_or.mpr ⟨hrefused.1, not_not.mpr hrefused.2⟩), List.append_nil,
            Option.getD_some]

theorem Smb2QueryDirectoryRequest.encode_of_not_refused {req : Smb2QueryDirectoryRequest}
    (h : req.encode env ≠ .refused) : ∃ rest : List Bytes, req.encode env =
      .body (req.fixed (UInt16.ofNat (2 * (sentName env req.name).length)) :: rest) ∧
        rest.flatten = ucs2Bytes (sentName env req.name) := by
  rw [encode] at h ⊢
  rw [sentName]
  by_cases hname : cString req.name = []
  · simp only [if_pos hname]
    exact ⟨[], rfl, rfl⟩
  · simp only [if_neg hname] at h ⊢
    cases hucs2 : env.utf8ToUcs2 (cString req.name) with
    | none =>
        rw [hucs2] at h
        exact absurd rfl h
    | some units =>
        simp only [hucs2] at h
        split_ifs at h with hrefused
        · exact absurd rfl h
        · refine ⟨[ucs2Bytes units], ?_, List.append_nil _⟩
          simp only [if_neg hrefused, Option.getD_some]

theorem length_encodeRename (replaceIfExist : UInt8) (name : List UInt16) :
    (encodeRename replaceIfExist name).length = 20 + 2 * name.length := by
  rw [encodeRename, length_memcpy]
  · simp
  · rw [length_ucs2Bytes]
    simp
    omega

theorem length_encodeBasicInfo (info : Smb2FileBasicInfo) : (encodeBasicInfo info).length = 44 := by
  simp only [encodeBasicInfo]
  split_ifs <;> simp

theorem Smb2SetInfoRequest.encode_of_not_refused {req : Smb2SetInfoRequest} (h : req.encode env ≠ .refused) :
    ∃ iov length, FixedPart iov ∧ length.toNat = (req.input.sent env).length ∧
      req.encode env = .body [smb2SetUint32 iov 4 length, req.input.sent env] := by
  have hfixed : FixedPart req.fixed := req.fixedPart_fixed
  rw [encode] at h ⊢
  cases hinput : req.input with
  | endOfFile size => exact ⟨_, 8, hfixed, by simp [SetInfoData.sent, encodeEndOfFile], rfl⟩
  | basic info => exact ⟨_, 40 + 4, hfixed, (length_encodeBasicInfo info).symm, rfl⟩
  | fullExtended buf => exact ⟨_, _, hfixed, toNat_ofNat_uint32 buf.fits, rfl⟩
  | security buf => exact ⟨_, _, hfixed, toNat_ofNat_uint32 buf.fits, rfl⟩
  | other infoType fileInfoClass =>
      rw [hinput] at h
      exact absurd rfl h
  | rename replaceIfExist fileName =>
      rw [hinput] at h
      cases hucs2 : env.utf8ToUcs2 (cString fileName) with
      | none =>
          simp only [hucs2] at h
          exact absurd rfl h
      | some name =>
          simp only [hucs2] at h
          split_ifs at h with hrefused
          · exact absurd rfl h
          · have hlt : 20 + 2 * name.length < 2 ^ 32 := by
              rw [cannotAllocate] at hrefused
              omega
            refine ⟨req.renameFixed name.length, UInt32.ofNat (20 + 2 * name.length),
              req.fixedPart_renameFixed _, ?_, ?_⟩
            · rw [SetInfoData.sent, hucs2, Option.getD_some, length_encodeRename, toNat_ofNat_uint32 hlt]
            · simp only [SetInfoData.sent, hucs2, Option.getD_some, if_neg hrefused]

end

/-! ### The commands -/

namespace Smb2Request

variable {env : Env} {smb2 : Smb2Context} {appData : Nat}

theorem described_body (req : Smb2Request) {body : List Bytes} (h : req.encodeRequest env smb2 = .body body) :
    req.Described env smb2 appData ↔ ∀ v ∈ req.variableData env smb2,
      v.Designated (createPdu smb2 { command := req.command, appData, body }).out.iovs.flatten := by
  constructor
  · rintro ⟨body', hbody', hdesignated⟩
    rw [h] at hbody'
    obtain rfl := Encoded.body.inj hbody'
    exact hdesignated
  · intro hdesignated
    exact ⟨body, h, hdesignated⟩

/-- A size of 16 bits is the size of a name when the name has fewer than 2 ^ 15 units. -/
theorem toNat_nameLength_iff (units : List UInt16) :
    (UInt16.ofNat (2 * units.length)).toNat = (ucs2Bytes units).length ↔ units.length < 2 ^ 15 := by
  rw [length_ucs2Bytes, UInt16.toNat_ofNat']
  omega

theorem described_create_iff {req : Smb2CreateRequest} (h : req.encode env ≠ .refused) :
    (create req).Described env smb2 appData ↔ (sentName env req.name).length < 2 ^ 15 := by
  obtain ⟨hcontexts, filler, hencode⟩ := Smb2CreateRequest.encode_of_not_refused h
  obtain ⟨hoffset, hlength, hcontextOffset, hcontextLength⟩ :=
    req.getField_fixed (UInt16.ofNat (2 * (sentName env req.name).length))
  rw [hcontexts] at hcontextLength
  have hname := toNat_nameLength_iff ((sentName env req.name).map serverSeparator)
  rw [List.length_map] at hname
  rw [described_body (create req) hencode, variableData, List.forall_mem_cons, List.forall_mem_singleton]
  have hflat (fixed data : Bytes) : [fixed, data ++ filler].flatten = fixed ++ (data ++ filler) := by simp
  refine Iff.trans (and_congr (VariableData.designated_behind_iff (hflat _ _) hoffset hlength)
    (VariableData.designated_empty_iff (hflat _ _) rfl hcontextOffset (Nat.zero_le _) hcontextLength)) ?_
  rw [hname]
  exact and_iff_left rfl

theorem described_queryDirectory_iff {req : Smb2QueryDirectoryRequest} (h : req.encode env ≠ .refused) :
    (queryDirectory req).Described env smb2 appData ↔ (sentName env req.name).length < 2 ^ 15 := by
  obtain ⟨rest, hencode, hrest⟩ := Smb2QueryDirectoryRequest.encode_of_not_refused h
  obtain ⟨hoffset, hlength⟩ := req.getField_fixed (UInt16.ofNat (2 * (sentName env req.name).length))
  have hflat (fixed : Bytes) : (fixed :: rest).flatten = fixed ++ (ucs2Bytes (sentName env req.name) ++ []) := by
    rw [List.flatten_cons, hrest, List.append_nil]
  rw [described_body (queryDirectory req) hencode, variableData, List.forall_mem_singleton]
  exact Iff.trans (VariableData.designated_behind_iff (hflat _) hoffset hlength) (toNat_nameLength_iff _)

theorem flatten_pair (fixed data : Bytes) : [fixed, data].flatten = fixed ++ (data ++ []) := by
  rw [List.flatten_cons, List.flatten_cons, List.flatten_nil]

theorem described_write_iff {req : Smb2WriteRequest} (enough : req.length.toNat ≤ req.buf.length)
    (h : req.encode smb2 ≠ .refused) : (write req enough).Described env smb2 appData ↔
      (singleCreditLength smb2 req.length).toNat < 2 ^ 31 := by
  have hencode : req.encode smb2 = if (singleCreditLength smb2 req.length).toNat ≥ 2 ^ 31 then .overlong
      else .body [req.fixed (singleCreditLength smb2 req.length),
        req.buf.take (singleCreditLength smb2 req.length).toNat] := by
    rw [Smb2WriteRequest.encode] at h ⊢
    exact if_neg fun hchannel => h (if_pos hchannel)
  have hchannel : req.writeChannelInfoLength = 0 := by
    by_contra hne
    exact h (if_pos (.inl (UInt16.pos_iff_ne_zero.mpr hne)))
  by_cases hlt : (singleCreditLength smb2 req.length).toNat < 2 ^ 31
  · rw [if_neg (not_le.mpr hlt)] at hencode
    obtain ⟨hoffset, hlength, hchannelOffset, hchannelLength⟩ :=
      req.getField_fixed (singleCreditLength smb2 req.length)
    rw [hchannel] at hchannelLength
    have hle : (singleCreditLength smb2 req.length).toNat ≤ req.length.toNat := by
      rw [singleCreditLength]
      split_ifs with hover
      · exact UInt32.le_iff_toNat_le.mp (UInt32.le_of_lt hover.2)
      · exact le_rfl
    rw [described_body (write req enough) hencode, variableData, List.forall_mem_cons, List.forall_mem_singleton]
    refine Iff.trans (and_congr (VariableData.designated_behind_iff (flatten_pair _ _) hoffset hlength)
      (VariableData.designated_empty_iff (flatten_pair _ _) rfl hchannelOffset (Nat.zero_le _)
        hchannelLength)) ?_
    refine iff_of_true ⟨?_, rfl⟩ hlt
    exact (List.length_take_of_le (hle.trans enough)).symm
  · rw [if_pos (not_lt.mp hlt)] at hencode
    refine iff_of_false ?_ hlt
    rintro ⟨body, hbody, -⟩
    rw [encodeRequest, hencode] at hbody
    cases hbody

theorem described_ioctl_iff {req : Smb2IoctlRequest} :
    (ioctl req).Described env smb2 appData ↔ req.outputCount = 0 := by
  obtain ⟨hoffset, hlength, houtputOffset, houtputLength⟩ := req.getField_fixed
  have hencode : (ioctl req).encodeRequest env smb2 = .body [req.fixed, req.input.bytes] := rfl
  rw [described_body (ioctl req) hencode, variableData, List.forall_mem_cons, List.forall_mem_singleton]
  refine Iff.trans (and_congr (VariableData.designated_behind_iff (flatten_pair _ _) hoffset hlength)
    (VariableData.designated_empty_iff (flatten_pair _ _) rfl houtputOffset le_rfl houtputLength)) ?_
  constructor
  · rintro ⟨-, hcount⟩
    have hzero : req.outputCount.toNat = (0 : UInt32).toNat := hcount
    exact UInt32.toNat_inj.mp hzero
  · intro hcount
    have hzero : req.outputCount.toNat = 0 := by rw [hcount]; rfl
    exact ⟨rfl, hzero⟩

theorem described_setInfo {req : Smb2SetInfoRequest} (h : req.encode env ≠ .refused) :
    (setInfo req).Described env smb2 appData := by
  obtain ⟨iov, length, hiov, hsent, hencode⟩ := Smb2SetInfoRequest.encode_of_not_refused h
  obtain ⟨hoffset, hlength⟩ := hiov.getField length
  rw [described_body (setInfo req) hencode, variableData, List.forall_mem_singleton]
  exact Iff.mpr (VariableData.designated_behind_iff (flatten_pair _ _) hoffset hlength) hsent

theorem described_sessionSetup (req : Smb2SessionSetupRequest) :
    (sessionSetup req).Described env smb2 appData := by
  obtain ⟨hoffset, hlength⟩ := req.getField_fixed
  have hencode : (sessionSetup req).encodeRequest env smb2 = .body req.encode := rfl
  rw [described_body (sessionSetup req) hencode, variableData, List.forall_mem_singleton]
  exact Iff.mpr (VariableData.designated_behind_iff (flatten_pair _ _) hoffset hlength) rfl

theorem described_treeConnect (req : Smb2TreeConnectRequest) :
    (treeConnect req).Described env smb2 appData := by
  obtain ⟨hoffset, hlength⟩ := req.getField_fixed
  have hencode : (treeConnect req).encodeRequest env smb2 = .body req.encode := rfl
  rw [described_body (treeConnect req) hencode, variableData, List.forall_mem_singleton]
  exact Iff.mpr (VariableData.designated_behind_iff (flatten_pair _ _) hoffset hlength) rfl

theorem described_negotiate (req : Smb2NegotiateRequest) :
    (negotiate req).Described env smb2 appData := by
  have hencode : (negotiate req).encodeRequest env smb2 = .body req.encode := rfl
  rw [described_body (negotiate req) hencode, variableData]
  by_cases hcontexts : req.encodeNegotiateContexts = []
  · rw [if_pos hcontexts]
    exact List.forall_mem_nil _
  · obtain ⟨hoffset, hlength⟩ := req.getField_fixed (req.dialect_of_contexts hcontexts)
    have hflat : req.encode.flatten = req.fixed ++ (req.encodeNegotiateContexts.flatten ++ []) := by
      rw [List.append_nil]
      rfl
    rw [if_neg hcontexts, List.forall_mem_singleton]
    exact Iff.mpr (VariableData.designated_behind_iff hflat hoffset hlength) rfl

/-- The fixed part of a request describes the variable data in its PDU where its fields can hold their
lengths, and nowhere else. -/
theorem described_iff (env : Env) (smb2 : Smb2Context) (appData : Nat) (req : Smb2Request)
    (h : req.encodeRequest env smb2 ≠ .refused) : req.Described env smb2 appData ↔ req.Fits env smb2 := by
  cases req with
  | create req => exact described_create_iff h
  | queryDirectory req => exact described_queryDirectory_iff h
  | write req enough => exact described_write_iff enough h
  | ioctl req => exact described_ioctl_iff
  | setInfo req => exact iff_of_true (described_setInfo h) trivial
  | sessionSetup req => exact iff_of_true (described_sessionSetup req) trivial
  | treeConnect req => exact iff_of_true (described_treeConnect req) trivial
  | negotiate req => exact iff_of_true (described_negotiate req) trivial

/-- A CREATE of `a/b`, which is sent as `a\b`. -/
theorem described_shortName : (create { name := [0x61, 0x2f, 0x62] }).Described plainEnv
    (Smb2Context.fresh smb2Version0311) 0 :=
  (described_iff plainEnv (Smb2Context.fresh smb2Version0311) 0 (create { name := [0x61, 0x2f, 0x62] })
    nofun).mpr (by decide)

/-- A name of letters that can be allocated is sent whole. -/
theorem encode_letters {n : Nat} (hpos : 0 < n) (halloc : ¬ cannotAllocate 0 n) :
    Smb2CreateRequest.encode plainEnv { name := List.replicate n 0x61 } ≠ .refused ∧
      (sentName plainEnv (List.replicate n 0x61)).length = n := by
  have hname : cString (List.replicate n 0x61) = List.replicate n 0x61 := by
    rw [cString, List.takeWhile_replicate, if_pos (by decide)]
  have hne : (List.replicate n 0x61 : Bytes) ≠ [] := by
    rw [ne_eq, List.replicate_eq_nil_iff]
    exact hpos.ne'
  have hunits : plainEnv.utf8ToUcs2 (List.replicate n 0x61) = some (List.replicate n 0x61) :=
    congrArg some List.map_replicate
  constructor
  · have hfits : ¬ (cannotAllocate 0 (List.replicate n (0x61 : UInt16)).length ∨ (0 : UInt32) ≠ 0) := by
      rw [List.length_replicate]
      exact not_or.mpr ⟨halloc, not_not.mpr rfl⟩
    rw [Smb2CreateRequest.encode, hname, if_neg hne]
    simp only [hunits]
    rw [if_neg hfits]
    intro h
    cases h
  · rw [sentName, hname, if_neg hne, hunits, Option.getD_some, List.length_replicate]

/-- A name of 32768 letters is sent whole, and the length field says that there is none. -/
theorem not_described_longName :
    (create { name := List.replicate 32768 0x61 }).encodeRequest plainEnv (Smb2Context.fresh smb2Version0311) ≠
        .refused ∧
      ¬ (create { name := List.replicate 32768 0x61 }).Described plainEnv
        (Smb2Context.fresh smb2Version0311) 0 := by
  obtain ⟨hencode, hsent⟩ := @encode_letters 32768 (by decide) (by decide)
  refine ⟨hencode, ?_⟩
  rw [described_create_iff hencode, hsent]
  decide

end Smb2Request

end CodeStudy.Samba
