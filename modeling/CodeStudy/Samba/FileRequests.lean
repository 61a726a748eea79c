import CodeStudy.Samba.Handlers

/-!
# Requests about a file

The builders of the requests that are about an open file or directory. Each stores in the caller's
data what the handler of the reply will use, the handle and the buffer of the caller, and queues one
request. A builder that uses a handle is undefined when the handle was released. Three builders free
the caller's data when the request cannot be made; these are local variables of the callers, so what
follows is undefined.
-/

namespace CodeStudy.Samba

/-- How many bytes a READ or a WRITE asks for: no more than the server allows and no more than the
credits pay for. -/
def transferCount (smb2 : Smb2Context) (limit count : UInt32) : UInt32 :=
  let neededCredits := (count - 1) / 65536 + 1
  let count := if count > limit then limit else count
  if smb2.dialect > smb2Version0202 then
    let count := if neededCredits > maxCredits - 16 then (maxCredits - 16) * 65536 else count
    let neededCredits := (count - 1) / 65536 + 1
    if neededCredits > smb2.credits then smb2.credits * 65536 else count
  else if count > 65536 then 65536
  else count

def encodeRead (smb2 : Smb2Context) (appData : Nat) (fileId : Smb2FileId) (count : UInt32)
    (offset : UInt64) : RequestSpec :=
  let length := singleCreditLength smb2 count
  let fixed : Bytes := List.replicate 48 0
  let fixed := smb2SetUint16 fixed 0 49
  let fixed := smb2SetUint32 fixed 4 length
  let fixed := smb2SetUint64 fixed 8 offset
  let fixed := smb2SetUint64 fixed 16 fileId.persistentId
  let fixed := smb2SetUint64 fixed 24 fileId.volatileId
  -- one byte stands for the channel information that is not there
  { command := .read, appData, body := [fixed, [0]], payloadLength := length }

def encodeWrite (smb2 : Smb2Context) (appData : Nat) (fileId : Smb2FileId) (buf : Bytes)
    (count : UInt32) (offset : UInt64) : RequestSpec :=
  let length := singleCreditLength smb2 count
  let req : Smb2WriteRequest := { length := count, offset, buf, fileId }
  { command := .write, appData, body := [req.fixed length, buf.take length.toNat], payloadLength := length }

/-- The size a server may answer an IOCTL with. -/
def maxOutputResponse (smb2 : Smb2Context) (outputCount : UInt32) : UInt32 :=
  let payload := smb2.credits * (64 * 1024)
  let payload := if payload > smb2.maxTransactSize then smb2.maxTransactSize - 1024 else payload
  if outputCount < payload then outputCount else payload

def encodeIoctl (smb2 : Smb2Context) (appData : Nat) (fileId : Smb2FileId) (ctl flags : UInt32)
    (input : Bytes) (outputCount : UInt32) : RequestSpec :=
  let inputCount := UInt32.ofNat input.length
  let maxOutput := maxOutputResponse smb2 outputCount
  let req : Smb2IoctlRequest :=
    { ctlCode := ctl, fileId, input := .cut 32 input, maxOutputResponse := maxOutput, flags }
  { command := .ioctl, appData, body := [req.fixed, req.input.bytes]
    payloadLength := if inputCount > maxOutput then inputCount else maxOutput }

/-- The name may not be convertible. -/
def encodeCreate (env : Env) (appData : Nat) (req : Smb2CreateRequest) : Option RequestSpec :=
  (req.encode env).body?.map fun body => { command := .create, appData, body }

def encodeClose (appData : Nat) (fileId : Smb2FileId) : RequestSpec :=
  let fixed : Bytes := List.replicate 24 0
  let fixed := smb2SetUint16 fixed 0 24
  let fixed := smb2SetUint16 fixed 2 1
  let fixed := smb2SetUint64 fixed 8 fileId.persistentId
  let fixed := smb2SetUint64 fixed 16 fileId.volatileId
  { command := .close, appData, body := [fixed] }

section

variable (env : Env)

/-- The end of a builder: make the request and queue it, or store why that failed. The code is the
result when the request could not be made. -/
def queueFor (w : World) (builder failed : String) (code : Int) (spec : RequestSpec) : Int × World :=
  if env.alloc (.encodeRequest spec.command) w.smb2 then
    match queueRequest env w spec with
    | (none, w) => (0, w)
    | (some err, w) => (-1, w.setErrorMsg spec.appData err)
  else (code, w.setErrorMsg spec.appData (builder ++ ": " ++ failed))

/-- The handle of a transfer, with the offset the transfer begins at. -/
def World.prepareTransfer (w : World) (h : Nat) (fh : Smb2fh) (offset : UInt64) (appData : Nat)
    (data : AppData) : World :=
  let mem := w.mem.setHandle h (some { fh with offset := toInt64 offset.toNat })
  { w with mem := mem.setApp appData { data with fh := some h } }

def smb2BuildReadRequest (w : World) (h : Nat) (buf : Bytes) (count : UInt32) (offset : UInt64)
    (appData : Nat) : Option (Int × World) :=
  (w.mem.handle h).map fun fh =>
    let count := transferCount w.smb2 w.smb2.maxReadSize count
    let w := w.prepareTransfer h fh offset appData { w.mem.app appData with readBuf := buf }
    queueFor env w "Smb2BuildReadRequest" "Smb2Read::encodeRequest:Failed to allocate read buffer"
      (-1) (encodeRead w.smb2 appData fh.fileId count offset)

def smb2BuildWriteRequest (w : World) (h : Nat) (buf : Bytes) (count : UInt32) (offset : UInt64)
    (appData : Nat) : Option (Int × World) :=
  (w.mem.handle h).map fun fh =>
    let count := transferCount w.smb2 w.smb2.maxWriteSize count
    let w := w.prepareTransfer h fh offset appData (w.mem.app appData)
    queueFor env w "Smb2BuildWriteRequest" "Smb2Write::encodeRequest:Failed to allocate write buffer"
      (-12) (encodeWrite w.smb2 appData fh.fileId buf count offset)

/-- The buffer of the caller comes with its size, which is also where the size of the answer goes. -/
def smb2BuildIoctlRequest (w : World) (h : Nat) (ctl flags : UInt32) (input output : Bytes)
    (appData : Nat) : Option (Int × World) :=
  if input.length > w.smb2.maxTransactSize.toNat then
    some (-5, w.setErrorMsg appData ("Smb2BuildIoctlRequest: Ioctl count " ++ toString input.length ++
      " larger than max_transact_size " ++ toString w.smb2.maxTransactSize.toNat))
  else
    (w.mem.handle h).map fun fh =>
      let outputCount := UInt32.ofNat output.length
      let data := { w.mem.app appData with outBuf := output, outBufLen := outputCount }
      let w := { w with mem := w.mem.setApp appData data }
      queueFor env w "Smb2BuildIoctlRequest"
        "Smb2Ioctl::encodeRequest:Failed to allocate ioctl param buffer"
        (-1) (encodeIoctl w.smb2 appData fh.fileId ctl flags input outputCount)

/-- Queue a request of a builder that frees the caller's data when there is none. -/
def queueOrFree (w : World) (appData : Nat) (spec : Option RequestSpec) : Option (Int × World) :=
  spec.map fun spec =>
    match queueRequest env w spec with
    | (none, w) => (0, w)
    | (some err, w) => (-1, w.setErrorMsg appData err)

/-- A handle as constructed. The constructor leaves the offset as it finds it in memory. -/
def Smb2fh.fresh (offset : Int) : Smb2fh := { offset }

def smb2FileOpenForBackupIntent : UInt32 := 0x00004000

/-- What a backup operator asks for besides. -/
def Smb2CreateRequest.forUser (req : Smb2CreateRequest) (userInBackUpOperatorsGrp : Bool) : Smb2CreateRequest :=
  if userInBackUpOperatorsGrp then { req with createOptions := req.createOptions ||| smb2FileOpenForBackupIntent }
  else req

/-- The new handle is at the address the allocator gives. -/
def smb2BuildCreateRequest (w : World) (h : Nat) (fh : Smb2fh) (req : Smb2CreateRequest) (appData : Nat) :
    Option (Int × World) :=
  let req := req.forUser w.smb2.userInBackUpOperatorsGrp
  let mem := w.mem.setHandle h (some fh)
  let w := { w with mem := mem.setApp appData { mem.app appData with fh := some h } }
  if env.alloc (.encodeRequest .create) w.smb2 then queueOrFree env w appData (encodeCreate env appData req)
  else none

def smb2BuildCloseRequest (w : World) (h : Nat) (appData : Nat) : Option (Int × World) :=
  (w.mem.handle h).bind fun fh =>
    let w := { w with mem := w.mem.setApp appData { w.mem.app appData with fh := some h } }
    if env.alloc (.encodeRequest .close) w.smb2 then
      queueOrFree env w appData (some (encodeClose appData fh.fileId))
    else none

def smb2BuildQueryDirectoryRequest (w : World) (h : Nat) (pattern : Bytes) (appData : Nat) :
    Option (Int × World) :=
  (w.mem.handle h).bind fun fh =>
    let data := { w.mem.app appData with dir := some { fileId := fh.fileId }, pattern }
    let w := { w with mem := w.mem.setApp appData data }
    if env.alloc (.encodeRequest .queryDirectory) w.smb2 then
      queueOrFree env w appData (queryDirectoryRequest env appData fh.fileId pattern)
    else none

end

theorem encodeCreate_spec {env : Env} {a : Nat} {req : Smb2CreateRequest} {spec : RequestSpec}
    (h : encodeCreate env a req = some spec) : spec.command = .create ∧ spec.appData = a := by
  obtain ⟨body, -, rfl⟩ := Option.map_eq_some_iff.mp h
  exact ⟨rfl, rfl⟩

/-! ### A queued request -/

/-- What encoding changes in a request is its header. -/
structure QueuedAs (smb2 : Smb2Context) (spec : RequestSpec) (pdu : Smb2Pdu) : Prop where
  command : pdu.command = spec.command
  appData : pdu.appData = spec.appData
  body : pdu.out.iovs.tail = (createPdu smb2 spec).out.iovs.tail

theorem tail_modify_zero {α : Type*} (l : List α) (f : α → α) : (l.modify 0 f).tail = l.tail := by
  cases l with
  | nil => rfl
  | cons a l => rfl

theorem smb2PduAddSignature_body {env : Env} {smb2 : Smb2Context} {pdu signed : Smb2Pdu}
    (h : smb2PduAddSignature env smb2 pdu = .ok signed) :
    signed.command = pdu.command ∧ signed.appData = pdu.appData ∧
      signed.out.iovs.tail = pdu.out.iovs.tail := by
  simp only [smb2PduAddSignature] at h
  split_ifs at h
  all_goals
    cases h
    simp only [tail_modify_zero, and_self]

/-- A single request is queued as a chain of its own, or it is not queued and its id is lost. -/
theorem queueRequest_cases {env : Env} {w w' : World} {spec : RequestSpec} {err : Option String}
    (h : queueRequest env w spec = (err, w')) :
    ∃ messageId pdu, QueuedAs w.smb2 spec pdu ∧
      ((err = none ∧ w' = { w with smb2 := { w.smb2 with
          messageId, outqueue := w.smb2.outqueue.insert pdu.messageId ⟨pdu, []⟩ } }.log (.queued ⟨pdu, []⟩)) ∨
        (err ≠ none ∧ w' = { w with smb2 := { w.smb2 with messageId } }.log (.queueFailed [pdu]))) := by
  have hencoded : QueuedAs w.smb2 spec (encodeHeader w.smb2 (createPdu w.smb2 spec)).2 :=
    ⟨rfl, rfl, tail_modify_zero _ _⟩
  simp only [queueRequest, smb2QueuePdu, PduChain.members, encodeMembers] at h
  generalize hheader : encodeHeader w.smb2 (createPdu w.smb2 spec) = header at h hencoded
  obtain ⟨smb2, pdu⟩ := header
  have hsmb2 : smb2 = { w.smb2 with messageId := smb2.messageId } := by
    rw [encodeHeader, Prod.mk.injEq] at hheader
    rw [← hheader.1]
  cases hsigned : (if smb2.signingRequired ≠ 0 then smb2PduAddSignature env smb2 pdu else .ok pdu) with
  | error msg =>
      simp only [hsigned] at h
      obtain ⟨rfl, rfl⟩ := h
      exact ⟨smb2.messageId, pdu, hencoded, .inr ⟨by simp, by rw [← hsmb2]⟩⟩
  | ok signed =>
      have hqueued : QueuedAs w.smb2 spec signed := by
        split_ifs at hsigned
        · obtain ⟨hcommand, happData, hbody⟩ := smb2PduAddSignature_body hsigned
          exact ⟨hcommand.trans hencoded.command, happData.trans hencoded.appData,
            hbody.trans hencoded.body⟩
        · cases hsigned
          exact hencoded
      simp only [hsigned] at h
      obtain ⟨rfl, rfl⟩ := h
      refine ⟨smb2.messageId, signed, hqueued, .inl ⟨rfl, ?_⟩⟩
      rw [hsmb2]
      rfl

/-- A builder that frees the caller's data leaves a request in the queue, or a message and nothing. -/
theorem queueOrFree_cases {env : Env} {w w' : World} {a : Nat} {spec : Option RequestSpec} {ret : Int}
    (h : queueOrFree env w a spec = some (ret, w')) : ∃ spec', spec = some spec' ∧ ∃ err w₁,
      queueRequest env w spec' = (err, w₁) ∧
        ((err = none ∧ ret = 0 ∧ w' = w₁) ∨ ∃ msg, err = some msg ∧ ret = -1 ∧ w' = w₁.setErrorMsg a msg) := by
  obtain ⟨spec', rfl, hret⟩ := Option.map_eq_some_iff.mp h
  refine ⟨spec', rfl, ?_⟩
  cases hqueue : queueRequest env w spec' with
  | mk err w₁ =>
      refine ⟨err, w₁, rfl, ?_⟩
      cases err with
      | none =>
          simp only [hqueue, Prod.mk.injEq] at hret
          exact .inl ⟨rfl, hret.1.symm, hret.2.symm⟩
      | some msg =>
          simp only [hqueue, Prod.mk.injEq] at hret
          exact .inr ⟨msg, rfl, hret.1.symm, hret.2.symm⟩

end CodeStudy.Samba
