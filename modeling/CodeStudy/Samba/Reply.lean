import CodeStudy.Samba.Context

/-!
# Decoding replies

A reply is decoded in two steps. The fixed part is read first; decoding it fills the payload and
tells how many more bytes belong to the reply, as an `int` that is negative when the part is
malformed. The variable part, when there is one, is read next and mostly gives the payload its
pointer into the data.

Decoding changes little of the context: a SESSION_SETUP reply sets the session id, a TREE_CONNECT
reply the tree id, and a NEGOTIATE reply the hash algorithm and the cipher.
-/

namespace CodeStudy.Samba

/-- The message for a fixed part of the wrong size, when it has one. -/
def unexpectedSize (what : String) (size : UInt16) (iov : Bytes) : Option String :=
  let structSize := smb2GetUint16 iov 0 0
  if structSize ≠ size ∨ (structSize &&& 0xfffe).toNat ≠ iov.length then
    some ("Unexpected size of " ++ what ++ ". Expected " ++ toString size.toNat ++ ", got " ++
      toString iov.length)
  else none

/-- The result of decoding the fixed part: the number of bytes to come or a message, the payload
and the context. -/
structure Fixed where
  ret : Except String Int
  payload : Payload
  smb2 : Smb2Context

section

variable (smb2 : Smb2Context) (pdu : Smb2Pdu) (iov : Bytes)

def smb2ProcessErrorReplyFixed : Fixed :=
  let rep : Smb2ErrorReply :=
    { errorContextCount := smb2GetUint8 iov 2 0, byteCount := smb2GetUint32 iov 4 0 }
  match unexpectedSize "Error reply" 9 iov with
  | some msg => ⟨.error msg, .error {}, smb2⟩
  | none => ⟨.ok (toInt32 rep.byteCount.toNat), .error rep, smb2⟩

def negotiateFixed : Fixed :=
  let rep : Smb2NegotiateReply := {
    securityMode := smb2GetUint16 iov 2 0
    dialectRevision := smb2GetUint16 iov 4 0
    negContextCount := smb2GetUint16 iov 6 0
    serverGuid := (iov.drop 8).take 16
    capabilities := smb2GetUint32 iov 24 0
    maxTransactSize := smb2GetUint32 iov 28 0
    maxReadSize := smb2GetUint32 iov 32 0
    maxWriteSize := smb2GetUint32 iov 36 0
    systemTime := smb2GetUint64 iov 40 0
    serverStartTime := smb2GetUint64 iov 48 0
    securityBufferOffset := smb2GetUint16 iov 56 0
    securityBufferLength := smb2GetUint16 iov 58 0
    negContextOffset := smb2GetUint32 iov 60 0 }
  match unexpectedSize "Negotiate reply" 65 iov with
  | some msg => ⟨.error msg, .negotiate {}, smb2⟩
  | none =>
      if rep.securityBufferLength = 0 ∧ rep.negContextCount = 0 then ⟨.ok 0, .negotiate rep, smb2⟩
      else if rep.securityBufferLength ≠ 0 ∧ rep.securityBufferOffset < 64 + 64 then
        ⟨.error "Securty buffer overlaps with negotiate reply header", .negotiate rep, smb2⟩
      else
        -- everything that is left of the frame, whatever follows this reply in it
        ⟨.ok (toInt32 ((pdu.respNBLength.toNat : Int) - pdu.inVecs.totalSize)), .negotiate rep, smb2⟩

def sessionSetupFixed : Fixed :=
  let rep : Smb2SessionSetupReply := {
    sessionFlags := smb2GetUint16 iov 2 0
    securityBufferOffset := smb2GetUint16 iov 4 0
    securityBufferLength := smb2GetUint16 iov 6 0 }
  match unexpectedSize "Session Setup reply" 9 iov with
  | some msg => ⟨.error msg, .sessionSetup {}, smb2⟩
  | none =>
      let smb2 := { smb2 with sessionId := pdu.headerResp.sessionId }
      if rep.securityBufferLength = 0 then ⟨.ok 0, .sessionSetup rep, smb2⟩
      else if rep.securityBufferOffset < 64 + 8 then
        ⟨.error "Securty buffer overlaps with Session Setup reply header", .sessionSetup rep, smb2⟩
      else
        ⟨.ok ((rep.securityBufferOffset.toNat : Int) - 64 - 8 + rep.securityBufferLength.toNat),
          .sessionSetup rep, smb2⟩

def treeConnectFixed : Fixed :=
  let rep : Smb2TreeConnectReply := {
    shareType := smb2GetUint8 iov 2 0
    shareFlags := smb2GetUint32 iov 4 0
    capabilities := smb2GetUint32 iov 8 0
    maximalAccess := smb2GetUint32 iov 12 0 }
  match unexpectedSize "Negotiate reply" 16 iov with
  | some msg => ⟨.error msg, .treeConnect {}, smb2⟩
  | none => ⟨.ok 0, .treeConnect rep, { smb2 with treeId := pdu.headerResp.treeId }⟩

def createFixed : Fixed :=
  let rep : Smb2CreateReply := {
    oplockLevel := smb2GetUint8 iov 2 0
    flags := smb2GetUint8 iov 3 0
    createAction := smb2GetUint32 iov 4 0
    creationTime := smb2GetUint64 iov 8 0
    lastAccessTime := smb2GetUint64 iov 16 0
    lastWriteTime := smb2GetUint64 iov 24 0
    changeTime := smb2GetUint64 iov 32 0
    allocationSize := smb2GetUint64 iov 40 0
    endOfFile := smb2GetUint64 iov 48 0
    fileAttributes := smb2GetUint32 iov 56 0
    fileId := ⟨smb2GetUint64 iov 64 0, smb2GetUint64 iov 72 0⟩
    createContextOffset := smb2GetUint32 iov 80 0
    createContextLength := smb2GetUint32 iov 84 0 }
  match unexpectedSize "Create" 89 iov with
  | some msg => ⟨.error msg, .create {}, smb2⟩
  | none =>
      if rep.createContextLength = 0 then ⟨.ok 0, .create rep, smb2⟩
      else if rep.createContextOffset < 64 + 88 then
        ⟨.error "Create context overlaps with reply header", .create rep, smb2⟩
      else
        ⟨.ok (toInt32 (rep.createContextOffset - 64 - 88 + rep.createContextLength).toNat),
          .create rep, smb2⟩

def closeFixed : Fixed :=
  let rep : Smb2CloseReply := {
    flags := smb2GetUint16 iov 2 0
    creationTime := smb2GetUint64 iov 8 0
    lastAccessTime := smb2GetUint64 iov 16 0
    lastWriteTime := smb2GetUint64 iov 24 0
    changeTime := smb2GetUint64 iov 32 0
    allocationSize := smb2GetUint64 iov 40 0
    endOfFile := smb2GetUint64 iov 48 0
    fileAttributes := smb2GetUint32 iov 56 0 }
  match unexpectedSize "Close reply" 60 iov with
  | some msg => ⟨.error msg, .close {}, smb2⟩
  | none => ⟨.ok 0, .close rep, smb2⟩

/-- The size is only bounded here, by a bound the 16 bytes that were read do not depend on. -/
def readFixed : Fixed :=
  let rep : Smb2ReadReply := {
    dataOffset := smb2GetUint8 iov 2 0
    dataLength := smb2GetUint32 iov 4 0
    dataRemaining := smb2GetUint32 iov 8 0 }
  if smb2GetUint16 iov 0 0 > 17 then
    ⟨.error ("Unexpected size of Read reply. Expected 17, got " ++ toString iov.length),
      .read {}, smb2⟩
  else if rep.dataLength = 0 then ⟨.ok 0, .read rep, smb2⟩
  else if rep.dataOffset.toNat ≠ smb2HeaderSize + 16 then
    ⟨.error ("Unexpected data offset in Read reply. Expected 16, got " ++
      toString rep.dataOffset.toNat), .read rep, smb2⟩
  else ⟨.ok (toInt32 rep.dataLength.toNat), .read rep, smb2⟩

def writeFixed : Fixed :=
  let rep : Smb2WriteReply := { count := smb2GetUint32 iov 4 0, remaining := smb2GetUint32 iov 8 0 }
  match unexpectedSize "Write reply" 17 iov with
  | some msg => ⟨.error msg, .write {}, smb2⟩
  | none => ⟨.ok 0, .write rep, smb2⟩

def ioctlFixed : Fixed :=
  let rep : Smb2IoctlReply := {
    reserved := smb2GetUint16 iov 2 0
    ctlCode := smb2GetUint32 iov 4 0
    fileId := ⟨smb2GetUint64 iov 8 0, smb2GetUint64 iov 16 0⟩
    inputOffset := smb2GetUint32 iov 24 0
    inputCount := smb2GetUint32 iov 28 0
    outputOffset := smb2GetUint32 iov 32 0
    outputCount := smb2GetUint32 iov 36 0
    flags := smb2GetUint32 iov 40 0
    reserved2 := smb2GetUint32 iov 44 0 }
  match unexpectedSize "IOCTL reply" 49 iov with
  | some msg => ⟨.error msg, .ioctl {}, smb2⟩
  | none =>
      if rep.outputCount = 0 then ⟨.error "No output buffer in Ioctl response", .ioctl rep, smb2⟩
      else if rep.outputOffset < 64 + 48 then
        ⟨.error "Output buffer overlaps with Ioctl reply header", .ioctl rep, smb2⟩
      else ⟨.ok (toInt32 (rep.outputOffset - 64 - 48 + rep.outputCount).toNat), .ioctl rep, smb2⟩

def queryDirectoryFixed : Fixed :=
  let rep : Smb2QueryDirectoryReply := {
    outputBufferOffset := smb2GetUint16 iov 2 0
    outputBufferLength := smb2GetUint32 iov 4 0 }
  match unexpectedSize "QueryDir reply" 9 iov with
  | some msg => ⟨.error msg, .queryDirectory {}, smb2⟩
  | none =>
      if rep.outputBufferLength = 0 then ⟨.ok 0, .queryDirectory rep, smb2⟩
      else if rep.outputBufferOffset < 64 + 8 then
        ⟨.error "Output buffer overlaps with Query Dir reply header", .queryDirectory rep, smb2⟩
      else
        ⟨.ok (toInt32 (rep.outputBufferOffset.toUInt32 - 64 - 8 + rep.outputBufferLength).toNat),
          .queryDirectory rep, smb2⟩

def queryInfoFixed : Fixed :=
  let rep : Smb2QueryInfoReply := {
    outputBufferOffset := smb2GetUint16 iov 2 0
    outputBufferLength := smb2GetUint32 iov 4 0 }
  match unexpectedSize "Query Info reply" 9 iov with
  | some msg => ⟨.error msg, .queryInfo {}, smb2⟩
  | none =>
      if rep.outputBufferLength = 0 then
        ⟨.error "No output buffer in Query Info response", .queryInfo rep, smb2⟩
      else if rep.outputBufferOffset < 64 + 8 then
        ⟨.error "Output buffer overlaps with Query Info reply header", .queryInfo rep, smb2⟩
      else
        ⟨.ok (toInt32 (rep.outputBufferOffset.toUInt32 - 64 - 8 + rep.outputBufferLength).toNat),
          .queryInfo rep, smb2⟩

/-- The decoder of each command's fixed part; five commands have none. -/
def fixedPart : Fixed :=
  if pdu.smb2ReplyIsError then smb2ProcessErrorReplyFixed smb2 iov
  else
    match pdu.command with
    | .negotiate => negotiateFixed smb2 pdu iov
    | .sessionSetup => sessionSetupFixed smb2 pdu iov
    | .treeConnect => treeConnectFixed smb2 pdu iov
    | .create => createFixed smb2 iov
    | .close => closeFixed smb2 iov
    | .read => readFixed smb2 iov
    | .write => writeFixed smb2 iov
    | .ioctl => ioctlFixed smb2 iov
    | .queryDirectory => queryDirectoryFixed smb2 iov
    | .queryInfo => queryInfoFixed smb2 iov
    | .logoff | .treeDisconnect | .flush | .echo | .setInfo => ⟨.ok 0, pdu.payload, smb2⟩

end

def smb2ReplyProcessFixed (w : World) (pdu : Smb2Pdu) : Int × Smb2Pdu × World :=
  let fixed := fixedPart w.smb2 pdu (pdu.inVecs.iovs.getLastD [])
  let pdu := { pdu with payload := fixed.payload }
  let w := { w with smb2 := fixed.smb2 }
  match fixed.ret with
  | .ok ret => (ret, pdu, w)
  | .error msg => (-1, pdu, w.setErrorMsg pdu.appData msg)

/-! ### The variable part -/

/-- The result of decoding the variable part: a message when it is malformed, the payload and the
context. -/
structure Variable where
  error : Option String := none
  payload : Payload
  smb2 : Smb2Context

section

variable (env : Env) (smb2 : Smb2Context) (iov : Bytes)

def negotiateVariable (rep : Smb2NegotiateReply) : Variable :=
  let iovOffset := rep.securityBufferOffset.toUInt32 - 64 - 64
  let rep := { rep with securityBuffer := iov.drop iovOffset.toNat }
  let len := iovOffset + rep.securityBufferLength.toUInt32
  let len := if len &&& 0x07 ≠ 0 then len + (8 - (len &&& 0x07)) else len
  let (error, hashAlgorithm, cipherId) :=
    env.decodeNegotiateContexts rep.negContextCount (iov.drop len.toNat)
      (smb2.hashAlgorithm, smb2.cipherId)
  { error := error.map fun msg => "decodeNegotiateContexts failed - " ++ msg
    payload := .negotiate rep
    smb2 := { smb2 with hashAlgorithm, cipherId } }

def queryInfoVariable (pdu : Smb2Pdu) (rep : Smb2QueryInfoReply) : Variable :=
  let vec := iov.drop (rep.outputBufferOffset.toNat - 64 - 8)
  if pdu.requestedInfoType = 1 ∧ pdu.requestedInfoClass = 0x0f ∧
      pdu.headerResp.status = NtStatus.noEasOnFile then
    { payload := .queryInfo rep, smb2 }
  else
    match env.decodeInfo pdu.requestedInfoType pdu.requestedInfoClass vec with
    | .error msg => { error := some msg, payload := .queryInfo rep, smb2 }
    | .ok () => { payload := .queryInfo { rep with outputBuffer := vec }, smb2 }

def variablePart (pdu : Smb2Pdu) : Variable :=
  match pdu.payload with
  | .error rep => { payload := .error { rep with errorData := iov }, smb2 }
  | .negotiate rep => negotiateVariable env smb2 iov rep
  | .sessionSetup rep =>
      { payload := .sessionSetup { rep with
          securityBuffer := iov.drop (rep.securityBufferOffset.toNat - 64 - 8) }, smb2 }
  | .create rep =>
      { error := if rep.createContextLength ≠ 0 then some "Create context not implemented, yet" else none
        payload := .create rep, smb2 }
  | .read rep => { payload := .read { rep with readData := iov }, smb2 }
  | .ioctl rep =>
      { payload := .ioctl { rep with outputBuffer := iov.drop (rep.outputOffset - 64 - 48).toNat }
        smb2 }
  | .queryDirectory rep =>
      { payload := .queryDirectory { rep with
          outputBuffer := iov.drop (rep.outputBufferOffset.toNat - 64 - 8) }, smb2 }
  | .queryInfo rep => queryInfoVariable env smb2 iov pdu rep
  | payload => { payload, smb2 }

end

def smb2ReplyProcessVariable (env : Env) (w : World) (pdu : Smb2Pdu) : Int × Smb2Pdu × World :=
  let part := variablePart env w.smb2 (pdu.inVecs.iovs.getLastD []) pdu
  let pdu := { pdu with payload := part.payload }
  let w := { w with smb2 := part.smb2 }
  match part.error with
  | none => (0, pdu, w)
  | some msg => (-1, pdu, w.setErrorMsg pdu.appData msg)

/-- The number of bytes to come is an `int`. -/
theorem fixedPart_lt {smb2 : Smb2Context} {pdu : Smb2Pdu} {iov : Bytes} {ret : Int}
    (h : (fixedPart smb2 pdu iov).ret = .ok ret) : ret < 2 ^ 31 := by
  have hsession (offset length : UInt16) :
      (offset.toNat : Int) - 64 - 8 + length.toNat < 2 ^ 31 := by
    have := offset.toNat_lt
    have := length.toNat_lt
    omega
  revert h
  simp only [fixedPart, smb2ProcessErrorReplyFixed, negotiateFixed, sessionSetupFixed,
    treeConnectFixed, createFixed, closeFixed, readFixed, writeFixed, ioctlFixed,
    queryDirectoryFixed, queryInfoFixed]
  repeat' split
  all_goals
    intro h
    simp only [Except.ok.injEq, reduceCtorEq] at h
  all_goals
    rw [← h]
    first
    | exact toInt32_lt _
    | exact hsession _ _
    | decide

theorem smb2ReplyProcessFixed_lt (w : World) (pdu : Smb2Pdu) :
    (smb2ReplyProcessFixed w pdu).1 < 2 ^ 31 := by
  rw [smb2ReplyProcessFixed]
  split
  · exact fixedPart_lt ‹_›
  · exact (by decide : (-1 : Int) < 2 ^ 31)

/-! ### What decoding leaves alone -/

/-- The contexts before and after decoding a part of a reply. -/
structure SameExceptIds (smb2 smb2' : Smb2Context) : Prop where
  outqueue : smb2'.outqueue = smb2.outqueue
  waitqueue : smb2'.waitqueue = smb2.waitqueue
  credits : smb2'.credits = smb2.credits
  messageId : smb2'.messageId = smb2.messageId
  isComplete : smb2'.isComplete = smb2.isComplete

theorem fixedPart_same (smb2 : Smb2Context) (pdu : Smb2Pdu) (iov : Bytes) :
    SameExceptIds smb2 (fixedPart smb2 pdu iov).smb2 := by
  simp only [fixedPart, smb2ProcessErrorReplyFixed, negotiateFixed, sessionSetupFixed,
    treeConnectFixed, createFixed, closeFixed, readFixed, writeFixed, ioctlFixed,
    queryDirectoryFixed, queryInfoFixed]
  repeat' split
  all_goals exact ⟨rfl, rfl, rfl, rfl, rfl⟩

theorem variablePart_same (env : Env) (smb2 : Smb2Context) (iov : Bytes) (pdu : Smb2Pdu) :
    SameExceptIds smb2 (variablePart env smb2 iov pdu).smb2 := by
  simp only [variablePart, negotiateVariable, queryInfoVariable]
  repeat' split
  all_goals exact ⟨rfl, rfl, rfl, rfl, rfl⟩

theorem SameExceptIds.sameQueues {w : World} {smb2 : Smb2Context} (h : SameExceptIds w.smb2 smb2) :
    SameQueues w { w with smb2 } :=
  ⟨h.outqueue, h.waitqueue, h.credits, h.messageId, h.isComplete, rfl, rfl, fun _ => rfl⟩

theorem smb2ReplyProcessFixed_same (w : World) (pdu : Smb2Pdu) :
    SameQueues w (smb2ReplyProcessFixed w pdu).2.2 ∧
      ∃ payload, (smb2ReplyProcessFixed w pdu).2.1 = { pdu with payload } := by
  have h := (fixedPart_same w.smb2 pdu (pdu.inVecs.iovs.getLastD [])).sameQueues
  rw [smb2ReplyProcessFixed]
  split
  · exact ⟨h, _, rfl⟩
  · exact ⟨h.trans (.setErrorMsg ..), _, rfl⟩

theorem smb2ReplyProcessVariable_same (env : Env) (w : World) (pdu : Smb2Pdu) :
    SameQueues w (smb2ReplyProcessVariable env w pdu).2.2 ∧
      ∃ payload, (smb2ReplyProcessVariable env w pdu).2.1 = { pdu with payload } := by
  have h := (variablePart_same env w.smb2 (pdu.inVecs.iovs.getLastD []) pdu).sameQueues
  rw [smb2ReplyProcessVariable]
  split
  · exact ⟨h, _, rfl⟩
  · exact ⟨h.trans (.setErrorMsg ..), _, rfl⟩

end CodeStudy.Samba
