import CodeStudy.Samba.Reply
import CodeStudy.Samba.Requests

/-!
# What a reply does

Once a reply is read completely, `smb2ProcessReplyAndAppData` of its command stores the answer in
the caller's data. Most commands end the exchange there. A few go on with another request: NEGOTIATE
with a SESSION_SETUP, a SESSION_SETUP with another one or with a TREE_CONNECT, a QUERY_DIRECTORY
with the next QUERY_DIRECTORY, and a TREE_DISCONNECT with a LOGOFF.

A handler returns `none` where the program's behaviour is undefined: a null pointer or a deleted
object is used, or a copy leaves its buffer.
-/

namespace CodeStudy.Samba

/-! ### Requests that handlers make -/

def sessionSetupRequest (smb2 : Smb2Context) (appData : Nat) (securityBuffer : Bytes) : RequestSpec :=
  let req : Smb2SessionSetupRequest :=
    { securityMode := smb2.securityMode.toUInt8, securityBuffer := .cut 16 securityBuffer }
  { command := .sessionSetup, appData, body := req.encode }

def treeConnectRequest (appData : Nat) (path : List UInt16) : RequestSpec :=
  let req : Smb2TreeConnectRequest := { path := .cut 16 (ucs2Bytes path) }
  { command := .treeConnect, appData, body := req.encode }

def logoffRequest (appData : Nat) : RequestSpec :=
  { command := .logoff, appData, body := [smb2SetUint16 (List.replicate 4 0) 0 4] }

/-- The request for the next entries of a directory; the pattern may not be convertible. -/
def queryDirectoryRequest (env : Env) (appData : Nat) (fileId : Smb2FileId) (pattern : Bytes) :
    Option RequestSpec :=
  let req : Smb2QueryDirectoryRequest :=
    { fileInformationClass := 0x26, fileId, name := pattern, outputBufferLength := 0xffff }
  (req.encode env).body?.map fun body =>
    { command := .queryDirectory, appData, body, payloadLength := 0xffff }

/-- Why there is no request: the pattern is not convertible, or no memory can hold its units. -/
def queryDirectoryRefusal (env : Env) (pattern : Bytes) : String :=
  match env.utf8ToUcs2 (cString pattern) with
  | none => "Smb2QueryDir::encodeRequest:Could not convert name into UCS2"
  | some _ => "Smb2QueryDir::encodeRequest:Failed to allocate qdir name"

/-! ### Commands that end the exchange -/

section

variable (w : World) (pdu : Smb2Pdu)

/-- `delete` of a pointer to a handle. -/
def World.deleteHandle (fh : Option Nat) : Option World :=
  match fh with
  | none => some w
  | some address =>
      match w.mem.handle address with
      | none => none
      | some _ => some { w with mem := w.mem.setHandle address none }

def closeReply : Option World :=
  let status := pdu.headerResp.status
  let fh := (w.mem.app pdu.appData).fh
  if status ≠ NtStatus.success ∧ status ≠ NtStatus.fileClosed then
    let w := w.setErrorMsg pdu.appData ("Close failed with " ++ statusText status)
    (w.setNtStatus pdu.appData status).endSendReceive.deleteHandle fh
  else (w.setNtStatus pdu.appData NtStatus.success).endSendReceive.deleteHandle fh

def createReply : Option World :=
  let status := pdu.headerResp.status
  let fh := (w.mem.app pdu.appData).fh
  let w := w.setNtStatus pdu.appData status
  if status ≠ NtStatus.success then
    let msg := "SMB2_CREATE failed - " ++ hex status.toNat ++ ", " ++ nterrorToStr status
    (w.setErrorMsg pdu.appData msg).endSendReceive.deleteHandle fh
  else
    match fh with
    | none => some w
    | some address =>
        match w.mem.handle address, pdu.payload with
        | some fh, .create rep =>
            let fh := { fh with
              fileId := rep.fileId
              oplockLevel := rep.oplockLevel
              createAction := rep.createAction
              creationTime := rep.creationTime
              lastAccessTime := rep.lastAccessTime
              lastWriteTime := rep.lastWriteTime
              changeTime := rep.changeTime
              allocationSize := rep.allocationSize
              endOfFile := rep.endOfFile
              fileAttributes := rep.fileAttributes }
            some { w with mem := w.mem.setHandle address (some fh) }.endSendReceive
        | _, _ => none

def echoReply : Option World :=
  some (w.setNtStatus pdu.appData pdu.headerResp.status).endSendReceive

def flushReply : Option World :=
  let status := pdu.headerResp.status
  let w := w.setNtStatus pdu.appData status
  if status ≠ NtStatus.success then
    some (w.setErrorMsg pdu.appData ("Flush failed with " ++ statusText status)).endSendReceive
  else some w.endSendReceive

def ioctlReply : Option World :=
  let status := pdu.headerResp.status
  let w := w.setNtStatus pdu.appData status
  if status ≠ NtStatus.success then
    some (w.setErrorMsg pdu.appData ("IOCTL failed with " ++ statusText status)).endSendReceive
  else
    match pdu.payload with
    | .ioctl rep =>
        let data := w.mem.app pdu.appData
        let count := rep.outputCount.toNat
        if count ≤ rep.outputBuffer.length ∧ count ≤ data.outBuf.length then
          let data := { data with
            outBuf := memcpy data.outBuf 0 (rep.outputBuffer.take count), outBufLen := rep.outputCount }
          some { w with mem := w.mem.setApp pdu.appData data }.endSendReceive
        else none
    | _ => none

def logoffReply : Option World :=
  some (w.setNtStatus pdu.appData pdu.headerResp.status).endSendReceive.close

def treeConnectReply : Option World :=
  let status := pdu.headerResp.status
  let w := w.setNtStatus pdu.appData status
  if status ≠ NtStatus.success then
    some (w.close.setErrorMsg pdu.appData ("TreeConnect failed with " ++ statusText status)).endSendReceive
  else some w.endSendReceive

/-- The answer of a READ, also when the payload is the shorter structure of an error reply: its
byte count stands where the length is read, and what stands behind it is whatever is there. -/
def readReplyView (env : Env) : Payload → Option Smb2ReadReply
  | .read rep => some rep
  | .error rep =>
      if rep.byteCount = 0 then some { dataRemaining := env.stale } else none
  | _ => none

/-- The answer of a WRITE, likewise. -/
def writeReplyView (env : Env) : Payload → Option Smb2WriteReply
  | .write rep => some rep
  | .error rep => some { count := env.stale, remaining := rep.byteCount }
  | _ => none

def readReply (env : Env) : Option World :=
  let status := pdu.headerResp.status
  let w := w.setNtStatus pdu.appData status
  let data := w.mem.app pdu.appData
  if status ≠ 0 ∧ status ≠ NtStatus.endOfFile then
    some (w.setErrorMsg pdu.appData ("Read/Write failed with " ++ statusText status)).endSendReceive
  else do
    let address ← data.fh
    let fh ← w.mem.handle address
    let rep ← readReplyView env pdu.payload
    let count := rep.dataLength.toNat
    if count ≤ rep.readData.length ∧ count ≤ data.readBuf.length then
      let fh := { fh with
        offset := toInt64 (fh.offset + count)
        byteCount := rep.dataLength
        bytesRemaining := rep.dataRemaining }
      let data := { data with readBuf := memcpy data.readBuf 0 (rep.readData.take count) }
      some { w with mem := (w.mem.setHandle address (some fh)).setApp pdu.appData data }.endSendReceive
    else none

def writeReply (env : Env) : Option World :=
  let status := pdu.headerResp.status
  let w := w.setNtStatus pdu.appData status
  if status ≠ 0 ∧ status ≠ NtStatus.endOfFile then
    some (w.setErrorMsg pdu.appData ("Read/Write failed with " ++ statusText status)).endSendReceive
  else do
    let address ← (w.mem.app pdu.appData).fh
    let fh ← w.mem.handle address
    let rep ← writeReplyView env pdu.payload
    let fh := { fh with
      offset := toInt64 (fh.offset + rep.count.toNat)
      byteCount := rep.count
      bytesRemaining := rep.remaining }
    some { w with mem := w.mem.setHandle address (some fh) }.endSendReceive

/-- The kinds of information whose answer is copied to the caller. -/
def copiesInfo (infoType fileInfoClass : UInt8) : Bool :=
  (infoType = 1 && fileInfoClass ∈ [0x04, 0x05, 0x0f, 0x16, 0x12]) ||
  (infoType = 2 && fileInfoClass ∈ [3, 4, 6, 11, 7]) || infoType = 3

def queryInfoReply : Option World :=
  let status := pdu.headerResp.status
  let w := w.setNtStatus pdu.appData status
  if status ≠ NtStatus.success then
    some (w.setErrorMsg pdu.appData
      ("QueryFileInfo failed with " ++ statusText status ++ ".")).endSendReceive
  else
    match (w.mem.app pdu.appData).info, pdu.payload with
    | some info, .queryInfo rep =>
        if info.infoType ∈ [(1 : UInt8), 2, 3, 4] then
          let info :=
            if copiesInfo info.infoType info.fileInfoClass then { info with data := rep.outputBuffer }
            else info
          let data := { w.mem.app pdu.appData with info := some info }
          some { w with mem := w.mem.setApp pdu.appData data }.endSendReceive
        else
          some (w.setStatusMsg pdu.appData NtStatus.invalidParameter "Invalid INFO TYPE").endSendReceive
    | _, _ => none

def setInfoReply : Option World :=
  let status := pdu.headerResp.status
  let w := w.setNtStatus pdu.appData status
  if status ≠ NtStatus.success then
    some (w.setErrorMsg pdu.appData ("SetInfo failed with " ++ statusText status ++ ".")).endSendReceive
  else some w.endSendReceive

end

/-! ### Commands that go on -/

/-- Store a status and a message, and end the exchange. -/
def World.fail (w : World) (appData : Nat) (status : NtStatus) (msg : String) : World :=
  (w.setStatusMsg appData status msg).endSendReceive

/-- Likewise, with the context closed. -/
def World.failClosed (w : World) (appData : Nat) (status : NtStatus) (msg : String) : World :=
  (w.close.setStatusMsg appData status msg).endSendReceive

/-- The end of the exchange when the next request could not be built. -/
def World.noRequest (w : World) (appData : Nat) (msg : String) : World :=
  ((w.setErrorMsg appData msg).close.setNtStatus appData NtStatus.noMemory).endSendReceive

section

variable (env : Env) (w : World) (pdu : Smb2Pdu)

/-- Build and queue a single request. -/
def queueRequest (spec : RequestSpec) : Option String × World :=
  smb2QueuePdu env w { head := createPdu w.smb2 spec }

def treeDisconnectReply : Option World :=
  let w := w.setNtStatus pdu.appData pdu.headerResp.status
  if env.alloc (.encodeRequest .logoff) w.smb2 then
    some (queueRequest env w (logoffRequest pdu.appData)).2
  else
    some (w.setErrorMsg pdu.appData
      "Smb2Logoff::encodeRequest:Failed to allocate logoff buffer").endSendReceive

/-- Delete the directory of the caller and end the exchange. -/
def World.endDirectory (w : World) (appData : Nat) (msg : String) : World :=
  let data := { w.mem.app appData with errMsg := msg, dir := none }
  { w with mem := w.mem.setApp appData data }.endSendReceive

def queryDirectoryReply : Option World :=
  let status := pdu.headerResp.status
  let a := pdu.appData
  let w := w.setNtStatus a status
  if status = NtStatus.success then
    match (w.mem.app a).dir, pdu.payload with
    | some dir, .queryDirectory rep =>
        if rep.outputBufferLength.toNat ≤ rep.outputBuffer.length then
          match env.decodeDirents (rep.outputBuffer.take rep.outputBufferLength.toNat) with
          | none => none
          | some (.error msg) =>
              some (w.endDirectory a ("Smb2QueryDir::smb2ProcessReplyAndAppData:" ++
                "Failed to decode directory entries - " ++ msg))
          | some (.ok entries) =>
              let data := { w.mem.app a with
                dir := some { dir with entries := dir.entries ++ entries } }
              let w := { w with mem := w.mem.setApp a data }
              if env.alloc (.encodeRequest .queryDirectory) w.smb2 then
                match queryDirectoryRequest env a dir.fileId data.pattern with
                | none => some (w.endDirectory a (queryDirectoryRefusal env data.pattern))
                | some spec => some (queueRequest env w spec).2
              else
                some (w.endDirectory a "Smb2QueryDir::encodeRequest:Failed to allocate query buffer")
        else none
    | _, _ => none
  else if status = NtStatus.noMoreFiles then
    some (w.setNtStatus a NtStatus.success).endSendReceive
  else
    match (w.mem.app a).dir with
    | none => none
    | some _ =>
        some (w.endDirectory a ("Query directory failed with " ++ statusText status ++ "."))

/-- Hash more messages into the pre-authentication hash; a null hash is written through. -/
def smb2UpdatePreauthIntegrityHash (smb2 : Smb2Context) (iovs : Smb2IoVectors) :
    Option (Except String Smb2Context) :=
  if env.alloc .digest smb2 then
    smb2.preauthIntegrityHash.map fun hash =>
      .ok { smb2 with preauthIntegrityHash := some (env.sha512 (hash ++ iovs.iovs.flatten)) }
  else some (.error "smb2UpdatePreauthIntegrityHash: Failed to allocate EVP_MD_CTX")

/-! ### NEGOTIATE -/

/-- What the client takes over from the server's answer. -/
def Smb2Context.negotiated (smb2 : Smb2Context) (rep : Smb2NegotiateReply) : Smb2Context :=
  { smb2 with
    serverSupportEncryption :=
      if rep.dialectRevision ≥ smb2Version0311 ∧ smb2.cipherId ≠ 0 ∧
        rep.capabilities &&& smb2GlobalCapEncryption ≠ 0 then 1 else smb2.serverSupportEncryption
    supportsMultiCredit :=
      if rep.dialectRevision > smb2Version0202 ∧ rep.capabilities &&& smb2GlobalCapLargeMtu ≠ 0 then true
      else smb2.supportsMultiCredit
    maxTransactSize := rep.maxTransactSize
    maxReadSize := rep.maxReadSize
    maxWriteSize := rep.maxWriteSize
    dialect := rep.dialectRevision
    signingRequired :=
      if rep.securityMode &&& smb2NegotiateSigningRequired ≠ 0 ∨ rep.dialectRevision ≥ smb2Version0311
      then 1 else smb2.signingRequired }

/-- Create the authentication provider and send the first session setup. -/
def startSession : Option World :=
  let a := pdu.appData
  let w := { w with smb2 := { w.smb2 with authenticator := none } }
  if env.alloc .authenticator w.smb2 then
    let w := { w with smb2 := { w.smb2 with authenticator := some [] } }
    match env.negotiateReply w.smb2 with
    | .error err => some (w.failClosed a NtStatus.logonFailure err)
    | .ok () =>
        match env.sessionRequest w.smb2 [] [] with
        | .error err =>
            some (w.failClosed a NtStatus.internalError ("Auth sessionRequest Failed :" ++ err))
        | .ok securityBuffer =>
            let w := { w with smb2 := { w.smb2 with authenticator := some [[]] } }
            if env.alloc (.encodeRequest .sessionSetup) w.smb2 then
              match queueRequest env w (sessionSetupRequest w.smb2 a securityBuffer) with
              | (none, w) => some w
              | (some err, w) =>
                  some (w.failClosed a NtStatus.internalError ("Failed to send PDU:" ++ err))
            else
              some (w.noRequest a "Smb2SessionSetup::encodeRequest:Failed to allocate session setup buffer")
  else some (w.failClosed a NtStatus.noMemory "Failed to create Authenticator object")

def negotiateReply : Option World :=
  let status := pdu.headerResp.status
  let a := pdu.appData
  let w := w.setNtStatus a status
  if status ≠ NtStatus.success then
    some (w.close.setErrorMsg a ("Negotiate failed with " ++ statusText status)).endSendReceive
  else
    match pdu.payload with
    | .negotiate rep =>
        if rep.dialectRevision ≥ smb2Version0311 ∧ rep.negContextCount = 0 then
          some (w.fail a NtStatus.invalidParameter
            "Server negotiated SMB 3.11 without negotiate context")
        else
          let w := { w with smb2 := w.smb2.negotiated rep }
          if rep.dialectRevision ≥ smb2Version0311 then
            if env.alloc .preauthHash w.smb2 then
              let smb2 := { w.smb2 with preauthIntegrityHash := some (List.replicate 64 0) }
              match smb2UpdatePreauthIntegrityHash env smb2 pdu.out with
              | none => none
              | some (.error err) =>
                  some ({ w with smb2 }.fail a NtStatus.insufficientResources
                    ("NEG_REQ - smb2UpdatePreauthIntegrityHash failed - " ++ err))
              | some (.ok smb2) =>
                  match smb2UpdatePreauthIntegrityHash env smb2 pdu.inVecs with
                  | none => none
                  | some (.error err) =>
                      some ({ w with smb2 }.fail a NtStatus.insufficientResources
                        ("NEG_RESP - smb2UpdatePreauthIntegrityHash failed - " ++ err))
                  | some (.ok smb2) => startSession env { w with smb2 } pdu
            else
              some ({ w with smb2 := { w.smb2 with preauthIntegrityHash := none } }.fail a
                NtStatus.notSupported "Failed to allocate buffer for PreauthIntegrityHash")
          else startSession env w pdu
    | _ => none

/-! ### SESSION_SETUP -/

def smb2DeriveKey (derivationKey : Bytes) (derivationKeyLen : Nat) (label context : Bytes) : Bytes :=
  let inputKey := memcpy (List.replicate smb2KeySize 0) 0
    (derivationKey.take (min smb2KeySize derivationKeyLen))
  let hash := env.hmacSha256 inputKey
    (beBytes 4 1 ++ label ++ [0] ++ context ++ beBytes 4 (smb2KeySize * 8))
  hash.take smb2KeySize

def smb2AesCmacLabel : Bytes := "SMB2AESCMAC".toUTF8.toList ++ [0]
def smbSignLabel : Bytes := "SmbSign".toUTF8.toList ++ [0]
def smbSigningKeyLabel : Bytes := "SMBSigningKey".toUTF8.toList ++ [0]

/-- The signing key for a session key, by dialect. -/
def signingKeyOf (smb2 : Smb2Context) (sessionKey : Bytes) : Bytes :=
  let size := smb2.sessionKeySize.toNat
  if smb2.dialect = smb2Version0202 ∨ smb2.dialect = smb2Version0210 then
    memcpy smb2.signingKey 0 (sessionKey.take (min size smb2KeySize))
  else if smb2.dialect ≤ smb2Version0302 then
    smb2DeriveKey env sessionKey size smb2AesCmacLabel smbSignLabel
  else
    smb2DeriveKey env sessionKey size smbSigningKeyLabel (smb2.preauthIntegrityHash.getD [])

/-- Ask the authentication provider for its next message, given the server's last one. -/
def nextSessionRequest (w : World) (rep : Smb2SessionSetupReply) :
    Option (Except String Bytes × World) :=
  match w.smb2.authenticator with
  | none => none
  | some history =>
      if rep.securityBufferLength.toNat ≤ rep.securityBuffer.length then
        let input := rep.securityBuffer.take rep.securityBufferLength.toNat
        some (env.sessionRequest w.smb2 history input,
          { w with smb2 := { w.smb2 with authenticator := some (history ++ [input]) } })
      else none

/-- The session is set up: drop the authentication provider and connect to the share. -/
def connectTree : Option World :=
  let a := pdu.appData
  let w := { w with smb2 := { w.smb2 with authenticator := none } }
  let uncPath : Bytes := [0x5c, 0x5c] ++ w.smb2.server ++ [0x5c] ++ w.smb2.share
  match env.utf8ToUcs2 uncPath with
  | none =>
      some (w.failClosed a NtStatus.noMemory ("Count not convert UNC:[" ++
        String.ofList (uncPath.map fun b => Char.ofNat b.toNat) ++ "] into UCS2"))
  | some path =>
      if env.alloc (.encodeRequest .treeConnect) w.smb2 then
        some (queueRequest env w (treeConnectRequest a path)).2
      else
        some (w.noRequest a "Smb2TreeConnect::encodeRequest:Failed to allocate tree connect buffer")

/-- Get the session key and derive the signing key from it, where signing is required. -/
def setSigningKey : Option World :=
  if w.smb2.signingRequired = 0 then connectTree env w pdu
  else
    match w.smb2.authenticator with
    | none => none
    | some history =>
        let noKey (w : World) := w.failClosed pdu.appData NtStatus.noUserSessionKey
          "Signing required by server. Session Key is not available"
        match env.getSessionKey w.smb2 history with
        | .error _ => some (noKey w)
        | .ok (sessionKey, sessionKeySize) =>
            let smb2 := { w.smb2 with sessionKey, sessionKeySize }
            match sessionKey with
            | none => some (noKey { w with smb2 })
            | some key =>
                if key.take smb2KeySize = List.replicate smb2KeySize 0 then some (noKey { w with smb2 })
                else
                  let smb2 := { smb2 with signingKey := signingKeyOf env smb2 key }
                  connectTree env { w with smb2 } pdu

/-- The rest of the handler, once the hash covers the messages so far. -/
def continueSession (rep : Smb2SessionSetupReply) : Option World :=
  let a := pdu.appData
  if pdu.headerResp.status = NtStatus.moreProcessingRequired then
    match nextSessionRequest env w rep with
    | none => none
    | some (.error err, w) => some (w.failClosed a NtStatus.internalError err)
    | some (.ok securityBuffer, w) =>
        if env.alloc (.encodeRequest .sessionSetup) w.smb2 then
          some (queueRequest env w (sessionSetupRequest w.smb2 a securityBuffer)).2
        else
          some (w.noRequest a "Smb2SessionSetup::encodeRequest:Failed to allocate session setup buffer")
  else if w.smb2.sec = .krb5 then
    match nextSessionRequest env w rep with
    | none => none
    | some (.error err, w) => some (w.fail a NtStatus.internalError err)
    | some (.ok _, w) => setSigningKey env w pdu
  else setSigningKey env w pdu

def sessionSetupReply : Option World :=
  let status := pdu.headerResp.status
  let a := pdu.appData
  let w := w.setNtStatus a status
  if status ≠ NtStatus.success ∧ status ≠ NtStatus.moreProcessingRequired then
    some (w.failClosed a status ("Session setup failed with " ++ statusText status))
  else
    match pdu.payload with
    | .sessionSetup rep =>
        if w.smb2.dialect ≥ smb2Version0311 then
          match smb2UpdatePreauthIntegrityHash env w.smb2 pdu.out with
          | none => none
          | some (.error err) =>
              some (w.fail a NtStatus.insufficientResources
                ("SSETUP 1 - smb2UpdatePreauthIntegrityHash failed - " ++ err))
          | some (.ok smb2) =>
              if status ≠ NtStatus.success then
                match smb2UpdatePreauthIntegrityHash env smb2 pdu.inVecs with
                | none => none
                | some (.error err) =>
                    some ({ w with smb2 }.fail a NtStatus.insufficientResources
                      ("SSETUP 2 - smb2UpdatePreauthIntegrityHash failed - " ++ err))
                | some (.ok smb2) => continueSession env { w with smb2 } pdu rep
              else continueSession env { w with smb2 } pdu rep
        else continueSession env w pdu rep
    | _ => none

/-- The handler of each command. -/
def smb2ProcessReplyAndAppData : Option World :=
  match pdu.command with
  | .negotiate => negotiateReply env w pdu
  | .sessionSetup => sessionSetupReply env w pdu
  | .logoff => logoffReply w pdu
  | .treeConnect => treeConnectReply w pdu
  | .treeDisconnect => treeDisconnectReply env w pdu
  | .create => createReply w pdu
  | .close => closeReply w pdu
  | .flush => flushReply w pdu
  | .read => readReply w pdu env
  | .write => writeReply w pdu env
  | .ioctl => ioctlReply w pdu
  | .echo => echoReply w pdu
  | .queryDirectory => queryDirectoryReply env w pdu
  | .queryInfo => queryInfoReply w pdu
  | .setInfo => setInfoReply w pdu

end

end CodeStudy.Samba
