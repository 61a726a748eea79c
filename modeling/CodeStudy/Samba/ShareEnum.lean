import CodeStudy.Base.Defined
import CodeStudy.Base.GrowBuffer
import CodeStudy.Samba.Api
import CodeStudy.Samba.Offsets
import CodeStudy.Samba.Ucs2
import CodeStudy.Samba.Utf8

/-!
# Listing the shares of a server

The shares are enumerated with calls of a remote procedure over a named pipe. The server may answer
a call in several fragments: the first comes back with the IOCTL that made the call, the others are
read from the pipe, each with a header of its own that is cut off when the parts are joined. A
server may also give the shares in several rounds, each asked for with the resume handle of the one
before. Allocations succeed here.
-/

namespace CodeStudy.Samba

/-! ### Data -/

structure Smb2ShareInfo where
  name : Bytes := []
  shareType : Nat := 0
  remark : Bytes := []
  permissions : Nat := 0
  maxUses : Nat := 0
  currentUses : Nat := 0
  path : Bytes := []
  password : Bytes := []
  deriving DecidableEq

structure Smb2Shares where
  shareInfoType : Nat := 0
  sharelist : List Smb2ShareInfo := []
  deriving DecidableEq

/-- What an IOCTL or a READ on the pipe returns. -/
structure PipeReply where
  status : NtStatus
  data : Bytes := []
  error : String := ""

/-- What listing the shares meets: the results of the calls it makes, and what is in new memory. -/
structure ShareEnumEnv where
  connectShare : Except String Unit := .ok ()
  openPipe : Except String Unit := .ok ()
  /-- The replies on the pipe, in order; after the last the connection is lost. -/
  replies : List PipeReply
  junk : (n : Nat) → Block n := fun n => ⟨List.replicate n 0, List.length_replicate⟩

/-- A failure of `smb2_list_shares`. -/
def listFailed {α : Type} (msg : String) : Except Fault α := .error (.failed (-1) ("smb2_list_shares: " ++ msg))

/-- Put texts around the message of a failure. -/
def describe {α : Type} (before after : String) : Except Fault α → Except Fault α
  | .error (.failed _ msg) => listFailed (before ++ msg ++ after)
  | other => other

/-! ### Fragments -/

/-- The answer to a call; data that the caller's buffer cannot hold are copied over its end. -/
def smb2Ioctl (size : Nat) : List PipeReply → Except Fault (PipeReply × List PipeReply)
  | [] => .ok ({ status := NtStatus.socketError }, [])
  | reply :: replies =>
      if reply.status = NtStatus.success ∧ reply.data.length > size then .error .undefined
      else .ok (reply, replies)

def rpcFlagLastFrag : UInt8 := 0x02

/-- The flags of a response. What is not longer than a failed operation's status is one. -/
def dcerpcParseOperationResponse (buffer : Bytes) (bufLen : Nat) : Except Fault UInt8 :=
  if bufLen < 24 then
    .error (.failed (-1) "dcerpc_parse_Operation_Response: Response too small for DceRpcOperationResponse")
  else do
    let header ← (View.of buffer).copy 0 24
    if sub32 bufLen 24 ≤ 8 then
      let status ← (View.of buffer).copy 24 4
      .error (.failed (-1) ("dcerpc_parse_Operation_Response: Got Error Response, status - " ++
        String.ofList (Nat.toDigits 16 (leNat status.1))))
    else .ok (header.1.getD 3 0)

/-- A block made larger, or smaller. -/
def realloc (junk : (n : Nat) → Block n) (block : Bytes) (n : Nat) : Bytes := (block ++ (junk n).1).take n

/-- Read the remaining fragments of a response and put each behind what there is. -/
def readFragments (env : ShareEnumEnv) (maxRecvFrag : Nat) (buff : Bytes) (buffLen : Nat) :
    List PipeReply → Except Fault (Bytes × Nat × List PipeReply)
  | [] =>
      if maxRecvFrag = 0 then do
        let _ ← describe "" " while reading DCE_OP_SHARE_ENUM fragment" (dcerpcParseOperationResponse [] 0)
        .ok (buff, buffLen, [])
      else listFailed "Failed to read remaining frags - "
  | reply :: replies =>
      -- A read of no bytes succeeds without a request.
      if maxRecvFrag = 0 then do
        let _ ← describe "" " while reading DCE_OP_SHARE_ENUM fragment" (dcerpcParseOperationResponse [] 0)
        .ok (buff, buffLen, reply :: replies)
      else if reply.status ≠ NtStatus.success ∧ reply.status ≠ NtStatus.endOfFile then
        listFailed ("Failed to read remaining frags - " ++ reply.error)
      else if reply.data.length > maxRecvFrag then .error .undefined
      else do
        let fragmentBuf := reply.data ++ List.replicate (maxRecvFrag - reply.data.length) 0
        let flags ← describe "" " while reading DCE_OP_SHARE_ENUM fragment"
          (dcerpcParseOperationResponse fragmentBuf reply.data.length)
        let fragLen := sub32 reply.data.length 24
        let fragment ← (View.of fragmentBuf).copy 24 fragLen
        let buff := realloc env.junk buff (add32 buffLen fragLen)
        let buff ← GrowBuffer.write (some buff) buffLen fragment.1
        let buff := buff.getD []
        let buffLen := add32 buffLen fragLen
        if flags &&& rpcFlagLastFrag ≠ 0 then .ok (buff, buffLen, replies)
        else readFragments env maxRecvFrag buff buffLen replies

/-! ### Parsing a response -/

/-- A way to make text of units, with the units that it can be made of. A terminator is never too long. -/
structure TextConversion where
  convert : List UInt16 → Except Fault Bytes
  Fits : List UInt16 → Prop
  definedWhere_convert : ∀ units, DefinedWhere (convert units) (Fits units) fun text => text = ucs2ToUtf8 units
  fits_terminator : Fits [0]

/-- Texts of any size. -/
def TextConversion.unbounded : TextConversion where
  convert units := .ok (ucs2ToUtf8 units)
  Fits _ := True
  definedWhere_convert _ := DefinedWhere.ok rfl
  fits_terminator := trivial

/-- The conversion with its counter, and memory for the text. -/
def TextConversion.counted : TextConversion where
  convert units := do
    let text ← ucs2ToUtf8Str true units
    .ok (text.getD [])
  Fits units := (ucs2ToUtf8 units).length + 1 < 2 ^ 31
  definedWhere_convert units := by
    rw [ucs2ToUtf8Str]
    by_cases hfits : (ucs2ToUtf8 units).length + 1 < 2 ^ 31
    · exact Or.inl ⟨hfits, ucs2ToUtf8 units, by simp only [if_pos hfits]; rfl, rfl⟩
    · exact Or.inr ⟨hfits, by simp only [if_neg hfits]; rfl⟩
  fits_terminator := by decide

section

variable (c : TextConversion)

/-- The text of so many units; a count that is negative as an `int` has none. -/
def ucs2ToUtf8At (b : Bytes) (offset length : Nat) : Except Fault Bytes := do
  let units ← (View.of b).copy offset (2 * (toInt32 length).toNat)
  let text ← c.convert (ucs2Units units.1)
  .ok (cString text)

/-- The text at the next multiple of four, and the offset behind it. A text of fewer units than
`least` is not looked at. -/
def parseString (payload : Bytes) (offset least : Nat) : Except Fault (Bytes × Nat) := do
  let offset := align4 offset
  let stringValue ← (View.of payload).copy offset 12
  let length := word stringValue.1 2
  let offset := add32 offset 12
  let text ← (if length < least then .ok [] else ucs2ToUtf8At c payload offset length)
  .ok (text, add32 offset (2 * length))

inductive ShareLevel where
  | one
  | two
  deriving DecidableEq

namespace ShareLevel

/-- The size of the fixed part of a share. -/
def infoSize : ShareLevel → Nat
  | one => 12
  | two => 32

def number : ShareLevel → Nat
  | one => 1
  | two => 2

end ShareLevel

/-- A share from its fixed part and its strings. Of the strings only the password may be missing. -/
def parseShare (level : ShareLevel) (info payload : Bytes) (offset : Nat) :
    Except Fault (Smb2ShareInfo × Nat) := do
  let (name, offset) ← parseString c payload offset 0
  let (remark, offset) ← parseString c payload offset 2
  let share : Smb2ShareInfo := { name, shareType := word info 1, remark }
  match level with
  | .one => .ok (share, offset)
  | .two => do
      let (path, offset) ← parseString c payload offset 2
      let offset := align4 offset
      let (password, offset) ← (if word info 7 ≠ 0 then parseString c payload offset 2 else .ok ([], offset))
      .ok ({ share with permissions := word info 3, maxUses := word info 4
                        currentUses := word info 5, path, password }, offset)

/-- The shares, and the offsets behind their fixed parts and their strings. -/
def parseShares (level : ShareLevel) (buffer payload : Bytes) :
    (count bufferOffset payloadOffset : Nat) → List Smb2ShareInfo →
      Except Fault (List Smb2ShareInfo × Nat × Nat)
  | 0, bufferOffset, payloadOffset, sharelist => .ok (sharelist, bufferOffset, payloadOffset)
  | count + 1, bufferOffset, payloadOffset, sharelist => do
      let info ← (View.of buffer).copy bufferOffset level.infoSize
      let (share, payloadOffset) ← parseShare c level info.1 payload payloadOffset
      parseShares level buffer payload count (add32 bufferOffset level.infoSize) payloadOffset
        (sharelist ++ [share])

/-- What a response says. -/
structure ShareEnumResponse where
  numEntries : Nat
  totalEntries : Nat
  resumeHandlePtr : Nat
  resumeHandle : Nat
  shares : Smb2Shares

def readU32 (b : Bytes) (offset : Nat) : Except Fault Nat := do
  let bytes ← (View.of b).copy offset 4
  .ok (leNat bytes.1)

def parseNetrShareEnumBuffer (level : ShareLevel) (inBuffer : Bytes) (inBufferLen consumed shareCount : Nat)
    (shares : Smb2Shares) : Except Fault ShareEnumResponse := do
  let buffer := inBuffer.drop consumed
  let payload := buffer.drop (shareCount * level.infoSize)
  let (sharelist, bufferOffset, payloadOffset) ← parseShares c level buffer payload shareCount 0 0 shares.sharelist
  let offset := align4 (add32 bufferOffset (add32 consumed payloadOffset))
  let totalEntries ← readU32 inBuffer offset
  let offset := add32 offset 4
  let resumeHandlePtr ← readU32 inBuffer offset
  let resumeHandle ← (if sub32 inBufferLen offset = 8 then readU32 inBuffer (add32 offset 4) else .ok 0)
  .ok { numEntries := shareCount, totalEntries, resumeHandlePtr, resumeHandle
        shares := { shareInfoType := level.number, sharelist } }

def parseNetrShareEnumResponse (buffer : Bytes) (bufLen : Nat) (shares : Smb2Shares) :
    Except Fault ShareEnumResponse :=
  if bufLen < 20 then
    .error (.failed (-1) "srvsvc_parse_NetrShareEnum_InfoStruct:response too small for InfoStruct")
  else do
    let info ← (View.of buffer).copy 0 20
    if word info.1 0 = 1 then parseNetrShareEnumBuffer c .one buffer bufLen 24 (word info.1 3) shares
    else if word info.1 0 = 2 then parseNetrShareEnumBuffer c .two buffer bufLen 24 (word info.1 3) shares
    else .error (.failed (-1) "srvsvc_parse_NetrShareEnumResponse: unsupported share info type")

end

/-! ### The rounds -/

/-- The payload of a call, at most so long; the last write is not checked. -/
def createNetrShareEnumRequest (serverName : Bytes) (shinfoType resumeHandle bufferLen : Nat) :
    Except Fault Bytes :=
  let len := serverName.length + 1
  match utf8Units (cString serverName) with
  | none => .error (.failed (-1) "dcerpc_init_stringValue: failed to convert server name to ucs2")
  | some name =>
      if bufferLen - 4 < 12 + len * 2 then
        .error (.failed (-1) "dcerpc_init_stringValue: buffer too small")
      else
        let server := leBytes 4 0x0026e53c ++ leBytes 4 len ++ leBytes 4 0 ++ leBytes 4 len ++
          ucs2Bytes name ++ List.replicate (len * 2 - name.length * 2) 0
        let request := server ++ List.replicate ((4 - server.length % 4) % 4) 0 ++ leBytes 4 shinfoType ++
          leBytes 4 shinfoType ++ leBytes 4 0x01fbf3e8 ++ leBytes 4 0 ++ leBytes 4 0 ++
          leBytes 4 0xffffffff ++ leBytes 4 resumeHandle
        if request.length > bufferLen then .error .undefined else .ok request

/-- What is kept from one round to the next. -/
structure ListState where
  sharesBuffLen : Nat := 0
  sharesRead : Nat := 0
  resumeHandle : Nat := 0
  shares : Smb2Shares := {}

/-- What the server and its pipe were found to be. -/
structure PipeParams where
  serverName : Bytes
  shinfoType : Nat
  maxXmitFrag : Nat
  maxRecvFrag : Nat

/-- One round: the state after it, the number of shares there are in all, and the replies that are
left. -/
def shareEnumRound (env : ShareEnumEnv) (pipe : PipeParams) (s : ListState) (replies : List PipeReply) :
    Except Fault (ListState × Nat × List PipeReply) := do
  let request ← describe "" "" (createNetrShareEnumRequest pipe.serverName pipe.shinfoType s.resumeHandle 1000)
  if 24 + request.length > pipe.maxXmitFrag then
    listFailed "IOCTL : DCE_OP_SHARE_ENUM Payload size is larger than max_xmit_frag"
  else do
    let (reply, replies) ← smb2Ioctl (64 * 1024) replies
    if reply.status ≠ NtStatus.success then
      listFailed ("IOCTL: DCE_OP_SHARE_ENUM  Failed : " ++ reply.error)
    else do
      let sharesBuff := reply.data
      let sharesBuffLen := add32 s.sharesBuffLen reply.data.length
      let flags ← describe "" " For DCE_OP_SHARE_ENUM" (dcerpcParseOperationResponse sharesBuff sharesBuffLen)
      let (sharesBuff, sharesBuffLen, replies) ←
        (if flags &&& rpcFlagLastFrag ≠ 0 then .ok (sharesBuff, sharesBuffLen, replies)
        else readFragments env pipe.maxRecvFrag sharesBuff sharesBuffLen replies)
      let payload := sharesBuff.drop 24
      let payloadLen := sub32 sharesBuffLen 24
      let srvsSts ← readU32 payload (sub32 payloadLen 4)
      if srvsSts ≠ 0 then
        listFailed ("SRVSVC NetrShareEnum Failed with error " ++ String.ofList (Nat.toDigits 16 srvsSts))
      else do
        let response ← describe "srvsvc_parse_NetrShareEnumResponse failed : " ""
          (parseNetrShareEnumResponse .counted payload (sub32 payloadLen 4) s.shares)
        .ok ({ sharesBuffLen, sharesRead := add32 s.sharesRead response.numEntries
               resumeHandle := response.resumeHandle, shares := response.shares },
          response.totalEntries, replies)

/-- Rounds until all shares are read. Each takes a reply from the pipe. -/
def shareEnumRounds (env : ShareEnumEnv) (pipe : PipeParams) :
    (fuel : Nat) → ListState → List PipeReply → Except Fault Smb2Shares
  | 0, _, _ => listFailed "IOCTL: DCE_OP_SHARE_ENUM  Failed : "
  | fuel + 1, s, replies => do
      let (s, totalShareCount, replies) ← shareEnumRound env pipe s replies
      if s.sharesRead < totalShareCount then shareEnumRounds env pipe fuel s replies else .ok s.shares

def rpcPacketTypeBindack : UInt8 := 0x0c
def rpcPacketTypeBindnack : UInt8 := 0x0d

def dcerpcGetRejectReason (reason : Nat) : String :=
  match reason with
  | 0 => "Reason not specified"
  | 1 => "Temporary congestion"
  | 2 => "Local limit exceeded"
  | 3 => "Called paddr unknown"
  | 4 => "Protocol version not supported"
  | 5 => "Default context not supported"
  | 6 => "User data not readable"
  | 7 => "No PSAP available"
  | 8 => "Authentication type not recognized"
  | 9 => "Invalid checksum"
  | _ => "UNKNOWN Reject Reason"

/-- The fragment sizes that the server allows, from its answer to the bind request. -/
def bindResponse (data : Bytes) : Except Fault (Nat × Nat) :=
  if data.length < 16 then listFailed "Failed to parse dcerpc response header"
  else if data.getD 2 0 = rpcPacketTypeBindnack then
    if data.length < 18 then listFailed "Failed to parse dcerpc BINDNACK response"
    else listFailed ("dcerpc BINDNACK reason : " ++ dcerpcGetRejectReason (leNat (slice data 16 2)))
  else if data.getD 2 0 = rpcPacketTypeBindack then
    if data.length < 20 then listFailed "Failed to parse dcerpc BINDACK response"
    else .ok (leNat (slice data 16 2), leNat (slice data 18 2))
  else .ok (0, 0)

def smb2ListShares (env : ShareEnumEnv) (server user : Bytes) (shinfoType : Nat) : Except Fault Smb2Shares :=
  if server = [] then listFailed "server not specified"
  else if user = [] then listFailed "user not specified"
  else
    match env.connectShare, env.openPipe with
    | .error msg, _ => .error (.failed (-12) ("smb2_list_shares: " ++ msg))
    | .ok (), .error msg => listFailed msg
    | .ok (), .ok () => do
        let (reply, replies) ← smb2Ioctl 1024 env.replies
        if reply.status ≠ NtStatus.success then listFailed reply.error
        else do
          let (maxXmitFrag, maxRecvFrag) ← bindResponse reply.data
          let serverName := [0x5c, 0x5c] ++ server
          shareEnumRounds env { serverName, shinfoType, maxXmitFrag, maxRecvFrag } (replies.length + 1) {}
            replies

end CodeStudy.Samba
