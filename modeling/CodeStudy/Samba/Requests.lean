import CodeStudy.Samba.Context
import CodeStudy.Samba.FileData

/-!
# Encoding requests

What `encodeRequest` of the commands with variable data adds to the io vectors of a PDU: a fixed part
of zeros with the fields of the request written over it, and the variable data behind it. Names are
UTF-8 strings that are converted, other data come in a buffer with its length. The allocations
succeed, but for those of a size that is negative as an `int`; when one fails, `encodeRequest` fails
like for any other reason.
-/

namespace CodeStudy.Samba

/-- What is left of a request: nothing, when `encodeRequest` fails, or the io vectors that were added.
A length that is negative as an `int` makes an io vector that no memory holds. -/
inductive Encoded where
  | refused
  | overlong
  | body (iovs : List Bytes)

def Encoded.body? : Encoded → Option (List Bytes)
  | body iovs => some iovs
  | _ => none

/-! ### Strings and buffers -/

/-- A string up to its terminator. -/
def cString (bytes : Bytes) : Bytes := bytes.takeWhile (· ≠ 0)

/-- The little-endian bytes of a string of 16-bit units. -/
def ucs2Bytes (units : List UInt16) : Bytes := units.flatMap fun u => leBytes 2 u.toNat

/-- So many 16-bit units cannot be allocated behind other bytes: their size is negative as an `int`. -/
def cannotAllocate (before units : Nat) : Prop := before + 2 * units ≥ 2 ^ 31

instance (before units : Nat) : Decidable (cannotAllocate before units) :=
  inferInstanceAs (Decidable (_ ≥ _))

/-- A path separator of the client becomes one of the server. -/
def serverSeparator (unit : UInt16) : UInt16 := if unit = 0x002f then 0x005c else unit

/-- A buffer whose length is kept in a number of so many bits. -/
structure SizedBuffer (bits : Nat) where
  bytes : Bytes
  fits : bytes.length < 2 ^ bits

namespace SizedBuffer

variable {bits : Nat}

/-- As much of a buffer as a length of so many bits says. -/
def cut (bits : Nat) (bytes : Bytes) : SizedBuffer bits where
  bytes := bytes.take (bytes.length % 2 ^ bits)
  fits := (List.length_take_le _ _).trans_lt (Nat.mod_lt _ (Nat.two_pow_pos bits))

def size (b : SizedBuffer bits) : Nat := b.bytes.length

end SizedBuffer

/-! ### CREATE -/

/-- What a CREATE asks for. -/
structure Smb2CreateRequest where
  securityFlags : UInt8 := 0
  requestedOplockLevel : UInt8 := 0
  impersonationLevel : UInt32 := 0
  smbCreateFlags : UInt64 := 0
  desiredAccess : UInt32 := 0
  fileAttributes : UInt32 := 0
  shareAccess : UInt32 := 0
  createDisposition : UInt32 := 0
  createOptions : UInt32 := 0
  name : Bytes
  createContextLength : UInt32 := 0

namespace Smb2CreateRequest

def fixed (req : Smb2CreateRequest) (nameLength : UInt16) : Bytes :=
  let fixed : Bytes := List.replicate 56 0
  let fixed := smb2SetUint16 fixed 46 nameLength
  let fixed := smb2SetUint16 fixed 0 57
  let fixed := smb2SetUint8 fixed 2 req.securityFlags
  let fixed := smb2SetUint8 fixed 3 req.requestedOplockLevel
  let fixed := smb2SetUint32 fixed 4 req.impersonationLevel
  let fixed := smb2SetUint64 fixed 8 req.smbCreateFlags
  let fixed := smb2SetUint32 fixed 24 req.desiredAccess
  let fixed := smb2SetUint32 fixed 28 req.fileAttributes
  let fixed := smb2SetUint32 fixed 32 req.shareAccess
  let fixed := smb2SetUint32 fixed 36 req.createDisposition
  let fixed := smb2SetUint32 fixed 40 req.createOptions
  let fixed := smb2SetUint16 fixed 44 (64 + 56)
  smb2SetUint32 fixed 52 req.createContextLength

/-- The name may not be convertible, and create contexts are not implemented. A request without a
name has one byte in its place. -/
def encode (env : Env) (req : Smb2CreateRequest) : Encoded :=
  if cString req.name = [] then
    if req.createContextLength ≠ 0 then .refused else .body [req.fixed 0, [0]]
  else
    match env.utf8ToUcs2 (cString req.name) with
    | none => .refused
    | some name =>
        if cannotAllocate 0 name.length ∨ req.createContextLength ≠ 0 then .refused
        else .body [req.fixed (UInt16.ofNat (2 * name.length)), ucs2Bytes (name.map serverSeparator)]

end Smb2CreateRequest

/-! ### QUERY_DIRECTORY -/

structure Smb2QueryDirectoryRequest where
  fileInformationClass : UInt8
  flags : UInt8 := 0
  fileIndex : UInt32 := 0
  fileId : Smb2FileId
  name : Bytes
  outputBufferLength : UInt32

namespace Smb2QueryDirectoryRequest

def fixed (req : Smb2QueryDirectoryRequest) (nameLength : UInt16) : Bytes :=
  let fixed : Bytes := List.replicate 32 0
  let fixed := smb2SetUint16 fixed 26 nameLength
  let fixed := smb2SetUint16 fixed 0 33
  let fixed := smb2SetUint8 fixed 2 req.fileInformationClass
  let fixed := smb2SetUint8 fixed 3 req.flags
  let fixed := smb2SetUint32 fixed 4 req.fileIndex
  let fixed := smb2SetUint64 fixed 8 req.fileId.persistentId
  let fixed := smb2SetUint64 fixed 16 req.fileId.volatileId
  let fixed := smb2SetUint16 fixed 24 (64 + 32)
  smb2SetUint32 fixed 28 req.outputBufferLength

def encode (env : Env) (req : Smb2QueryDirectoryRequest) : Encoded :=
  if cString req.name = [] then .body [req.fixed 0]
  else
    match env.utf8ToUcs2 (cString req.name) with
    | none => .refused
    | some name =>
        if cannotAllocate 0 name.length then .refused
        else .body [req.fixed (UInt16.ofNat (2 * name.length)), ucs2Bytes name]

end Smb2QueryDirectoryRequest

/-! ### WRITE -/

/-- The buffer of the caller has as many bytes as are to be written. -/
structure Smb2WriteRequest where
  length : UInt32
  offset : UInt64
  buf : Bytes
  fileId : Smb2FileId
  channel : UInt32 := 0
  remainingBytes : UInt32 := 0
  writeChannelInfoLength : UInt16 := 0
  /-- Whether there is channel information. -/
  writeChannelInfo : Bool := false
  flags : UInt32 := 0

/-- Without multi-credit requests a transfer has at most 60 kilobytes. -/
def singleCreditLength (smb2 : Smb2Context) (length : UInt32) : UInt32 :=
  if ¬ smb2.supportsMultiCredit ∧ length > 60 * 1024 then 60 * 1024 else length

namespace Smb2WriteRequest

def fixed (req : Smb2WriteRequest) (length : UInt32) : Bytes :=
  let fixed : Bytes := List.replicate 48 0
  let fixed := smb2SetUint16 fixed 0 49
  let fixed := smb2SetUint16 fixed 2 (64 + 48)
  let fixed := smb2SetUint32 fixed 4 length
  let fixed := smb2SetUint64 fixed 8 req.offset
  let fixed := smb2SetUint64 fixed 16 req.fileId.persistentId
  let fixed := smb2SetUint64 fixed 24 req.fileId.volatileId
  let fixed := smb2SetUint32 fixed 32 req.channel
  let fixed := smb2SetUint32 fixed 36 req.remainingBytes
  let fixed := smb2SetUint16 fixed 42 req.writeChannelInfoLength
  smb2SetUint32 fixed 44 req.flags

/-- The data are an io vector that `createPdu` adds, with the length as an `int`. -/
def encode (smb2 : Smb2Context) (req : Smb2WriteRequest) : Encoded :=
  let length := singleCreditLength smb2 req.length
  if req.writeChannelInfoLength > 0 ∨ req.writeChannelInfo = true then .refused
  else if length.toNat ≥ 2 ^ 31 then .overlong
  else .body [req.fixed length, req.buf.take length.toNat]

end Smb2WriteRequest

/-! ### IOCTL -/

structure Smb2IoctlRequest where
  reserved : UInt16 := 0
  ctlCode : UInt32
  fileId : Smb2FileId
  input : SizedBuffer 32
  maxInputResponse : UInt32 := 0
  outputCount : UInt32 := 0
  maxOutputResponse : UInt32
  flags : UInt32
  reserved2 : UInt32 := 0

namespace Smb2IoctlRequest

/-- Both offsets are those of the input. -/
def fixed (req : Smb2IoctlRequest) : Bytes :=
  let fixed : Bytes := List.replicate 56 0
  let fixed := smb2SetUint16 fixed 0 57
  let fixed := smb2SetUint16 fixed 2 req.reserved
  let fixed := smb2SetUint32 fixed 4 req.ctlCode
  let fixed := smb2SetUint64 fixed 8 req.fileId.persistentId
  let fixed := smb2SetUint64 fixed 16 req.fileId.volatileId
  let fixed := smb2SetUint32 fixed 24 (64 + 56)
  let fixed := smb2SetUint32 fixed 28 (UInt32.ofNat req.input.size)
  let fixed := smb2SetUint32 fixed 32 req.maxInputResponse
  let fixed := smb2SetUint32 fixed 36 (64 + 56)
  let fixed := smb2SetUint32 fixed 40 req.outputCount
  let fixed := smb2SetUint32 fixed 44 req.maxOutputResponse
  let fixed := smb2SetUint32 fixed 48 req.flags
  smb2SetUint32 fixed 52 req.reserved2

def encode (req : Smb2IoctlRequest) : Encoded := .body [req.fixed, req.input.bytes]

end Smb2IoctlRequest

/-! ### SET_INFO -/

/-- What a SET_INFO sets. -/
inductive SetInfoData where
  | endOfFile (endOfFile : UInt64)
  | rename (replaceIfExist : UInt8) (fileName : Bytes)
  | basic (info : Smb2FileBasicInfo)
  | fullExtended (eabuf : SizedBuffer 32)
  | security (secbuf : SizedBuffer 32)
  | other (infoType fileInfoClass : UInt8)

namespace SetInfoData

def infoType : SetInfoData → UInt8
  | security _ => 3
  | other infoType _ => infoType
  | _ => 1

/-- The class of security information is 0. -/
def fileInfoClass : SetInfoData → UInt8
  | endOfFile _ => 0x14
  | rename .. => 0x0a
  | basic _ => 0x04
  | fullExtended _ => 0x0f
  | security _ => 0
  | other _ fileInfoClass => fileInfoClass

end SetInfoData

structure Smb2SetInfoRequest where
  input : SetInfoData
  additionalInformation : UInt32 := 0
  fileId : Smb2FileId

/-- A separator at an offset of an io vector, when there is one. -/
def convertSeparator (iov : Bytes) (offset : Nat) : Bytes :=
  if getField 2 iov offset = some 0x002f then smb2SetUint16 iov offset 0x005c else iov

def encodeEndOfFile (endOfFile : UInt64) : Bytes := smb2SetUint64 (List.replicate 8 0) 0 endOfFile

def encodeRename (replaceIfExist : UInt8) (name : List UInt16) : Bytes :=
  let data : Bytes := List.replicate (20 + 2 * name.length) 0
  let data := smb2SetUint8 data 0 replaceIfExist
  let data := smb2SetUint64 data 8 0
  let data := smb2SetUint32 data 16 (UInt32.ofNat (2 * name.length))
  memcpy data 20 (ucs2Bytes name)

/-- The structure has 40 bytes in memory, and four more are sent. -/
def encodeBasicInfo (info : Smb2FileBasicInfo) : Bytes :=
  let data : Bytes := List.replicate (40 + 4) 0
  let data := if info.creationTime ≠ 0 then smb2SetUint64 data 0 info.creationTime else data
  let data := if info.lastAccessTime ≠ 0 then smb2SetUint64 data 8 info.lastAccessTime else data
  let data := if info.lastWriteTime ≠ 0 then smb2SetUint64 data 16 info.lastWriteTime else data
  let data := if info.changeTime ≠ 0 then smb2SetUint64 data 24 info.changeTime else data
  smb2SetUint32 data 32 info.fileAttributes

namespace Smb2SetInfoRequest

def fixed (req : Smb2SetInfoRequest) : Bytes :=
  let fixed : Bytes := List.replicate 32 0
  let fixed := smb2SetUint16 fixed 0 33
  let fixed := smb2SetUint8 fixed 2 req.input.infoType
  let fixed := smb2SetUint8 fixed 3 req.input.fileInfoClass
  let fixed := smb2SetUint16 fixed 8 (64 + 32)
  let fixed := smb2SetUint32 fixed 12 req.additionalInformation
  let fixed := smb2SetUint64 fixed 16 req.fileId.persistentId
  smb2SetUint64 fixed 24 req.fileId.volatileId

/-- The loop that is to convert the separators of a new name runs over the fixed part instead. -/
def renameFixed (req : Smb2SetInfoRequest) (units : Nat) : Bytes :=
  (List.range units).foldl (fun iov i => convertSeparator iov (2 * i)) req.fixed

def encode (env : Env) (req : Smb2SetInfoRequest) : Encoded :=
  match req.input with
  | .endOfFile endOfFile => .body [smb2SetUint32 req.fixed 4 8, encodeEndOfFile endOfFile]
  | .rename replaceIfExist fileName =>
      match env.utf8ToUcs2 (cString fileName) with
      | none => .refused
      | some name =>
          if cannotAllocate 20 name.length then .refused
          else
            .body [smb2SetUint32 (req.renameFixed name.length) 4 (UInt32.ofNat (20 + 2 * name.length)),
              encodeRename replaceIfExist name]
  | .basic info => .body [smb2SetUint32 req.fixed 4 (40 + 4), encodeBasicInfo info]
  | .fullExtended buf | .security buf =>
      .body [smb2SetUint32 req.fixed 4 (UInt32.ofNat buf.size), buf.bytes]
  | .other .. => .refused

end Smb2SetInfoRequest

/-! ### SESSION_SETUP -/

structure Smb2SessionSetupRequest where
  flags : UInt8 := 0
  securityMode : UInt8
  capabilities : UInt32 := 0
  channel : UInt32 := 0
  previousSessionId : UInt64 := 0
  securityBuffer : SizedBuffer 16

namespace Smb2SessionSetupRequest

def fixed (req : Smb2SessionSetupRequest) : Bytes :=
  let fixed : Bytes := List.replicate 24 0
  let fixed := smb2SetUint16 fixed 0 25
  let fixed := smb2SetUint8 fixed 2 req.flags
  let fixed := smb2SetUint8 fixed 3 req.securityMode
  let fixed := smb2SetUint32 fixed 4 req.capabilities
  let fixed := smb2SetUint32 fixed 8 req.channel
  let fixed := smb2SetUint16 fixed 12 (64 + 24)
  let fixed := smb2SetUint16 fixed 14 (UInt16.ofNat req.securityBuffer.size)
  smb2SetUint64 fixed 16 req.previousSessionId

def encode (req : Smb2SessionSetupRequest) : List Bytes := [req.fixed, req.securityBuffer.bytes]

end Smb2SessionSetupRequest

/-! ### TREE_CONNECT -/

structure Smb2TreeConnectRequest where
  flags : UInt16 := 0
  path : SizedBuffer 16

namespace Smb2TreeConnectRequest

def fixed (req : Smb2TreeConnectRequest) : Bytes :=
  let fixed : Bytes := List.replicate 8 0
  let fixed := smb2SetUint16 fixed 0 9
  let fixed := smb2SetUint16 fixed 2 req.flags
  let fixed := smb2SetUint16 fixed 4 (64 + 8)
  smb2SetUint16 fixed 6 (UInt16.ofNat req.path.size)

def encode (req : Smb2TreeConnectRequest) : List Bytes := [req.fixed, req.path.bytes]

end Smb2TreeConnectRequest

/-! ### NEGOTIATE -/

def smb2PreauthIntegritySaltSize : Nat := 32
def smb2GuidSize : Nat := 16
def smb2NegotiateMaxDialects : Nat := 10
def smb2NegPreauth : UInt8 := 0x01
def smb2NegEncCap : UInt8 := 0x10

structure Smb2PreauthIntegContext where
  contextType : UInt16
  dataLength : UInt16
  reserved : UInt32 := 0
  hashAlgorithmCount : UInt16
  saltLength : UInt16
  hashAlgorithms : UInt16
  salt : Bytes
  length_salt : salt.length = smb2PreauthIntegritySaltSize

structure Smb2EncCapContext where
  contextType : UInt16
  dataLength : UInt16
  reserved : UInt32 := 0
  cipherCount : UInt16
  ciphers : UInt16 × UInt16

/-- The structure has 46 bytes, which are padded to 48. -/
def Smb2PreauthIntegContext.encode (ctx : Smb2PreauthIntegContext) : Bytes :=
  let iov : Bytes := List.replicate 48 0
  let iov := smb2SetUint16 iov 0 ctx.contextType
  let iov := smb2SetUint16 iov 2 ctx.dataLength
  let iov := smb2SetUint32 iov 4 ctx.reserved
  let iov := smb2SetUint16 iov 8 ctx.hashAlgorithmCount
  let iov := smb2SetUint16 iov 10 ctx.saltLength
  let iov := smb2SetUint16 iov 12 ctx.hashAlgorithms
  memcpy iov 14 ctx.salt

/-- The structure has 14 bytes, which are padded to 16. -/
def Smb2EncCapContext.encode (ctx : Smb2EncCapContext) : Bytes :=
  let iov : Bytes := List.replicate 16 0
  let iov := smb2SetUint16 iov 0 ctx.contextType
  let iov := smb2SetUint16 iov 2 ctx.dataLength
  let iov := smb2SetUint32 iov 4 ctx.reserved
  let iov := smb2SetUint16 iov 8 ctx.cipherCount
  let iov := smb2SetUint16 iov 10 ctx.ciphers.1
  smb2SetUint16 iov 12 ctx.ciphers.2

/-- The builder adds contexts for the dialect that has them only. -/
structure Smb2NegotiateRequest where
  dialects : List UInt16
  dialects_le : dialects.length ≤ smb2NegotiateMaxDialects
  securityMode : UInt16
  capabilities : UInt32
  clientGuid : Bytes
  length_clientGuid : clientGuid.length = smb2GuidSize
  /-- Shares its storage with the offset and the count of the contexts. -/
  clientStartTime : UInt64 := 0
  maxDialect : UInt16
  negCtxFlags : UInt8 := 0
  preauthCtx : Smb2PreauthIntegContext
  encCtx : Smb2EncCapContext
  dialect_of_flags : negCtxFlags &&& smb2NegPreauth ≠ 0 ∨ negCtxFlags &&& smb2NegEncCap ≠ 0 →
    smb2Version0311 ≤ maxDialect

namespace Smb2NegotiateRequest

/-- The contexts that the flags ask for, in the order they are sent in. -/
def encodeNegotiateContexts (req : Smb2NegotiateRequest) : List Bytes :=
  (if req.negCtxFlags &&& smb2NegPreauth ≠ 0 then [req.preauthCtx.encode] else []) ++
    (if req.negCtxFlags &&& smb2NegEncCap ≠ 0 then [req.encCtx.encode] else [])

/-- The fixed part has the dialects too and is padded to a multiple of eight bytes. -/
def fixedLength (req : Smb2NegotiateRequest) : Nat :=
  let len := 36 + 2 * req.dialects.length
  if len % 8 = 0 then len else len + (8 - len % 8)

def writeDialects (iov : Bytes) (offset : Nat) : List UInt16 → Bytes
  | [] => iov
  | dialect :: dialects => writeDialects (smb2SetUint16 iov offset dialect) (offset + 2) dialects

def fixed (req : Smb2NegotiateRequest) : Bytes :=
  let fixed : Bytes := List.replicate req.fixedLength 0
  let fixed := smb2SetUint16 fixed 0 36
  let fixed := smb2SetUint16 fixed 2 (UInt16.ofNat req.dialects.length)
  let fixed := smb2SetUint16 fixed 4 req.securityMode
  let fixed := smb2SetUint32 fixed 8 req.capabilities
  let fixed := memcpy fixed 12 req.clientGuid
  let fixed := writeDialects fixed 36 req.dialects
  if req.maxDialect < smb2Version0311 then smb2SetUint64 fixed 28 req.clientStartTime
  else
    let fixed := smb2SetUint32 fixed 28 (UInt32.ofNat (64 + req.fixedLength))
    let fixed := smb2SetUint16 fixed 32 (UInt16.ofNat req.encodeNegotiateContexts.length)
    smb2SetUint16 fixed 34 0

def encode (req : Smb2NegotiateRequest) : List Bytes := req.fixed :: req.encodeNegotiateContexts

/-- What the first request of a connection offers: all dialects, and encryption where it is enabled. -/
def connect (securityMode : UInt16) (clientGuid salt : Bytes) (encryption : Bool)
    (hguid : clientGuid.length = smb2GuidSize) (hsalt : salt.length = smb2PreauthIntegritySaltSize) :
    Smb2NegotiateRequest where
  dialects := [smb2Version0202, smb2Version0210, 0x0300, smb2Version0302, smb2Version0311]
  dialects_le := by decide
  securityMode
  capabilities := smb2GlobalCapLargeMtu ||| smb2GlobalCapEncryption
  clientGuid
  length_clientGuid := hguid
  maxDialect := smb2Version0311
  negCtxFlags := if encryption then smb2NegPreauth ||| smb2NegEncCap else smb2NegPreauth
  preauthCtx :=
    { contextType := 1, dataLength := 46 - 8, hashAlgorithmCount := 1
      saltLength := UInt16.ofNat smb2PreauthIntegritySaltSize, hashAlgorithms := 1
      salt, length_salt := hsalt }
  encCtx := { contextType := 2, dataLength := 14 - 8, cipherCount := 2, ciphers := (2, 1) }
  dialect_of_flags _ := UInt16.le_refl _

end Smb2NegotiateRequest

end CodeStudy.Samba
