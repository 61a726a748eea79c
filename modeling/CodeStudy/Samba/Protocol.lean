import CodeStudy.Base.Bytes

/-!
# The SMB2 wire format

The constants of the protocol, the accessors an io vector has for little-endian fields, and the
64-byte header every request and reply begins with. A setter outside the buffer leaves the buffer
as it is, a getter outside the buffer leaves the caller's variable as it is.

The header's union of an async id with a process id and a tree id is kept as the two halves, on the
little-endian machine the program runs on.
-/

namespace CodeStudy.Samba

/-! ### Constants -/

abbrev smb2SplSize : Nat := 4
abbrev smb2HeaderSize : Nat := 64
abbrev smb2KeySize : Nat := 16
abbrev smb2SignatureSize : Nat := 16

abbrev smb2FlagsServerToRedir : UInt32 := 0x1
abbrev smb2FlagsAsyncCommand : UInt32 := 0x2
abbrev smb2FlagsRelatedOperations : UInt32 := 0x4
abbrev smb2FlagsSigned : UInt32 := 0x8

abbrev smb2Version0202 : UInt16 := 0x0202
abbrev smb2Version0210 : UInt16 := 0x0210
abbrev smb2Version0302 : UInt16 := 0x0302
abbrev smb2Version0311 : UInt16 := 0x0311

abbrev smb2NegotiateSigningRequired : UInt16 := 0x0002
abbrev smb2GlobalCapLargeMtu : UInt32 := 0x4
abbrev smb2GlobalCapEncryption : UInt32 := 0x40

/-- The most credits a client tries to hold. -/
abbrev maxCredits : UInt32 := 1024

inductive Smb2Command where
  | negotiate | sessionSetup | logoff | treeConnect | treeDisconnect | create | close | flush
  | read | write | ioctl | echo | queryDirectory | queryInfo | setInfo
  deriving DecidableEq, Repr

def Smb2Command.code : Smb2Command → UInt16
  | negotiate => 0
  | sessionSetup => 1
  | logoff => 2
  | treeConnect => 3
  | treeDisconnect => 4
  | create => 5
  | close => 6
  | flush => 7
  | read => 8
  | write => 9
  | ioctl => 11
  | echo => 13
  | queryDirectory => 14
  | queryInfo => 16
  | setInfo => 17

/-! ### Status codes -/

abbrev NtStatus := UInt32

namespace NtStatus

abbrev severityMask : UInt32 := 0xc0000000
abbrev severityError : UInt32 := 0xc0000000

abbrev success : NtStatus := 0x00000000
abbrev pending : NtStatus := 0x00000103
abbrev noMoreFiles : NtStatus := 0x80000006
abbrev invalidParameter : NtStatus := 0xC000000d
abbrev endOfFile : NtStatus := 0xC0000011
abbrev moreProcessingRequired : NtStatus := 0xC0000016
abbrev noMemory : NtStatus := 0xC0000017
abbrev noEasOnFile : NtStatus := 0xC0000052
abbrev logonFailure : NtStatus := 0xC000006d
abbrev insufficientResources : NtStatus := 0xC000009A
abbrev notSupported : NtStatus := 0xC00000BB
abbrev fileClosed : NtStatus := 0xC0000128
abbrev noUserSessionKey : NtStatus := 0xC0000202
abbrev internalError : NtStatus := 0xABCDfffc

end NtStatus

def nterrorNames : List (NtStatus × String) :=
  [(0x00000000, "STATUS_SUCCESS"), (0x00000103, "STATUS_PENDING"),
   (0x80000006, "STATUS_NO_MORE_FILES"), (0x80000012, "STATUS_NO_MORE_EAS"),
   (0xC000000d, "STATUS_INVALID_PARAMETER"), (0xC000000F, "STATUS_NO_SUCH_FILE"),
   (0xC0000011, "STATUS_END_OF_FILE"), (0xC0000016, "STATUS_MORE_PROCESSING_REQUIRED"),
   (0xC0000022, "STATUS_ACCESS_DENIED"), (0xC0000034, "STATUS_OBJECT_NAME_NOT_FOUND"),
   (0xC0000035, "STATUS_OBJECT_NAME_COLLISION"), (0xC000003A, "STATUS_OBJECT_PATH_NOT_FOUND"),
   (0xC0000043, "STATUS_SHARING_VIOLATION"), (0xC0000044, "STATUS_QUOTA_EXCEEDED"),
   (0xC0000052, "STATUS_NO_EAS_ON_FILE"), (0xC000006d, "STATUS_LOGON_FAILURE"),
   (0xC0000099, "STATUS_ALLOTTED_SPACE_EXCEEDED"), (0xC000009A, "STATUS_INSUFFICIENT_RESOURCES"),
   (0xC00000CC, "STATUS_BAD_NETWORK_NAME"), (0xC0000103, "STATUS_NOT_A_DIRECTORY"),
   (0xC0000128, "STATUS_FILE_CLOSED"), (0xC0000017, "STATUS_NO_MEMORY"),
   (0xC0000140, "STATUS_INVALID_CONNECTION"), (0xC000020C, "STATUS_CONNECTION_DISCONNECTED"),
   (0xC0000202, "STATUS_NO_USER_SESSION_KEY"), (0xC00000BB, "STATUS_NOT_SUPPORTED")]

def nterrorToStr (status : NtStatus) : String := (nterrorNames.lookup status).getD "Unknown"

/-- The `%x` conversion. -/
def hex (n : Nat) : String := String.ofList (Nat.toDigits 16 n)

/-- The `%08x` conversion. -/
def hex08 (n : Nat) : String :=
  String.ofList (List.replicate (8 - (Nat.toDigits 16 n).length) '0' ++ Nat.toDigits 16 n)

/-- The text `(0x%08x) %s` that ends most failure messages. -/
def statusText (status : NtStatus) : String :=
  "(0x" ++ hex08 status.toNat ++ ") " ++ nterrorToStr status

/-! ### Fields of an io vector -/

/-- The little-endian field of `width` bytes at an offset, when it lies inside the buffer. -/
def getField (width : Nat) (iov : Bytes) (offset : Nat) : Option Nat :=
  if offset + width > iov.length then none else some (leNat ((iov.drop offset).take width))

def smb2GetUint8 (iov : Bytes) (offset : Nat) (value : UInt8) : UInt8 :=
  (getField 1 iov offset).elim value UInt8.ofNat

def smb2GetUint16 (iov : Bytes) (offset : Nat) (value : UInt16) : UInt16 :=
  (getField 2 iov offset).elim value UInt16.ofNat

def smb2GetUint32 (iov : Bytes) (offset : Nat) (value : UInt32) : UInt32 :=
  (getField 4 iov offset).elim value UInt32.ofNat

def smb2GetUint64 (iov : Bytes) (offset : Nat) (value : UInt64) : UInt64 :=
  (getField 8 iov offset).elim value UInt64.ofNat

def setField (width : Nat) (iov : Bytes) (offset value : Nat) : Bytes :=
  if offset + width > iov.length then iov else memcpy iov offset (leBytes width value)

def smb2SetUint8 (iov : Bytes) (offset : Nat) (value : UInt8) : Bytes :=
  setField 1 iov offset value.toNat

def smb2SetUint16 (iov : Bytes) (offset : Nat) (value : UInt16) : Bytes :=
  setField 2 iov offset value.toNat

def smb2SetUint32 (iov : Bytes) (offset : Nat) (value : UInt32) : Bytes :=
  setField 4 iov offset value.toNat

def smb2SetUint64 (iov : Bytes) (offset : Nat) (value : UInt64) : Bytes :=
  setField 8 iov offset value.toNat

theorem length_setField (width : Nat) (iov : Bytes) (offset value : Nat) :
    (setField width iov offset value).length = iov.length := by
  rw [setField]
  split_ifs with h
  · rfl
  · exact length_memcpy (by rw [length_leBytes]; omega)

@[simp] theorem length_smb2SetUint8 (iov : Bytes) (offset : Nat) (value : UInt8) :
    (smb2SetUint8 iov offset value).length = iov.length := length_setField ..

@[simp] theorem length_smb2SetUint16 (iov : Bytes) (offset : Nat) (value : UInt16) :
    (smb2SetUint16 iov offset value).length = iov.length := length_setField ..

@[simp] theorem length_smb2SetUint32 (iov : Bytes) (offset : Nat) (value : UInt32) :
    (smb2SetUint32 iov offset value).length = iov.length := length_setField ..

@[simp] theorem length_smb2SetUint64 (iov : Bytes) (offset : Nat) (value : UInt64) :
    (smb2SetUint64 iov offset value).length = iov.length := length_setField ..

/-! ### The header -/

/-- The four bytes every SMB2 message begins with. -/
def magic : Bytes := [0xFE, 0x53, 0x4D, 0x42]

structure Smb2Header where
  protocolId : Bytes := List.replicate 4 0
  structSize : UInt16 := 0
  creditCharge : UInt16 := 0
  status : NtStatus := 0
  command : UInt16 := 0
  creditRequestResponse : UInt16 := 0
  flags : UInt32 := 0
  nextCommand : UInt32 := 0
  messageId : UInt64 := 0
  processId : UInt32 := 0
  treeId : UInt32 := 0
  sessionId : UInt64 := 0
  signature : Bytes := List.replicate 16 0
  deriving DecidableEq, Repr

/-- The async id that shares its storage with the process id and the tree id. -/
def Smb2Header.asyncId (h : Smb2Header) : UInt64 :=
  UInt64.ofNat (h.processId.toNat + 2 ^ 32 * h.treeId.toNat)

/-- Write the fields of a header over a 64-byte io vector. -/
def Smb2Header.write (h : Smb2Header) (iov : Bytes) : Bytes :=
  let iov := memcpy iov 0 h.protocolId
  let iov := smb2SetUint16 iov 4 h.structSize
  let iov := smb2SetUint16 iov 6 h.creditCharge
  let iov := smb2SetUint32 iov 8 h.status
  let iov := smb2SetUint16 iov 12 h.command
  let iov := smb2SetUint16 iov 14 h.creditRequestResponse
  let iov := smb2SetUint32 iov 16 h.flags
  let iov := smb2SetUint32 iov 20 h.nextCommand
  let iov := smb2SetUint64 iov 24 h.messageId
  let iov :=
    if h.flags &&& smb2FlagsAsyncCommand ≠ 0 then smb2SetUint64 iov 32 h.asyncId
    else smb2SetUint32 (smb2SetUint32 iov 32 h.processId) 36 h.treeId
  let iov := smb2SetUint64 iov 40 h.sessionId
  memcpy iov 48 h.signature

/-- The header in a 64-byte io vector; a vector of another size is an error. -/
def decodeHeader (iov : Bytes) : Option Smb2Header :=
  if iov.length ≠ smb2HeaderSize then none
  else
    let flags := smb2GetUint32 iov 16 0
    let asyncId := smb2GetUint64 iov 32 0
    let isAsync := flags &&& smb2FlagsAsyncCommand ≠ 0
    some {
      protocolId := iov.take 4
      structSize := smb2GetUint16 iov 4 0
      creditCharge := smb2GetUint16 iov 6 0
      status := smb2GetUint32 iov 8 0
      command := smb2GetUint16 iov 12 0
      creditRequestResponse := smb2GetUint16 iov 14 0
      flags
      nextCommand := smb2GetUint32 iov 20 0
      messageId := smb2GetUint64 iov 24 0
      processId := if isAsync then UInt32.ofNat (asyncId.toNat % 2 ^ 32) else smb2GetUint32 iov 32 0
      treeId := if isAsync then UInt32.ofNat (asyncId.toNat / 2 ^ 32) else smb2GetUint32 iov 36 0
      sessionId := smb2GetUint64 iov 40 0
      signature := (iov.drop 48).take 16
    }

end CodeStudy.Samba
