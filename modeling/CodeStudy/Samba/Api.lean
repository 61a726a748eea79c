import CodeStudy.Samba.Client
import CodeStudy.Samba.FileRequests

/-!
# The calls of the library

Most functions an application calls have one shape: nothing is done without a connection, the
function builds its request with data that live as long as the call, it drives the exchange, and the
result is read from the data. A function that opens a file returns the pointer its data hold. The
addresses of the data and of a new handle come from the stack and the allocator, so they are
arguments here, like what the network does.
-/

namespace CodeStudy.Samba

namespace NtStatus

abbrev connectionDisconnected : NtStatus := 0xC000020C
abbrev socketError : NtStatus := 0xABCDfffe
abbrev payloadFailed : NtStatus := 0xABCDffff

end NtStatus

/-- How a call ends. -/
inductive CallEnd where
  | notConnected (w : World)
  | notBuilt (w : World)
  | socketError (w : World)
  | answered (w : World)
  /-- The caller asked for no bytes, and none were asked for of the server. -/
  | nothing (w : World)
  /-- The exchange waits for the server. -/
  | waiting (w : World)
  | undefined

namespace CallEnd

/-- The status a call returns. -/
def status (appData : Nat) : CallEnd → Option NtStatus
  | notConnected _ => some NtStatus.connectionDisconnected
  | notBuilt _ => some NtStatus.payloadFailed
  | socketError _ => some NtStatus.socketError
  | answered w => some (w.mem.app appData).ntStatus
  | nothing _ => some NtStatus.success
  | waiting _ | undefined => none

/-- The handle a call returns; all its ends but one are the null pointer. -/
def handle (appData : Nat) : CallEnd → Option Nat
  | answered w => (w.mem.app appData).fh
  | _ => none

/-- The directory a call returns, and the object behind the pointer while it exists. The builder
stored a pointer, so it is not null when the request was answered. -/
def directory (appData : Nat) : CallEnd → Option (Option Smb2dir)
  | answered w => some (w.mem.app appData).dir
  | _ => none

def answer? : CallEnd → Option World
  | answered w => some w
  | _ => none

theorem answer?_eq_some {call : CallEnd} {w : World} : call.answer? = some w ↔ call = .answered w := by
  cases call <;> simp [answer?]

def isUndefined : CallEnd → Bool
  | undefined => true
  | _ => false

theorem isUndefined_iff {call : CallEnd} : call.isUndefined = true ↔ call = .undefined := by
  cases call <;> simp [isUndefined]

end CallEnd

section

variable (env : Env) (polls : List Poll)

/-- The data of a call are constructed anew, a request is built with them, and the exchange is
driven to its end. -/
def callOnce (w : World) (appData : Nat) (build : World → Option (Int × World)) : CallEnd :=
  if w.isConnected then
    match build { w with mem := w.mem.setApp appData {} } with
    | none => .undefined
    | some (ret, w) =>
        if ret ≠ 0 then .notBuilt w
        else
          match sendAndReceive env polls w with
          | .running w => .waiting w
          | .returned ret w => if ret < 0 then .socketError w else .answered w
          | .undefined => .undefined
  else .notConnected w

/-! ### Opening and closing -/

/-- The flags of `open`. -/
def oWronly : UInt32 := 0x1
def oRdwr : UInt32 := 0x2
def oCreat : UInt32 := 0x40
def oExcl : UInt32 := 0x80
def oSync : UInt32 := 0x101000

def smb2OpenFile (w : World) (appData h : Nat) (fh : Smb2fh) (req : Smb2CreateRequest) : CallEnd :=
  callOnce env polls w appData fun w =>
    smb2BuildCreateRequest env w h fh { req with impersonationLevel := 2 } appData

/-- What `smb2_open` asks for. -/
def openRequest (path : Bytes) (flags : UInt32) : Smb2CreateRequest where
  impersonationLevel := 2
  createDisposition :=
    if flags &&& oCreat ≠ 0 then if flags &&& oExcl ≠ 0 then 2 else 5
    else if flags &&& (oWronly ||| oRdwr) ≠ 0 then 3 else 1
  desiredAccess :=
    (if flags &&& (oRdwr ||| oWronly) ≠ 0 then 0x2 ||| 0x10 ||| 0x100 else 0) |||
    (if flags &&& oRdwr ≠ 0 ∨ flags &&& oWronly = 0 then 0x1 ||| 0x8 ||| 0x80 else 0) |||
    (if flags &&& oSync ≠ 0 then 0x00100000 else 0)
  createOptions := 0x40 ||| (if flags &&& oSync ≠ 0 then 0x8 else 0)
  shareAccess := 0x1 ||| 0x2
  name := path

def smb2Open (w : World) (appData h : Nat) (fh : Smb2fh) (path : Bytes) (flags : UInt32) : CallEnd :=
  callOnce env polls w appData fun w => smb2BuildCreateRequest env w h fh (openRequest path flags) appData

/-- What `smb2_open_pipe` asks for; three pipes have their own rights. -/
def pipeRequest (pipe : Bytes) : Smb2CreateRequest :=
  let req : Smb2CreateRequest :=
    { createDisposition := 1, createOptions := 0x00400000 ||| 0x40
      desiredAccess := 0x2 ||| 0x10 ||| 0x100, name := pipe }
  if pipe = "srvsvc".toUTF8.toList then
    { req with impersonationLevel := 2, desiredAccess := 0x0012019f, shareAccess := 0x1 ||| 0x2 ||| 0x4 }
  else if pipe = "wkssvc".toUTF8.toList then
    { req with impersonationLevel := 1, desiredAccess := 0x0012019f, shareAccess := 0x1 ||| 0x2 ||| 0x4 }
  else if pipe = "lsarpc".toUTF8.toList then
    { req with impersonationLevel := 2, desiredAccess := 0x0002019f, shareAccess := 0x1 ||| 0x2
               createOptions := 0 }
  else req

def smb2OpenPipe (w : World) (appData h : Nat) (fh : Smb2fh) (pipe : Bytes) : CallEnd :=
  if w.isConnected ∧ pipe = [] then .notBuilt w
  else callOnce env polls w appData fun w => smb2BuildCreateRequest env w h fh (pipeRequest pipe) appData

def smb2Close (w : World) (appData h : Nat) : CallEnd :=
  callOnce env polls w appData fun w => smb2BuildCloseRequest env w h appData

/-! ### Removing and making directories -/

/-- The two calls of a function that opens a file and closes it at once. -/
structure OpenClose where
  create : CallEnd
  close : Option CallEnd

/-- The handle is closed when the data of the CREATE hold one. -/
def openAndClose (polls' : List Poll) (w : World) (createData closeData h : Nat) (fh : Smb2fh)
    (req : Smb2CreateRequest) : OpenClose :=
  let create := callOnce env polls w createData fun w => smb2BuildCreateRequest env w h fh req createData
  match create with
  | .answered w => ⟨create, (w.mem.app createData).fh.map fun fh => smb2Close env polls' w closeData fh⟩
  | _ => ⟨create, none⟩

def unlinkRequest (path : Bytes) : Smb2CreateRequest :=
  { impersonationLevel := 2, desiredAccess := 0x00010000, fileAttributes := 0x80
    shareAccess := 0x1 ||| 0x2 ||| 0x4, createDisposition := 1, createOptions := 0x1000, name := path }

def smb2Unlink (polls' : List Poll) (w : World) (createData closeData h : Nat) (fh : Smb2fh)
    (path : Bytes) : OpenClose :=
  openAndClose env polls polls' w createData closeData h fh (unlinkRequest path)

def rmdirRequest (path : Bytes) : Smb2CreateRequest :=
  { impersonationLevel := 2, desiredAccess := 0x00010000, fileAttributes := 0x10
    shareAccess := 0x1 ||| 0x2 ||| 0x4, createDisposition := 1, createOptions := 0x1000, name := path }

def smb2Rmdir (polls' : List Poll) (w : World) (createData closeData h : Nat) (fh : Smb2fh)
    (path : Bytes) : OpenClose :=
  openAndClose env polls polls' w createData closeData h fh (rmdirRequest path)

def mkdirRequest (path : Bytes) : Smb2CreateRequest :=
  { impersonationLevel := 2, desiredAccess := 0x80, fileAttributes := 0x10, shareAccess := 0x1 ||| 0x2
    createDisposition := 2, createOptions := 0x1, name := path }

def smb2Mkdir (polls' : List Poll) (w : World) (createData closeData h : Nat) (fh : Smb2fh)
    (path : Bytes) : OpenClose :=
  openAndClose env polls polls' w createData closeData h fh (mkdirRequest path)

/-! ### Using a handle -/

/-- A null handle is refused. -/
def smb2Fquerydir (w : World) (appData : Nat) (h : Option Nat) (pattern : Bytes) : CallEnd :=
  match h with
  | none => if w.isConnected then .notBuilt w else .notConnected w
  | some h => callOnce env polls w appData fun w => smb2BuildQueryDirectoryRequest env w h pattern appData

/-- The handle counts no bytes before a transfer is tried. -/
def World.resetCounts (w : World) (h : Nat) : Option World :=
  (w.mem.handle h).map fun fh =>
    { w with mem := w.mem.setHandle h (some { fh with byteCount := 0, bytesRemaining := 0 }) }

/-- The server would not reply to a transfer of no bytes. -/
def transferCall (w : World) (appData h : Nat) (count : UInt32) (build : World → Option (Int × World)) :
    CallEnd :=
  match w.resetCounts h with
  | none => .undefined
  | some w => if w.isConnected ∧ count = 0 then .nothing w else callOnce env polls w appData build

def smb2Pread (w : World) (appData h : Nat) (buf : Bytes) (count : UInt32) (offset : UInt64) : CallEnd :=
  transferCall env polls w appData h count fun w => smb2BuildReadRequest env w h buf count offset appData

def smb2Pwrite (w : World) (appData h : Nat) (buf : Bytes) (count : UInt32) (offset : UInt64) : CallEnd :=
  transferCall env polls w appData h count fun w => smb2BuildWriteRequest env w h buf count offset appData

/-- The offset of a handle, as the unsigned number that is sent. -/
def Smb2fh.sentOffset (fh : Smb2fh) : UInt64 := UInt64.ofInt fh.offset

def smb2Read (w : World) (appData h : Nat) (buf : Bytes) (count : UInt32) : CallEnd :=
  transferCall env polls w appData h count fun w =>
    (w.mem.handle h).bind fun fh => smb2BuildReadRequest env w h buf count fh.sentOffset appData

def smb2Write (w : World) (appData h : Nat) (buf : Bytes) (count : UInt32) : CallEnd :=
  transferCall env polls w appData h count fun w =>
    (w.mem.handle h).bind fun fh => smb2BuildWriteRequest env w h buf count fh.sentOffset appData

end

end CodeStudy.Samba
