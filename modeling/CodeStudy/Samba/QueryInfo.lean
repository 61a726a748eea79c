import CodeStudy.Samba.Api
import CodeStudy.Samba.FileData

/-!
# Queries for information

Thirteen calls ask the server for information about a file or a file system and copy the answer into
a structure of the caller. Each has a local `smb2_file_info`, which the handler of the reply fills
in, and which nothing fills in before that. The calls differ in the information they ask for, in
what they copy, and in whether they look at the status of the answer first. A call that takes a name
sends a CREATE, the query and a CLOSE as one compound.
-/

namespace CodeStudy.Samba

/-! ### The local structure -/

/-- The union of a `smb2_file_info`, seen as each of its members that a call copies from. A pointer
to extended attributes or to streams is null, or stands for the answer they were decoded from. -/
structure UInfo where
  basicInfo : Smb2FileBasicInfo := {}
  standardInfo : Smb2FileStandardInfo := {}
  allInfo : Smb2FileAllInfo := {}
  fsFullSizeInfo : Smb2FileFsFullSizeInfo := {}
  extendedInfo : Option Bytes := none
  streamInfo : Option Bytes := none

/-- What memory holds before the program writes to it. -/
structure Leftovers where
  /-- The local `smb2_file_info` of a call. -/
  stack : UInfo := {}
  /-- The block an answer is decoded into. -/
  heap : UInfo := {}

/-- The union after the exchange. The handler stores in it what it decoded; no answer is empty. -/
def Smb2FileInfo.uInfo (info : Smb2FileInfo) (found : Leftovers) (uInfo : UInfo) : UInfo :=
  if info.data = [] then uInfo
  else if info.infoType = 1 ∧ info.fileInfoClass = 0x04 then
    { uInfo with basicInfo := smb2DecodeFileBasicInfo found.heap.basicInfo info.data }
  else if info.infoType = 1 ∧ info.fileInfoClass = 0x05 then
    { uInfo with standardInfo := smb2DecodeFileStandardInfo found.heap.standardInfo info.data }
  else if info.infoType = 1 ∧ info.fileInfoClass = 0x0f then { uInfo with extendedInfo := some info.data }
  else if info.infoType = 1 ∧ info.fileInfoClass = 0x16 then { uInfo with streamInfo := some info.data }
  else if info.infoType = 1 ∧ info.fileInfoClass = 0x12 then
    { uInfo with allInfo := smb2DecodeFileAllInfo found.heap.allInfo info.data }
  else if info.infoType = 2 ∧ info.fileInfoClass = 7 then
    { uInfo with fsFullSizeInfo := smb2DecodeFileFsFullSizeInfo found.heap.fsFullSizeInfo info.data }
  else uInfo

/-! ### The request -/

def encodeQueryInfo (appData : Nat) (infoType fileInfoClass : UInt8) (fileId : Smb2FileId) : RequestSpec :=
  let fixed : Bytes := List.replicate 40 0
  let fixed := smb2SetUint16 fixed 0 41
  let fixed := smb2SetUint8 fixed 2 infoType
  let fixed := smb2SetUint8 fixed 3 fileInfoClass
  let fixed := smb2SetUint32 fixed 4 65535
  let fixed := smb2SetUint64 fixed 24 fileId.persistentId
  let fixed := smb2SetUint64 fixed 32 fileId.volatileId
  { command := .queryInfo, appData, body := [fixed], requestedInfoType := infoType
    requestedInfoClass := fileInfoClass }

/-- The file id of a request that is about the file the request before it opened. -/
def compoundFileId : Smb2FileId where
  persistentId := 0xffffffffffffffff
  volatileId := 0xffffffffffffffff

/-- What a query is about. -/
inductive QueryTarget where
  | handle (h : Option Nat)
  /-- A file by its name, with the addresses of the data of the CREATE and of the CLOSE. -/
  | name (path : Bytes) (createData closeData : Nat)

/-- The CREATE in front of a query. -/
def queryCreateRequest (path : Bytes) : Smb2CreateRequest where
  impersonationLevel := 2
  desiredAccess := 0x80 ||| 0x08
  shareAccess := 0x1 ||| 0x2
  createDisposition := 1
  name := path

section

variable (env : Env) (w : World) (appData : Nat) (infoType fileInfoClass : UInt8)

/-- The local structure of the caller is where the answer goes. -/
def World.setQInfo : World :=
  { w with mem := w.mem.setApp appData { w.mem.app appData with info := some { infoType, fileInfoClass } } }

/-- A query about a handle; a null handle is refused. -/
def smb2BuildQueryInfoByHandle (h : Option Nat) : Option (Int × World) :=
  match h with
  | none =>
      some (-1, w.setErrorMsg appData "Smb2BuildQueryInfoRequest: FileHandle is not provided")
  | some h =>
      (w.mem.handle h).map fun fh =>
        queueFor env (w.setQInfo appData infoType fileInfoClass) "Smb2BuildQueryInfoRequest"
          "Smb2QueryInfo::encodeRequest:Failed to allocate query buffer" (-1)
          (encodeQueryInfo appData infoType fileInfoClass fh.fileId)

/-- A query about a name. When the CREATE or the CLOSE cannot be made its data, which are deleted
with it, are used again. -/
def smb2BuildQueryInfoByName (path : Bytes) (createData closeData : Nat) : Option (Int × World) :=
  let w := { w with mem := w.mem.setApp createData {} }
  if env.alloc (.encodeRequest .create) w.smb2 then
    let req := (queryCreateRequest path).forUser w.smb2.userInBackUpOperatorsGrp
    (encodeCreate env createData req).bind fun create =>
      let w := w.setQInfo appData infoType fileInfoClass
      if env.alloc (.encodeRequest .queryInfo) w.smb2 then
        let w := { w with mem := w.mem.setApp closeData {} }
        if env.alloc (.encodeRequest .close) w.smb2 then
          match smb2QueuePdu env w (createChain w.smb2 create
            [encodeQueryInfo appData infoType fileInfoClass compoundFileId,
              encodeClose closeData compoundFileId]) with
          | (none, w) => some (0, w)
          | (some err, w) => some (-1, w.setErrorMsg appData err)
        else none
      else
        some (-1, w.setErrorMsg appData ("Smb2BuildQueryInfoRequest: " ++
          "Smb2QueryInfo::encodeRequest:Failed to allocate query buffer"))
  else none

def smb2BuildQueryInfoRequest (target : QueryTarget) : Option (Int × World) :=
  match target with
  | .handle h => smb2BuildQueryInfoByHandle env w appData infoType fileInfoClass h
  | .name path createData closeData =>
      smb2BuildQueryInfoByName env w appData infoType fileInfoClass path createData closeData

end

/-! ### The calls -/

/-- One of the calls: what it asks for, what it writes to its local structure before it asks, whether
it looks at the status before it copies, and what it copies over the structure of its caller. They
ask about files and about file systems. -/
structure QueryFunction (α : Type) where
  infoType : UInt8
  fileInfoClass : UInt8
  isInfoType : infoType = 1 ∨ infoType = 2 := by decide
  init : UInfo → UInfo := id
  checksStatus : Bool
  copy : UInfo → α → α

/-- What a call returns and leaves in the structure of its caller. -/
structure QueryResult (α : Type) where
  callEnd : CallEnd
  out : α

def QueryFunction.call {α : Type} (f : QueryFunction α) (env : Env) (polls : List Poll) (w : World)
    (appData : Nat) (target : QueryTarget) (found : Leftovers) (out : α) : QueryResult α :=
  let callEnd := callOnce env polls w appData fun w =>
    smb2BuildQueryInfoRequest env w appData f.infoType f.fileInfoClass target
  match callEnd with
  | .answered w =>
      let data := w.mem.app appData
      if f.checksStatus ∧ data.ntStatus ≠ NtStatus.success then ⟨callEnd, out⟩
      else
        let uInfo := f.init found.stack
        ⟨callEnd, f.copy (data.info.elim uInfo fun info => info.uInfo found uInfo) out⟩
  | _ => ⟨callEnd, out⟩

structure Smb2Stat64 where
  smb2Type : UInt32 := 0
  smb2Nlink : UInt32 := 0
  smb2Ino : UInt64 := 0
  smb2Size : UInt64 := 0
  smb2Atime : UInt64 := 0
  smb2Mtime : UInt64 := 0
  smb2Ctime : UInt64 := 0
  smb2Crtime : UInt64 := 0
  deriving DecidableEq

structure Smb2Statvfs where
  fBsize : UInt32 := 0
  fFrsize : UInt32 := 0
  fBlocks : UInt64 := 0
  fBfree : UInt64 := 0
  fBavail : UInt64 := 0
  fFiles : UInt32 := 0
  fFfree : UInt32 := 0
  fFavail : UInt32 := 0
  fFsid : UInt32 := 0
  fFlag : UInt32 := 0
  fNamemax : UInt32 := 0
  deriving DecidableEq

structure Smb2FileInfoAll where
  smb2Type : UInt32 := 0
  smb2Nlink : UInt32 := 0
  smb2Ino : UInt64 := 0
  smb2Size : UInt64 := 0
  smb2Atime : UInt64 := 0
  smb2AtimeNsec : UInt64 := 0
  smb2Mtime : UInt64 := 0
  smb2MtimeNsec : UInt64 := 0
  smb2Ctime : UInt64 := 0
  smb2CtimeNsec : UInt64 := 0
  smb2Crtime : UInt64 := 0
  smb2CrtimeNsec : UInt64 := 0
  fileAttributes : UInt32 := 0
  allocationSize : UInt64 := 0
  endOfFile : UInt64 := 0
  deletePending : UInt8 := 0
  directory : UInt8 := 0
  eaSize : UInt32 := 0
  accessFlags : UInt32 := 0
  mode : UInt32 := 0
  deriving DecidableEq

/-- `SMB2_TYPE_DIRECTORY` or `SMB2_TYPE_FILE`. -/
def Smb2FileAllInfo.smb2Type (info : Smb2FileAllInfo) : UInt32 :=
  if info.basic.fileAttributes &&& 0x10 ≠ 0 then 1 else 0

def copyStat (u : UInfo) (_ : Smb2Stat64) : Smb2Stat64 where
  smb2Type := u.allInfo.smb2Type
  smb2Nlink := u.allInfo.standard.numberOfLinks
  smb2Ino := u.allInfo.indexNumber
  smb2Size := u.allInfo.standard.endOfFile
  smb2Atime := u.allInfo.basic.lastAccessTime
  smb2Mtime := u.allInfo.basic.lastWriteTime
  smb2Ctime := u.allInfo.basic.changeTime
  smb2Crtime := u.allInfo.basic.creationTime

def smb2Fstat : QueryFunction Smb2Stat64 where
  infoType := 1
  fileInfoClass := 0x12
  checksStatus := false
  copy := copyStat

def smb2Stat : QueryFunction Smb2Stat64 where
  infoType := 1
  fileInfoClass := 0x12
  checksStatus := false
  copy := copyStat

def smb2Statvfs : QueryFunction Smb2Statvfs where
  infoType := 2
  fileInfoClass := 7
  checksStatus := false
  copy u _ :=
    let size := u.fsFullSizeInfo.bytesPerSector * u.fsFullSizeInfo.sectorsPerAllocationUnit
    { fBsize := size
      fFrsize := size
      fBlocks := u.fsFullSizeInfo.totalAllocationUnits
      fBfree := u.fsFullSizeInfo.callerAvailableAllocationUnits
      fBavail := u.fsFullSizeInfo.callerAvailableAllocationUnits }

/-- The attributes are the one field that `smb2_fgetinfo_all` leaves out, the parts of a time below
the second are left out by both. -/
def copyAll (u : UInfo) (out : Smb2FileInfoAll) : Smb2FileInfoAll :=
  { out with
    smb2Type := u.allInfo.smb2Type
    smb2Ino := u.allInfo.indexNumber
    eaSize := u.allInfo.eaSize
    smb2Atime := u.allInfo.basic.lastAccessTime
    smb2Mtime := u.allInfo.basic.lastWriteTime
    smb2Ctime := u.allInfo.basic.changeTime
    smb2Crtime := u.allInfo.basic.creationTime
    smb2Size := u.allInfo.standard.endOfFile
    smb2Nlink := u.allInfo.standard.numberOfLinks
    allocationSize := u.allInfo.standard.allocationSize
    endOfFile := u.allInfo.standard.endOfFile
    deletePending := u.allInfo.standard.deletePending
    directory := u.allInfo.standard.directory
    accessFlags := u.allInfo.accessFlags
    mode := u.allInfo.mode }

def smb2GetinfoAll : QueryFunction Smb2FileInfoAll where
  infoType := 1
  fileInfoClass := 0x12
  checksStatus := false
  copy u out := { copyAll u out with fileAttributes := u.allInfo.basic.fileAttributes }

def smb2FgetinfoAll : QueryFunction Smb2FileInfoAll where
  infoType := 1
  fileInfoClass := 0x12
  checksStatus := false
  copy := copyAll

def smb2GetinfoBasic : QueryFunction Smb2FileBasicInfo where
  infoType := 1
  fileInfoClass := 0x04
  checksStatus := false
  copy u _ := u.basicInfo

def smb2FgetinfoBasic : QueryFunction Smb2FileBasicInfo where
  infoType := 1
  fileInfoClass := 0x04
  checksStatus := false
  copy u _ := u.basicInfo

def smb2GetinfoStandard : QueryFunction Smb2FileStandardInfo where
  infoType := 1
  fileInfoClass := 0x05
  checksStatus := false
  copy u _ := u.standardInfo

def smb2FgetinfoStandard : QueryFunction Smb2FileStandardInfo where
  infoType := 1
  fileInfoClass := 0x05
  checksStatus := false
  copy u _ := u.standardInfo

def smb2GetinfoExtended : QueryFunction (Option Bytes) where
  infoType := 1
  fileInfoClass := 0x0f
  init u := { u with extendedInfo := none }
  checksStatus := true
  copy u _ := u.extendedInfo

def smb2FgetinfoExtended : QueryFunction (Option Bytes) where
  infoType := 1
  fileInfoClass := 0x0f
  init u := { u with extendedInfo := none }
  checksStatus := true
  copy u _ := u.extendedInfo

def smb2GetinfoStream : QueryFunction (Option Bytes) where
  infoType := 1
  fileInfoClass := 0x16
  init u := { u with streamInfo := none }
  checksStatus := true
  copy u _ := u.streamInfo

def smb2FgetinfoStream : QueryFunction (Option Bytes) where
  infoType := 1
  fileInfoClass := 0x16
  init u := { u with streamInfo := none }
  checksStatus := true
  copy u _ := u.streamInfo

end CodeStudy.Samba
