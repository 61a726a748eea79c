import CodeStudy.Samba.Protocol

/-!
# Information about files

The structures that queries are answered with and that SET_INFO sends, and the decoders of the
answers.
-/

namespace CodeStudy.Samba

structure Smb2FileBasicInfo where
  creationTime : UInt64 := 0
  lastAccessTime : UInt64 := 0
  lastWriteTime : UInt64 := 0
  changeTime : UInt64 := 0
  fileAttributes : UInt32 := 0
  deriving DecidableEq

structure Smb2FileStandardInfo where
  allocationSize : UInt64 := 0
  endOfFile : UInt64 := 0
  numberOfLinks : UInt32 := 0
  deletePending : UInt8 := 0
  directory : UInt8 := 0
  deriving DecidableEq

structure Smb2FileAllInfo where
  basic : Smb2FileBasicInfo := {}
  standard : Smb2FileStandardInfo := {}
  indexNumber : UInt64 := 0
  eaSize : UInt32 := 0
  accessFlags : UInt32 := 0
  currentByteOffset : UInt64 := 0
  mode : UInt32 := 0
  alignmentRequirement : UInt32 := 0
  deriving DecidableEq

structure Smb2FileFsFullSizeInfo where
  totalAllocationUnits : UInt64 := 0
  callerAvailableAllocationUnits : UInt64 := 0
  actualAvailableAllocationUnits : UInt64 := 0
  sectorsPerAllocationUnit : UInt32 := 0
  bytesPerSector : UInt32 := 0
  deriving DecidableEq

/-! ### Decoders

They leave a field as it is when the answer is too short for it.
-/

def smb2DecodeFileBasicInfo (fs : Smb2FileBasicInfo) (vec : Bytes) : Smb2FileBasicInfo where
  creationTime := smb2GetUint64 vec 0 fs.creationTime
  lastAccessTime := smb2GetUint64 vec 8 fs.lastAccessTime
  lastWriteTime := smb2GetUint64 vec 16 fs.lastWriteTime
  changeTime := smb2GetUint64 vec 24 fs.changeTime
  fileAttributes := smb2GetUint32 vec 32 fs.fileAttributes

def smb2DecodeFileStandardInfo (fs : Smb2FileStandardInfo) (vec : Bytes) : Smb2FileStandardInfo where
  allocationSize := smb2GetUint64 vec 0 fs.allocationSize
  endOfFile := smb2GetUint64 vec 8 fs.endOfFile
  numberOfLinks := smb2GetUint32 vec 16 fs.numberOfLinks
  deletePending := smb2GetUint8 vec 20 fs.deletePending
  directory := smb2GetUint8 vec 21 fs.directory

def smb2DecodeFileAllInfo (fs : Smb2FileAllInfo) (vec : Bytes) : Smb2FileAllInfo where
  basic := smb2DecodeFileBasicInfo fs.basic (vec.take 40)
  standard := smb2DecodeFileStandardInfo fs.standard ((vec.drop 40).take 24)
  indexNumber := smb2GetUint64 vec 64 fs.indexNumber
  eaSize := smb2GetUint32 vec 72 fs.eaSize
  accessFlags := smb2GetUint32 vec 76 fs.accessFlags
  currentByteOffset := smb2GetUint64 vec 80 fs.currentByteOffset
  mode := smb2GetUint32 vec 88 fs.mode
  alignmentRequirement := smb2GetUint32 vec 92 fs.alignmentRequirement

def smb2DecodeFileFsFullSizeInfo (fs : Smb2FileFsFullSizeInfo) (vec : Bytes) : Smb2FileFsFullSizeInfo where
  totalAllocationUnits := smb2GetUint64 vec 0 fs.totalAllocationUnits
  callerAvailableAllocationUnits := smb2GetUint64 vec 8 fs.callerAvailableAllocationUnits
  actualAvailableAllocationUnits := smb2GetUint64 vec 16 fs.actualAvailableAllocationUnits
  sectorsPerAllocationUnit := smb2GetUint32 vec 24 fs.sectorsPerAllocationUnit
  bytesPerSector := smb2GetUint32 vec 28 fs.bytesPerSector

end CodeStudy.Samba
