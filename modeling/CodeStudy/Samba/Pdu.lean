import CodeStudy.Samba.Protocol

/-!
# Protocol data units

A request with its outgoing io vectors, and the place for its reply: the reply header, the incoming
io vectors and the payload decoded from them. Requests that are sent together form a chain. The
program links the members of a chain through a pointer and cuts the links once the chain is sent,
so a chain is a head with the list of the members behind it.

A pointer into an io vector is kept as the bytes from that position to the end of the vector.
-/

namespace CodeStudy.Samba

/-! ### Io vectors -/

/-- A list of io vectors with the running total the program keeps of their lengths. -/
structure Smb2IoVectors where
  totalSize : Nat := 0
  iovs : List Bytes := []
  deriving DecidableEq

/-- The bytes of a list of vectors. -/
def byteCount (vs : List Bytes) : Nat := (vs.map List.length).sum

@[simp] theorem byteCount_nil : byteCount [] = 0 := rfl

@[simp] theorem byteCount_cons (v : Bytes) (vs : List Bytes) :
    byteCount (v :: vs) = v.length + byteCount vs := rfl

@[simp] theorem byteCount_append (vs ws : List Bytes) :
    byteCount (vs ++ ws) = byteCount vs + byteCount ws := by
  simp [byteCount]

theorem length_flatten_eq_byteCount (vs : List Bytes) : vs.flatten.length = byteCount vs := by
  rw [List.length_flatten, byteCount]

namespace Smb2IoVectors

/-- The running total is the number of bytes. -/
def Counted (v : Smb2IoVectors) : Prop := v.totalSize = byteCount v.iovs

def smb2AddIovector (v : Smb2IoVectors) (iov : Bytes) : Smb2IoVectors :=
  ⟨v.totalSize + iov.length, v.iovs ++ [iov]⟩

def smb2AppendIovectors (v other : Smb2IoVectors) : Smb2IoVectors :=
  other.iovs.foldl smb2AddIovector v

/-- Pad to a multiple of eight bytes, counting the vectors again. -/
def smb2PadTo64bit (v : Smb2IoVectors) : Smb2IoVectors :=
  let len := byteCount v.iovs
  if len % 8 = 0 then v else v.smb2AddIovector (List.replicate (8 - len % 8) 0)

theorem iovs_smb2AppendIovectors (v other : Smb2IoVectors) :
    (v.smb2AppendIovectors other).iovs = v.iovs ++ other.iovs := by
  obtain ⟨_, l⟩ := other
  rw [smb2AppendIovectors]
  induction l generalizing v with
  | nil => simp
  | cons iov l ih =>
      rw [List.foldl_cons, ih, smb2AddIovector, List.append_assoc]
      rfl

theorem Counted.smb2AddIovector {v : Smb2IoVectors} (h : v.Counted) (iov : Bytes) :
    (v.smb2AddIovector iov).Counted := by
  simp only [Counted, Smb2IoVectors.smb2AddIovector, byteCount_append, byteCount_cons, byteCount_nil] at h ⊢
  omega

theorem Counted.foldl {v : Smb2IoVectors} (h : v.Counted) (iovs : List Bytes) :
    (iovs.foldl Smb2IoVectors.smb2AddIovector v).Counted := by
  induction iovs generalizing v with
  | nil => exact h
  | cons iov iovs ih => exact ih (h.smb2AddIovector iov)

theorem Counted.smb2PadTo64bit {v : Smb2IoVectors} (h : v.Counted) : v.smb2PadTo64bit.Counted := by
  simp only [Smb2IoVectors.smb2PadTo64bit]
  split_ifs
  · exact h
  · exact h.smb2AddIovector _

end Smb2IoVectors

/-! ### Reply payloads -/

structure Smb2FileId where
  persistentId : UInt64 := 0
  volatileId : UInt64 := 0
  deriving DecidableEq

structure Smb2ErrorReply where
  errorContextCount : UInt8 := 0
  byteCount : UInt32 := 0
  errorData : Bytes := []

structure Smb2NegotiateReply where
  securityMode : UInt16 := 0
  dialectRevision : UInt16 := 0
  negContextCount : UInt16 := 0
  serverGuid : Bytes := []
  capabilities : UInt32 := 0
  maxTransactSize : UInt32 := 0
  maxReadSize : UInt32 := 0
  maxWriteSize : UInt32 := 0
  systemTime : UInt64 := 0
  serverStartTime : UInt64 := 0
  securityBufferLength : UInt16 := 0
  securityBufferOffset : UInt16 := 0
  negContextOffset : UInt32 := 0
  securityBuffer : Bytes := []

structure Smb2SessionSetupReply where
  sessionFlags : UInt16 := 0
  securityBufferLength : UInt16 := 0
  securityBufferOffset : UInt16 := 0
  securityBuffer : Bytes := []

structure Smb2TreeConnectReply where
  shareType : UInt8 := 0
  shareFlags : UInt32 := 0
  capabilities : UInt32 := 0
  maximalAccess : UInt32 := 0

structure Smb2CreateReply where
  oplockLevel : UInt8 := 0
  flags : UInt8 := 0
  createAction : UInt32 := 0
  creationTime : UInt64 := 0
  lastAccessTime : UInt64 := 0
  lastWriteTime : UInt64 := 0
  changeTime : UInt64 := 0
  allocationSize : UInt64 := 0
  endOfFile : UInt64 := 0
  fileAttributes : UInt32 := 0
  fileId : Smb2FileId := {}
  createContextLength : UInt32 := 0
  createContextOffset : UInt32 := 0

structure Smb2CloseReply where
  flags : UInt16 := 0
  creationTime : UInt64 := 0
  lastAccessTime : UInt64 := 0
  lastWriteTime : UInt64 := 0
  changeTime : UInt64 := 0
  allocationSize : UInt64 := 0
  endOfFile : UInt64 := 0
  fileAttributes : UInt32 := 0

structure Smb2ReadReply where
  dataOffset : UInt8 := 0
  dataLength : UInt32 := 0
  dataRemaining : UInt32 := 0
  readData : Bytes := []

structure Smb2WriteReply where
  count : UInt32 := 0
  remaining : UInt32 := 0

structure Smb2IoctlReply where
  reserved : UInt16 := 0
  ctlCode : UInt32 := 0
  fileId : Smb2FileId := {}
  inputOffset : UInt32 := 0
  inputCount : UInt32 := 0
  outputOffset : UInt32 := 0
  outputCount : UInt32 := 0
  flags : UInt32 := 0
  reserved2 : UInt32 := 0
  outputBuffer : Bytes := []

structure Smb2QueryDirectoryReply where
  outputBufferOffset : UInt16 := 0
  outputBufferLength : UInt32 := 0
  outputBuffer : Bytes := []

structure Smb2QueryInfoReply where
  outputBufferOffset : UInt16 := 0
  outputBufferLength : UInt32 := 0
  outputBuffer : Bytes := []

/-- What the untyped payload pointer of a PDU points at. -/
inductive Payload where
  | null
  | error (rep : Smb2ErrorReply)
  | negotiate (rep : Smb2NegotiateReply)
  | sessionSetup (rep : Smb2SessionSetupReply)
  | treeConnect (rep : Smb2TreeConnectReply)
  | create (rep : Smb2CreateReply)
  | close (rep : Smb2CloseReply)
  | read (rep : Smb2ReadReply)
  | write (rep : Smb2WriteReply)
  | ioctl (rep : Smb2IoctlReply)
  | queryDirectory (rep : Smb2QueryDirectoryReply)
  | queryInfo (rep : Smb2QueryInfoReply)

/-! ### A request and its reply -/

structure Smb2Pdu where
  /-- The class of the object; each class passes its own command to the constructor. -/
  command : Smb2Command
  header : Smb2Header
  out : Smb2IoVectors := {}
  respNBLength : UInt32 := 0
  headerResp : Smb2Header := {}
  payload : Payload := .null
  inVecs : Smb2IoVectors := {}
  /-- The address of the caller's data. -/
  appData : Nat
  bIsLastInCompound : Bool := true
  requestedInfoType : UInt8 := 0
  requestedInfoClass : UInt8 := 0

namespace Smb2Pdu

def messageId (pdu : Smb2Pdu) : Nat := pdu.header.messageId.toNat

def creditCharge (pdu : Smb2Pdu) : Nat := pdu.header.creditCharge.toNat

/-- The credits the request asks the server for. -/
def creditRequest (pdu : Smb2Pdu) : Nat := pdu.header.creditRequestResponse.toNat

def setResponseHeader (pdu : Smb2Pdu) (rhdr : Smb2Header) : Smb2Pdu :=
  { pdu with headerResp := rhdr }

/-- The request with the link and the flags of its header changed. -/
def relink (pdu : Smb2Pdu) (nextCommand flags : UInt32) : Smb2Pdu :=
  { pdu with header := { pdu.header with nextCommand, flags } }

def smb2ReplyIsError (pdu : Smb2Pdu) : Bool :=
  pdu.headerResp.status &&& NtStatus.severityMask = NtStatus.severityError &&
    pdu.headerResp.status ≠ NtStatus.moreProcessingRequired

/-- The size of the fixed part of a reply, with the bit that stands for a variable part cleared. -/
def fixedSizeOf : Smb2Command → Nat
  | .negotiate => 65 &&& 0xfffe
  | .sessionSetup => 9 &&& 0xfffe
  | .logoff => 4 &&& 0xfffe
  | .treeConnect => 16 &&& 0xfffe
  | .treeDisconnect => 4 &&& 0xfffe
  | .create => 89 &&& 0xfffe
  | .close => 60 &&& 0xfffe
  | .flush => 4 &&& 0xfffe
  | .read => 17 &&& 0xfffe
  | .write => 17 &&& 0xfffe
  | .ioctl => 49 &&& 0xfffe
  | .echo => 4 &&& 0xfffe
  | .queryDirectory => 9 &&& 0xfffe
  | .queryInfo => 9 &&& 0xfffe
  | .setInfo => 2 &&& 0xfffe

def smb2ReplyGetFixedSize (pdu : Smb2Pdu) : Nat :=
  if pdu.smb2ReplyIsError then 9 &&& 0xfffe else fixedSizeOf pdu.command

theorem smb2ReplyGetFixedSize_mem (pdu : Smb2Pdu) :
    0 < (pdu.smb2ReplyGetFixedSize : Int) ∧ (pdu.smb2ReplyGetFixedSize : Int) < 2 ^ 31 := by
  rw [smb2ReplyGetFixedSize]
  split_ifs
  · decide
  · cases pdu.command <;> decide

end Smb2Pdu

/-! ### Chains -/

/-- Requests that travel in one frame, first to last. -/
structure PduChain where
  head : Smb2Pdu
  rest : List Smb2Pdu := []

namespace PduChain

def members (chain : PduChain) : List Smb2Pdu := chain.head :: chain.rest

def last (chain : PduChain) : Smb2Pdu := chain.rest.getLastD chain.head

theorem members_eq (chain : PduChain) : chain.members = chain.members.dropLast ++ [chain.last] := by
  rw [members, last, ← List.getLast_eq_getLastD (List.cons_ne_nil _ _), List.dropLast_concat_getLast]

theorem last_mem_members (chain : PduChain) : chain.last ∈ chain.members := List.getLastD_mem_cons

def getReqNBLength (chain : PduChain) : UInt32 :=
  chain.rest.foldl (fun len p => len + UInt32.ofNat p.out.totalSize)
    (UInt32.ofNat chain.head.out.totalSize)

def getReqCreditCharge (chain : PduChain) : UInt32 :=
  chain.rest.foldl (fun charge p => charge + p.header.creditCharge.toUInt32)
    chain.head.header.creditCharge.toUInt32

def getAllComOutVecs (chain : PduChain) : Smb2IoVectors :=
  chain.rest.foldl (fun v p => v.smb2AppendIovectors p.out)
    (Smb2IoVectors.smb2AppendIovectors {} chain.head.out)

theorem iovs_getAllComOutVecs (chain : PduChain) :
    chain.getAllComOutVecs.iovs = chain.members.flatMap fun p => p.out.iovs := by
  have hfold : ∀ (ps : List Smb2Pdu) (v : Smb2IoVectors),
      (ps.foldl (fun v p => v.smb2AppendIovectors p.out) v).iovs =
        v.iovs ++ ps.flatMap fun p => p.out.iovs := by
    intro ps
    induction ps with
    | nil => simp
    | cons p ps ih =>
        intro v
        rw [List.foldl_cons, ih, Smb2IoVectors.iovs_smb2AppendIovectors, List.flatMap_cons,
          List.append_assoc]
  rw [getAllComOutVecs, hfold, Smb2IoVectors.iovs_smb2AppendIovectors, members, List.flatMap_cons]
  rfl

/-- The length announced for a frame is its number of bytes, modulo `2 ^ 32`. -/
theorem getReqNBLength_eq (chain : PduChain) (h : ∀ p ∈ chain.members, p.out.Counted) :
    chain.getReqNBLength = UInt32.ofNat (byteCount chain.getAllComOutVecs.iovs) := by
  have hfold : ∀ (ps : List Smb2Pdu) (n : Nat), (∀ p ∈ ps, p.out.Counted) →
      ps.foldl (fun len p => len + UInt32.ofNat p.out.totalSize) (UInt32.ofNat n) =
        UInt32.ofNat (n + byteCount (ps.flatMap fun p => p.out.iovs)) := by
    intro ps
    induction ps with
    | nil => simp
    | cons p ps ih =>
        intro n hps
        obtain ⟨hp, hps⟩ := List.forall_mem_cons.mp hps
        rw [List.foldl_cons, ← UInt32.ofNat_add, ih _ hps, List.flatMap_cons, byteCount_append, hp,
          Nat.add_assoc]
  obtain ⟨hhead, hrest⟩ := List.forall_mem_cons.mp h
  rw [getReqNBLength, hfold _ _ hrest, iovs_getAllComOutVecs, members, List.flatMap_cons,
    byteCount_append, hhead]

/-- Put a request behind the last one, whose header then points at it. -/
def smb2AddCompoundPdu (chain : PduChain) (next : Smb2Pdu) : PduChain :=
  let next := next.relink next.header.nextCommand (next.header.flags ||| smb2FlagsRelatedOperations)
  let link (pdu : Smb2Pdu) := pdu.relink (UInt32.ofNat pdu.out.totalSize) pdu.header.flags
  if chain.rest = [] then ⟨link chain.head, [next]⟩
  else ⟨chain.head, chain.rest.dropLast ++ [link chain.last, next]⟩

theorem members_smb2AddCompoundPdu (chain : PduChain) (next : Smb2Pdu) :
    (chain.smb2AddCompoundPdu next).members = chain.members.dropLast ++
      [chain.last.relink (UInt32.ofNat chain.last.out.totalSize) chain.last.header.flags,
       next.relink next.header.nextCommand (next.header.flags ||| smb2FlagsRelatedOperations)] := by
  rw [smb2AddCompoundPdu]
  split_ifs with hrest
  · simp [members, last, hrest]
  · rw [members, members, List.dropLast_cons_of_ne_nil hrest, List.cons_append]

theorem last_smb2AddCompoundPdu (chain : PduChain) (next : Smb2Pdu) :
    (chain.smb2AddCompoundPdu next).last =
      next.relink next.header.nextCommand (next.header.flags ||| smb2FlagsRelatedOperations) := by
  rw [smb2AddCompoundPdu]
  split_ifs with hrest
  · rfl
  · simp [last, List.getLastD_eq_getLast?]

end PduChain

end CodeStudy.Samba
