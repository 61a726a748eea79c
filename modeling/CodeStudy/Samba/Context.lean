import CodeStudy.Base.OrdMap
import CodeStudy.Samba.Pdu

/-!
# The client context

The state a context keeps for its connection, the two queues of requests, and the operations on
them. A request is queued with its header encoded, which is when it gets its message id; it waits in
`outqueue` until it is sent and in `waitqueue` until a reply with its message id arrives.

The world of a client is its context with its socket, the memory its requests point into, and a
trace of what happened, newest event first. The trace is not part of the program: it records what
statements about whole runs speak of.
-/

namespace CodeStudy.Samba

/-! ### The caller's memory -/

structure Smb2fh where
  fileId : Smb2FileId := {}
  offset : Int := 0
  byteCount : UInt32 := 0
  bytesRemaining : UInt32 := 0
  oplockLevel : UInt8 := 0
  createAction : UInt32 := 0
  creationTime : UInt64 := 0
  lastAccessTime : UInt64 := 0
  lastWriteTime : UInt64 := 0
  changeTime : UInt64 := 0
  allocationSize : UInt64 := 0
  endOfFile : UInt64 := 0
  fileAttributes : UInt32 := 0

structure Smb2dirent where
  name : Bytes
  allocationSize : UInt64
  attributes : UInt32
  eaSize : UInt32
  type : UInt32
  nlink : UInt32
  ino : UInt64
  size : UInt64
  atime : UInt64
  mtime : UInt64
  ctime : UInt64
  crtime : UInt64

structure Smb2dir where
  fileId : Smb2FileId := {}
  entries : List Smb2dirent := []

/-- What a caller asked for with a query, and the bytes its answer was decoded from. -/
structure Smb2FileInfo where
  infoType : UInt8
  fileInfoClass : UInt8
  data : Bytes := []

/-- The data a caller passes along with a request. The fields of the subclasses stand side by side;
a null pointer is `none`. -/
structure AppData where
  ntStatus : NtStatus := 0
  errMsg : String := ""
  fh : Option Nat := none
  readBuf : Bytes := []
  outBuf : Bytes := []
  outBufLen : UInt32 := 0
  pattern : Bytes := []
  dir : Option Smb2dir := none
  info : Option Smb2FileInfo := none

/-- The objects of the caller, by address. A handle that was deleted is `none`. -/
structure Memory where
  app : Nat → AppData := fun _ => {}
  handle : Nat → Option Smb2fh := fun _ => none

def Memory.setApp (mem : Memory) (address : Nat) (data : AppData) : Memory :=
  { mem with app := fun a => if a = address then data else mem.app a }

def Memory.setHandle (mem : Memory) (address : Nat) (fh : Option Smb2fh) : Memory :=
  { mem with handle := fun a => if a = address then fh else mem.handle a }

/-! ### The context -/

inductive Smb2Sec where
  | undefined | ntlmssp | krb5
  deriving DecidableEq

structure Smb2Context where
  sec : Smb2Sec := .undefined
  /-- The security buffers handed to the authentication provider so far, when there is one. -/
  authenticator : Option (List Bytes) := none
  securityMode : UInt16 := 0
  server : Bytes := []
  share : Bytes := []
  credits : UInt32 := 0
  treeId : UInt32 := 0
  messageId : UInt64 := 0
  sessionId : UInt64 := 0
  sessionKey : Option Bytes := none
  sessionKeySize : UInt8 := 0
  signingRequired : UInt8 := 0
  signingKey : Bytes := List.replicate smb2KeySize 0
  hashAlgorithm : UInt16 := 0
  cipherId : UInt16 := 0
  serverSupportEncryption : UInt8 := 0
  preauthIntegrityHash : Option Bytes := none
  outqueue : OrdMap Nat PduChain := ∅
  waitqueue : OrdMap Nat Smb2Pdu := ∅
  supportsMultiCredit : Bool := false
  maxTransactSize : UInt32 := 0
  maxReadSize : UInt32 := 0
  maxWriteSize : UInt32 := 0
  dialect : UInt16
  isComplete : Bool := false
  userInBackUpOperatorsGrp : Bool := false

/-- A context as constructed. The constructor leaves the dialect as it finds it in memory. -/
def Smb2Context.fresh (dialect : UInt16) : Smb2Context := { dialect }

/-! ### Code the client calls -/

/-- The places where the program handles a failed allocation. -/
inductive AllocSite where
  | encodeRequest (command : Smb2Command)
  | signBuffer
  | preauthHash
  | digest
  | authenticator
  deriving DecidableEq

/-- The code the protocol engine calls and does not contain: allocation, cryptography, the
authentication providers, character conversion and the decoders of reply data. -/
structure Env where
  alloc : AllocSite → Smb2Context → Bool
  sha512 : Bytes → Bytes
  aesCmac128 : Bytes → Bytes → Bytes
  hmacSha256 : Bytes → Bytes → Bytes
  utf8ToUcs2 : Bytes → Option (List UInt16)
  negotiateReply : Smb2Context → Except String Unit
  sessionRequest : Smb2Context → List Bytes → Bytes → Except String Bytes
  getSessionKey : Smb2Context → List Bytes → Except String (Option Bytes × UInt8)
  decodeNegotiateContexts : UInt16 → Bytes → UInt16 × UInt16 → Option String × UInt16 × UInt16
  /-- `none` when the decoder does not return. -/
  decodeDirents : Bytes → Option (Except String (List Smb2dirent))
  decodeInfo : UInt8 → UInt8 → Bytes → Except String Unit
  /-- What a read of bytes that nobody set finds. -/
  stale : UInt32
  /-- What is signed once the buffer that the io vectors are combined in was overrun. -/
  overrun : List Bytes → Bytes

/-- An environment in which every allocation succeeds and nothing is encrypted. -/
def plainEnv : Env where
  alloc _ _ := true
  sha512 _ := List.replicate 64 0
  aesCmac128 _ _ := List.replicate 16 0
  hmacSha256 _ _ := List.replicate 32 0
  utf8ToUcs2 name := some (name.map UInt8.toUInt16)
  negotiateReply _ := .ok ()
  sessionRequest _ _ _ := .ok []
  getSessionKey _ _ := .ok (none, 0)
  decodeNegotiateContexts _ _ ids := (none, ids)
  decodeDirents _ := some (.ok [])
  decodeInfo _ _ _ := .ok ()
  stale := 0
  overrun _ := []

/-! ### The world -/

inductive Errno where
  | eintr
  | eagain
  | other (code : Nat)
  deriving DecidableEq

/-- What one `writev` does: it takes at most the given number of bytes, or fails. -/
inductive WritevOutcome where
  | wrote (count : Nat)
  | error (errno : Errno)
  deriving DecidableEq

/-- An open connection: the bytes its reads will deliver before the first read that fails, what its
writes will do, and the bytes written so far. -/
structure Connection where
  rx : Bytes
  writevs : List WritevOutcome
  tx : Bytes := []

structure Smb2Socket where
  /-- The connection behind the file descriptor, `none` for the descriptor -1. -/
  fd : Option Connection := none
  bConnected : Bool := false

inductive Event where
  | connected (credits : UInt32)
  | closed
  | queued (chain : PduChain)
  | queueFailed (encoded : List Smb2Pdu)
  | transmitted (dialect : UInt16) (credits : UInt32) (chain : PduChain)
  | sent (credits : UInt32) (pdu : Smb2Pdu)
  | frame (spl : UInt32)
  | header (offset : Nat) (hdr : Smb2Header) (credits : UInt32) (pdu : Smb2Pdu)
  | rejected (hdr : Smb2Header)
  | processed (pdu : Smb2Pdu)

structure World where
  smb2 : Smb2Context
  socket : Smb2Socket := {}
  mem : Memory := {}
  trace : List Event := []

namespace World

def log (w : World) (event : Event) : World := { w with trace := event :: w.trace }

def isConnected (w : World) : Bool := w.socket.bConnected

def setErrorMsg (w : World) (address : Nat) (msg : String) : World :=
  { w with mem := w.mem.setApp address { w.mem.app address with errMsg := msg } }

def setNtStatus (w : World) (address : Nat) (status : NtStatus) : World :=
  { w with mem := w.mem.setApp address { w.mem.app address with ntStatus := status } }

def setStatusMsg (w : World) (address : Nat) (status : NtStatus) (msg : String) : World :=
  { w with mem := w.mem.setApp address { w.mem.app address with ntStatus := status, errMsg := msg } }

def endSendReceive (w : World) : World := { w with smb2 := { w.smb2 with isComplete := true } }

end World

/-- Nothing that the queues of requests, their numbers and their credits depend on differs between
two worlds, nor do the socket and the handles that requests are about. -/
structure SameQueues (w w' : World) : Prop where
  outqueue : w'.smb2.outqueue = w.smb2.outqueue
  waitqueue : w'.smb2.waitqueue = w.smb2.waitqueue
  credits : w'.smb2.credits = w.smb2.credits
  messageId : w'.smb2.messageId = w.smb2.messageId
  isComplete : w'.smb2.isComplete = w.smb2.isComplete
  socket : w'.socket = w.socket
  trace : w'.trace = w.trace
  fh : ∀ address, (w'.mem.app address).fh = (w.mem.app address).fh

namespace SameQueues

theorem refl (w : World) : SameQueues w w := ⟨rfl, rfl, rfl, rfl, rfl, rfl, rfl, fun _ => rfl⟩

theorem trans {w w' w'' : World} (h : SameQueues w w') (h' : SameQueues w' w'') :
    SameQueues w w'' where
  outqueue := h'.outqueue.trans h.outqueue
  waitqueue := h'.waitqueue.trans h.waitqueue
  credits := h'.credits.trans h.credits
  messageId := h'.messageId.trans h.messageId
  isComplete := h'.isComplete.trans h.isComplete
  socket := h'.socket.trans h.socket
  trace := h'.trace.trans h.trace
  fh := fun address => (h'.fh address).trans (h.fh address)

/-- A change of the memory that keeps the handles. -/
theorem setApp (w : World) (address : Nat) (data : AppData) (h : data.fh = (w.mem.app address).fh) :
    SameQueues w { w with mem := w.mem.setApp address data } := by
  refine ⟨rfl, rfl, rfl, rfl, rfl, rfl, rfl, fun a => ?_⟩
  simp only [Memory.setApp]
  split_ifs with ha
  · rw [h, ha]
  · rfl

theorem setErrorMsg (w : World) (address : Nat) (msg : String) :
    SameQueues w (w.setErrorMsg address msg) := setApp w address _ rfl

theorem setNtStatus (w : World) (address : Nat) (status : NtStatus) :
    SameQueues w (w.setNtStatus address status) := setApp w address _ rfl

theorem setStatusMsg (w : World) (address : Nat) (status : NtStatus) (msg : String) :
    SameQueues w (w.setStatusMsg address status msg) := setApp w address _ rfl

end SameQueues

/-- What `close` does to the fields of the context itself. -/
def Smb2Context.reset (smb2 : Smb2Context) : Smb2Context :=
  { smb2 with
    authenticator := none
    messageId := 0
    sessionId := 0
    treeId := 0
    signingKey := List.replicate smb2KeySize 0
    sessionKey := none
    sessionKeySize := 0 }

def World.close (w : World) : World :=
  { w with smb2 := w.smb2.reset, socket := {} }.log .closed

/-! ### Building requests -/

/-- The commands whose requests are charged by the size of their payload. -/
def Smb2Command.multiCredit : Smb2Command → Bool
  | .read | .write | .ioctl | .queryDirectory => true
  | _ => false

/-- A new PDU, as the constructor leaves it. -/
def Smb2Pdu.new (smb2 : Smb2Context) (command : Smb2Command) (appData : Nat) : Smb2Pdu where
  command
  appData
  header := {
    protocolId := magic
    structSize := UInt16.ofNat smb2HeaderSize
    creditCharge :=
      if smb2.dialect = smb2Version0202 then 0 else if command = .negotiate then 0 else 1
    command := command.code
    creditRequestResponse := (maxCredits - smb2.credits).toUInt16
    processId := 0xFEFF
    treeId :=
      match command with
      | .negotiate | .sessionSetup | .logoff | .echo => 0
      | _ => smb2.treeId
    sessionId := if command = .negotiate then 0 else smb2.sessionId }
  out := Smb2IoVectors.smb2AddIovector {} (List.replicate smb2HeaderSize 0)

/-- What a request is built from: its command, the caller's data, the io vectors `encodeRequest`
adds, and the payload size that a multi-credit request is charged for. -/
structure RequestSpec where
  command : Smb2Command
  appData : Nat
  body : List Bytes
  payloadLength : UInt32 := 0
  requestedInfoType : UInt8 := 0
  requestedInfoClass : UInt8 := 0

def createPdu (smb2 : Smb2Context) (spec : RequestSpec) : Smb2Pdu :=
  let pdu := Smb2Pdu.new smb2 spec.command spec.appData
  let header :=
    if smb2.supportsMultiCredit ∧ spec.command.multiCredit then
      { pdu.header with creditCharge := ((spec.payloadLength - 1) / 65536 + 1).toUInt16 }
    else pdu.header
  { pdu with
    header
    out := (spec.body.foldl Smb2IoVectors.smb2AddIovector pdu.out).smb2PadTo64bit
    requestedInfoType := spec.requestedInfoType
    requestedInfoClass := spec.requestedInfoClass }

/-- A request with the requests compounded behind it. -/
def createChain (smb2 : Smb2Context) (first : RequestSpec) (others : List RequestSpec) : PduChain :=
  others.foldl (fun chain spec => chain.smb2AddCompoundPdu (createPdu smb2 spec))
    { head := createPdu smb2 first }

theorem iovs_createPdu (smb2 : Smb2Context) (spec : RequestSpec) :
    ∃ pad, (createPdu smb2 spec).out.iovs = List.replicate smb2HeaderSize 0 :: (spec.body ++ pad) := by
  have hfoldl (v : Smb2IoVectors) :
      (spec.body.foldl Smb2IoVectors.smb2AddIovector v).iovs = v.iovs ++ spec.body :=
    Smb2IoVectors.iovs_smb2AppendIovectors v ⟨0, spec.body⟩
  simp only [createPdu, Smb2IoVectors.smb2PadTo64bit]
  split_ifs
  · exact ⟨[], by rw [hfoldl, List.append_nil]; rfl⟩
  · exact ⟨[_], by rw [Smb2IoVectors.smb2AddIovector, hfoldl]; rfl⟩

theorem counted_createPdu (smb2 : Smb2Context) (spec : RequestSpec) :
    (createPdu smb2 spec).out.Counted := by
  have hnew : (Smb2Pdu.new smb2 spec.command spec.appData).out.Counted := rfl
  exact (hnew.foldl spec.body).smb2PadTo64bit

/-- A property of requests that linking does not touch holds in a chain when it holds of each
request built for it. -/
theorem forall_mem_createChain {smb2 : Smb2Context} {P : Smb2Pdu → Prop}
    (hrelink : ∀ p nextCommand flags, P p → P (p.relink nextCommand flags))
    (first : RequestSpec) {others : List RequestSpec}
    (h : ∀ spec ∈ first :: others, P (createPdu smb2 spec)) :
    ∀ p ∈ (createChain smb2 first others).members, P p := by
  obtain ⟨hfirst, hothers⟩ := List.forall_mem_cons.mp h
  have hfold : ∀ (specs : List RequestSpec) (chain : PduChain), (∀ p ∈ chain.members, P p) →
      (∀ spec ∈ specs, P (createPdu smb2 spec)) →
      ∀ p ∈ (specs.foldl (fun chain spec => chain.smb2AddCompoundPdu (createPdu smb2 spec))
        chain).members, P p := by
    intro specs
    induction specs with
    | nil => exact fun chain hchain _ => hchain
    | cons spec specs ih =>
        intro chain hchain hspecs
        obtain ⟨hspec, hspecs⟩ := List.forall_mem_cons.mp hspecs
        refine ih _ (fun p hp => ?_) hspecs
        rw [PduChain.members_smb2AddCompoundPdu, List.mem_append, List.mem_pair] at hp
        rcases hp with hp | rfl | rfl
        · exact hchain p ((List.dropLast_subset _ hp))
        · exact hrelink _ _ _ (hchain _ chain.last_mem_members)
        · exact hrelink _ _ _ hspec
  refine hfold others _ (fun p hp => ?_) hothers
  rw [PduChain.members, List.mem_singleton] at hp
  exact hp ▸ hfirst

theorem counted_createChain (smb2 : Smb2Context) (first : RequestSpec) (others : List RequestSpec) :
    ∀ p ∈ (createChain smb2 first others).members, p.out.Counted :=
  forall_mem_createChain (fun _ _ _ h => h) first fun spec _ => counted_createPdu smb2 spec

/-! ### Queueing -/

/-- Number the request and write its header, skipping the ids a multi-credit request covers. -/
def encodeHeader (smb2 : Smb2Context) (pdu : Smb2Pdu) : Smb2Context × Smb2Pdu :=
  let header := { pdu.header with messageId := smb2.messageId }
  let next := smb2.messageId + 1
  let next := if header.creditCharge > 1 then next + (header.creditCharge - 1).toUInt64 else next
  ({ smb2 with messageId := next },
   { pdu with header, out := { pdu.out with iovs := pdu.out.iovs.modify 0 header.write } })

/-- Combine the io vectors into one buffer. Its size so far, `offset`, is an `int`: when it is
negative, a reallocation asks for an enormous size and fails, or the copy is to a place before the
buffer. -/
def combineIovs (overrun : Bytes) (offset : Int) (msg : Bytes) : List Bytes → Option Bytes
  | [] => some (if offset < 0 then overrun else msg.take offset.toNat)
  | v :: iovs =>
      if offset + v.length < 0 then none
      else if offset < 0 then some overrun
      else combineIovs overrun (toInt32 (offset + v.length)) (msg.take offset.toNat ++ v) iovs

def smb2PduAddSignature (env : Env) (smb2 : Smb2Context) (pdu : Smb2Pdu) : Except String Smb2Pdu :=
  if pdu.command = .sessionSetup then .ok pdu
  else if pdu.out.iovs.length < 2 then .error "smb2_pdu_add_signature: Too few vectors to sign"
  else if (pdu.out.iovs.headD []).length ≠ smb2HeaderSize then
    .error "smb2_pdu_add_signature: First vector is not same size as smb2 header"
  else if smb2.sessionId = 0 then .ok pdu
  else if smb2.sessionKeySize = 0 then .error ""
  else
    let flags := pdu.header.flags ||| smb2FlagsSigned
    let iovs := pdu.out.iovs.modify 0 fun iov => smb2SetUint32 iov 16 flags
    let msg := combineIovs (env.overrun iovs) 0 [] iovs
    if smb2.dialect > smb2Version0210 ∧ (env.alloc .signBuffer smb2 = false ∨ msg = none) then
      .error "smb2_pdu_add_signature: Failed to re-allocate buffer"
    else
      let mac :=
        if smb2.dialect > smb2Version0210 then env.aesCmac128 smb2.signingKey (msg.getD [])
        else env.hmacSha256 smb2.signingKey iovs.flatten
      let signature := mac.take smb2SignatureSize
      .ok { pdu with
        header := { pdu.header with flags, signature }
        out := { pdu.out with iovs := iovs.modify 0 fun iov => memcpy iov 48 signature } }

/-- Encode, and sign where it is required, the members of a chain one after the other. The first
component is the error that stopped the loop, the last one the members encoded until then. -/
def encodeMembers (env : Env) :
    Smb2Context → List Smb2Pdu → Option String × Smb2Context × List Smb2Pdu
  | smb2, [] => (none, smb2, [])
  | smb2, pdu :: pdus =>
      let (smb2, pdu) := encodeHeader smb2 pdu
      match if smb2.signingRequired ≠ 0 then smb2PduAddSignature env smb2 pdu else .ok pdu with
      | .error err => (some err, smb2, [pdu])
      | .ok pdu =>
          let (err, smb2, pdus) := encodeMembers env smb2 pdus
          (err, smb2, pdu :: pdus)

/-- Queue a chain under the message id of its head; the error when one of its members could not be
signed. -/
def smb2QueuePdu (env : Env) (w : World) (chain : PduChain) : Option String × World :=
  match encodeMembers env w.smb2 chain.members with
  | (some err, smb2, encoded) => (some err, { w with smb2 }.log (.queueFailed encoded))
  | (none, smb2, encoded) =>
      let chain : PduChain := ⟨encoded.headD chain.head, encoded.tail⟩
      (none, { w with smb2 := { smb2 with
        outqueue := smb2.outqueue.insert chain.head.messageId chain } }.log (.queued chain))

/-! ### Matching and sending -/

/-- Take the request with a message id out of the queue of waiting requests. -/
def smb2FindPdu (smb2 : Smb2Context) (messageId : UInt64) : Option Smb2Pdu × Smb2Context :=
  match smb2.waitqueue.lookup messageId.toNat with
  | some pdu => (some pdu, { smb2 with waitqueue := smb2.waitqueue.erase messageId.toNat })
  | none => (none, smb2)

def smb2PduAddToWaitqueue : List Smb2Pdu → World → World
  | [], w => w
  | pdu :: pdus, w =>
      smb2PduAddToWaitqueue pdus <|
        { w with smb2 := { w.smb2 with
            credits := w.smb2.credits - pdu.header.creditCharge.toUInt32
            waitqueue := w.smb2.waitqueue.insert pdu.messageId pdu } }.log (.sent w.smb2.credits pdu)

end CodeStudy.Samba
