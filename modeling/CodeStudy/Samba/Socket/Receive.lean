import CodeStudy.Base.Loop
import CodeStudy.Samba.ClientStep

/-!
# Receiving replies

`receivePdus` reads one frame: its length, and then the replies chained in it, each with a header, a
fixed part, an optional variable part and padding. The code is a loop around one read, with a state
that says what is being read and a jump back at the end of every phase. A reply is matched to its
request when its header is complete and processed when everything up to the next reply is read.

Reads are those of a connection that delivers the bytes it is asked for as long as there are any.
The counts of bytes are exact here; the one sum that wraps in the program, the 32-bit length of the
frame plus four, is kept.
-/

namespace CodeStudy.Samba

/-- What is being read, with the request the reply belongs to once that is known. -/
inductive Smb2RecvState where
  | recvSpl
  | recvHeader
  | recvFixed (pdu : Smb2Pdu)
  | recvVariable (pdu : Smb2Pdu)
  | recvPad (pdu : Smb2Pdu)

structure RecvState where
  recvState : Smb2RecvState := .recvSpl
  /-- The length of the vector to read next, signed as it was computed. -/
  readLen : Int := smb2SplSize
  spl : UInt32 := 0
  hdr : Smb2Header := {}
  payloadOffset : Int := 0
  totalBytesRead : Int := 0
  /-- The bytes taken from the stream since the call began; not a variable of the program. -/
  consumed : Nat := 0
  world : World

/-- How a call ends: it returns, with a message unless the failure is one of `readIovec`, or its
behaviour is undefined. -/
inductive Received where
  | returned (ret : Int) (error : Option String) (consumed : Nat) (world : World)
  | undefined

/-- `readIovec` on a vector of the given length. No call can ask for more than `SSIZE_MAX` bytes. -/
def readExact (socket : Smb2Socket) (len : UInt64) : Int × Bytes × Smb2Socket :=
  match socket.fd with
  | none => if len = 0 then (0, [], socket) else (-1, [], socket)
  | some conn =>
      if len.toNat ≤ conn.rx.length ∧ len.toNat < 2 ^ 63 then
        (toInt32 len.toNat, conn.rx.take len.toNat,
          { socket with fd := some { conn with rx := conn.rx.drop len.toNat } })
      else (-1, [], { socket with fd := some { conn with rx := [] } })

/-- The number of bytes of the frame, as the program computes it. -/
def frameSize (spl : UInt32) : Nat := (spl + UInt32.ofNat smb2SplSize).toNat

namespace RecvState

/-- The bytes between what was read of this reply and the next one, or the end of the frame. -/
def padBytes (s : RecvState) : Int :=
  if s.hdr.nextCommand ≠ 0 then
    s.hdr.nextCommand.toNat - (smb2HeaderSize + s.totalBytesRead - s.payloadOffset)
  else frameSize s.spl - s.totalBytesRead

def fail (s : RecvState) (msg : String) : Step RecvState Received :=
  .done (.returned (-1) (some ("receivePdus: " ++ msg)) s.consumed s.world)

def read (s : RecvState) (recvState : Smb2RecvState) (readLen : Int) : RecvState :=
  { s with recvState, readLen }

/-- Save a vector that was read for a reply. -/
def save (pdu : Smb2Pdu) (bytes : Bytes) : Smb2Pdu :=
  { pdu with inVecs := pdu.inVecs.smb2AddIovector bytes }

/-- A reply is complete: process it and go on with the next one in the frame. -/
def finish (env : Env) (s : RecvState) (pdu : Smb2Pdu) : Step RecvState Received :=
  if s.hdr.status = NtStatus.pending then .done (.returned 0 none s.consumed s.world)
  else
    let isChained : Bool := s.hdr.nextCommand ≠ 0
    let pdu := if isChained then { pdu with bIsLastInCompound := false } else pdu
    match smb2ProcessReplyAndAppData env (s.world.log (.processed pdu)) pdu with
    | none => .done .undefined
    | some world =>
        if isChained then .next ({ s with world }.read .recvHeader smb2HeaderSize)
        else .done (.returned 0 none s.consumed world)

def checkPadding (env : Env) (s : RecvState) (pdu : Smb2Pdu) (part : String) :
    Step RecvState Received :=
  if s.padBytes < 0 then
    s.fail ("Negative number of PAD bytes received during PDU decode for " ++ part ++ " part")
  else if s.padBytes > 0 then .next (s.read (.recvPad pdu) s.padBytes)
  else s.finish env pdu

/-- A header was matched to its request. What follows an interim reply is skipped to the end of the
frame, like padding; of any other reply the fixed part is read next. -/
def startReply (s : RecvState) (hdr : Smb2Header) (request : Smb2Pdu) (smb2 : Smb2Context)
    (bytes : Bytes) : RecvState :=
  let pdu := save ({ request with respNBLength := s.spl }.setResponseHeader hdr) bytes
  let offset := s.totalBytesRead.toNat - smb2HeaderSize
  let world := { s.world with smb2 := { smb2 with
    credits := smb2.credits + hdr.creditRequestResponse.toUInt32 } }.log
      (.header offset hdr s.world.smb2.credits request)
  let s := { s with hdr, payloadOffset := s.totalBytesRead, world }
  if hdr.status = NtStatus.pending then s.read (.recvPad pdu) (frameSize s.spl - s.totalBytesRead)
  else s.read (.recvFixed pdu) pdu.smb2ReplyGetFixedSize

def onHeader (s : RecvState) (bytes : Bytes) : Step RecvState Received :=
  match decodeHeader bytes with
  | none => s.fail "decodeHeader: IO vector for header is of wrong size"
  | some hdr =>
      if hdr.protocolId ≠ magic then s.fail "Received non-SMB2 blob"
      else if hdr.flags &&& smb2FlagsServerToRedir = 0 then s.fail "Received non-reply"
      else
        match smb2FindPdu s.world.smb2 hdr.messageId with
        | (none, _) => { s with world := s.world.log (.rejected hdr) }.fail "No matching PDU found"
        | (some request, smb2) => .next (s.startReply hdr request smb2 bytes)

def onFixed (env : Env) (s : RecvState) (pdu : Smb2Pdu) (bytes : Bytes) : Step RecvState Received :=
  match smb2ReplyProcessFixed s.world (save pdu bytes) with
  | (varSize, pdu, world) =>
      let s := { s with world }
      if varSize < 0 then
        s.fail ("Failed to parse fixed part of response - " ++ (world.mem.app pdu.appData).errMsg)
      else if varSize > 0 then .next (s.read (.recvVariable pdu) varSize)
      else s.checkPadding env pdu "fixed"

def onVariable (env : Env) (s : RecvState) (pdu : Smb2Pdu) (bytes : Bytes) :
    Step RecvState Received :=
  match smb2ReplyProcessVariable env s.world (save pdu bytes) with
  | (ret, pdu, world) =>
      let s := { s with world }
      if ret < 0 then
        s.fail ("Failed to parse variable part of response - " ++ (world.mem.app pdu.appData).errMsg)
      else s.checkPadding env pdu "variable"

/-- What is done with the bytes of a phase that was read completely. -/
def onBytes (env : Env) (s : RecvState) (bytes : Bytes) : Step RecvState Received :=
  match s.recvState with
  | .recvSpl =>
      let spl := UInt32.ofNat (beNat bytes)
      .next ({ s with spl, world := s.world.log (.frame spl) }.read .recvHeader smb2HeaderSize)
  | .recvHeader => s.onHeader bytes
  | .recvFixed pdu => s.onFixed env pdu bytes
  | .recvVariable pdu => s.onVariable env pdu bytes
  | .recvPad pdu => s.finish env (save pdu bytes)

end RecvState

/-- One round of the loop: read the next vector and act on it. -/
def recvStep (env : Env) (s : RecvState) : Step RecvState Received :=
  match readExact s.world.socket (UInt64.ofInt s.readLen) with
  | (bytesRead, bytes, socket) =>
      let world := { s.world with socket }
      if bytesRead < 0 then .done (.returned bytesRead none s.consumed world)
      else
        { s with
          totalBytesRead := s.totalBytesRead + bytesRead
          consumed := s.consumed + bytes.length
          world }.onBytes env bytes

/-! ### Reading -/

def Smb2Socket.rx (socket : Smb2Socket) : Bytes := (socket.fd.map Connection.rx).getD []

/-- A read fails, or it takes what was asked for. -/
theorem readExact_cases (socket : Smb2Socket) (len : UInt64) :
    ∃ socket' : Smb2Socket, socket'.fd.isSome = socket.fd.isSome ∧
      (readExact socket len = (-1, [], socket') ∨
        (len.toNat ≤ socket.rx.length ∧ len.toNat < 2 ^ 63 ∧
          socket'.rx = socket.rx.drop len.toNat ∧
          readExact socket len = (toInt32 len.toNat, socket.rx.take len.toNat, socket'))) := by
  rw [readExact]
  cases hfd : socket.fd with
  | none =>
      refine ⟨socket, by rw [hfd], ?_⟩
      split_ifs with hlen
      · have hrx : socket.rx = [] := by simp [Smb2Socket.rx, hfd]
        simp [hlen, hrx, toInt32]
      · exact Or.inl rfl
  | some conn =>
      have hrx : socket.rx = conn.rx := by simp [Smb2Socket.rx, hfd]
      by_cases hlen : len.toNat ≤ conn.rx.length ∧ len.toNat < 2 ^ 63
      · refine ⟨{ socket with fd := some { conn with rx := conn.rx.drop len.toNat } }, rfl,
          Or.inr ⟨hrx ▸ hlen.1, hlen.2, by rw [hrx]; rfl, ?_⟩⟩
        simp only [if_pos hlen, hrx]
      · exact ⟨{ socket with fd := some { conn with rx := [] } }, rfl, Or.inl (if_neg hlen)⟩

/-- The state once the bytes of a phase are read. -/
def RecvState.afterRead (s : RecvState) (len : UInt64) (socket : Smb2Socket) : RecvState :=
  { s with
    totalBytesRead := s.totalBytesRead + toInt32 len.toNat
    consumed := s.consumed + len.toNat
    world := { s.world with socket } }

/-- A round of the loop fails to read, or acts on exactly the bytes it asked for. -/
theorem recvStep_cases (env : Env) (s : RecvState) :
    ∃ socket : Smb2Socket, socket.fd.isSome = s.world.socket.fd.isSome ∧
      ((∃ ret < 0, recvStep env s = .done (.returned ret none s.consumed { s.world with socket })) ∨
        (0 ≤ toInt32 (UInt64.ofInt s.readLen).toNat ∧
          (UInt64.ofInt s.readLen).toNat ≤ s.world.socket.rx.length ∧
          socket.rx = s.world.socket.rx.drop (UInt64.ofInt s.readLen).toNat ∧
          recvStep env s = (s.afterRead (UInt64.ofInt s.readLen) socket).onBytes env
            (s.world.socket.rx.take (UInt64.ofInt s.readLen).toNat))) := by
  obtain ⟨socket, hopen, hread | ⟨hle, -, hrx, hread⟩⟩ :=
    readExact_cases s.world.socket (UInt64.ofInt s.readLen)
  · refine ⟨socket, hopen, Or.inl ⟨-1, by decide, ?_⟩⟩
    simp only [recvStep, hread]
    rfl
  · refine ⟨socket, hopen, ?_⟩
    simp only [recvStep, hread]
    split_ifs with hneg
    · exact Or.inl ⟨_, hneg, rfl⟩
    · refine Or.inr ⟨not_lt.mp hneg, hle, hrx, ?_⟩
      rw [RecvState.afterRead, List.length_take, Nat.min_eq_left hle]

/-- A read of bytes that are there succeeds. -/
theorem readExact_of_le {socket : Smb2Socket} {len : UInt64} (hpos : 0 < len.toNat)
    (hle : len.toNat ≤ socket.rx.length) (hlt : len.toNat < 2 ^ 63) :
    ∃ socket', readExact socket len = (toInt32 len.toNat, socket.rx.take len.toNat, socket') := by
  cases hfd : socket.fd with
  | none =>
      rw [Smb2Socket.rx, hfd] at hle
      exact absurd hle (not_le.mpr hpos)
  | some conn =>
      have hrx : socket.rx = conn.rx := by simp [Smb2Socket.rx, hfd]
      rw [hrx] at hle ⊢
      refine ⟨{ socket with fd := some { conn with rx := conn.rx.drop len.toNat } }, ?_⟩
      simp only [readExact, hfd, if_pos (And.intro hle hlt)]

/-- A round acts on bytes that are there. -/
theorem recvStep_of_le (env : Env) {s : RecvState} (hpos : 0 < (UInt64.ofInt s.readLen).toNat)
    (hle : (UInt64.ofInt s.readLen).toNat ≤ s.world.socket.rx.length)
    (hlt : (UInt64.ofInt s.readLen).toNat < 2 ^ 31) :
    ∃ socket, recvStep env s = (s.afterRead (UInt64.ofInt s.readLen) socket).onBytes env
      (s.world.socket.rx.take (UInt64.ofInt s.readLen).toNat) := by
  obtain ⟨socket, hread⟩ := readExact_of_le hpos hle (hlt.trans (by decide))
  have hint : toInt32 (UInt64.ofInt s.readLen).toNat = (UInt64.ofInt s.readLen).toNat :=
    toInt32_of_lt (Int.natCast_nonneg _) (by exact_mod_cast hlt)
  refine ⟨socket, ?_⟩
  simp only [recvStep, hread]
  rw [if_neg (by omega), RecvState.afterRead, List.length_take, Nat.min_eq_left hle]

/-- A length that fits is read as it is, when it is read at all. -/
theorem toNat_readLen {len : Int} (h0 : 0 ≤ len) (h : len < 2 ^ 32)
    (hread : 0 ≤ toInt32 (UInt64.ofInt len).toNat) :
    ((UInt64.ofInt len).toNat : Int) = len ∧ toInt32 (UInt64.ofInt len).toNat = len := by
  obtain ⟨n, rfl⟩ := Int.eq_ofNat_of_zero_le h0
  have hn : (UInt64.ofInt n).toNat = n := by
    rw [uint64_ofInt_natCast, toNat_ofNat_uint64 (by omega)]
  rw [hn] at hread ⊢
  refine ⟨rfl, toInt32_of_lt h0 ?_⟩
  by_contra hlarge
  exact absurd (toInt32_neg (not_lt.mp hlarge) h) (not_lt.mpr hread)

/-! ### The events of a frame -/

/-- The offset in its frame and the header of an event, when it is one of a header. -/
def Event.header? : Event → Option (Nat × Smb2Header)
  | .header offset hdr _ _ => some (offset, hdr)
  | _ => none

/-- The headers among some events, newest first. -/
def headersIn (evs : List Event) : List (Nat × Smb2Header) := evs.filterMap Event.header?

/-- Where the next header of the frame begins. -/
def nextOffset : List (Nat × Smb2Header) → Nat
  | [] => smb2SplSize
  | (offset, hdr) :: _ => offset + hdr.nextCommand.toNat

/-- Every header begins where the header before it says. -/
def HeadersAligned : List (Nat × Smb2Header) → Prop
  | [] => True
  | (offset, _) :: older => offset = nextOffset older ∧ HeadersAligned older

/-- Every header that is not an interim one was followed at once by the processing of the request it
was matched to, and nothing else was processed. -/
inductive Dispatched : List Event → Prop where
  | nil : Dispatched []
  | other {event : Event} {evs : List Event} (h : event.isReply = false) (hevs : Dispatched evs) :
      Dispatched (event :: evs)
  | processed {offset : Nat} {hdr : Smb2Header} {credits : UInt32} {request pdu : Smb2Pdu}
      {evs : List Event} (hfinal : hdr.status ≠ NtStatus.pending)
      (hanswer : AnswerTo request hdr pdu) (hevs : Dispatched evs) :
      Dispatched (.processed pdu :: .header offset hdr credits request :: evs)
  | interim {offset : Nat} {hdr : Smb2Header} {credits : UInt32} {request : Smb2Pdu}
      {evs : List Event} (hpending : hdr.status = NtStatus.pending) (hevs : Dispatched evs) :
      Dispatched (.header offset hdr credits request :: evs)

theorem Dispatched.append {evs more : List Event} (h : Dispatched evs)
    (hmore : ∀ event ∈ more, event.isReply = false) : Dispatched (more ++ evs) := by
  induction more with
  | nil => exact h
  | cons event more ih =>
      obtain ⟨hevent, hmore⟩ := List.forall_mem_cons.mp hmore
      exact .other hevent (ih hmore)

theorem headersIn_append {evs more : List Event} (hmore : ∀ event ∈ more, event.isReply = false) :
    headersIn (more ++ evs) = headersIn evs := by
  have hnone : more.filterMap Event.header? = [] := by
    rw [List.filterMap_eq_nil_iff]
    intro event hevent
    have hplain := hmore event hevent
    cases event with
    | header => exact absurd hplain (by simp [Event.isReply])
    | _ => rfl
  rw [headersIn, List.filterMap_append, hnone, List.nil_append, headersIn]

/-! ### The replies of a frame -/

/-- One reply of a frame that is dealt with: an interim one is dropped, any other one is processed
for the request it was matched to. -/
inductive ReplyStep (env : Env) (w : World) : World → Prop where
  | quiet {w' : World} (h : Quiet w w') : ReplyStep env w w'
  | interim (offset : Nat) {hdr : Smb2Header} {request : Smb2Pdu}
      (hwaiting : w.smb2.waitqueue.lookup hdr.messageId.toNat = some request)
      (hpending : hdr.status = NtStatus.pending) : ReplyStep env w (w.accept offset hdr request)
  | handled (offset : Nat) {hdr : Smb2Header} {request pdu : Smb2Pdu} {w₁ w' : World}
      (hwaiting : w.smb2.waitqueue.lookup hdr.messageId.toNat = some request)
      (hfinal : hdr.status ≠ NtStatus.pending)
      (hquiet : Quiet (w.accept offset hdr request) w₁) (hanswer : AnswerTo request hdr pdu)
      (hhandler : smb2ProcessReplyAndAppData env (w₁.log (.processed pdu)) pdu = some w') :
      ReplyStep env w w'

/-- The replies of one frame, one after the other. -/
def FrameReplies (env : Env) (w w' : World) : Prop :=
  ∃ w₀ spl, Quiet w w₀ ∧ Relation.ReflTransGen (ReplyStep env) (w₀.log (.frame spl)) w'

theorem FrameReplies.tail {env : Env} {w w₁ w' : World} (h : FrameReplies env w w₁)
    (hstep : ReplyStep env w₁ w') : FrameReplies env w w' := by
  obtain ⟨w₀, spl, hquiet, hsteps⟩ := h
  exact ⟨w₀, spl, hquiet, hsteps.tail hstep⟩

/-! ### The invariant of the loop -/

section

variable (env : Env) (w : World)

/-- What holds in every state of a call that began in the world `w`. -/
structure Progress (s : RecvState) : Prop where
  acts : Acts env w s.world
  consumed : (s.consumed : Int) = s.totalBytesRead
  spl : s.spl = UInt32.ofNat (beNat (w.socket.rx.take smb2SplSize))

/-- The replies so far are dealt with and the next header is due. -/
structure Between (s : RecvState) : Prop extends Progress env w s where
  replies : FrameReplies env w s.world
  events : ∃ evs, s.world.trace = evs ++ w.trace ∧ Dispatched evs ∧
    HeadersAligned (headersIn evs) ∧ s.totalBytesRead = nextOffset (headersIn evs)

/-- The reply whose header came last is being read, for the request it was matched to. -/
structure Replying (s : RecvState) (pdu : Smb2Pdu) : Prop extends Progress env w s where
  accepted : ∃ w₁ offset request, FrameReplies env w w₁ ∧
    w₁.smb2.waitqueue.lookup s.hdr.messageId.toNat = some request ∧
    Quiet (w₁.accept offset s.hdr request) s.world ∧ AnswerTo request s.hdr pdu
  events : ∃ offset credits request older,
    s.world.trace = .header offset s.hdr credits request :: older ++ w.trace ∧ Dispatched older ∧
      HeadersAligned ((offset, s.hdr) :: headersIn older) ∧ AnswerTo request s.hdr pdu ∧
      s.payloadOffset = offset + smb2HeaderSize
  payload : smb2SplSize + smb2HeaderSize ≤ s.payloadOffset
  read : s.payloadOffset ≤ s.totalBytesRead

/-- The state at the beginning of each round. -/
def RecvInv (s : RecvState) : Prop :=
  match s.recvState with
  | .recvSpl => s.world = w ∧ s.consumed = 0 ∧ s.totalBytesRead = 0 ∧ s.readLen = smb2SplSize
  | .recvHeader => Between env w s ∧ s.readLen = smb2HeaderSize
  | .recvFixed pdu | .recvVariable pdu =>
      Replying env w s pdu ∧ s.hdr.status ≠ NtStatus.pending ∧ 0 < s.readLen ∧ s.readLen < 2 ^ 31
  | .recvPad pdu =>
      Replying env w s pdu ∧
        ((s.hdr.status = NtStatus.pending ∧ s.readLen = frameSize s.spl - s.totalBytesRead) ∨
          (s.hdr.status ≠ NtStatus.pending ∧ s.readLen = s.padBytes ∧ 0 < s.readLen))

end

/-- What is known of a call that began in `w` and returned. -/
structure Returned (env : Env) (w : World) (ret : Int) (w' : World) : Prop where
  acts : Acts env w w'
  replies : ret = 0 → FrameReplies env w w'
  events : ∃ evs, w'.trace = evs ++ w.trace ∧ HeadersAligned (headersIn evs) ∧
    (Dispatched evs ∨ (ret ≠ 0 ∧ ∃ offset hdr credits request older,
      evs = .header offset hdr credits request :: older ∧ Dispatched older))

section

variable {env : Env} {w : World} {s s' : RecvState} {pdu pdu' : Smb2Pdu}

theorem AnswerTo.update {request : Smb2Pdu} {hdr : Smb2Header} (h : AnswerTo request hdr pdu)
    (hpdu : AnswerTo pdu pdu.headerResp pdu') : AnswerTo request hdr pdu' :=
  ⟨hpdu.command.trans h.command, hpdu.header.trans h.header, hpdu.appData.trans h.appData,
    hpdu.headerResp.trans h.headerResp⟩

theorem Replying.update (h : Replying env w s pdu) (hspl : s'.spl = s.spl) (hhdr : s'.hdr = s.hdr)
    (hpayload : s'.payloadOffset = s.payloadOffset) (htotal : s.totalBytesRead ≤ s'.totalBytesRead)
    (hconsumed : (s'.consumed : Int) = s'.totalBytesRead) (hworld : Quiet s.world s'.world)
    (hpdu : AnswerTo pdu pdu.headerResp pdu') : Replying env w s' pdu' := by
  obtain ⟨offset, credits, request, older, htrace, hevs, haligned, hanswer, hoffset⟩ := h.events
  exact {
    acts := h.acts.tail (.quiet hworld)
    consumed := hconsumed
    spl := hspl.trans h.spl
    accepted := by
      obtain ⟨w₁, offset, request, hreplies, hwaiting, hquiet, hanswer⟩ := h.accepted
      rw [hhdr]
      exact ⟨w₁, offset, request, hreplies, hwaiting, hquiet.trans hworld, hanswer.update hpdu⟩
    events := by
      refine ⟨offset, credits, request, older, ?_, hevs, ?_, ?_, ?_⟩
      · rw [hworld.trace, htrace, hhdr]
      · rwa [hhdr]
      · rw [hhdr]
        exact hanswer.update hpdu
      · rw [hpayload, hoffset]
    payload := by rw [hpayload]; exact h.payload
    read := by rw [hpayload]; exact h.read.trans htotal }

theorem AnswerTo.refl (pdu : Smb2Pdu) : AnswerTo pdu pdu.headerResp pdu := ⟨rfl, rfl, rfl, rfl⟩

theorem answerTo_save (pdu : Smb2Pdu) (bytes : Bytes) :
    AnswerTo pdu pdu.headerResp (RecvState.save pdu bytes) := ⟨rfl, rfl, rfl, rfl⟩

/-- The call returns while a reply is being handled: it was an interim one, or it is given up. -/
theorem Replying.returned (h : Replying env w s pdu) {w' : World} (hworld : Quiet s.world w')
    {ret : Int} (hret : ret = 0 → s.hdr.status = NtStatus.pending) : Returned env w ret w' := by
  obtain ⟨offset, credits, request, older, htrace, hevs, haligned, -, -⟩ := h.events
  obtain ⟨w₁, offset', request', hreplies, hwaiting, hquiet, -⟩ := h.accepted
  refine ⟨h.acts.tail (.quiet hworld), fun hzero => ?_, _, hworld.trace.trans htrace, haligned, ?_⟩
  · exact (hreplies.tail (.interim offset' hwaiting (hret hzero))).tail (.quiet (hquiet.trans hworld))
  by_cases hzero : ret = 0
  · exact Or.inl (.interim (hret hzero) hevs)
  · exact Or.inr ⟨hzero, offset, s.hdr, credits, request, older, rfl, hevs⟩

/-- Processing a reply, as steps and events. -/
theorem Replying.process (h : Replying env w s pdu) (hfinal : s.hdr.status ≠ NtStatus.pending)
    (hpdu : AnswerTo pdu pdu.headerResp pdu') {w' : World}
    (hhandler : smb2ProcessReplyAndAppData env (s.world.log (.processed pdu')) pdu' = some w') :
    Acts env w w' ∧ FrameReplies env w w' ∧ ∃ evs offset hdrs, w'.trace = evs ++ w.trace ∧ Dispatched evs ∧
      HeadersAligned (headersIn evs) ∧ headersIn evs = (offset, s.hdr) :: hdrs ∧
      s.payloadOffset = offset + smb2HeaderSize := by
  obtain ⟨offset, credits, request, older, htrace, hevs, haligned, hanswer, hoffset⟩ := h.events
  have hanswer' : AnswerTo request s.hdr pdu' := hanswer.update hpdu
  have heff := smb2ProcessReplyAndAppData_effect hhandler
  obtain ⟨more, hmore, hplain⟩ := heff.trace
  obtain ⟨w₁, offset', request', hreplies, hwaiting, hquiet, hrequest⟩ := h.accepted
  refine ⟨(h.acts.tail (.process htrace hfinal hanswer')).trans heff.acts,
    hreplies.tail (.handled offset' hwaiting hfinal hquiet (hrequest.update hpdu) hhandler),
    more ++ .processed pdu' :: .header offset s.hdr credits request :: older, offset,
    headersIn older, ?_, ?_, ?_, ?_, hoffset⟩
  · rw [hmore, World.log, htrace]
    simp
  · exact (Dispatched.processed hfinal hanswer' hevs).append hplain
  · rw [headersIn_append hplain]
    exact haligned
  · rw [headersIn_append hplain]
    rfl

/-- A reply is complete: the loop goes on with the next header of the frame. -/
theorem Replying.finish_next (h : Replying env w s pdu)
    (hnext : s.hdr.nextCommand ≠ 0 → s.totalBytesRead = s.payloadOffset - smb2HeaderSize +
      s.hdr.nextCommand.toNat)
    (hstep : s.finish env pdu = .next s') :
    s'.recvState = .recvHeader ∧ s'.readLen = smb2HeaderSize ∧ Between env w s' := by
  simp only [RecvState.finish] at hstep
  split at hstep
  · cases hstep
  · rename_i hfinal
    split at hstep
    · cases hstep
    · rename_i w' hhandler
      split at hstep
      · rename_i hchained
        cases hstep
        have hpdu : AnswerTo pdu pdu.headerResp (if decide (s.hdr.nextCommand ≠ 0) = true then
            { pdu with bIsLastInCompound := false } else pdu) := by
          rw [if_pos hchained]
          exact ⟨rfl, rfl, rfl, rfl⟩
        obtain ⟨hacts, hreplies, evs, offset, hdrs, htrace, hevs, haligned, hhdrs, hoffset⟩ :=
          h.process hfinal hpdu hhandler
        refine ⟨rfl, rfl, ⟨⟨hacts, h.consumed, h.spl⟩, hreplies, evs, htrace, hevs, haligned, ?_⟩⟩
        rw [hhdrs, nextOffset]
        have htotal := hnext (by simpa using hchained)
        show s.totalBytesRead = _
        push_cast
        omega
      · cases hstep

/-- A reply is complete and the call returns: the reply was an interim one or the last one. -/
theorem Replying.finish_done (h : Replying env w s pdu) {ret : Int} {err : Option String} {n : Nat}
    {w' : World} (hstep : s.finish env pdu = .done (.returned ret err n w')) :
    Returned env w ret w' ∧ n = s.consumed ∧ ret = 0 ∧
      (s.hdr.status ≠ NtStatus.pending → s.hdr.nextCommand = 0) := by
  simp only [RecvState.finish] at hstep
  split at hstep
  · rename_i hpending
    cases hstep
    exact ⟨h.returned (SameQueues.refl _).quiet fun _ => hpending, rfl, rfl,
      fun hfinal => absurd hpending hfinal⟩
  · rename_i hfinal
    split at hstep
    · cases hstep
    · rename_i hhandler
      split at hstep
      · cases hstep
      · rename_i hlast
        cases hstep
        have hpdu : AnswerTo pdu pdu.headerResp (if decide (s.hdr.nextCommand ≠ 0) = true then
            { pdu with bIsLastInCompound := false } else pdu) := by
          rw [if_neg hlast]
          exact .refl pdu
        obtain ⟨hacts, hreplies, evs, -, -, htrace, hevs, haligned, -, -⟩ :=
          h.process hfinal hpdu hhandler
        exact ⟨⟨hacts, fun _ => hreplies, evs, htrace, haligned, Or.inl hevs⟩, rfl, rfl,
          fun _ => by simpa using hlast⟩

theorem finish_of_pending (s : RecvState) (h : s.hdr.status = NtStatus.pending) :
    s.finish env pdu = .done (.returned 0 none s.consumed s.world) := if_pos h

theorem Replying.toRead (h : Replying env w s pdu) (recvState : Smb2RecvState) (readLen : Int) :
    Replying env w (s.read recvState readLen) pdu :=
  ⟨⟨h.acts, h.consumed, h.spl⟩, h.accepted, h.events, h.payload, h.read⟩

theorem Replying.checkPadding_next (h : Replying env w s pdu)
    (hfinal : s.hdr.status ≠ NtStatus.pending) {part : String}
    (hstep : s.checkPadding env pdu part = .next s') : RecvInv env w s' ∧ 0 < s'.readLen := by
  simp only [RecvState.checkPadding] at hstep
  split_ifs at hstep with hneg hpos
  · cases hstep
  · cases hstep
    exact ⟨⟨h.toRead _ _, Or.inr ⟨hfinal, rfl, hpos⟩⟩, hpos⟩
  · obtain ⟨hstate, hlen, hbetween⟩ := h.finish_next (fun hchained => by
      have hzero : s.padBytes = 0 := by omega
      rw [RecvState.padBytes, if_pos hchained] at hzero
      omega) hstep
    rw [RecvInv, hstate, hlen]
    exact ⟨⟨hbetween, rfl⟩, by decide⟩

theorem Replying.checkPadding_done (h : Replying env w s pdu)
    (hfinal : s.hdr.status ≠ NtStatus.pending) {part : String} {ret : Int} {err : Option String}
    {n : Nat} {w' : World} (hstep : s.checkPadding env pdu part = .done (.returned ret err n w')) :
    Returned env w ret w' ∧
      (ret = 0 → n = frameSize s.spl ∧ smb2SplSize + smb2HeaderSize ≤ n) := by
  simp only [RecvState.checkPadding] at hstep
  split_ifs at hstep with hneg hpos
  · cases hstep
    exact ⟨h.returned (SameQueues.refl _).quiet (by simp), by simp⟩
  · obtain ⟨hreturned, hn, -, hlast⟩ := h.finish_done hstep
    refine ⟨hreturned, fun _ => ?_⟩
    have hzero : s.padBytes = 0 := by omega
    rw [RecvState.padBytes, if_neg (not_not.mpr (hlast hfinal))] at hzero
    have hconsumed := h.consumed
    have hpayload := h.payload
    have hread := h.read
    omega

/-- The state after the bytes of a phase were read, when their number was what was asked for. -/
theorem Replying.afterRead (h : Replying env w s pdu) {len : UInt64} {socket : Smb2Socket}
    (hopen : socket.fd.isSome = s.world.socket.fd.isSome) (hlen : 0 ≤ toInt32 len.toNat)
    (hexact : (len.toNat : Int) = toInt32 len.toNat) :
    Replying env w (s.afterRead len socket) pdu := by
  refine h.update rfl rfl rfl ?_ ?_ (Quiet.setSocket _ _ hopen) (.refl pdu)
  · simp only [RecvState.afterRead]
    omega
  · have hconsumed := h.consumed
    simp only [RecvState.afterRead]
    push_cast
    omega

/-- The fixed part decoded. -/
theorem Replying.processFixed (h : Replying env w s pdu) (bytes : Bytes) :
    Replying env w { s with world := (smb2ReplyProcessFixed s.world (RecvState.save pdu bytes)).2.2 }
      (smb2ReplyProcessFixed s.world (RecvState.save pdu bytes)).2.1 := by
  obtain ⟨hsame, payload, hpdu⟩ := smb2ReplyProcessFixed_same s.world (RecvState.save pdu bytes)
  rw [hpdu]
  exact h.update rfl rfl rfl le_rfl h.consumed hsame.quiet ⟨rfl, rfl, rfl, rfl⟩

/-- The variable part decoded. -/
theorem Replying.processVariable (h : Replying env w s pdu) (bytes : Bytes) :
    Replying env w
      { s with world := (smb2ReplyProcessVariable env s.world (RecvState.save pdu bytes)).2.2 }
      (smb2ReplyProcessVariable env s.world (RecvState.save pdu bytes)).2.1 := by
  obtain ⟨hsame, payload, hpdu⟩ :=
    smb2ReplyProcessVariable_same env s.world (RecvState.save pdu bytes)
  rw [hpdu]
  exact h.update rfl rfl rfl le_rfl h.consumed hsame.quiet ⟨rfl, rfl, rfl, rfl⟩

theorem Replying.onFixed_next (h : Replying env w s pdu)
    (hfinal : s.hdr.status ≠ NtStatus.pending) {bytes : Bytes}
    (hstep : s.onFixed env pdu bytes = .next s') : RecvInv env w s' ∧ 0 < s'.readLen := by
  have hfixed := h.processFixed bytes
  have hlt := smb2ReplyProcessFixed_lt s.world (RecvState.save pdu bytes)
  simp only [RecvState.onFixed] at hstep
  split_ifs at hstep with hneg hpos
  · cases hstep
  · cases hstep
    exact ⟨⟨hfixed.toRead _ _, hfinal, hpos, hlt⟩, hpos⟩
  · exact hfixed.checkPadding_next hfinal hstep

theorem Replying.onFixed_done (h : Replying env w s pdu)
    (hfinal : s.hdr.status ≠ NtStatus.pending) {bytes : Bytes} {ret : Int} {err : Option String}
    {n : Nat} {w' : World} (hstep : s.onFixed env pdu bytes = .done (.returned ret err n w')) :
    Returned env w ret w' ∧
      (ret = 0 → n = frameSize s.spl ∧ smb2SplSize + smb2HeaderSize ≤ n) := by
  have hfixed := h.processFixed bytes
  simp only [RecvState.onFixed] at hstep
  split_ifs at hstep with hneg hpos
  · cases hstep
    exact ⟨hfixed.returned (SameQueues.refl _).quiet (by simp), by simp⟩
  · exact hfixed.checkPadding_done hfinal hstep

theorem Replying.onVariable_next (h : Replying env w s pdu)
    (hfinal : s.hdr.status ≠ NtStatus.pending) {bytes : Bytes}
    (hstep : s.onVariable env pdu bytes = .next s') : RecvInv env w s' ∧ 0 < s'.readLen := by
  have hvariable := h.processVariable bytes
  simp only [RecvState.onVariable] at hstep
  split_ifs at hstep with hneg
  · cases hstep
  · exact hvariable.checkPadding_next hfinal hstep

theorem Replying.onVariable_done (h : Replying env w s pdu)
    (hfinal : s.hdr.status ≠ NtStatus.pending) {bytes : Bytes} {ret : Int} {err : Option String}
    {n : Nat} {w' : World} (hstep : s.onVariable env pdu bytes = .done (.returned ret err n w')) :
    Returned env w ret w' ∧
      (ret = 0 → n = frameSize s.spl ∧ smb2SplSize + smb2HeaderSize ≤ n) := by
  have hvariable := h.processVariable bytes
  simp only [RecvState.onVariable] at hstep
  split_ifs at hstep with hneg
  · cases hstep
    exact ⟨hvariable.returned (SameQueues.refl _).quiet (by simp), by simp⟩
  · exact hvariable.checkPadding_done hfinal hstep

/-! ### Headers -/

/-- The header that arrives at the socket, when it is one of a reply to a waiting request. -/
structure Arrives (s : RecvState) (hdr : Smb2Header) (request : Smb2Pdu) : Prop where
  state : s.recvState = .recvHeader
  decoded : decodeHeader (s.world.socket.rx.take smb2HeaderSize) = some hdr
  isSmb2 : hdr.protocolId = magic
  isReply : hdr.flags &&& smb2FlagsServerToRedir ≠ 0
  waiting : s.world.smb2.waitqueue.lookup hdr.messageId.toNat = some request

/-- The world of a started reply is the one after the header was accepted. -/
theorem world_startReply (s : RecvState) (hdr : Smb2Header) (request : Smb2Pdu) (bytes : Bytes) :
    (s.startReply hdr request { s.world.smb2 with
      waitqueue := s.world.smb2.waitqueue.erase hdr.messageId.toNat } bytes).world =
      s.world.accept (s.totalBytesRead.toNat - smb2HeaderSize) hdr request := by
  simp only [RecvState.startReply]
  split_ifs <;> rfl

/-- A header is refused, with a message, or its reply is started. -/
theorem onHeader_cases (s : RecvState) (bytes : Bytes) :
    (∃ msg, s.onHeader bytes = s.fail msg) ∨
    (∃ hdr, s.world.smb2.waitqueue.lookup hdr.messageId.toNat = none ∧
      s.onHeader bytes = { s with world := s.world.log (.rejected hdr) }.fail "No matching PDU found") ∨
    ∃ hdr request, decodeHeader bytes = some hdr ∧ hdr.protocolId = magic ∧
      hdr.flags &&& smb2FlagsServerToRedir ≠ 0 ∧
      s.world.smb2.waitqueue.lookup hdr.messageId.toNat = some request ∧
      s.onHeader bytes = .next (s.startReply hdr request { s.world.smb2 with
        waitqueue := s.world.smb2.waitqueue.erase hdr.messageId.toNat } bytes) := by
  rw [RecvState.onHeader]
  split
  · exact Or.inl ⟨_, rfl⟩
  · rename_i hdr hdecoded
    split_ifs with hmagic hreply
    · exact Or.inl ⟨_, rfl⟩
    · exact Or.inl ⟨_, rfl⟩
    · refine Or.inr ?_
      cases hlookup : s.world.smb2.waitqueue.lookup hdr.messageId.toNat with
      | none =>
          refine Or.inl ⟨hdr, hlookup, ?_⟩
          simp only [smb2FindPdu, hlookup]
      | some request =>
          refine Or.inr ⟨hdr, request, hdecoded, not_not.mp hmagic, hreply, hlookup, ?_⟩
          simp only [smb2FindPdu, hlookup]

theorem smb2SplSize_le_nextOffset {hdrs : List (Nat × Smb2Header)} (h : HeadersAligned hdrs) :
    smb2SplSize ≤ nextOffset hdrs := by
  induction hdrs with
  | nil => exact le_rfl
  | cons hdr older ih =>
      obtain ⟨hoffset, holder⟩ := h
      exact ((ih holder).trans hoffset.ge).trans (Nat.le_add_right _ _)

/-- The reply of a header that arrived is started. -/
theorem Between.startReply (h : Between env w s) {len : UInt64} {socket : Smb2Socket}
    (hopen : socket.fd.isSome = s.world.socket.fd.isSome) (hlen : len.toNat = smb2HeaderSize)
    {hdr : Smb2Header} {request : Smb2Pdu} (bytes : Bytes)
    (hwaiting : s.world.smb2.waitqueue.lookup hdr.messageId.toNat = some request) :
    RecvInv env w ((s.afterRead len socket).startReply hdr request { s.world.smb2 with
      waitqueue := s.world.smb2.waitqueue.erase hdr.messageId.toNat } bytes) := by
  obtain ⟨evs, htrace, hevs, haligned, htotal⟩ := h.events
  have hfour := smb2SplSize_le_nextOffset haligned
  have hread : toInt32 len.toNat = smb2HeaderSize := by
    rw [hlen]
    decide
  have hconsumed := h.consumed
  set sa := s.afterRead len socket with hsa
  have hsaTotal : sa.totalBytesRead = nextOffset (headersIn evs) + smb2HeaderSize := by
    rw [hsa, RecvState.afterRead, ← htotal, ← hread]
  have hoffset : sa.totalBytesRead.toNat - smb2HeaderSize = nextOffset (headersIn evs) := by
    rw [hsaTotal]
    omega
  have hquiet : Quiet s.world sa.world := Quiet.setSocket s.world socket hopen
  have hreplying (s' : RecvState) (hspl : s'.spl = sa.spl) (hhdr : s'.hdr = hdr)
      (hpayload : s'.payloadOffset = sa.totalBytesRead)
      (htotal' : s'.totalBytesRead = sa.totalBytesRead) (hconsumed' : s'.consumed = sa.consumed)
      (hworld : s'.world = sa.world.accept (sa.totalBytesRead.toNat - smb2HeaderSize) hdr request)
      (pdu : Smb2Pdu) (hanswer : AnswerTo request hdr pdu) : Replying env w s' pdu :=
    { acts := by
        rw [hworld]
        exact (h.acts.tail (.quiet hquiet)).tail (.accept _ (by rw [hquiet.waitqueue, hwaiting]))
      consumed := by
        rw [hconsumed', htotal', hsa, RecvState.afterRead]
        push_cast
        omega
      spl := hspl.trans h.spl
      accepted := by
        rw [hhdr, hworld]
        exact ⟨sa.world, _, request, h.replies.tail (.quiet hquiet), by rw [hquiet.waitqueue, hwaiting],
          (SameQueues.refl _).quiet, hanswer⟩
      events := by
        refine ⟨nextOffset (headersIn evs), sa.world.smb2.credits, request, evs, ?_, hevs, ?_, ?_, ?_⟩
        · rw [hworld, hoffset, World.accept, World.log, hhdr]
          simp only [hquiet.trace, htrace, List.cons_append]
        · exact ⟨rfl, haligned⟩
        · rw [hhdr]
          exact hanswer
        · rw [hpayload, hsaTotal]
      payload := by rw [hpayload, hsaTotal]; omega
      read := by rw [hpayload, htotal'] }
  simp only [RecvState.startReply]
  split_ifs with hpending
  · refine ⟨?_, Or.inl ⟨hpending, rfl⟩⟩
    apply hreplying <;> first | rfl | exact ⟨rfl, rfl, rfl, rfl⟩
  · refine ⟨?_, hpending, Smb2Pdu.smb2ReplyGetFixedSize_mem _⟩
    apply hreplying <;> first | rfl | exact ⟨rfl, rfl, rfl, rfl⟩

/-- The call returns where a header is due. -/
theorem Between.returned (h : Between env w s) {w' : World} (hworld : Quiet s.world w') (ret : Int) :
    Returned env w ret w' := by
  obtain ⟨evs, htrace, hevs, haligned, -⟩ := h.events
  exact ⟨h.acts.tail (.quiet hworld), fun _ => h.replies.tail (.quiet hworld), evs,
    hworld.trace.trans htrace, haligned, Or.inl hevs⟩

/-- The call returns because no request waits for the header that arrived. -/
theorem Between.rejected (h : Between env w s) {w' : World} (hworld : Quiet s.world w')
    {hdr : Smb2Header} (hnone : s.world.smb2.waitqueue.lookup hdr.messageId.toNat = none) {ret : Int}
    (hret : ret ≠ 0) : Returned env w ret (w'.log (.rejected hdr)) := by
  obtain ⟨evs, htrace, hevs, haligned, -⟩ := h.events
  have hacts : Acts env w (w'.log (.rejected hdr)) :=
    (h.acts.tail (.quiet hworld)).tail (.reject (by rw [hworld.waitqueue, hnone]))
  refine ⟨hacts, fun hzero => absurd hzero hret, .rejected hdr :: evs, ?_, haligned,
    Or.inl (.other rfl hevs)⟩
  rw [World.log, hworld.trace, htrace, List.cons_append]

/-! ### One round -/

theorem frameSize_lt (spl : UInt32) : frameSize spl < 2 ^ 32 := UInt32.toNat_lt _

theorem RecvState.padBytes_lt {env : Env} {w : World} {s : RecvState} {pdu : Smb2Pdu}
    (h : Replying env w s pdu) : s.padBytes < 2 ^ 32 := by
  have hframe := frameSize_lt s.spl
  have hnext := s.hdr.nextCommand.toNat_lt
  have hpayload := h.payload
  have hread := h.read
  rw [RecvState.padBytes]
  split_ifs <;> omega

/-- The length of the frame was read: the first header is due. -/
theorem between_afterSpl (hworld : s.world = w) (hconsumed : s.consumed = 0)
    (htotal : s.totalBytesRead = 0) {len : UInt64} {socket : Smb2Socket}
    (hopen : socket.fd.isSome = s.world.socket.fd.isSome) (hlen : len.toNat = smb2SplSize) :
    Between env w ({ s.afterRead len socket with
      spl := UInt32.ofNat (beNat (w.socket.rx.take smb2SplSize))
      world := (s.afterRead len socket).world.log
        (.frame (UInt32.ofNat (beNat (w.socket.rx.take smb2SplSize)))) }.read
          .recvHeader smb2HeaderSize) := by
  have hread : s.totalBytesRead + toInt32 len.toNat = smb2SplSize := by
    rw [htotal, hlen]
    decide
  have hquiet : Quiet w (s.afterRead len socket).world :=
    hworld ▸ Quiet.setSocket s.world socket hopen
  refine ⟨⟨(Relation.ReflTransGen.single (.quiet hquiet)).tail (.frame _), ?_, rfl⟩,
    ⟨_, _, hquiet, Relation.ReflTransGen.refl⟩, [.frame (UInt32.ofNat (beNat (w.socket.rx.take smb2SplSize)))], ?_, .other rfl .nil, trivial, hread⟩
  · simp only [RecvState.read, RecvState.afterRead]
    push_cast
    omega
  · rw [RecvState.read, World.log, hquiet.trace]
    rfl

theorem readLen_startReply (s : RecvState) (hdr : Smb2Header) (request : Smb2Pdu)
    (smb2 : Smb2Context) (bytes : Bytes) :
    0 < (s.startReply hdr request smb2 bytes).readLen ∨ (hdr.status = NtStatus.pending ∧
      (s.startReply hdr request smb2 bytes).readLen = frameSize s.spl - s.totalBytesRead) := by
  simp only [RecvState.startReply]
  split_ifs with hpending
  · exact Or.inr ⟨hpending, rfl⟩
  · exact Or.inl (Smb2Pdu.smb2ReplyGetFixedSize_mem _).1

/-- Every round that jumps back keeps the invariant. The next read is for some bytes, unless the
header of an interim reply arrived in this round. -/
theorem recvStep_next (h : RecvInv env w s) (hstep : recvStep env s = .next s') :
    RecvInv env w s' ∧ (0 < s'.readLen ∨ ∃ hdr request, Arrives s hdr request ∧
      hdr.status = NtStatus.pending ∧
      s'.readLen = frameSize s.spl - (s.totalBytesRead + smb2HeaderSize)) := by
  obtain ⟨socket, hopen, ⟨ret, -, hfail⟩ | ⟨hread, hle, -, heq⟩⟩ := recvStep_cases env s
  · rw [hfail] at hstep
    cases hstep
  rw [heq, RecvState.onBytes] at hstep
  rw [RecvInv] at h
  have hstate : (s.afterRead (UInt64.ofInt s.readLen) socket).recvState = s.recvState := rfl
  rw [hstate] at hstep
  cases hphase : s.recvState with
  | recvSpl =>
      simp only [hphase] at h hstep
      obtain ⟨hworld, hconsumed, htotal, hlen⟩ := h
      cases hstep
      have hfour : (UInt64.ofInt s.readLen).toNat = smb2SplSize := by rw [hlen]; rfl
      rw [hfour, hworld]
      exact ⟨⟨between_afterSpl hworld hconsumed htotal hopen hfour, rfl⟩,
        Or.inl (Int.ofNat_lt.mpr (by decide : 0 < smb2HeaderSize))⟩
  | recvHeader =>
      simp only [hphase] at h hstep
      obtain ⟨hbetween, hlen⟩ := h
      have hheader : (UInt64.ofInt s.readLen).toNat = smb2HeaderSize := by rw [hlen]; rfl
      rcases onHeader_cases (s.afterRead (UInt64.ofInt s.readLen) socket)
        (s.world.socket.rx.take (UInt64.ofInt s.readLen).toNat) with
        ⟨msg, hmsg⟩ | ⟨hdr, -, hmsg⟩ | ⟨hdr, request, hdecoded, hmagic, hreply, hwaiting, hnext⟩
      · rw [hmsg] at hstep
        cases hstep
      · rw [hmsg] at hstep
        cases hstep
      · rw [hnext] at hstep
        cases hstep
        refine ⟨hbetween.startReply hopen hheader _ hwaiting, ?_⟩
        rcases readLen_startReply (s.afterRead (UInt64.ofInt s.readLen) socket) hdr request _ _ with
          hpos | ⟨hpending, hpad⟩
        · exact Or.inl hpos
        · refine Or.inr ⟨hdr, request, ⟨hphase, hheader ▸ hdecoded, hmagic, hreply, hwaiting⟩,
            hpending, hpad.trans ?_⟩
          rw [RecvState.afterRead, hheader]
          rfl
  | recvFixed pdu =>
      simp only [hphase] at h hstep
      obtain ⟨hreplying, hfinal, hpos, hlt⟩ := h
      obtain ⟨hlen, hint⟩ := toNat_readLen hpos.le (by omega) hread
      exact ((hreplying.afterRead hopen hread (hlen.trans hint.symm)).onFixed_next hfinal hstep).imp_right
        Or.inl
  | recvVariable pdu =>
      simp only [hphase] at h hstep
      obtain ⟨hreplying, hfinal, hpos, hlt⟩ := h
      obtain ⟨hlen, hint⟩ := toNat_readLen hpos.le (by omega) hread
      exact ((hreplying.afterRead hopen hread (hlen.trans hint.symm)).onVariable_next hfinal hstep).imp_right
        Or.inl
  | recvPad pdu =>
      simp only [hphase] at h hstep
      obtain ⟨hreplying, ⟨hpending, -⟩ | ⟨hfinal, hpad, hpos⟩⟩ := h
      · rw [finish_of_pending (s.afterRead _ socket) hpending] at hstep
        cases hstep
      · obtain ⟨hlen, hint⟩ := toNat_readLen hpos.le (hpad ▸ RecvState.padBytes_lt hreplying) hread
        have hafter := hreplying.afterRead hopen hread (hlen.trans hint.symm)
        obtain ⟨hstate, hlen, hbetween⟩ := (hafter.update rfl rfl rfl le_rfl hafter.consumed
          (SameQueues.refl _).quiet (answerTo_save pdu _)).finish_next (fun hchained => by
            have hchained : s.hdr.nextCommand ≠ 0 := hchained
            rw [RecvState.padBytes, if_pos hchained] at hpad
            simp only [RecvState.afterRead]
            omega) hstep
        rw [RecvInv, hstate, hlen]
        exact ⟨⟨hbetween, rfl⟩, Or.inl (by decide)⟩

/-- The call gives up at the beginning of a round. -/
theorem RecvInv.returned (h : RecvInv env w s) {w' : World} (hworld : Quiet s.world w') {ret : Int}
    (hret : ret ≠ 0) : Returned env w ret w' := by
  rw [RecvInv] at h
  cases hphase : s.recvState with
  | recvSpl =>
      simp only [hphase] at h
      rw [h.1] at hworld
      exact ⟨.single (.quiet hworld), fun hzero => absurd hzero hret, [], hworld.trace, trivial,
        Or.inl .nil⟩
  | recvHeader =>
      simp only [hphase] at h
      exact h.1.returned hworld ret
  | recvFixed pdu | recvVariable pdu | recvPad pdu =>
      simp only [hphase] at h
      exact h.1.returned hworld fun hzero => absurd hzero hret

/-- A round that ends the call, and what it leaves of the frame when the call succeeds. -/
theorem recvStep_done (h : RecvInv env w s) {ret : Int} {err : Option String} {n : Nat} {w' : World}
    (hstep : recvStep env s = .done (.returned ret err n w')) :
    Returned env w ret w' ∧ (ret = 0 → 0 ≤ s.readLen → n = frameSize s.spl ∧
      s.spl = UInt32.ofNat (beNat (w.socket.rx.take smb2SplSize)) ∧
      smb2SplSize + smb2HeaderSize ≤ n) := by
  obtain ⟨socket, hopen, ⟨ret', hneg, hfail⟩ | ⟨hread, hle, -, heq⟩⟩ := recvStep_cases env s
  · rw [hfail] at hstep
    cases hstep
    exact ⟨h.returned (Quiet.setSocket _ _ hopen) hneg.ne, fun hzero => absurd hzero hneg.ne⟩
  have hgiveUp := h.returned (Quiet.setSocket _ socket hopen) (by decide : (-1 : Int) ≠ 0)
  rw [heq, RecvState.onBytes] at hstep
  have hstate : (s.afterRead (UInt64.ofInt s.readLen) socket).recvState = s.recvState := rfl
  rw [hstate] at hstep
  rw [RecvInv] at h
  cases hphase : s.recvState with
  | recvSpl =>
      simp only [hphase] at hstep
      cases hstep
  | recvHeader =>
      simp only [hphase] at h hstep
      rcases onHeader_cases (s.afterRead (UInt64.ofInt s.readLen) socket)
        (s.world.socket.rx.take (UInt64.ofInt s.readLen).toNat) with
        ⟨msg, hmsg⟩ | ⟨hdr, hnone, hmsg⟩ | ⟨hdr, request, -, -, -, -, hnext⟩
      · rw [hmsg] at hstep
        cases hstep
        exact ⟨hgiveUp, by simp⟩
      · rw [hmsg] at hstep
        cases hstep
        exact ⟨h.1.rejected (Quiet.setSocket _ socket hopen) hnone (by decide), by simp⟩
      · rw [hnext] at hstep
        cases hstep
  | recvFixed pdu =>
      simp only [hphase] at h hstep
      obtain ⟨hreplying, hfinal, hpos, hlt⟩ := h
      obtain ⟨hlen, hint⟩ := toNat_readLen hpos.le (by omega) hread
      have hafter := hreplying.afterRead hopen hread (hlen.trans hint.symm)
      obtain ⟨hreturned, hn⟩ := hafter.onFixed_done hfinal hstep
      exact ⟨hreturned, fun hzero _ => ⟨(hn hzero).1, hreplying.spl, (hn hzero).2⟩⟩
  | recvVariable pdu =>
      simp only [hphase] at h hstep
      obtain ⟨hreplying, hfinal, hpos, hlt⟩ := h
      obtain ⟨hlen, hint⟩ := toNat_readLen hpos.le (by omega) hread
      have hafter := hreplying.afterRead hopen hread (hlen.trans hint.symm)
      obtain ⟨hreturned, hn⟩ := hafter.onVariable_done hfinal hstep
      exact ⟨hreturned, fun hzero _ => ⟨(hn hzero).1, hreplying.spl, (hn hzero).2⟩⟩
  | recvPad pdu =>
      simp only [hphase] at h hstep
      obtain ⟨hreplying, ⟨hpending, hpad⟩ | ⟨hfinal, hpad, hpos⟩⟩ := h
      · rw [finish_of_pending (s.afterRead _ socket) hpending] at hstep
        cases hstep
        refine ⟨hreplying.returned (Quiet.setSocket _ socket hopen) fun _ => hpending,
          fun _ hnonneg => ?_⟩
        have hframe := frameSize_lt s.spl
        have hpayload := hreplying.payload
        have htotal := hreplying.read
        have hconsumed := hreplying.consumed
        obtain ⟨hlen, -⟩ := toNat_readLen hnonneg (by omega) hread
        simp only [RecvState.afterRead]
        exact ⟨by omega, hreplying.spl, by omega⟩
      · obtain ⟨hlen, hint⟩ := toNat_readLen hpos.le (hpad ▸ RecvState.padBytes_lt hreplying) hread
        have hafter := hreplying.afterRead hopen hread (hlen.trans hint.symm)
        obtain ⟨hreturned, hn, -, hlast⟩ := (hafter.update rfl rfl rfl le_rfl hafter.consumed
          (SameQueues.refl _).quiet (answerTo_save pdu _)).finish_done hstep
        refine ⟨hreturned, fun _ _ => ?_⟩
        have hlast : s.hdr.nextCommand = 0 := hlast hfinal
        rw [RecvState.padBytes, if_neg (not_not.mpr hlast)] at hpad
        have hpayload := hreplying.payload
        have htotal := hreplying.read
        have hconsumed := hreplying.consumed
        simp only [RecvState.afterRead] at hn
        exact ⟨by omega, hreplying.spl, by omega⟩

end

/-! ### The call returns -/

section

variable {env : Env} {w : World} {s s' : RecvState} {pdu : Smb2Pdu} {bytes : Bytes}

theorem HandlerEffect.rx_le {w w' : World} (h : HandlerEffect env pdu w w') :
    w'.socket.rx.length ≤ w.socket.rx.length := by
  rcases h.socket with heq | heq
  · rw [heq]
  · rw [heq]
    exact Nat.zero_le _

theorem finish_rx_le (h : s.finish env pdu = .next s') :
    s'.world.socket.rx.length ≤ s.world.socket.rx.length := by
  simp only [RecvState.finish] at h
  split at h
  · cases h
  · split at h
    · cases h
    · rename_i hhandler
      split at h <;> cases h
      exact (smb2ProcessReplyAndAppData_effect hhandler).rx_le

theorem checkPadding_rx_le {part : String} (h : s.checkPadding env pdu part = .next s') :
    s'.world.socket.rx.length ≤ s.world.socket.rx.length := by
  simp only [RecvState.checkPadding] at h
  split_ifs at h
  · cases h
  · cases h
    exact le_rfl
  · exact finish_rx_le h

theorem onHeader_rx_le (h : s.onHeader bytes = .next s') :
    s'.world.socket.rx.length ≤ s.world.socket.rx.length := by
  rcases onHeader_cases s bytes with ⟨msg, hmsg⟩ | ⟨hdr, -, hmsg⟩ | ⟨hdr, request, -, -, -, -, hnext⟩
  · rw [hmsg] at h
    cases h
  · rw [hmsg] at h
    cases h
  · rw [hnext] at h
    cases h
    rw [world_startReply]
    exact le_rfl

theorem onFixed_rx_le (h : s.onFixed env pdu bytes = .next s') :
    s'.world.socket.rx.length ≤ s.world.socket.rx.length := by
  have hsocket := (smb2ReplyProcessFixed_same s.world (RecvState.save pdu bytes)).1.socket
  rw [← hsocket]
  simp only [RecvState.onFixed] at h
  split_ifs at h
  · cases h
  · cases h
    exact le_rfl
  · exact checkPadding_rx_le h

theorem onVariable_rx_le (h : s.onVariable env pdu bytes = .next s') :
    s'.world.socket.rx.length ≤ s.world.socket.rx.length := by
  have hsocket := (smb2ReplyProcessVariable_same env s.world (RecvState.save pdu bytes)).1.socket
  rw [← hsocket]
  simp only [RecvState.onVariable] at h
  split_ifs at h
  · cases h
  · exact checkPadding_rx_le h

theorem onBytes_rx_le (h : s.onBytes env bytes = .next s') :
    s'.world.socket.rx.length ≤ s.world.socket.rx.length := by
  unfold RecvState.onBytes at h
  split at h
  · cases h
    exact le_rfl
  · exact onHeader_rx_le h
  · exact onFixed_rx_le h
  · exact onVariable_rx_le h
  · exact finish_rx_le h

/-- Only the rest of an interim reply can be empty, and the call returns after that. -/
theorem RecvInv.readLen_pos (h : RecvInv env w s) (hnext : recvStep env s = .next s') :
    0 < s.readLen := by
  obtain ⟨socket, hopen, ⟨ret, -, hfail⟩ | ⟨-, -, -, heq⟩⟩ := recvStep_cases env s
  · rw [hfail] at hnext
    cases hnext
  rw [RecvInv] at h
  cases hphase : s.recvState with
  | recvSpl =>
      simp only [hphase] at h
      rw [h.2.2.2]
      decide
  | recvHeader =>
      simp only [hphase] at h
      rw [h.2]
      decide
  | recvFixed pdu | recvVariable pdu =>
      simp only [hphase] at h
      exact h.2.2.1
  | recvPad pdu =>
      simp only [hphase] at h
      obtain ⟨-, ⟨hpending, -⟩ | ⟨-, -, hpos⟩⟩ := h
      · have hstate : (s.afterRead (UInt64.ofInt s.readLen) socket).recvState = s.recvState := rfl
        rw [heq, RecvState.onBytes, hstate, hphase] at hnext
        simp only [finish_of_pending (s.afterRead _ socket) hpending] at hnext
        cases hnext
      · exact hpos

theorem RecvInv.readLen_lt (h : RecvInv env w s) : s.readLen < 2 ^ 32 := by
  rw [RecvInv] at h
  cases hphase : s.recvState with
  | recvSpl =>
      simp only [hphase] at h
      rw [h.2.2.2]
      decide
  | recvHeader =>
      simp only [hphase] at h
      rw [h.2]
      decide
  | recvFixed pdu | recvVariable pdu =>
      simp only [hphase] at h
      omega
  | recvPad pdu =>
      simp only [hphase] at h
      obtain ⟨hreplying, ⟨-, hpad⟩ | ⟨-, hpad, -⟩⟩ := h
      · have hframe := frameSize_lt s.spl
        have hpayload := hreplying.payload
        have htotal := hreplying.read
        omega
      · exact hpad ▸ RecvState.padBytes_lt hreplying

/-- Every round that jumps back takes bytes from the connection. -/
theorem recvStep_rx_lt (h : RecvInv env w s) (hnext : recvStep env s = .next s') :
    s'.world.socket.rx.length < s.world.socket.rx.length := by
  have hpos := h.readLen_pos hnext
  obtain ⟨socket, hopen, ⟨ret, -, hfail⟩ | ⟨hread, hle, hrx, heq⟩⟩ := recvStep_cases env s
  · rw [hfail] at hnext
    cases hnext
  obtain ⟨hlen, -⟩ := toNat_readLen hpos.le h.readLen_lt hread
  rw [heq] at hnext
  have hrest := onBytes_rx_le hnext
  simp only [RecvState.afterRead, hrx, List.length_drop] at hrest
  omega

theorem recvInv_start (env : Env) (w : World) : RecvInv env w { world := w } := ⟨rfl, rfl, rfl, rfl⟩

theorem receivePdus_isSome (env : Env) (w : World) :
    (Step.iterate (recvStep env) (w.socket.rx.length + 1) { world := w }).isSome :=
  Step.iterate_isSome (fun _ _ h hnext => ⟨(recvStep_next h hnext).1, recvStep_rx_lt h hnext⟩)
    (recvInv_start env w) (Nat.lt_succ_self _)

end

/-- Read one frame. A round that does not end the call takes bytes from the connection, so their
number bounds the rounds. -/
def receivePdus (env : Env) (w : World) : Received :=
  (Step.iterate (recvStep env) (w.socket.rx.length + 1) { world := w }).get (receivePdus_isSome env w)

/-- Whatever a call returns, some round returned it. -/
theorem receivePdus_reached (env : Env) (w : World) :
    ∃ s, Step.Reached (recvStep env) { world := w } s ∧ RecvInv env w s ∧
      recvStep env s = .done (receivePdus env w) := by
  obtain ⟨s, hreached, hdone⟩ := Step.iterate_reached (Option.some_get (receivePdus_isSome env w)).symm
  exact ⟨s, hreached, Step.reached_invariant (fun _ _ h hnext => (recvStep_next h hnext).1)
    (recvInv_start env w) hreached, hdone⟩

/-- A call that returns is a sequence of steps, and each reply header in the frame that was not an
interim one was processed when it succeeds. -/
theorem receivePdus_returned {env : Env} {w : World} {ret : Int} {err : Option String} {n : Nat}
    {w' : World} (h : receivePdus env w = .returned ret err n w') : Returned env w ret w' := by
  obtain ⟨s, -, hinv, hdone⟩ := receivePdus_reached env w
  exact (recvStep_done hinv (hdone.trans (congrArg _ h))).1

end CodeStudy.Samba
