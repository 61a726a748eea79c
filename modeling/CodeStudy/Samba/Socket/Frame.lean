import CodeStudy.Samba.Socket.Receive

/-!
# Frames and replies

What the callers of `receivePdus` rely on: a call that succeeds takes exactly one frame, so that the
next call finds the beginning of the next one, it never asks for a negative number of bytes, and the
replies in the frame are the ones their headers announce, each handled for the request that waits
under its message id.

The lengths of padding are checked everywhere but in one place: the rest of a frame behind the
header of an interim reply. A header that reaches beyond the end of its frame makes that rest
negative.
-/

namespace CodeStudy.Samba

/-- What a call of `receivePdus` is to do with the bytes that arrive. -/
structure FollowsFrame (env : Env) (w : World) : Prop where
  consumed : ∀ {err : Option String} {n : Nat} {w' : World},
    receivePdus env w = .returned 0 err n w' →
      n = smb2SplSize + beNat (w.socket.rx.take smb2SplSize)
  readLen : ∀ {s : RecvState}, Step.Reached (recvStep env) { world := w } s → 0 ≤ s.readLen
  aligned : ∀ {s : RecvState}, Step.Reached (recvStep env) { world := w } s →
    ∃ evs, s.world.trace = evs ++ w.trace ∧ HeadersAligned (headersIn evs)
  matched : ∀ {s s' : RecvState}, Step.Reached (recvStep env) { world := w } s →
    s.recvState = .recvHeader → recvStep env s = .next s' →
      ∃ request pdu, s.world.smb2.waitqueue.lookup s'.hdr.messageId.toNat = some request ∧
        AnswerTo request s'.hdr pdu ∧
        (s'.recvState = .recvFixed pdu ∨ s'.recvState = .recvPad pdu)
  dispatched : ∀ {err : Option String} {n : Nat} {w' : World},
    receivePdus env w = .returned 0 err n w' →
      ∃ evs, w'.trace = evs ++ w.trace ∧ HeadersAligned (headersIn evs) ∧ Dispatched evs

/-- No header of an interim reply that the call handles reaches beyond the end of its frame. -/
def PendingInside (env : Env) (w : World) : Prop :=
  ∀ (s : RecvState) (hdr : Smb2Header) (request : Smb2Pdu),
    Step.Reached (recvStep env) { world := w } s → Arrives s hdr request →
    hdr.status = NtStatus.pending → s.totalBytesRead + smb2HeaderSize ≤ frameSize s.spl

section

variable {env : Env} {w : World} {s s' : RecvState}

theorem recvInv_of_reached (h : Step.Reached (recvStep env) { world := w } s) : RecvInv env w s :=
  Step.reached_invariant (fun _ _ h hnext => (recvStep_next h hnext).1) (recvInv_start env w) h

theorem PendingInside.readLen_nonneg (h : PendingInside env w)
    (hs : Step.Reached (recvStep env) { world := w } s) : 0 ≤ s.readLen := by
  cases hs with
  | refl => exact Int.natCast_nonneg smb2SplSize
  | tail hreached hlast =>
      rcases (recvStep_next (recvInv_of_reached hreached) hlast).2 with
        hpos | ⟨hdr, request, harrives, hpending, hlen⟩
      · exact hpos.le
      · have hinside := h _ hdr request hreached harrives hpending
        omega

/-- After the header of an interim reply, the rest of the frame is asked for. -/
theorem Arrives.readLen_eq {hdr : Smb2Header} {request : Smb2Pdu} (hinv : RecvInv env w s)
    (h : Arrives s hdr request) (hpending : hdr.status = NtStatus.pending) :
    ∃ s', recvStep env s = .next s' ∧
      s'.readLen = frameSize s.spl - (s.totalBytesRead + smb2HeaderSize) := by
  have hlen : s.readLen = smb2HeaderSize := by
    rw [RecvInv] at hinv
    simp only [h.state] at hinv
    exact hinv.2
  have hnat : (UInt64.ofInt s.readLen).toNat = smb2HeaderSize := by rw [hlen]; rfl
  have hrx : smb2HeaderSize ≤ s.world.socket.rx.length := by
    by_contra hshort
    have hdecoded := h.decoded
    rw [decodeHeader, if_pos (by rw [List.length_take]; omega)] at hdecoded
    cases hdecoded
  obtain ⟨socket, hstep⟩ := recvStep_of_le env (hnat ▸ by decide) (hnat ▸ hrx) (hnat ▸ by decide)
  rw [hstep, hnat]
  have hstate : (s.afterRead (UInt64.ofInt s.readLen) socket).recvState = .recvHeader := h.state
  have hwaiting : (s.afterRead (UInt64.ofInt s.readLen) socket).world.smb2.waitqueue.lookup
      hdr.messageId.toNat = some request := h.waiting
  have hmagic : ¬ hdr.protocolId ≠ magic := not_not.mpr h.isSmb2
  simp only [RecvState.onBytes, hstate, RecvState.onHeader, h.decoded, if_neg hmagic,
    if_neg h.isReply, smb2FindPdu, hwaiting]
  refine ⟨_, rfl, ?_⟩
  rw [RecvState.startReply, if_pos hpending, RecvState.read, RecvState.afterRead, hnat]
  rfl

/-- A frame that is long enough for a header has the length it announces. -/
theorem frameSize_eq {bytes : Bytes} (hlen : bytes.length ≤ smb2SplSize)
    (hle : smb2SplSize + smb2HeaderSize ≤ frameSize (UInt32.ofNat (beNat bytes))) :
    frameSize (UInt32.ofNat (beNat bytes)) = smb2SplSize + beNat bytes := by
  have hlt : beNat bytes < 2 ^ 32 := by
    calc beNat bytes < 256 ^ bytes.reverse.length := leNat_lt bytes.reverse
      _ ≤ 256 ^ smb2SplSize := Nat.pow_le_pow_right (by decide) (by rwa [List.length_reverse])
      _ = 2 ^ 32 := by decide
  rw [frameSize, UInt32.toNat_add, toNat_ofNat_uint32 hlt] at hle ⊢
  have hspl : (UInt32.ofNat smb2SplSize).toNat = smb2SplSize := by decide
  have hsizes : smb2SplSize = 4 ∧ smb2HeaderSize = 64 := ⟨rfl, rfl⟩
  rw [hspl] at hle ⊢
  omega

theorem PendingInside.consumed_eq (h : PendingInside env w) {err : Option String} {n : Nat}
    {w' : World} (hret : receivePdus env w = .returned 0 err n w') :
    n = smb2SplSize + beNat (w.socket.rx.take smb2SplSize) := by
  obtain ⟨s, hreached, hinv, hdone⟩ := receivePdus_reached env w
  obtain ⟨hn, hspl, hle⟩ := (recvStep_done hinv (hdone.trans (congrArg _ hret))).2 rfl
    (h.readLen_nonneg hreached)
  rw [hspl] at hn
  rw [hn] at hle ⊢
  exact frameSize_eq (List.length_take_le _ _) hle

/-- In every state, the headers handled so far follow each other as they say. -/
theorem headersAligned_of_reached (h : Step.Reached (recvStep env) { world := w } s) :
    ∃ evs, s.world.trace = evs ++ w.trace ∧ HeadersAligned (headersIn evs) := by
  have hinv := recvInv_of_reached h
  rw [RecvInv] at hinv
  cases hphase : s.recvState with
  | recvSpl =>
      simp only [hphase] at hinv
      exact ⟨[], by rw [hinv.1]; rfl, trivial⟩
  | recvHeader =>
      simp only [hphase] at hinv
      obtain ⟨evs, htrace, -, haligned, -⟩ := hinv.1.events
      exact ⟨evs, htrace, haligned⟩
  | recvFixed pdu | recvVariable pdu | recvPad pdu =>
      simp only [hphase] at hinv
      obtain ⟨offset, credits, request, older, htrace, -, haligned, -, -⟩ := hinv.1.events
      exact ⟨_, htrace, haligned⟩

/-- A header that is accepted is one a request waits for, and the loop goes on for that request. -/
theorem recvStep_matched (hphase : s.recvState = .recvHeader) (hstep : recvStep env s = .next s') :
    ∃ request pdu, s.world.smb2.waitqueue.lookup s'.hdr.messageId.toNat = some request ∧
      AnswerTo request s'.hdr pdu ∧
      (s'.recvState = .recvFixed pdu ∨ s'.recvState = .recvPad pdu) := by
  obtain ⟨socket, -, ⟨ret, -, hfail⟩ | ⟨-, -, -, heq⟩⟩ := recvStep_cases env s
  · rw [hfail] at hstep
    cases hstep
  have hstate : (s.afterRead (UInt64.ofInt s.readLen) socket).recvState = .recvHeader := hphase
  rw [heq, RecvState.onBytes, hstate] at hstep
  rcases onHeader_cases (s.afterRead (UInt64.ofInt s.readLen) socket)
    (s.world.socket.rx.take (UInt64.ofInt s.readLen).toNat) with
    ⟨msg, hmsg⟩ | ⟨hdr, -, hmsg⟩ | ⟨hdr, request, -, -, -, hwaiting, hnext⟩
  · rw [hmsg] at hstep
    cases hstep
  · rw [hmsg] at hstep
    cases hstep
  · simp only [hnext, RecvState.startReply] at hstep
    split_ifs at hstep with hpending <;> cases hstep
    · refine ⟨request, _, hwaiting, ?_, Or.inr rfl⟩
      exact ⟨rfl, rfl, rfl, rfl⟩
    · refine ⟨request, _, hwaiting, ?_, Or.inl rfl⟩
      exact ⟨rfl, rfl, rfl, rfl⟩

/-- A call follows the frame it reads exactly when no interim reply's header that it handles reaches
beyond the end of the frame. -/
theorem followsFrame_iff_pendingInside (env : Env) (w : World) :
    FollowsFrame env w ↔ PendingInside env w := by
  constructor
  · intro h s hdr request hreached harrives hpending
    obtain ⟨s', hstep, hlen⟩ := harrives.readLen_eq (recvInv_of_reached hreached) hpending
    have hnonneg := h.readLen (hreached.tail hstep)
    omega
  · intro h
    refine ⟨h.consumed_eq, h.readLen_nonneg, headersAligned_of_reached,
      fun _ hphase hstep => recvStep_matched hphase hstep, fun hret => ?_⟩
    obtain ⟨evs, htrace, haligned, hevs | ⟨hne, -⟩⟩ := (receivePdus_returned hret).events
    · exact ⟨evs, htrace, haligned, hevs⟩
    · exact absurd rfl hne

end

/-- The 64 bytes of a reply header. -/
def replyHeader (command : Smb2Command) (status : NtStatus) (credits : UInt16) (messageId : UInt64)
    (nextCommand : UInt32) : Bytes :=
  let hdr : Smb2Header := {
    protocolId := magic
    structSize := 64
    status
    command := command.code
    creditRequestResponse := credits
    flags := smb2FlagsServerToRedir
    nextCommand
    messageId }
  hdr.write (List.replicate smb2HeaderSize 0)

/-- A reply with an error status and without error data. -/
def errorReply (command : Smb2Command) (credits : UInt16) (messageId : UInt64)
    (nextCommand : UInt32) : Bytes :=
  replyHeader command NtStatus.notSupported credits messageId nextCommand ++ leBytes 8 9

/-- The bytes of a frame. -/
def frameOf (replies : Bytes) : Bytes := beBytes smb2SplSize replies.length ++ replies

/-- A client that waits for the answer to an ECHO, with the given bytes arriving. -/
def echoWaiting (rx : Bytes) : World :=
  let pdu := createPdu (Smb2Context.fresh smb2Version0202) (echoRequest 0)
  { smb2 := { Smb2Context.fresh smb2Version0202 with
      messageId := 1, waitqueue := OrdMap.insert ∅ 0 pdu }
    socket := { fd := some { rx, writevs := [] }, bConnected := true } }

/-- A frame of length 0 with the header of an interim reply behind it. -/
theorem not_followsFrame_emptyFrame :
    ¬ FollowsFrame plainEnv
      (echoWaiting (beBytes 4 0 ++ replyHeader .echo NtStatus.pending 1 0 0)) := by
  intro h
  have hafter : (Step.after (recvStep plainEnv) 2
      { world := echoWaiting (beBytes 4 0 ++ replyHeader .echo NtStatus.pending 1 0 0) }).map
        RecvState.readLen = some (-64) := by decide
  obtain ⟨s, hs, hlen⟩ := Option.map_eq_some_iff.mp hafter
  have hnonneg := h.readLen (Step.reached_after hs)
  omega

end CodeStudy.Samba
