import CodeStudy.Samba.Client

/-!
# Invariants of an exchange

An exchange is made of few things: chains are sent or go back into their queue, headers are matched
to requests, replies are decoded, and handlers are called. A property of the client that each of
them keeps holds whenever the exchange is between two of them, and at its end. While a reply is being
read, a second property relates it to the client; the memory is what both mostly speak of, so
decoding and failing are allowed to change texts only.
-/

namespace CodeStudy.Samba

/-- The payload is what the reply was decoded into. -/
structure Smb2Pdu.Decoded (pdu : Smb2Pdu) : Prop where
  error : pdu.smb2ReplyIsError = true → ∃ rep, pdu.payload = .error rep
  read : pdu.smb2ReplyIsError = false → pdu.command = .read → ∃ rep, pdu.payload = .read rep
  write : pdu.smb2ReplyIsError = false → pdu.command = .write → ∃ rep, pdu.payload = .write rep

theorem decoded_fixedPart (smb2 : Smb2Context) (pdu : Smb2Pdu) (iov : Bytes) :
    { pdu with payload := (fixedPart smb2 pdu iov).payload }.Decoded where
  error herror := by
    have herror : pdu.smb2ReplyIsError = true := herror
    simp only [fixedPart, herror, if_true, smb2ProcessErrorReplyFixed]
    split
    · exact ⟨_, rfl⟩
    · exact ⟨_, rfl⟩
  read herror hcommand := by
    have herror : pdu.smb2ReplyIsError = false := herror
    have hcommand : pdu.command = .read := hcommand
    simp only [fixedPart, herror, Bool.false_eq_true, if_false, hcommand, readFixed]
    split
    · exact ⟨_, rfl⟩
    · split_ifs
      all_goals exact ⟨_, rfl⟩
  write herror hcommand := by
    have herror : pdu.smb2ReplyIsError = false := herror
    have hcommand : pdu.command = .write := hcommand
    simp only [fixedPart, herror, Bool.false_eq_true, if_false, hcommand, writeFixed]
    split
    · exact ⟨_, rfl⟩
    · exact ⟨_, rfl⟩

theorem Smb2Pdu.Decoded.variablePart {pdu : Smb2Pdu} (h : pdu.Decoded) (env : Env) (smb2 : Smb2Context)
    (iov : Bytes) : { pdu with payload := (variablePart env smb2 iov pdu).payload }.Decoded where
  error herror := by
    obtain ⟨rep, hrep⟩ := h.error herror
    simp only [CodeStudy.Samba.variablePart, hrep]
    exact ⟨_, rfl⟩
  read herror hcommand := by
    obtain ⟨rep, hrep⟩ := h.read herror hcommand
    simp only [CodeStudy.Samba.variablePart, hrep]
    exact ⟨_, rfl⟩
  write herror hcommand := by
    obtain ⟨rep, hrep⟩ := h.write herror hcommand
    simp only [CodeStudy.Samba.variablePart, hrep]
    exact ⟨_, rfl⟩

theorem Smb2Pdu.Decoded.of_same {pdu pdu' : Smb2Pdu} (h : pdu.Decoded) (hcommand : pdu'.command = pdu.command)
    (hresp : pdu'.headerResp = pdu.headerResp) (hpayload : pdu'.payload = pdu.payload) : pdu'.Decoded := by
  have herror : pdu'.smb2ReplyIsError = pdu.smb2ReplyIsError := by
    simp only [Smb2Pdu.smb2ReplyIsError, hresp]
  refine ⟨?_, ?_, ?_⟩
  · rw [herror, hpayload]
    exact h.error
  · rw [herror, hpayload, hcommand]
    exact h.read
  · rw [herror, hpayload, hcommand]
    exact h.write

/-- The parts of an exchange keep the invariant of the client. `Reply` holds while the reply to a
request is being read. -/
structure ExchangeRule (env : Env) (Inv : World → Prop) (Reply : Smb2Pdu → World → Prop) : Prop where
  socket {w : World} (socket : Smb2Socket) (h : Inv w) : Inv { w with socket }
  replySocket {w : World} {pdu : Smb2Pdu} (socket : Smb2Socket) (h : Reply pdu w) :
    Reply pdu { w with socket }
  frame {w : World} (spl : UInt32) (h : Inv w) : Inv (w.log (.frame spl))
  rejected {w : World} (hdr : Smb2Header) (h : Inv w) : Inv (w.log (.rejected hdr))
  accept {w : World} (offset : Nat) {hdr : Smb2Header} {request : Smb2Pdu} (spl : UInt32) (header : Bytes)
    (h : Inv w) (hwaiting : w.smb2.waitqueue.lookup hdr.messageId.toNat = some request) :
    Reply (RecvState.save ({ request with respNBLength := spl }.setResponseHeader hdr) header)
      (w.accept offset hdr request)
  decode {w : World} {pdu : Smb2Pdu} (payload : Payload) (inVecs : Smb2IoVectors) {smb2 : Smb2Context}
    (h : Reply pdu w) (hsame : SameExceptIds w.smb2 smb2) :
    Reply { pdu with payload, inVecs } { w with smb2 }
  errorMsg {w : World} {pdu : Smb2Pdu} (msg : String) (h : Reply pdu w) :
    Reply pdu (w.setErrorMsg pdu.appData msg)
  chained {w : World} {pdu : Smb2Pdu} (h : Reply pdu w) : Reply { pdu with bIsLastInCompound := false } w
  abandon {w : World} {pdu : Smb2Pdu} (h : Reply pdu w) : Inv w
  handle {w w' : World} {pdu : Smb2Pdu} (h : Reply pdu w) (hdecoded : pdu.Decoded)
    (hhandler : smb2ProcessReplyAndAppData env (w.log (.processed pdu)) pdu = some w') : Inv w'
  transmit {w : World} {key : Nat} {chain : PduChain} (h : Inv w)
    (hchain : w.smb2.outqueue.lookup key = some chain) : Inv (w.transmit key chain)
  requeue {w : World} {key : Nat} {chain : PduChain} (h : Inv w)
    (hchain : w.smb2.outqueue.lookup key = some chain) : Inv (w.requeue key chain)

/-- What holds in each phase of the receive loop. What follows an interim reply is not decoded. -/
def RecvState.Phase (Inv : World → Prop) (Reply : Smb2Pdu → World → Prop) (s : RecvState) : Prop :=
  match s.recvState with
  | .recvSpl | .recvHeader => Inv s.world
  | .recvFixed pdu => Reply pdu s.world
  | .recvVariable pdu => Reply pdu s.world ∧ pdu.Decoded
  | .recvPad pdu => Reply pdu s.world ∧ (s.hdr.status ≠ NtStatus.pending → pdu.Decoded)

/-- A round ends in a phase, or the call returns and the invariant holds. -/
def RoundKeeps (Inv : World → Prop) (Reply : Smb2Pdu → World → Prop) : Step RecvState Received → Prop
  | .next s => s.Phase Inv Reply
  | .done (.returned _ _ _ w) => Inv w
  | .done .undefined => True

namespace ExchangeRule

variable {env : Env} {Inv : World → Prop} {Reply : Smb2Pdu → World → Prop} {w w' : World}
  {s s' : RecvState} {pdu : Smb2Pdu}

/-! ### Receiving -/

theorem save (rule : ExchangeRule env Inv Reply) (h : Reply pdu w) (bytes : Bytes) :
    Reply (RecvState.save pdu bytes) w :=
  rule.decode pdu.payload (pdu.inVecs.smb2AddIovector bytes) h ⟨rfl, rfl, rfl, rfl, rfl⟩

theorem finish (rule : ExchangeRule env Inv Reply) (h : Reply pdu s.world)
    (hdecoded : s.hdr.status ≠ NtStatus.pending → pdu.Decoded) :
    RoundKeeps Inv Reply (s.finish env pdu) := by
  rw [RecvState.finish]
  split_ifs with hpending
  · exact rule.abandon h
  · simp only
    generalize decide (s.hdr.nextCommand ≠ 0) = isChained
    have hpdu : Reply (if isChained then { pdu with bIsLastInCompound := false } else pdu) s.world ∧
        Smb2Pdu.Decoded (if isChained then { pdu with bIsLastInCompound := false } else pdu) := by
      cases isChained with
      | true => exact ⟨rule.chained h, (hdecoded hpending).of_same rfl rfl rfl⟩
      | false => exact ⟨h, hdecoded hpending⟩
    revert hpdu
    generalize (if isChained then { pdu with bIsLastInCompound := false } else pdu) = pdu
    intro hpdu
    split
    · trivial
    · rename_i hhandler
      have hinv := rule.handle hpdu.1 hpdu.2 hhandler
      split_ifs
      · exact hinv
      · exact hinv

theorem checkPadding (rule : ExchangeRule env Inv Reply) (h : Reply pdu s.world) (hdecoded : pdu.Decoded)
    (part : String) :
    RoundKeeps Inv Reply (s.checkPadding env pdu part) := by
  rw [RecvState.checkPadding]
  split_ifs
  · exact rule.abandon h
  · exact ⟨h, fun _ => hdecoded⟩
  · exact rule.finish h fun _ => hdecoded

theorem onFixed (rule : ExchangeRule env Inv Reply) (h : Reply pdu s.world) (bytes : Bytes) :
    RoundKeeps Inv Reply (s.onFixed env pdu bytes) := by
  have hsame := fixedPart_same s.world.smb2 (RecvState.save pdu bytes)
    ((RecvState.save pdu bytes).inVecs.iovs.getLastD [])
  have hdecoded := rule.decode (fixedPart s.world.smb2 (RecvState.save pdu bytes)
    ((RecvState.save pdu bytes).inVecs.iovs.getLastD [])).payload
    (pdu.inVecs.smb2AddIovector bytes) h hsame
  have hparsed : Reply (smb2ReplyProcessFixed s.world (RecvState.save pdu bytes)).2.1
      (smb2ReplyProcessFixed s.world (RecvState.save pdu bytes)).2.2 := by
    rw [smb2ReplyProcessFixed]
    split
    · exact hdecoded
    · exact rule.errorMsg _ hdecoded
  have hpayload : (smb2ReplyProcessFixed s.world (RecvState.save pdu bytes)).2.1.Decoded := by
    have hfixed := decoded_fixedPart s.world.smb2 (RecvState.save pdu bytes)
      ((RecvState.save pdu bytes).inVecs.iovs.getLastD [])
    rw [smb2ReplyProcessFixed]
    split
    · exact hfixed
    · exact hfixed
  simp only [RecvState.onFixed]
  split_ifs
  · exact rule.abandon hparsed
  · exact ⟨hparsed, hpayload⟩
  · exact rule.checkPadding hparsed hpayload "fixed"

theorem onVariable (rule : ExchangeRule env Inv Reply) (h : Reply pdu s.world) (hread : pdu.Decoded)
    (bytes : Bytes) :
    RoundKeeps Inv Reply (s.onVariable env pdu bytes) := by
  have hsame := variablePart_same env s.world.smb2 ((RecvState.save pdu bytes).inVecs.iovs.getLastD [])
    (RecvState.save pdu bytes)
  have hdecoded := rule.decode (variablePart env s.world.smb2
    ((RecvState.save pdu bytes).inVecs.iovs.getLastD []) (RecvState.save pdu bytes)).payload
    (pdu.inVecs.smb2AddIovector bytes) h hsame
  have hparsed : Reply (smb2ReplyProcessVariable env s.world (RecvState.save pdu bytes)).2.1
      (smb2ReplyProcessVariable env s.world (RecvState.save pdu bytes)).2.2 := by
    rw [smb2ReplyProcessVariable]
    split
    · exact hdecoded
    · exact rule.errorMsg _ hdecoded
  have hpayload : (smb2ReplyProcessVariable env s.world (RecvState.save pdu bytes)).2.1.Decoded := by
    have hsaved : (RecvState.save pdu bytes).Decoded := hread.of_same rfl rfl rfl
    have hvariable := hsaved.variablePart env s.world.smb2 ((RecvState.save pdu bytes).inVecs.iovs.getLastD [])
    rw [smb2ReplyProcessVariable]
    split
    · exact hvariable
    · exact hvariable
  simp only [RecvState.onVariable]
  split_ifs
  · exact rule.abandon hparsed
  · exact rule.checkPadding hparsed hpayload "variable"

theorem onHeader (rule : ExchangeRule env Inv Reply) (h : Inv s.world) (bytes : Bytes) :
    RoundKeeps Inv Reply (s.onHeader bytes) := by
  rcases onHeader_cases s bytes with ⟨msg, heq⟩ | ⟨hdr, -, heq⟩ | ⟨hdr, request, -, -, -, hwaiting, heq⟩
  · rw [heq]
    exact h
  · rw [heq]
    exact rule.rejected hdr h
  · rw [heq]
    have haccept := rule.accept (s.totalBytesRead.toNat - smb2HeaderSize) s.spl bytes h hwaiting
    rw [← world_startReply s hdr request bytes] at haccept
    simp only [RoundKeeps, RecvState.Phase]
    simp only [RecvState.startReply] at haccept ⊢
    split_ifs at haccept ⊢ with hpending
    · exact ⟨haccept, fun hfinal => absurd hpending hfinal⟩
    · exact haccept

theorem onBytes (rule : ExchangeRule env Inv Reply) (h : s.Phase Inv Reply) (bytes : Bytes) :
    RoundKeeps Inv Reply (s.onBytes env bytes) := by
  rw [RecvState.onBytes]
  rw [RecvState.Phase] at h
  cases hstate : s.recvState with
  | recvSpl =>
      rw [hstate] at h
      exact rule.frame _ h
  | recvHeader =>
      rw [hstate] at h
      exact rule.onHeader h bytes
  | recvFixed pdu =>
      rw [hstate] at h
      exact rule.onFixed h bytes
  | recvVariable pdu =>
      rw [hstate] at h
      exact rule.onVariable h.1 h.2 bytes
  | recvPad pdu =>
      rw [hstate] at h
      exact rule.finish (rule.save h.1 bytes) fun hfinal => (h.2 hfinal).of_same rfl rfl rfl

theorem phase_afterRead (rule : ExchangeRule env Inv Reply) (h : s.Phase Inv Reply) (len : UInt64)
    (socket : Smb2Socket) : (s.afterRead len socket).Phase Inv Reply := by
  rw [RecvState.Phase] at h ⊢
  simp only [RecvState.afterRead]
  split at h
  · exact rule.socket socket h
  · exact rule.socket socket h
  · exact rule.replySocket socket h
  · exact ⟨rule.replySocket socket h.1, h.2⟩
  · exact ⟨rule.replySocket socket h.1, h.2⟩

theorem inv_of_phase (rule : ExchangeRule env Inv Reply) (h : s.Phase Inv Reply) : Inv s.world := by
  rw [RecvState.Phase] at h
  split at h
  · exact h
  · exact h
  · exact rule.abandon h
  · exact rule.abandon h.1
  · exact rule.abandon h.1

/-- One round of the receive loop. -/
theorem recvStep (rule : ExchangeRule env Inv Reply) (h : s.Phase Inv Reply) :
    RoundKeeps Inv Reply (CodeStudy.Samba.recvStep env s) := by
  obtain ⟨socket, -, ⟨ret, -, heq⟩ | ⟨-, -, -, heq⟩⟩ := recvStep_cases env s
  · rw [heq]
    exact rule.socket socket (rule.inv_of_phase h)
  · rw [heq]
    exact rule.onBytes (rule.phase_afterRead h _ socket) _

/-- Every state of a call of `receivePdus` is in its phase. -/
theorem reached (rule : ExchangeRule env Inv Reply) (h : Inv w)
    (hreached : Step.Reached (CodeStudy.Samba.recvStep env) { world := w } s) : s.Phase Inv Reply := by
  refine Step.reached_invariant (fun s s' hphase hnext => ?_) ?_ hreached
  · have hkeeps := rule.recvStep hphase
    rw [hnext] at hkeeps
    exact hkeeps
  · exact h

theorem receivePdus (rule : ExchangeRule env Inv Reply) (h : Inv w) {ret : Int} {err : Option String}
    {n : Nat} (hreturned : CodeStudy.Samba.receivePdus env w = .returned ret err n w') : Inv w' := by
  obtain ⟨s, hreached, -, hdone⟩ := receivePdus_reached env w
  have hkeeps := rule.recvStep (rule.reached h hreached)
  rw [hdone, hreturned] at hkeeps
  exact hkeeps

/-! ### Sending -/

theorem sendChains (rule : ExchangeRule env Inv Reply) {entries : List (Nat × PduChain)} {ret : Int}
    (h : Inv w) (hsorted : entries.Pairwise fun a b => a.1 < b.1)
    (hlookup : ∀ entry ∈ entries, w.smb2.outqueue.lookup entry.1 = some entry.2)
    (hsends : CodeStudy.Samba.sendChains entries w = some (ret, w')) : Inv w' := by
  induction entries generalizing w with
  | nil =>
      cases hsends
      exact h
  | cons entry entries ih =>
      obtain ⟨key, chain⟩ := entry
      obtain ⟨hhead, htail⟩ := List.forall_mem_cons.mp hlookup
      obtain ⟨hkey, hsorted⟩ := List.pairwise_cons.mp hsorted
      simp only [CodeStudy.Samba.sendChains] at hsends
      split at hsends
      · cases hsends
      · rename_i fd hsend
        have hsocket := rule.socket { w.socket with fd } h
        split_ifs at hsends with hret
        · cases hsends
          exact rule.requeue hsocket hhead
        · refine ih (rule.transmit hsocket hhead) hsorted (fun e he => ?_) hsends
          -- the chains behind this one are still in the queue: their keys are larger
          rw [World.transmit, outqueue_smb2PduAddToWaitqueue]
          show (w.smb2.outqueue.erase key).lookup e.1 = some e.2
          rw [OrdMap.lookup_erase, if_neg (hkey e he).ne', htail e he]

theorem sendPdus (rule : ExchangeRule env Inv Reply) (h : Inv w) {ret : Int}
    (hsends : CodeStudy.Samba.sendPdus w = some (ret, w')) : Inv w' :=
  rule.sendChains h w.smb2.outqueue.sorted
    (fun e he => (w.smb2.outqueue.mem_entries_iff e.1 e.2).mp he) hsends

/-! ### Whole exchanges -/

theorem smb2Service (rule : ExchangeRule env Inv Reply) (h : Inv w) {poll : Poll} {ret : Int}
    (hservice : CodeStudy.Samba.smb2Service env w poll = some (ret, w')) : Inv w' := by
  unfold CodeStudy.Samba.smb2Service at hservice
  split at hservice
  · cases hservice
    exact h
  split at hservice
  · cases hservice
    exact h
  split at hservice
  · cases hservice
    exact h
  split at hservice
  · split at hservice
    · cases hservice
      exact h
    · cases hservice
      exact rule.socket _ h
  split at hservice
  · cases hservice
  rename_i ret₁ err n w₁ hreceive
  have hreceived : Inv w₁ := by
    split at hreceive
    · exact rule.receivePdus h hreceive
    · cases hreceive
      exact h
  split at hservice
  · cases hservice
    exact hreceived
  split at hservice
  · split at hservice
    · cases hservice
    · rename_i hsend
      have hsent := rule.sendPdus hreceived hsend
      split at hservice
      · cases hservice
        exact hsent
      · cases hservice
        exact hsent
  · cases hservice
    exact hreceived

/-- The worlds an exchange ends or waits in. -/
def Ends (Inv : World → Prop) : Exchange → Prop
  | .running w => Inv w ∧ w.smb2.isComplete = false
  | .returned ret w => Inv w ∧ (¬ ret < 0 → w.smb2.isComplete = true)
  | .undefined => True

theorem sendAndReceiveLoop (rule : ExchangeRule env Inv Reply) (h : Inv w) (polls : List Poll) :
    Ends Inv (CodeStudy.Samba.sendAndReceiveLoop env polls w) := by
  have hfail (w : World) (h : Inv w) : Ends Inv (.returned (-1) w) := ⟨h, fun hret => absurd (by decide) hret⟩
  induction polls generalizing w with
  | nil =>
      rw [CodeStudy.Samba.sendAndReceiveLoop]
      split_ifs with hcomplete hopen
      · exact ⟨h, fun _ => hcomplete⟩
      · exact hfail w h
      · exact ⟨h, Bool.eq_false_iff.mpr hcomplete⟩
  | cons poll polls ih =>
      rw [CodeStudy.Samba.sendAndReceiveLoop]
      split_ifs with hcomplete hopen hfailed htimeout
      · exact ⟨h, fun _ => hcomplete⟩
      · exact hfail w h
      · exact hfail w h
      · exact ih h
      · split
        · trivial
        · rename_i ret w₁ hservice
          have hserved : Inv w₁ := rule.smb2Service (w := w.supply poll.rx poll.writevs)
            (rule.socket _ h) hservice
          split_ifs with hret
          · exact hfail w₁ hserved
          · exact ih hserved

theorem sendAndReceive (rule : ExchangeRule env Inv Reply) (h : Inv w.beginSendReceive) (polls : List Poll) :
    Ends Inv (CodeStudy.Samba.sendAndReceive env polls w) := rule.sendAndReceiveLoop h polls

end ExchangeRule

/-- A state of the receive loop occurs in an exchange that what the socket does drives. -/
inductive During (env : Env) : List Poll → World → RecvState → Prop where
  | here {poll : Poll} {polls : List Poll} {w : World} {s : RecvState}
      (h : Step.Reached (recvStep env) { world := w.supply poll.rx poll.writevs } s) :
      During env (poll :: polls) w s
  | quiet {poll : Poll} {polls : List Poll} {w : World} {s : RecvState} (hquiet : poll.isTimeout)
      (h : During env polls w s) : During env (poll :: polls) w s
  | later {poll : Poll} {polls : List Poll} {w w' : World} {ret : Int} {s : RecvState}
      (hservice : smb2Service env (w.supply poll.rx poll.writevs) poll = some (ret, w'))
      (hret : ¬ ret < 0) (h : During env polls w' s) : During env (poll :: polls) w s

theorem ExchangeRule.during {env : Env} {Inv : World → Prop} {Reply : Smb2Pdu → World → Prop} {w : World}
    {s : RecvState} {polls : List Poll} (rule : ExchangeRule env Inv Reply) (h : Inv w)
    (hduring : During env polls w s) : s.Phase Inv Reply := by
  induction hduring with
  | here hreached => exact rule.reached (rule.socket _ h) hreached
  | quiet _ _ ih => exact ih h
  | later hservice _ _ ih => exact ih (rule.smb2Service (rule.socket _ h) hservice)

end CodeStudy.Samba
