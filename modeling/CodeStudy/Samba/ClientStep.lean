import Mathlib.Logic.Relation
import CodeStudy.Samba.HandlerEffect
import CodeStudy.Samba.Socket.Write

/-!
# The steps of a client

Whatever a client does, its queues, credits and message ids change in a few ways only. `Act` lists
those that happen while replies are received and requests are sent, `ClientStep` adds what the
callers of the library do. The functions of the program are sequences of such steps, so a property
that every step keeps holds throughout every run.
-/

namespace CodeStudy.Samba

/-- A reply as far as it was read, for the request it answers. -/
structure AnswerTo (request : Smb2Pdu) (hdr : Smb2Header) (pdu : Smb2Pdu) : Prop where
  command : pdu.command = request.command
  header : pdu.header = request.header
  appData : pdu.appData = request.appData
  headerResp : pdu.headerResp = hdr

/-- Nothing changes but texts, buffers, keys and the bytes on the connection. -/
structure Quiet (w w' : World) : Prop where
  outqueue : w'.smb2.outqueue = w.smb2.outqueue
  waitqueue : w'.smb2.waitqueue = w.smb2.waitqueue
  credits : w'.smb2.credits = w.smb2.credits
  messageId : w'.smb2.messageId = w.smb2.messageId
  isComplete : w'.smb2.isComplete = w.smb2.isComplete
  isOpen : w'.socket.fd.isSome = w.socket.fd.isSome
  trace : w'.trace = w.trace
  fh : ∀ address, (w'.mem.app address).fh = (w.mem.app address).fh

theorem SameQueues.quiet {w w' : World} (h : SameQueues w w') : Quiet w w' :=
  ⟨h.outqueue, h.waitqueue, h.credits, h.messageId, h.isComplete, by rw [h.socket], h.trace, h.fh⟩

theorem Quiet.trans {w w₁ w' : World} (h : Quiet w w₁) (h' : Quiet w₁ w') : Quiet w w' where
  outqueue := h'.outqueue.trans h.outqueue
  waitqueue := h'.waitqueue.trans h.waitqueue
  credits := h'.credits.trans h.credits
  messageId := h'.messageId.trans h.messageId
  isComplete := h'.isComplete.trans h.isComplete
  isOpen := h'.isOpen.trans h.isOpen
  trace := h'.trace.trans h.trace
  fh := fun address => (h'.fh address).trans (h.fh address)

/-- A change of the socket that keeps it open, or closed. -/
theorem Quiet.setSocket (w : World) (socket : Smb2Socket)
    (h : socket.fd.isSome = w.socket.fd.isSome) : Quiet w { w with socket } :=
  ⟨rfl, rfl, rfl, rfl, rfl, h, rfl, fun _ => rfl⟩

namespace World

/-- The world after a reply header was matched to its request. -/
def accept (w : World) (offset : Nat) (hdr : Smb2Header) (request : Smb2Pdu) : World :=
  { w with smb2 := { w.smb2 with
    waitqueue := w.smb2.waitqueue.erase hdr.messageId.toNat
    credits := w.smb2.credits + hdr.creditRequestResponse.toUInt32 } }.log
      (.header offset hdr w.smb2.credits request)

/-- The world after a chain was sent. -/
def transmit (w : World) (key : Nat) (chain : PduChain) : World :=
  smb2PduAddToWaitqueue chain.members <|
    { w with smb2 := { w.smb2 with outqueue := w.smb2.outqueue.erase key } }.log
      (.transmitted w.smb2.dialect w.smb2.credits chain)

/-- The world after a chain was taken out of `outqueue` and put back. -/
def requeue (w : World) (key : Nat) (chain : PduChain) : World :=
  { w with smb2 := { w.smb2 with
    outqueue := (w.smb2.outqueue.erase key).insert chain.head.messageId chain } }

/-- The world after a connection was made. -/
def connect (w : World) (conn : Connection) : World :=
  { w with socket := { fd := some conn, bConnected := true } }.log (.connected w.smb2.credits)

/-- The world when an exchange begins. -/
def beginSendReceive (w : World) : World := { w with smb2 := { w.smb2 with isComplete := false } }

end World

/-- What happens while replies are received and requests are sent. -/
inductive Act (env : Env) (w : World) : World → Prop where
  | quiet {w' : World} (h : Quiet w w') : Act env w w'
  | finish : Act env w w.endSendReceive
  | close : Act env w w.close
  | queue (spec : RequestSpec) {err : Option String} {w' : World}
      (h : queueRequest env w spec = (err, w')) : Act env w w'
  | frame (spl : UInt32) : Act env w (w.log (.frame spl))
  | accept (offset : Nat) {hdr : Smb2Header} {request : Smb2Pdu}
      (h : w.smb2.waitqueue.lookup hdr.messageId.toNat = some request) :
      Act env w (w.accept offset hdr request)
  | reject {hdr : Smb2Header} (h : w.smb2.waitqueue.lookup hdr.messageId.toNat = none) :
      Act env w (w.log (.rejected hdr))
  | process {offset : Nat} {hdr : Smb2Header} {credits : UInt32} {request pdu : Smb2Pdu}
      {older : List Event} (htrace : w.trace = .header offset hdr credits request :: older)
      (hfinal : hdr.status ≠ NtStatus.pending) (hanswer : AnswerTo request hdr pdu) :
      Act env w (w.log (.processed pdu))
  | transmit {key : Nat} {chain : PduChain} (h : w.smb2.outqueue.lookup key = some chain)
      (hcredits : ¬ insufficientCredits w.smb2 chain) : Act env w (w.transmit key chain)
  | requeue {key : Nat} {chain : PduChain} (h : w.smb2.outqueue.lookup key = some chain) :
      Act env w (w.requeue key chain)

abbrev Acts (env : Env) : World → World → Prop := Relation.ReflTransGen (Act env)

/-- What happens while requests are sent. -/
inductive SendStep (w : World) : World → Prop where
  | quiet {w' : World} (h : Quiet w w') : SendStep w w'
  | transmit {key : Nat} {chain : PduChain} (h : w.smb2.outqueue.lookup key = some chain)
      (hcredits : ¬ insufficientCredits w.smb2 chain) : SendStep w (w.transmit key chain)
  | requeue {key : Nat} {chain : PduChain} (h : w.smb2.outqueue.lookup key = some chain) :
      SendStep w (w.requeue key chain)

theorem SendStep.act {w w' : World} (h : SendStep w w') (env : Env) : Act env w w' := by
  cases h with
  | quiet h => exact .quiet h
  | transmit h hcredits => exact .transmit h hcredits
  | requeue h => exact .requeue h

/-! ### Handlers -/

/-- Events that belong to the handling of one reply. -/
def Event.isReply : Event → Bool
  | .header .. | .processed _ => true
  | _ => false

theorem smb2QueuePdu_trace (env : Env) (w : World) (chain : PduChain) :
    ∃ event : Event, event.isReply = false ∧
      (smb2QueuePdu env w chain).2.trace = event :: w.trace := by
  rw [smb2QueuePdu]
  split
  · exact ⟨_, rfl, rfl⟩
  · exact ⟨_, rfl, rfl⟩

theorem smb2QueuePdu_socket (env : Env) (w : World) (chain : PduChain) :
    (smb2QueuePdu env w chain).2.socket = w.socket := by
  rw [smb2QueuePdu]
  split <;> rfl

/-- A handler leaves the socket alone, or closes it. -/
theorem HandlerEffect.socket {env : Env} {pdu : Smb2Pdu} {w w' : World}
    (h : HandlerEffect env pdu w w') : w'.socket = w.socket ∨ w'.socket = {} := by
  cases h with
  | ignored same => exact Or.inl same.socket
  | ended same => exact Or.inl same.socket
  | closed same => exact Or.inr same.socket
  | @queued w₁ spec same queue | @dropped w₁ spec _ same queue =>
      have hsocket := smb2QueuePdu_socket env w₁ { head := createPdu w₁.smb2 spec }
      rw [← queueRequest, queue] at hsocket
      exact Or.inl (hsocket.trans same.socket)
  | refused _ _ after => exact Or.inr after.socket

theorem HandlerEffect.trace {env : Env} {pdu : Smb2Pdu} {w w' : World}
    (h : HandlerEffect env pdu w w') :
    ∃ more : List Event, w'.trace = more ++ w.trace ∧ ∀ event ∈ more, event.isReply = false := by
  cases h with
  | ignored same => exact ⟨[], same.trace, by simp⟩
  | ended same => exact ⟨[], same.trace, by simp⟩
  | closed same => exact ⟨[.closed], same.trace, by simp [Event.isReply]⟩
  | @queued w₁ spec same queue | @dropped w₁ spec _ same queue =>
      obtain ⟨event, hevent, htrace⟩ := smb2QueuePdu_trace env w₁ { head := createPdu w₁.smb2 spec }
      rw [← queueRequest, queue, same.trace] at htrace
      exact ⟨[event], htrace, by simpa using hevent⟩
  | @refused w₁ w₂ spec _ same queue after =>
      obtain ⟨event, hevent, htrace⟩ := smb2QueuePdu_trace env w₁ { head := createPdu w₁.smb2 spec }
      rw [← queueRequest, queue, same.trace] at htrace
      refine ⟨[.closed, event], ?_, by simpa [Event.isReply] using hevent⟩
      rw [after.trace, World.endSendReceive, World.close, World.log, htrace]
      rfl

/-- What a handler did, as steps. -/
theorem HandlerEffect.acts {env : Env} {pdu : Smb2Pdu} {w w' : World}
    (h : HandlerEffect env pdu w w') : Acts env w w' := by
  have quiet {w w' : World} (h : SameQueues w w') : Acts env w w' := .single (.quiet h.quiet)
  have closed {w w' : World} (h : SameQueues w.close.endSendReceive w') : Acts env w w' :=
    ((Relation.ReflTransGen.single .close).tail .finish).trans (quiet h)
  cases h with
  | ignored same => exact quiet same
  | ended same => exact (Relation.ReflTransGen.single .finish).trans (quiet same)
  | closed same => exact closed same
  | queued same queue => exact (quiet same).tail (.queue _ queue)
  | dropped same queue => exact (quiet same).tail (.queue _ queue)
  | refused same queue after => exact ((quiet same).tail (.queue _ queue)).trans (closed after)

/-! ### Callers -/

/-- What happens while replies are received and requests are sent, or what a caller does. -/
inductive ClientStep (env : Env) (w : World) : World → Prop where
  | act {w' : World} (h : Act env w w') : ClientStep env w w'
  | start : ClientStep env w w.beginSendReceive
  | connect (conn : Connection) (h : w.socket.fd = none) : ClientStep env w (w.connect conn)
  | request (first : RequestSpec) (others : List RequestSpec) {err : Option String} {w' : World}
      (h : smb2QueuePdu env w (createChain w.smb2 first others) = (err, w')) : ClientStep env w w'

abbrev ClientSteps (env : Env) : World → World → Prop := Relation.ReflTransGen (ClientStep env)

theorem Acts.steps {env : Env} {w w' : World} (h : Acts env w w') : ClientSteps env w w' :=
  Relation.ReflTransGen.mono (fun _ _ hact => ClientStep.act hact) _ _ h

/-- A property that every step keeps holds at the end when it holds at the beginning. -/
theorem ClientSteps.invariant {env : Env} {Inv : World → Prop}
    (hstep : ∀ w w', Inv w → ClientStep env w w' → Inv w') {w w' : World} (hw : Inv w)
    (h : ClientSteps env w w') : Inv w' := by
  induction h with
  | refl => exact hw
  | tail _ hlast ih => exact hstep _ _ ih hlast

/-! ### What a step does to the queues -/

/-- Events that have nothing to do with the queues. -/
def Event.isIdle : Event → Bool
  | .closed | .frame _ | .rejected _ | .processed _ => true
  | _ => false

/-- What a step does to the queues and to the credits. -/
inductive QueueStep (env : Env) (w : World) : World → Prop where
  | idle {w' : World} (evs : List Event) (htrace : w'.trace = evs ++ w.trace)
      (hevs : ∀ event ∈ evs, event.isIdle) (hout : w'.smb2.outqueue = w.smb2.outqueue)
      (hwait : w'.smb2.waitqueue = w.smb2.waitqueue)
      (hcredits : w'.smb2.credits = w.smb2.credits) : QueueStep env w w'
  | connect (conn : Connection) : QueueStep env w (w.connect conn)
  | queue (first : RequestSpec) (others : List RequestSpec) {err : Option String} {w' : World}
      (h : smb2QueuePdu env w (createChain w.smb2 first others) = (err, w')) : QueueStep env w w'
  | accept (offset : Nat) {hdr : Smb2Header} {request : Smb2Pdu}
      (h : w.smb2.waitqueue.lookup hdr.messageId.toNat = some request) :
      QueueStep env w (w.accept offset hdr request)
  | transmit {key : Nat} {chain : PduChain} (h : w.smb2.outqueue.lookup key = some chain)
      (hcredits : ¬ insufficientCredits w.smb2 chain) : QueueStep env w (w.transmit key chain)
  | requeue {key : Nat} {chain : PduChain} (h : w.smb2.outqueue.lookup key = some chain) :
      QueueStep env w (w.requeue key chain)

theorem ClientStep.queueStep {env : Env} {w w' : World} (h : ClientStep env w w') :
    QueueStep env w w' := by
  cases h with
  | start => exact .idle [] rfl (by simp) rfl rfl rfl
  | connect conn => exact .connect conn
  | request first others h => exact .queue first others h
  | act h =>
      cases h with
      | quiet h => exact .idle [] h.trace (by simp) h.outqueue h.waitqueue h.credits
      | finish => exact .idle [] rfl (by simp) rfl rfl rfl
      | close => exact .idle [_] rfl (by simp [Event.isIdle]) rfl rfl rfl
      | queue spec h => exact .queue spec [] h
      | frame spl => exact .idle [_] rfl (by simp [Event.isIdle]) rfl rfl rfl
      | accept offset h => exact .accept offset h
      | reject h => exact .idle [_] rfl (by simp [Event.isIdle]) rfl rfl rfl
      | process htrace hfinal hanswer => exact .idle [_] rfl (by simp [Event.isIdle]) rfl rfl rfl
      | transmit h hcredits => exact .transmit h hcredits
      | requeue h => exact .requeue h

end CodeStudy.Samba
