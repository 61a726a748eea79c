import CodeStudy.Samba.Pending

/-!
# What becomes of every request

On one connection a request that was queued waits to be sent, waits for its reply, or has been matched to a reply, and
it is in one of these places only. A reply is handled after it was matched, and once at most.
-/

namespace CodeStudy.Samba

/-- The requests that were not sent yet. -/
def World.unsent (w : World) : List Smb2Pdu := w.smb2.outqueue.values.flatMap PduChain.members

/-- The requests that were sent and not answered yet. -/
def World.waiting (w : World) : List Smb2Pdu := w.smb2.waitqueue.values

def Event.answered : Event → List Smb2Pdu
  | .header _ _ _ request => [request]
  | _ => []

def Event.handled : Event → List Smb2Pdu
  | .processed pdu => [pdu]
  | _ => []

/-- All requests that were matched to a reply, last to first. -/
abbrev answeredPdus (trace : List Event) : List Smb2Pdu := trace.flatMap Event.answered

/-- All replies that were handled, last to first. -/
abbrev handledPdus (trace : List Event) : List Smb2Pdu := trace.flatMap Event.handled

/-- Every request that was queued is in one place. -/
def InOnePlace (w : World) : Prop := (w.unsent ++ w.waiting ++ answeredPdus w.trace).Perm (queuedPdus w.trace)

variable {first : Nat} {env : Env} {w w' : World}

/-! ### The ids of what was queued -/

theorem queuedPdus_sublist (trace : List Event) : (queuedPdus trace).Sublist (numberedPdus trace) := by
  induction trace with
  | nil => exact .refl _
  | cons event older ih =>
    apply ih.append
    cases event with
    | queued chain => exact .refl _
    | _ => exact List.nil_sublist _

theorem members_sublist {trace : List Event} {chain : PduChain} (h : .queued chain ∈ trace) :
    chain.members.Sublist (queuedPdus trace) := by
  induction trace with
  | nil => cases h
  | cons event older ih =>
    rcases List.mem_cons.mp h with rfl | h
    · exact List.sublist_append_right _ _
    · exact (ih h).trans (List.sublist_append_left _ _)

/-- Two requests never have the same id. -/
theorem IdInv.nodup_ids (h : IdInv first w) : ((queuedPdus w.trace).map Smb2Pdu.messageId).Nodup := by
  have hapart := h.numbered.pairwise.sublist (queuedPdus_sublist w.trace)
  apply List.pairwise_map.mpr
  apply hapart.imp
  intro pdu pdu' hle heq
  have hpos := pdu.idSpan_pos
  omega

/-! ### Every request -/

theorem answeredPdus_append {evs older : List Event} (h : ∀ event ∈ evs, event.answered = []) :
    answeredPdus (evs ++ older) = answeredPdus older := by
  rw [answeredPdus, List.flatMap_append, List.flatMap_eq_nil_iff.mpr h, List.nil_append]

theorem queuedPdus_append (evs : List Event) {older : List Event} (h : ∀ event ∈ evs, event.enqueued = []) :
    queuedPdus (evs ++ older) = queuedPdus older := by
  induction evs with
  | nil => rfl
  | cons event evs ih =>
    obtain ⟨hevent, hevs⟩ := List.forall_mem_cons.mp h
    rw [List.cons_append, queuedPdus, ih hevs, hevent, List.append_nil]

theorem perm_waiting_smb2PduAddToWaitqueue {pdus : List Smb2Pdu} {w : World}
    (hnodup : (pdus.map Smb2Pdu.messageId).Nodup)
    (hnew : ∀ pdu ∈ pdus, w.smb2.waitqueue.lookup pdu.messageId = none) :
    (smb2PduAddToWaitqueue pdus w).waiting.Perm (pdus ++ w.waiting) := by
  induction pdus generalizing w with
  | nil => exact .refl _
  | cons pdu pdus ih =>
    obtain ⟨hfresh, hnodup⟩ := List.nodup_cons.mp hnodup
    obtain ⟨hpdu, hnew⟩ := List.forall_mem_cons.mp hnew
    rw [smb2PduAddToWaitqueue]
    refine (ih hnodup ?_).trans ?_
    · intro other hother
      have hne : other.messageId ≠ pdu.messageId := by
        intro heq
        exact hfresh (heq ▸ List.mem_map_of_mem hother)
      rw [World.log, OrdMap.lookup_insert, if_neg hne, hnew other hother]
    · exact ((OrdMap.perm_values_insert hpdu pdu).append_left pdus).trans List.perm_middle

namespace InOnePlace

theorem idle (h : InOnePlace w) (evs : List Event) (htrace : w'.trace = evs ++ w.trace)
    (hanswered : ∀ event ∈ evs, event.answered = []) (hqueued : ∀ event ∈ evs, event.enqueued = [])
    (hout : w'.smb2.outqueue.values.Perm w.smb2.outqueue.values) (hwait : w'.smb2.waitqueue = w.smb2.waitqueue) :
    InOnePlace w' := by
  unfold InOnePlace World.unsent World.waiting
  rw [htrace, answeredPdus_append hanswered, queuedPdus_append evs hqueued, hwait]
  exact (((hout.flatMap_right _).append_right _).append_right _).trans h

theorem queue (h : InOnePlace w) (hinv : IdInv first w) {chain : PduChain} {err : Option String}
    (hqueue : smb2QueuePdu env w chain = (err, w')) (hone : OneConnection first w'.trace) : InOnePlace w' := by
  obtain ⟨smb2, encoded, hspec, ⟨-, queued, hmembers, rfl⟩ | ⟨-, rfl⟩⟩ := smb2QueuePdu_cases hqueue
  · have hids := hone.ids
    rw [World.log, numberedPdus, idsTaken_append, ← Nat.add_assoc, ← hinv.next] at hids
    obtain ⟨hnumbered, -⟩ := hspec.numbered (hmembers ▸ hids)
    rw [← hmembers] at hnumbered
    have hhead : queued.head.messageId = w.smb2.messageId.toNat := hnumbered.1
    -- the counter has not been a message id yet
    have hnew : w.smb2.outqueue.lookup queued.head.messageId = none := by
      by_contra hsome
      obtain ⟨other, hother⟩ := Option.ne_none_iff_exists'.mp hsome
      obtain ⟨hkey, hqueued⟩ := hinv.out _ other hother
      have hlt := hinv.queued_lt hqueued other.head_mem_members
      omega
    have hunsent := (OrdMap.perm_values_insert hnew queued).flatMap_right PduChain.members
    rw [List.flatMap_cons] at hunsent
    have hmoved : (queued.members ++ w.unsent ++ w.waiting ++ answeredPdus w.trace).Perm
        (queuedPdus w.trace ++ queued.members) := by
      rw [List.append_assoc, List.append_assoc, ← List.append_assoc w.unsent]
      exact (h.append_left queued.members).trans List.perm_append_comm
    exact ((hunsent.append_right w.waiting).append_right (answeredPdus w.trace)).trans hmoved
  · exact h.idle [.queueFailed encoded] rfl (by simp [Event.answered]) (by simp [Event.enqueued]) (.refl _) rfl

theorem accept (h : InOnePlace w) {hdr : Smb2Header} {request : Smb2Pdu} (offset : Nat)
    (hwaiting : w.smb2.waitqueue.lookup hdr.messageId.toNat = some request) :
    InOnePlace (w.accept offset hdr request) := by
  have hperm : w.waiting.Perm (request :: (w.smb2.waitqueue.erase hdr.messageId.toNat).values) :=
    OrdMap.perm_values_erase hwaiting
  have hqueued : queuedPdus (w.accept offset hdr request).trace = queuedPdus w.trace :=
    queuedPdus_append [.header offset hdr w.smb2.credits request] (by simp [Event.enqueued])
  rw [InOnePlace, hqueued]
  refine List.Perm.trans ?_ h
  have hmoved := ((hperm.append_left w.unsent).append_right (answeredPdus w.trace)).symm
  refine List.Perm.trans ?_ hmoved
  show (w.unsent ++ (w.smb2.waitqueue.erase hdr.messageId.toNat).values ++ request :: answeredPdus w.trace).Perm _
  rw [List.append_assoc, List.append_assoc]
  exact List.perm_middle.append_left _

theorem transmit (h : InOnePlace w) (hinv : IdInv first w) {key : Nat} {chain : PduChain}
    (hchain : w.smb2.outqueue.lookup key = some chain) : InOnePlace (w.transmit key chain) := by
  obtain ⟨-, hqueued⟩ := hinv.out key chain hchain
  obtain ⟨evs, htrace, hsent, -⟩ := trace_transmit w key chain
  have hsilent : ∀ event ∈ evs ++ [.transmitted w.smb2.dialect w.smb2.credits chain],
      event.answered = [] ∧ event.enqueued = [] := by
    intro event hevent
    rcases List.mem_append.mp hevent with hevent | hevent
    · obtain ⟨credits, pdu, -, rfl⟩ := hsent event hevent
      exact ⟨rfl, rfl⟩
    · cases List.mem_singleton.mp hevent
      exact ⟨rfl, rfl⟩
  have htrace' : (w.transmit key chain).trace =
      (evs ++ [.transmitted w.smb2.dialect w.smb2.credits chain]) ++ w.trace := by
    rw [htrace, List.append_assoc, List.singleton_append]
  have hunsent : w.unsent.Perm (chain.members ++ (w.transmit key chain).unsent) := by
    rw [World.unsent, World.unsent, outqueue_transmit, ← List.flatMap_cons]
    exact (OrdMap.perm_values_erase hchain).flatMap_right _
  have hwaiting : (w.transmit key chain).waiting.Perm (chain.members ++ w.waiting) := by
    refine perm_waiting_smb2PduAddToWaitqueue ?_ ?_
    · exact hinv.nodup_ids.sublist ((members_sublist hqueued).map _)
    · intro pdu hpdu
      by_contra hsome
      obtain ⟨other, hother⟩ := Option.ne_none_iff_exists'.mp hsome
      obtain ⟨hid, hs⟩ := hinv.wait _ other hother
      exact hinv.unsent key chain hchain pdu hpdu other hs hid.symm
  rw [InOnePlace, htrace', answeredPdus_append fun event he => (hsilent event he).1,
    queuedPdus_append _ fun event he => (hsilent event he).2]
  refine List.Perm.trans ?_ h
  apply List.Perm.append_right
  refine (hwaiting.append_left _).trans ?_
  rw [← List.append_assoc]
  exact (List.perm_append_comm.trans hunsent.symm).append_right _

theorem requeue (h : InOnePlace w) (hinv : IdInv first w) {key : Nat} {chain : PduChain}
    (hchain : w.smb2.outqueue.lookup key = some chain) : InOnePlace (w.requeue key chain) := by
  have hkey := (hinv.out key chain hchain).1
  refine h.idle [] rfl (by simp) (by simp) ?_ rfl
  rw [World.requeue, ← hkey]
  refine (OrdMap.perm_values_insert ?_ chain).trans (OrdMap.perm_values_erase hchain).symm
  rw [OrdMap.lookup_erase, if_pos rfl]

theorem step (h : InOnePlace w) (hinv : IdInv first w) (hstep : ClientStep env w w')
    (hone : OneConnection first w'.trace) : InOnePlace w' := by
  cases hstep.queueStep with
  | idle evs htrace hevs hout hwait hcredits =>
    have hsilent : ∀ event ∈ evs, event.answered = [] ∧ event.enqueued = [] := by
      intro event hevent
      have hidle := hevs event hevent
      cases event with
      | closed | frame | rejected | processed => exact ⟨rfl, rfl⟩
      | connected | queued | queueFailed | transmitted | sent | header => cases hidle
    exact h.idle evs htrace (fun event he => (hsilent event he).1) (fun event he => (hsilent event he).2)
      (hout ▸ .refl _) hwait
  | connect conn =>
    exact h.idle [.connected w.smb2.credits] rfl (by simp [Event.answered]) (by simp [Event.enqueued])
      (.refl _) rfl
  | queue first' others hqueue => exact h.queue hinv hqueue hone
  | accept offset hwaiting => exact h.accept offset hwaiting
  | transmit hchain hcredits => exact h.transmit hinv hchain
  | requeue hchain => exact h.requeue hinv hchain

end InOnePlace

/-! ### Replies -/

/-- A header was matched to the request with its id, which had been sent, and a reply is handled right after its
header was matched. -/
structure Answers (trace : List Event) : Prop where
  matched : ∀ offset hdr credits request, .header offset hdr credits request ∈ trace →
    hdr.messageId.toNat = request.messageId ∧ Sent trace request
  handled : ((handledPdus trace).map Smb2Pdu.messageId).Sublist ((answeredPdus trace).map Smb2Pdu.messageId)
  last : ∀ offset hdr credits request older, trace = .header offset hdr credits request :: older →
    ((handledPdus older).map Smb2Pdu.messageId).Sublist ((answeredPdus older).map Smb2Pdu.messageId)

namespace Answers

variable {trace : List Event}

theorem silent (h : Answers trace) (evs : List Event) (hne : evs ≠ [])
    (hevs : ∀ event ∈ evs, event.answered = [] ∧ event.handled = []) : Answers (evs ++ trace) := by
  have hanswered : evs.flatMap Event.answered = [] := List.flatMap_eq_nil_iff.mpr fun event he => (hevs event he).1
  have hhandled : evs.flatMap Event.handled = [] := List.flatMap_eq_nil_iff.mpr fun event he => (hevs event he).2
  constructor
  · intro offset hdr credits request hmem
    rcases List.mem_append.mp hmem with hnew | hold
    · have habsurd := (hevs _ hnew).1
      cases habsurd
    · obtain ⟨hid, credits', hsent⟩ := h.matched offset hdr credits request hold
      exact ⟨hid, credits', List.mem_append_right _ hsent⟩
  · rw [handledPdus, answeredPdus, List.flatMap_append, List.flatMap_append, hanswered, hhandled]
    exact h.handled
  · intro offset hdr credits request older heq
    obtain ⟨event, evs, rfl⟩ := List.exists_cons_of_ne_nil hne
    obtain ⟨rfl, -⟩ := List.cons.inj heq
    have habsurd := (hevs _ List.mem_cons_self).1
    cases habsurd

theorem accept (h : Answers trace) {offset : Nat} {hdr : Smb2Header} {credits : UInt32} {request : Smb2Pdu}
    (hid : hdr.messageId.toNat = request.messageId) (hsent : Sent trace request) :
    Answers (.header offset hdr credits request :: trace) := by
  have hlater {pdu : Smb2Pdu} (hpdu : Sent trace pdu) : Sent (.header offset hdr credits request :: trace) pdu := by
    obtain ⟨credits', hmem⟩ := hpdu
    exact ⟨credits', List.mem_cons_of_mem _ hmem⟩
  constructor
  · intro offset' hdr' credits' request' hmem
    rcases List.mem_cons.mp hmem with heq | hold
    · cases heq
      exact ⟨hid, hlater hsent⟩
    · exact (h.matched offset' hdr' credits' request' hold).imp_right hlater
  · exact h.handled.trans (List.sublist_cons_self _ _)
  · intro offset' hdr' credits' request' older heq
    obtain ⟨-, rfl⟩ := List.cons.inj heq
    exact h.handled

theorem process (h : Answers trace) {offset : Nat} {hdr : Smb2Header} {credits : UInt32} {request pdu : Smb2Pdu}
    {older : List Event} (htrace : trace = .header offset hdr credits request :: older)
    (hanswer : AnswerTo request hdr pdu) : Answers (.processed pdu :: trace) := by
  have hid : pdu.messageId = request.messageId := by rw [Smb2Pdu.messageId, hanswer.header, Smb2Pdu.messageId]
  constructor
  · intro offset' hdr' credits' request' hmem
    obtain ⟨hsame, credits'', hsent⟩ := h.matched offset' hdr' credits' request'
      ((List.mem_cons.mp hmem).resolve_left Event.noConfusion)
    exact ⟨hsame, credits'', List.mem_cons_of_mem _ hsent⟩
  · have hbefore := h.last offset hdr credits request older htrace
    rw [htrace]
    show (pdu.messageId :: (handledPdus older).map Smb2Pdu.messageId).Sublist
      (request.messageId :: (answeredPdus older).map Smb2Pdu.messageId)
    rw [hid]
    exact hbefore.cons_cons _
  · intro offset' hdr' credits' request' older' heq
    cases (List.cons.inj heq).1

theorem queuePdu (h : Answers w.trace) {chain : PduChain} {err : Option String}
    (hqueue : smb2QueuePdu env w chain = (err, w')) : Answers w'.trace := by
  obtain ⟨smb2, encoded, -, ⟨-, queued, -, rfl⟩ | ⟨-, rfl⟩⟩ := smb2QueuePdu_cases hqueue
  · exact h.silent [.queued queued] (by simp) (by simp [Event.answered, Event.handled])
  · exact h.silent [.queueFailed encoded] (by simp) (by simp [Event.answered, Event.handled])

theorem step (h : Answers w.trace) (hinv : IdInv first w) (hstep : ClientStep env w w') : Answers w'.trace := by
  have hsilent (event : Event) (hevent : event.answered = [] ∧ event.handled = []) : Answers (event :: w.trace) :=
    h.silent [event] (by simp) (by simpa using hevent)
  cases hstep with
  | start => exact h
  | connect conn => exact hsilent _ ⟨rfl, rfl⟩
  | request first' others hqueue => exact h.queuePdu hqueue
  | act hact =>
    cases hact with
    | quiet hquiet => exact hquiet.trace ▸ h
    | finish => exact h
    | close => exact hsilent _ ⟨rfl, rfl⟩
    | queue spec hqueue => exact h.queuePdu hqueue
    | frame spl => exact hsilent _ ⟨rfl, rfl⟩
    | accept offset hwaiting =>
      obtain ⟨hid, hsent⟩ := hinv.wait _ _ hwaiting
      exact h.accept hid hsent
    | reject hnone => exact hsilent _ ⟨rfl, rfl⟩
    | process htrace hfinal hanswer => exact h.process htrace hanswer
    | @transmit key chain hchain hcredits =>
      obtain ⟨evs, htrace, hsent, -⟩ := trace_transmit w key chain
      rw [htrace]
      have htransmitted := hsilent (.transmitted w.smb2.dialect w.smb2.credits chain) ⟨rfl, rfl⟩
      rcases List.eq_nil_or_concat evs with rfl | hconcat
      · exact htransmitted
      · refine htransmitted.silent _ ?_ ?_
        · obtain ⟨before, last, rfl⟩ := hconcat
          simp
        · intro event hevent
          obtain ⟨credits, pdu, -, rfl⟩ := hsent event hevent
          exact ⟨rfl, rfl⟩
    | requeue hchain => exact h

end Answers

/-- What is true of the requests of a connection. -/
structure RequestsAccounted (w : World) : Prop where
  place : (w.unsent ++ w.waiting ++ answeredPdus w.trace).Perm (queuedPdus w.trace)
  distinct : ((w.unsent ++ w.waiting ++ answeredPdus w.trace).map Smb2Pdu.messageId).Nodup
  matched : ∀ offset hdr credits request, .header offset hdr credits request ∈ w.trace →
    hdr.messageId.toNat = request.messageId ∧ Sent w.trace request
  handled : ((handledPdus w.trace).map Smb2Pdu.messageId).Sublist ((answeredPdus w.trace).map Smb2Pdu.messageId)

/-- In every run on one connection, each request that was queued is in one place, no two of them have the same id, a
reply is matched to the request with its id, which had been sent, and it is handled at most once. -/
theorem requestsAccounted_of_run {ops : List ClientOp} (hstart : CleanStart w)
    (hrun : ClientOp.run env ops w = some w') (hone : OneConnection w.smb2.messageId.toNat w'.trace) :
    RequestsAccounted w' := by
  have hsteps : ∀ {u : World}, ClientSteps env w u → OneConnection w.smb2.messageId.toNat u.trace →
      IdInv w.smb2.messageId.toNat u ∧ InOnePlace u ∧ Answers u.trace := by
    intro u hsteps hone
    induction hsteps with
    | refl =>
      refine ⟨hstart.idInv, ?_, ?_⟩
      · simp [InOnePlace, World.unsent, World.waiting, OrdMap.values, OrdMap.entries_empty, hstart.outqueue,
          hstart.waitqueue, hstart.trace, queuedPdus]
      · rw [hstart.trace]
        exact ⟨by simp, .refl _, by simp⟩
    | tail _ hlast ih =>
      obtain ⟨evs, htrace⟩ := hlast.trace
      obtain ⟨hinv, haccounted, hanswers⟩ := ih (OneConnection.suffix (htrace ▸ hone))
      exact ⟨hinv.step hlast hone, haccounted.step hinv hlast hone, hanswers.step hinv hlast⟩
  obtain ⟨hinv, haccounted, hanswers⟩ := hsteps (ClientOp.run_steps hrun) hone
  exact ⟨haccounted, (haccounted.map _).nodup_iff.mpr hinv.nodup_ids, hanswers.matched, hanswers.handled⟩

/-- An ECHO was sent and answered, and a second one is queued. -/
theorem requestsAccounted_twoEchoes :
    ∃ w, ClientOp.run plainEnv (sendEcho ++ [.receive (echoFrame NtStatus.success 0), .request (echoRequest 1) []])
        (idleClient 0) = some w ∧
      RequestsAccounted w ∧ w.unsent.length = 1 ∧ w.waiting.length = 0 ∧ (handledPdus w.trace).length = 1 := by
  have hall : (ClientOp.run plainEnv (sendEcho ++ [.receive (echoFrame NtStatus.success 0),
      .request (echoRequest 1) []]) (idleClient 0)).any (fun w =>
      (∀ event ∈ w.trace, event.isClosed = false) ∧ 0 + idsTaken (numberedPdus w.trace) < 2 ^ 64 ∧
        w.unsent.length = 1 ∧ w.waiting.length = 0 ∧ (handledPdus w.trace).length = 1) = true := by decide
  rw [Option.any_eq_true] at hall
  obtain ⟨w, hw, hall⟩ := hall
  rw [decide_eq_true_eq] at hall
  obtain ⟨hclosed, hids, hplaces⟩ := hall
  exact ⟨w, hw, requestsAccounted_of_run (w := idleClient 0) ⟨rfl, rfl, rfl⟩ hw ⟨hclosed, hids⟩, hplaces⟩

end CodeStudy.Samba
