import CodeStudy.Samba.MessageIds
import CodeStudy.Samba.Socket.Frame

/-!
# Interim replies

A server that needs time answers a request with the status PENDING first and with the final reply
later, under the same message id. The request should stay outstanding in between. But matching a
header takes its request out of `waitqueue`, and nothing puts it back: after an interim reply the
request is gone, and the final reply is refused.
-/

namespace CodeStudy.Samba

def Event.replyTo (m : Nat) : Event → Option (Smb2Header × Smb2Pdu)
  | .header _ hdr _ request => if hdr.messageId.toNat = m then some (hdr, request) else none
  | _ => none

def Event.processedFor (m : Nat) : Event → Option Smb2Pdu
  | .processed pdu => if pdu.messageId = m then some pdu else none
  | _ => none

/-- The reply headers with a message id, and the requests they were matched to, newest first. -/
def repliesTo (m : Nat) (evs : List Event) : List (Smb2Header × Smb2Pdu) :=
  evs.filterMap (Event.replyTo m)

/-- The replies processed for a message id. -/
def processedFor (m : Nat) (evs : List Event) : List Smb2Pdu := evs.filterMap (Event.processedFor m)

/-- Every reply was processed right after its header was matched. -/
inductive Paired : List Event → Prop where
  | nil : Paired []
  | other {event : Event} {evs : List Event} (h : ∀ m, event.processedFor m = none)
      (hevs : Paired evs) : Paired (event :: evs)
  | processed {offset : Nat} {hdr : Smb2Header} {credits : UInt32} {request pdu : Smb2Pdu}
      {evs : List Event} (hfinal : hdr.status ≠ NtStatus.pending)
      (hanswer : AnswerTo request hdr pdu) (hevs : Paired evs) :
      Paired (.processed pdu :: .header offset hdr credits request :: evs)

/-- The replies with a message id that the client refused because no request waits for them. -/
def Event.refuses (m : Nat) : Event → Bool
  | .rejected hdr => hdr.messageId.toNat = m
  | _ => false

/-- What is known of the replies that were matched. -/
structure ReplyInv (w : World) : Prop where
  replied : ∀ offset hdr credits request, .header offset hdr credits request ∈ w.trace →
    request.messageId = hdr.messageId.toNat ∧ Sent w.trace request
  fresh : ∀ key pdu, w.smb2.waitqueue.lookup key = some pdu → repliesTo key w.trace = []
  paired : Paired w.trace

section

variable {first : Nat} {w w' : World} {env : Env}

theorem repliesTo_append (m : Nat) (evs older : List Event) :
    repliesTo m (evs ++ older) = repliesTo m evs ++ repliesTo m older := List.filterMap_append

theorem mem_repliesTo {m : Nat} {evs : List Event} {hdr : Smb2Header} {request : Smb2Pdu} :
    (hdr, request) ∈ repliesTo m evs ↔
      hdr.messageId.toNat = m ∧ ∃ offset credits, .header offset hdr credits request ∈ evs := by
  rw [repliesTo, List.mem_filterMap]
  constructor
  · rintro ⟨event, hmem, hevent⟩
    cases event with
    | header offset hdr' credits request' =>
        simp only [Event.replyTo] at hevent
        split_ifs at hevent with hid
        cases hevent
        exact ⟨hid, offset, credits, hmem⟩
    | _ => simp [Event.replyTo] at hevent
  · rintro ⟨hid, offset, credits, hmem⟩
    exact ⟨_, hmem, if_pos hid⟩

theorem repliesTo_eq_nil {m : Nat} {evs : List Event} (h : ∀ event ∈ evs, event.isReply = false) :
    repliesTo m evs = [] := by
  rw [repliesTo, List.filterMap_eq_nil_iff]
  intro event hevent
  have hplain := h event hevent
  cases event with
  | header => cases hplain
  | _ => rfl

theorem processedFor_eq_none {event : Event} (h : event.isReply = false) (m : Nat) :
    event.processedFor m = none := by
  cases event with
  | processed => cases h
  | _ => rfl

theorem Paired.append {evs older : List Event} (h : Paired older)
    (hevs : ∀ event ∈ evs, event.isReply = false) : Paired (evs ++ older) := by
  induction evs with
  | nil => exact h
  | cons event evs ih =>
      obtain ⟨hevent, hevs⟩ := List.forall_mem_cons.mp hevs
      exact .other (processedFor_eq_none hevent) (ih hevs)

theorem Sent.append {trace : List Event} {pdu : Smb2Pdu} (h : Sent trace pdu) (evs : List Event) :
    Sent (evs ++ trace) pdu := by
  obtain ⟨credits, hmem⟩ := h
  exact ⟨credits, List.mem_append_right _ hmem⟩

/-! ### Matched replies over runs -/

theorem CleanStart.replyInv (h : CleanStart w) : ReplyInv w := by
  refine ⟨by simp [h.trace], by simp [h.waitqueue], ?_⟩
  rw [h.trace]
  exact .nil

/-- Steps that match and process nothing, and let no more requests wait. -/
theorem ReplyInv.of_plain (h : ReplyInv w) (evs : List Event) (htrace : w'.trace = evs ++ w.trace)
    (hevs : ∀ event ∈ evs, event.isReply = false)
    (hwait : ∀ key pdu, w'.smb2.waitqueue.lookup key = some pdu → repliesTo key w.trace = []) :
    ReplyInv w' := by
  constructor
  · intro offset hdr credits request hmem
    rw [htrace] at hmem ⊢
    rcases List.mem_append.mp hmem with hmem | hmem
    · exact absurd (hevs _ hmem) (by simp [Event.isReply])
    · exact (h.replied offset hdr credits request hmem).imp_right fun hsent => hsent.append evs
  · intro key pdu hpdu
    rw [htrace, repliesTo_append, repliesTo_eq_nil hevs, hwait key pdu hpdu, List.nil_append]
  · rw [htrace]
    exact h.paired.append hevs

theorem ReplyInv.accept (h : ReplyInv w) (hinv : IdInv first w) {hdr : Smb2Header}
    {request : Smb2Pdu} (offset : Nat)
    (hwaiting : w.smb2.waitqueue.lookup hdr.messageId.toNat = some request) :
    ReplyInv (w.accept offset hdr request) := by
  obtain ⟨hkey, hsent⟩ := hinv.wait _ _ hwaiting
  constructor
  · intro offset' hdr' credits' request' hmem
    have hold : ∀ {pdu}, Sent w.trace pdu → Sent (w.accept offset hdr request).trace pdu :=
      fun hs => hs.append [_]
    rcases List.mem_cons.mp hmem with heq | hmem
    · cases heq
      exact ⟨hkey.symm, hold hsent⟩
    · exact (h.replied offset' hdr' credits' request' hmem).imp_right hold
  · intro key pdu hpdu
    rw [World.accept, World.log, OrdMap.lookup_erase] at hpdu
    split_ifs at hpdu with heq
    have hnone : Event.replyTo key (.header offset hdr w.smb2.credits request) = none :=
      if_neg (Ne.symm heq)
    rw [World.accept, World.log, repliesTo, List.filterMap_cons_none hnone]
    exact h.fresh key pdu hpdu
  · exact .other (fun _ => rfl) h.paired

theorem ReplyInv.process (h : ReplyInv w) {offset : Nat} {hdr : Smb2Header} {credits : UInt32}
    {request pdu : Smb2Pdu} {older : List Event}
    (htrace : w.trace = .header offset hdr credits request :: older)
    (hfinal : hdr.status ≠ NtStatus.pending) (hanswer : AnswerTo request hdr pdu) :
    ReplyInv (w.log (.processed pdu)) := by
  constructor
  · intro offset' hdr' credits' request' hmem
    rcases List.mem_cons.mp hmem with heq | hmem
    · cases heq
    · exact (h.replied offset' hdr' credits' request' hmem).imp_right fun hsent => hsent.append [_]
  · exact fun key pdu hpdu => h.fresh key pdu hpdu
  · have hpaired := h.paired
    rw [htrace] at hpaired
    rw [World.log, htrace]
    cases hpaired with
    | other _ holder => exact .processed hfinal hanswer holder

theorem ReplyInv.transmit (h : ReplyInv w) (hinv : IdInv first w) {key : Nat} {chain : PduChain}
    (hchain : w.smb2.outqueue.lookup key = some chain) : ReplyInv (w.transmit key chain) := by
  obtain ⟨evs, htrace, hsent, -⟩ := trace_transmit w key chain
  refine h.of_plain (evs ++ [.transmitted w.smb2.dialect w.smb2.credits chain]) (by rw [htrace]; simp)
    ?_ fun k pdu hpdu => ?_
  · intro event hevent
    rcases List.mem_append.mp hevent with hevent | hevent
    · obtain ⟨credits, pdu, -, rfl⟩ := hsent event hevent
      rfl
    · rw [List.mem_singleton.mp hevent]
      rfl
  · rcases lookup_smb2PduAddToWaitqueue _ _ hpdu with ⟨hmem, hk⟩ | hold
    · -- a request that was not sent before cannot have been answered
      rw [List.eq_nil_iff_forall_not_mem]
      rintro ⟨hdr, request⟩ hreply
      obtain ⟨hid, offset, credits, hheader⟩ := mem_repliesTo.mp hreply
      obtain ⟨hrequest, hsent⟩ := h.replied offset hdr credits request hheader
      exact hinv.unsent key chain hchain pdu hmem request hsent (by omega)
    · exact h.fresh k pdu hold

theorem ReplyInv.step (h : ReplyInv w) (hinv : IdInv first w) (hstep : ClientStep env w w') :
    ReplyInv w' := by
  have hqueue {chain : PduChain} {err : Option String} {w' : World}
      (hq : smb2QueuePdu env w chain = (err, w')) : ReplyInv w' := by
    obtain ⟨event, hevent, htrace⟩ := smb2QueuePdu_trace env w chain
    rw [hq] at htrace
    have hwait : w'.smb2.waitqueue = w.smb2.waitqueue := by
      obtain ⟨_, _, -, ⟨-, _, -, rfl⟩ | ⟨-, rfl⟩⟩ := smb2QueuePdu_cases hq <;> rfl
    exact h.of_plain [event] htrace (by simpa using hevent) fun key pdu hp =>
      h.fresh key pdu (hwait ▸ hp)
  cases hstep with
  | start => exact h.of_plain [] rfl (by simp) h.fresh
  | connect conn => exact h.of_plain [_] rfl (by simp [Event.isReply]) h.fresh
  | request first others hq => exact hqueue hq
  | act hact =>
      cases hact with
      | quiet hquiet =>
          exact h.of_plain [] hquiet.trace (by simp) fun key pdu hp =>
            h.fresh key pdu (hquiet.waitqueue ▸ hp)
      | finish => exact h.of_plain [] rfl (by simp) h.fresh
      | close => exact h.of_plain [_] rfl (by simp [Event.isReply]) h.fresh
      | queue spec hq => exact hqueue hq
      | frame spl => exact h.of_plain [_] rfl (by simp [Event.isReply]) h.fresh
      | accept offset hwaiting => exact h.accept hinv offset hwaiting
      | reject hnone => exact h.of_plain [_] rfl (by simp [Event.isReply]) h.fresh
      | process htrace hfinal hanswer => exact h.process htrace hfinal hanswer
      | transmit hchain hcredits => exact h.transmit hinv hchain
      | requeue hchain => exact h.of_plain [] rfl (by simp) h.fresh

/-- Both invariants hold throughout every run on one connection. -/
theorem CleanStart.replyInv_of_steps (hstart : CleanStart w) (hsteps : ClientSteps env w w')
    (hone : OneConnection w.smb2.messageId.toNat w'.trace) :
    IdInv w.smb2.messageId.toNat w' ∧ ReplyInv w' := by
  induction hsteps with
  | refl => exact ⟨hstart.idInv, hstart.replyInv⟩
  | tail _ hlast ih =>
      obtain ⟨evs, htrace⟩ := hlast.trace
      obtain ⟨hinv, hreply⟩ := ih (OneConnection.suffix (htrace ▸ hone))
      exact ⟨hinv.step hlast hone, hreply.step hinv hlast⟩

end

/-! ### One request, from when it waits -/

/-- A request that waited under a message id, after the events since then: it still waits and nothing
was refused, or it was matched to a reply, once and for all. -/
def Awaited (m : Nat) (request : Smb2Pdu) (evs : List Event) (w : World) : Prop :=
  (repliesTo m evs = [] ∧ (∀ event ∈ evs, event.refuses m = false) ∧
    w.smb2.waitqueue.lookup m = some request) ∨
  ((∃ hdr, repliesTo m evs = [(hdr, request)]) ∧ w.smb2.waitqueue.lookup m = none)

section

variable {first m : Nat} {request : Smb2Pdu} {evs : List Event} {w w' : World} {env : Env}

theorem Awaited.of_plain (h : Awaited m request evs w) (more : List Event)
    (hmore : ∀ event ∈ more, event.isReply = false ∧ event.refuses m = false)
    (hwait : w'.smb2.waitqueue.lookup m = w.smb2.waitqueue.lookup m) :
    Awaited m request (more ++ evs) w' := by
  have hreplies : repliesTo m (more ++ evs) = repliesTo m evs := by
    rw [repliesTo_append, repliesTo_eq_nil fun event hevent => (hmore event hevent).1, List.nil_append]
  rw [Awaited, hreplies, hwait]
  refine h.imp_left fun ⟨hnone, hrefused, hwaiting⟩ => ⟨hnone, fun event hevent => ?_, hwaiting⟩
  rcases List.mem_append.mp hevent with hevent | hevent
  · exact (hmore event hevent).2
  · exact hrefused event hevent

theorem Awaited.accept (h : Awaited m request evs w) {hdr : Smb2Header} {other : Smb2Pdu}
    (offset : Nat) (hwaiting : w.smb2.waitqueue.lookup hdr.messageId.toNat = some other) :
    Awaited m request (.header offset hdr w.smb2.credits other :: evs) (w.accept offset hdr other) := by
  by_cases hid : hdr.messageId.toNat = m
  · have hreply : Event.replyTo m (.header offset hdr w.smb2.credits other) = some (hdr, other) :=
      if_pos hid
    rw [hid] at hwaiting
    rcases h with ⟨hnone, -, hrequest⟩ | ⟨-, hgone⟩
    · rw [hrequest] at hwaiting
      cases hwaiting
      refine Or.inr ⟨⟨hdr, ?_⟩, ?_⟩
      · rw [repliesTo, List.filterMap_cons_some hreply, ← repliesTo, hnone]
      · rw [World.accept, World.log, OrdMap.lookup_erase, if_pos hid.symm]
    · rw [hgone] at hwaiting
      cases hwaiting
  · have hreply : Event.replyTo m (.header offset hdr w.smb2.credits other) = none := if_neg hid
    have hlookup : (w.accept offset hdr other).smb2.waitqueue.lookup m =
        w.smb2.waitqueue.lookup m := by
      rw [World.accept, World.log, OrdMap.lookup_erase, if_neg fun heq => hid heq.symm]
    rw [Awaited, hlookup, repliesTo, List.filterMap_cons_none hreply]
    refine h.imp_left fun hopen => ⟨hopen.1, ?_, hopen.2.2⟩
    rw [List.forall_mem_cons]
    exact ⟨rfl, hopen.2.1⟩

theorem Awaited.transmit (h : Awaited m request evs w) (hinv : IdInv first w)
    (hid : request.messageId = m) (hsent : Sent w.trace request) {key : Nat} {chain : PduChain}
    (hchain : w.smb2.outqueue.lookup key = some chain) :
    ∃ more, (w.transmit key chain).trace = more ++ w.trace ∧
      Awaited m request (more ++ evs) (w.transmit key chain) := by
  obtain ⟨sent, htrace, hevents, -⟩ := trace_transmit w key chain
  refine ⟨sent ++ [.transmitted w.smb2.dialect w.smb2.credits chain], by rw [htrace]; simp,
    h.of_plain _ (fun event hevent => ?_) ?_⟩
  · rcases List.mem_append.mp hevent with hevent | hevent
    · obtain ⟨credits, pdu, -, rfl⟩ := hevents event hevent
      exact ⟨rfl, rfl⟩
    · rw [List.mem_singleton.mp hevent]
      exact ⟨rfl, rfl⟩
  · -- what is sent has not been sent before, so it has another message id
    refine lookup_smb2PduAddToWaitqueue_of_ne chain.members _ fun pdu hpdu heq => ?_
    exact hinv.unsent key chain hchain pdu hpdu request hsent (hid.trans heq.symm)

theorem Awaited.step (h : Awaited m request evs w) (hinv : IdInv first w)
    (hid : request.messageId = m) (hsent : Sent w.trace request) (hstep : ClientStep env w w') :
    ∃ more, w'.trace = more ++ w.trace ∧ Awaited m request (more ++ evs) w' := by
  have hqueue {chain : PduChain} {err : Option String} {w' : World}
      (hq : smb2QueuePdu env w chain = (err, w')) :
      ∃ more, w'.trace = more ++ w.trace ∧ Awaited m request (more ++ evs) w' := by
    obtain ⟨_, _, -, ⟨-, queued, -, rfl⟩ | ⟨-, rfl⟩⟩ := smb2QueuePdu_cases hq
    · exact ⟨[_], rfl, h.of_plain [_] (by simp [Event.isReply, Event.refuses]) rfl⟩
    · exact ⟨[_], rfl, h.of_plain [_] (by simp [Event.isReply, Event.refuses]) rfl⟩
  cases hstep with
  | start => exact ⟨[], rfl, h⟩
  | connect conn => exact ⟨[_], rfl, h.of_plain [_] (by simp [Event.isReply, Event.refuses]) rfl⟩
  | request first others hq => exact hqueue hq
  | act hact =>
      cases hact with
      | quiet hquiet => exact ⟨[], hquiet.trace, h.of_plain [] (by simp) (by rw [hquiet.waitqueue])⟩
      | finish => exact ⟨[], rfl, h⟩
      | close => exact ⟨[_], rfl, h.of_plain [_] (by simp [Event.isReply, Event.refuses]) rfl⟩
      | queue spec hq => exact hqueue hq
      | frame spl => exact ⟨[_], rfl, h.of_plain [_] (by simp [Event.isReply, Event.refuses]) rfl⟩
      | accept offset hwaiting => exact ⟨[_], rfl, h.accept offset hwaiting⟩
      | @reject hdr hnone =>
          refine ⟨[.rejected hdr], rfl, ?_⟩
          rcases h with ⟨hreplies, hrefused, hwaiting⟩ | h
          · refine Or.inl ⟨hreplies, ?_, hwaiting⟩
            rw [List.singleton_append, List.forall_mem_cons]
            refine ⟨decide_eq_false fun heq => ?_, hrefused⟩
            rw [heq, hwaiting] at hnone
            cases hnone
          · exact Or.inr h
      | process htrace hfinal hanswer =>
          refine ⟨[.processed _], rfl, ?_⟩
          rcases h with ⟨hreplies, hrefused, hwaiting⟩ | h
          · exact Or.inl ⟨hreplies, by simpa [Event.refuses] using hrefused, hwaiting⟩
          · exact Or.inr h
      | transmit hchain hcredits => exact h.transmit hinv hid hsent hchain
      | requeue hchain => exact ⟨[], rfl, h⟩

theorem CleanStart.awaited_of_steps {w₁ w₂ : World} (hstart : CleanStart w)
    (hbefore : ClientSteps env w w₁) (hwaiting : w₁.smb2.waitqueue.lookup m = some request)
    (hafter : ClientSteps env w₁ w₂) (hone : OneConnection w.smb2.messageId.toNat w₂.trace) :
    ∃ evs, w₂.trace = evs ++ w₁.trace ∧ Awaited m request evs w₂ := by
  induction hafter with
  | refl => exact ⟨[], rfl, Or.inl ⟨rfl, by simp, hwaiting⟩⟩
  | @tail w₂ w₃ hsteps hlast ih =>
      obtain ⟨later, hlater⟩ := hlast.trace
      have hone₂ : OneConnection w.smb2.messageId.toNat w₂.trace := OneConnection.suffix (hlater ▸ hone)
      obtain ⟨evs, htrace, hawaited⟩ := ih hone₂
      have hinv₁ := (hstart.inv_of_steps hbefore (OneConnection.suffix (htrace ▸ hone₂))).1
      obtain ⟨hkey, hsent⟩ := hinv₁.wait m request hwaiting
      have hinv₂ := (hstart.inv_of_steps (hbefore.trans hsteps) hone₂).1
      obtain ⟨more, hmore, hawaited⟩ :=
        hawaited.step hinv₂ hkey.symm (htrace ▸ hsent.append evs) hlast
      exact ⟨more ++ evs, by rw [hmore, htrace, List.append_assoc], hawaited⟩

/-! ### Processing -/

theorem mem_processedFor {pdu : Smb2Pdu} :
    pdu ∈ processedFor m evs ↔ pdu.messageId = m ∧ .processed pdu ∈ evs := by
  rw [processedFor, List.mem_filterMap]
  constructor
  · rintro ⟨event, hmem, hevent⟩
    cases event with
    | processed pdu' =>
        simp only [Event.processedFor] at hevent
        split_ifs at hevent with hid
        cases hevent
        exact ⟨hid, hmem⟩
    | _ => simp [Event.processedFor] at hevent
  · rintro ⟨hid, hmem⟩
    exact ⟨_, hmem, if_pos hid⟩

/-- A message id has no more replies processed than headers matched. -/
theorem Paired.length_processedFor (h : Paired evs)
    (hreplied : ∀ offset hdr credits request, .header offset hdr credits request ∈ evs →
      request.messageId = hdr.messageId.toNat) :
    (processedFor m evs).length ≤ (repliesTo m evs).length := by
  induction h with
  | nil => exact Nat.le_refl 0
  | @other event evs hevent _ ih =>
      have hle := ih fun offset hdr credits request hmem =>
        hreplied offset hdr credits request (List.mem_cons_of_mem _ hmem)
      rw [processedFor, List.filterMap_cons_none (hevent m)]
      refine hle.trans (List.Sublist.length_le ?_)
      exact (List.sublist_cons_self event evs).filterMap _
  | @processed offset hdr credits request pdu evs _ hanswer _ ih =>
      have hle := ih fun offset hdr credits request hmem =>
        hreplied offset hdr credits request (List.mem_cons_of_mem _ (List.mem_cons_of_mem _ hmem))
      have hid : pdu.messageId = hdr.messageId.toNat := by
        rw [Smb2Pdu.messageId, hanswer.header]
        exact hreplied offset hdr credits request (by simp)
      simp only [processedFor, repliesTo, List.filterMap_cons, Event.processedFor, Event.replyTo,
        hid] at hle ⊢
      split_ifs with heq
      · exact Nat.succ_le_succ hle
      · exact hle

/-- A final reply that a call matched and that did not make it fail was processed. -/
theorem Dispatched.processed_of_final {offset : Nat} {hdr : Smb2Header} {credits : UInt32}
    (h : Dispatched evs) (hmem : .header offset hdr credits request ∈ evs)
    (hfinal : hdr.status ≠ NtStatus.pending) :
    ∃ pdu, AnswerTo request hdr pdu ∧ .processed pdu ∈ evs := by
  induction h with
  | nil => cases hmem
  | other hevent _ ih =>
      rcases List.mem_cons.mp hmem with rfl | hmem
      · cases hevent
      · exact (ih hmem).imp fun pdu => And.imp_right (List.mem_cons_of_mem _)
  | @processed offset' hdr' credits' request' pdu evs _ hanswer _ ih =>
      rw [List.mem_cons, List.mem_cons] at hmem
      rcases hmem with heq | heq | hmem
      · cases heq
      · cases heq
        exact ⟨pdu, hanswer, List.mem_cons_self⟩
      · exact (ih hmem).imp fun pdu =>
          And.imp_right fun h => List.mem_cons_of_mem _ (List.mem_cons_of_mem _ h)
  | interim hpending _ ih =>
      rcases List.mem_cons.mp hmem with heq | hmem
      · cases heq
        exact absurd hpending hfinal
      · exact (ih hmem).imp fun pdu => And.imp_right (List.mem_cons_of_mem _)

end

/-! ### Interim replies over runs -/

/-- What interim replies are to leave of a request that waited under the message id `m`, in a world
of the same connection after the events `evs`. -/
structure Survives (env : Env) (first m : Nat) (request : Smb2Pdu) (evs : List Event) (w : World) :
    Prop where
  /-- As long as only interim replies came, the request waits and no reply is refused. -/
  outstanding : (∀ reply ∈ repliesTo m evs, reply.1.status = NtStatus.pending) →
    w.smb2.waitqueue.lookup m = some request ∧ ∀ event ∈ evs, event.refuses m = false
  matched : ∀ reply ∈ repliesTo m evs, reply.2 = request
  atMostOnce : (processedFor m evs).length ≤ 1
  /-- A final reply that a call receives without an error is processed, once, for the request. -/
  final : ∀ (rx : Bytes) (err : Option String) (n : Nat) (w' : World) (more : List Event),
    receivePdus env (w.supply rx []) = .returned 0 err n w' → OneConnection first w'.trace →
    w'.trace = more ++ w.trace → ∀ reply ∈ repliesTo m more, reply.1.status ≠ NtStatus.pending →
      reply.2 = request ∧ ∃ pdu, AnswerTo request reply.1 pdu ∧ processedFor m (more ++ evs) = [pdu]

section

variable {m : Nat} {request : Smb2Pdu} {evs : List Event} {env : Env} {w w₁ w₂ : World}

theorem Awaited.matched (h : Awaited m request evs w) : ∀ reply ∈ repliesTo m evs, reply.2 = request := by
  intro reply hreply
  rcases h with ⟨hnone, -, -⟩ | ⟨⟨hdr, hsome⟩, -⟩
  · rw [hnone] at hreply
    cases hreply
  · rw [hsome, List.mem_singleton] at hreply
    rw [hreply]

theorem Awaited.length_repliesTo (h : Awaited m request evs w) : (repliesTo m evs).length ≤ 1 := by
  rcases h with ⟨hnone, -, -⟩ | ⟨⟨hdr, hsome⟩, -⟩
  · rw [hnone]
    exact Nat.zero_le 1
  · rw [hsome]
    exact Nat.le_refl 1

theorem CleanStart.length_processedFor (hstart : CleanStart w) (hbefore : ClientSteps env w w₁)
    (hwaiting : w₁.smb2.waitqueue.lookup m = some request) (hafter : ClientSteps env w₁ w₂)
    (hone : OneConnection w.smb2.messageId.toNat w₂.trace) (htrace : w₂.trace = evs ++ w₁.trace) :
    (processedFor m evs).length ≤ 1 := by
  have hone₁ : OneConnection w.smb2.messageId.toNat w₁.trace := OneConnection.suffix (htrace ▸ hone)
  have hreply₁ := (hstart.replyInv_of_steps hbefore hone₁).2
  have hreply₂ := (hstart.replyInv_of_steps (hbefore.trans hafter) hone).2
  obtain ⟨evs', htrace', hawaited⟩ := hstart.awaited_of_steps hbefore hwaiting hafter hone
  obtain rfl := List.append_cancel_right (htrace'.symm.trans htrace)
  have hle := hreply₂.paired.length_processedFor (m := m) fun offset hdr credits request hmem =>
    (hreply₂.replied offset hdr credits request hmem).1
  rw [htrace, repliesTo_append, hreply₁.fresh m request hwaiting, List.append_nil, processedFor,
    List.filterMap_append, List.length_append] at hle
  have hone := hawaited.length_repliesTo
  exact (Nat.le_add_right _ _).trans (hle.trans hone)

end

/-- On one connection, a request that waits survives what comes exactly when no interim reply is
among it. -/
theorem survives_iff_no_interim {env : Env} {before after : List ClientOp} {w w₁ w₂ : World} {m : Nat}
    {request : Smb2Pdu} {evs : List Event} (hstart : CleanStart w)
    (hbefore : ClientOp.run env before w = some w₁)
    (hwaiting : w₁.smb2.waitqueue.lookup m = some request)
    (hafter : ClientOp.run env after w₁ = some w₂)
    (hone : OneConnection w.smb2.messageId.toNat w₂.trace) (htrace : w₂.trace = evs ++ w₁.trace) :
    Survives env w.smb2.messageId.toNat m request evs w₂ ↔
      ∀ reply ∈ repliesTo m evs, reply.1.status ≠ NtStatus.pending := by
  have hsteps₁ := ClientOp.run_steps hbefore
  have hsteps₂ := ClientOp.run_steps hafter
  obtain ⟨evs', htrace', hawaited⟩ := hstart.awaited_of_steps hsteps₁ hwaiting hsteps₂ hone
  obtain rfl := List.append_cancel_right (htrace'.symm.trans htrace)
  constructor
  · -- the one reply that was matched took the request out of the queue
    intro h reply hreply hpending
    rcases hawaited with ⟨hnone, -, -⟩ | ⟨⟨hdr, hsome⟩, hgone⟩
    · rw [hnone] at hreply
      cases hreply
    · rw [hsome, List.mem_singleton] at hreply
      subst hreply
      have hrequest := (h.outstanding (by rw [hsome]; simpa using hpending)).1
      rw [hgone] at hrequest
      cases hrequest
  · intro hfinal
    refine ⟨fun hpending => ?_, hawaited.matched,
      hstart.length_processedFor hsteps₁ hwaiting hsteps₂ hone htrace, ?_⟩
    · rcases hawaited with ⟨-, hrefused, hrequest⟩ | ⟨⟨hdr, hsome⟩, -⟩
      · exact ⟨hrequest, hrefused⟩
      · have hmem : (hdr, request) ∈ repliesTo m evs' := by rw [hsome]; exact List.mem_singleton_self _
        exact absurd (hpending _ hmem) (hfinal _ hmem)
    · rintro rx err n w₃ more hreceive hone₃ hmore ⟨hdr, other⟩ hreply hstatus
      have hreturned := receivePdus_returned hreceive
      have hsteps₃ : ClientSteps env w₁ w₃ :=
        (hsteps₂.tail (.act (.quiet (Quiet.supply w₂ rx [])))).trans hreturned.acts.steps
      have htrace₃ : w₃.trace = (more ++ evs') ++ w₁.trace := by
        rw [hmore, htrace, List.append_assoc]
      obtain ⟨evs₃, hevs₃, hawaited₃⟩ := hstart.awaited_of_steps hsteps₁ hwaiting hsteps₃ hone₃
      obtain rfl := List.append_cancel_right (hevs₃.symm.trans htrace₃)
      have hother : other = request :=
        hawaited₃.matched (hdr, other) (by rw [repliesTo_append]; exact List.mem_append_left _ hreply)
      subst hother
      obtain ⟨evs₄, hevs₄, -, hdispatched | ⟨hne, -⟩⟩ := hreturned.events
      · obtain rfl := List.append_cancel_right (hevs₄.symm.trans hmore)
        obtain ⟨hid, offset, credits, hheader⟩ := mem_repliesTo.mp hreply
        obtain ⟨pdu, hanswer, hprocessed⟩ := hdispatched.processed_of_final hheader hstatus
        have hkey := ((hstart.inv_of_steps hsteps₁ (OneConnection.suffix (htrace ▸ hone))).1.wait m other
          hwaiting).1
        have hpdu : pdu ∈ processedFor m (evs₄ ++ evs') := by
          refine mem_processedFor.mpr ⟨?_, List.mem_append_left _ hprocessed⟩
          rw [Smb2Pdu.messageId, hanswer.header]
          exact hkey.symm
        have hlen := hstart.length_processedFor hsteps₁ hwaiting hsteps₃ hone₃ htrace₃
        refine ⟨rfl, pdu, hanswer, ?_⟩
        cases hlist : processedFor m (evs₄ ++ evs') with
        | nil =>
            rw [hlist] at hpdu
            cases hpdu
        | cons one others =>
            rw [hlist] at hpdu hlen
            have hothers : others = [] :=
              List.eq_nil_of_length_eq_zero (Nat.le_zero.mp (Nat.le_of_succ_le_succ hlen))
            rw [hothers, List.mem_singleton] at hpdu
            rw [hpdu, hothers]
      · exact absurd rfl hne

/-- A frame with the reply to an ECHO. -/
def echoFrame (status : NtStatus) (messageId : UInt64) : Bytes :=
  frameOf (replyHeader .echo status 1 messageId 0 ++ leBytes 2 4 ++ leBytes 2 0)

/-- An ECHO is sent. -/
def sendEcho : List ClientOp :=
  [.request (echoRequest 0) [], .start, .send [.wrote 4, .wrote 64, .wrote 4, .wrote 4]]

theorem survives_finalReply :
    ∃ w₁ w₂ request evs, ClientOp.run plainEnv sendEcho (idleClient 0) = some w₁ ∧
      ClientOp.run plainEnv [.receive (echoFrame NtStatus.success 0)] w₁ = some w₂ ∧
      w₁.smb2.waitqueue.lookup 0 = some request ∧ w₂.trace = evs ++ w₁.trace ∧
      (repliesTo 0 evs).length = 1 ∧ Survives plainEnv 0 0 request evs w₂ := by
  obtain ⟨w₁, hw₁⟩ : ∃ w, ClientOp.run plainEnv sendEcho (idleClient 0) = some w := ⟨_, rfl⟩
  have hall₁ : (ClientOp.run plainEnv sendEcho (idleClient 0)).all (fun w =>
      (w.smb2.waitqueue.lookup 0).isSome ∧ (repliesTo 0 w.trace).length = 0) = true := by
    decide
  have hall₂ : ((ClientOp.run plainEnv sendEcho (idleClient 0)).bind
      (ClientOp.run plainEnv [.receive (echoFrame NtStatus.success 0)])).any (fun w =>
      (∀ event ∈ w.trace, event.isClosed = false) ∧ 0 + idsTaken (numberedPdus w.trace) < 2 ^ 64 ∧
        (repliesTo 0 w.trace).length = 1 ∧
        ∀ reply ∈ repliesTo 0 w.trace, reply.1.status ≠ NtStatus.pending) = true := by
    decide
  rw [hw₁, Option.all_some, decide_eq_true_eq] at hall₁
  rw [hw₁, Option.bind_some, Option.any_eq_true] at hall₂
  obtain ⟨w₂, hw₂, hall₂⟩ := hall₂
  rw [decide_eq_true_eq] at hall₂
  obtain ⟨hclosed, hids, hlen, hfinal⟩ := hall₂
  obtain ⟨request, hrequest⟩ := Option.isSome_iff_exists.mp hall₁.1
  obtain ⟨evs, hevs⟩ := (ClientOp.run_steps hw₂).trace
  have hreplies : repliesTo 0 w₂.trace = repliesTo 0 evs := by
    rw [hevs, repliesTo_append, List.eq_nil_of_length_eq_zero hall₁.2, List.append_nil]
  refine ⟨w₁, w₂, request, evs, hw₁, hw₂, hrequest, hevs, hreplies ▸ hlen, ?_⟩
  exact (survives_iff_no_interim (w := idleClient 0) ⟨rfl, rfl, rfl⟩ hw₁ hrequest hw₂ ⟨hclosed, hids⟩
    hevs).mpr (hreplies ▸ hfinal)

/-- An interim reply to the ECHO arrives, then the final one: it is refused. -/
theorem not_survives_interimReply :
    ∃ w₁ w₂ request evs, ClientOp.run plainEnv sendEcho (idleClient 0) = some w₁ ∧
      ClientOp.run plainEnv [.receive (echoFrame NtStatus.pending 0),
        .receive (echoFrame NtStatus.success 0)] w₁ = some w₂ ∧
      w₁.smb2.waitqueue.lookup 0 = some request ∧ w₂.trace = evs ++ w₁.trace ∧
      (∃ event ∈ w₂.trace, event.refuses 0 = true) ∧ ¬ Survives plainEnv 0 0 request evs w₂ := by
  obtain ⟨w₁, hw₁⟩ : ∃ w, ClientOp.run plainEnv sendEcho (idleClient 0) = some w := ⟨_, rfl⟩
  have hall₁ : (ClientOp.run plainEnv sendEcho (idleClient 0)).all (fun w =>
      (w.smb2.waitqueue.lookup 0).isSome) = true := by decide
  have hall₂ : ((ClientOp.run plainEnv sendEcho (idleClient 0)).bind
      (ClientOp.run plainEnv [.receive (echoFrame NtStatus.pending 0),
        .receive (echoFrame NtStatus.success 0)])).any (fun w =>
      (w.smb2.waitqueue.lookup 0).isNone ∧ (∃ event ∈ w.trace, event.refuses 0 = true) ∧
        ∀ reply ∈ repliesTo 0 w.trace, reply.1.status = NtStatus.pending) = true := by
    decide
  rw [hw₁, Option.all_some] at hall₁
  rw [hw₁, Option.bind_some, Option.any_eq_true] at hall₂
  obtain ⟨w₂, hw₂, hall₂⟩ := hall₂
  rw [decide_eq_true_eq] at hall₂
  obtain ⟨hgone, hrefused, hpending⟩ := hall₂
  obtain ⟨request, hrequest⟩ := Option.isSome_iff_exists.mp hall₁
  obtain ⟨evs, hevs⟩ := (ClientOp.run_steps hw₂).trace
  refine ⟨w₁, w₂, request, evs, hw₁, hw₂, hrequest, hevs, hrefused, fun h => ?_⟩
  have hwaiting := (h.outstanding fun reply hreply => hpending reply (by
    rw [hevs, repliesTo_append]
    exact List.mem_append_left _ hreply)).1
  rw [hwaiting] at hgone
  cases hgone

end CodeStudy.Samba
