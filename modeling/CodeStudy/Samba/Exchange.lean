import CodeStudy.Samba.Pending

/-!
# Exchanges

`sendAndReceive` serves the socket until a handler says that the exchange is over. Between two rounds
some request has to be on its way, or the loop waits for nothing. Handlers see to that: they end the
exchange or queue another request. Three of them queue it without a look at whether that worked.
-/

namespace CodeStudy.Samba

/-! ### Rounds -/

/-- What one round of the loop that does not fail can do: read at most one frame, then send. -/
def Round (env : Env) (w w' : World) : Prop :=
  ∃ w₁, (Quiet w w₁ ∨ FrameReplies env w w₁) ∧ Relation.ReflTransGen SendStep w₁ w'

/-- The loop goes round while the exchange is not over. -/
def Rounds (env : Env) : World → World → Prop :=
  Relation.ReflTransGen fun w w' => w.smb2.isComplete = false ∧ Round env w w'

section

variable {env : Env} {w w₁ w₂ w' : World}

theorem Quiet.refl (w : World) : Quiet w w := (SameQueues.refl w).quiet

theorem FrameReplies.after_quiet (h : FrameReplies env w₁ w') (hquiet : Quiet w w₁) :
    FrameReplies env w w' := by
  obtain ⟨w₀, spl, hquiet', hsteps⟩ := h
  exact ⟨w₀, spl, hquiet.trans hquiet', hsteps⟩

theorem Round.after_quiet (h : Round env w₁ w') (hquiet : Quiet w w₁) : Round env w w' := by
  obtain ⟨w₂, hreceived, hsent⟩ := h
  exact ⟨w₂, hreceived.imp hquiet.trans fun hreplies => hreplies.after_quiet hquiet, hsent⟩

theorem smb2Service_round {poll : Poll} {ret : Int} (h : smb2Service env w poll = some (ret, w'))
    (hret : ¬ ret < 0) : Round env w w' := by
  have hnegative : ((-1 : Int) < 0) := by decide
  have hquiet {w' : World} (hquiet : Quiet w w') : Round env w w' :=
    ⟨w', Or.inl hquiet, Relation.ReflTransGen.refl⟩
  unfold smb2Service at h
  split at h
  · cases h
    exact hquiet (.refl w)
  split at h
  · cases h
    exact absurd hnegative hret
  split at h
  · cases h
    exact absurd hnegative hret
  split at h
  · split at h <;> cases h
    · exact absurd hnegative hret
    · exact hquiet (Quiet.setSocket w _ rfl)
  split at h
  · cases h
  rename_i ret₁ err n w₁ hreceive
  split at h
  · cases h
    exact absurd hnegative hret
  rename_i hzero
  have hreceived : Quiet w w₁ ∨ FrameReplies env w w₁ := by
    split at hreceive
    · exact Or.inr ((receivePdus_returned hreceive).replies (not_not.mp hzero))
    · cases hreceive
      exact Or.inl (.refl w)
  split at h
  · split at h
    · cases h
    · rename_i hsend
      split at h <;> cases h
      · exact absurd hnegative hret
      · exact ⟨_, hreceived, sendPdus_steps hsend⟩
  · cases h
    exact ⟨_, hreceived, Relation.ReflTransGen.refl⟩

/-- The loop waits for more, or it is over, after some rounds. -/
def Exchange.After (env : Env) (w : World) : Exchange → Prop
  | .running w' => Rounds env w w' ∧ w'.smb2.isComplete = false
  | .returned ret w' => ret = 0 → Rounds env w w' ∧ w'.smb2.isComplete = true
  | .undefined => True

theorem Exchange.After.head {exchange : Exchange} (h : exchange.After env w₁)
    (hrunning : w.smb2.isComplete = false) (hround : Round env w w₁) : exchange.After env w := by
  cases exchange with
  | running w' => exact h.imp_left (.head ⟨hrunning, hround⟩)
  | returned ret w' => exact fun hret => (h hret).imp_left (.head ⟨hrunning, hround⟩)
  | undefined => trivial

theorem sendAndReceiveLoop_after (env : Env) (polls : List Poll) (w : World) :
    (sendAndReceiveLoop env polls w).After env w := by
  have hfail (w w' : World) : (Exchange.returned (-1) w').After env w :=
    fun hret => absurd hret (by decide)
  induction polls generalizing w with
  | nil =>
      rw [sendAndReceiveLoop]
      split_ifs with hcomplete hopen
      · exact fun _ => ⟨.refl, hcomplete⟩
      · exact hfail w w
      · exact ⟨.refl, by simpa using hcomplete⟩
  | cons poll polls ih =>
      rw [sendAndReceiveLoop]
      split_ifs with hcomplete hopen hfailed htimeout
      · exact fun _ => ⟨.refl, hcomplete⟩
      · exact hfail w w
      · exact hfail w w
      · exact ih w
      · split
        · trivial
        · rename_i ret w₁ hservice
          split_ifs with hret
          · exact hfail w w₁
          · have hround : Round env w w₁ :=
              (smb2Service_round hservice hret).after_quiet (Quiet.supply w poll.rx poll.writevs)
            exact (ih w₁).head (by simpa using hcomplete) hround

/-! ### Rounds, as steps -/

theorem ReplyStep.acts (h : ReplyStep env w w') : Acts env w w' := by
  cases h with
  | quiet h => exact .single (.quiet h)
  | interim offset hwaiting hpending => exact .single (.accept offset hwaiting)
  | handled offset hwaiting hfinal hquiet hanswer hhandler =>
      have haccepted : Acts env w _ :=
        (Relation.ReflTransGen.single (.accept offset hwaiting)).tail (.quiet hquiet)
      exact (haccepted.tail (.process hquiet.trace hfinal hanswer)).trans
        (smb2ProcessReplyAndAppData_effect hhandler).acts

theorem replySteps_acts (h : Relation.ReflTransGen (ReplyStep env) w w') : Acts env w w' := by
  induction h with
  | refl => exact .refl
  | tail _ hlast ih => exact ih.trans hlast.acts

theorem frame_acts {w₀ : World} (h : Quiet w w₀) (spl : UInt32) :
    Acts env w (w₀.log (.frame spl)) := (Relation.ReflTransGen.single (.quiet h)).tail (.frame spl)

theorem FrameReplies.acts (h : FrameReplies env w w') : Acts env w w' := by
  obtain ⟨w₀, spl, hquiet, hsteps⟩ := h
  exact (frame_acts hquiet spl).trans (replySteps_acts hsteps)

theorem sendSteps_acts (h : Relation.ReflTransGen SendStep w w') : Acts env w w' :=
  Relation.ReflTransGen.mono (fun _ _ hstep => hstep.act env) _ _ h

theorem Round.steps (h : Round env w w') : ClientSteps env w w' := by
  obtain ⟨w₁, hreceived, hsent⟩ := h
  have hacts : Acts env w w₁ :=
    hreceived.elim (fun hquiet => .single (.quiet hquiet)) FrameReplies.acts
  exact Acts.steps (hacts.trans (sendSteps_acts hsent))

theorem Rounds.steps (h : Rounds env w w') : ClientSteps env w w' := by
  induction h with
  | refl => exact .refl
  | tail _ hlast ih => exact ih.trans hlast.2.steps

/-- What happened between two worlds, when every event of it satisfies a condition. -/
def Adds (ok : Event → Prop) (w w' : World) : Prop :=
  ∃ evs, w'.trace = evs ++ w.trace ∧ ∀ event ∈ evs, ok event

/-- The condition holds in each of two consecutive parts. -/
theorem Adds.split {ok : Event → Prop} (h : Adds ok w w') (h₁ : ClientSteps env w w₁)
    (h₂ : ClientSteps env w₁ w') : Adds ok w w₁ ∧ Adds ok w₁ w' := by
  obtain ⟨evs, hevs, hok⟩ := h
  obtain ⟨older, holder⟩ := h₁.trace
  obtain ⟨newer, hnewer⟩ := h₂.trace
  have hsplit : evs = newer ++ older := by
    refine List.append_cancel_right (hevs.symm.trans ?_)
    rw [hnewer, holder, List.append_assoc]
  subst hsplit
  exact ⟨⟨older, holder, fun event he => hok event (List.mem_append_right _ he)⟩,
    newer, hnewer, fun event he => hok event (List.mem_append_left _ he)⟩

end

theorem SendStep.isComplete {w w' : World} (h : SendStep w w') :
    w'.smb2.isComplete = w.smb2.isComplete := by
  cases h with
  | quiet hquiet => exact hquiet.isComplete
  | transmit hchain hcredits =>
      rw [World.transmit, smb2PduAddToWaitqueue_frame]
      rfl
  | requeue hchain => rfl

/-! ### Something is on its way -/

/-- The handler of the reply to a request ends the exchange or goes on with another request; only
that of a CREATE whose handle nobody wants does neither. -/
def Drives (w : World) (pdu : Smb2Pdu) : Prop :=
  pdu.command = .create → (w.mem.app pdu.appData).fh ≠ none

/-- The exchange is over, or a request that drives it on is in one of the queues. -/
structure Driven (w : World) : Prop where
  queued : ∀ key chain, w.smb2.outqueue.lookup key = some chain → Drives w chain.last
  waits : w.smb2.isComplete = true ∨ (∃ key chain, w.smb2.outqueue.lookup key = some chain) ∨
    ∃ key pdu, w.smb2.waitqueue.lookup key = some pdu ∧ Drives w pdu

/-- Not an interim reply, and not a request that could not be queued. -/
def Event.goesOn : Event → Prop
  | .queueFailed _ => False
  | .header _ hdr _ _ => hdr.status ≠ NtStatus.pending
  | _ => True

instance : DecidablePred Event.goesOn
  | .queueFailed _ => isFalse id
  | .header .. => inferInstanceAs (Decidable (_ ≠ _))
  | .connected _ | .closed | .queued _ | .transmitted .. | .sent .. | .frame _ | .rejected _ |
    .processed _ => isTrue trivial

section

variable {env : Env} {w w₁ w' : World}

theorem Drives.of_fh {pdu : Smb2Pdu} (h : Drives w pdu)
    (hfh : ∀ address, (w'.mem.app address).fh = (w.mem.app address).fh) : Drives w' pdu :=
  fun hcreate => by rw [hfh]; exact h hcreate

theorem Driven.quiet (h : Driven w) (hquiet : Quiet w w') : Driven w' := by
  refine ⟨fun key chain hchain => ?_, ?_⟩
  · rw [hquiet.outqueue] at hchain
    exact (h.queued key chain hchain).of_fh hquiet.fh
  · rw [hquiet.isComplete, hquiet.outqueue, hquiet.waitqueue]
    exact h.waits.imp_right fun hwaits => hwaits.imp_right fun ⟨key, pdu, hpdu, hdrives⟩ =>
      ⟨key, pdu, hpdu, hdrives.of_fh hquiet.fh⟩

theorem Driven.log (h : Driven w) (event : Event) : Driven (w.log event) := ⟨h.queued, h.waits⟩

/-- An exchange that a handler ended needs nothing more. -/
theorem driven_of_ended (hqueued : ∀ key chain, w.smb2.outqueue.lookup key = some chain →
      Drives w chain.last) (hsame : SameQueues w.endSendReceive w') : Driven w' := by
  refine ⟨fun key chain hchain => ?_, Or.inl hsame.isComplete⟩
  rw [hsame.outqueue] at hchain
  exact (hqueued key chain hchain).of_fh hsame.fh

/-- A follow-up request that was queued is a chain of its own. -/
theorem queueRequest_queued {spec : RequestSpec} (h : queueRequest env w spec = (none, w')) :
    ∃ (queued : PduChain) (messageId : UInt64), queued.last.command = spec.command ∧
      w' = { w with smb2 := { w.smb2 with
        messageId
        outqueue := w.smb2.outqueue.insert queued.head.messageId queued } }.log (.queued queued) := by
  obtain ⟨smb2, encoded, hspec, ⟨-, queued, rfl, hw'⟩ | ⟨hne, -⟩⟩ := smb2QueuePdu_cases h
  · have hlen : queued.members.length = 1 := hspec.all rfl
    have hrest : queued.rest = [] := by simpa [PduChain.members] using hlen
    have hencodes := hspec.encodes
    rw [hlen, PduChain.members, PduChain.members, hrest, List.take_succ_cons, List.take_zero] at hencodes
    cases hencodes with
    | cons hhead _ =>
        refine ⟨queued, smb2.messageId, ?_, hw'⟩
        rw [PduChain.last, hrest]
        exact hhead.command
  · exact absurd rfl hne

theorem smb2QueuePdu_failed {chain : PduChain} {err : String}
    (h : smb2QueuePdu env w chain = (some err, w')) :
    ∃ encoded, w'.trace = .queueFailed encoded :: w.trace := by
  obtain ⟨smb2, encoded, -, ⟨hnone, -⟩ | ⟨-, rfl⟩⟩ := smb2QueuePdu_cases h
  · cases hnone
  · exact ⟨encoded, rfl⟩

/-- A handler leaves something on its way when something was, or when the request it answers drives
the exchange. -/
theorem Driven.handler {pdu : Smb2Pdu}
    (hqueued : ∀ key chain, w.smb2.outqueue.lookup key = some chain → Drives w chain.last)
    (h : Drives w pdu ∨ Driven w) (heff : HandlerEffect env pdu w w') (hadds : Adds Event.goesOn w w') :
    Driven w' := by
  have hfailed (encoded : List Smb2Pdu) (evs : List Event)
      (htrace : w'.trace = evs ++ .queueFailed encoded :: w.trace) : False := by
    obtain ⟨evs', htrace', hok⟩ := hadds
    have hevs : evs' = evs ++ [.queueFailed encoded] := by
      refine List.append_cancel_right (htrace'.symm.trans (htrace.trans ?_))
      rw [List.append_assoc, List.singleton_append]
    exact hok (.queueFailed encoded) (by rw [hevs]; exact List.mem_append_right _ List.mem_cons_self)
  cases heff with
  | ignored same command status fh =>
      rcases h with hdrives | hdriven
      · exact absurd fh (hdrives command)
      · exact hdriven.quiet same.quiet
  | ended same => exact driven_of_ended hqueued same
  | closed same => exact driven_of_ended (w := w.close) hqueued same
  | @queued w₁ spec same queue command =>
      obtain ⟨queued, messageId, hcommand, rfl⟩ := queueRequest_queued queue
      refine ⟨fun key chain hchain => ?_, Or.inr (Or.inl ⟨_, queued, OrdMap.lookup_insert_self _ _ _⟩)⟩
      rw [World.log, OrdMap.lookup_insert] at hchain
      split_ifs at hchain
      · cases hchain
        exact fun hcreate => absurd (hcommand.symm.trans hcreate) command
      · rw [same.outqueue] at hchain
        exact (hqueued key chain hchain).of_fh same.fh
  | @dropped w₁ spec err same queue =>
      obtain ⟨encoded, htrace⟩ := smb2QueuePdu_failed queue
      rw [same.trace] at htrace
      exact (hfailed encoded [] htrace).elim
  | @refused w₁ w₂ spec err same queue after =>
      obtain ⟨encoded, htrace⟩ := smb2QueuePdu_failed queue
      rw [same.trace] at htrace
      refine (hfailed encoded [.closed] ?_).elim
      rw [after.trace, World.endSendReceive, World.close, World.log, htrace]
      rfl

theorem Driven.reply (h : Driven w) (hstep : ReplyStep env w w') (hadds : Adds Event.goesOn w w') :
    Driven w' := by
  cases hstep with
  | quiet hquiet => exact h.quiet hquiet
  | @interim offset hdr request hwaiting hpending =>
      obtain ⟨evs, htrace, hok⟩ := hadds
      have hevs : evs = [.header offset hdr w.smb2.credits request] :=
        List.append_cancel_right htrace.symm
      have hfinal : hdr.status ≠ NtStatus.pending :=
        hok (.header ..) (by rw [hevs]; exact List.mem_cons_self)
      exact absurd hpending hfinal
  | @handled offset hdr request pdu w₁ _ hwaiting hfinal hquiet hanswer hhandler =>
      have heff := smb2ProcessReplyAndAppData_effect hhandler
      have hsteps : ClientSteps env w (w₁.log (.processed pdu)) := Acts.steps
        (((Relation.ReflTransGen.single (.accept offset hwaiting)).tail (.quiet hquiet)).tail
          (.process hquiet.trace hfinal hanswer))
      have hadds₁ := (hadds.split hsteps heff.acts.steps).2
      have hfh : ∀ address, (w₁.mem.app address).fh = (w.mem.app address).fh := hquiet.fh
      have hout : w₁.smb2.outqueue = w.smb2.outqueue := hquiet.outqueue
      have hqueued : ∀ key chain, w₁.smb2.outqueue.lookup key = some chain → Drives w₁ chain.last :=
        fun key chain hchain => (h.queued key chain (hout ▸ hchain)).of_fh hfh
      refine Driven.handler (w := w₁.log (.processed pdu)) hqueued ?_ heff hadds₁
      -- the request that drove the exchange was answered, or it is still there
      rcases h.waits with hcomplete | ⟨key, chain, hchain⟩ | ⟨key, other, hother, hdrives⟩
      · exact Or.inr ⟨hqueued, Or.inl (hquiet.isComplete.trans hcomplete)⟩
      · exact Or.inr ⟨hqueued, Or.inr (Or.inl ⟨key, chain, hout ▸ hchain⟩)⟩
      · by_cases hkey : key = hdr.messageId.toNat
        · rw [hkey, hwaiting] at hother
          cases hother
          refine Or.inl fun hcreate => ?_
          rw [hanswer.appData]
          exact (hdrives.of_fh hfh) (hanswer.command.symm.trans hcreate)
        · refine Or.inr ⟨hqueued, Or.inr (Or.inr ⟨key, other, ?_, hdrives.of_fh hfh⟩)⟩
          rw [World.log, hquiet.waitqueue, World.accept, World.log, OrdMap.lookup_erase, if_neg hkey, hother]

theorem Driven.send (h : Driven w) (hstep : SendStep w w') : Driven w' := by
  cases hstep with
  | quiet hquiet => exact h.quiet hquiet
  | @transmit key chain hchain hcredits =>
      have hfh : ∀ address, ((w.transmit key chain).mem.app address).fh = (w.mem.app address).fh := by
        intro address
        rw [World.transmit, smb2PduAddToWaitqueue_frame]
        rfl
      refine ⟨fun k c hc => ?_, Or.inr (Or.inr ⟨chain.last.messageId, chain.last, ?_, ?_⟩)⟩
      · rw [outqueue_transmit, OrdMap.lookup_erase] at hc
        split_ifs at hc
        exact (h.queued k c hc).of_fh hfh
      · exact lookup_last_transmit w key chain
      · exact (h.queued key chain hchain).of_fh hfh
  | @requeue key chain hchain =>
      refine ⟨fun k c hc => ?_, Or.inr (Or.inl ⟨_, chain, OrdMap.lookup_insert_self _ _ _⟩)⟩
      rw [World.requeue, OrdMap.lookup_insert, OrdMap.lookup_erase] at hc
      split_ifs at hc
      · cases hc
        exact h.queued key chain hchain
      · exact h.queued k c hc

theorem Driven.replies (h : Driven w) (hsteps : Relation.ReflTransGen (ReplyStep env) w w')
    (hadds : Adds Event.goesOn w w') : Driven w' := by
  induction hsteps with
  | refl => exact h
  | tail hsteps hlast ih =>
      obtain ⟨hbefore, hafter⟩ := hadds.split (replySteps_acts hsteps).steps hlast.acts.steps
      exact (ih hbefore).reply hlast hafter

theorem Driven.round (h : Driven w) (hround : Round env w w') (hadds : Adds Event.goesOn w w') :
    Driven w' := by
  obtain ⟨w₁, hreceived, hsent⟩ := hround
  have hreplied : Driven w₁ := by
    rcases hreceived with hquiet | ⟨w₀, spl, hquiet, hreplies⟩
    · exact h.quiet hquiet
    · have hframe : Acts env w (w₀.log (.frame spl)) := frame_acts hquiet spl
      have hadds₁ := (hadds.split (Acts.steps (hframe.trans (replySteps_acts hreplies)))
        (sendSteps_acts hsent).steps).1
      have hadds₂ := (hadds₁.split hframe.steps (replySteps_acts hreplies).steps).2
      exact ((h.quiet hquiet).log _).replies hreplies hadds₂
  clear hadds hreceived
  induction hsent with
  | refl => exact hreplied
  | tail _ hlast ih => exact ih.send hlast

theorem Driven.rounds (h : Driven w) (hrounds : Rounds env w w') (hadds : Adds Event.goesOn w w') :
    Driven w' := by
  induction hrounds with
  | refl => exact h
  | tail hrounds hlast ih =>
      obtain ⟨hbefore, hafter⟩ := hadds.split (Rounds.steps hrounds) hlast.2.steps
      exact (ih hbefore).round hlast.2 hafter

end

theorem sendAndReceive_running {env : Env} {polls : List Poll} {w w' : World}
    (h : sendAndReceive env polls w = .running w') :
    Rounds env w.beginSendReceive w' ∧ w'.smb2.isComplete = false := by
  have hafter := sendAndReceiveLoop_after env polls w.beginSendReceive
  rw [← sendAndReceive, h] at hafter
  exact hafter

theorem sendAndReceive_trace {env : Env} {polls : List Poll} {w w' : World}
    (h : sendAndReceive env polls w = .running w') : ∃ evs, w'.trace = evs ++ w.trace :=
  (Rounds.steps (sendAndReceive_running h).1).trace

/-- An exchange that begins with a request on its way never waits for nothing, as long as the replies
are final and every request that a handler queues is queued. -/
theorem sendAndReceive_waits_for_reply {env : Env} {polls : List Poll} {w w' : World}
    {evs : List Event}
    (hqueued : ∀ key chain, w.smb2.outqueue.lookup key = some chain → Drives w chain.last)
    (hrequest : w.smb2.outqueue ≠ ∅) (hrunning : sendAndReceive env polls w = .running w')
    (htrace : w'.trace = evs ++ w.trace)
    (hfinal : ∀ offset hdr credits request, .header offset hdr credits request ∈ evs →
      hdr.status ≠ NtStatus.pending)
    (hqueue : ∀ event ∈ evs, event.isQueueFailed = false) :
    w'.smb2.outqueue ≠ ∅ ∨ w'.smb2.waitqueue ≠ ∅ := by
  have hsome : ∃ key chain, w.smb2.outqueue.lookup key = some chain := by
    by_contra hnone
    refine hrequest ((OrdMap.eq_empty_iff _).mpr fun key => ?_)
    exact Option.eq_none_iff_forall_ne_some.mpr fun chain hchain => hnone ⟨key, chain, hchain⟩
  have hstart : Driven w.beginSendReceive := ⟨hqueued, Or.inr (Or.inl hsome)⟩
  obtain ⟨hrounds, hcomplete⟩ := sendAndReceive_running hrunning
  have hadds : Adds Event.goesOn w.beginSendReceive w' := by
    refine ⟨evs, htrace, fun event he => ?_⟩
    cases event with
    | queueFailed => cases hqueue _ he
    | header offset hdr credits request => exact hfinal offset hdr credits request he
    | _ => trivial
  rcases (hstart.rounds hrounds hadds).waits with hover | ⟨key, chain, hchain⟩ | ⟨key, pdu, hpdu, -⟩
  · rw [hcomplete] at hover
    cases hover
  · refine Or.inl fun hempty => ?_
    rw [hempty, OrdMap.lookup_empty] at hchain
    cases hchain
  · refine Or.inr fun hempty => ?_
    rw [hempty, OrdMap.lookup_empty] at hpdu
    cases hpdu

def treeDisconnectRequest (appData : Nat) : RequestSpec :=
  { command := .treeDisconnect, appData, body := [[4, 0, 0, 0]] }

/-- The request is sent in one round, and the reply to it arrives in the next. -/
def disconnectPolls : List Poll :=
  [{ pollout := true, writevs := List.replicate 8 (.wrote 128) },
   { pollin := true
     rx := frameOf (replyHeader .treeDisconnect NtStatus.success 1 0 0 ++ [4, 0, 0, 0]) }]

/-- A client that has queued a TREE_DISCONNECT. -/
def disconnecting (env : Env) (signingRequired : UInt8) : World :=
  (smb2QueuePdu env (idleClient signingRequired)
    (createChain (idleClient signingRequired).smb2 (treeDisconnectRequest 0) [])).2

/-- The world of an exchange that goes on. -/
def Exchange.running? : Exchange → Option World
  | .running w => some w
  | _ => none

theorem running_of_running? {exchange : Exchange} {w : World} (h : exchange.running? = some w) :
    exchange = .running w := by
  cases exchange with
  | running w' =>
      cases h
      rfl
  | _ => cases h

theorem sendAndReceive_waits_for_logoff :
    ∃ w, sendAndReceive plainEnv disconnectPolls (disconnecting plainEnv 0) = .running w ∧
      (w.smb2.outqueue ≠ ∅ ∨ w.smb2.waitqueue ≠ ∅) := by
  have hcommands : ∀ e ∈ (disconnecting plainEnv 0).smb2.outqueue.entries, e.2.last.command ≠ .create := by
    decide +kernel
  have hsome : ((disconnecting plainEnv 0).smb2.outqueue.lookup 0).isSome := by decide +kernel
  have hany : ((sendAndReceive plainEnv disconnectPolls (disconnecting plainEnv 0)).running?).any
      (fun w => ∀ event ∈ w.trace, event.goesOn) = true := by decide +kernel
  obtain ⟨w, hw, hall⟩ := (Option.any_eq_true _ _).mp hany
  rw [decide_eq_true_eq] at hall
  have hrunning := running_of_running? hw
  obtain ⟨evs, htrace⟩ := sendAndReceive_trace hrunning
  have hevs : ∀ event ∈ evs, event.goesOn := fun event he =>
    hall event (by rw [htrace]; exact List.mem_append_left _ he)
  refine ⟨w, hrunning, sendAndReceive_waits_for_reply (fun key chain hchain hcreate => ?_)
    (fun hempty => ?_) hrunning htrace (fun _ _ _ _ he => hevs _ he) fun event he => ?_⟩
  · exact absurd hcreate (hcommands (key, chain) ((OrdMap.mem_entries_iff _ key chain).mpr hchain))
  · rw [hempty, OrdMap.lookup_empty] at hsome
    cases hsome
  · cases event with
    | queueFailed => exact (hevs _ he).elim
    | _ => rfl

/-- The LOGOFF that follows a TREE_DISCONNECT cannot be signed, and nobody is told. -/
theorem not_sendAndReceive_waits_signingFails :
    ∃ w, sendAndReceive signingFails disconnectPolls (disconnecting signingFails 1) = .running w ∧
      ¬ (w.smb2.outqueue ≠ ∅ ∨ w.smb2.waitqueue ≠ ∅) := by
  have hany : ((sendAndReceive signingFails disconnectPolls (disconnecting signingFails 1)).running?).any
      (fun w => w.smb2.outqueue.entries.length = 0 ∧ w.smb2.waitqueue.entries.length = 0) = true := by
    decide +kernel
  obtain ⟨w, hw, hall⟩ := (Option.any_eq_true _ _).mp hany
  rw [decide_eq_true_eq] at hall
  have hout : w.smb2.outqueue = ∅ := OrdMap.ext_entries (List.eq_nil_of_length_eq_zero hall.1)
  have hwait : w.smb2.waitqueue = ∅ := OrdMap.ext_entries (List.eq_nil_of_length_eq_zero hall.2)
  exact ⟨w, running_of_running? hw, fun h => h.elim (fun hne => hne hout) fun hne => hne hwait⟩

end CodeStudy.Samba
