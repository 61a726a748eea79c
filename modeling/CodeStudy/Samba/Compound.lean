import CodeStudy.Samba.Exchange
import CodeStudy.Samba.Reconnect

/-!
# Compound requests

The calls that take the name of a file send a CREATE, a QUERY_INFO or SET_INFO and a CLOSE in one
frame and wait for the three answers. Each handler decides on its own whether the exchange is over.
That of the CREATE says so when it failed, those of the others always, so the exchange is over with
the first frame that brings such a reply, whether or not that frame brings the last one.
-/

namespace CodeStudy.Samba

/-- The requests of a compound, as its callers build them: nobody asks for the handle. -/
structure IsCompound (w : World) (create info close : RequestSpec) : Prop where
  opens : create.command = .create
  noHandle : (w.mem.app create.appData).fh = none
  asks : info.command = .queryInfo ∨ info.command = .setInfo
  closes : close.command = .close

/-- A request of a compound. -/
def InCompound (w : World) (pdu : Smb2Pdu) : Prop :=
  (pdu.command = .create ∧ (w.mem.app pdu.appData).fh = none) ∨ pdu.command = .queryInfo ∨
    pdu.command = .setInfo ∨ pdu.command = .close

/-- The reply that was processed ends the exchange of a compound. -/
def Event.ends : Event → Prop
  | .processed pdu => pdu.command = .create → pdu.headerResp.status ≠ NtStatus.success
  | _ => False

def Event.isFrame : Event → Bool
  | .frame _ => true
  | _ => false

/-- Every request of a chain was answered when the first frame that brought a reply which ends the
exchange was read. -/
def AnsweredInTime (chain : PduChain) (trace : List Event) : Prop :=
  ∃ newer spl older, trace = newer ++ .frame spl :: older ∧
    (∀ event ∈ newer, event.isFrame = false) ∧ (∃ event ∈ newer, event.ends) ∧
    (∀ event ∈ older, ¬ event.ends) ∧ ∀ pdu ∈ chain.members, Matched trace pdu

/-- No request of a chain is in a queue. -/
def NoneLeft (chain : PduChain) (w : World) : Prop :=
  ∀ pdu ∈ chain.members, (∀ key, w.smb2.waitqueue.lookup key ≠ some pdu) ∧
    ∀ key other, w.smb2.outqueue.lookup key = some other → pdu ∉ other.members

/-- Events of an exchange in which no other request is queued and the context is not closed. -/
def Event.isTraffic : Event → Bool
  | .frame _ | .header .. | .processed _ | .transmitted .. | .sent .. => true
  | _ => false

/-- What holds while a compound is exchanged. -/
structure Compounding (chain : PduChain) (w : World) : Prop where
  owned : Owned w.trace w
  events : ∃ evs, w.trace = evs ++ [.queued chain] ∧ ∀ event ∈ evs, event.isTraffic
  members : ∀ pdu ∈ chain.members, InCompound w pdu
  complete : w.smb2.isComplete = true ↔ ∃ event ∈ w.trace, event.ends

section

variable {env : Env} {chain : PduChain} {w w₁ w' : World}

theorem InCompound.of_fh {pdu : Smb2Pdu} (h : InCompound w pdu)
    (hfh : ∀ address, (w'.mem.app address).fh = (w.mem.app address).fh) : InCompound w' pdu :=
  h.imp_left fun ⟨hcreate, hnone⟩ => ⟨hcreate, by rw [hfh]; exact hnone⟩

/-- The handler of a request of a compound ends the exchange, or does nothing: a CREATE that
succeeded. -/
theorem InCompound.handler {pdu : Smb2Pdu} (h : InCompound w pdu)
    (hhandler : smb2ProcessReplyAndAppData env w pdu = some w') :
    (SameQueues w.endSendReceive w' ∧ (Event.processed pdu).ends) ∨
      (SameQueues w w' ∧ ¬ (Event.processed pdu).ends) := by
  have hnotCreate {command : Smb2Command} (hcommand : pdu.command = command) (hne : command ≠ .create) :
      (Event.processed pdu).ends := fun hcreate => absurd (hcommand.symm.trans hcreate) hne
  rcases h with ⟨hcommand, hnone⟩ | hcommand | hcommand | hcommand
  · simp only [smb2ProcessReplyAndAppData, hcommand] at hhandler
    rcases createReply_same hhandler with ⟨hsame, hstatus⟩ | ⟨hsame, hstatus, -⟩
    · exact Or.inl ⟨hsame, fun _ => hstatus.resolve_right fun hsome => hsome hnone⟩
    · exact Or.inr ⟨hsame, fun hends => hends hcommand hstatus⟩
  · simp only [smb2ProcessReplyAndAppData, hcommand] at hhandler
    exact Or.inl ⟨queryInfoReply_same hhandler, hnotCreate hcommand (by decide)⟩
  · simp only [smb2ProcessReplyAndAppData, hcommand] at hhandler
    exact Or.inl ⟨setInfoReply_same hhandler, hnotCreate hcommand (by decide)⟩
  · simp only [smb2ProcessReplyAndAppData, hcommand] at hhandler
    exact Or.inl ⟨closeReply_same hhandler, hnotCreate hcommand (by decide)⟩

theorem Owned.of_steps (h : Owned w.trace w) (hsteps : ClientSteps env w w') : Owned w'.trace w' := by
  induction hsteps with
  | refl => exact h
  | tail _ hlast ih =>
      obtain ⟨more, hmore, howned⟩ := ih.step hlast
      rw [hmore]
      exact howned

/-- Steps that process nothing. -/
theorem Compounding.extend (h : Compounding chain w) (hsteps : ClientSteps env w w')
    (more : List Event) (htrace : w'.trace = more ++ w.trace)
    (hmore : ∀ event ∈ more, event.isTraffic ∧ ¬ event.ends)
    (hfh : ∀ address, (w'.mem.app address).fh = (w.mem.app address).fh)
    (hcomplete : w'.smb2.isComplete = w.smb2.isComplete) : Compounding chain w' := by
  obtain ⟨evs, hevs, htraffic⟩ := h.events
  refine ⟨h.owned.of_steps hsteps, ⟨more ++ evs, ?_, fun event he => ?_⟩,
    fun pdu hpdu => (h.members pdu hpdu).of_fh hfh, ?_⟩
  · rw [htrace, hevs, List.append_assoc]
  · exact (List.mem_append.mp he).elim (fun he => (hmore event he).1) (htraffic event)
  · rw [hcomplete, h.complete, htrace]
    constructor
    · rintro ⟨event, he, hends⟩
      exact ⟨event, List.mem_append_right _ he, hends⟩
    · rintro ⟨event, he, hends⟩
      exact ⟨event, (List.mem_append.mp he).resolve_left fun he => (hmore event he).2 hends, hends⟩

/-- A waiting request belongs to the compound. -/
theorem Compounding.mem_of_waiting (h : Compounding chain w) {key : Nat} {pdu : Smb2Pdu}
    (hwaiting : w.smb2.waitqueue.lookup key = some pdu) : pdu ∈ chain.members := by
  obtain ⟨queued, hqueued, hpdu⟩ := h.owned.wait key pdu hwaiting
  obtain ⟨evs, hevs, htraffic⟩ := h.events
  rw [hevs, List.mem_append, List.mem_singleton] at hqueued
  rcases hqueued with hqueued | heq
  · cases htraffic _ hqueued
  · cases heq
    exact hpdu

theorem Compounding.quiet (h : Compounding chain w) (hquiet : Quiet w w') : Compounding chain w' := by
  have hsteps : ClientSteps plainEnv w w' := .single (.act (.quiet hquiet))
  exact h.extend hsteps [] hquiet.trace (by simp) hquiet.fh hquiet.isComplete

theorem Compounding.frame (h : Compounding chain w) (spl : UInt32) :
    Compounding chain (w.log (.frame spl)) := by
  have hsteps : ClientSteps plainEnv w (w.log (.frame spl)) := .single (.act (.frame spl))
  exact h.extend hsteps [.frame spl] rfl (by simp [Event.isTraffic, Event.ends]) (fun _ => rfl) rfl

theorem Compounding.accept (h : Compounding chain w) {hdr : Smb2Header} {request : Smb2Pdu}
    (offset : Nat) (hwaiting : w.smb2.waitqueue.lookup hdr.messageId.toNat = some request) :
    Compounding chain (w.accept offset hdr request) := by
  have hsteps : ClientSteps plainEnv w (w.accept offset hdr request) :=
    .single (.act (.accept offset hwaiting))
  exact h.extend hsteps [_] rfl (by simp [Event.isTraffic, Event.ends]) (fun _ => rfl) rfl

/-- A reply that ends the exchange is processed. -/
theorem Compounding.end_ (h : Compounding chain w) (hsteps : ClientSteps env w w') {pdu : Smb2Pdu}
    (hsame : SameQueues (w.log (.processed pdu)).endSendReceive w')
    (hends : (Event.processed pdu).ends) : Compounding chain w' := by
  obtain ⟨evs, hevs, htraffic⟩ := h.events
  refine ⟨h.owned.of_steps hsteps, ⟨.processed pdu :: evs, ?_, ?_⟩,
    fun pdu hpdu => (h.members pdu hpdu).of_fh hsame.fh, ?_⟩
  · rw [hsame.trace, World.endSendReceive, World.log, hevs, List.cons_append]
  · rw [List.forall_mem_cons]
    exact ⟨rfl, htraffic⟩
  · refine iff_of_true hsame.isComplete ⟨.processed pdu, ?_, hends⟩
    rw [hsame.trace]
    exact List.mem_cons_self

/-- A reply is dealt with: the events it adds do not begin another frame. -/
theorem Compounding.reply (h : Compounding chain w) (hstep : ReplyStep env w w') :
    Compounding chain w' ∧
      ∃ more, w'.trace = more ++ w.trace ∧ ∀ event ∈ more, event.isFrame = false := by
  cases hstep with
  | quiet hquiet => exact ⟨h.quiet hquiet, [], hquiet.trace, by simp⟩
  | interim offset hwaiting hpending =>
      exact ⟨h.accept offset hwaiting, [_], rfl, by simp [Event.isFrame]⟩
  | @handled offset hdr request pdu w₁ _ hwaiting hfinal hquiet hanswer hhandler =>
      have h₁ := (h.accept offset hwaiting).quiet hquiet
      have hsteps : ClientSteps env w₁ w' := Acts.steps
        ((Relation.ReflTransGen.single (.process hquiet.trace hfinal hanswer)).trans
          (smb2ProcessReplyAndAppData_effect hhandler).acts)
      have hrequest : InCompound w₁ request := (h.members request (h.mem_of_waiting hwaiting)).of_fh hquiet.fh
      have hpdu : InCompound (w₁.log (.processed pdu)) pdu := by
        rw [InCompound, hanswer.command, hanswer.appData]
        exact hrequest
      have htrace {w' : World} (hw' : w'.trace = (w₁.log (.processed pdu)).trace) :
          w'.trace = [.processed pdu, .header offset hdr w.smb2.credits request] ++ w.trace := by
        rw [hw', World.log, hquiet.trace]
        rfl
      rcases hpdu.handler hhandler with ⟨hsame, hends⟩ | ⟨hsame, hends⟩
      · exact ⟨h₁.end_ hsteps hsame hends, _, htrace hsame.trace, by simp [Event.isFrame]⟩
      · refine ⟨h₁.extend hsteps [.processed pdu] hsame.trace ?_ hsame.fh hsame.isComplete, _,
          htrace hsame.trace, by simp [Event.isFrame]⟩
        simpa [Event.isTraffic] using hends

theorem Compounding.send (h : Compounding chain w) (hstep : SendStep w w') :
    Compounding chain w' ∧
      ∃ more, w'.trace = more ++ w.trace ∧ ∀ event ∈ more, event.isFrame = false := by
  have hsteps : ClientSteps plainEnv w w' := .single (.act (hstep.act plainEnv))
  cases hstep with
  | quiet hquiet => exact ⟨h.quiet hquiet, [], hquiet.trace, by simp⟩
  | @transmit key sent hsent hcredits =>
      obtain ⟨evs, htrace, hevs, -⟩ := trace_transmit w key sent
      have hevent (event : Event) (he : event ∈ evs ++ [.transmitted w.smb2.dialect w.smb2.credits sent]) :
          (event.isTraffic ∧ ¬ event.ends) ∧ event.isFrame = false := by
        rw [List.mem_append, List.mem_singleton] at he
        rcases he with he | rfl
        · obtain ⟨credits, pdu, -, rfl⟩ := hevs event he
          exact ⟨⟨rfl, id⟩, rfl⟩
        · exact ⟨⟨rfl, id⟩, rfl⟩
      have hmore : (w.transmit key sent).trace =
          (evs ++ [.transmitted w.smb2.dialect w.smb2.credits sent]) ++ w.trace := by
        rw [htrace, List.append_assoc, List.singleton_append]
      refine ⟨h.extend hsteps _ hmore (fun event he => (hevent event he).1) (fun address => ?_) ?_, _,
        hmore, fun event he => (hevent event he).2⟩
      · rw [World.transmit, smb2PduAddToWaitqueue_frame]
        rfl
      · rw [World.transmit, smb2PduAddToWaitqueue_frame]
        rfl
  | requeue hsent => exact ⟨h.extend hsteps [] rfl (by simp) (fun _ => rfl) rfl, [], rfl, by simp⟩

/-- What one step keeps, any number of them keep. -/
theorem Compounding.star {step : World → World → Prop}
    (hstep : ∀ w w', Compounding chain w → step w w' → Compounding chain w' ∧
      ∃ more, w'.trace = more ++ w.trace ∧ ∀ event ∈ more, event.isFrame = false)
    (h : Compounding chain w) (hsteps : Relation.ReflTransGen step w w') :
    Compounding chain w' ∧
      ∃ more, w'.trace = more ++ w.trace ∧ ∀ event ∈ more, event.isFrame = false := by
  induction hsteps with
  | refl => exact ⟨h, [], rfl, by simp⟩
  | tail _ hlast ih =>
      obtain ⟨h₁, evs, hevs, hframe⟩ := ih
      obtain ⟨h₂, more, hmore, hframe'⟩ := hstep _ _ h₁ hlast
      refine ⟨h₂, more ++ evs, by rw [hmore, hevs, List.append_assoc], fun event he => ?_⟩
      exact (List.mem_append.mp he).elim (hframe' event) (hframe event)

/-- A round that ends the exchange has read a frame, and no frame before it brought a reply that ends
the exchange. -/
theorem Compounding.round (h : Compounding chain w) (hround : Round env w w')
    (hrunning : w.smb2.isComplete = false) :
    Compounding chain w' ∧ (w'.smb2.isComplete = true →
      ∃ newer spl older, w'.trace = newer ++ .frame spl :: older ∧
        (∀ event ∈ newer, event.isFrame = false) ∧ (∃ event ∈ newer, event.ends) ∧
        ∀ event ∈ older, ¬ event.ends) := by
  have hnone : ∀ event ∈ w.trace, ¬ event.ends := fun event he hends => by
    have hover := h.complete.mpr ⟨event, he, hends⟩
    rw [hrunning] at hover
    cases hover
  obtain ⟨w₁, hquiet | ⟨w₀, spl, hquiet, hreplies⟩, hsent⟩ := hround
  · obtain ⟨h', -⟩ := (h.quiet hquiet).star (fun _ _ => Compounding.send) hsent
    refine ⟨h', fun hover => ?_⟩
    have hsame : w'.smb2.isComplete = w₁.smb2.isComplete := by
      clear h' hover
      induction hsent with
      | refl => rfl
      | tail _ hlast ih => exact hlast.isComplete.trans ih
    rw [hsame, hquiet.isComplete, hrunning] at hover
    cases hover
  · have hframe := (h.quiet hquiet).frame spl
    obtain ⟨h₁, replied, hreplied, hframe₁⟩ := hframe.star (fun _ _ => Compounding.reply) hreplies
    obtain ⟨h', sent, htrace, hframe'⟩ := h₁.star (fun _ _ => Compounding.send) hsent
    have hsplit : w'.trace = (sent ++ replied) ++ .frame spl :: w.trace := by
      rw [htrace, hreplied, World.log, hquiet.trace, List.append_assoc]
    refine ⟨h', fun hover => ⟨sent ++ replied, spl, w.trace, hsplit, fun event he => ?_, ?_, hnone⟩⟩
    · exact (List.mem_append.mp he).elim (hframe' event) (hframe₁ event)
    · obtain ⟨event, he, hends⟩ := h'.complete.mp hover
      rw [hsplit, List.mem_append, List.mem_cons] at he
      rcases he with he | rfl | he
      · exact ⟨event, he, hends⟩
      · exact hends.elim
      · exact absurd hends (hnone event he)

theorem Compounding.rounds (h : Compounding chain w) (hrunning : w.smb2.isComplete = false)
    (hrounds : Rounds env w w') :
    Compounding chain w' ∧ (w'.smb2.isComplete = true →
      ∃ newer spl older, w'.trace = newer ++ .frame spl :: older ∧
        (∀ event ∈ newer, event.isFrame = false) ∧ (∃ event ∈ newer, event.ends) ∧
        ∀ event ∈ older, ¬ event.ends) := by
  induction hrounds with
  | refl => exact ⟨h, fun hover => absurd hover (by simp [hrunning])⟩
  | tail _ hlast ih => exact ih.1.round hlast.2 hlast.1

/-! ### The beginning -/

/-- The exchange of a compound that was queued begins. -/
theorem IsCompound.compounding {create info close : RequestSpec} (hstart : CleanStart w)
    (h : IsCompound w create info close)
    (hqueue : smb2QueuePdu env w (createChain w.smb2 create [info, close]) = (none, w₁)) :
    ∃ chain, w₁.trace = [.queued chain] ∧ Compounding chain w₁.beginSendReceive := by
  have hsteps : ClientSteps env w w₁.beginSendReceive :=
    (Relation.ReflTransGen.single (.request create [info, close] hqueue)).tail .start
  have hempty : Owned w.trace w := by
    refine ⟨?_, ?_, ?_⟩
    · simp [hstart.outqueue]
    · simp [hstart.waitqueue]
    · simp [hstart.trace]
  obtain ⟨smb2, encoded, hspec, ⟨-, queued, rfl, rfl⟩ | ⟨hne, -⟩⟩ := smb2QueuePdu_cases hqueue
  · have hbuilt : ∀ pdu ∈ (createChain w.smb2 create [info, close]).members, InCompound w pdu := by
      refine forall_mem_createChain (fun _ _ _ hpdu => hpdu) create fun spec hspec => ?_
      simp only [List.mem_cons, List.not_mem_nil, or_false] at hspec
      rcases hspec with rfl | rfl | rfl
      · exact Or.inl ⟨h.opens, h.noHandle⟩
      · exact Or.inr (h.asks.imp_right Or.inl)
      · exact Or.inr (Or.inr (Or.inr h.closes))
    have htrace : (Event.queued queued :: w.trace) = [.queued queued] := by rw [hstart.trace]
    refine ⟨queued, htrace, hempty.of_steps hsteps, ⟨[], htrace, by simp⟩, fun pdu hpdu => ?_, ?_⟩
    · obtain ⟨original, hmem, hencodes⟩ := hspec.exists_member pdu hpdu
      rw [InCompound, hencodes.command, hencodes.appData]
      exact hbuilt original hmem
    · refine iff_of_false Bool.false_ne_true ?_
      rintro ⟨event, hevent, hends⟩
      have hevent : event ∈ [Event.queued queued] := htrace ▸ hevent
      rw [List.mem_singleton] at hevent
      subst hevent
      exact hends
  · exact absurd rfl hne

/-- A request of a chain is in a queue exactly when no reply was matched to it. -/
theorem noneLeft_iff_matched {first : Nat} (hinv : IdInv first w) (hkept : Kept w)
    (hreply : ReplyInv w) (hqueued : .queued chain ∈ w.trace) :
    NoneLeft chain w ↔ ∀ pdu ∈ chain.members, Matched w.trace pdu := by
  constructor
  · intro h pdu hpdu
    rcases hkept chain hqueued with hout | hmembers
    · exact absurd hpdu ((h pdu hpdu).2 _ chain hout)
    · exact (hmembers pdu hpdu).resolve_left ((h pdu hpdu).1 _)
  · intro h pdu hpdu
    obtain ⟨offset, hdr, credits, hheader⟩ := h pdu hpdu
    obtain ⟨hid, hsent⟩ := hreply.replied offset hdr credits pdu hheader
    refine ⟨fun key hwaiting => ?_, fun key other hother hmem => ?_⟩
    · have hkey := (hinv.wait key pdu hwaiting).1
      have hfresh := hreply.fresh key pdu hwaiting
      have hmem : (hdr, pdu) ∈ repliesTo key w.trace :=
        mem_repliesTo.mpr ⟨(hkey.trans hid).symm, offset, credits, hheader⟩
      rw [hfresh] at hmem
      cases hmem
    · exact hinv.unsent key other hother pdu hmem pdu hsent rfl

theorem numberedPdus_traffic {evs : List Event} (h : ∀ event ∈ evs, event.isTraffic) :
    numberedPdus (evs ++ [.queued chain]) = chain.members := by
  induction evs with
  | nil => rfl
  | cons event evs ih =>
      obtain ⟨hevent, hevs⟩ := List.forall_mem_cons.mp h
      have hnumbered : event.numbered = [] := by
        cases event with
        | queued => cases hevent
        | queueFailed => cases hevent
        | _ => rfl
      rw [List.cons_append, numberedPdus, ih hevs, hnumbered, List.append_nil]

theorem Compounding.oneConnection (h : Compounding chain w) {first : Nat}
    (hids : first + idsTaken chain.members < 2 ^ 64) : OneConnection first w.trace := by
  obtain ⟨evs, hevs, htraffic⟩ := h.events
  constructor
  · intro event hevent
    rw [hevs, List.mem_append, List.mem_singleton] at hevent
    rcases hevent with hevent | rfl
    · have hkind := htraffic event hevent
      cases event with
      | closed => cases hkind
      | _ => rfl
    · rfl
  · rw [hevs, numberedPdus_traffic htraffic]
    exact hids

theorem sendAndReceive_returned {polls : List Poll} (h : sendAndReceive env polls w = .returned 0 w') :
    Rounds env w.beginSendReceive w' ∧ w'.smb2.isComplete = true := by
  have hafter := sendAndReceiveLoop_after env polls w.beginSendReceive
  rw [← sendAndReceive, h] at hafter
  exact hafter rfl

theorem Compounding.sendAndReceive {polls : List Poll} (h : Compounding chain w.beginSendReceive)
    (hret : Samba.sendAndReceive env polls w = .returned 0 w') : Compounding chain w' :=
  (h.rounds rfl (sendAndReceive_returned hret).1).1

end

/-- When the exchange of a compound is over without an error, no request of it is left in a queue
exactly when all of them were answered by the end of the first frame with a reply that ends the
exchange. -/
theorem noneLeft_iff_answeredInTime {env : Env} {polls : List Poll} {w w₁ w₂ : World}
    {create info close : RequestSpec} {chain : PduChain} (hstart : CleanStart w)
    (hcompound : IsCompound w create info close)
    (hqueue : smb2QueuePdu env w (createChain w.smb2 create [info, close]) = (none, w₁))
    (hchain : w₁.trace = [.queued chain])
    (hids : w.smb2.messageId.toNat + idsTaken chain.members < 2 ^ 64)
    (hret : sendAndReceive env polls w₁ = .returned 0 w₂) :
    NoneLeft chain w₂ ↔ AnsweredInTime chain w₂.trace := by
  obtain ⟨chain', hchain', hbegin⟩ := hcompound.compounding hstart hqueue
  obtain rfl : chain' = chain := by simpa [hchain'] using hchain
  obtain ⟨hrounds, hover⟩ := sendAndReceive_returned hret
  obtain ⟨h₂, hstops⟩ := hbegin.rounds rfl hrounds
  obtain ⟨newer, spl, older, htrace, hframe, hends, hbefore⟩ := hstops hover
  have hsteps : ClientSteps env w w₂ :=
    ((Relation.ReflTransGen.single (.request create [info, close] hqueue)).tail .start).trans
      (Rounds.steps hrounds)
  have hone := h₂.oneConnection hids
  obtain ⟨hinv, hkept⟩ := hstart.inv_of_steps hsteps hone
  obtain ⟨-, hreply⟩ := hstart.replyInv_of_steps hsteps hone
  have hqueued : .queued chain' ∈ w₂.trace := by
    obtain ⟨evs, hevs, -⟩ := h₂.events
    rw [hevs]
    exact List.mem_append_right _ (List.mem_singleton_self _)
  rw [noneLeft_iff_matched hinv hkept hreply hqueued]
  constructor
  · exact fun h => ⟨newer, spl, older, htrace, hframe, hends, hbefore, h⟩
  · exact fun ⟨_, _, _, _, _, _, _, h⟩ => h

/-- The world after an exchange that was over without an error. -/
def Exchange.ended? : Exchange → Option World
  | .returned 0 w => some w
  | _ => none

theorem returned_of_ended? {exchange : Exchange} {w : World} (h : exchange.ended? = some w) :
    exchange = .returned 0 w := by
  unfold Exchange.ended? at h
  split at h <;> cases h
  rfl

/-- The compound is sent, then frames arrive. -/
def compoundPolls (frames : List Bytes) : List Poll :=
  { pollout := true, writevs := wholeWrites } ::
    frames.map fun rx => { pollin := true, rx }

/-- A client that has queued the compound. -/
def querying : World :=
  (smb2QueuePdu plainEnv (idleClient 0)
    (createChain (idleClient 0).smb2 createByName [queryInfoRequest, closeRequest])).2

theorem querying_queued : smb2QueuePdu plainEnv (idleClient 0)
    (createChain (idleClient 0).smb2 createByName [queryInfoRequest, closeRequest]) = (none, querying) := by
  have hnone : (smb2QueuePdu plainEnv (idleClient 0)
      (createChain (idleClient 0).smb2 createByName [queryInfoRequest, closeRequest])).1.isNone := by
    decide +kernel
  exact Prod.ext (Option.isNone_iff_eq_none.mp hnone) rfl

theorem isCompound_query : IsCompound (idleClient 0) createByName queryInfoRequest closeRequest :=
  ⟨rfl, rfl, Or.inl rfl, rfl⟩

/-- All answers come in one frame. -/
theorem answeredInTime_oneFrame :
    ∃ w chain, sendAndReceive plainEnv (compoundPolls [frameOf (errorReply .create 1 0 72 ++
        errorReply .queryInfo 1 1 72 ++ errorReply .close 1 2 0)]) querying = .returned 0 w ∧
      querying.trace = [.queued chain] ∧ NoneLeft chain w ∧ AnsweredInTime chain w.trace := by
  obtain ⟨chain, hchain, -⟩ := isCompound_query.compounding ⟨rfl, rfl, rfl⟩ querying_queued
  have hids : 0 + idsTaken (numberedPdus querying.trace) < 2 ^ 64 := by decide +kernel
  rw [hchain] at hids
  have hany : ((sendAndReceive plainEnv (compoundPolls [frameOf (errorReply .create 1 0 72 ++
      errorReply .queryInfo 1 1 72 ++ errorReply .close 1 2 0)]) querying).ended?).any (fun w =>
        w.smb2.outqueue.entries.length = 0 ∧ w.smb2.waitqueue.entries.length = 0) = true := by
    decide +kernel
  obtain ⟨w, hw, hall⟩ := (Option.any_eq_true _ _).mp hany
  rw [decide_eq_true_eq] at hall
  have hout : w.smb2.outqueue = ∅ := OrdMap.ext_entries (List.eq_nil_of_length_eq_zero hall.1)
  have hwait : w.smb2.waitqueue = ∅ := OrdMap.ext_entries (List.eq_nil_of_length_eq_zero hall.2)
  have hnone : NoneLeft chain w := fun pdu _ => ⟨by simp [hwait], by simp [hout]⟩
  have hret := returned_of_ended? hw
  refine ⟨w, chain, hret, hchain, hnone, ?_⟩
  exact (noneLeft_iff_answeredInTime (w := idleClient 0) ⟨rfl, rfl, rfl⟩ isCompound_query
    querying_queued hchain hids hret).mp hnone

/-- The CREATE fails, and its answer comes in a frame of its own: the other requests are left. -/
theorem not_noneLeft_createFails :
    ∃ w chain, sendAndReceive plainEnv (compoundPolls [frameOf (errorReply .create 1 0 0),
        frameOf (errorReply .queryInfo 1 1 72 ++ errorReply .close 1 2 0)]) querying = .returned 0 w ∧
      querying.trace = [.queued chain] ∧ ¬ NoneLeft chain w := by
  obtain ⟨chain, hchain, hbegin⟩ := isCompound_query.compounding ⟨rfl, rfl, rfl⟩ querying_queued
  have hany : ((sendAndReceive plainEnv (compoundPolls [frameOf (errorReply .create 1 0 0),
      frameOf (errorReply .queryInfo 1 1 72 ++ errorReply .close 1 2 0)]) querying).ended?).any (fun w =>
        (w.smb2.waitqueue.lookup 1).isSome) = true := by
    decide +kernel
  obtain ⟨w, hw, hsome⟩ := (Option.any_eq_true _ _).mp hany
  obtain ⟨pdu, hpdu⟩ := Option.isSome_iff_exists.mp hsome
  have hret := returned_of_ended? hw
  refine ⟨w, chain, hret, hchain, fun h => ?_⟩
  have hcompounding := hbegin.sendAndReceive hret
  exact (h pdu (hcompounding.mem_of_waiting hpdu)).1 1 hpdu

end CodeStudy.Samba
