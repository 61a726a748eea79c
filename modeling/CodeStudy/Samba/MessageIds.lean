import CodeStudy.Samba.Client
import CodeStudy.Samba.Numbering

/-!
# Message ids over runs

On one connection, every PDU that is numbered takes the next ids of the context's counter, and both
queues hold each request under its own id. The ids of the requests that are actually queued are
consecutive as long as no call of `smb2QueuePdu` fails: a call that fails has already moved the
counter on.
-/

namespace CodeStudy.Samba

/-- The requests that an event gave message ids to. -/
def Event.numbered : Event → List Smb2Pdu
  | .queued chain => chain.members
  | .queueFailed encoded => encoded
  | _ => []

/-- The requests that an event queued. -/
def Event.enqueued : Event → List Smb2Pdu
  | .queued chain => chain.members
  | _ => []

/-- All requests that were given message ids, first to last. -/
def numberedPdus : List Event → List Smb2Pdu
  | [] => []
  | event :: older => numberedPdus older ++ event.numbered

/-- All requests that were queued, first to last. -/
def queuedPdus : List Event → List Smb2Pdu
  | [] => []
  | event :: older => queuedPdus older ++ event.enqueued

def Sent (trace : List Event) (pdu : Smb2Pdu) : Prop := ∃ credits, Event.sent credits pdu ∈ trace

def Matched (trace : List Event) (request : Smb2Pdu) : Prop :=
  ∃ offset hdr credits, Event.header offset hdr credits request ∈ trace

/-- A context that has nothing queued, at the beginning of what is looked at. -/
structure CleanStart (w : World) : Prop where
  outqueue : w.smb2.outqueue = ∅
  waitqueue : w.smb2.waitqueue = ∅
  trace : w.trace = []

def Event.isClosed : Event → Bool
  | .closed => true
  | _ => false

/-- The run so far stayed on one connection and did not use up the message ids. -/
structure OneConnection (first : Nat) (trace : List Event) : Prop where
  notClosed : ∀ event ∈ trace, event.isClosed = false
  ids : first + idsTaken (numberedPdus trace) < 2 ^ 64

theorem OneConnection.older {first : Nat} {event : Event} {older : List Event}
    (h : OneConnection first (event :: older)) : OneConnection first older := by
  refine ⟨fun event hmem => h.notClosed event (List.mem_cons_of_mem _ hmem), ?_⟩
  have hids := h.ids
  rw [numberedPdus, idsTaken_append] at hids
  omega

theorem OneConnection.suffix {first : Nat} {evs older : List Event}
    (h : OneConnection first (evs ++ older)) : OneConnection first older := by
  induction evs with
  | nil => exact h
  | cons event evs ih => exact ih (OneConnection.older h)

/-- What links the counter, the trace and the two queues on one connection. -/
structure IdInv (first : Nat) (w : World) : Prop where
  numbered : NumberedFrom first (numberedPdus w.trace)
  next : w.smb2.messageId.toNat = first + idsTaken (numberedPdus w.trace)
  heads : ∀ chain, .queued chain ∈ w.trace → ∀ pdu ∈ chain.members,
    chain.head.messageId ≤ pdu.messageId
  out : ∀ key chain, w.smb2.outqueue.lookup key = some chain →
    key = chain.head.messageId ∧ .queued chain ∈ w.trace
  /-- The chains that wait to be sent have separate ranges of ids. -/
  apart : ∀ key chain key' chain', w.smb2.outqueue.lookup key = some chain →
    w.smb2.outqueue.lookup key' = some chain' → key < key' →
    ∀ pdu ∈ chain.members, pdu.messageId < key'
  unsent : ∀ key chain, w.smb2.outqueue.lookup key = some chain → ∀ pdu ∈ chain.members,
    ∀ sent, Sent w.trace sent → sent.messageId ≠ pdu.messageId
  wait : ∀ key pdu, w.smb2.waitqueue.lookup key = some pdu → key = pdu.messageId ∧ Sent w.trace pdu
  sent : ∀ pdu, Sent w.trace pdu → ∃ chain, .queued chain ∈ w.trace ∧ pdu ∈ chain.members

/-- No request is lost: a chain waits to be sent, or each of its members waits for its reply or has
been matched to it. -/
def Kept (w : World) : Prop :=
  ∀ chain, .queued chain ∈ w.trace →
    w.smb2.outqueue.lookup chain.head.messageId = some chain ∨
    ∀ pdu ∈ chain.members, w.smb2.waitqueue.lookup pdu.messageId = some pdu ∨ Matched w.trace pdu

section

variable {first : Nat} {w w' : World}

theorem mem_numberedPdus {trace : List Event} {chain : PduChain} (h : .queued chain ∈ trace)
    {pdu : Smb2Pdu} (hpdu : pdu ∈ chain.members) : pdu ∈ numberedPdus trace := by
  induction trace with
  | nil => cases h
  | cons event older ih =>
      rw [numberedPdus, List.mem_append]
      rcases List.mem_cons.mp h with rfl | h
      · exact Or.inr hpdu
      · exact Or.inl (ih h)

theorem CleanStart.idInv (h : CleanStart w) : IdInv w.smb2.messageId.toNat w := by
  have hnil : numberedPdus w.trace = [] := by rw [h.trace]; rfl
  have hsent {pdu : Smb2Pdu} : ¬ Sent w.trace pdu := by simp [Sent, h.trace]
  refine ⟨by rw [hnil]; trivial, by rw [hnil]; rfl, by simp [h.trace], ?_, ?_, ?_, ?_, ?_⟩
  · simp [h.outqueue]
  · simp [h.outqueue]
  · simp [h.outqueue]
  · simp [h.waitqueue]
  · exact fun pdu hpdu => absurd hpdu hsent

theorem CleanStart.kept (h : CleanStart w) : Kept w := by
  intro chain hchain
  rw [h.trace] at hchain
  cases hchain

/-- A request that was sent has an id below the counter. -/
theorem IdInv.sent_lt (h : IdInv first w) {pdu : Smb2Pdu} (hsent : Sent w.trace pdu) :
    pdu.messageId < w.smb2.messageId.toNat := by
  obtain ⟨chain, hchain, hpdu⟩ := h.sent pdu hsent
  have hbounds := h.numbered.bounds pdu (mem_numberedPdus hchain hpdu)
  have hpos := pdu.idSpan_pos
  rw [h.next]
  exact lt_of_lt_of_le (by omega) hbounds.2

/-- Queued requests with the same id are the same. -/
theorem IdInv.queued_inj (h : IdInv first w) {chain chain' : PduChain} {pdu pdu' : Smb2Pdu}
    (hchain : .queued chain ∈ w.trace) (hpdu : pdu ∈ chain.members)
    (hchain' : .queued chain' ∈ w.trace) (hpdu' : pdu' ∈ chain'.members)
    (hid : pdu.messageId = pdu'.messageId) : pdu = pdu' :=
  h.numbered.inj Smb2Pdu.idSpan_pos (mem_numberedPdus hchain hpdu) (mem_numberedPdus hchain' hpdu') hid

/-! ### Events that number and send nothing -/

def Event.isNeutral : Event → Bool
  | .queued _ | .queueFailed _ | .sent .. => false
  | _ => true

section

variable {evs older : List Event}

theorem numberedPdus_append (h : ∀ event ∈ evs, event.numbered = []) :
    numberedPdus (evs ++ older) = numberedPdus older := by
  induction evs with
  | nil => rfl
  | cons event evs ih =>
      obtain ⟨hevent, hevs⟩ := List.forall_mem_cons.mp h
      rw [List.cons_append, numberedPdus, ih hevs, hevent, List.append_nil]

theorem numberedPdus_neutral (h : ∀ event ∈ evs, event.isNeutral) :
    numberedPdus (evs ++ older) = numberedPdus older :=
  numberedPdus_append fun event hevent => by
    have hneutral := h event hevent
    cases event <;> first | rfl | cases hneutral

theorem queued_neutral (h : ∀ event ∈ evs, event.isNeutral) {chain : PduChain} :
    .queued chain ∈ evs ++ older ↔ .queued chain ∈ older := by
  rw [List.mem_append, or_iff_right]
  exact fun hmem => absurd (h _ hmem) (by simp [Event.isNeutral])

theorem sent_neutral (h : ∀ event ∈ evs, event.isNeutral) {pdu : Smb2Pdu} :
    Sent (evs ++ older) pdu ↔ Sent older pdu := by
  refine exists_congr fun credits => ?_
  rw [List.mem_append, or_iff_right]
  exact fun hmem => absurd (h _ hmem) (by simp [Event.isNeutral])

end

/-- Steps that number and send nothing, and take requests out of `waitqueue` at most. -/
theorem IdInv.of_neutral (h : IdInv first w) (evs : List Event) (htrace : w'.trace = evs ++ w.trace)
    (hevs : ∀ event ∈ evs, event.isNeutral) (hid : w'.smb2.messageId = w.smb2.messageId)
    (hout : w'.smb2.outqueue = w.smb2.outqueue)
    (hwait : ∀ key pdu, w'.smb2.waitqueue.lookup key = some pdu →
      w.smb2.waitqueue.lookup key = some pdu) : IdInv first w' := by
  constructor
  · rw [htrace, numberedPdus_neutral hevs]
    exact h.numbered
  · rw [hid, htrace, numberedPdus_neutral hevs]
    exact h.next
  · intro chain hchain
    rw [htrace, queued_neutral hevs] at hchain
    exact h.heads chain hchain
  · intro key chain hchain
    rw [htrace, queued_neutral hevs]
    exact h.out key chain (hout ▸ hchain)
  · rw [hout]
    exact h.apart
  · intro key chain hchain pdu hpdu sent hsent
    rw [htrace, sent_neutral hevs] at hsent
    exact h.unsent key chain (hout ▸ hchain) pdu hpdu sent hsent
  · intro key pdu hpdu
    rw [htrace, sent_neutral hevs]
    exact h.wait key pdu (hwait key pdu hpdu)
  · intro pdu hpdu
    rw [htrace, sent_neutral hevs] at hpdu
    obtain ⟨chain, hchain, hmem⟩ := h.sent pdu hpdu
    exact ⟨chain, by rw [htrace, queued_neutral hevs]; exact hchain, hmem⟩

/-! ### Queueing -/

/-- More requests take the next ids. -/
theorem IdInv.numberMore (h : IdInv first w) {more : List Smb2Pdu} {messageId : UInt64}
    (hnumbered : NumberedFrom w.smb2.messageId.toNat more)
    (hnext : messageId.toNat = w.smb2.messageId.toNat + idsTaken more) :
    NumberedFrom first (numberedPdus w.trace ++ more) ∧
      messageId.toNat = first + idsTaken (numberedPdus w.trace ++ more) := by
  rw [h.next] at hnumbered hnext
  refine ⟨numbered_append.mpr ⟨h.numbered, hnumbered⟩, ?_⟩
  rw [hnext, idsTaken_append, Nat.add_assoc]

/-- Numbering requests that are not queued. -/
theorem IdInv.queueFailed (h : IdInv first w) {encoded : List Smb2Pdu} {messageId : UInt64}
    (hnumbered : NumberedFrom w.smb2.messageId.toNat encoded)
    (hnext : messageId.toNat = w.smb2.messageId.toNat + idsTaken encoded) :
    IdInv first ({ w with smb2 := { w.smb2 with messageId } }.log (.queueFailed encoded)) := by
  have hsent {pdu : Smb2Pdu} : Sent (.queueFailed encoded :: w.trace) pdu ↔ Sent w.trace pdu := by
    simp [Sent]
  constructor
  · exact (h.numberMore hnumbered hnext).1
  · exact (h.numberMore hnumbered hnext).2
  · intro chain hchain
    exact h.heads chain (by simpa [World.log] using hchain)
  · intro key chain hchain
    exact (h.out key chain hchain).imp_right fun hmem => List.mem_cons_of_mem _ hmem
  · exact h.apart
  · intro key chain hchain pdu hpdu sent hsent'
    exact h.unsent key chain hchain pdu hpdu sent (hsent.mp hsent')
  · intro key pdu hpdu
    exact (h.wait key pdu hpdu).imp_right hsent.mpr
  · intro pdu hpdu
    obtain ⟨chain, hchain, hmem⟩ := h.sent pdu (hsent.mp hpdu)
    exact ⟨chain, List.mem_cons_of_mem _ hchain, hmem⟩

/-- The ids of queued requests are below the counter. -/
theorem IdInv.queued_lt (h : IdInv first w) {chain : PduChain} (hchain : .queued chain ∈ w.trace)
    {pdu : Smb2Pdu} (hpdu : pdu ∈ chain.members) : pdu.messageId < w.smb2.messageId.toNat := by
  have hbounds := h.numbered.bounds pdu (mem_numberedPdus hchain hpdu)
  have hpos := pdu.idSpan_pos
  rw [h.next]
  exact lt_of_lt_of_le (by omega) hbounds.2

theorem PduChain.head_mem_members (chain : PduChain) : chain.head ∈ chain.members :=
  List.mem_cons_self

/-- Queueing a chain whose members have the next ids. -/
theorem IdInv.queued (h : IdInv first w) {queued : PduChain} {messageId : UInt64}
    (hnumbered : NumberedFrom w.smb2.messageId.toNat queued.members)
    (hnext : messageId.toNat = w.smb2.messageId.toNat + idsTaken queued.members) :
    IdInv first ({ w with smb2 := { w.smb2 with
      messageId
      outqueue := w.smb2.outqueue.insert queued.head.messageId queued } }.log (.queued queued)) := by
  have hsent {pdu : Smb2Pdu} : Sent (.queued queued :: w.trace) pdu ↔ Sent w.trace pdu := by
    simp [Sent]
  have hhead : queued.head.messageId = w.smb2.messageId.toNat := hnumbered.1
  have hge : ∀ pdu ∈ queued.members, w.smb2.messageId.toNat ≤ pdu.messageId :=
    fun pdu hpdu => (hnumbered.bounds pdu hpdu).1
  have hfresh : ∀ key chain, w.smb2.outqueue.lookup key = some chain → key < queued.head.messageId := by
    intro key chain hchain
    obtain ⟨hkey, hmem⟩ := h.out key chain hchain
    rw [hkey, hhead]
    exact h.queued_lt hmem chain.head_mem_members
  constructor
  · exact (h.numberMore hnumbered hnext).1
  · exact (h.numberMore hnumbered hnext).2
  · intro chain hchain pdu hpdu
    rw [World.log, List.mem_cons, Event.queued.injEq] at hchain
    rcases hchain with rfl | hchain
    · rw [hhead]
      exact hge pdu hpdu
    · exact h.heads chain hchain pdu hpdu
  · intro key chain hchain
    rw [World.log, OrdMap.lookup_insert] at hchain
    split_ifs at hchain with hkey
    · cases hchain
      exact ⟨hkey, List.mem_cons_self⟩
    · exact (h.out key chain hchain).imp_right fun hmem => List.mem_cons_of_mem _ hmem
  · intro key chain key' chain' hchain hchain' hlt pdu hpdu
    rw [World.log, OrdMap.lookup_insert] at hchain hchain'
    split_ifs at hchain hchain' with hkey hkey' hkey'
    · omega
    · have hlt' := hfresh key' chain' hchain'
      omega
    · obtain ⟨-, hmem⟩ := h.out key chain hchain
      have hpdu' := h.queued_lt hmem hpdu
      omega
    · exact h.apart key chain key' chain' hchain hchain' hlt pdu hpdu
  · intro key chain hchain pdu hpdu sent hsent'
    rw [World.log, OrdMap.lookup_insert] at hchain
    have hsent' := hsent.mp hsent'
    split_ifs at hchain with hkey
    · cases hchain
      exact (lt_of_lt_of_le (h.sent_lt hsent') (hge pdu hpdu)).ne
    · exact h.unsent key chain hchain pdu hpdu sent hsent'
  · intro key pdu hpdu
    exact (h.wait key pdu hpdu).imp_right hsent.mpr
  · intro pdu hpdu
    obtain ⟨chain, hchain, hmem⟩ := h.sent pdu (hsent.mp hpdu)
    exact ⟨chain, List.mem_cons_of_mem _ hchain, hmem⟩

/-- A queueing step, successful or not, whose ids do not run out. -/
theorem IdInv.queuePdu (h : IdInv first w) {env : Env} {chain : PduChain} {err : Option String}
    (hstep : smb2QueuePdu env w chain = (err, w')) (hone : OneConnection first w'.trace) :
    IdInv first w' := by
  obtain ⟨smb2, encoded, hspec, ⟨-, queued, hmembers, rfl⟩ | ⟨-, rfl⟩⟩ := smb2QueuePdu_cases hstep
  all_goals
    have hids := hone.ids
    rw [World.log, numberedPdus, idsTaken_append, ← Nat.add_assoc, ← h.next] at hids
  · obtain ⟨hnumbered, hnext⟩ := hspec.numbered (hmembers ▸ hids)
    exact h.queued (hmembers ▸ hnumbered) (hmembers ▸ hnext)
  · obtain ⟨hnumbered, hnext⟩ := hspec.numbered hids
    exact h.queueFailed hnumbered hnext

/-! ### Sending -/

section

variable {key : Nat} {chain : PduChain}

theorem numberedPdus_transmit :
    numberedPdus (w.transmit key chain).trace = numberedPdus w.trace := by
  obtain ⟨evs, htrace, hsent, -⟩ := trace_transmit w key chain
  rw [htrace, numberedPdus_append]
  · exact List.append_nil _
  · intro event hevent
    obtain ⟨credits, pdu, -, rfl⟩ := hsent event hevent
    rfl

theorem queued_transmit {c : PduChain} :
    .queued c ∈ (w.transmit key chain).trace ↔ .queued c ∈ w.trace := by
  obtain ⟨evs, htrace, hsent, -⟩ := trace_transmit w key chain
  rw [htrace, List.mem_append, List.mem_cons, or_iff_right, or_iff_right (by simp)]
  intro hmem
  obtain ⟨credits, pdu, -, heq⟩ := hsent _ hmem
  cases heq

theorem sent_transmit {pdu : Smb2Pdu} :
    Sent (w.transmit key chain).trace pdu ↔ pdu ∈ chain.members ∨ Sent w.trace pdu := by
  obtain ⟨evs, htrace, hsent, hall⟩ := trace_transmit w key chain
  rw [Sent, htrace]
  constructor
  · rintro ⟨credits, hmem⟩
    rw [List.mem_append, List.mem_cons] at hmem
    rcases hmem with hmem | heq | hmem
    · obtain ⟨_, other, hother, heq⟩ := hsent _ hmem
      cases heq
      exact Or.inl hother
    · cases heq
    · exact Or.inr ⟨credits, hmem⟩
  · rintro (hmem | ⟨credits, hmem⟩)
    · obtain ⟨credits, hmem⟩ := hall pdu hmem
      exact ⟨credits, List.mem_append_left _ hmem⟩
    · exact ⟨credits, List.mem_append_right _ (List.mem_cons_of_mem _ hmem)⟩

theorem lookup_outqueue_transmit {k : Nat} {c : PduChain}
    (h : (w.transmit key chain).smb2.outqueue.lookup k = some c) :
    k ≠ key ∧ w.smb2.outqueue.lookup k = some c := by
  rw [outqueue_transmit, OrdMap.lookup_erase] at h
  split_ifs at h with hk
  exact ⟨hk, h⟩

end

theorem IdInv.transmit (h : IdInv first w) {key : Nat} {chain : PduChain}
    (hchain : w.smb2.outqueue.lookup key = some chain) : IdInv first (w.transmit key chain) := by
  obtain ⟨hkey, hqueued⟩ := h.out key chain hchain
  constructor
  · rw [numberedPdus_transmit]
    exact h.numbered
  · rw [messageId_transmit, numberedPdus_transmit]
    exact h.next
  · intro c hc
    exact h.heads c (queued_transmit.mp hc)
  · intro k c hc
    exact (h.out k c (lookup_outqueue_transmit hc).2).imp_right queued_transmit.mpr
  · intro k c k' c' hc hc'
    exact h.apart k c k' c' (lookup_outqueue_transmit hc).2 (lookup_outqueue_transmit hc').2
  · intro k c hc pdu hpdu sent hs
    obtain ⟨hk, hc⟩ := lookup_outqueue_transmit hc
    rcases sent_transmit.mp hs with hs | hs
    · -- the chain just sent lies before or behind the chain `c`
      have hckey := (h.out k c hc).1
      have hge := h.heads c (h.out k c hc).2 pdu hpdu
      have hge' := h.heads chain hqueued sent hs
      rcases Nat.lt_or_gt_of_ne hk with hlt | hgt
      · have hbefore := h.apart k c key chain hc hchain hlt pdu hpdu
        omega
      · have hbefore := h.apart key chain k c hchain hc hgt sent hs
        omega
    · exact h.unsent k c hc pdu hpdu sent hs
  · intro k pdu hpdu
    rcases lookup_smb2PduAddToWaitqueue _ _ hpdu with ⟨hmem, hk⟩ | hold
    · exact ⟨hk, sent_transmit.mpr (Or.inl hmem)⟩
    · exact (h.wait k pdu hold).imp_right fun hs => sent_transmit.mpr (Or.inr hs)
  · intro pdu hpdu
    rcases sent_transmit.mp hpdu with hmem | hs
    · exact ⟨chain, queued_transmit.mpr hqueued, hmem⟩
    · obtain ⟨c, hc, hmem⟩ := h.sent pdu hs
      exact ⟨c, queued_transmit.mpr hc, hmem⟩

/-- Taking a chain out of the queue and putting it back changes nothing. -/
theorem IdInv.lookup_requeue (h : IdInv first w) {key : Nat} {chain : PduChain}
    (hchain : w.smb2.outqueue.lookup key = some chain) (query : Nat) :
    (w.requeue key chain).smb2.outqueue.lookup query = w.smb2.outqueue.lookup query := by
  have hkey := (h.out key chain hchain).1
  simp only [World.requeue, ← hkey, OrdMap.lookup_insert, OrdMap.lookup_erase]
  split_ifs with heq
  · rw [heq, hchain]
  · rfl

theorem IdInv.requeue (h : IdInv first w) {key : Nat} {chain : PduChain}
    (hchain : w.smb2.outqueue.lookup key = some chain) : IdInv first (w.requeue key chain) := by
  have hlookup := h.lookup_requeue hchain
  constructor
  · exact h.numbered
  · exact h.next
  · exact h.heads
  · intro k c hc
    exact h.out k c (hlookup k ▸ hc)
  · intro k c k' c' hc hc'
    exact h.apart k c k' c' (hlookup k ▸ hc) (hlookup k' ▸ hc')
  · intro k c hc
    exact h.unsent k c (hlookup k ▸ hc)
  · exact h.wait
  · exact h.sent

/-! ### Every step -/

theorem IdInv.step (h : IdInv first w) {env : Env} (hstep : ClientStep env w w')
    (hone : OneConnection first w'.trace) : IdInv first w' := by
  cases hstep with
  | start => exact h.of_neutral [] rfl (by simp) rfl rfl fun _ _ hp => hp
  | connect conn => exact h.of_neutral [_] rfl (by simp [Event.isNeutral]) rfl rfl fun _ _ hp => hp
  | request first others hqueue => exact h.queuePdu hqueue hone
  | act hact =>
      cases hact with
      | quiet hquiet =>
          exact h.of_neutral [] hquiet.trace (by simp) hquiet.messageId hquiet.outqueue
            fun _ _ hp => hquiet.waitqueue ▸ hp
      | finish => exact h.of_neutral [] rfl (by simp) rfl rfl fun _ _ hp => hp
      | close => exact absurd (hone.notClosed .closed List.mem_cons_self) (by decide)
      | queue spec hqueue => exact h.queuePdu hqueue hone
      | frame spl =>
          exact h.of_neutral [_] rfl (by simp [Event.isNeutral]) rfl rfl fun _ _ hp => hp
      | accept offset hwaiting =>
          refine h.of_neutral [_] rfl (by simp [Event.isNeutral]) rfl rfl fun key pdu hp => ?_
          rw [World.accept, World.log, OrdMap.lookup_erase] at hp
          split_ifs at hp
          exact hp
      | reject hnone =>
          exact h.of_neutral [_] rfl (by simp [Event.isNeutral]) rfl rfl fun _ _ hp => hp
      | process htrace hfinal hanswer =>
          exact h.of_neutral [_] rfl (by simp [Event.isNeutral]) rfl rfl fun _ _ hp => hp
      | transmit hchain hcredits => exact h.transmit hchain
      | requeue hchain => exact h.requeue hchain

theorem Matched.append {trace : List Event} {request : Smb2Pdu} (h : Matched trace request)
    (evs : List Event) : Matched (evs ++ trace) request := by
  obtain ⟨offset, hdr, credits, hmem⟩ := h
  exact ⟨offset, hdr, credits, List.mem_append_right _ hmem⟩

/-- Steps that leave both queues alone and queue nothing. -/
theorem Kept.of_neutral (h : Kept w) (evs : List Event) (htrace : w'.trace = evs ++ w.trace)
    (hevs : ∀ event ∈ evs, event.isNeutral) (hout : w'.smb2.outqueue = w.smb2.outqueue)
    (hwait : w'.smb2.waitqueue = w.smb2.waitqueue) : Kept w' := by
  intro chain hchain
  rw [htrace, queued_neutral hevs] at hchain
  rw [hout, hwait, htrace]
  exact (h chain hchain).imp_right fun hmembers pdu hpdu =>
    (hmembers pdu hpdu).imp_right fun hmatched => hmatched.append evs

theorem Kept.accept (h : Kept w) {hdr : Smb2Header} {request : Smb2Pdu} (offset : Nat)
    (hwaiting : w.smb2.waitqueue.lookup hdr.messageId.toNat = some request) :
    Kept (w.accept offset hdr request) := by
  intro chain hchain
  have hchain : .queued chain ∈ w.trace := by simpa [World.accept, World.log] using hchain
  refine (h chain hchain).imp_right fun hmembers pdu hpdu => ?_
  rcases hmembers pdu hpdu with hold | hmatched
  · by_cases hid : pdu.messageId = hdr.messageId.toNat
    · rw [hid, hwaiting] at hold
      cases hold
      exact Or.inr ⟨offset, hdr, w.smb2.credits, List.mem_cons_self⟩
    · refine Or.inl ?_
      rw [World.accept, World.log, OrdMap.lookup_erase, if_neg hid, hold]
  · exact Or.inr (hmatched.append [_])

theorem Kept.queuePdu (h : Kept w) (hinv : IdInv first w) {env : Env} {chain : PduChain}
    {err : Option String} (hstep : smb2QueuePdu env w chain = (err, w'))
    (hone : OneConnection first w'.trace) : Kept w' := by
  obtain ⟨smb2, encoded, hspec, ⟨-, queued, hmembers, rfl⟩ | ⟨-, rfl⟩⟩ := smb2QueuePdu_cases hstep
  · have hids := hone.ids
    rw [World.log, numberedPdus, idsTaken_append, ← Nat.add_assoc, ← hinv.next] at hids
    obtain ⟨hnumbered, -⟩ := hspec.numbered (hmembers ▸ hids)
    rw [← hmembers] at hnumbered
    have hhead : queued.head.messageId = w.smb2.messageId.toNat := hnumbered.1
    intro c hc
    rw [World.log, List.mem_cons, Event.queued.injEq] at hc
    rcases hc with rfl | hc
    · exact Or.inl (OrdMap.lookup_insert_self _ _ _)
    · refine (h c hc).imp (fun hold => ?_) fun hold pdu hpdu =>
        (hold pdu hpdu).imp_right fun hmatched => hmatched.append [_]
      have hlt := hinv.queued_lt hc c.head_mem_members
      rw [World.log, OrdMap.lookup_insert, if_neg (by omega), hold]
  · intro c hc
    have hc : .queued c ∈ w.trace := by simpa [World.log] using hc
    exact (h c hc).imp_right fun hold pdu hpdu =>
      (hold pdu hpdu).imp_right fun hmatched => hmatched.append [_]

theorem Kept.transmit (h : Kept w) (hinv : IdInv first w) {key : Nat} {chain : PduChain}
    (hchain : w.smb2.outqueue.lookup key = some chain) : Kept (w.transmit key chain) := by
  obtain ⟨hkey, hqueued⟩ := hinv.out key chain hchain
  -- nothing that waits is overwritten: a request with the same id is the request itself
  have hwait {c : PduChain} (hc : .queued c ∈ w.trace) {pdu : Smb2Pdu} (hpdu : pdu ∈ c.members)
      (hmem : pdu ∈ chain.members ∨ w.smb2.waitqueue.lookup pdu.messageId = some pdu) :
      (w.transmit key chain).smb2.waitqueue.lookup pdu.messageId = some pdu :=
    lookup_smb2PduAddToWaitqueue_of_mem chain.members _
      (fun other hother hid => hinv.queued_inj hqueued hother hc hpdu hid) hmem
  intro c hc
  rw [queued_transmit] at hc
  rcases h c hc with hold | hold
  · by_cases heq : c.head.messageId = key
    · rw [heq, hchain] at hold
      cases hold
      exact Or.inr fun pdu hpdu => Or.inl (hwait hc hpdu (Or.inl hpdu))
    · refine Or.inl ?_
      rw [outqueue_transmit, OrdMap.lookup_erase, if_neg heq, hold]
  · refine Or.inr fun pdu hpdu => (hold pdu hpdu).imp (fun hw => hwait hc hpdu (Or.inr hw)) ?_
    intro hmatched
    obtain ⟨evs, htrace, -, -⟩ := trace_transmit w key chain
    rw [htrace]
    exact (hmatched.append [_]).append evs

theorem Kept.step (h : Kept w) (hinv : IdInv first w) {env : Env} (hstep : ClientStep env w w')
    (hone : OneConnection first w'.trace) : Kept w' := by
  cases hstep with
  | start => exact h.of_neutral [] rfl (by simp) rfl rfl
  | connect conn => exact h.of_neutral [_] rfl (by simp [Event.isNeutral]) rfl rfl
  | request first others hqueue => exact h.queuePdu hinv hqueue hone
  | act hact =>
      cases hact with
      | quiet hquiet => exact h.of_neutral [] hquiet.trace (by simp) hquiet.outqueue hquiet.waitqueue
      | finish => exact h.of_neutral [] rfl (by simp) rfl rfl
      | close => exact absurd (hone.notClosed .closed List.mem_cons_self) (by decide)
      | queue spec hqueue => exact h.queuePdu hinv hqueue hone
      | frame spl => exact h.of_neutral [_] rfl (by simp [Event.isNeutral]) rfl rfl
      | accept offset hwaiting => exact h.accept offset hwaiting
      | reject hnone => exact h.of_neutral [_] rfl (by simp [Event.isNeutral]) rfl rfl
      | process htrace hfinal hanswer =>
          exact h.of_neutral [_] rfl (by simp [Event.isNeutral]) rfl rfl
      | transmit hchain hcredits => exact h.transmit hinv hchain
      | requeue hchain =>
          intro c hc
          rw [hinv.lookup_requeue hchain]
          exact h c hc

/-- The invariants hold throughout every run on one connection. -/
theorem CleanStart.inv_of_steps (hstart : CleanStart w) {env : Env} (hsteps : ClientSteps env w w')
    (hone : OneConnection w.smb2.messageId.toNat w'.trace) :
    IdInv w.smb2.messageId.toNat w' ∧ Kept w' := by
  induction hsteps with
  | refl => exact ⟨hstart.idInv, hstart.kept⟩
  | tail _ hlast ih =>
      obtain ⟨evs, htrace⟩ := hlast.trace
      obtain ⟨hinv, hkept⟩ := ih (OneConnection.suffix (htrace ▸ hone))
      exact ⟨hinv.step hlast hone, hkept.step hinv hlast hone⟩

/-! ### Consecutive ids -/

/-- What the message ids and the queues of a connection that began with the id `first` look like. -/
structure IdsConsecutive (first : Nat) (w : World) : Prop where
  consecutive : NumberedFrom first (queuedPdus w.trace)
  disjoint : (queuedPdus w.trace).Pairwise fun a b => a.messageId + a.idSpan ≤ b.messageId
  outqueue : ∀ key chain, w.smb2.outqueue.lookup key = some chain → key = chain.head.messageId
  waitqueue : ∀ key pdu, w.smb2.waitqueue.lookup key = some pdu → key = pdu.messageId
  kept : Kept w

def Event.isQueued : Event → Bool
  | .queued _ => true
  | _ => false

def Event.isQueueFailed : Event → Bool
  | .queueFailed _ => true
  | _ => false

/-- No chain was queued after a call of `smb2QueuePdu` failed. -/
def NoQueueAfterFailure : List Event → Prop
  | [] => True
  | event :: older =>
      (event.isQueued = true → ∀ before ∈ older, before.isQueueFailed = false) ∧
        NoQueueAfterFailure older

instance decidableNoQueueAfterFailure : ∀ trace, Decidable (NoQueueAfterFailure trace)
  | [] => isTrue trivial
  | event :: older =>
      have := decidableNoQueueAfterFailure older
      inferInstanceAs (Decidable ((event.isQueued = true → ∀ before ∈ older,
        before.isQueueFailed = false) ∧ NoQueueAfterFailure older))

theorem numberedPdus_eq_queuedPdus {trace : List Event}
    (h : ∀ event ∈ trace, event.isQueueFailed = false) : numberedPdus trace = queuedPdus trace := by
  induction trace with
  | nil => rfl
  | cons event older ih =>
      obtain ⟨hevent, holder⟩ := List.forall_mem_cons.mp h
      have hsame : event.numbered = event.enqueued := by
        cases event with
        | queueFailed encoded => cases hevent
        | _ => rfl
      rw [numberedPdus, queuedPdus, hsame, ih holder]

/-- The requests that were queued come first among those that were numbered. -/
theorem NoQueueAfterFailure.numberedPdus_eq {trace : List Event} (h : NoQueueAfterFailure trace) :
    ∃ rest, numberedPdus trace = queuedPdus trace ++ rest := by
  induction trace with
  | nil => exact ⟨[], rfl⟩
  | cons event older ih =>
      obtain ⟨rest, hrest⟩ := ih h.2
      cases event with
      | queued chain =>
          refine ⟨[], ?_⟩
          rw [numberedPdus, queuedPdus, numberedPdus_eq_queuedPdus (h.1 rfl), List.append_nil]
          rfl
      | queueFailed encoded =>
          refine ⟨rest ++ encoded, ?_⟩
          rw [numberedPdus, queuedPdus, hrest]
          simp [Event.numbered, Event.enqueued]
      | _ =>
          refine ⟨rest, ?_⟩
          rw [numberedPdus, queuedPdus, hrest]
          simp [Event.numbered, Event.enqueued]

end

/-- In every run on one connection, from any message id, the requests queued have consecutive ids
and no entry of a queue is lost to another, as long as nothing is queued after a call that failed. -/
theorem idsConsecutive_of_run {env : Env} {ops : List ClientOp} {w w' : World}
    (hstart : CleanStart w) (hrun : ClientOp.run env ops w = some w')
    (hone : OneConnection w.smb2.messageId.toNat w'.trace) (hqueue : NoQueueAfterFailure w'.trace) :
    IdsConsecutive w.smb2.messageId.toNat w' := by
  obtain ⟨hinv, hkept⟩ := hstart.inv_of_steps (ClientOp.run_steps hrun) hone
  obtain ⟨rest, hrest⟩ := hqueue.numberedPdus_eq
  have hnumbered := hinv.numbered
  rw [hrest] at hnumbered
  have hconsecutive := (numbered_append.mp hnumbered).1
  exact ⟨hconsecutive, hconsecutive.pairwise, fun key chain h => (hinv.out key chain h).1,
    fun key pdu h => (hinv.wait key pdu h).1, hkept⟩

/-- A connected client with nothing queued, in a session that may have to be signed. -/
def idleClient (signingRequired : UInt8) : World where
  smb2 := { Smb2Context.fresh smb2Version0311 with
    sessionId := 1, sessionKeySize := 16, signingRequired, credits := 8 }
  socket := { fd := some { rx := [], writevs := [] }, bConnected := true }

/-- Two requests, one after the other. -/
def twoEchoes : List ClientOp := [.request (echoRequest 0) [], .request (echoRequest 1) []]

theorem idsConsecutive_twoEchoes :
    ∃ w, ClientOp.run plainEnv twoEchoes (idleClient 0) = some w ∧ IdsConsecutive 0 w ∧
      (queuedPdus w.trace).length = 2 := by
  obtain ⟨w, hw⟩ : ∃ w, ClientOp.run plainEnv twoEchoes (idleClient 0) = some w := ⟨_, rfl⟩
  have hall : (ClientOp.run plainEnv twoEchoes (idleClient 0)).all (fun w =>
      (∀ event ∈ w.trace, event.isClosed = false) ∧ 0 + idsTaken (numberedPdus w.trace) < 2 ^ 64 ∧
        NoQueueAfterFailure w.trace ∧ (queuedPdus w.trace).length = 2) = true := by decide +kernel
  rw [hw, Option.all_some, decide_eq_true_eq] at hall
  obtain ⟨hclosed, hids, hqueue, hlen⟩ := hall
  exact ⟨w, hw, idsConsecutive_of_run (w := idleClient 0) ⟨rfl, rfl, rfl⟩ hw ⟨hclosed, hids⟩ hqueue, hlen⟩

/-- An environment in which the buffer of the second signature cannot be allocated. -/
def signingFails : Env :=
  { plainEnv with alloc := fun site smb2 => site ≠ .signBuffer ∨ smb2.messageId ≠ 2 }

/-- Of three requests the second cannot be signed: its message id is used up, and the third request
does not get the id after that of the first. -/
theorem not_idsConsecutive_signingFails :
    ∃ w, ClientOp.run signingFails (twoEchoes ++ [.request (echoRequest 2) []]) (idleClient 1) = some w ∧
      ¬ IdsConsecutive 0 w := by
  obtain ⟨w, hw⟩ : ∃ w, ClientOp.run signingFails (twoEchoes ++ [.request (echoRequest 2) []])
    (idleClient 1) = some w := ⟨_, rfl⟩
  have hall : (ClientOp.run signingFails (twoEchoes ++ [.request (echoRequest 2) []])
      (idleClient 1)).all (fun w => ¬ NumberedFrom 0 (queuedPdus w.trace)) = true := by decide +kernel
  rw [hw, Option.all_some, decide_eq_true_eq] at hall
  exact ⟨w, hw, fun h => hall h.consecutive⟩

end CodeStudy.Samba
