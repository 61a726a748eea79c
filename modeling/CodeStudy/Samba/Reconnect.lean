import CodeStudy.Samba.Credits

/-!
# Closing and connecting again

A context can be closed and connected again, and nothing of the old connection should be left then.
`close` clears the ids and the keys but neither the credits, nor the queues, nor what was negotiated.
-/

namespace CodeStudy.Samba

/-- The state that belongs to a connection and that later requests read. -/
structure ConnectionState where
  messageId : UInt64
  sessionId : UInt64
  treeId : UInt32
  sessionKey : Option Bytes
  sessionKeySize : UInt8
  signingKey : Bytes
  credits : UInt32
  outqueue : OrdMap Nat PduChain
  waitqueue : OrdMap Nat Smb2Pdu
  signingRequired : UInt8
  supportsMultiCredit : Bool
  cipherId : UInt16
  serverSupportEncryption : UInt8

def Smb2Context.connectionState (smb2 : Smb2Context) : ConnectionState :=
  { smb2 with }

/-- Some request was queued by the events given. -/
def QueuedIn (evs : List Event) (pdu : Smb2Pdu) : Prop :=
  ∃ chain, .queued chain ∈ evs ∧ pdu ∈ chain.members

/-- What closing a context is to achieve. -/
structure StartsAfresh (env : Env) (w : World) : Prop where
  state : w.close.smb2.connectionState = (Smb2Context.fresh w.smb2.dialect).connectionState
  /-- Whatever happens next, a reply is matched only to a request queued since the context was
  closed. -/
  replies : ∀ (ops : List ClientOp) (w' : World) (evs : List Event),
    ClientOp.run env ops w.close = some w' → w'.trace = evs ++ w.close.trace →
      ∀ offset hdr credits request, .header offset hdr credits request ∈ evs → QueuedIn evs request
  /-- The credits at hand are those granted since then. -/
  credits : ∀ (ops : List ClientOp) (w' : World) (evs : List Event),
    ClientOp.run env ops w.close = some w' → w'.trace = evs ++ w.close.trace →
      w'.smb2.credits.toNat + charged evs ≡ granted evs [MOD 2 ^ 32]

/-- The state that `close` leaves alone is as in a new context. -/
structure NothingKept (smb2 : Smb2Context) : Prop where
  credits : smb2.credits = 0
  outqueue : smb2.outqueue = ∅
  waitqueue : smb2.waitqueue = ∅
  signingRequired : smb2.signingRequired = 0
  supportsMultiCredit : smb2.supportsMultiCredit = false
  cipherId : smb2.cipherId = 0
  serverSupportEncryption : smb2.serverSupportEncryption = 0

/-- The requests in the queues and those that replies were matched to were queued by the events
given. -/
structure Owned (evs : List Event) (w : World) : Prop where
  out : ∀ key chain, w.smb2.outqueue.lookup key = some chain → .queued chain ∈ evs
  wait : ∀ key pdu, w.smb2.waitqueue.lookup key = some pdu → QueuedIn evs pdu
  replied : ∀ offset hdr credits request, .header offset hdr credits request ∈ evs →
    QueuedIn evs request

section

variable {env : Env} {w w' : World} {evs : List Event}

theorem QueuedIn.append {pdu : Smb2Pdu} (h : QueuedIn evs pdu) (more : List Event) :
    QueuedIn (more ++ evs) pdu := by
  obtain ⟨chain, hchain, hpdu⟩ := h
  exact ⟨chain, List.mem_append_right _ hchain, hpdu⟩

/-- Steps that match nothing and let no other requests into the queues. -/
theorem Owned.extend (h : Owned evs w) {more : List Event}
    (hmore : ∀ event ∈ more, event.header? = none)
    (hout : ∀ key chain, w'.smb2.outqueue.lookup key = some chain →
      w.smb2.outqueue.lookup key = some chain ∨ .queued chain ∈ more ++ evs)
    (hwait : ∀ key pdu, w'.smb2.waitqueue.lookup key = some pdu →
      w.smb2.waitqueue.lookup key = some pdu ∨ QueuedIn evs pdu) : Owned (more ++ evs) w' := by
  constructor
  · intro key chain hchain
    exact (hout key chain hchain).elim (fun hold => List.mem_append_right _ (h.out key chain hold)) id
  · intro key pdu hpdu
    exact ((hwait key pdu hpdu).elim (h.wait key pdu) id).append more
  · intro offset hdr credits request hmem
    rcases List.mem_append.mp hmem with hmem | hmem
    · exact absurd (hmore _ hmem) (by simp [Event.header?])
    · exact (h.replied offset hdr credits request hmem).append more

theorem Owned.transmit (h : Owned evs w) {key : Nat} {chain : PduChain}
    (hchain : w.smb2.outqueue.lookup key = some chain) :
    ∃ more, (w.transmit key chain).trace = more ++ w.trace ∧
      Owned (more ++ evs) (w.transmit key chain) := by
  obtain ⟨sent, htrace, hsent, -⟩ := trace_transmit w key chain
  refine ⟨sent ++ [.transmitted w.smb2.dialect w.smb2.credits chain], by rw [htrace]; simp,
    h.extend (fun event hevent => ?_) (fun k c hc => Or.inl ?_) fun k pdu hpdu => ?_⟩
  · rcases List.mem_append.mp hevent with hevent | hevent
    · obtain ⟨credits, pdu, -, rfl⟩ := hsent event hevent
      rfl
    · rw [List.mem_singleton.mp hevent]
      rfl
  · rw [outqueue_transmit, OrdMap.lookup_erase] at hc
    split_ifs at hc
    exact hc
  · rcases lookup_smb2PduAddToWaitqueue _ _ hpdu with ⟨hmem, -⟩ | hold
    · exact Or.inr ⟨chain, h.out key chain hchain, hmem⟩
    · exact Or.inl hold

theorem Owned.step (h : Owned evs w) (hstep : ClientStep env w w') :
    ∃ more, w'.trace = more ++ w.trace ∧ Owned (more ++ evs) w' := by
  have hkeep {more : List Event} {w' : World} (hmore : ∀ event ∈ more, event.header? = none)
      (hout : w'.smb2.outqueue = w.smb2.outqueue) (hwait : w'.smb2.waitqueue = w.smb2.waitqueue) :
      Owned (more ++ evs) w' :=
    h.extend hmore (fun _ _ hc => Or.inl (hout ▸ hc)) fun _ _ hp => Or.inl (hwait ▸ hp)
  cases hstep.queueStep with
  | idle more htrace hmore hout hwait hcredits =>
      refine ⟨more, htrace, hkeep (fun event he => ?_) hout hwait⟩
      have hidle := hmore event he
      cases event with
      | header => cases hidle
      | _ => rfl
  | connect conn => exact ⟨[_], rfl, hkeep (by simp [Event.header?]) rfl rfl⟩
  | queue first others hqueue =>
      obtain ⟨_, _, -, ⟨-, queued, -, rfl⟩ | ⟨-, rfl⟩⟩ := smb2QueuePdu_cases hqueue
      · refine ⟨[_], rfl, h.extend (by simp [Event.header?]) (fun key chain hc => ?_) fun _ _ => Or.inl⟩
        rw [World.log, OrdMap.lookup_insert] at hc
        split_ifs at hc
        · cases hc
          exact Or.inr List.mem_cons_self
        · exact Or.inl hc
      · exact ⟨[_], rfl, hkeep (by simp [Event.header?]) rfl rfl⟩
  | @accept offset hdr request hwaiting =>
      refine ⟨[_], rfl, ?_, ?_, ?_⟩
      · exact fun key chain hc => List.mem_append_right _ (h.out key chain hc)
      · intro key pdu hp
        rw [World.accept, World.log, OrdMap.lookup_erase] at hp
        split_ifs at hp
        exact (h.wait key pdu hp).append _
      · intro offset' hdr' credits' request' hmem
        rcases List.mem_cons.mp hmem with heq | hmem
        · cases heq
          exact (h.wait _ _ hwaiting).append _
        · exact (h.replied offset' hdr' credits' request' hmem).append _
  | transmit hchain hcredits => exact h.transmit hchain
  | @requeue key chain hchain =>
      refine ⟨[], rfl, h.extend (by simp) (fun k c hc => ?_) fun _ _ => Or.inl⟩
      rw [World.requeue, OrdMap.lookup_insert, OrdMap.lookup_erase] at hc
      split_ifs at hc
      · cases hc
        exact Or.inr (h.out key chain hchain)
      · exact Or.inl hc

theorem Owned.steps (h : Owned [] w) (hsteps : ClientSteps env w w') :
    ∃ evs, w'.trace = evs ++ w.trace ∧ Owned evs w' := by
  induction hsteps with
  | refl => exact ⟨[], rfl, h⟩
  | tail _ hlast ih =>
      obtain ⟨evs, htrace, howned⟩ := ih
      obtain ⟨more, hmore, howned⟩ := howned.step hlast
      exact ⟨more ++ evs, by rw [hmore, htrace, List.append_assoc], howned⟩

end

/-- Closing a context makes it start afresh exactly when nothing was left that `close` does not
clear. -/
theorem startsAfresh_iff_nothingKept (env : Env) (w : World) :
    StartsAfresh env w ↔ NothingKept w.smb2 := by
  constructor
  · intro h
    have hstate := h.state
    simp only [Smb2Context.connectionState, ConnectionState.mk.injEq] at hstate
    obtain ⟨-, -, -, -, -, -, hcredits, hout, hwait, hsigning, hmulti, hcipher, hencrypt⟩ := hstate
    exact ⟨hcredits, hout, hwait, hsigning, hmulti, hcipher, hencrypt⟩
  · intro h
    refine ⟨?_, fun ops w' evs hrun htrace => ?_, fun ops w' evs hrun htrace => ?_⟩
    · simp only [Smb2Context.connectionState, ConnectionState.mk.injEq]
      exact ⟨rfl, rfl, rfl, rfl, rfl, rfl, h.credits, h.outqueue, h.waitqueue, h.signingRequired,
        h.supportsMultiCredit, h.cipherId, h.serverSupportEncryption⟩
    · have hempty : Owned [] w.close := by
        refine ⟨fun key chain hc => ?_, fun key pdu hp => ?_, by simp⟩
        · have hnone : w.close.smb2.outqueue.lookup key = none := by
            rw [show w.close.smb2.outqueue = ∅ from h.outqueue, OrdMap.lookup_empty]
          rw [hnone] at hc
          cases hc
        · have hnone : w.close.smb2.waitqueue.lookup key = none := by
            rw [show w.close.smb2.waitqueue = ∅ from h.waitqueue, OrdMap.lookup_empty]
          rw [hnone] at hp
          cases hp
      obtain ⟨evs', htrace', howned⟩ := hempty.steps (ClientOp.run_steps hrun)
      obtain rfl := List.append_cancel_right (htrace'.symm.trans htrace)
      exact howned.replied
    · obtain ⟨evs', htrace', hbalance⟩ := (ClientOp.run_steps hrun).balance
      obtain rfl := List.append_cancel_right (htrace'.symm.trans htrace)
      have hzero : w.close.smb2.credits.toNat = 0 := congrArg UInt32.toNat h.credits
      rw [hzero, Nat.zero_add] at hbalance
      exact hbalance

/-- A connection fails while an ECHO waits for its reply, and the request waits on. -/
theorem not_startsAfresh_echoWaiting :
    ∃ w, ClientOp.run plainEnv (connectSocket :: sendEcho) freshClient = some w ∧
      ¬ StartsAfresh plainEnv w := by
  have hany : (ClientOp.run plainEnv (connectSocket :: sendEcho) freshClient).any (fun w =>
      (w.close.smb2.waitqueue.lookup 0).isSome) = true := by decide
  obtain ⟨w, hw, hsome⟩ := (Option.any_eq_true _ _).mp hany
  refine ⟨w, hw, fun h => ?_⟩
  have hempty : w.close.smb2.waitqueue = ∅ := congrArg ConnectionState.waitqueue h.state
  rw [hempty, OrdMap.lookup_empty] at hsome
  cases hsome

end CodeStudy.Samba
