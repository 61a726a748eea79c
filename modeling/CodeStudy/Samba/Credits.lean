import Mathlib.Data.Nat.ModEq
import CodeStudy.Samba.Pending

/-!
# Credits

Replies grant credits, and sending a request costs the credits it is charged. The context keeps the
balance in a 32-bit counter. Two things can set it off: `close` leaves the credits of the old
connection for the next one, and `sendPdu` looks at the balance only for dialects above 0x0202.

Every request asks for what is missing to `maxCredits` when it is built. The counter can therefore
exceed `maxCredits` when several requests are built before the first of them is answered.
-/

namespace CodeStudy.Samba

/-- The credits a reply grants. -/
def Event.grant : Event → Nat
  | .header _ hdr _ _ => hdr.creditRequestResponse.toNat
  | _ => 0

/-- The credits it costs to send a request. -/
def Event.charge : Event → Nat
  | .sent _ pdu => pdu.creditCharge
  | _ => 0

/-- The sum of a measure over some events. -/
def total (measure : Event → Nat) (evs : List Event) : Nat := (evs.map measure).sum

abbrev granted : List Event → Nat := total Event.grant

abbrev charged : List Event → Nat := total Event.charge

/-- What some requests are charged together. -/
def chargeSum (pdus : List Smb2Pdu) : Nat := (pdus.map Smb2Pdu.creditCharge).sum

section

variable {env : Env} {w w' : World}

theorem total_append (measure : Event → Nat) (evs older : List Event) :
    total measure (evs ++ older) = total measure evs + total measure older := by
  rw [total, List.map_append, List.sum_append, total, total]

theorem total_eq_zero {measure : Event → Nat} {evs : List Event}
    (h : ∀ event ∈ evs, measure event = 0) : total measure evs = 0 := by
  induction evs with
  | nil => rfl
  | cons event evs ih =>
      obtain ⟨hevent, hevs⟩ := List.forall_mem_cons.mp h
      rw [total, List.map_cons, List.sum_cons, hevent, Nat.zero_add]
      exact ih hevs

theorem granted_append (evs older : List Event) :
    granted (evs ++ older) = granted evs + granted older := total_append _ _ _

theorem charged_append (evs older : List Event) :
    charged (evs ++ older) = charged evs + charged older := total_append _ _ _

theorem chargeSum_cons (pdu : Smb2Pdu) (pdus : List Smb2Pdu) :
    chargeSum (pdu :: pdus) = pdu.creditCharge + chargeSum pdus := List.sum_cons

/-- Events that neither grant nor cost credits, nor begin a connection. -/
def Event.isSilent : Event → Bool
  | .connected _ | .sent .. | .header .. => false
  | _ => true

theorem Event.isSilent_of_isIdle {event : Event} (h : event.isIdle) : event.isSilent := by
  cases event with
  | connected => cases h
  | sent => cases h
  | header => cases h
  | _ => rfl

theorem balance_of_silent {evs : List Event} (h : ∀ event ∈ evs, event.isSilent) :
    granted evs = 0 ∧ charged evs = 0 := by
  have hzero (event : Event) (hevent : event ∈ evs) : event.grant = 0 ∧ event.charge = 0 := by
    have hsilent := h event hevent
    cases event with
    | header => cases hsilent
    | sent => cases hsilent
    | _ => exact ⟨rfl, rfl⟩
  exact ⟨total_eq_zero fun event he => (hzero event he).1, total_eq_zero fun event he => (hzero event he).2⟩

/-! ### The balance modulo the size of the counter -/

theorem toNat_sub_charge (credits : UInt32) (charge : UInt16) :
    (credits - charge.toUInt32).toNat + charge.toNat ≡ credits.toNat [MOD 2 ^ 32] := by
  have hcharge := charge.toNat_lt
  rw [UInt32.toNat_sub, UInt16.toNat_toUInt32]
  have hcredits := credits.toNat_lt
  rw [Nat.ModEq]
  omega

theorem toNat_add_grant (credits : UInt32) (grant : UInt16) :
    (credits + grant.toUInt32).toNat ≡ credits.toNat + grant.toNat [MOD 2 ^ 32] := by
  rw [UInt32.toNat_add, UInt16.toNat_toUInt32]
  exact Nat.mod_modEq _ _

/-- Sending requests grants nothing and costs what they are charged. -/
theorem balance_smb2PduAddToWaitqueue (pdus : List Smb2Pdu) (w : World) :
    ∃ evs, (smb2PduAddToWaitqueue pdus w).trace = evs ++ w.trace ∧ granted evs = 0 ∧
      charged evs = chargeSum pdus ∧
      (smb2PduAddToWaitqueue pdus w).smb2.credits.toNat + chargeSum pdus ≡
        w.smb2.credits.toNat [MOD 2 ^ 32] := by
  induction pdus generalizing w with
  | nil => exact ⟨[], rfl, rfl, rfl, rfl⟩
  | cons pdu pdus ih =>
      obtain ⟨evs, htrace, hgranted, hcharged, hcredits⟩ := ih
        ({ w with smb2 := { w.smb2 with
          credits := w.smb2.credits - pdu.header.creditCharge.toUInt32
          waitqueue := w.smb2.waitqueue.insert pdu.messageId pdu } }.log (.sent w.smb2.credits pdu))
      refine ⟨evs ++ [.sent w.smb2.credits pdu], ?_, ?_, ?_, ?_⟩
      · rw [smb2PduAddToWaitqueue, htrace, World.log]
        simp
      · rw [granted_append, hgranted]
        rfl
      · rw [charged_append, hcharged, chargeSum_cons, Nat.add_comm]
        rfl
      · rw [smb2PduAddToWaitqueue, chargeSum_cons, Nat.add_comm pdu.creditCharge, ← Nat.add_assoc]
        exact (hcredits.add_right _).trans (toNat_sub_charge _ _)

theorem balance_transmit (w : World) (key : Nat) (chain : PduChain) :
    ∃ evs, (w.transmit key chain).trace = evs ++ w.trace ∧ granted evs = 0 ∧
      charged evs = chargeSum chain.members ∧
      (w.transmit key chain).smb2.credits.toNat + chargeSum chain.members ≡
        w.smb2.credits.toNat [MOD 2 ^ 32] := by
  obtain ⟨evs, htrace, hgranted, hcharged, hbalance⟩ := balance_smb2PduAddToWaitqueue chain.members
    ({ w with smb2 := { w.smb2 with outqueue := w.smb2.outqueue.erase key } }.log
      (.transmitted w.smb2.dialect w.smb2.credits chain))
  refine ⟨evs ++ [.transmitted w.smb2.dialect w.smb2.credits chain], ?_, ?_, ?_, hbalance⟩
  · rw [World.transmit, htrace, World.log]
    simp
  · rw [granted_append, hgranted]
    rfl
  · rw [charged_append, hcharged]
    rfl

/-- Modulo the size of the counter, the credits are what was granted less what was charged. -/
theorem ClientStep.balance (h : ClientStep env w w') :
    ∃ evs, w'.trace = evs ++ w.trace ∧
      w'.smb2.credits.toNat + charged evs ≡ w.smb2.credits.toNat + granted evs [MOD 2 ^ 32] := by
  cases h.queueStep with
  | idle evs htrace hevs hout hwait hcredits =>
      obtain ⟨hgranted, hcharged⟩ := balance_of_silent fun event he => Event.isSilent_of_isIdle (hevs event he)
      exact ⟨evs, htrace, by rw [hgranted, hcharged, hcredits]⟩
  | connect conn => exact ⟨[_], rfl, rfl⟩
  | queue first others hqueue =>
      obtain ⟨_, _, -, ⟨-, _, -, rfl⟩ | ⟨-, rfl⟩⟩ := smb2QueuePdu_cases hqueue
      · exact ⟨[_], rfl, rfl⟩
      · exact ⟨[_], rfl, rfl⟩
  | accept offset hwaiting => exact ⟨[_], rfl, toNat_add_grant _ _⟩
  | @transmit key chain hchain hcredits =>
      obtain ⟨evs, htrace, hgranted, hcharged, hbalance⟩ := balance_transmit w key chain
      exact ⟨evs, htrace, by rw [hgranted, hcharged]; exact hbalance⟩
  | requeue hchain => exact ⟨[], rfl, rfl⟩

theorem ClientSteps.balance (h : ClientSteps env w w') :
    ∃ evs, w'.trace = evs ++ w.trace ∧
      w'.smb2.credits.toNat + charged evs ≡ w.smb2.credits.toNat + granted evs [MOD 2 ^ 32] := by
  induction h with
  | refl => exact ⟨[], rfl, rfl⟩
  | @tail w₁ w₂ _ hlast ih =>
      obtain ⟨evs, htrace, hbalance⟩ := ih
      obtain ⟨more, hmore, hlater⟩ := hlast.balance
      refine ⟨more ++ evs, by rw [hmore, htrace, List.append_assoc], ?_⟩
      rw [charged_append, granted_append]
      calc w₂.smb2.credits.toNat + (charged more + charged evs)
          = w₂.smb2.credits.toNat + charged more + charged evs := (Nat.add_assoc _ _ _).symm
        _ ≡ w₁.smb2.credits.toNat + granted more + charged evs [MOD 2 ^ 32] := hlater.add_right _
        _ = w₁.smb2.credits.toNat + charged evs + granted more := Nat.add_right_comm _ _ _
        _ ≡ w.smb2.credits.toNat + granted evs + granted more [MOD 2 ^ 32] := hbalance.add_right _
        _ = w.smb2.credits.toNat + (granted more + granted evs) := by omega

end

/-! ### The balance of a connection -/

/-- A chain that is sent without a look at the balance costs no more than the credits at hand, and
the charges of a chain can be added up in 32 bits. -/
def Event.sendCovered : Event → Prop
  | .transmitted dialect credits chain =>
      (dialect ≤ smb2Version0202 → chargeSum chain.members ≤ credits.toNat) ∧
        chargeSum chain.members < 2 ^ 32
  | _ => True

/-- Besides, a connection begins without credits, and a grant does not overflow the counter. -/
def Event.creditsFit : Event → Prop
  | .connected credits => credits = 0
  | .header _ hdr credits _ => credits.toNat + hdr.creditRequestResponse.toNat < 2 ^ 32
  | event => event.sendCovered

instance : DecidablePred Event.sendCovered
  | .transmitted .. => inferInstanceAs (Decidable (_ ∧ _))
  | .connected _ | .closed | .queued _ | .queueFailed _ | .sent .. | .frame _ | .header .. |
    .rejected _ | .processed _ => isTrue trivial

instance : DecidablePred Event.creditsFit
  | .connected _ => inferInstanceAs (Decidable (_ = _))
  | .header .. => inferInstanceAs (Decidable (_ < _))
  | .transmitted .. => inferInstanceAs (Decidable (_ ∧ _))
  | .closed | .queued _ | .queueFailed _ | .sent .. | .frame _ | .rejected _ | .processed _ =>
      isTrue trivial

def Event.isConnected : Event → Bool
  | .connected _ => true
  | _ => false

/-- The events of the connection that was made last. -/
def sinceConnect : List Event → List Event
  | [] => []
  | event :: older => if event.isConnected then [] else event :: sinceConnect older

/-- What the credits of a context are to be. -/
structure CreditsBalanced (w : World) : Prop where
  /-- The subtraction of a charge never goes below zero. -/
  covered : ∀ credits pdu, .sent credits pdu ∈ w.trace → pdu.creditCharge ≤ credits.toNat
  balance : w.smb2.credits.toNat + charged (sinceConnect w.trace) = granted (sinceConnect w.trace)

section

variable {env : Env} {w w' : World}

theorem sinceConnect_append {evs older : List Event} (h : ∀ event ∈ evs, event.isConnected = false) :
    sinceConnect (evs ++ older) = evs ++ sinceConnect older := by
  induction evs with
  | nil => rfl
  | cons event evs ih =>
      obtain ⟨hevent, hevs⟩ := List.forall_mem_cons.mp h
      rw [List.cons_append, sinceConnect, hevent, ih hevs]
      rfl

theorem toNat_getReqCreditCharge {chain : PduChain} (h : chargeSum chain.members < 2 ^ 32) :
    chain.getReqCreditCharge.toNat = chargeSum chain.members := by
  have hfold : ∀ (pdus : List Smb2Pdu) (charge : UInt32), charge.toNat + chargeSum pdus < 2 ^ 32 →
      (pdus.foldl (fun charge p => charge + p.header.creditCharge.toUInt32) charge).toNat =
        charge.toNat + chargeSum pdus := by
    intro pdus
    induction pdus with
    | nil => exact fun _ _ => rfl
    | cons pdu pdus ih =>
        intro charge hlt
        rw [chargeSum_cons, Smb2Pdu.creditCharge] at hlt
        have hnext : (charge + pdu.header.creditCharge.toUInt32).toNat =
            charge.toNat + pdu.header.creditCharge.toNat := by
          rw [UInt32.toNat_add, UInt16.toNat_toUInt32, Nat.mod_eq_of_lt (by omega)]
        rw [List.foldl_cons, ih _ (by omega), hnext, chargeSum_cons, Smb2Pdu.creditCharge, Nat.add_assoc]
  have hhead : chain.head.header.creditCharge.toUInt32.toNat = chain.head.creditCharge :=
    UInt16.toNat_toUInt32 _
  rw [PduChain.members, chargeSum_cons] at h ⊢
  rw [PduChain.getReqCreditCharge, hfold _ _ (by omega), hhead]

/-- A chain that is sent costs no more than the credits at hand. -/
theorem chargeSum_le_credits {chain : PduChain}
    (h : (Event.transmitted w.smb2.dialect w.smb2.credits chain).sendCovered)
    (hcredits : ¬ insufficientCredits w.smb2 chain) :
    chargeSum chain.members ≤ w.smb2.credits.toNat := by
  by_cases hdialect : w.smb2.dialect ≤ smb2Version0202
  · exact h.1 hdialect
  · rw [← toNat_getReqCreditCharge h.2, ← UInt32.le_iff_toNat_le]
    by_contra hlt
    exact hcredits ⟨UInt16.not_le.mp hdialect, UInt32.not_le.mp hlt⟩

theorem transmitted_mem_transmit (w : World) (key : Nat) (chain : PduChain) :
    .transmitted w.smb2.dialect w.smb2.credits chain ∈ (w.transmit key chain).trace := by
  obtain ⟨evs, htrace, -, -⟩ := trace_transmit w key chain
  rw [htrace]
  exact List.mem_append_right _ List.mem_cons_self

/-- Sending requests that the credits cover: no subtraction goes below zero. -/
theorem credits_smb2PduAddToWaitqueue {pdus : List Smb2Pdu} {w : World}
    (h : chargeSum pdus ≤ w.smb2.credits.toNat) :
    (smb2PduAddToWaitqueue pdus w).smb2.credits.toNat + chargeSum pdus = w.smb2.credits.toNat ∧
      ∀ credits pdu, .sent credits pdu ∈ (smb2PduAddToWaitqueue pdus w).trace →
        .sent credits pdu ∈ w.trace ∨ pdu.creditCharge ≤ credits.toNat := by
  induction pdus generalizing w with
  | nil => exact ⟨rfl, fun _ _ hmem => Or.inl hmem⟩
  | cons pdu pdus ih =>
      rw [chargeSum_cons] at h ⊢
      have hcharge : pdu.header.creditCharge.toUInt32.toNat = pdu.creditCharge := UInt16.toNat_toUInt32 _
      have hnext : (w.smb2.credits - pdu.header.creditCharge.toUInt32).toNat =
          w.smb2.credits.toNat - pdu.creditCharge := by
        rw [UInt32.toNat_sub_of_le _ _ (UInt32.le_iff_toNat_le.mpr (by omega)), hcharge]
      obtain ⟨hcredits, hsent⟩ := ih (w := { w with smb2 := { w.smb2 with
          credits := w.smb2.credits - pdu.header.creditCharge.toUInt32
          waitqueue := w.smb2.waitqueue.insert pdu.messageId pdu } }.log (.sent w.smb2.credits pdu))
        (by rw [World.log, hnext]; omega)
      rw [World.log, hnext] at hcredits
      refine ⟨by rw [smb2PduAddToWaitqueue, World.log]; omega, fun credits other hmem => ?_⟩
      rcases hsent credits other hmem with hold | hle
      · rcases List.mem_cons.mp hold with heq | hold
        · cases heq
          exact Or.inr (by omega)
        · exact Or.inl hold
      · exact Or.inr hle

theorem credits_transmit (key : Nat) {chain : PduChain}
    (h : chargeSum chain.members ≤ w.smb2.credits.toNat) :
    (w.transmit key chain).smb2.credits.toNat + chargeSum chain.members = w.smb2.credits.toNat ∧
      ∀ credits pdu, .sent credits pdu ∈ (w.transmit key chain).trace →
        .sent credits pdu ∈ w.trace ∨ pdu.creditCharge ≤ credits.toNat := by
  obtain ⟨hcredits, hsent⟩ := credits_smb2PduAddToWaitqueue
    (w := { w with smb2 := { w.smb2 with outqueue := w.smb2.outqueue.erase key } }.log
      (.transmitted w.smb2.dialect w.smb2.credits chain)) h
  refine ⟨hcredits, fun credits pdu hmem => (hsent credits pdu hmem).imp_left fun hold => ?_⟩
  exact (List.mem_cons.mp hold).resolve_left Event.noConfusion

theorem toNat_accept {offset : Nat} {hdr : Smb2Header} {request : Smb2Pdu}
    (h : w.smb2.credits.toNat + hdr.creditRequestResponse.toNat < 2 ^ 32) :
    (w.accept offset hdr request).smb2.credits.toNat =
      w.smb2.credits.toNat + hdr.creditRequestResponse.toNat := by
  rw [World.accept, World.log, UInt32.toNat_add, UInt16.toNat_toUInt32, Nat.mod_eq_of_lt h]

theorem Event.isConnected_of_isSilent {event : Event} (h : event.isSilent) :
    event.isConnected = false := by
  cases event with
  | connected => cases h
  | _ => rfl

theorem CreditsBalanced.of_silent (h : CreditsBalanced w) (evs : List Event)
    (htrace : w'.trace = evs ++ w.trace) (hevs : ∀ event ∈ evs, event.isSilent)
    (hcredits : w'.smb2.credits = w.smb2.credits) : CreditsBalanced w' := by
  obtain ⟨hgranted, hcharged⟩ := balance_of_silent hevs
  constructor
  · intro credits pdu hmem
    rw [htrace] at hmem
    refine h.covered credits pdu ((List.mem_append.mp hmem).resolve_left fun hmem => ?_)
    exact absurd (hevs _ hmem) (by simp [Event.isSilent])
  · rw [htrace, sinceConnect_append fun event he => Event.isConnected_of_isSilent (hevs event he),
      charged_append, granted_append, hgranted, hcharged, hcredits, Nat.zero_add, Nat.zero_add]
    exact h.balance

theorem isConnected_transmit {evs : List Event} {key : Nat} {chain : PduChain}
    (h : (w.transmit key chain).trace = evs ++ w.trace) : ∀ event ∈ evs, event.isConnected = false := by
  obtain ⟨sent, htrace, hsent, -⟩ := trace_transmit w key chain
  have hevs : evs = sent ++ [.transmitted w.smb2.dialect w.smb2.credits chain] := by
    refine List.append_cancel_right (h.symm.trans ?_)
    rw [htrace, List.append_assoc, List.singleton_append]
  intro event hevent
  rw [hevs, List.mem_append, List.mem_singleton] at hevent
  rcases hevent with hevent | rfl
  · obtain ⟨credits, pdu, -, rfl⟩ := hsent event hevent
    rfl
  · rfl

theorem CreditsBalanced.transmit (h : CreditsBalanced w) {key : Nat} {chain : PduChain}
    (hle : chargeSum chain.members ≤ w.smb2.credits.toNat) : CreditsBalanced (w.transmit key chain) := by
  obtain ⟨hcredits, hcovered⟩ := credits_transmit key hle
  obtain ⟨evs, htrace, hgranted, hcharged, -⟩ := balance_transmit w key chain
  refine ⟨fun credits pdu hmem => ?_, ?_⟩
  · exact (hcovered credits pdu hmem).elim (h.covered credits pdu) id
  · have hbalance := h.balance
    rw [htrace, sinceConnect_append (isConnected_transmit htrace), charged_append, granted_append,
      hgranted, hcharged]
    omega

theorem CreditsBalanced.step (h : CreditsBalanced w) (hstep : ClientStep env w w')
    (hfit : ∀ event ∈ w'.trace, event.creditsFit) : CreditsBalanced w' := by
  cases hstep.queueStep with
  | idle evs htrace hevs hout hwait hcredits =>
      exact h.of_silent evs htrace (fun event he => Event.isSilent_of_isIdle (hevs event he)) hcredits
  | connect conn =>
      have hzero : w.smb2.credits = 0 := hfit (.connected _) List.mem_cons_self
      refine ⟨fun credits pdu hmem => h.covered credits pdu ?_, ?_⟩
      · exact (List.mem_cons.mp hmem).resolve_left Event.noConfusion
      · rw [World.connect, World.log, hzero]
        rfl
  | queue first others hqueue =>
      obtain ⟨_, _, -, ⟨-, _, -, rfl⟩ | ⟨-, rfl⟩⟩ := smb2QueuePdu_cases hqueue
      · exact h.of_silent [_] rfl (by simp [Event.isSilent]) rfl
      · exact h.of_silent [_] rfl (by simp [Event.isSilent]) rfl
  | @accept offset hdr request hwaiting =>
      have hlt : w.smb2.credits.toNat + hdr.creditRequestResponse.toNat < 2 ^ 32 :=
        hfit (.header ..) List.mem_cons_self
      refine ⟨fun credits pdu hmem => h.covered credits pdu ?_, ?_⟩
      · exact (List.mem_cons.mp hmem).resolve_left Event.noConfusion
      · have hbalance := h.balance
        have hsince : sinceConnect (w.accept offset hdr request).trace =
            [.header offset hdr w.smb2.credits request] ++ sinceConnect w.trace := rfl
        have hgrant : granted [.header offset hdr w.smb2.credits request] =
          hdr.creditRequestResponse.toNat := rfl
        have hcharge : charged [.header offset hdr w.smb2.credits request] = 0 := rfl
        rw [hsince, charged_append, granted_append, toNat_accept hlt, hgrant, hcharge]
        omega
  | @transmit key chain hchain hcredits =>
      have hcovered : (Event.transmitted w.smb2.dialect w.smb2.credits chain).sendCovered :=
        hfit (.transmitted ..) (transmitted_mem_transmit w key chain)
      exact h.transmit (chargeSum_le_credits hcovered hcredits)
  | requeue hchain => exact h.of_silent [] rfl (by simp) rfl

theorem creditsBalanced_of_steps (hcredits : w.smb2.credits = 0) (htrace : w.trace = [])
    (hsteps : ClientSteps env w w') (hfit : ∀ event ∈ w'.trace, event.creditsFit) : CreditsBalanced w' := by
  induction hsteps with
  | refl =>
      refine ⟨by simp [htrace], ?_⟩
      rw [htrace, hcredits]
      rfl
  | tail _ hlast ih =>
      obtain ⟨evs, htrace⟩ := hlast.trace
      refine (ih fun event hevent => hfit event ?_).step hlast hfit
      rw [htrace]
      exact List.mem_append_right _ hevent

end

/-- In every run of a context that was constructed without credits, over any number of connections,
the credits are what the connection's replies granted less what its requests were charged, as long as
every connection begins without credits, the charges are covered where they are not checked and the
counter does not overflow. -/
theorem creditsBalanced_of_run {env : Env} {ops : List ClientOp} {w w' : World}
    (hcredits : w.smb2.credits = 0) (htrace : w.trace = []) (hrun : ClientOp.run env ops w = some w')
    (hfit : ∀ event ∈ w'.trace, event.creditsFit) : CreditsBalanced w' :=
  creditsBalanced_of_steps hcredits htrace (ClientOp.run_steps hrun) hfit

/-- A client as constructed, that found the dialect 0x0202 in memory. -/
def freshClient : World where
  smb2 := Smb2Context.fresh smb2Version0202

def connectSocket : ClientOp := .connect { rx := [], writevs := [] }

/-- Enough writes for a frame. -/
def wholeWrites : List WritevOutcome := List.replicate 12 (.wrote 128)

/-- The server answers a NEGOTIATE with an error, and grants a credit. -/
def negotiateFails : List ClientOp :=
  [connectSocket,
   .request { command := .negotiate, appData := 0, body := [List.replicate 36 0, [0x02, 0x02]] } [],
   .start, .send wholeWrites, .receive (frameOf (errorReply .negotiate 1 0 0))]

/-- The server grants credits with its answers to NEGOTIATE and SESSION_SETUP, and refuses the share. -/
def shareRefused : List ClientOp :=
  [connectSocket,
   .request { command := .negotiate, appData := 0, body := [List.replicate 36 0, [0x02, 0x02]] } [],
   .start, .send wholeWrites,
   .receive (frameOf (replyHeader .negotiate NtStatus.success 3 0 0 ++ leBytes 4 65 ++ leBytes 60 0x0210)),
   .send wholeWrites, .receive (frameOf (replyHeader .sessionSetup NtStatus.success 2 1 0 ++ leBytes 8 9)),
   .send wholeWrites, .receive (frameOf (errorReply .treeConnect 5 2 0))]

/-- A client as constructed, that found the dialect 0x0210 in memory. -/
def chargedClient : World where
  smb2 := Smb2Context.fresh smb2Version0210

theorem creditsBalanced_shareRefused :
    ∃ w, ClientOp.run plainEnv shareRefused chargedClient = some w ∧ w.smb2.credits = 8 ∧ charged w.trace = 2 ∧
      CreditsBalanced w := by
  have hany : (ClientOp.run plainEnv shareRefused chargedClient).any (fun w =>
      w.smb2.credits = 8 ∧ charged w.trace = 2 ∧ ∀ event ∈ w.trace, event.creditsFit) = true := by decide +kernel
  obtain ⟨w, hw, hall⟩ := (Option.any_eq_true _ _).mp hany
  rw [decide_eq_true_eq] at hall
  exact ⟨w, hw, hall.1, hall.2.1, creditsBalanced_of_run (w := chargedClient) rfl rfl hw hall.2.2⟩

/-- The handler of the error closes the connection. On the next one the credit is still there. -/
theorem not_creditsBalanced_reconnect :
    ∃ w, ClientOp.run plainEnv (negotiateFails ++ [connectSocket]) freshClient = some w ∧
      ¬ CreditsBalanced w := by
  have hany : (ClientOp.run plainEnv (negotiateFails ++ [connectSocket]) freshClient).any (fun w =>
      w.smb2.credits.toNat + charged (sinceConnect w.trace) ≠ granted (sinceConnect w.trace)) = true := by
    decide
  obtain ⟨w, hw, hne⟩ := (Option.any_eq_true _ _).mp hany
  rw [decide_eq_true_eq] at hne
  exact ⟨w, hw, fun h => hne h.balance⟩

/-! ### The bound of the credits -/

/-- The credits a request asks for. -/
def Smb2Pdu.ask (pdu : Smb2Pdu) : Nat := pdu.header.creditRequestResponse.toNat

/-- The credits that the requests of a chain ask for together. -/
def PduChain.ask (chain : PduChain) : Nat := (chain.members.map Smb2Pdu.ask).sum

/-- The credits that the requests an event queues ask for. -/
def Event.asks : Event → Nat
  | .queued chain => chain.ask
  | _ => 0

/-- The credits that the request an event answers had asked for. -/
def Event.answers : Event → Nat
  | .header _ _ _ request => request.ask
  | _ => 0

abbrev asked : List Event → Nat := total Event.asks

abbrev answered : List Event → Nat := total Event.answers

/-- Every chain that asks for credits is a single request, built when all that was asked for before
has been answered. -/
def AsksAlone : List Event → Prop
  | [] => True
  | .queued chain :: older =>
      (chain.ask = 0 ∨ (chain.rest = [] ∧ asked older ≤ answered older)) ∧ AsksAlone older
  | _ :: older => AsksAlone older

/-- A reply grants at most the credits its request asked for. -/
def Event.grantsAsked : Event → Prop
  | .header _ hdr _ request => hdr.creditRequestResponse.toNat ≤ request.ask
  | _ => True

/-- The credits stay within `maxCredits`, and every request built next asks for the difference. -/
structure WithinMaxCredits (smb2 : Smb2Context) : Prop where
  le : smb2.credits.toNat ≤ maxCredits.toNat
  ask : ∀ (first : RequestSpec) (others : List RequestSpec), ∀ pdu ∈ (createChain smb2 first others).members,
    (pdu.ask : Int) = maxCredits.toNat - smb2.credits.toNat

/-- What is at hand and what is still to be granted stays within `maxCredits`. -/
structure AskInv (w : World) : Prop where
  waiting : w.smb2.outqueue.weight PduChain.ask + w.smb2.waitqueue.weight Smb2Pdu.ask +
    answered w.trace ≤ asked w.trace
  bound : w.smb2.credits.toNat + w.smb2.outqueue.weight PduChain.ask +
    w.smb2.waitqueue.weight Smb2Pdu.ask ≤ maxCredits.toNat

section

variable {env : Env} {w w' : World}

/-! #### What a request asks for -/

theorem creditRequest_createPdu (smb2 : Smb2Context) (spec : RequestSpec) :
    (createPdu smb2 spec).header.creditRequestResponse = (maxCredits - smb2.credits).toUInt16 := by
  simp only [createPdu, Smb2Pdu.new]
  split_ifs <;> rfl

theorem ask_createChain {smb2 : Smb2Context} (h : smb2.credits.toNat ≤ maxCredits.toNat)
    (first : RequestSpec) (others : List RequestSpec) :
    ∀ pdu ∈ (createChain smb2 first others).members, pdu.ask = maxCredits.toNat - smb2.credits.toNat := by
  have hmax : maxCredits.toNat = 1024 := rfl
  have hask : (maxCredits - smb2.credits).toUInt16.toNat = maxCredits.toNat - smb2.credits.toNat := by
    rw [UInt32.toNat_toUInt16, UInt32.toNat_sub_of_le _ _ (UInt32.le_iff_toNat_le.mpr h)]
    exact Nat.mod_eq_of_lt (by omega)
  refine forall_mem_createChain (P := fun pdu => pdu.ask = _) (fun _ _ _ h => h) first fun spec _ => ?_
  rw [Smb2Pdu.ask, creditRequest_createPdu, hask]

theorem AskInv.within (h : AskInv w) : WithinMaxCredits w.smb2 := by
  have hbound := h.bound
  have hle : w.smb2.credits.toNat ≤ maxCredits.toNat := by omega
  refine ⟨hle, fun first others pdu hpdu => ?_⟩
  rw [ask_createChain hle first others pdu hpdu]
  omega

/-- A single request that was queued asks for what was missing to `maxCredits`. -/
theorem ask_of_single {smb2 smb2' : Smb2Context} (h : smb2.credits.toNat ≤ maxCredits.toNat)
    {first : RequestSpec} {others : List RequestSpec} {queued : PduChain}
    (hspec : EncodedMembers smb2 (createChain smb2 first others).members none smb2' queued.members)
    (hsingle : queued.rest = []) : queued.ask = maxCredits.toNat - smb2.credits.toNat := by
  have hmembers : queued.members = [queued.head] := by rw [PduChain.members, hsingle]
  obtain ⟨pdu, hmem, hencodes⟩ := hspec.exists_member queued.head queued.head_mem_members
  rw [PduChain.ask, hmembers, List.map_singleton, List.sum_singleton,
    ← ask_createChain h first others pdu hmem, Smb2Pdu.ask, hencodes.creditRequest, Smb2Pdu.ask]

/-! #### Steps -/

theorem AskInv.of_silent (h : AskInv w) (evs : List Event) (htrace : w'.trace = evs ++ w.trace)
    (hevs : ∀ event ∈ evs, event.asks = 0 ∧ event.answers = 0)
    (hcredits : w'.smb2.credits = w.smb2.credits)
    (hout : w'.smb2.outqueue.weight PduChain.ask ≤ w.smb2.outqueue.weight PduChain.ask)
    (hwait : w'.smb2.waitqueue = w.smb2.waitqueue) : AskInv w' := by
  have hwaiting := h.waiting
  have hbound := h.bound
  have hasked : asked w'.trace = asked w.trace := by
    rw [htrace, asked, total_append, total_eq_zero fun event he => (hevs event he).1, Nat.zero_add]
  have hanswered : answered w'.trace = answered w.trace := by
    rw [htrace, answered, total_append, total_eq_zero fun event he => (hevs event he).2, Nat.zero_add]
  constructor
  · rw [hasked, hanswered, hwait]
    omega
  · rw [hcredits, hwait]
    omega

theorem AskInv.queue (h : AskInv w) {first : RequestSpec} {others : List RequestSpec}
    {err : Option String} (hqueue : smb2QueuePdu env w (createChain w.smb2 first others) = (err, w'))
    (halone : AsksAlone w'.trace) : AskInv w' := by
  obtain ⟨smb2, encoded, hspec, ⟨rfl, queued, rfl, rfl⟩ | ⟨-, rfl⟩⟩ := smb2QueuePdu_cases hqueue
  · have hwaiting := h.waiting
    have hbound := h.bound
    have hinsert := w.smb2.outqueue.weight_insert_le queued.head.messageId queued PduChain.ask
    have hroom : queued.ask = 0 ∨ (queued.ask = maxCredits.toNat - w.smb2.credits.toNat ∧
        asked w.trace ≤ answered w.trace) :=
      halone.1.imp_right fun ⟨hsingle, hanswered⟩ => ⟨ask_of_single (by omega) hspec hsingle, hanswered⟩
    constructor
    · show (w.smb2.outqueue.insert queued.head.messageId queued).weight PduChain.ask +
        w.smb2.waitqueue.weight Smb2Pdu.ask + (0 + answered w.trace) ≤ queued.ask + asked w.trace
      omega
    · show w.smb2.credits.toNat + (w.smb2.outqueue.insert queued.head.messageId queued).weight
        PduChain.ask + w.smb2.waitqueue.weight Smb2Pdu.ask ≤ maxCredits.toNat
      omega
  · exact h.of_silent [_] rfl (by simp [Event.asks, Event.answers]) rfl (Nat.le_refl _) rfl

theorem AskInv.accept (h : AskInv w) {offset : Nat} {hdr : Smb2Header} {request : Smb2Pdu}
    (hwaiting : w.smb2.waitqueue.lookup hdr.messageId.toNat = some request)
    (hgrant : hdr.creditRequestResponse.toNat ≤ request.ask) : AskInv (w.accept offset hdr request) := by
  have hopen := h.waiting
  have hbound := h.bound
  have herase := w.smb2.waitqueue.weight_erase Smb2Pdu.ask hwaiting
  have hmax : maxCredits.toNat = 1024 := rfl
  constructor
  · show w.smb2.outqueue.weight PduChain.ask +
      (w.smb2.waitqueue.erase hdr.messageId.toNat).weight Smb2Pdu.ask +
        (request.ask + answered w.trace) ≤ 0 + asked w.trace
    omega
  · rw [toNat_accept (by omega)]
    show w.smb2.credits.toNat + hdr.creditRequestResponse.toNat + w.smb2.outqueue.weight PduChain.ask +
      (w.smb2.waitqueue.erase hdr.messageId.toNat).weight Smb2Pdu.ask ≤ maxCredits.toNat
    omega

theorem weight_smb2PduAddToWaitqueue (pdus : List Smb2Pdu) (w : World) :
    (smb2PduAddToWaitqueue pdus w).smb2.waitqueue.weight Smb2Pdu.ask ≤
      w.smb2.waitqueue.weight Smb2Pdu.ask + (pdus.map Smb2Pdu.ask).sum := by
  induction pdus generalizing w with
  | nil => exact Nat.le_refl _
  | cons pdu pdus ih =>
      have hinsert := w.smb2.waitqueue.weight_insert_le pdu.messageId pdu Smb2Pdu.ask
      rw [smb2PduAddToWaitqueue, List.map_cons, List.sum_cons]
      refine (ih _).trans ?_
      show (w.smb2.waitqueue.insert pdu.messageId pdu).weight Smb2Pdu.ask + _ ≤ _
      omega

theorem AskInv.transmit (h : AskInv w) {key : Nat} {chain : PduChain}
    (hchain : w.smb2.outqueue.lookup key = some chain)
    (hle : chargeSum chain.members ≤ w.smb2.credits.toNat) : AskInv (w.transmit key chain) := by
  have hopen := h.waiting
  have hbound := h.bound
  have herase := w.smb2.outqueue.weight_erase PduChain.ask hchain
  have hwait : (w.transmit key chain).smb2.waitqueue.weight Smb2Pdu.ask ≤
      w.smb2.waitqueue.weight Smb2Pdu.ask + chain.ask := weight_smb2PduAddToWaitqueue chain.members _
  have hcredits := (credits_transmit key hle).1
  obtain ⟨evs, htrace, hsent, -⟩ := trace_transmit w key chain
  have hzero (event : Event) (hevent : event ∈ evs) : event.asks = 0 ∧ event.answers = 0 := by
    obtain ⟨credits, pdu, -, rfl⟩ := hsent event hevent
    exact ⟨rfl, rfl⟩
  have hasked : asked (w.transmit key chain).trace = asked w.trace := by
    rw [htrace, asked, total_append, total_eq_zero fun event he => (hzero event he).1, Nat.zero_add]
    exact Nat.zero_add _
  have hanswered : answered (w.transmit key chain).trace = answered w.trace := by
    rw [htrace, answered, total_append, total_eq_zero fun event he => (hzero event he).2, Nat.zero_add]
    exact Nat.zero_add _
  constructor
  · rw [hasked, hanswered, outqueue_transmit]
    omega
  · rw [outqueue_transmit]
    omega

theorem AskInv.step (h : AskInv w) (hstep : ClientStep env w w') (halone : AsksAlone w'.trace)
    (hcovered : ∀ event ∈ w'.trace, event.sendCovered)
    (hgrants : ∀ event ∈ w'.trace, event.grantsAsked) : AskInv w' := by
  cases hstep.queueStep with
  | idle evs htrace hevs hout hwait hcredits =>
      refine h.of_silent evs htrace (fun event he => ?_) hcredits (by rw [hout]) hwait
      have hidle := hevs event he
      cases event with
      | queued => cases hidle
      | header => cases hidle
      | _ => exact ⟨rfl, rfl⟩
  | connect conn =>
      exact h.of_silent [_] rfl (by simp [Event.asks, Event.answers]) rfl (Nat.le_refl _) rfl
  | queue first others hqueue => exact h.queue hqueue halone
  | accept offset hwaiting => exact h.accept hwaiting (hgrants (.header ..) List.mem_cons_self)
  | @transmit key chain hchain hcredits =>
      have hcharge : (Event.transmitted w.smb2.dialect w.smb2.credits chain).sendCovered :=
        hcovered _ (transmitted_mem_transmit w key chain)
      exact h.transmit hchain (chargeSum_le_credits hcharge hcredits)
  | @requeue key chain hchain =>
      refine h.of_silent [] rfl (by simp) rfl ?_ rfl
      have herase := w.smb2.outqueue.weight_erase PduChain.ask hchain
      have hinsert := (w.smb2.outqueue.erase key).weight_insert_le chain.head.messageId chain PduChain.ask
      exact hinsert.trans herase.le

theorem AsksAlone.suffix {evs older : List Event} (h : AsksAlone (evs ++ older)) : AsksAlone older := by
  induction evs with
  | nil => exact h
  | cons event evs ih =>
      refine ih ?_
      cases event with
      | queued chain => exact h.2
      | _ => exact h

theorem CleanStart.askInv_of_steps (hstart : CleanStart w) (hcredits : w.smb2.credits ≤ maxCredits)
    (hsteps : ClientSteps env w w') (halone : AsksAlone w'.trace)
    (hcovered : ∀ event ∈ w'.trace, event.sendCovered)
    (hgrants : ∀ event ∈ w'.trace, event.grantsAsked) : AskInv w' := by
  induction hsteps with
  | refl =>
      refine ⟨?_, ?_⟩
      · rw [hstart.outqueue, hstart.waitqueue, hstart.trace]
        exact Nat.le_refl 0
      · rw [hstart.outqueue, hstart.waitqueue]
        exact UInt32.le_iff_toNat_le.mp hcredits
  | tail _ hlast ih =>
      obtain ⟨evs, htrace⟩ := hlast.trace
      refine (ih (htrace ▸ halone).suffix (fun event he => hcovered event ?_) fun event he =>
        hgrants event ?_).step hlast halone hcovered hgrants
      · exact htrace ▸ List.mem_append_right _ he
      · exact htrace ▸ List.mem_append_right _ he

end

/-- In every run in which each reply grants at most what its request asked for, the credits stay
within `maxCredits`, as long as no request asks for credits while others that asked for some are
unanswered and no chain that is sent costs more than the credits at hand. -/
theorem withinMaxCredits_of_run {env : Env} {ops : List ClientOp} {w w' : World}
    (hstart : CleanStart w) (hcredits : w.smb2.credits ≤ maxCredits)
    (hrun : ClientOp.run env ops w = some w') (hgrants : ∀ event ∈ w'.trace, event.grantsAsked)
    (halone : AsksAlone w'.trace) (hcovered : ∀ event ∈ w'.trace, event.sendCovered) :
    WithinMaxCredits w'.smb2 :=
  (hstart.askInv_of_steps hcredits (ClientOp.run_steps hrun) halone hcovered hgrants).within

instance decidableAsksAlone : DecidablePred AsksAlone
  | [] => isTrue trivial
  | event :: older =>
      have := decidableAsksAlone older
      match event with
      | .queued _ => inferInstanceAs (Decidable (_ ∧ _))
      | .connected _ | .closed | .queueFailed _ | .transmitted .. | .sent .. | .frame _ | .header .. |
        .rejected _ | .processed _ => this

instance : DecidablePred Event.grantsAsked
  | .header .. => inferInstanceAs (Decidable (_ ≤ _))
  | .connected _ | .closed | .queued _ | .queueFailed _ | .transmitted .. | .sent .. | .frame _ |
    .rejected _ | .processed _ => isTrue trivial

def createByName : RequestSpec :=
  { command := .create, appData := 1, body := [List.replicate 56 0, [0x66, 0]] }

def queryInfoRequest : RequestSpec :=
  { command := .queryInfo, appData := 0, body := [List.replicate 40 0] }

def closeRequest : RequestSpec := { command := .close, appData := 2, body := [List.replicate 24 0] }

/-- The compound with which the information about a file is queried by its name. -/
def queryByName : ClientOp := .request createByName [queryInfoRequest, closeRequest]

theorem withinMaxCredits_shareRefused :
    ∃ w, ClientOp.run plainEnv shareRefused chargedClient = some w ∧ w.smb2.credits = 8 ∧
      WithinMaxCredits w.smb2 := by
  have hany : (ClientOp.run plainEnv shareRefused chargedClient).any (fun w =>
      w.smb2.credits = 8 ∧ (∀ event ∈ w.trace, event.grantsAsked) ∧ AsksAlone w.trace ∧
        ∀ event ∈ w.trace, event.sendCovered) = true := by decide +kernel
  obtain ⟨w, hw, hall⟩ := (Option.any_eq_true _ _).mp hany
  rw [decide_eq_true_eq] at hall
  obtain ⟨hcredits, hgrants, halone, hcovered⟩ := hall
  exact ⟨w, hw, hcredits, withinMaxCredits_of_run (w := chargedClient) ⟨rfl, rfl, rfl⟩ (by decide) hw hgrants
    halone hcovered⟩

/-- Each request of a compound is granted the 1024 credits it asked for. -/
theorem not_withinMaxCredits_compound :
    ∃ w, ClientOp.run plainEnv [connectSocket, queryByName, .start, .send wholeWrites,
        .receive (frameOf (errorReply .create 1024 0 72 ++ errorReply .queryInfo 1024 1 72 ++
          errorReply .close 1024 2 0))] freshClient = some w ∧
      (∀ event ∈ w.trace, event.grantsAsked) ∧ ¬ WithinMaxCredits w.smb2 := by
  have hany : (ClientOp.run plainEnv [connectSocket, queryByName, .start, .send wholeWrites,
      .receive (frameOf (errorReply .create 1024 0 72 ++ errorReply .queryInfo 1024 1 72 ++
        errorReply .close 1024 2 0))] freshClient).any (fun w =>
      (∀ event ∈ w.trace, event.grantsAsked) ∧ ¬ w.smb2.credits.toNat ≤ maxCredits.toNat) = true := by
    decide +kernel
  obtain ⟨w, hw, hall⟩ := (Option.any_eq_true _ _).mp hany
  rw [decide_eq_true_eq] at hall
  exact ⟨w, hw, hall.1, fun h => hall.2 h.le⟩

end CodeStudy.Samba
