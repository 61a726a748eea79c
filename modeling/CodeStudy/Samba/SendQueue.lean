import Mathlib.Data.List.Nodup
import CodeStudy.Samba.Credits

/-!
# Emptying the queue of requests

`sendPdus` takes one chain after the other out of `outqueue`. A chain that was sent is taken apart
and its members wait for their replies; a chain that could not be sent goes back, and the call ends.
Nothing is lost and nothing is kept twice, wherever the call stops: the chains sent are the first
ones of the queue, and the others stay as they were.
-/

namespace CodeStudy.Samba

/-- The requests of some chains, first to last. -/
def chainMembers (entries : List (Nat × PduChain)) : List Smb2Pdu :=
  entries.flatMap fun entry => entry.2.members

/-- The chains of `outqueue` are stored under the ids of their heads, and no two requests in it have
the same id. -/
structure QueuedApart (smb2 : Smb2Context) : Prop where
  keys : ∀ entry ∈ smb2.outqueue.entries, entry.1 = entry.2.head.messageId
  ids : ((chainMembers smb2.outqueue.entries).map Smb2Pdu.messageId).Nodup

/-- A request waits to be sent, as the head of a chain or behind it. -/
def World.InOutqueue (w : World) (pdu : Smb2Pdu) : Prop :=
  ∃ entry ∈ w.smb2.outqueue.entries, pdu ∈ entry.2.members

/-- A request waits for its reply, under whatever key. -/
def World.InWaitqueue (w : World) (pdu : Smb2Pdu) : Prop :=
  ∃ key, w.smb2.waitqueue.lookup key = some pdu

/-- Some chains were sent one after the other, each with success. -/
inductive SendsChains : World → List (Nat × PduChain) → World → Prop where
  | nil (w : World) : SendsChains w [] w
  | cons {w w' : World} {key : Nat} {chain : PduChain} {ret : Int} {fd : Option Connection}
      {sent : List (Nat × PduChain)}
      (hsend : sendPdu { w.smb2 with outqueue := w.smb2.outqueue.erase key } w.socket.fd chain =
        some (ret, fd))
      (hret : 0 ≤ ret)
      (hrest : SendsChains (World.transmit { w with socket := { w.socket with fd } } key chain) sent w') :
      SendsChains w ((key, chain) :: sent) w'

/-- A call ended at the chains that are left: there are none, or the first of them failed and went
back into the queue. -/
inductive SendsStop : World → List (Nat × PduChain) → Int → World → Prop where
  | emptied (w : World) : SendsStop w [] 0 w
  | failed {w : World} {key : Nat} {chain : PduChain} {ret : Int} {fd : Option Connection}
      (hsend : sendPdu { w.smb2 with outqueue := w.smb2.outqueue.erase key } w.socket.fd chain =
        some (ret, fd))
      (hret : ret < 0) (later : List (Nat × PduChain)) :
      SendsStop w ((key, chain) :: later) (-1)
        (World.requeue { w with socket := { w.socket with fd } } key chain)

theorem sendChains_cases {entries : List (Nat × PduChain)} {w w' : World} {ret : Int}
    (h : sendChains entries w = some (ret, w')) :
    ∃ sent rest w₁, entries = sent ++ rest ∧ SendsChains w sent w₁ ∧ SendsStop w₁ rest ret w' := by
  induction entries generalizing w with
  | nil =>
      cases h
      exact ⟨[], [], _, rfl, .nil _, .emptied _⟩
  | cons entry entries ih =>
      obtain ⟨key, chain⟩ := entry
      simp only [sendChains] at h
      split at h
      · cases h
      · rename_i err fd hsend
        split_ifs at h with hret
        · cases h
          exact ⟨[], (key, chain) :: entries, w, rfl, .nil w, .failed hsend hret entries⟩
        · obtain ⟨sent, rest, w₁, rfl, hsends, hstop⟩ := ih h
          exact ⟨(key, chain) :: sent, rest, w₁, rfl, .cons hsend (not_lt.mp hret) hsends, hstop⟩

/-! ### The queues after some chains were sent -/

section

variable {w w' : World} {sent rest : List (Nat × PduChain)}

theorem mem_chainMembers {pdu : Smb2Pdu} :
    pdu ∈ chainMembers sent ↔ ∃ entry ∈ sent, pdu ∈ entry.2.members := List.mem_flatMap

theorem SendsChains.outqueue (h : SendsChains w sent w')
    (hentries : w.smb2.outqueue.entries = sent ++ rest) : w'.smb2.outqueue.entries = rest := by
  induction h with
  | nil w => exact hentries
  | cons hsend hret _ ih =>
      apply ih
      rw [outqueue_transmit]
      exact OrdMap.entries_erase_head hentries

/-- What a call adds to the queue of waiting requests depends on that queue alone. -/
theorem smb2PduAddToWaitqueue_congr (pdus : List Smb2Pdu)
    (hwait : w'.smb2.waitqueue = w.smb2.waitqueue) (hcredits : w'.smb2.credits = w.smb2.credits) :
    (smb2PduAddToWaitqueue pdus w').smb2.waitqueue = (smb2PduAddToWaitqueue pdus w).smb2.waitqueue ∧
      (smb2PduAddToWaitqueue pdus w').smb2.credits = (smb2PduAddToWaitqueue pdus w).smb2.credits := by
  induction pdus generalizing w w' with
  | nil => exact ⟨hwait, hcredits⟩
  | cons pdu pdus ih =>
      apply ih
      · show w'.smb2.waitqueue.insert _ _ = w.smb2.waitqueue.insert _ _
        rw [hwait]
      · show w'.smb2.credits - _ = w.smb2.credits - _
        rw [hcredits]

/-- Sending chains one after the other makes their members wait, first to last. -/
theorem SendsChains.waitqueue (h : SendsChains w sent w') :
    w'.smb2.waitqueue = (smb2PduAddToWaitqueue (chainMembers sent) w).smb2.waitqueue ∧
      w'.smb2.credits = (smb2PduAddToWaitqueue (chainMembers sent) w).smb2.credits := by
  induction h with
  | nil w => exact ⟨rfl, rfl⟩
  | @cons w _ key chain ret fd sent hsend hret _ ih =>
      have hfirst : (World.transmit { w with socket := { w.socket with fd } } key chain).smb2.waitqueue =
          (smb2PduAddToWaitqueue chain.members w).smb2.waitqueue ∧
          (World.transmit { w with socket := { w.socket with fd } } key chain).smb2.credits =
          (smb2PduAddToWaitqueue chain.members w).smb2.credits :=
        smb2PduAddToWaitqueue_congr chain.members rfl rfl
      have hrest := smb2PduAddToWaitqueue_congr (chainMembers sent) hfirst.1 hfirst.2
      rw [chainMembers, List.flatMap_cons, smb2PduAddToWaitqueue_append]
      exact ⟨ih.1.trans hrest.1, ih.2.trans hrest.2⟩

theorem SendsStop.waitqueue {ret : Int} (h : SendsStop w rest ret w') :
    w'.smb2.waitqueue = w.smb2.waitqueue ∧ w'.smb2.credits = w.smb2.credits := by
  cases h with
  | emptied => exact ⟨rfl, rfl⟩
  | failed hsend hret later => exact ⟨rfl, rfl⟩

/-- The chain that failed goes back in front of the later ones. -/
theorem SendsStop.outqueue {ret : Int} (h : SendsStop w rest ret w')
    (hentries : w.smb2.outqueue.entries = rest)
    (hkeys : ∀ entry ∈ rest, entry.1 = entry.2.head.messageId) :
    w'.smb2.outqueue.entries = rest := by
  cases h with
  | emptied => exact hentries
  | @failed key chain _ fd hsend hret later =>
      have hkey : key = chain.head.messageId := hkeys _ List.mem_cons_self
      have herase : (w.smb2.outqueue.erase key).entries = later :=
        OrdMap.entries_erase_head hentries
      have hleast : ∀ entry ∈ (w.smb2.outqueue.erase key).entries, key < entry.1 := by
        have hsorted := w.smb2.outqueue.sorted
        rw [hentries] at hsorted
        rw [herase]
        exact (List.pairwise_cons.mp hsorted).1
      show ((w.smb2.outqueue.erase key).insert chain.head.messageId chain).entries = _
      rw [← hkey, OrdMap.entries_insert_least hleast, herase]

/-! ### Credits -/

theorem credits_smb2PduAddToWaitqueue_eq (pdus : List Smb2Pdu) (w : World) :
    (smb2PduAddToWaitqueue pdus w).smb2.credits + UInt32.ofNat (chargeSum pdus) = w.smb2.credits := by
  induction pdus generalizing w with
  | nil => exact UInt32.add_zero _
  | cons pdu pdus ih =>
      have hcharge : UInt32.ofNat pdu.creditCharge = pdu.header.creditCharge.toUInt32 := by
        rw [← UInt32.toNat_inj, UInt16.toNat_toUInt32]
        exact UInt32.toNat_ofNat_of_lt' (pdu.header.creditCharge.toNat_lt.trans (by decide))
      rw [smb2PduAddToWaitqueue, chargeSum_cons, UInt32.ofNat_add, hcharge,
        UInt32.add_comm pdu.header.creditCharge.toUInt32, ← UInt32.add_assoc, ih]
      exact UInt32.sub_add_cancel _ _

/-- Above the first dialect a chain is sent only when the credits cover it. -/
theorem SendsChains.credits (h : SendsChains w sent w') (hdialect : w.smb2.dialect > smb2Version0202)
    (hcharges : ∀ entry ∈ sent, chargeSum entry.2.members < 2 ^ 32) :
    w'.smb2.credits.toNat + chargeSum (chainMembers sent) = w.smb2.credits.toNat := by
  induction h with
  | nil w => rfl
  | @cons w _ key chain ret fd sent hsend hret _ ih =>
      obtain ⟨hcharge, hcharges⟩ := List.forall_mem_cons.mp hcharges
      have hcovered : chargeSum chain.members ≤ w.smb2.credits.toNat := by
        have hnot := sendPdu_credits hsend (not_lt.mpr hret)
        rw [← toNat_getReqCreditCharge hcharge, ← UInt32.le_iff_toNat_le, ← UInt32.not_lt]
        exact fun hlt => hnot ⟨hdialect, hlt⟩
      have hfirst := (credits_transmit (w := { w with socket := { w.socket with fd } }) key hcovered).1
      have hrest := ih (by rw [World.transmit, smb2PduAddToWaitqueue_frame]; exact hdialect) hcharges
      have hsum : chargeSum (chainMembers ((key, chain) :: sent)) =
          chargeSum chain.members + chargeSum (chainMembers sent) := by
        rw [chargeSum, chainMembers, List.flatMap_cons, List.map_append, List.sum_append]
        rfl
      rw [hsum, ← hfirst, ← hrest]
      omega

end

/-! ### A call -/

/-- What a call of `sendPdus` leaves behind, when it sends some chains of the queue and not the
rest. A request that waits for its reply is stored by itself, without the chain it came with. -/
structure QueueSent (w : World) (ret : Int) (w' : World) (sent rest : List (Nat × PduChain)) :
    Prop where
  entries : w.smb2.outqueue.entries = sent ++ rest
  calls : ∃ w₁, SendsChains w sent w₁ ∧ SendsStop w₁ rest ret w'
  below : ∀ failing ∈ rest.head?, ∀ entry ∈ w.smb2.outqueue.entries,
    entry ∈ sent ↔ entry.1 < failing.1
  outqueue : w'.smb2.outqueue.entries = rest
  waiting : ∀ entry ∈ sent, ∀ pdu ∈ entry.2.members,
    w'.smb2.waitqueue.lookup pdu.messageId = some pdu
  others : ∀ key, (∀ entry ∈ sent, ∀ pdu ∈ entry.2.members, pdu.messageId ≠ key) →
    w'.smb2.waitqueue.lookup key = w.smb2.waitqueue.lookup key
  once : ∀ pdu, w.InOutqueue pdu → ¬ w.InWaitqueue pdu → Xor (w'.InOutqueue pdu) (w'.InWaitqueue pdu)
  credits : w'.smb2.credits + UInt32.ofNat (chargeSum (chainMembers sent)) = w.smb2.credits
  covered : w.smb2.dialect > smb2Version0202 →
    (∀ entry ∈ sent, chargeSum entry.2.members < 2 ^ 32) →
    w'.smb2.credits.toNat + chargeSum (chainMembers sent) = w.smb2.credits.toNat

theorem sendPdus_queueSent {w w' : World} {ret : Int} (hqueue : QueuedApart w.smb2)
    (h : sendPdus w = some (ret, w')) : ∃ sent rest, QueueSent w ret w' sent rest := by
  obtain ⟨sent, rest, w₁, hentries, hsends, hstop⟩ := sendChains_cases h
  have hout : w'.smb2.outqueue.entries = rest := by
    apply hstop.outqueue (hsends.outqueue hentries)
    intro entry hentry
    exact hqueue.keys entry (hentries ▸ List.mem_append_right _ hentry)
  have hwait : w'.smb2.waitqueue = (smb2PduAddToWaitqueue (chainMembers sent) w).smb2.waitqueue :=
    hstop.waitqueue.1.trans hsends.waitqueue.1
  have hcredits : w'.smb2.credits = (smb2PduAddToWaitqueue (chainMembers sent) w).smb2.credits :=
    hstop.waitqueue.2.trans hsends.waitqueue.2
  -- the ids of the requests sent differ from each other and from those of the rest
  have hids := hqueue.ids
  rw [hentries, chainMembers, List.flatMap_append, List.map_append, List.nodup_append] at hids
  obtain ⟨hsentIds, -, hapart⟩ := hids
  have hwaiting : ∀ pdu ∈ chainMembers sent, w'.smb2.waitqueue.lookup pdu.messageId = some pdu := by
    intro pdu hpdu
    rw [hwait]
    apply lookup_smb2PduAddToWaitqueue_of_mem
    · exact fun other hother heq => List.inj_on_of_nodup_map hsentIds hother hpdu heq
    · exact Or.inl hpdu
  refine ⟨sent, rest, hentries, ⟨w₁, hsends, hstop⟩, ?_, hout, ?_, ?_, ?_, ?_, ?_⟩
  · intro failing hfailing entry hentry
    obtain ⟨later, rfl⟩ := List.head?_eq_some_iff.mp hfailing
    exact OrdMap.mem_left_iff_lt hentries hentry
  · exact fun entry hentry pdu hpdu => hwaiting pdu (mem_chainMembers.mpr ⟨entry, hentry, hpdu⟩)
  · intro key hkey
    rw [hwait]
    apply lookup_smb2PduAddToWaitqueue_of_ne
    intro pdu hpdu
    obtain ⟨entry, hentry, hmem⟩ := mem_chainMembers.mp hpdu
    exact hkey entry hentry pdu hmem
  · intro pdu hpdu hnot
    by_cases hsent : pdu ∈ chainMembers sent
    · refine Or.inr ⟨⟨pdu.messageId, hwaiting pdu hsent⟩, ?_⟩
      rintro ⟨entry, hentry, hmem⟩
      rw [hout] at hentry
      exact hapart _ (List.mem_map_of_mem hsent) _
        (List.mem_map_of_mem (List.mem_flatMap.mpr ⟨entry, hentry, hmem⟩)) rfl
    · refine Or.inl ⟨?_, ?_⟩
      · obtain ⟨entry, hentry, hmem⟩ := hpdu
        rw [hentries] at hentry
        refine ⟨entry, hout ▸ (List.mem_append.mp hentry).resolve_left ?_, hmem⟩
        exact fun hleft => hsent (mem_chainMembers.mpr ⟨entry, hleft, hmem⟩)
      · rintro ⟨key, hlookup⟩
        rw [hwait] at hlookup
        rcases lookup_smb2PduAddToWaitqueue _ _ hlookup with ⟨hmem, -⟩ | hold
        · exact hsent hmem
        · exact hnot ⟨key, hold⟩
  · rw [hcredits, credits_smb2PduAddToWaitqueue_eq]
  · intro hdialect hcharges
    rw [hstop.waitqueue.2, hsends.credits hdialect hcharges]

/-- Two queued chains, of one request and of two, on a connection that breaks down after the first. -/
def queuedClient : World :=
  let connected : World :=
    { smb2 := { dialect := smb2Version0210, credits := 8 }
      socket := {
        fd := some { rx := [], writevs := List.replicate 4 (.wrote 64) ++ List.replicate 7 (.error (.other 32)) }
        bConnected := true } }
  let first := (smb2QueuePdu plainEnv connected (createChain connected.smb2 (echoRequest 0) [])).2
  (smb2QueuePdu plainEnv first (createChain first.smb2 (echoRequest 1) [echoRequest 2])).2

theorem queueSent_queuedClient : QueuedApart queuedClient.smb2 ∧
    ∃ w' sent rest, QueueSent queuedClient (-1) w' sent rest ∧ sent.length = 1 ∧ rest.length = 1 := by
  have hqueue : QueuedApart queuedClient.smb2 := ⟨by decide, by decide⟩
  have hany : (sendPdus queuedClient).any (fun r => decide (r.1 = -1 ∧
      r.2.smb2.outqueue.entries.length = 1)) = true := by decide
  obtain ⟨⟨ret, w'⟩, hsend, hall⟩ := (Option.any_eq_true _ _).mp hany
  obtain ⟨hret, hleft⟩ := of_decide_eq_true hall
  obtain ⟨sent, rest, hsent⟩ := sendPdus_queueSent hqueue hsend
  have hrest : rest.length = 1 := hsent.outqueue ▸ hleft
  have htwo : queuedClient.smb2.outqueue.entries.length = 2 := by decide
  rw [hsent.entries, List.length_append, hrest] at htwo
  exact ⟨hqueue, w', sent, rest, hret ▸ hsent, by omega, hrest⟩

/-! ### Runs -/

theorem members_sublist_numberedPdus {trace : List Event} {chain : PduChain}
    (h : .queued chain ∈ trace) : chain.members.Sublist (numberedPdus trace) := by
  induction trace with
  | nil => cases h
  | cons event older ih =>
      rw [numberedPdus]
      rcases List.mem_cons.mp h with rfl | h
      · exact List.sublist_append_right _ _
      · exact (ih h).trans (List.sublist_append_left _ _)

/-- On one connection the queue is always as `sendPdus` needs it. -/
theorem IdInv.queuedApart {first : Nat} {w : World} (h : IdInv first w) : QueuedApart w.smb2 := by
  have hlookup {entry : Nat × PduChain} (hentry : entry ∈ w.smb2.outqueue.entries) :
      w.smb2.outqueue.lookup entry.1 = some entry.2 := (w.smb2.outqueue.mem_entries_iff _ _).mp hentry
  refine ⟨fun entry hentry => (h.out _ _ (hlookup hentry)).1, ?_⟩
  have hincreasing : (chainMembers w.smb2.outqueue.entries).Pairwise
      fun a b => a.messageId < b.messageId := by
    apply List.pairwise_flatMap.mpr
    constructor
    · intro entry hentry
      have hsub := members_sublist_numberedPdus (h.out _ _ (hlookup hentry)).2
      refine (h.numbered.pairwise.sublist hsub).imp fun {a b} hab => ?_
      have hpos := a.idSpan_pos
      omega
    · refine (List.Pairwise.and_mem.mp w.smb2.outqueue.sorted).imp ?_
      intro entry later hpair a ha b hb
      obtain ⟨hentry, hlater, hlt⟩ := hpair
      have hbound := h.apart _ _ _ _ (hlookup hentry) (hlookup hlater) hlt a ha
      obtain ⟨hkey, hqueued⟩ := h.out _ _ (hlookup hlater)
      have hhead := h.heads _ hqueued b hb
      omega
  exact List.pairwise_map.mpr (hincreasing.imp Nat.ne_of_lt)

end CodeStudy.Samba
