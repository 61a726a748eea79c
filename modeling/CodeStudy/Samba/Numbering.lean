import CodeStudy.Base.Numbering
import CodeStudy.Samba.ClientStep

/-!
# Message ids

A request gets its message id when it is queued. It takes one id, or as many as the credits it is
charged, and the counter of the context moves on by as many. Encoding a chain numbers its members
one after the other, also when it stops at a member that cannot be signed.
-/

namespace CodeStudy.Samba

/-- The number of message ids a request takes. -/
def Smb2Pdu.idSpan (pdu : Smb2Pdu) : Nat := max 1 pdu.creditCharge

theorem Smb2Pdu.idSpan_pos (pdu : Smb2Pdu) : 0 < pdu.idSpan := lt_max_of_lt_left Nat.one_pos

/-- Requests with consecutive message ids. -/
abbrev NumberedFrom : Nat → List Smb2Pdu → Prop := Numbered Smb2Pdu.messageId Smb2Pdu.idSpan

/-- The message ids that some requests take. -/
abbrev idsTaken : List Smb2Pdu → Nat := spanSum Smb2Pdu.idSpan

theorem idsTaken_append (pdus more : List Smb2Pdu) :
    idsTaken (pdus ++ more) = idsTaken pdus + idsTaken more := spanSum_append pdus more

/-- What encoding a request leaves alone. -/
structure Encodes (pdu encoded : Smb2Pdu) : Prop where
  command : encoded.command = pdu.command
  appData : encoded.appData = pdu.appData
  creditCharge : encoded.header.creditCharge = pdu.header.creditCharge
  creditRequest : encoded.header.creditRequestResponse = pdu.header.creditRequestResponse

theorem Encodes.idSpan {pdu encoded : Smb2Pdu} (h : Encodes pdu encoded) :
    encoded.idSpan = pdu.idSpan := by
  rw [Smb2Pdu.idSpan, Smb2Pdu.creditCharge, h.creditCharge, Smb2Pdu.idSpan, Smb2Pdu.creditCharge]

/-! ### One request -/

theorem encodeHeader_encodes (smb2 : Smb2Context) (pdu : Smb2Pdu) :
    Encodes pdu (encodeHeader smb2 pdu).2 ∧
      (encodeHeader smb2 pdu).2.header.messageId = smb2.messageId := ⟨⟨rfl, rfl, rfl, rfl⟩, rfl⟩

theorem toNat_messageId_encodeHeader {smb2 : Smb2Context} {pdu : Smb2Pdu}
    (h : smb2.messageId.toNat + pdu.idSpan < 2 ^ 64) :
    (encodeHeader smb2 pdu).1.messageId.toNat = smb2.messageId.toNat + pdu.idSpan := by
  have hcharge := pdu.header.creditCharge.toNat_lt
  simp only [encodeHeader, Smb2Pdu.idSpan, Smb2Pdu.creditCharge] at h ⊢
  split_ifs with hmany
  · have hone : 1 < pdu.header.creditCharge.toNat := UInt16.lt_iff_toNat_lt.mp hmany
    rw [max_eq_right hone.le] at h ⊢
    have hunit : (1 : UInt16).toNat = 1 ∧ (1 : UInt64).toNat = 1 := ⟨rfl, rfl⟩
    have hle : (1 : UInt16) ≤ pdu.header.creditCharge :=
      UInt16.le_iff_toNat_le.mpr (hunit.1.trans_le hone.le)
    rw [UInt64.toNat_add, UInt64.toNat_add, UInt16.toNat_toUInt64, UInt16.toNat_sub_of_le _ _ hle]
    omega
  · have hone : pdu.header.creditCharge.toNat ≤ 1 := UInt16.le_iff_toNat_le.mp (UInt16.not_lt.mp hmany)
    rw [max_eq_left hone] at h ⊢
    rw [UInt64.toNat_add]
    have hunit : (1 : UInt64).toNat = 1 := rfl
    omega

theorem smb2PduAddSignature_encodes {env : Env} {smb2 : Smb2Context} {pdu signed : Smb2Pdu}
    (h : smb2PduAddSignature env smb2 pdu = .ok signed) :
    Encodes pdu signed ∧ signed.header.messageId = pdu.header.messageId := by
  simp only [smb2PduAddSignature] at h
  split_ifs at h
  all_goals
    cases h
    exact ⟨⟨rfl, rfl, rfl, rfl⟩, rfl⟩

/-! ### A chain -/

/-- What encoding the members of a chain does: everything but the counter stays, the members that
were encoded are the first ones, and their ids are consecutive as long as the counter does not
wrap. -/
structure EncodedMembers (smb2 : Smb2Context) (pdus : List Smb2Pdu) (err : Option String)
    (smb2' : Smb2Context) (encoded : List Smb2Pdu) : Prop where
  context : smb2' = { smb2 with messageId := smb2'.messageId }
  encodes : List.Forall₂ Encodes (pdus.take encoded.length) encoded
  all : err = none → encoded.length = pdus.length
  some_of_err : err ≠ none → encoded ≠ []
  numbered : smb2.messageId.toNat + idsTaken encoded < 2 ^ 64 →
    NumberedFrom smb2.messageId.toNat encoded ∧
      smb2'.messageId.toNat = smb2.messageId.toNat + idsTaken encoded

theorem exists_of_mem_encoded {pdus encoded : List Smb2Pdu} (h : List.Forall₂ Encodes pdus encoded) :
    ∀ pdu ∈ encoded, ∃ original ∈ pdus, Encodes original pdu := by
  induction h with
  | nil => simp
  | cons hhead _ ih =>
      rw [List.forall_mem_cons]
      refine ⟨⟨_, List.mem_cons_self, hhead⟩, fun pdu hpdu => ?_⟩
      obtain ⟨original, hmem, hencodes⟩ := ih pdu hpdu
      exact ⟨original, List.mem_cons_of_mem _ hmem, hencodes⟩

/-- Every member that was encoded is one of the chain. -/
theorem EncodedMembers.exists_member {smb2 smb2' : Smb2Context} {pdus encoded : List Smb2Pdu}
    {err : Option String} (h : EncodedMembers smb2 pdus err smb2' encoded) :
    ∀ pdu ∈ encoded, ∃ original ∈ pdus, Encodes original pdu := by
  intro pdu hpdu
  obtain ⟨original, hmem, hencodes⟩ := exists_of_mem_encoded h.encodes pdu hpdu
  exact ⟨original, List.mem_of_mem_take hmem, hencodes⟩

theorem encodeMembers_spec {env : Env} {smb2 smb2' : Smb2Context} {pdus encoded : List Smb2Pdu}
    {err : Option String} (h : encodeMembers env smb2 pdus = (err, smb2', encoded)) :
    EncodedMembers smb2 pdus err smb2' encoded := by
  induction pdus generalizing smb2 smb2' encoded err with
  | nil =>
      cases h
      exact ⟨rfl, .nil, fun _ => rfl, by simp, fun _ => ⟨trivial, by simp⟩⟩
  | cons pdu pdus ih =>
      obtain ⟨hencodes, hid⟩ := encodeHeader_encodes smb2 pdu
      have hcounter (hlt : smb2.messageId.toNat + pdu.idSpan < 2 ^ 64) :=
        toNat_messageId_encodeHeader hlt
      simp only [encodeMembers] at h
      split at h
      · cases h
        refine ⟨rfl, .cons hencodes .nil, by simp, by simp, fun hlt => ?_⟩
        rw [idsTaken, spanSum_cons, spanSum_nil, hencodes.idSpan, Nat.add_zero] at hlt ⊢
        exact ⟨⟨congrArg UInt64.toNat hid, trivial⟩, hcounter hlt⟩
      · rename_i signed hsigned
        have hsigned' : Encodes pdu signed ∧ signed.header.messageId = smb2.messageId := by
          split_ifs at hsigned
          · obtain ⟨hs, hsid⟩ := smb2PduAddSignature_encodes hsigned
            exact ⟨⟨hs.command, hs.appData, hs.creditCharge, hs.creditRequest⟩, hsid.trans hid⟩
          · cases hsigned
            exact ⟨hencodes, hid⟩
        cases hrest : encodeMembers env (encodeHeader smb2 pdu).1 pdus with
        | mk err₁ rest =>
            obtain ⟨smb2₁, encoded₁⟩ := rest
            have hspec := ih hrest
            simp only [hrest] at h
            cases h
            refine ⟨?_, .cons hsigned'.1 hspec.encodes, fun hnone => ?_, by simp, fun hlt => ?_⟩
            · rw [hspec.context]
              rfl
            · rw [List.length_cons, hspec.all hnone, List.length_cons]
            · have htaken : idsTaken (signed :: encoded₁) = pdu.idSpan + idsTaken encoded₁ := by
                rw [idsTaken, spanSum_cons, hsigned'.1.idSpan]
              rw [htaken] at hlt ⊢
              have hnext := hcounter (by omega)
              obtain ⟨hnumbered, hend⟩ := hspec.numbered (by rw [hnext]; omega)
              rw [hnext] at hnumbered hend
              refine ⟨⟨congrArg UInt64.toNat hsigned'.2, ?_⟩, by rw [hend]; omega⟩
              rw [hsigned'.1.idSpan]
              exact hnumbered

/-- Queueing a chain numbers its members and stores them, or numbers some of them and fails. -/
theorem smb2QueuePdu_cases {env : Env} {w w' : World} {chain : PduChain} {err : Option String}
    (h : smb2QueuePdu env w chain = (err, w')) :
    ∃ smb2 encoded, EncodedMembers w.smb2 chain.members err smb2 encoded ∧
      ((err = none ∧ ∃ queued : PduChain, queued.members = encoded ∧
        w' = { w with smb2 := { w.smb2 with
          messageId := smb2.messageId
          outqueue := w.smb2.outqueue.insert queued.head.messageId queued } }.log (.queued queued)) ∨
      (err ≠ none ∧ w' = { w with smb2 := { w.smb2 with messageId := smb2.messageId } }.log
        (.queueFailed encoded))) := by
  rw [smb2QueuePdu] at h
  split at h
  · rename_i msg smb2 encoded hencode
    cases h
    have hspec := encodeMembers_spec hencode
    refine ⟨smb2, encoded, hspec, Or.inr ⟨by simp, ?_⟩⟩
    rw [← hspec.context]
  · rename_i smb2 encoded hencode
    cases h
    have hspec := encodeMembers_spec hencode
    have hlen := hspec.all rfl
    rw [PduChain.members, List.length_cons] at hlen
    have hmembers : PduChain.members ⟨encoded.headD chain.head, encoded.tail⟩ = encoded := by
      cases encoded with
      | nil => simp at hlen
      | cons pdu pdus => rfl
    obtain ⟨id, rfl⟩ : ∃ id, smb2 = { w.smb2 with messageId := id } := ⟨_, hspec.context⟩
    exact ⟨_, encoded, hspec, Or.inl ⟨rfl, _, hmembers, rfl⟩⟩

/-! ### Sent requests -/

section

variable (pdus : List Smb2Pdu) (w : World)

/-- Sending changes the credits, the waiting requests and the trace. -/
theorem smb2PduAddToWaitqueue_frame :
    smb2PduAddToWaitqueue pdus w = { w with
      smb2 := { w.smb2 with
        credits := (smb2PduAddToWaitqueue pdus w).smb2.credits
        waitqueue := (smb2PduAddToWaitqueue pdus w).smb2.waitqueue }
      trace := (smb2PduAddToWaitqueue pdus w).trace } := by
  induction pdus generalizing w with
  | nil => rfl
  | cons pdu pdus ih =>
      rw [smb2PduAddToWaitqueue]
      nth_rewrite 1 [ih]
      rfl

theorem trace_smb2PduAddToWaitqueue :
    ∃ evs, (smb2PduAddToWaitqueue pdus w).trace = evs ++ w.trace ∧
      (∀ event ∈ evs, ∃ credits, ∃ pdu ∈ pdus, event = .sent credits pdu) ∧
      ∀ pdu ∈ pdus, ∃ credits, .sent credits pdu ∈ evs := by
  induction pdus generalizing w with
  | nil => exact ⟨[], rfl, by simp, by simp⟩
  | cons pdu pdus ih =>
      obtain ⟨evs, htrace, hsent, hall⟩ := ih
        ({ w with smb2 := { w.smb2 with
          credits := w.smb2.credits - pdu.header.creditCharge.toUInt32
          waitqueue := w.smb2.waitqueue.insert pdu.messageId pdu } }.log (.sent w.smb2.credits pdu))
      refine ⟨evs ++ [.sent w.smb2.credits pdu], ?_, ?_, ?_⟩
      · rw [smb2PduAddToWaitqueue, htrace, World.log]
        simp
      · intro event hevent
        rcases List.mem_append.mp hevent with hevent | hevent
        · obtain ⟨credits, other, hother, heq⟩ := hsent event hevent
          exact ⟨credits, other, List.mem_cons_of_mem _ hother, heq⟩
        · exact ⟨w.smb2.credits, pdu, List.mem_cons_self, List.mem_singleton.mp hevent⟩
      · rw [List.forall_mem_cons]
        refine ⟨⟨w.smb2.credits, by simp⟩, fun other hother => ?_⟩
        obtain ⟨credits, hmem⟩ := hall other hother
        exact ⟨credits, List.mem_append_left _ hmem⟩

/-- A waiting request was waiting before, or has just been sent. -/
theorem lookup_smb2PduAddToWaitqueue {key : Nat} {pdu : Smb2Pdu}
    (h : (smb2PduAddToWaitqueue pdus w).smb2.waitqueue.lookup key = some pdu) :
    (pdu ∈ pdus ∧ key = pdu.messageId) ∨ w.smb2.waitqueue.lookup key = some pdu := by
  induction pdus generalizing w with
  | nil => exact Or.inr h
  | cons first pdus ih =>
      rw [smb2PduAddToWaitqueue] at h
      rcases ih _ h with ⟨hmem, hkey⟩ | hold
      · exact Or.inl ⟨List.mem_cons_of_mem _ hmem, hkey⟩
      · rw [World.log, OrdMap.lookup_insert] at hold
        split_ifs at hold with hkey
        · cases hold
          exact Or.inl ⟨List.mem_cons_self, hkey⟩
        · exact Or.inr hold

/-- What is sent waits under its message id, when no other request has that id. -/
theorem lookup_smb2PduAddToWaitqueue_of_mem {pdu : Smb2Pdu}
    (hinj : ∀ other ∈ pdus, other.messageId = pdu.messageId → other = pdu)
    (h : pdu ∈ pdus ∨ w.smb2.waitqueue.lookup pdu.messageId = some pdu) :
    (smb2PduAddToWaitqueue pdus w).smb2.waitqueue.lookup pdu.messageId = some pdu := by
  induction pdus generalizing w with
  | nil => exact h.resolve_left List.not_mem_nil
  | cons first pdus ih =>
      obtain ⟨hfirst, hinj⟩ := List.forall_mem_cons.mp hinj
      rw [smb2PduAddToWaitqueue]
      refine ih _ hinj ?_
      by_cases hid : first.messageId = pdu.messageId
      · refine Or.inr ?_
        rw [World.log, OrdMap.lookup_insert, if_pos hid.symm, hfirst hid]
      · rcases h with hmem | hold
        · refine Or.inl ((List.mem_cons.mp hmem).resolve_left ?_)
          exact fun heq => hid (by rw [heq])
        · refine Or.inr ?_
          rw [World.log, OrdMap.lookup_insert, if_neg (fun heq => hid heq.symm), hold]

theorem lookup_smb2PduAddToWaitqueue_of_ne {key : Nat} (h : ∀ pdu ∈ pdus, pdu.messageId ≠ key) :
    (smb2PduAddToWaitqueue pdus w).smb2.waitqueue.lookup key = w.smb2.waitqueue.lookup key := by
  induction pdus generalizing w with
  | nil => rfl
  | cons first pdus ih =>
      obtain ⟨hfirst, hothers⟩ := List.forall_mem_cons.mp h
      rw [smb2PduAddToWaitqueue, ih _ hothers, World.log, OrdMap.lookup_insert, if_neg hfirst.symm]

end

/-! ### The trace -/

theorem outqueue_transmit (w : World) (key : Nat) (chain : PduChain) :
    (w.transmit key chain).smb2.outqueue = w.smb2.outqueue.erase key := by
  rw [World.transmit, smb2PduAddToWaitqueue_frame]
  rfl

theorem smb2PduAddToWaitqueue_append (pdus more : List Smb2Pdu) (w : World) :
    smb2PduAddToWaitqueue (pdus ++ more) w =
      smb2PduAddToWaitqueue more (smb2PduAddToWaitqueue pdus w) := by
  induction pdus generalizing w with
  | nil => rfl
  | cons pdu pdus ih => rw [List.cons_append, smb2PduAddToWaitqueue, ih, smb2PduAddToWaitqueue]

/-- The last request of a chain that was sent waits for its reply. -/
theorem lookup_last_transmit (w : World) (key : Nat) (chain : PduChain) :
    (w.transmit key chain).smb2.waitqueue.lookup chain.last.messageId = some chain.last := by
  rw [World.transmit, chain.members_eq, smb2PduAddToWaitqueue_append]
  exact OrdMap.lookup_insert_self _ _ _

theorem messageId_transmit (w : World) (key : Nat) (chain : PduChain) :
    (w.transmit key chain).smb2.messageId = w.smb2.messageId := by
  rw [World.transmit, smb2PduAddToWaitqueue_frame]
  rfl

theorem trace_transmit (w : World) (key : Nat) (chain : PduChain) :
    ∃ evs, (w.transmit key chain).trace =
        evs ++ .transmitted w.smb2.dialect w.smb2.credits chain :: w.trace ∧
      (∀ event ∈ evs, ∃ credits, ∃ pdu ∈ chain.members, event = .sent credits pdu) ∧
      ∀ pdu ∈ chain.members, ∃ credits, .sent credits pdu ∈ evs :=
  trace_smb2PduAddToWaitqueue chain.members _

/-- Events are added to the trace and never taken from it. -/
theorem ClientStep.trace {env : Env} {w w' : World} (h : ClientStep env w w') :
    ∃ evs, w'.trace = evs ++ w.trace := by
  have hqueue {chain : PduChain} {err : Option String} {w' : World}
      (h : smb2QueuePdu env w chain = (err, w')) : ∃ evs, w'.trace = evs ++ w.trace := by
    obtain ⟨event, -, htrace⟩ := smb2QueuePdu_trace env w chain
    rw [h] at htrace
    exact ⟨[event], htrace⟩
  cases h with
  | start => exact ⟨[], rfl⟩
  | connect conn => exact ⟨[.connected w.smb2.credits], rfl⟩
  | request first others h => exact hqueue h
  | act h =>
      cases h with
      | quiet h => exact ⟨[], h.trace⟩
      | finish => exact ⟨[], rfl⟩
      | close => exact ⟨[.closed], rfl⟩
      | queue spec h => exact hqueue h
      | frame spl => exact ⟨[.frame spl], rfl⟩
      | accept offset h => exact ⟨[.header ..], rfl⟩
      | reject h => exact ⟨[.rejected _], rfl⟩
      | process htrace hfinal hanswer => exact ⟨[.processed _], rfl⟩
      | @transmit key chain h hcredits =>
          obtain ⟨evs, htrace, -, -⟩ := trace_transmit w key chain
          exact ⟨evs ++ [.transmitted w.smb2.dialect w.smb2.credits chain], by rw [htrace]; simp⟩
      | requeue h => exact ⟨[], rfl⟩

theorem ClientSteps.trace {env : Env} {w w' : World} (h : ClientSteps env w w') :
    ∃ evs, w'.trace = evs ++ w.trace := by
  induction h with
  | refl => exact ⟨[], rfl⟩
  | tail _ hlast ih =>
      obtain ⟨evs, hevs⟩ := ih
      obtain ⟨more, hmore⟩ := hlast.trace
      exact ⟨more ++ evs, by rw [hmore, hevs, List.append_assoc]⟩

end CodeStudy.Samba
