import CodeStudy.Samba.MessageIds

/-!
# A chain that cannot be queued

A member of a chain is numbered before it is signed. When its signature cannot be computed the call
fails, and the chain is in no queue, but the counter of message ids has moved on: over the ids of
that member and of the members before it.
-/

namespace CodeStudy.Samba

/-! ### Which requests can be signed -/

/-- The message ids that numbering the request takes from the counter. -/
def Smb2Pdu.idCount (pdu : Smb2Pdu) : UInt64 :=
  if pdu.header.creditCharge > 1 then 1 + (pdu.header.creditCharge - 1).toUInt64 else 1

/-- The sizes of the io vectors when the header is written. -/
def Smb2Pdu.iovSizes (pdu : Smb2Pdu) : List Nat := (pdu.out.iovs.modify 0 pdu.header.write).map List.length

/-- Whether io vectors of these sizes make the program ask for an enormous buffer. -/
def reallocFails (offset : Int) : List Nat → Bool
  | [] => false
  | size :: sizes => offset + size < 0 || (0 ≤ offset && reallocFails (toInt32 (offset + size)) sizes)

/-- The request needs no signature, or nothing keeps the program from computing it. -/
def CanBeSigned (env : Env) (smb2 : Smb2Context) (command : Smb2Command) (iovSizes : List Nat) : Prop :=
  command = .sessionSetup ∨ 2 ≤ iovSizes.length ∧ iovSizes.headD 0 = smb2HeaderSize ∧
    (smb2.sessionId = 0 ∨ smb2.sessionKeySize ≠ 0 ∧
      (smb2.dialect > smb2Version0210 → env.alloc .signBuffer smb2 = true ∧ reallocFails 0 iovSizes = false))

instance (env : Env) (smb2 : Smb2Context) (command : Smb2Command) (iovSizes : List Nat) :
    Decidable (CanBeSigned env smb2 command iovSizes) := by
  unfold CanBeSigned
  infer_instance

/-- The message ids of the members up to the first one that cannot be signed, `none` when all can. -/
def idsLost (env : Env) (smb2 : Smb2Context) : List Smb2Pdu → Option UInt64
  | [] => none
  | pdu :: pdus =>
      let smb2 := { smb2 with messageId := smb2.messageId + pdu.idCount }
      if smb2.signingRequired ≠ 0 ∧ ¬ CanBeSigned env smb2 pdu.command pdu.iovSizes then some pdu.idCount
      else (idsLost env smb2 pdus).map (pdu.idCount + ·)

theorem combineIovs_eq_none (overrun : Bytes) (offset : Int) (msg : Bytes) (iovs : List Bytes) :
    combineIovs overrun offset msg iovs = none ↔ reallocFails offset (iovs.map List.length) = true := by
  induction iovs generalizing offset msg with
  | nil => simp [combineIovs, reallocFails]
  | cons v iovs ih =>
      rw [combineIovs, List.map_cons, reallocFails, Bool.or_eq_true, Bool.and_eq_true, decide_eq_true_iff,
        decide_eq_true_iff]
      by_cases henormous : offset + v.length < 0
      · rw [if_pos henormous]
        exact iff_of_true rfl (.inl henormous)
      · rw [if_neg henormous]
        by_cases hoverrun : offset < 0
        · rw [if_pos hoverrun]
          simp only [reduceCtorEq, henormous, not_le.mpr hoverrun, false_and, or_self]
        · rw [if_neg hoverrun, ih]
          simp only [henormous, not_lt.mp hoverrun, true_and, false_or]

theorem map_length_modify (iovs : List Bytes) {f : Bytes → Bytes} (h : ∀ iov, (f iov).length = iov.length) :
    (iovs.modify 0 f).map List.length = iovs.map List.length := by
  cases iovs with
  | nil => rfl
  | cons iov iovs => rw [List.modify_zero_cons, List.map_cons, List.map_cons, h]

theorem smb2PduAddSignature_ok_iff (env : Env) (smb2 : Smb2Context) (pdu : Smb2Pdu) :
    (∃ signed, smb2PduAddSignature env smb2 pdu = .ok signed) ↔
      CanBeSigned env smb2 pdu.command (pdu.out.iovs.map List.length) := by
  have hhead : (pdu.out.iovs.map List.length).headD 0 = (pdu.out.iovs.headD []).length := by
    cases pdu.out.iovs with
    | nil => rfl
    | cons iov iovs => rfl
  have hsizes := map_length_modify pdu.out.iovs
    fun iov => length_smb2SetUint32 iov 16 (pdu.header.flags ||| smb2FlagsSigned)
  have herror : ¬ ∃ _ : Smb2Pdu, False := not_exists.mpr fun _ => id
  simp only [smb2PduAddSignature, CanBeSigned, hhead, List.length_map, combineIovs_eq_none, hsizes]
  split_ifs with hcommand hfew hsize hid hkey hbuffer
  · exact iff_of_true ⟨_, rfl⟩ (.inl hcommand)
  · refine iff_of_false herror ?_
    rintro (h | ⟨hvectors, -, -⟩)
    · exact hcommand h
    · exact absurd hvectors (not_le.mpr hfew)
  · refine iff_of_false herror ?_
    rintro (h | ⟨-, hheader, -⟩)
    · exact hcommand h
    · exact hsize hheader
  · exact iff_of_true ⟨_, rfl⟩ (.inr ⟨not_lt.mp hfew, not_not.mp hsize, .inl hid⟩)
  · refine iff_of_false herror ?_
    rintro (h | ⟨-, -, h | ⟨h, -⟩⟩)
    · exact hcommand h
    · exact hid h
    · exact h hkey
  · refine iff_of_false herror ?_
    rintro (h | ⟨-, -, h | ⟨-, h⟩⟩)
    · exact hcommand h
    · exact hid h
    · obtain ⟨halloc, hrealloc⟩ := h hbuffer.1
      simp only [halloc, hrealloc, Bool.true_eq_false, Bool.false_eq_true, or_self, and_false] at hbuffer
  all_goals
    refine iff_of_true ⟨_, rfl⟩ (.inr ⟨not_lt.mp hfew, not_not.mp hsize, .inr ⟨hkey, fun hdialect => ?_⟩⟩)
    obtain ⟨halloc, hrealloc⟩ := not_or.mp fun hfails => hbuffer ⟨hdialect, hfails⟩
    exact ⟨Bool.not_eq_false _ ▸ halloc, Bool.not_eq_true _ ▸ hrealloc⟩

/-! ### Numbering -/

theorem length_memcpy_congr {dst dst' src src' : Bytes} (position : Nat) (h : dst.length = dst'.length)
    (hsrc : src.length = src'.length) : (memcpy dst position src).length = (memcpy dst' position src').length := by
  simp only [memcpy, List.length_append, List.length_take, List.length_drop, h, hsrc]

/-- The message id does not matter for the size of a header. -/
theorem length_write (h : Smb2Header) (messageId : UInt64) (iov : Bytes) :
    (Smb2Header.write { h with messageId } iov).length = (h.write iov).length := by
  simp only [Smb2Header.write]
  refine length_memcpy_congr 48 ?_ rfl
  split_ifs <;> simp

theorem iovSizes_encodeHeader (smb2 : Smb2Context) (pdu : Smb2Pdu) :
    (encodeHeader smb2 pdu).2.out.iovs.map List.length = pdu.iovSizes := by
  rw [Smb2Pdu.iovSizes, encodeHeader]
  cases pdu.out.iovs with
  | nil => rfl
  | cons iov iovs =>
      rw [List.modify_zero_cons, List.modify_zero_cons, List.map_cons, List.map_cons, length_write]

theorem messageId_encodeHeader (smb2 : Smb2Context) (pdu : Smb2Pdu) :
    (encodeHeader smb2 pdu).1 = { smb2 with messageId := smb2.messageId + pdu.idCount } := by
  rw [encodeHeader, Smb2Pdu.idCount]
  split_ifs
  · rw [UInt64.add_assoc]
  · rfl

/-- Encoding the members fails at the first one that cannot be signed, with the counter behind it. -/
theorem encodeMembers_idsLost {env : Env} {smb2 smb2' : Smb2Context} {pdus encoded : List Smb2Pdu}
    {err : Option String} (h : encodeMembers env smb2 pdus = (err, smb2', encoded)) :
    (err = none ↔ idsLost env smb2 pdus = none) ∧
      ∀ n, idsLost env smb2 pdus = some n → smb2'.messageId = smb2.messageId + n := by
  induction pdus generalizing smb2 smb2' encoded err with
  | nil =>
      cases h
      refine ⟨iff_of_true rfl rfl, ?_⟩
      intro n hn
      cases hn
  | cons pdu pdus ih =>
      have hsign := smb2PduAddSignature_ok_iff env (encodeHeader smb2 pdu).1 (encodeHeader smb2 pdu).2
      rw [iovSizes_encodeHeader] at hsign
      have hcounter := messageId_encodeHeader smb2 pdu
      simp only [encodeMembers] at h
      rw [idsLost, ← hcounter]
      by_cases hfails : (encodeHeader smb2 pdu).1.signingRequired ≠ 0 ∧
          ¬ CanBeSigned env (encodeHeader smb2 pdu).1 pdu.command pdu.iovSizes
      · rw [if_pos hfails.1] at h
        cases hsigned : smb2PduAddSignature env (encodeHeader smb2 pdu).1 (encodeHeader smb2 pdu).2 with
        | ok signed => exact absurd (hsign.mp ⟨signed, hsigned⟩) hfails.2
        | error msg =>
            rw [hsigned] at h
            cases h
            rw [if_pos hfails]
            refine ⟨iff_of_false (Option.some_ne_none _) (Option.some_ne_none _), fun n hn => ?_⟩
            rw [hcounter, Option.some.inj hn]
      · obtain ⟨signed, hsigned⟩ : ∃ signed, (if (encodeHeader smb2 pdu).1.signingRequired ≠ 0 then
            smb2PduAddSignature env (encodeHeader smb2 pdu).1 (encodeHeader smb2 pdu).2
            else .ok (encodeHeader smb2 pdu).2) = .ok signed := by
          split_ifs with hrequired
          · exact hsign.mpr (not_not.mp fun hnot => hfails ⟨hrequired, hnot⟩)
          · exact ⟨_, rfl⟩
        rw [hsigned] at h
        cases hrest : encodeMembers env (encodeHeader smb2 pdu).1 pdus with
        | mk err₁ rest =>
            obtain ⟨smb2₁, encoded₁⟩ := rest
            obtain ⟨herr, hlost⟩ := ih hrest
            simp only [hrest] at h
            cases h
            rw [if_neg hfails]
            refine ⟨herr.trans Option.map_eq_none_iff.symm, fun n hn => ?_⟩
            obtain ⟨m, hm, rfl⟩ := Option.map_eq_some_iff.mp hn
            rw [hlost m hm, hcounter, UInt64.add_assoc]

/-! ### The call -/

/-- The counter, the queues and the credits of two contexts are the same. -/
structure QueueUntouched (smb2 smb2' : Smb2Context) : Prop where
  messageId : smb2'.messageId = smb2.messageId
  outqueue : smb2'.outqueue = smb2.outqueue
  waitqueue : smb2'.waitqueue = smb2.waitqueue
  credits : smb2'.credits = smb2.credits

/-- A call that fails leaves the context as it was exactly when the ids it used up are none. -/
theorem smb2QueuePdu_untouched_iff (env : Env) (w : World) (chain : PduChain) :
    (∀ err w', smb2QueuePdu env w chain = (some err, w') → QueueUntouched w.smb2 w'.smb2) ↔
      ∀ n, idsLost env w.smb2 chain.members = some n → n = 0 := by
  cases hencode : encodeMembers env w.smb2 chain.members with
  | mk err rest =>
      obtain ⟨smb2, encoded⟩ := rest
      obtain ⟨herr, hlost⟩ := encodeMembers_idsLost hencode
      have hcontext := (encodeMembers_spec hencode).context
      simp only [smb2QueuePdu, hencode]
      cases err with
      | none =>
          rw [herr.mp rfl]
          refine iff_of_true (fun err w' hw' => ?_) (fun n hn => ?_)
          · exact absurd (Prod.mk.inj hw').1.symm (Option.some_ne_none err)
          · exact absurd hn.symm (Option.some_ne_none n)
      | some msg =>
          obtain ⟨n, hn⟩ := Option.ne_none_iff_exists'.mp (mt herr.mpr (Option.some_ne_none msg))
          have hid := hlost n hn
          rw [hn]
          constructor
          · intro h m hm
            have hsame : smb2.messageId = w.smb2.messageId := (h msg _ rfl).messageId
            rw [hid] at hsame
            rw [← Option.some.inj hm]
            simpa using hsame
          · intro h err' w' hw'
            cases hw'
            rw [h n rfl, UInt64.add_zero] at hid
            have houtqueue := congrArg Smb2Context.outqueue hcontext
            have hwaitqueue := congrArg Smb2Context.waitqueue hcontext
            have hcredits := congrArg Smb2Context.credits hcontext
            exact ⟨hid, houtqueue, hwaitqueue, hcredits⟩

/-- A client in a session whose requests are signed, before the key of the session is known. -/
def keylessClient : World :=
  { idleClient 1 with smb2 := { (idleClient 1).smb2 with sessionKeySize := 0 } }

/-- A request that cannot be signed takes a message id. -/
theorem not_untouched_keylessClient :
    ¬ ∀ err w', smb2QueuePdu plainEnv keylessClient (createChain keylessClient.smb2 (echoRequest 0) []) =
      (some err, w') → QueueUntouched keylessClient.smb2 w'.smb2 := by
  intro h
  have hrun : (smb2QueuePdu plainEnv keylessClient
        (createChain keylessClient.smb2 (echoRequest 0) [])).1.isSome = true ∧
      (smb2QueuePdu plainEnv keylessClient
        (createChain keylessClient.smb2 (echoRequest 0) [])).2.smb2.messageId ≠ keylessClient.smb2.messageId := by
    decide
  generalize smb2QueuePdu plainEnv keylessClient (createChain keylessClient.smb2 (echoRequest 0) []) = result at h hrun
  obtain ⟨err, w'⟩ := result
  obtain ⟨msg, rfl⟩ := Option.isSome_iff_exists.mp hrun.1
  exact hrun.2 (h msg w' rfl).messageId

end CodeStudy.Samba
