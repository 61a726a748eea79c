import CodeStudy.Samba.Fields
import CodeStudy.Samba.QueueFailure

/-!
# Signed requests

When signing is required, every member of a chain is signed while the chain is queued, right after its
header was encoded. The signature is the code of all its bytes, those of the signature field being zero
then. From there on nothing touches a request any more until it is sent. For dialects above 0x0210 the
bytes are joined in a buffer first, whose size is an `int`: a request of 2 ^ 31 bytes overruns it.
-/

namespace CodeStudy.Samba

/-! ### Signatures -/

/-- The bytes of a request on the wire. -/
def Smb2Pdu.wireBytes (pdu : Smb2Pdu) : Bytes := pdu.out.iovs.flatten

/-- The code of a message under the signing key, as far as it fits into a header. -/
def signatureOf (env : Env) (smb2 : Smb2Context) (msg : Bytes) : Bytes :=
  (if smb2.dialect > smb2Version0210 then env.aesCmac128 smb2.signingKey msg
    else env.hmacSha256 smb2.signingKey msg).take smb2SignatureSize

/-- A message before it was signed. -/
def withoutSignature (msg : Bytes) : Bytes := memcpy msg 48 (List.replicate smb2SignatureSize 0)

/-- The flag is set, and the signature is the code of the request without it. -/
structure Signed (env : Env) (smb2 : Smb2Context) (pdu : Smb2Pdu) : Prop where
  flag : smb2GetUint32 pdu.wireBytes 16 0 &&& smb2FlagsSigned = smb2FlagsSigned
  signature : slice pdu.wireBytes 48 smb2SignatureSize = signatureOf env smb2 (withoutSignature pdu.wireBytes)

/-- A code is at least as long as the place for it. -/
def FillsSignature (env : Env) : Prop :=
  ∀ key msg, smb2SignatureSize ≤ (env.aesCmac128 key msg).length ∧ smb2SignatureSize ≤ (env.hmacSha256 key msg).length

/-- The bytes of a request can be joined in a buffer whose size is an `int`, where they have to be. -/
def Joinable (smb2 : Smb2Context) (pdu : Smb2Pdu) : Prop :=
  smb2.dialect ≤ smb2Version0210 ∨ pdu.wireBytes.length < 2 ^ 31

theorem length_signatureOf {env : Env} (h : FillsSignature env) (smb2 : Smb2Context) (msg : Bytes) :
    (signatureOf env smb2 msg).length = smb2SignatureSize := by
  obtain ⟨haes, hhmac⟩ := h smb2.signingKey msg
  rw [signatureOf]
  split_ifs
  · exact List.length_take_of_le haes
  · exact List.length_take_of_le hhmac

/-! ### One request -/

theorem combineIovs_of_lt (overrun : Bytes) {msg : Bytes} {iovs : List Bytes}
    (h : msg.length + byteCount iovs < 2 ^ 31) :
    combineIovs overrun msg.length msg iovs = some (msg ++ iovs.flatten) := by
  induction iovs generalizing msg with
  | nil =>
      rw [combineIovs, if_neg (by omega), Int.toNat_natCast, List.take_length, List.flatten_nil, List.append_nil]
  | cons v iovs ih =>
      rw [byteCount_cons] at h
      have hint : toInt32 ((msg.length : Int) + v.length) = (msg ++ v).length := by
        rw [toInt32_of_lt (by omega) (by omega), List.length_append, Nat.cast_add]
      rw [combineIovs, if_neg (by omega), if_neg (by omega), hint, Int.toNat_natCast, List.take_length,
        ih (by rw [List.length_append]; omega), List.flatten_cons, List.append_assoc]

/-- A header of which nothing was signed yet. -/
structure Unsigned (iov : Bytes) : Prop where
  length : iov.length = smb2HeaderSize
  signature : slice iov 48 smb2SignatureSize = List.replicate smb2SignatureSize 0

theorem or_and_smb2FlagsSigned (flags : UInt32) : (flags ||| smb2FlagsSigned) &&& smb2FlagsSigned = smb2FlagsSigned := by
  rw [← UInt32.toNat_inj, UInt32.toNat_and, UInt32.toNat_or]
  refine Nat.eq_of_testBit_eq fun i => ?_
  rw [Nat.testBit_and, Nat.testBit_or]
  cases smb2FlagsSigned.toNat.testBit i <;> simp

/-- The header that a signature is computed over. -/
theorem Unsigned.setFlags {iov : Bytes} (h : Unsigned iov) (flags : UInt32) :
    Unsigned (smb2SetUint32 iov 16 flags) := by
  refine ⟨(length_smb2SetUint32 iov 16 flags).trans h.length, ?_⟩
  rw [smb2SetUint32, slice_setField_of_disjoint (by omega), h.signature]

section

variable {env : Env} {smb2 : Smb2Context} {pdu signed : Smb2Pdu} {head : Bytes} {body : List Bytes}

/-- A request whose signature was copied over its header is signed. -/
theorem signed_of_memcpy (body : List Bytes) (henv : FillsSignature env) (hunsigned : Unsigned head)
    (hflag : smb2GetUint32 head 16 0 &&& smb2FlagsSigned = smb2FlagsSigned)
    (hiovs : pdu.out.iovs = memcpy head 48 (signatureOf env smb2 (head ++ body.flatten)) :: body) :
    Signed env smb2 pdu := by
  have hsignature := length_signatureOf henv smb2 (head ++ body.flatten)
  have hhead : head.length = 64 := hunsigned.length
  have hsize : smb2SignatureSize = 16 := rfl
  have hfits : 48 + (signatureOf env smb2 (head ++ body.flatten)).length ≤ head.length := by omega
  have hlength := length_memcpy hfits
  have hwire : pdu.wireBytes = memcpy head 48 (signatureOf env smb2 (head ++ body.flatten)) ++ body.flatten := by
    rw [Smb2Pdu.wireBytes, hiovs, List.flatten_cons]
  constructor
  · rw [smb2GetUint32, getField_eq (by rw [hwire, List.length_append]; omega), hwire,
      slice_append_left (by omega), slice_memcpy_of_disjoint hfits (by omega)]
    rw [smb2GetUint32, getField_eq (by omega)] at hflag
    exact hflag
  · have hzeros : (List.replicate smb2SignatureSize (0 : UInt8)).length = 16 := List.length_replicate
    have hbare : withoutSignature pdu.wireBytes = head ++ body.flatten := by
      rw [withoutSignature, hwire, memcpy_append_left (by omega), memcpy_memcpy_self hfits (by omega),
        ← hunsigned.signature, memcpy_slice (by omega)]
    rw [hbare, hwire, slice_append_left (by omega), ← hsignature, slice_memcpy_self hfits]

theorem smb2PduAddSignature_signed (henv : FillsSignature env) (hiovs : pdu.out.iovs = head :: body)
    (hunsigned : Unsigned head) (hcommand : pdu.command ≠ .sessionSetup) (hid : smb2.sessionId ≠ 0)
    (hjoinable : Joinable smb2 pdu) (h : smb2PduAddSignature env smb2 pdu = .ok signed) : Signed env smb2 signed := by
  have hflagged := hunsigned.setFlags (pdu.header.flags ||| smb2FlagsSigned)
  have hflag : smb2GetUint32 (smb2SetUint32 head 16 (pdu.header.flags ||| smb2FlagsSigned)) 16 0 &&& smb2FlagsSigned =
      smb2FlagsSigned := by
    have hhead : head.length = 64 := hunsigned.length
    rw [smb2GetUint32, getField_smb2SetUint32 (by omega), Option.elim_some, UInt32.ofNat_toNat, or_and_smb2FlagsSigned]
  -- what is signed is the whole request
  have hjoined (overrun : Bytes) (hdialect : smb2.dialect > smb2Version0210) : combineIovs overrun 0 []
      (smb2SetUint32 head 16 (pdu.header.flags ||| smb2FlagsSigned) :: body) =
        some (smb2SetUint32 head 16 (pdu.header.flags ||| smb2FlagsSigned) ++ body.flatten) := by
    have hlt := hjoinable.resolve_left fun hle => UInt16.not_le.mpr hdialect hle
    rw [Smb2Pdu.wireBytes, hiovs, List.flatten_cons, List.length_append, length_flatten_eq_byteCount] at hlt
    refine @combineIovs_of_lt overrun [] _ ?_
    rw [byteCount_cons, length_smb2SetUint32, List.length_nil, Nat.zero_add]
    exact hlt
  have hlength : List.length head = smb2HeaderSize := hunsigned.length
  simp only [smb2PduAddSignature, hiovs, List.modify_zero_cons, if_neg hcommand, List.headD_cons, hlength, if_neg hid] at h
  by_cases hdialect : smb2.dialect > smb2Version0210
  · simp only [hdialect, hjoined _ hdialect] at h
    split_ifs at h
    cases h
    refine signed_of_memcpy body henv hflagged hflag ?_
    rw [signatureOf, if_pos hdialect]
    rfl
  · simp only [hdialect, false_and, if_false] at h
    split_ifs at h
    cases h
    refine signed_of_memcpy body henv hflagged hflag ?_
    rw [signatureOf, if_neg hdialect]
    rfl

end

/-! ### Encoding -/

/-- A request as it is built: an empty header before its body, and no signature. -/
structure Smb2Pdu.Unencoded (pdu : Smb2Pdu) : Prop where
  protocolId : pdu.header.protocolId = magic
  signature : pdu.header.signature = List.replicate smb2SignatureSize 0
  iovs : ∃ body, pdu.out.iovs = List.replicate smb2HeaderSize 0 :: body

theorem unencoded_createPdu (smb2 : Smb2Context) (spec : RequestSpec) : (createPdu smb2 spec).Unencoded := by
  obtain ⟨pad, hiovs⟩ := iovs_createPdu smb2 spec
  refine ⟨?_, ?_, spec.body ++ pad, hiovs⟩
  · simp only [createPdu, Smb2Pdu.new]
    split_ifs <;> rfl
  · simp only [createPdu, Smb2Pdu.new]
    split_ifs <;> rfl

theorem unencoded_createChain (smb2 : Smb2Context) (first : RequestSpec) (others : List RequestSpec) :
    ∀ pdu ∈ (createChain smb2 first others).members, pdu.Unencoded :=
  forall_mem_createChain (fun _ _ _ h => ⟨h.protocolId, h.signature, h.iovs⟩) first
    fun spec _ => unencoded_createPdu smb2 spec

theorem unsigned_write {h : Smb2Header} (hprotocolId : h.protocolId = magic)
    (hsignature : h.signature = List.replicate smb2SignatureSize 0) :
    Unsigned (h.write (List.replicate smb2HeaderSize 0)) := by
  have hlength : (memcpy (List.replicate smb2HeaderSize 0) 0 magic).length = 64 := length_memcpy (by decide)
  have hzeros : (List.replicate smb2SignatureSize (0 : UInt8)).length = 16 := List.length_replicate
  rw [Smb2Header.write, hprotocolId, hsignature]
  constructor
  · rw [length_memcpy]
    · split_ifs <;> simp [hlength]
    · rw [hzeros]
      split_ifs <;> simp [hlength]
  · rw [← hzeros]
    refine slice_memcpy_self ?_
    rw [hzeros]
    split_ifs <;> simp [hlength]

/-- Encoding the header of a request leaves its size. -/
theorem Smb2Pdu.Unencoded.encodeHeader {pdu : Smb2Pdu} (h : pdu.Unencoded) (smb2 : Smb2Context) :
    ∃ head body, (encodeHeader smb2 pdu).2.out.iovs = head :: body ∧ Unsigned head ∧
      (CodeStudy.Samba.encodeHeader smb2 pdu).2.wireBytes.length = pdu.wireBytes.length := by
  obtain ⟨body, hiovs⟩ := h.iovs
  have hunsigned := @unsigned_write { pdu.header with messageId := smb2.messageId } h.protocolId h.signature
  have hencoded : (CodeStudy.Samba.encodeHeader smb2 pdu).2.out.iovs =
      Smb2Header.write { pdu.header with messageId := smb2.messageId } (List.replicate smb2HeaderSize 0) :: body := by
    rw [CodeStudy.Samba.encodeHeader, hiovs]
    rfl
  refine ⟨_, body, hencoded, hunsigned, ?_⟩
  rw [wireBytes, wireBytes, hencoded, hiovs, List.flatten_cons, List.flatten_cons, List.length_append,
    List.length_append, hunsigned.length, List.length_replicate]

theorem encodeMembers_signed {env : Env} (henv : FillsSignature env) {smb2 smb2' : Smb2Context}
    {pdus encoded : List Smb2Pdu} (hrequired : smb2.signingRequired ≠ 0) (hid : smb2.sessionId ≠ 0)
    (hpdus : ∀ pdu ∈ pdus, pdu.Unencoded ∧ pdu.command ≠ .sessionSetup ∧ Joinable smb2 pdu)
    (h : encodeMembers env smb2 pdus = (none, smb2', encoded)) : ∀ pdu ∈ encoded, Signed env smb2 pdu := by
  induction pdus generalizing smb2 smb2' encoded with
  | nil =>
      cases h
      exact List.forall_mem_nil _
  | cons pdu pdus ih =>
      obtain ⟨⟨hunencoded, hcommand, hjoinable⟩, hpdus⟩ := List.forall_mem_cons.mp hpdus
      obtain ⟨head, body, hiovs, hunsigned, hlength⟩ := hunencoded.encodeHeader smb2
      have hjoinable' : Joinable (encodeHeader smb2 pdu).1 (encodeHeader smb2 pdu).2 := by
        rw [Joinable, hlength]
        exact hjoinable
      simp only [encodeMembers] at h
      rw [if_pos (show (encodeHeader smb2 pdu).1.signingRequired ≠ 0 from hrequired)] at h
      split at h
      · cases h
      · rename_i signed hsigned
        have hfirst : Signed env (encodeHeader smb2 pdu).1 signed :=
          smb2PduAddSignature_signed henv hiovs hunsigned hcommand hid hjoinable' hsigned
        cases hrest : encodeMembers env (encodeHeader smb2 pdu).1 pdus with
        | mk err rest =>
            obtain ⟨smb2₁, encoded₁⟩ := rest
            rw [hrest] at h
            cases h
            have hothers : ∀ pdu' ∈ encoded₁, Signed env (encodeHeader smb2 pdu).1 pdu' :=
              @ih (encodeHeader smb2 pdu).1 smb2₁ encoded₁ hrequired hid hpdus hrest
            refine List.forall_mem_cons.mpr ⟨⟨hfirst.flag, hfirst.signature⟩, fun pdu' hmem => ?_⟩
            exact ⟨(hothers pdu' hmem).flag, (hothers pdu' hmem).signature⟩

/-! ### Runs -/

/-- Requests have to be signed: signing is required in a session, and they are not about the session
itself. -/
def SigningDue (smb2 : Smb2Context) (specs : List RequestSpec) : Prop :=
  smb2.signingRequired ≠ 0 ∧ smb2.sessionId ≠ 0 ∧ ∀ spec ∈ specs, spec.command ≠ .sessionSetup

/-- A moment of a run at which a chain was queued. -/
def QueuedDuring (env : Env) (w w' : World) (smb2 : Smb2Context) (first : RequestSpec) (others : List RequestSpec)
    (chain : PduChain) : Prop :=
  ∃ w₁ w₂, ClientSteps env w w₁ ∧ w₁.smb2 = smb2 ∧
    smb2QueuePdu env w₁ (createChain smb2 first others) = (none, w₂) ∧ w₂.trace = .queued chain :: w₁.trace ∧
    ClientSteps env w₂ w'

/-- Every chain that was sent was queued before, nothing changed in it since, and when it had to be signed
and met a condition then, each of its requests is signed. -/
structure SendsSigned (env : Env) (Condition : Smb2Context → Smb2Pdu → Prop) (w w' : World) (chain : PduChain) :
    Prop where
  bytes : chain.wireBytes = beBytes smb2SplSize chain.getReqNBLength.toNat ++ chain.members.flatMap Smb2Pdu.wireBytes
  queued : ∃ smb2 first others, QueuedDuring env w w' smb2 first others chain
  signed : ∀ smb2 first others, QueuedDuring env w w' smb2 first others chain → SigningDue smb2 (first :: others) →
    (∀ pdu ∈ (createChain smb2 first others).members, Condition smb2 pdu) →
    ∀ pdu ∈ chain.members, Signed env smb2 pdu

theorem PduChain.wireBytes_eq (chain : PduChain) : chain.wireBytes =
    beBytes smb2SplSize chain.getReqNBLength.toNat ++ chain.members.flatMap Smb2Pdu.wireBytes := by
  have hmembers : (chain.members.flatMap fun pdu => pdu.out.iovs).flatten = chain.members.flatMap Smb2Pdu.wireBytes := by
    rw [List.flatten_eq_flatMap, List.flatMap_assoc]
    exact List.flatMap_congr fun pdu _ => List.flatMap_id
  rw [wireBytes, iovs_getAllComOutVecs, hmembers]

/-- A chain that was queued is the one that was given, encoded. -/
theorem encodeMembers_of_queued {env : Env} {w w' : World} {chain queued : PduChain}
    (h : smb2QueuePdu env w chain = (none, w')) (htrace : w'.trace = .queued queued :: w.trace) :
    ∃ smb2, encodeMembers env w.smb2 chain.members = (none, smb2, queued.members) := by
  rw [smb2QueuePdu] at h
  split at h
  · cases h
  · rename_i smb2 encoded hencode
    cases h
    have hlength := (encodeMembers_spec hencode).all rfl
    rw [PduChain.members, List.length_cons] at hlength
    obtain ⟨pdu, pdus, rfl⟩ := List.exists_cons_of_length_eq_add_one hlength
    rw [World.log, List.cons.injEq, Event.queued.injEq] at htrace
    rw [hencode, ← htrace.1]
    exact ⟨smb2, rfl⟩

theorem QueuedDuring.step {env : Env} {w w' w'' : World} {smb2 : Smb2Context} {first : RequestSpec}
    {others : List RequestSpec} {chain : PduChain} (h : QueuedDuring env w w' smb2 first others chain)
    (hstep : ClientStep env w' w'') : QueuedDuring env w w'' smb2 first others chain := by
  obtain ⟨w₁, w₂, hbefore, hsmb2, hqueue, htrace, hafter⟩ := h
  exact ⟨w₁, w₂, hbefore, hsmb2, hqueue, htrace, hafter.tail hstep⟩

theorem command_of_mem_createChain {smb2 : Smb2Context} {first : RequestSpec} {others : List RequestSpec}
    {command : Smb2Command} (h : ∀ spec ∈ first :: others, spec.command ≠ command) :
    ∀ pdu ∈ (createChain smb2 first others).members, pdu.command ≠ command :=
  forall_mem_createChain (fun _ _ _ h => h) first h

/-- A chain that was queued when it had to be signed is signed. -/
theorem QueuedDuring.signed {env : Env} (henv : FillsSignature env) {w w' : World} {smb2 : Smb2Context}
    {first : RequestSpec} {others : List RequestSpec} {chain : PduChain}
    (h : QueuedDuring env w w' smb2 first others chain) (hdue : SigningDue smb2 (first :: others))
    (hjoinable : ∀ pdu ∈ (createChain smb2 first others).members, Joinable smb2 pdu) :
    ∀ pdu ∈ chain.members, Signed env smb2 pdu := by
  obtain ⟨w₁, w₂, -, rfl, hqueue, htrace, -⟩ := h
  obtain ⟨hrequired, hid, hcommand⟩ := hdue
  obtain ⟨smb2', hencode⟩ := encodeMembers_of_queued hqueue htrace
  have hunencoded := unencoded_createChain w₁.smb2 first others
  have hcommands := @command_of_mem_createChain w₁.smb2 first others _ hcommand
  exact encodeMembers_signed henv hrequired hid
    (fun pdu hpdu => ⟨hunencoded pdu hpdu, hcommands pdu hpdu, hjoinable pdu hpdu⟩) hencode

/-- What is known throughout a run of the chains that are queued and of those that were sent. -/
structure ChainsQueued (env : Env) (w w' : World) : Prop where
  outqueue : ∀ key chain, w'.smb2.outqueue.lookup key = some chain →
    ∃ smb2 first others, QueuedDuring env w w' smb2 first others chain
  transmitted : ∀ dialect credits chain, .transmitted dialect credits chain ∈ w'.trace →
    ∃ smb2 first others, QueuedDuring env w w' smb2 first others chain

theorem chainsQueued_of_steps {env : Env} {w w' : World} (hstart : CleanStart w) (h : ClientSteps env w w') :
    ChainsQueued env w w' := by
  induction h with
  | refl =>
      refine ⟨fun key chain hchain => ?_, fun dialect credits chain hsent => ?_⟩
      · rw [hstart.outqueue] at hchain
        cases hchain
      · rw [hstart.trace] at hsent
        cases hsent
  | @tail w₁ w₂ hbefore hstep ih =>
      have hkept {chain : PduChain} (h : ∃ smb2 first others, QueuedDuring env w w₁ smb2 first others chain) :
          ∃ smb2 first others, QueuedDuring env w w₂ smb2 first others chain := by
        obtain ⟨smb2, first, others, h⟩ := h
        exact ⟨smb2, first, others, h.step hstep⟩
      cases hstep.queueStep with
      | idle evs htrace hevs hout hwait hcredits =>
          refine ⟨fun key chain hchain => ?_, fun dialect credits chain hsent => ?_⟩
          · rw [hout] at hchain
            exact hkept (ih.outqueue key chain hchain)
          · rw [htrace, List.mem_append] at hsent
            exact hkept (ih.transmitted _ _ _ (hsent.resolve_left fun hmem => by cases hevs _ hmem))
      | connect conn =>
          refine ⟨fun key chain hchain => hkept (ih.outqueue key chain hchain), fun dialect credits chain hsent => ?_⟩
          exact hkept (ih.transmitted _ _ _ (by simpa [World.connect, World.log] using hsent))
      | queue first others hqueue =>
          obtain ⟨smb2, encoded, -, ⟨rfl, queued, -, rfl⟩ | ⟨-, rfl⟩⟩ := smb2QueuePdu_cases hqueue
          · refine ⟨fun key chain hchain => ?_, fun dialect credits chain hsent => ?_⟩
            · rw [World.log, OrdMap.lookup_insert] at hchain
              split_ifs at hchain with hkey
              · cases hchain
                exact ⟨w₁.smb2, first, others, w₁, _, hbefore, rfl, hqueue, rfl, .refl⟩
              · exact hkept (ih.outqueue key chain hchain)
            · exact hkept (ih.transmitted _ _ _ (by simpa [World.log] using hsent))
          · refine ⟨fun key chain hchain => hkept (ih.outqueue key chain hchain), fun dialect credits chain hsent => ?_⟩
            exact hkept (ih.transmitted _ _ _ (by simpa [World.log] using hsent))
      | accept offset hwaiting =>
          refine ⟨fun key chain hchain => hkept (ih.outqueue key chain hchain), fun dialect credits chain hsent => ?_⟩
          exact hkept (ih.transmitted _ _ _ (by simpa [World.accept, World.log] using hsent))
      | @transmit key chain hchain hcredits =>
          obtain ⟨evs, htrace, hevs, -⟩ := trace_transmit w₁ key chain
          refine ⟨fun key' chain' hchain' => ?_, fun dialect credits chain' hsent => ?_⟩
          · rw [outqueue_transmit, OrdMap.lookup_erase] at hchain'
            split_ifs at hchain'
            exact hkept (ih.outqueue key' chain' hchain')
          · rw [htrace, List.mem_append, List.mem_cons, Event.transmitted.injEq] at hsent
            obtain hsent | ⟨-, -, rfl⟩ | hsent := hsent
            · obtain ⟨credits', pdu, -, heq⟩ := hevs _ hsent
              cases heq
            · exact hkept (ih.outqueue key _ hchain)
            · exact hkept (ih.transmitted _ _ _ hsent)
      | @requeue key chain hchain =>
          refine ⟨fun key' chain' hchain' => ?_, fun dialect credits chain' hsent => hkept (ih.transmitted _ _ _ hsent)⟩
          rw [World.requeue, OrdMap.lookup_insert, OrdMap.lookup_erase] at hchain'
          split_ifs at hchain'
          · cases hchain'
            exact hkept (ih.outqueue key _ hchain)
          · exact hkept (ih.outqueue key' chain' hchain')

/-- In every run, each chain that is sent is signed as it was queued, provided that its requests can be joined
in a buffer when that is how they are signed. -/
theorem sendsSigned_of_run {env : Env} (henv : FillsSignature env) {ops : List ClientOp} {w w' : World}
    (hstart : CleanStart w) (hrun : ClientOp.run env ops w = some w') {dialect : UInt16} {credits : UInt32}
    {chain : PduChain} (hsent : .transmitted dialect credits chain ∈ w'.trace) :
    SendsSigned env Joinable w w' chain where
  bytes := chain.wireBytes_eq
  queued := (chainsQueued_of_steps hstart (ClientOp.run_steps hrun)).transmitted dialect credits chain hsent
  signed := fun _ _ _ hqueued hdue hjoinable => hqueued.signed henv hdue hjoinable

/-- Two requests that are signed and sent. -/
def signedEchoes : List ClientOp := twoEchoes ++ [.send (List.replicate 12 (.wrote 128))]

theorem sendsSigned_signedEchoes :
    ∃ w chain, ClientOp.run plainEnv signedEchoes (idleClient 1) = some w ∧
      SendsSigned plainEnv Joinable (idleClient 1) w chain := by
  have haes : 16 ≤ (List.replicate 16 (0 : UInt8)).length := by decide
  have hhmac : 16 ≤ (List.replicate 32 (0 : UInt8)).length := by decide
  have henv : FillsSignature plainEnv := fun _ _ => ⟨haes, hhmac⟩
  have hany : (ClientOp.run plainEnv signedEchoes (idleClient 1)).any (fun w =>
      w.trace.any fun event => match event with
        | .transmitted .. => true
        | _ => false) = true := by decide
  obtain ⟨w, hw, hsent⟩ := (Option.any_eq_true _ _).mp hany
  obtain ⟨event, hmem, hevent⟩ := List.any_eq_true.mp hsent
  cases event with
  | transmitted dialect credits chain =>
      exact ⟨w, chain, hw, sendsSigned_of_run henv ⟨rfl, rfl, rfl⟩ hw hmem⟩
  | _ => cases hevent

/-! ### A request that is too long -/

/-- The last vector makes the size of the buffer negative. -/
theorem combineIovs_of_le (overrun : Bytes) {msg : Bytes} {iovs : List Bytes} {last : Bytes}
    (h : msg.length + byteCount iovs < 2 ^ 31) (hle : 2 ^ 31 ≤ msg.length + byteCount iovs + last.length)
    (hlt : msg.length + byteCount iovs + last.length < 2 ^ 32) :
    combineIovs overrun msg.length msg (iovs ++ [last]) = some overrun := by
  induction iovs generalizing msg with
  | nil =>
      rw [byteCount_nil, Nat.add_zero] at h hle hlt
      have hneg : toInt32 ((msg.length : Int) + last.length) < 0 := toInt32_neg (by omega) (by omega)
      rw [List.nil_append, combineIovs, if_neg (by omega), if_neg (by omega), combineIovs, if_pos hneg]
  | cons v iovs ih =>
      rw [byteCount_cons] at h hle hlt
      have hint : toInt32 ((msg.length : Int) + v.length) = (msg ++ v).length := by
        rw [toInt32_of_lt (by omega) (by omega), List.length_append, Nat.cast_add]
      have hlength : (msg ++ v).length = msg.length + v.length := List.length_append
      rw [List.cons_append, combineIovs, if_neg (by omega), if_neg (by omega), hint, Int.toNat_natCast,
        List.take_length]
      exact ih (by omega) (by omega) (by omega)

/-- A client with many credits, in a session that has to be signed. -/
def writingClient : World where
  smb2 := { Smb2Context.fresh smb2Version0311 with
    sessionId := 1, sessionKeySize := 16, signingRequired := 1, credits := 40000, supportsMultiCredit := true }
  socket := { fd := some { rx := [], writevs := [] }, bConnected := true }

/-- A WRITE request of `n` bytes. -/
def longWrite (n : Nat) : RequestSpec where
  command := .write
  appData := 0
  body := [List.replicate 48 0, List.replicate n 0]
  payloadLength := UInt32.ofNat n

/-- The code of the empty message is different from that of any other. -/
def emptyOverrun : Env := { plainEnv with aesCmac128 := fun _ msg => List.replicate 16 (if msg = [] then 1 else 0) }

theorem iovs_longWrite {n : Nat} (h : n % 8 = 0) (smb2 : Smb2Context) :
    (createPdu smb2 (longWrite n)).out.iovs =
      [List.replicate smb2HeaderSize 0, List.replicate 48 0, List.replicate n 0] := by
  have hsize : byteCount [List.replicate smb2HeaderSize 0, List.replicate 48 0, List.replicate n 0] % 8 = 0 := by
    simp only [byteCount_cons, byteCount_nil, List.length_replicate]
    show (64 + (48 + (n + 0))) % 8 = 0
    omega
  simp only [createPdu, Smb2Pdu.new, longWrite, Smb2IoVectors.smb2PadTo64bit, List.foldl_cons, List.foldl_nil,
    Smb2IoVectors.smb2AddIovector, List.nil_append, List.cons_append, hsize, if_true]

/-- Sending the only chain of the queue. -/
theorem transmitted_of_single (env : Env) {w : World} {conn : Connection} {key : Nat} {chain : PduChain}
    (hfd : w.socket.fd = some conn) (hentries : w.smb2.outqueue.entries = [(key, chain)]) (hfits : FrameFits chain)
    (hout : ∀ p ∈ chain.members, p.out.Counted) (hcredits : ¬ insufficientCredits w.smb2 chain)
    (hfull : ∀ v ∈ chain.getAllComOutVecs.iovs, v ≠ []) :
    ∃ writevs w', (ClientOp.send writevs).perform env w = some w' ∧
      .transmitted w.smb2.dialect w.smb2.credits chain ∈ w'.trace := by
  let writevs := (beBytes smb2SplSize chain.getReqNBLength.toNat :: chain.getAllComOutVecs.iovs).map fun v =>
    WritevOutcome.wrote v.length
  have hsend := @sendPdu_whole { w.smb2 with outqueue := w.smb2.outqueue.erase key } chain { conn with rx := [] } hfits
    hout hcredits hfull
  have hfd' : (w.supply [] writevs).socket.fd = some { conn with rx := [], writevs } := by
    rw [World.supply, Smb2Socket.supply, hfd]
    rfl
  have hentries' : (w.supply [] writevs).smb2.outqueue.entries = [(key, chain)] := hentries
  have hsend' : sendPdu { w.smb2 with outqueue := w.smb2.outqueue.erase key } (w.supply [] writevs).socket.fd chain =
      some (0, some { conn with rx := [], writevs := [], tx := conn.tx ++ chain.wireBytes }) := by
    rw [hfd']
    exact hsend
  -- the world in which the chain is on the wire
  let taken : World := { (w.supply [] writevs) with
    smb2 := { w.smb2 with outqueue := w.smb2.outqueue.erase key }
    socket := { (w.supply [] writevs).socket with
      fd := some { conn with rx := [], writevs := [], tx := conn.tx ++ chain.wireBytes } } }
  let sent := smb2PduAddToWaitqueue chain.members
    (taken.log (.transmitted w.smb2.dialect w.smb2.credits chain))
  have hsends : sendPdus (w.supply [] writevs) = some (0, sent) := by
    have hwaiting : (w.supply [] writevs).smb2 = w.smb2 := rfl
    rw [sendPdus, hentries', sendChains, hwaiting]
    simp only [hsend']
    rfl
  refine ⟨writevs, sent, ?_, ?_⟩
  · rw [ClientOp.perform, hsends]
    rfl
  · obtain ⟨evs, htrace, -, -⟩ := trace_smb2PduAddToWaitqueue chain.members
      (taken.log (.transmitted w.smb2.dialect w.smb2.credits chain))
    rw [htrace]
    exact List.mem_append_right _ List.mem_cons_self

theorem smb2PduAddSignature_eq {env : Env} {smb2 : Smb2Context} {pdu : Smb2Pdu} {head msg : Bytes} {body : List Bytes}
    (hiovs : pdu.out.iovs = head :: body) (hbody : body ≠ []) (hhead : head.length = smb2HeaderSize)
    (hcommand : pdu.command ≠ .sessionSetup) (hid : smb2.sessionId ≠ 0) (hkey : smb2.sessionKeySize ≠ 0)
    (hdialect : smb2.dialect > smb2Version0210) (halloc : env.alloc .signBuffer smb2 = true)
    (hmsg : combineIovs (env.overrun (smb2SetUint32 head 16 (pdu.header.flags ||| smb2FlagsSigned) :: body)) 0 []
      (smb2SetUint32 head 16 (pdu.header.flags ||| smb2FlagsSigned) :: body) = some msg) :
    ∃ signed, smb2PduAddSignature env smb2 pdu = .ok signed ∧ signed.out.totalSize = pdu.out.totalSize ∧
      signed.header.creditCharge = pdu.header.creditCharge ∧
      signed.out.iovs = memcpy (smb2SetUint32 head 16 (pdu.header.flags ||| smb2FlagsSigned)) 48
        ((env.aesCmac128 smb2.signingKey msg).take smb2SignatureSize) :: body := by
  have hfew : ¬ (head :: body).length < 2 := by
    have := List.length_pos_iff.mpr hbody
    rw [List.length_cons]
    omega
  refine ⟨{ pdu with
    header := { pdu.header with
      flags := pdu.header.flags ||| smb2FlagsSigned
      signature := (env.aesCmac128 smb2.signingKey msg).take smb2SignatureSize }
    out := { pdu.out with
      iovs := memcpy (smb2SetUint32 head 16 (pdu.header.flags ||| smb2FlagsSigned)) 48
        ((env.aesCmac128 smb2.signingKey msg).take smb2SignatureSize) :: body } }, ?_, rfl, rfl, rfl⟩
  simp only [smb2PduAddSignature, hiovs, List.modify_zero_cons, if_neg hcommand, if_neg hfew, List.headD_cons, hhead,
    ne_eq, not_true_eq_false, if_false, if_neg hid, if_neg hkey, hdialect, halloc, hmsg, true_and, Bool.true_eq_false,
    reduceCtorEq, or_self, if_true, Option.getD_some]

/-- The signature of the empty message is not that of a request. -/
theorem not_signed_of_overrun {smb2 : Smb2Context} {pdu : Smb2Pdu} {head : Bytes} {body : List Bytes}
    (hhead : head.length = smb2HeaderSize) (hdialect : smb2.dialect > smb2Version0210)
    (hiovs : pdu.out.iovs = memcpy head 48 (List.replicate 16 1) :: body) : ¬ Signed emptyOverrun smb2 pdu := by
  intro h
  have hones : (List.replicate 16 (1 : UInt8)).length = 16 := List.length_replicate
  have hsixtyfour : head.length = 64 := hhead
  have hfits : 48 + (List.replicate 16 (1 : UInt8)).length ≤ head.length := by omega
  have hwire : pdu.wireBytes = memcpy head 48 (List.replicate 16 1) ++ body.flatten := by
    rw [Smb2Pdu.wireBytes, hiovs, List.flatten_cons]
  have hsignature : slice pdu.wireBytes 48 smb2SignatureSize = List.replicate 16 1 := by
    rw [hwire, slice_append_left (by rw [length_memcpy hfits]; show 48 + 16 ≤ _; omega)]
    exact slice_memcpy_self hfits
  have hne : withoutSignature pdu.wireBytes ≠ [] := by
    intro hnil
    have hlength := congrArg List.length hnil
    rw [withoutSignature, memcpy, List.length_append, List.length_append, List.length_replicate] at hlength
    exact absurd hlength (by show ¬ _ + 16 + _ = 0; omega)
  have hcode := h.signature
  rw [hsignature, signatureOf, if_pos hdialect, emptyOverrun] at hcode
  simp only [if_neg hne] at hcode
  exact absurd hcode (by decide)

/-- The request is encoded with the signature of the empty message. -/
theorem encodeMembers_longWrite {n : Nat} (hn : n + 112 = 2 ^ 31) :
    ∃ queued head smb2, encodeMembers emptyOverrun writingClient.smb2
        (createChain writingClient.smb2 (longWrite n) []).members = (none, smb2, [queued]) ∧
      smb2 = { writingClient.smb2 with messageId := smb2.messageId } ∧ head.length = smb2HeaderSize ∧
      queued.out.Counted ∧
      queued.header.creditCharge = (createPdu writingClient.smb2 (longWrite n)).header.creditCharge ∧
      queued.out.iovs = [memcpy head 48 (List.replicate 16 1), List.replicate 48 0, List.replicate n 0] := by
  have hbuilt := @iovs_longWrite n (by omega) writingClient.smb2
  have hcounted := counted_createPdu writingClient.smb2 (longWrite n)
  let pdu := (encodeHeader writingClient.smb2 (createPdu writingClient.smb2 (longWrite n))).2
  obtain ⟨head, body, hiovs, hunsigned, -⟩ := (unencoded_createPdu writingClient.smb2 (longWrite n)).encodeHeader
    writingClient.smb2
  have hbody : body = [List.replicate 48 0, List.replicate n 0] := by
    have hiovs' := hiovs
    rw [encodeHeader, hbuilt] at hiovs'
    exact (List.cons.inj hiovs').2.symm
  have hflagged := hunsigned.setFlags (pdu.header.flags ||| smb2FlagsSigned)
  have hmsg := @combineIovs_of_le [] [] [smb2SetUint32 head 16 (pdu.header.flags ||| smb2FlagsSigned),
    List.replicate 48 0] (List.replicate n 0)
  simp only [byteCount_cons, byteCount_nil, hflagged.length, List.length_nil, List.length_replicate] at hmsg
  have hsixtyfour : smb2HeaderSize = 64 := rfl
  obtain ⟨signed, hsigned, htotal, hcharge, hsignedIovs⟩ := @smb2PduAddSignature_eq emptyOverrun
    (encodeHeader writingClient.smb2 (createPdu writingClient.smb2 (longWrite n))).1 pdu head [] body hiovs
    (by rw [hbody]; exact List.cons_ne_nil _ _) hunsigned.length (fun h => by cases h) (fun h => by cases h)
    (fun h => by cases h) (by decide : smb2Version0311 > smb2Version0210) rfl (by rw [hbody]; exact hmsg (by omega) (by omega) (by omega))
  have hencode : encodeMembers emptyOverrun writingClient.smb2
      (createChain writingClient.smb2 (longWrite n) []).members =
        (none, (encodeHeader writingClient.smb2 (createPdu writingClient.smb2 (longWrite n))).1, [signed]) := by
    have hrequired : (encodeHeader writingClient.smb2
        (createPdu writingClient.smb2 (longWrite n))).1.signingRequired ≠ 0 := fun h => by cases h
    show encodeMembers emptyOverrun writingClient.smb2 [createPdu writingClient.smb2 (longWrite n)] = _
    simp only [encodeMembers]
    rw [if_pos hrequired, hsigned]
  refine ⟨signed, smb2SetUint32 head 16 (pdu.header.flags ||| smb2FlagsSigned), _, hencode, rfl, hflagged.length, ?_,
    hcharge, ?_⟩
  · have hones : (List.replicate 16 (1 : UInt8)).length = 16 := List.length_replicate
    have hcopied : (memcpy (smb2SetUint32 head 16 (pdu.header.flags ||| smb2FlagsSigned)) 48
        (List.replicate 16 1)).length = smb2HeaderSize := by
      rw [length_memcpy (by rw [hones, hflagged.length]), hflagged.length]
    rw [Smb2IoVectors.Counted, htotal, hsignedIovs, hbody]
    show (createPdu writingClient.smb2 (longWrite n)).out.totalSize = byteCount
      [memcpy (smb2SetUint32 head 16 (pdu.header.flags ||| smb2FlagsSigned)) 48 (List.replicate 16 1),
        List.replicate 48 0, List.replicate n 0]
    rw [show (createPdu writingClient.smb2 (longWrite n)).out.totalSize = _ from hcounted, hbuilt]
    simp only [byteCount_cons, hcopied, List.length_replicate]
  · rw [hsignedIovs, hbody]
    rfl

/-- Such a request costs 32768 credits. -/
theorem creditCharge_longWrite {n : Nat} (hn : n + 112 = 2 ^ 31) :
    (createPdu writingClient.smb2 (longWrite n)).header.creditCharge = 32768 := by
  have hpayload : UInt32.ofNat n = 2147483536 := by
    rw [show n = 2147483536 by omega]
    rfl
  show ((UInt32.ofNat n - 1) / 65536 + 1).toUInt16 = 32768
  rw [hpayload]
  rfl

/-- A WRITE request of 2 ^ 31 bytes in all is sent with a signature that is not its own. -/
theorem not_sendsSigned_longWrite : FillsSignature emptyOverrun ∧ CleanStart writingClient ∧
    ∃ writevs w dialect credits chain, ClientOp.run emptyOverrun
        [.request (longWrite (2 ^ 31 - 112)) [], .send writevs] writingClient = some w ∧
      .transmitted dialect credits chain ∈ w.trace ∧
      ¬ SendsSigned emptyOverrun (fun _ _ => True) writingClient w chain := by
  have haes (b : UInt8) : 16 ≤ (List.replicate 16 b).length := by rw [List.length_replicate]
  have hhmac : 16 ≤ (List.replicate 32 (0 : UInt8)).length := by decide
  refine ⟨fun _ _ => ⟨haes _, hhmac⟩, ⟨rfl, rfl, rfl⟩, ?_⟩
  obtain ⟨n, hlong, hn⟩ : ∃ n, n = 2 ^ 31 - 112 ∧ n + 112 = 2 ^ 31 := ⟨_, rfl, by omega⟩
  rw [← hlong]
  obtain ⟨queued, head, smb2, hencode, hsmb2, hhead, hcounted, hcharge, hiovs⟩ := encodeMembers_longWrite hn
  obtain ⟨id, rfl⟩ : ∃ id, smb2 = { writingClient.smb2 with messageId := id } := ⟨_, hsmb2⟩
  let chain : PduChain := ⟨queued, []⟩
  let w₂ : World := { writingClient with smb2 := { writingClient.smb2 with
    messageId := id
    outqueue := writingClient.smb2.outqueue.insert queued.messageId chain } }.log (.queued chain)
  have hqueue : smb2QueuePdu emptyOverrun writingClient (createChain writingClient.smb2 (longWrite n) []) =
      (none, w₂) := by
    rw [smb2QueuePdu, hencode]
    rfl
  have hall : chain.getAllComOutVecs.iovs =
      [memcpy head 48 (List.replicate 16 1), List.replicate 48 0, List.replicate n 0] := by
    rw [PduChain.iovs_getAllComOutVecs, ← hiovs]
    exact List.append_nil _
  have hones : (List.replicate 16 (1 : UInt8)).length = 16 := List.length_replicate
  have hsixtyfour : head.length = 64 := hhead
  have hcopied : (memcpy head 48 (List.replicate 16 1)).length = 64 := by
    rw [length_memcpy (by omega), hsixtyfour]
  have hsizes : ∀ v ∈ chain.getAllComOutVecs.iovs, 0 < v.length ∧ v.length < 2 ^ 31 := by
    rw [hall]
    simp only [List.forall_mem_cons, List.not_mem_nil, false_implies, implies_true, hcopied, List.length_replicate,
      and_true]
    omega
  have hfits : FrameFits chain := by
    refine ⟨fun v hv => (hsizes v hv).2, ?_, ?_⟩
    · rw [hall]
      simp only [byteCount_cons, byteCount_nil, hcopied, List.length_replicate]
      show 4 + (64 + (48 + (n + 0))) < 2 ^ 32
      omega
    · rw [hall]
      show 3 < 2 ^ 32
      omega
  have hcredits : ¬ insufficientCredits w₂.smb2 chain := by
    rintro ⟨-, hmore⟩
    have hmore' : queued.header.creditCharge.toUInt32 > 40000 := hmore
    rw [hcharge, creditCharge_longWrite hn] at hmore'
    exact absurd hmore' (by decide)
  obtain ⟨writevs, w, hsend, hsent⟩ := @transmitted_of_single emptyOverrun w₂ _ queued.messageId chain rfl rfl hfits
    (fun p hp => by rw [List.mem_singleton.mp hp]; exact hcounted) hcredits
    (fun v hv => List.length_pos_iff.mp (hsizes v hv).1)
  have hrequest : (ClientOp.request (longWrite n) []).perform emptyOverrun writingClient = some w₂ := by
    rw [ClientOp.perform, hqueue]
    rfl
  have hrun : ClientOp.run emptyOverrun [.request (longWrite n) [], .send writevs] writingClient = some w := by
    rw [ClientOp.run, hrequest, Option.bind_some, ClientOp.run, hsend]
    rfl
  refine ⟨writevs, w, _, _, chain, hrun, hsent, fun h => ?_⟩
  have hafter : ClientOp.run emptyOverrun [.send writevs] w₂ = some w := by
    rw [ClientOp.run, hsend]
    rfl
  have hduring : QueuedDuring emptyOverrun writingClient w writingClient.smb2 (longWrite n) [] chain :=
    ⟨writingClient, w₂, .refl, rfl, hqueue, rfl, ClientOp.run_steps hafter⟩
  have hdue : SigningDue writingClient.smb2 [longWrite n] := by
    refine ⟨(fun h => by cases h), (fun h => by cases h), fun spec hspec => ?_⟩
    rw [List.mem_singleton.mp hspec]
    exact fun h => by cases h
  have hsigned := h.signed _ _ _ hduring hdue (fun _ _ => trivial) queued List.mem_cons_self
  exact not_signed_of_overrun hhead (by decide) hiovs hsigned

end CodeStudy.Samba
