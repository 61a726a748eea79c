import CodeStudy.Samba.Compound
import CodeStudy.Samba.ExchangeRule
import CodeStudy.Samba.OwnData
import CodeStudy.Samba.QueryInfo

/-!
# What a failed query leaves to its caller

The handler of a QUERY_INFO stores something in the structure of the call only when the server
succeeds. Nine of the thirteen calls copy from that structure whatever the status is, so when the
server refuses the query they give their caller what the stack held. The four others look at the
status first.
-/

namespace CodeStudy.Samba

/-! ### One query during an exchange -/

/-- The statuses of the answers to the requests made with the data at an address, newest first. -/
def answersTo (a : Nat) (evs : List Event) : List NtStatus :=
  evs.filterMap fun
    | .processed pdu => if pdu.appData = a then some pdu.headerResp.status else none
    | _ => none

theorem answersTo_append (a : Nat) (evs older : List Event) :
    answersTo a (evs ++ older) = answersTo a evs ++ answersTo a older := List.filterMap_append

theorem answersTo_eq_nil {a : Nat} {evs : List Event} (h : ∀ event ∈ evs, event.isReply = false) :
    answersTo a evs = [] := by
  rw [answersTo, List.filterMap_eq_nil_iff]
  intro event hevent
  have hreply := h event hevent
  cases event with
  | processed pdu => exact absurd hreply (by simp [Event.isReply])
  | _ => rfl

theorem mem_answersTo {a : Nat} {evs : List Event} {status : NtStatus} :
    status ∈ answersTo a evs ↔ ∃ pdu, .processed pdu ∈ evs ∧ pdu.appData = a ∧ pdu.headerResp.status = status := by
  simp only [answersTo, List.mem_filterMap]
  constructor
  · rintro ⟨event, hevent, hstatus⟩
    cases event with
    | processed pdu =>
        simp only [Option.ite_none_right_eq_some, Option.some.injEq] at hstatus
        exact ⟨pdu, hevent, hstatus.1, hstatus.2⟩
    | _ => cases hstatus
  · rintro ⟨pdu, hpdu, happData, hstatus⟩
    exact ⟨.processed pdu, hpdu, by simp only [happData, if_true, hstatus]⟩

section

variable (a : Nat) (info : Smb2FileInfo) (older : List Event)

/-- The query was not answered since `older`, and at most so many requests are made with its data. -/
structure Unanswered (n : Nat) (w : World) : Prop where
  load : w.smb2.load a ≤ n
  ntStatus : (w.mem.app a).ntStatus = NtStatus.success
  info : (w.mem.app a).info = some info
  answers : ∃ evs, w.trace = evs ++ older ∧ answersTo a evs = []

/-- The query was answered once since `older`. -/
structure AnsweredWith (status : NtStatus) (w : World) : Prop where
  load : w.smb2.load a = 0
  ntStatus : (w.mem.app a).ntStatus = status
  info : status ≠ NtStatus.success → (w.mem.app a).info = some info
  answers : ∃ evs, w.trace = evs ++ older ∧ answersTo a evs = [status]

def Querying (w : World) : Prop :=
  Unanswered a info older 1 w ∨ ∃ status, AnsweredWith a info older status w

/-- The reply that is being read is the answer, or it belongs to another request. -/
inductive QueryReply (pdu : Smb2Pdu) (w : World) : Prop where
  | own (happData : pdu.appData = a) (hcommand : pdu.command = .queryInfo)
      (h : Unanswered a info older 0 w)
  | other (happData : pdu.appData ≠ a) (h : Querying a info older w)

/-- Nothing of a call changes but texts. -/
structure Passes (w w' : World) : Prop where
  load : w'.smb2.load a ≤ w.smb2.load a
  ntStatus : (w'.mem.app a).ntStatus = (w.mem.app a).ntStatus
  info : (w'.mem.app a).info = (w.mem.app a).info
  answers : ∃ more, w'.trace = more ++ w.trace ∧ answersTo a more = []

end

section

variable {env : Env} {a n : Nat} {info : Smb2FileInfo} {older : List Event} {status : NtStatus}
  {w w' : World} {pdu : Smb2Pdu}

theorem Spares.passes (h : Spares a w w') (hanswers : ∃ more, w'.trace = more ++ w.trace ∧ answersTo a more = []) :
    Passes a w w' where
  load := h.load
  ntStatus := by rw [h.app]
  info := by rw [h.app]
  answers := hanswers

/-- The trace and the data are left alone. -/
theorem Passes.of_same (hmem : w'.mem = w.mem) (htrace : w'.trace = w.trace)
    (hload : w'.smb2.load a ≤ w.smb2.load a) : Passes a w w' where
  load := hload
  ntStatus := by rw [hmem]
  info := by rw [hmem]
  answers := ⟨[], htrace, rfl⟩

/-- An event that is no answer. -/
theorem Passes.log (w : World) {event : Event} (h : answersTo a [event] = []) : Passes a w (w.log event) where
  load := Nat.le_refl _
  ntStatus := rfl
  info := rfl
  answers := ⟨[event], rfl, h⟩

theorem Passes.setErrorMsg (w : World) (b : Nat) (msg : String) : Passes a w (w.setErrorMsg b msg) := by
  refine ⟨Nat.le_refl _, ?_, ?_, [], rfl, rfl⟩
  · simp only [World.setErrorMsg, Memory.setApp]
    split_ifs with hb
    · rw [hb]
    · rfl
  · simp only [World.setErrorMsg, Memory.setApp]
    split_ifs with hb
    · rw [hb]
    · rfl

theorem Unanswered.passes (h : Unanswered a info older n w) (hpasses : Passes a w w') :
    Unanswered a info older n w' where
  load := hpasses.load.trans h.load
  ntStatus := hpasses.ntStatus.trans h.ntStatus
  info := hpasses.info.trans h.info
  answers := by
    obtain ⟨evs, hevs, hnone⟩ := h.answers
    obtain ⟨more, hmore, hnone'⟩ := hpasses.answers
    exact ⟨more ++ evs, by rw [hmore, hevs, List.append_assoc], by rw [answersTo_append, hnone, hnone']; rfl⟩

theorem AnsweredWith.passes (h : AnsweredWith a info older status w) (hpasses : Passes a w w') :
    AnsweredWith a info older status w' where
  load := Nat.le_zero.mp (hpasses.load.trans h.load.le)
  ntStatus := hpasses.ntStatus.trans h.ntStatus
  info := fun hstatus => hpasses.info.trans (h.info hstatus)
  answers := by
    obtain ⟨evs, hevs, hone⟩ := h.answers
    obtain ⟨more, hmore, hnone⟩ := hpasses.answers
    exact ⟨more ++ evs, by rw [hmore, hevs, List.append_assoc], by rw [answersTo_append, hone, hnone]; rfl⟩

theorem Querying.passes (h : Querying a info older w) (hpasses : Passes a w w') : Querying a info older w' := by
  rcases h with h | ⟨status, h⟩
  · exact Or.inl (h.passes hpasses)
  · exact Or.inr ⟨status, h.passes hpasses⟩

theorem Unanswered.querying (h : Unanswered a info older n w) (hn : n ≤ 1) : Querying a info older w :=
  Or.inl { h with load := h.load.trans hn }

theorem QueryReply.querying (h : QueryReply a info older pdu w) : Querying a info older w := by
  cases h with
  | own _ _ h => exact h.querying (Nat.zero_le 1)
  | other _ h => exact h

theorem QueryReply.passes {pdu' : Smb2Pdu} (h : QueryReply a info older pdu w) (hpasses : Passes a w w')
    (happData' : pdu'.appData = pdu.appData) (hcommand' : pdu'.command = pdu.command) :
    QueryReply a info older pdu' w' := by
  cases h with
  | own happData hcommand h =>
      exact .own (happData'.trans happData) (hcommand'.trans hcommand) (h.passes hpasses)
  | other happData h => exact .other (fun heq => happData (happData'.symm.trans heq)) (h.passes hpasses)

/-- The request a header is matched to is the query and there is no other, or it is not made with the
data of the query. -/
theorem Querying.accept (h : Querying a info older w) (offset : Nat) {hdr : Smb2Header} {request : Smb2Pdu}
    (hwaiting : w.smb2.waitqueue.lookup hdr.messageId.toNat = some request) {reply : Smb2Pdu}
    (happData' : reply.appData = request.appData) (hcommand' : reply.command = request.command) :
    QueryReply a info older reply (w.accept offset hdr request) := by
  have hload := load_accept (a := a) offset hwaiting
  have hpasses : Passes a w (w.accept offset hdr request) :=
    ⟨by omega, rfl, rfl, [_], rfl, rfl⟩
  by_cases happData : request.appData = a
  · rcases h with h | ⟨status, h⟩
    · have hone := h.load
      obtain ⟨hcommand, hrequest⟩ := Smb2Pdu.command_of_load happData (by omega : request.load a ≤ 1)
      refine .own (happData'.trans happData) (hcommand'.trans hcommand) { h.passes hpasses with load := ?_ }
      omega
    · have hnone := h.load
      have hrequest := (Smb2Pdu.command_of_load happData (by omega : request.load a ≤ 1)).2
      omega
  · exact .other (fun heq => happData (happData'.symm.trans heq)) (h.passes hpasses)

/-! ### The answer -/

/-- The handler of a QUERY_INFO stores the status, and changes the structure only on success. -/
theorem queryInfoReply_answers (happData : pdu.appData = a) (hinfo : (w.mem.app a).info = some info)
    (htype : info.infoType = 1 ∨ info.infoType = 2) (h : queryInfoReply w pdu = some w') :
    (w'.mem.app a).ntStatus = pdu.headerResp.status ∧
      (pdu.headerResp.status ≠ NtStatus.success → (w'.mem.app a).info = some info) := by
  have hinfo' : ((w.setNtStatus pdu.appData pdu.headerResp.status).mem.app pdu.appData).info = some info := by
    simp only [World.setNtStatus, Memory.setApp, if_true, happData, hinfo]
  simp only [queryInfoReply] at h
  by_cases hstatus : pdu.headerResp.status = NtStatus.success
  · rw [if_neg (not_not.mpr hstatus)] at h
    split at h
    · rename_i stored rep hstored hpayload
      have hsame : stored = info := Option.some.inj (hstored.symm.trans hinfo')
      have hmem : stored.infoType ∈ [(1 : UInt8), 2, 3, 4] := by
        rcases htype with htype | htype
        · simp [hsame, htype]
        · simp [hsame, htype]
      rw [if_pos hmem] at h
      cases h
      refine ⟨?_, fun hne => absurd hstatus hne⟩
      simp only [World.endSendReceive, World.setNtStatus, Memory.setApp, if_true, ← happData]
    · cases h
  · rw [if_pos hstatus] at h
    cases h
    refine ⟨?_, fun _ => ?_⟩
    · simp only [World.endSendReceive, World.setErrorMsg, World.setNtStatus, Memory.setApp, if_true, ← happData]
    · simp only [World.endSendReceive, World.setErrorMsg, World.setNtStatus, Memory.setApp, if_true,
        happData, hinfo]

theorem QueryReply.handle (h : QueryReply a info older pdu w) (htype : info.infoType = 1 ∨ info.infoType = 2)
    (hhandler : smb2ProcessReplyAndAppData env (w.log (.processed pdu)) pdu = some w') :
    Querying a info older w' := by
  obtain ⟨more, htrace, hmore⟩ := (smb2ProcessReplyAndAppData_effect hhandler).trace
  cases h with
  | own happData hcommand h =>
      simp only [smb2ProcessReplyAndAppData, hcommand] at hhandler
      have hanswer := queryInfoReply_answers happData (w := w.log (.processed pdu)) h.info htype hhandler
      have hsame := queryInfoReply_same hhandler
      obtain ⟨evs, hevs, hnone⟩ := h.answers
      refine Or.inr ⟨pdu.headerResp.status, ?_, hanswer.1, hanswer.2, more ++ .processed pdu :: evs, ?_, ?_⟩
      · have hload : w'.smb2.load a = w.smb2.load a := Smb2Context.load_congr hsame.outqueue hsame.waitqueue
        rw [hload]
        exact Nat.le_zero.mp h.load
      · rw [htrace, World.log, hevs, List.append_assoc, List.cons_append]
      · have hprocessed : answersTo a (.processed pdu :: evs) = [pdu.headerResp.status] := by
          show answersTo a ([.processed pdu] ++ evs) = _
          rw [answersTo_append, hnone, List.append_nil]
          simp only [answersTo, List.filterMap_cons, List.filterMap_nil, happData, if_true]
        rw [answersTo_append, answersTo_eq_nil hmore, hprocessed, List.nil_append]
  | other happData h =>
      have hprocessed : answersTo a [.processed pdu] = [] := by
        simp only [answersTo, List.filterMap_cons, List.filterMap_nil, happData, if_false]
      have hspares := smb2ProcessReplyAndAppData_spares happData hhandler
      exact (h.passes (.log w hprocessed)).passes (hspares.passes ⟨more, htrace, answersTo_eq_nil hmore⟩)

/-! ### The exchange -/

theorem passes_transmit {key : Nat} {chain : PduChain} (hchain : w.smb2.outqueue.lookup key = some chain) :
    Passes a w (w.transmit key chain) := by
  obtain ⟨sent, htrace, hsent, -⟩ := trace_transmit w key chain
  have hmem : (w.transmit key chain).mem = w.mem := by
    rw [World.transmit, smb2PduAddToWaitqueue_frame]
    rfl
  refine ⟨load_transmit hchain, by rw [hmem], by rw [hmem],
    sent ++ [.transmitted w.smb2.dialect w.smb2.credits chain], by rw [htrace]; simp, answersTo_eq_nil ?_⟩
  intro event hevent
  rcases List.mem_append.mp hevent with hevent | hevent
  · obtain ⟨credits, pdu, -, rfl⟩ := hsent event hevent
    rfl
  · rw [List.mem_singleton.mp hevent]
    rfl

theorem exchangeRule_query (env : Env) (a : Nat) (older : List Event)
    (htype : info.infoType = 1 ∨ info.infoType = 2) :
    ExchangeRule env (Querying a info older) (QueryReply a info older) where
  socket _ h := h.passes (.of_same rfl rfl (Nat.le_refl _))
  replySocket _ h := h.passes (.of_same rfl rfl (Nat.le_refl _)) rfl rfl
  frame _ h := h.passes (.log _ rfl)
  rejected _ h := h.passes (.log _ rfl)
  accept offset _ _ _ _ h hwaiting := h.accept offset hwaiting rfl rfl
  decode _ _ _ h hsame :=
    h.passes (.of_same rfl rfl (Smb2Context.load_congr hsame.outqueue hsame.waitqueue).le) rfl rfl
  errorMsg msg h := h.passes (.setErrorMsg _ _ msg) rfl rfl
  chained h := h.passes (.of_same rfl rfl (Nat.le_refl _)) rfl rfl
  abandon h := h.querying
  handle h _ hhandler := h.handle htype hhandler
  transmit h hchain := h.passes (passes_transmit hchain)
  requeue h hchain := h.passes (.of_same rfl rfl (load_requeue hchain))

end

/-! ### The builders -/

/-- The data of a query stand apart from those of the requests it is compounded with. -/
def QueryTarget.Apart (a : Nat) : QueryTarget → Prop
  | .handle _ => True
  | .name _ createData closeData => createData ≠ a ∧ closeData ≠ a

section

variable {env : Env} {a : Nat} {w w' : World} {infoType fileInfoClass : UInt8}

theorem load_relink (pdu : Smb2Pdu) (nextCommand flags : UInt32) :
    (pdu.relink nextCommand flags).load a = pdu.load a := Smb2Pdu.load_congr rfl rfl

theorem load_smb2AddCompoundPdu (chain : PduChain) (next : Smb2Pdu) :
    (chain.smb2AddCompoundPdu next).load a = chain.load a + next.load a := by
  rw [PduChain.load, PduChain.load, PduChain.members_smb2AddCompoundPdu]
  nth_rewrite 2 [chain.members_eq]
  simp only [List.map_append, List.sum_append, List.map_cons, List.map_nil, List.sum_cons, List.sum_nil]
  rw [load_relink, load_relink]
  omega

theorem load_single (pdu : Smb2Pdu) : PduChain.load a { head := pdu } = pdu.load a := by
  rw [PduChain.load, PduChain.members, List.map_singleton, List.sum_singleton]

theorem load_encodeQueryInfo (smb2 : Smb2Context) (fileId : Smb2FileId) :
    (createPdu smb2 (encodeQueryInfo a infoType fileInfoClass fileId)).load a = 1 := by
  have happData : (createPdu smb2 (encodeQueryInfo a infoType fileInfoClass fileId)).appData = a := rfl
  have hcommand : (createPdu smb2 (encodeQueryInfo a infoType fileInfoClass fileId)).command = .queryInfo := rfl
  rw [Smb2Pdu.load, if_neg (not_not.mpr happData), if_pos hcommand]

theorem load_queryChain (smb2 : Smb2Context) (fileId : Smb2FileId) {create : RequestSpec} {closeData : Nat}
    (hclose : closeData ≠ a) (hcreate : create.appData ≠ a) :
    (createChain smb2 create [encodeQueryInfo a infoType fileInfoClass fileId,
      encodeClose closeData fileId]).load a = 1 := by
  have hfirst : (createPdu smb2 create).load a = 0 := Smb2Pdu.load_of_ne hcreate
  have hlast : (createPdu smb2 (encodeClose closeData fileId)).load a = 0 := Smb2Pdu.load_of_ne hclose
  rw [createChain, List.foldl_cons, List.foldl_cons, List.foldl_nil, load_smb2AddCompoundPdu,
    load_smb2AddCompoundPdu, load_single, hfirst, load_encodeQueryInfo, hlast]

/-- A query that was queued is the only request made with its data. -/
theorem unanswered_of_queued {w₁ w₂ : World} {chain : PduChain} (h : smb2QueuePdu env w₁ chain = (none, w₂))
    (happ : w₁.mem.app a = { ntStatus := NtStatus.success, info := some { infoType, fileInfoClass } })
    (hnone : w₁.smb2.load a = 0) (hchain : chain.load a = 1) :
    Unanswered a { infoType, fileInfoClass } w₂.trace 1 w₂ := by
  have hload := load_smb2QueuePdu (a := a) h
  have hmem : w₂.mem = w₁.mem := by
    obtain ⟨smb2, encoded, -, ⟨-, queued, -, rfl⟩ | ⟨-, rfl⟩⟩ := smb2QueuePdu_cases h
    · rfl
    · rfl
  refine ⟨by omega, ?_, ?_, [], rfl, rfl⟩
  · rw [hmem, happ]
  · rw [hmem, happ]

theorem unanswered_smb2BuildQueryInfoRequest {target : QueryTarget} (htarget : target.Apart a)
    (hdata : w.mem.app a = {}) (hnone : w.smb2.load a = 0)
    (h : smb2BuildQueryInfoRequest env w a infoType fileInfoClass target = some (0, w')) :
    Unanswered a { infoType, fileInfoClass } w'.trace 1 w' := by
  cases target with
  | handle address =>
      cases address with
      | none => exact absurd (Prod.mk.inj (Option.some.inj h)).1 (by decide)
      | some address =>
          simp only [smb2BuildQueryInfoRequest, smb2BuildQueryInfoByHandle, Option.map_eq_some_iff] at h
          obtain ⟨fh, -, h⟩ := h
          simp only [queueFor, queueRequest] at h
          split_ifs at h
          · split at h
            · rename_i hqueue
              cases h
              refine unanswered_of_queued hqueue ?_ hnone ?_
              · simp only [World.setQInfo, Memory.setApp, if_true, hdata]
              · exact (load_single _).trans (load_encodeQueryInfo _ _)
            · exact absurd (Prod.mk.inj h).1 (by decide)
          · exact absurd (Prod.mk.inj h).1 (by decide)
  | name path createData closeData =>
      obtain ⟨hcreate, hclose⟩ := htarget
      simp only [smb2BuildQueryInfoRequest, smb2BuildQueryInfoByName] at h
      split_ifs at h
      · obtain ⟨create, hcreateSpec, h⟩ := Option.bind_eq_some_iff.mp h
        split at h
        · rename_i hqueue
          cases h
          refine unanswered_of_queued hqueue ?_ hnone ?_
          · simp only [World.setQInfo, Memory.setApp, hclose.symm, hcreate.symm, if_false, if_true, hdata]
          · apply load_queryChain _ _ hclose
            rw [(encodeCreate_spec hcreateSpec).2]
            exact hcreate
        · exact absurd (Prod.mk.inj (Option.some.inj h)).1 (by decide)
      · obtain ⟨create, -, h⟩ := Option.bind_eq_some_iff.mp h
        cases h
      · obtain ⟨create, -, h⟩ := Option.bind_eq_some_iff.mp h
        exact absurd (Prod.mk.inj (Option.some.inj h)).1 (by decide)

end

/-! ### The calls -/

theorem callOnce_answered_iff {env : Env} {polls : List Poll} {w w' : World} {a : Nat}
    {build : World → Option (Int × World)} : callOnce env polls w a build = .answered w' ↔
      w.isConnected = true ∧ ∃ w₁ ret, build { w with mem := w.mem.setApp a {} } = some (0, w₁) ∧
        sendAndReceive env polls w₁ = .returned ret w' ∧ ¬ ret < 0 := by
  rw [callOnce]
  constructor
  · intro h
    split_ifs at h with hconnected
    split at h
    · cases h
    · rename_i ret₁ w₁ hbuild
      split_ifs at h with hzero
      split at h
      · cases h
      · rename_i ret w₂ hreturned
        split_ifs at h with hret
        cases h
        exact ⟨hconnected, w₁, ret, by rw [hbuild, not_not.mp hzero], hreturned, hret⟩
      · cases h
  · rintro ⟨hconnected, w₁, ret, hbuild, hreturned, hret⟩
    rw [if_pos hconnected]
    simp only [hbuild, ne_eq, not_true_eq_false, if_false, hreturned, if_neg hret]

namespace QueryFunction

variable {α : Type} (f : QueryFunction α) (env : Env) (polls : List Poll) (w : World) (a : Nat)
  (target : QueryTarget)

/-- A call that does not return success leaves the structure of its caller as it was. -/
def KeepsOutput (found : Leftovers) (out : α) : Prop :=
  ∀ status, (f.call env polls w a target found out).callEnd.status a = some status →
    status ≠ NtStatus.success → (f.call env polls w a target found out).out = out

/-- The server answers the query with an error, and the exchange comes to its end. -/
def Refused : Prop :=
  w.isConnected = true ∧ ∃ w₁ ret w',
    smb2BuildQueryInfoRequest env { w with mem := w.mem.setApp a {} } a f.infoType f.fileInfoClass target =
        some (0, w₁) ∧
      sendAndReceive env polls w₁ = .returned ret w' ∧ ¬ ret < 0 ∧
      ∃ evs, w'.trace = evs ++ w₁.trace ∧
        ∃ pdu, .processed pdu ∈ evs ∧ pdu.appData = a ∧ pdu.headerResp.status ≠ NtStatus.success

variable {f env polls w a target}

/-- The world after an answered call. -/
theorem querying_of_answered (htarget : target.Apart a) (hnew : w.smb2.load a = 0) {w₁ w' : World} {ret : Int}
    (hbuild : smb2BuildQueryInfoRequest env { w with mem := w.mem.setApp a {} } a f.infoType f.fileInfoClass
      target = some (0, w₁)) (hreturned : sendAndReceive env polls w₁ = .returned ret w') :
    Querying a { infoType := f.infoType, fileInfoClass := f.fileInfoClass } w₁.trace w' := by
  have hdata : ({ w with mem := w.mem.setApp a {} } : World).mem.app a = {} := if_pos rfl
  have hbegin := unanswered_smb2BuildQueryInfoRequest htarget hdata hnew hbuild
  have hstart : Passes a w₁ w₁.beginSendReceive := .of_same rfl rfl (Nat.le_refl _)
  have hends := (exchangeRule_query env a w₁.trace f.isInfoType).sendAndReceive
    (Or.inl (hbegin.passes hstart)) polls
  rw [hreturned] at hends
  exact hends.1

/-- The status an answered call returns is an error exactly when the query was refused, and the local
structure is as the call made it then. -/
theorem refused_iff_of_answered (htarget : target.Apart a) (hnew : w.smb2.load a = 0) {w' : World}
    (h : callOnce env polls w a (fun w =>
      smb2BuildQueryInfoRequest env w a f.infoType f.fileInfoClass target) = .answered w') :
    (f.Refused env polls w a target ↔ (w'.mem.app a).ntStatus ≠ NtStatus.success) ∧
      ((w'.mem.app a).ntStatus ≠ NtStatus.success →
        (w'.mem.app a).info = some { infoType := f.infoType, fileInfoClass := f.fileInfoClass }) := by
  obtain ⟨hconnected, w₁, ret, hbuild, hreturned, hret⟩ := callOnce_answered_iff.mp h
  have hrefused : f.Refused env polls w a target ↔ ∃ evs, w'.trace = evs ++ w₁.trace ∧
      ∃ status ∈ answersTo a evs, status ≠ NtStatus.success := by
    constructor
    · rintro ⟨-, w₂, ret', w₃, hbuild', hreturned', -, evs, hevs, pdu, hpdu, happData, hstatus⟩
      rw [hbuild] at hbuild'
      cases hbuild'
      rw [hreturned] at hreturned'
      cases hreturned'
      exact ⟨evs, hevs, pdu.headerResp.status, mem_answersTo.mpr ⟨pdu, hpdu, happData, rfl⟩, hstatus⟩
    · rintro ⟨evs, hevs, status, hmem, hstatus⟩
      obtain ⟨pdu, hpdu, happData, rfl⟩ := mem_answersTo.mp hmem
      exact ⟨hconnected, w₁, ret, w', hbuild, hreturned, hret, evs, hevs, pdu, hpdu, happData, hstatus⟩
  have hevents {evs evs' : List Event} (hevs : w'.trace = evs ++ w₁.trace)
      (hevs' : w'.trace = evs' ++ w₁.trace) : evs = evs' := List.append_cancel_right (hevs.symm.trans hevs')
  rw [hrefused]
  rcases querying_of_answered htarget hnew hbuild hreturned with hquery | ⟨status, hquery⟩
  · -- nobody answered the query: the status is the one its data were made with
    obtain ⟨evs, hevs, hnone⟩ := hquery.answers
    refine ⟨⟨?_, fun hne => absurd hquery.ntStatus hne⟩, fun hne => absurd hquery.ntStatus hne⟩
    rintro ⟨evs', hevs', status, hmem, -⟩
    rw [hevents hevs' hevs, hnone] at hmem
    cases hmem
  · obtain ⟨evs, hevs, hone⟩ := hquery.answers
    rw [hquery.ntStatus]
    refine ⟨⟨?_, fun hne => ⟨evs, hevs, status, by rw [hone]; exact List.mem_singleton_self _, hne⟩⟩,
      hquery.info⟩
    rintro ⟨evs', hevs', status', hmem, hne⟩
    rw [hevents hevs' hevs, hone, List.mem_singleton] at hmem
    rw [← hmem]
    exact hne

/-- Only an answered call writes to the structure of its caller. -/
theorem out_of_not_answered (found : Leftovers) (out : α)
    (h : ∀ w', callOnce env polls w a (fun w =>
      smb2BuildQueryInfoRequest env w a f.infoType f.fileInfoClass target) ≠ .answered w') :
    (f.call env polls w a target found out).out = out := by
  rw [call]
  split
  · rename_i w' hend
    exact absurd hend (h w')
  · rfl

theorem callEnd_call (found : Leftovers) (out : α) :
    (f.call env polls w a target found out).callEnd = callOnce env polls w a fun w =>
      smb2BuildQueryInfoRequest env w a f.infoType f.fileInfoClass target := by
  simp only [call]
  split
  · split_ifs
    · rfl
    · rfl
  · rfl

/-- What an answered call copies. -/
theorem out_of_answered (found : Leftovers) (out : α) {w' : World}
    (h : callOnce env polls w a (fun w =>
      smb2BuildQueryInfoRequest env w a f.infoType f.fileInfoClass target) = .answered w')
    (hinfo : (w'.mem.app a).info = some { infoType := f.infoType, fileInfoClass := f.fileInfoClass })
    (hstatus : (w'.mem.app a).ntStatus ≠ NtStatus.success) :
    (f.call env polls w a target found out).out =
      if f.checksStatus = true then out else f.copy (f.init found.stack) out := by
  simp only [call, h, hstatus, ne_eq, not_false_eq_true, and_true, hinfo]
  split_ifs
  · rfl
  · simp only [Option.elim_some, Smb2FileInfo.uInfo, if_true]

/-- A call leaves the structure of its caller alone whenever it fails, exactly when it looks at the
status first, or its query is not refused, or what the stack held is what the caller had. -/
theorem keepsOutput_iff (found : Leftovers) (out : α) (htarget : target.Apart a) (hnew : w.smb2.load a = 0) :
    f.KeepsOutput env polls w a target found out ↔
      f.checksStatus = true ∨ ¬ f.Refused env polls w a target ∨ f.copy (f.init found.stack) out = out := by
  by_cases hanswered : ∃ w', callOnce env polls w a (fun w =>
      smb2BuildQueryInfoRequest env w a f.infoType f.fileInfoClass target) = .answered w'
  · obtain ⟨w', hend⟩ := hanswered
    obtain ⟨hrefused, hinfo⟩ := refused_iff_of_answered htarget hnew hend
    have hstatus : (f.call env polls w a target found out).callEnd.status a = some (w'.mem.app a).ntStatus := by
      rw [callEnd_call, hend]
      rfl
    rw [hrefused]
    by_cases hsuccess : (w'.mem.app a).ntStatus = NtStatus.success
    · refine ⟨fun _ => Or.inr (Or.inl (not_not.mpr hsuccess)), fun _ status hreturned hne => absurd ?_ hne⟩
      rw [← Option.some.inj (hstatus.symm.trans hreturned)]
      exact hsuccess
    · have hkeeps : f.KeepsOutput env polls w a target found out ↔
          (f.call env polls w a target found out).out = out :=
        ⟨fun h => h _ hstatus hsuccess, fun h _ _ _ => h⟩
      rw [hkeeps, out_of_answered found out hend (hinfo hsuccess) hsuccess]
      by_cases hchecks : f.checksStatus = true
      · rw [if_pos hchecks]
        exact ⟨fun _ => Or.inl hchecks, fun _ => rfl⟩
      · rw [if_neg hchecks]
        exact ⟨fun h => Or.inr (Or.inr h), fun h => (h.resolve_left hchecks).resolve_left (not_not.mpr hsuccess)⟩
  · have hend := not_exists.mp hanswered
    refine ⟨fun _ => Or.inr (Or.inl ?_), fun _ _ _ _ => out_of_not_answered found out hend⟩
    rintro ⟨hconnected, w₁, ret, w', hbuild, hreturned, hret, -⟩
    exact hend w' (callOnce_answered_iff.mpr ⟨hconnected, w₁, ret, hbuild, hreturned, hret⟩)

end QueryFunction

/-! ### Runs -/

/-- What the stack held before a call: the file index of some older one. -/
def staleStack : Leftovers where
  stack := { allInfo := { indexNumber := 42 } }

/-- A client that has a file open. -/
def withHandle : World :=
  { idleClient 0 with mem := Memory.setHandle {} 7 (some { fileId := { persistentId := 5, volatileId := 6 } }) }

/-- The server answers a query about a handle with an error. -/
def refusal : List Poll := compoundPolls [frameOf (errorReply .queryInfo 1 0 0)]

/-- The server answers the requests of a query about a name with errors. -/
def compoundRefusal : List Poll :=
  compoundPolls [frameOf (errorReply .create 1 0 72 ++ errorReply .queryInfo 1 1 72 ++ errorReply .close 1 2 0)]

/-- A failed `smb2_fstat` gives its caller what the stack held. -/
theorem not_keepsOutput_fstat :
    ¬ smb2Fstat.KeepsOutput plainEnv refusal withHandle 0 (.handle (some 7)) staleStack {} := by
  intro h
  have hstatus : (smb2Fstat.call plainEnv refusal withHandle 0 (.handle (some 7)) staleStack {}).callEnd.status 0 =
      some NtStatus.notSupported := by decide +kernel
  have hout : (smb2Fstat.call plainEnv refusal withHandle 0 (.handle (some 7)) staleStack {}).out ≠ {} := by
    decide +kernel
  exact hout (h _ hstatus (by decide))

/-- A failed `smb2_getinfo_stream` leaves its caller's pointer. -/
theorem keepsOutput_refusedStream :
    (smb2GetinfoStream.call plainEnv compoundRefusal (idleClient 0) 0 (.name [0x66] 1 2) staleStack
        (some [1])).callEnd.status 0 = some NtStatus.notSupported ∧
      smb2GetinfoStream.KeepsOutput plainEnv compoundRefusal (idleClient 0) 0 (.name [0x66] 1 2)
        staleStack (some [1]) := by
  have htarget : (QueryTarget.name [0x66] 1 2).Apart 0 := ⟨by decide, by decide⟩
  refine ⟨by decide +kernel, ?_⟩
  exact (QueryFunction.keepsOutput_iff staleStack (some [1]) htarget rfl).mpr (Or.inl rfl)

end CodeStudy.Samba
