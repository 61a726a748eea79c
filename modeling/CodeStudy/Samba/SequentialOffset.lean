import CodeStudy.Samba.Fields
import CodeStudy.Samba.HandleOwners

/-!
# Where a sequential transfer begins

`smb2_read` and `smb2_write` continue where the last transfer on their handle ended. The handle keeps
that place; the handlers of both replies move it on by what the server acknowledged. So the request of
every transfer is sent with the sum of the bytes acknowledged before, on top of the offset the handle
had in the beginning, which is what the memory held that it was allocated in.
-/

namespace CodeStudy.Samba

/-- A READ or a WRITE. -/
def Smb2Pdu.isTransfer (pdu : Smb2Pdu) : Prop := pdu.command = .read ∨ pdu.command = .write

/-- The file offset that a READ or a WRITE asks for, in its bytes. -/
def Smb2Pdu.fileOffset (pdu : Smb2Pdu) : UInt64 := smb2GetUint64 (pdu.out.iovs.getD 1 []) 8 0

/-- The bytes a reply acknowledges. -/
def Event.acknowledged : Event → Nat
  | .processed pdu =>
      if pdu.headerResp.status = NtStatus.success then
        match pdu.command, pdu.payload with
        | .read, .read rep => rep.dataLength.toNat
        | .write, .write rep => rep.count.toNat
        | _, _ => 0
      else 0
  | _ => 0

def acknowledgedBytes (evs : List Event) : Nat := (evs.map Event.acknowledged).sum

/-- No WRITE is answered with the end of the file. -/
def Event.notWriteEnd : Event → Prop
  | .processed pdu => pdu.command = .write → pdu.headerResp.status ≠ NtStatus.endOfFile
  | _ => True

instance (event : Event) : Decidable event.notWriteEnd :=
  match event with
  | .processed pdu =>
      inferInstanceAs (Decidable (pdu.command = .write → pdu.headerResp.status ≠ NtStatus.endOfFile))
  | .connected _ | .closed | .queued _ | .queueFailed _ | .transmitted .. | .sent .. | .frame _ | .header ..
  | .rejected _ => .isTrue trivial

/-- Every transfer begins where the bytes acknowledged before it end, counted from a start, and
what is sent was queued so. -/
def OffsetsFollow (start : Int) : List Event → Prop
  | [] => True
  | event :: older =>
      (∀ chain, event = .queued chain → ∀ pdu ∈ chain.members, pdu.isTransfer →
        pdu.fileOffset = UInt64.ofInt (start + acknowledgedBytes older)) ∧
      (∀ dialect credits chain, event = .transmitted dialect credits chain → .queued chain ∈ older) ∧
      OffsetsFollow start older

/-! ### The offset of a request -/

section

variable {smb2 smb2' : Smb2Context} {a : Nat} {fileId : Smb2FileId} {count : UInt32} {offset : UInt64}
  {pdu : Smb2Pdu}

theorem fileOffset_of_body {spec : RequestSpec} {fixed : Bytes} {rest : List Bytes} (h : QueuedAs smb2 spec pdu)
    (hbody : spec.body = fixed :: rest) : pdu.fileOffset = smb2GetUint64 fixed 8 0 := by
  obtain ⟨pad, hiovs⟩ := iovs_createPdu smb2 spec
  have htail := h.body
  rw [hiovs, hbody, List.tail_cons, List.cons_append] at htail
  rw [Smb2Pdu.fileOffset]
  cases hout : pdu.out.iovs with
  | nil => simp [hout] at htail
  | cons header body =>
      rw [hout, List.tail_cons] at htail
      rw [htail]
      rfl

/-- The offset is written to the same place of both requests, and what follows it is elsewhere. -/
theorem fileOffset_read (h : QueuedAs smb2 (encodeRead smb2' a fileId count offset) pdu) :
    pdu.fileOffset = offset := by
  rw [fileOffset_of_body h rfl, smb2GetUint64_smb2SetUint64_of_disjoint (by decide),
    smb2GetUint64_smb2SetUint64_of_disjoint (by decide), smb2GetUint64_smb2SetUint64 (by simp)]

theorem fileOffset_write {buf : Bytes} (h : QueuedAs smb2 (encodeWrite smb2' a fileId buf count offset) pdu) :
    pdu.fileOffset = offset := by
  have hlt : offset.toNat < 256 ^ 8 := offset.toNat_lt
  rw [fileOffset_of_body h rfl, smb2GetUint64]
  simp (disch := decide) only [Smb2WriteRequest.fixed, smb2SetUint16, smb2SetUint32, smb2SetUint64,
    getField_setField_of_disjoint]
  rw [getField_setField (by simp only [length_setField]; simp), Option.elim_some, Nat.mod_eq_of_lt hlt, UInt64.ofNat_toNat]

end

/-! ### What the handlers do to the offset -/

section

variable {env : Env} {w w' : World} {pdu : Smb2Pdu} {h : Nat}

theorem ofInt_toInt64 (x : Int) : UInt64.ofInt (toInt64 x) = UInt64.ofInt x := by
  rw [UInt64.ofInt, UInt64.ofInt, toInt64, show (2 : Int) ^ 64 = ((2 ^ 64 : Nat) : Int) from rfl, Int.bmod_emod]

theorem smb2ReplyIsError_success (hstatus : pdu.headerResp.status = NtStatus.success) :
    pdu.smb2ReplyIsError = false := by
  rw [Smb2Pdu.smb2ReplyIsError, hstatus]
  decide

theorem smb2ReplyIsError_endOfFile (hstatus : pdu.headerResp.status = NtStatus.endOfFile) :
    pdu.smb2ReplyIsError = true := by
  rw [Smb2Pdu.smb2ReplyIsError, hstatus]
  decide

/-- The handle, if it still exists, has moved on by the bytes that were acknowledged. -/
def MovesOn (h : Nat) (count : Nat) (w w' : World) : Prop :=
  ∀ fh', w'.mem.handle h = some fh' → ∃ fh, w.mem.handle h = some fh ∧
    UInt64.ofInt fh'.offset = UInt64.ofInt (fh.offset + count)

theorem movesOn_of_same (hmem : w'.mem.handle = w.mem.handle) : MovesOn h 0 w w' := by
  intro fh' hfh'
  rw [hmem] at hfh'
  exact ⟨fh', hfh', by simp⟩

theorem movesOn_setHandle {mem : Memory} {fh fh' : Smb2fh} {count : Nat} (hfh : w.mem.handle h = some fh)
    (hoffset : fh'.offset = toInt64 (fh.offset + count)) (hmem : w'.mem.handle = (mem.setHandle h (some fh')).handle) :
    MovesOn h count w w' := by
  intro fh₂ hfh₂
  rw [hmem, Memory.setHandle] at hfh₂
  simp only [if_true, Option.some.injEq] at hfh₂
  subst hfh₂
  exact ⟨fh, hfh, by rw [hoffset, ofInt_toInt64]⟩

theorem acknowledged_of_failed (hstatus : pdu.headerResp.status ≠ NtStatus.success) :
    (Event.processed pdu).acknowledged = 0 := if_neg hstatus

theorem readReply_movesOn (hcommand : pdu.command = .read) (hdecoded : pdu.Decoded)
    (hfh : (w.mem.app pdu.appData).fh = some h) (hhandler : readReply w pdu env = some w') :
    MovesOn h (Event.processed pdu).acknowledged w w' := by
  have hset : ((w.setNtStatus pdu.appData pdu.headerResp.status).mem.app pdu.appData).fh = some h :=
    ((SameQueues.setNtStatus w pdu.appData _).fh _).trans hfh
  simp only [readReply] at hhandler
  split at hhandler
  · rename_i hstatus
    cases hhandler
    rw [acknowledged_of_failed hstatus.1]
    exact movesOn_of_same rfl
  · rename_i hstatus
    simp only [Option.bind_eq_bind, Option.bind_eq_some_iff, hset, Option.some.injEq] at hhandler
    obtain ⟨address, rfl, fh, hhandle, rep, hrep, hhandler⟩ := hhandler
    have hcount : rep.dataLength.toNat = (Event.processed pdu).acknowledged := by
      by_cases hsuccess : pdu.headerResp.status = NtStatus.success
      · obtain ⟨rep', hpayload⟩ := hdecoded.read (smb2ReplyIsError_success hsuccess) hcommand
        rw [hpayload, readReplyView, Option.some.injEq] at hrep
        rw [Event.acknowledged, if_pos hsuccess, hcommand, hpayload, hrep]
      · have hend : pdu.headerResp.status = NtStatus.endOfFile := by
          by_contra hend
          exact hstatus ⟨hsuccess, hend⟩
        obtain ⟨rep', hpayload⟩ := hdecoded.error (smb2ReplyIsError_endOfFile hend)
        rw [hpayload, readReplyView] at hrep
        split_ifs at hrep
        cases hrep
        rw [acknowledged_of_failed hsuccess]
        rfl
    split at hhandler
    · cases hhandler
      rw [← hcount]
      exact movesOn_setHandle hhandle rfl rfl
    · cases hhandler

theorem writeReply_movesOn (hcommand : pdu.command = .write) (hdecoded : pdu.Decoded)
    (hend : (Event.processed pdu).notWriteEnd) (hfh : (w.mem.app pdu.appData).fh = some h)
    (hhandler : writeReply w pdu env = some w') : MovesOn h (Event.processed pdu).acknowledged w w' := by
  have hset : ((w.setNtStatus pdu.appData pdu.headerResp.status).mem.app pdu.appData).fh = some h :=
    ((SameQueues.setNtStatus w pdu.appData _).fh _).trans hfh
  simp only [writeReply] at hhandler
  split at hhandler
  · rename_i hstatus
    cases hhandler
    rw [acknowledged_of_failed hstatus.1]
    exact movesOn_of_same rfl
  · rename_i hstatus
    simp only [Option.bind_eq_bind, Option.bind_eq_some_iff, hset, Option.some.injEq] at hhandler
    obtain ⟨address, rfl, fh, hhandle, rep, hrep, hhandler⟩ := hhandler
    have hsuccess : pdu.headerResp.status = NtStatus.success := by
      by_contra hsuccess
      exact hstatus ⟨hsuccess, hend hcommand⟩
    obtain ⟨rep', hpayload⟩ := hdecoded.write (smb2ReplyIsError_success hsuccess) hcommand
    rw [hpayload, writeReplyView, Option.some.injEq] at hrep
    have hcount : rep.count.toNat = (Event.processed pdu).acknowledged := by
      rw [Event.acknowledged, if_pos hsuccess, hcommand, hpayload, hrep]
    cases hhandler
    rw [← hcount]
    exact movesOn_setHandle hhandle rfl rfl

/-- A CREATE leaves the offset as the constructor left it. -/
theorem createReply_movesOn (hfh : (w.mem.app pdu.appData).fh = some h) (hhandler : createReply w pdu = some w') :
    MovesOn h 0 w w' := by
  simp only [createReply, hfh] at hhandler
  split at hhandler
  · intro fh' hfh'
    simp only [World.deleteHandle] at hhandler
    split at hhandler
    · cases hhandler
    · cases hhandler
      simp [Memory.setHandle] at hfh'
  · split at hhandler
    · rename_i fh rep hhandle hpayload
      cases hhandler
      intro fh₂ hfh₂
      simp only [World.endSendReceive, Memory.setHandle, if_true, Option.some.injEq] at hfh₂
      subst hfh₂
      exact ⟨fh, hhandle, by simp⟩
    · cases hhandler

end

/-! ### The invariant -/

/-- A request about one handle, of the commands that leave it where it is or move it on. -/
structure AboutHandle (h : Nat) (w : World) (pdu : Smb2Pdu) : Prop where
  command : pdu.command = .create ∨ pdu.isTransfer
  fh : (w.mem.app pdu.appData).fh = some h

/-- What happened since the trace was `older`: the requests about the handle follow its offset, and
the handle is where the next one begins. -/
structure Tracking (h : Nat) (start : Int) (older : List Event) (w : World) : Prop where
  law : ∃ evs, w.trace = evs ++ older ∧
    (∀ key chain, w.smb2.outqueue.lookup key = some chain → .queued chain ∈ evs) ∧
    ((∀ event ∈ evs, event.notWriteEnd) → OffsetsFollow start evs ∧
      ∀ fh, w.mem.handle h = some fh → UInt64.ofInt fh.offset = UInt64.ofInt (start + acknowledgedBytes evs))
  queued : ∀ key chain, w.smb2.outqueue.lookup key = some chain → ∀ pdu ∈ chain.members, AboutHandle h w pdu
  waiting : ∀ key pdu, w.smb2.waitqueue.lookup key = some pdu → AboutHandle h w pdu

/-- Events that say nothing of offsets. -/
def Event.leavesOffsets : Event → Bool
  | .queued _ | .transmitted .. | .processed _ => false
  | _ => true

theorem offsetsFollow_cons {start : Int} {event : Event} {evs : List Event} (hsilent : event.leavesOffsets = true)
    (h : OffsetsFollow start evs) : OffsetsFollow start (event :: evs) := by
  refine ⟨?_, ?_, h⟩
  · rintro chain rfl
    cases hsilent
  · rintro dialect credits chain rfl
    cases hsilent

theorem acknowledgedBytes_cons {event : Event} {evs : List Event} (hsilent : event.leavesOffsets = true) :
    acknowledgedBytes (event :: evs) = acknowledgedBytes evs := by
  cases event with
  | queued chain => cases hsilent
  | transmitted dialect credits chain => cases hsilent
  | processed pdu => cases hsilent
  | _ => simp [acknowledgedBytes, Event.acknowledged]

theorem offsetsFollow_append {start : Int} {more evs : List Event} (hsilent : ∀ event ∈ more, event.leavesOffsets = true)
    (h : OffsetsFollow start evs) :
    OffsetsFollow start (more ++ evs) ∧ acknowledgedBytes (more ++ evs) = acknowledgedBytes evs := by
  induction more with
  | nil => exact ⟨h, rfl⟩
  | cons event more ih =>
      obtain ⟨hhead, htail⟩ := List.forall_mem_cons.mp hsilent
      obtain ⟨hfollow, hcount⟩ := ih htail
      exact ⟨offsetsFollow_cons hhead hfollow, (acknowledgedBytes_cons hhead).trans hcount⟩

section

variable {env : Env} {h : Nat} {start : Int} {older : List Event} {w w' : World} {pdu : Smb2Pdu}

theorem AboutHandle.of_fh (habout : AboutHandle h w pdu)
    (hfh : ∀ b, (w.mem.app b).fh = some h → (w'.mem.app b).fh = some h) : AboutHandle h w' pdu :=
  ⟨habout.command, hfh _ habout.fh⟩

/-- A step that queues nothing, sends nothing and handles nothing. -/
theorem Tracking.silent (htracking : Tracking h start older w) (more : List Event)
    (htrace : w'.trace = more ++ w.trace) (hsilent : ∀ event ∈ more, event.leavesOffsets = true)
    (hout : ∀ key chain, w'.smb2.outqueue.lookup key = some chain →
      ∃ key', w.smb2.outqueue.lookup key' = some chain)
    (hwait : ∀ key pdu, w'.smb2.waitqueue.lookup key = some pdu → ∃ key', w.smb2.waitqueue.lookup key' = some pdu)
    (hfh : ∀ b, (w.mem.app b).fh = some h → (w'.mem.app b).fh = some h)
    (hmoves : MovesOn h 0 w w') : Tracking h start older w' := by
  obtain ⟨evs, hevs, hqueued, hlaw⟩ := htracking.law
  refine ⟨⟨more ++ evs, by rw [htrace, hevs, List.append_assoc], fun key chain hchain => ?_, fun hends => ?_⟩,
    fun key chain hchain pdu hpdu => ?_, fun key pdu hpdu => ?_⟩
  · obtain ⟨key', hchain⟩ := hout key chain hchain
    exact List.mem_append_right _ (hqueued key' chain hchain)
  · obtain ⟨hfollow, hoffset⟩ := hlaw fun event he => hends event (List.mem_append_right _ he)
    obtain ⟨hfollow', hcount⟩ := offsetsFollow_append hsilent hfollow
    refine ⟨hfollow', fun fh' hfh' => ?_⟩
    obtain ⟨fh, hfh₁, heq⟩ := hmoves fh' hfh'
    rw [heq, hcount, Nat.cast_zero, Int.add_zero, hoffset fh hfh₁]
  · obtain ⟨key', hchain⟩ := hout key chain hchain
    exact (htracking.queued key' chain hchain pdu hpdu).of_fh hfh
  · obtain ⟨key', hpdu⟩ := hwait key pdu hpdu
    exact (htracking.waiting key' pdu hpdu).of_fh hfh

/-- The context changes in what the queues do not depend on. -/
theorem Tracking.of_same (htracking : Tracking h start older w) (hout : w'.smb2.outqueue = w.smb2.outqueue)
    (hwait : w'.smb2.waitqueue = w.smb2.waitqueue) (htrace : w'.trace = w.trace)
    (hfh : ∀ b, (w'.mem.app b).fh = (w.mem.app b).fh) (hhandle : w'.mem.handle = w.mem.handle) :
    Tracking h start older w' := by
  refine htracking.silent [] htrace (by simp) (fun key chain hchain => ⟨key, hout ▸ hchain⟩)
    (fun key pdu hpdu => ⟨key, hwait ▸ hpdu⟩) (fun b hb => (hfh b).trans hb) (movesOn_of_same hhandle)

/-- A request that is about the handle is queued. A transfer begins where the handle is. -/
theorem Tracking.queue (htracking : Tracking h start older w) {spec : RequestSpec} {err : Option String}
    (hqueue : queueRequest env w spec = (err, w'))
    (hcommand : spec.command = .create ∨ spec.command = .read ∨ spec.command = .write)
    (hfh : (w.mem.app spec.appData).fh = some h)
    (hoffset : ∀ pdu, QueuedAs w.smb2 spec pdu → pdu.isTransfer →
      ∃ fh, w.mem.handle h = some fh ∧ pdu.fileOffset = UInt64.ofInt fh.offset) : Tracking h start older w' := by
  obtain ⟨messageId, pdu, hqueuedAs, ⟨-, rfl⟩ | ⟨-, rfl⟩⟩ := queueRequest_cases hqueue
  · have habout : AboutHandle h w pdu := by
      refine ⟨?_, by rw [hqueuedAs.appData, hfh]⟩
      rw [Smb2Pdu.isTransfer, hqueuedAs.command]
      exact hcommand
    obtain ⟨evs, hevs, hqueued, hlaw⟩ := htracking.law
    refine ⟨⟨.queued ⟨pdu, []⟩ :: evs, by rw [World.log, List.cons_append, ← hevs], fun key chain hchain => ?_,
      fun hends => ?_⟩, fun key chain hchain => ?_,
      fun key pdu hpdu => (htracking.waiting key pdu hpdu).of_fh fun b hb => hb⟩
    · simp only [World.log, OrdMap.lookup_insert] at hchain
      split_ifs at hchain
      · cases hchain
        exact List.mem_cons_self
      · exact List.mem_cons_of_mem _ (hqueued key chain hchain)
    · obtain ⟨hfollow, hhandle⟩ := hlaw fun event he => hends event (List.mem_cons_of_mem _ he)
      refine ⟨⟨fun chain hchain pdu' hpdu' htransfer => ?_, fun _ _ _ hsent => (by cases hsent), hfollow⟩,
        fun fh hfh => ?_⟩
      · cases hchain
        rw [PduChain.members, List.mem_singleton] at hpdu'
        subst hpdu'
        obtain ⟨fh, hfh₁, heq⟩ := hoffset pdu' hqueuedAs htransfer
        rw [heq, hhandle fh hfh₁]
      · rw [hhandle fh hfh]
        simp [acknowledgedBytes, Event.acknowledged]
    · simp only [World.log, OrdMap.lookup_insert] at hchain
      split_ifs at hchain
      · cases hchain
        intro pdu' hpdu'
        rw [PduChain.members, List.mem_singleton] at hpdu'
        rw [hpdu']
        exact habout.of_fh fun b hb => hb
      · exact fun pdu' hpdu' => (htracking.queued key chain hchain pdu' hpdu').of_fh fun b hb => hb
  · exact htracking.silent [.queueFailed [pdu]] rfl (by simp [Event.leavesOffsets])
      (fun key chain hchain => ⟨key, hchain⟩) (fun key pdu hpdu => ⟨key, hpdu⟩) (fun b hb => hb)
      (movesOn_of_same rfl)

/-- A reply was handled. -/
theorem Tracking.handled (htracking : Tracking h start older w)
    (hsame : SameQueues (w.log (.processed pdu)).endSendReceive w')
    (hmoves : (Event.processed pdu).notWriteEnd →
      MovesOn h (Event.processed pdu).acknowledged (w.log (.processed pdu)) w') :
    Tracking h start older w' := by
  obtain ⟨evs, hevs, hqueued, hlaw⟩ := htracking.law
  have hout : w'.smb2.outqueue = w.smb2.outqueue := hsame.outqueue
  have hwait : w'.smb2.waitqueue = w.smb2.waitqueue := hsame.waitqueue
  have hfh (b : Nat) (hb : (w.mem.app b).fh = some h) : (w'.mem.app b).fh = some h := (hsame.fh b).trans hb
  refine ⟨⟨.processed pdu :: evs, ?_, fun key chain hchain => ?_, fun hends => ?_⟩, fun key chain hchain pdu hpdu => ?_,
    fun key pdu hpdu => ?_⟩
  · rw [hsame.trace, World.endSendReceive, World.log, hevs, List.cons_append]
  · rw [hout] at hchain
    exact List.mem_cons_of_mem _ (hqueued key chain hchain)
  · obtain ⟨hend, hends⟩ := List.forall_mem_cons.mp hends
    obtain ⟨hfollow, hhandle⟩ := hlaw hends
    refine ⟨⟨fun chain hchain => (by cases hchain), fun _ _ _ hsent => (by cases hsent), hfollow⟩,
      fun fh' hfh' => ?_⟩
    obtain ⟨fh, hfh₁, heq⟩ := hmoves hend fh' hfh'
    have hsum : acknowledgedBytes (.processed pdu :: evs) =
        acknowledgedBytes evs + (Event.processed pdu).acknowledged := by
      simp [acknowledgedBytes, Nat.add_comm]
    rw [heq, UInt64.ofInt_add, hhandle fh hfh₁, ← UInt64.ofInt_add, hsum, Nat.cast_add, Int.add_assoc]
  · rw [hout] at hchain
    exact (htracking.queued key chain hchain pdu hpdu).of_fh hfh
  · rw [hwait] at hpdu
    exact (htracking.waiting key pdu hpdu).of_fh hfh

theorem Tracking.handle (htracking : Tracking h start older w) (habout : AboutHandle h w pdu)
    (hdecoded : pdu.Decoded)
    (hhandler : smb2ProcessReplyAndAppData env (w.log (.processed pdu)) pdu = some w') :
    Tracking h start older w' := by
  rw [smb2ProcessReplyAndAppData] at hhandler
  have hfh : ((w.log (.processed pdu)).mem.app pdu.appData).fh = some h := habout.fh
  rcases habout.command with hcommand | hcommand | hcommand
  all_goals
    rw [hcommand] at hhandler
  · rcases createReply_same hhandler with ⟨hsame, -⟩ | ⟨-, -, hnone⟩
    · have hzero : (Event.processed pdu).acknowledged = 0 := by
        simp only [Event.acknowledged, hcommand]
        split_ifs
        · rfl
        · rfl
      refine htracking.handled hsame fun _ => ?_
      rw [hzero]
      exact createReply_movesOn hfh hhandler
    · rw [hfh] at hnone
      cases hnone
  · exact htracking.handled (readReply_same hhandler) fun _ => readReply_movesOn hcommand hdecoded hfh hhandler
  · exact htracking.handled (writeReply_same hhandler) fun hend =>
      writeReply_movesOn hcommand hdecoded hend hfh hhandler

theorem Tracking.transmit (htracking : Tracking h start older w) {key : Nat} {chain : PduChain}
    (hchain : w.smb2.outqueue.lookup key = some chain) : Tracking h start older (w.transmit key chain) := by
  obtain ⟨evs, hevs, hqueued, hlaw⟩ := htracking.law
  obtain ⟨sent, hsent, hsilent, -⟩ := trace_transmit w key chain
  have hleaves (event : Event) (he : event ∈ sent) : event.leavesOffsets = true := by
    obtain ⟨credits, pdu, -, rfl⟩ := hsilent event he
    rfl
  have hmem : (w.transmit key chain).mem = w.mem := mem_transmit w key chain
  refine ⟨⟨sent ++ .transmitted w.smb2.dialect w.smb2.credits chain :: evs, ?_, fun k c hc => ?_, fun hends => ?_⟩,
    fun k c hc => ?_, fun k pdu hpdu => ?_⟩
  · rw [hsent, hevs, List.append_assoc, List.cons_append]
  · rw [outqueue_transmit, OrdMap.lookup_erase] at hc
    split_ifs at hc
    exact List.mem_append_right _ (List.mem_cons_of_mem _ (hqueued k c hc))
  · obtain ⟨hfollow, hhandle⟩ := hlaw fun event he =>
      hends event (List.mem_append_right _ (List.mem_cons_of_mem _ he))
    have hnext : OffsetsFollow start (.transmitted w.smb2.dialect w.smb2.credits chain :: evs) := by
      refine ⟨fun _ hq => (by cases hq), fun _ _ c hc => ?_, hfollow⟩
      cases hc
      exact hqueued key chain hchain
    obtain ⟨hfollow', hcount⟩ := offsetsFollow_append hleaves hnext
    refine ⟨hfollow', fun fh hfh => ?_⟩
    rw [hmem] at hfh
    rw [hhandle fh hfh, hcount]
    simp [acknowledgedBytes, Event.acknowledged]
  · rw [outqueue_transmit, OrdMap.lookup_erase] at hc
    split_ifs at hc
    intro pdu hpdu
    exact (htracking.queued k c hc pdu hpdu).of_fh fun b hb => by rw [hmem, hb]
  · have hfh (b : Nat) (hb : (w.mem.app b).fh = some h) : ((w.transmit key chain).mem.app b).fh = some h := by
      rw [hmem, hb]
    rcases lookup_smb2PduAddToWaitqueue _ _ hpdu with ⟨hsent, -⟩ | hold
    · exact (htracking.queued key chain hchain pdu hsent).of_fh hfh
    · exact (htracking.waiting k pdu hold).of_fh hfh

theorem Tracking.requeue (htracking : Tracking h start older w) {key : Nat} {chain : PduChain}
    (hchain : w.smb2.outqueue.lookup key = some chain) : Tracking h start older (w.requeue key chain) := by
  refine htracking.silent [] rfl (by simp) (fun k c hc => ?_) (fun k pdu hpdu => ⟨k, hpdu⟩) (fun b hb => hb)
    (movesOn_of_same rfl)
  rw [World.requeue, OrdMap.lookup_insert, OrdMap.lookup_erase] at hc
  split_ifs at hc
  · cases hc
    exact ⟨key, hchain⟩
  · exact ⟨k, hc⟩

/-- CREATE, READ and WRITE requests keep track of the offset, whatever the server answers. -/
theorem exchangeRule_tracking (env : Env) (h : Nat) (start : Int) (older : List Event) :
    ExchangeRule env (Tracking h start older)
      (fun pdu w => Tracking h start older w ∧ AboutHandle h w pdu) where
  socket socket htracking := htracking.of_same rfl rfl rfl (fun _ => rfl) rfl
  replySocket socket hreply :=
    ⟨hreply.1.of_same rfl rfl rfl (fun _ => rfl) rfl, hreply.2.of_fh fun _ hb => hb⟩
  frame spl htracking :=
    htracking.silent [.frame spl] rfl (by simp [Event.leavesOffsets]) (fun key chain hchain => ⟨key, hchain⟩)
      (fun key pdu hpdu => ⟨key, hpdu⟩) (fun _ hb => hb) (movesOn_of_same rfl)
  rejected hdr htracking :=
    htracking.silent [.rejected hdr] rfl (by simp [Event.leavesOffsets]) (fun key chain hchain => ⟨key, hchain⟩)
      (fun key pdu hpdu => ⟨key, hpdu⟩) (fun _ hb => hb) (movesOn_of_same rfl)
  accept {w} offset {hdr request} spl header htracking hwaiting := by
    have habout := htracking.waiting _ _ hwaiting
    refine ⟨htracking.silent [.header offset hdr w.smb2.credits request] rfl (by simp [Event.leavesOffsets])
      (fun key chain hchain => ⟨key, hchain⟩) (fun key pdu hpdu => ⟨key, ?_⟩) (fun _ hb => hb)
      (movesOn_of_same rfl), ⟨habout.command, habout.fh⟩⟩
    rw [World.accept, World.log, OrdMap.lookup_erase] at hpdu
    split_ifs at hpdu
    exact hpdu
  decode payload inVecs smb2 hreply hsame :=
    ⟨hreply.1.of_same hsame.outqueue hsame.waitqueue rfl (fun _ => rfl) rfl, ⟨hreply.2.command, hreply.2.fh⟩⟩
  errorMsg {w pdu} msg hreply := by
    have hsame := SameQueues.setErrorMsg w pdu.appData msg
    exact ⟨hreply.1.of_same rfl rfl rfl hsame.fh rfl, hreply.2.of_fh fun b hb => (hsame.fh b).trans hb⟩
  chained hreply := ⟨hreply.1, ⟨hreply.2.command, hreply.2.fh⟩⟩
  abandon hreply := hreply.1
  handle hreply hdecoded hhandler := hreply.1.handle hreply.2 hdecoded hhandler
  transmit htracking hchain := htracking.transmit hchain
  requeue htracking hchain := htracking.requeue hchain

/-! ### Builders -/

/-- A builder prepares the memory; no request is about the handle less than before. -/
theorem Tracking.prepared (htracking : Tracking h start older w) (hsmb2 : w'.smb2 = w.smb2)
    (htrace : w'.trace = w.trace) (hfh : ∀ b, (w.mem.app b).fh = some h → (w'.mem.app b).fh = some h)
    (hmoves : MovesOn h 0 w w') : Tracking h start older w' :=
  htracking.silent [] htrace (by simp) (fun key chain hchain => ⟨key, by rw [← hsmb2]; exact hchain⟩)
    (fun key pdu hpdu => ⟨key, by rw [← hsmb2]; exact hpdu⟩) hfh hmoves

theorem Tracking.setErrorMsg (htracking : Tracking h start older w) (a : Nat) (msg : String) :
    Tracking h start older (w.setErrorMsg a msg) :=
  htracking.of_same rfl rfl rfl (SameQueues.setErrorMsg w a msg).fh rfl

/-- The place a transfer begins at is the place the handle is at. -/
theorem Tracking.transfer (htracking : Tracking h start older w) {fh : Smb2fh} (hfh : w.mem.handle h = some fh)
    {a : Nat} {ret code : Int} {data : AppData} {builder failed : String} {spec : RequestSpec}
    (hcommand : spec.command = .read ∨ spec.command = .write) (happData : spec.appData = a)
    (hoffset : ∀ smb2 pdu, QueuedAs smb2 spec pdu → pdu.fileOffset = fh.sentOffset)
    (hbuild : queueFor env ((w.callData a).prepareTransfer h fh fh.sentOffset a data) builder failed code spec =
      (ret, w')) : Tracking h start older w' := by
  generalize hw₁ : (w.callData a).prepareTransfer h fh fh.sentOffset a data = w₁ at hbuild
  have hkept : UInt64.ofInt (toInt64 fh.sentOffset.toNat) = fh.sentOffset := by
    rw [ofInt_toInt64, uint64_ofInt_natCast, UInt64.ofNat_toNat]
  have hhandle : w₁.mem.handle h = some { fh with offset := toInt64 fh.sentOffset.toNat } := by
    rw [← hw₁]
    simp only [World.prepareTransfer, Memory.setApp, Memory.setHandle, if_true]
  have hdata : (w₁.mem.app spec.appData).fh = some h := by
    rw [← hw₁, happData]
    simp only [World.prepareTransfer, Memory.setApp, if_true]
  have hprepared : Tracking h start older w₁ := by
    refine htracking.prepared (by rw [← hw₁]; rfl) (by rw [← hw₁]; rfl) (fun b hb => ?_) (fun fh' hfh' => ⟨fh, hfh, ?_⟩)
    · rw [← hw₁]
      simp only [World.prepareTransfer, World.callData, Memory.setApp, Memory.setHandle]
      split_ifs
      · rfl
      · exact hb
    · rw [hhandle, Option.some.injEq] at hfh'
      rw [← hfh', hkept, Nat.cast_zero, Int.add_zero, Smb2fh.sentOffset]
  have hqueued {err : Option String} {w₂ : World} (hqueue : queueRequest env w₁ spec = (err, w₂)) :
      Tracking h start older w₂ :=
    hprepared.queue hqueue (.inr hcommand) hdata fun pdu hpdu _ =>
      ⟨{ fh with offset := toInt64 fh.sentOffset.toNat }, hhandle, by rw [hoffset _ pdu hpdu, hkept]⟩
  rw [queueFor] at hbuild
  split_ifs at hbuild
  · split at hbuild
    · rename_i hqueue
      cases hbuild
      exact hqueued hqueue
    · rename_i hqueue
      cases hbuild
      exact (hqueued hqueue).setErrorMsg _ _
  · cases hbuild
    exact hprepared.setErrorMsg _ _

/-! ### Calls -/

/-- The worlds a call ends or waits in. -/
def CallEnd.world : CallEnd → Option World
  | .notConnected w | .notBuilt w | .socketError w | .answered w | .nothing w | .waiting w => some w
  | .undefined => none

/-- A call that builds a request which keeps track of the offset does so itself, however it ends. -/
theorem tracking_callOnce {polls : List Poll} {a : Nat} {build : World → Option (Int × World)}
    (htracking : w.isConnected = false → Tracking h start older w)
    (hbuild : ∀ ret w₁, build (w.callData a) = some (ret, w₁) → Tracking h start older w₁)
    (hcall : (CodeStudy.Samba.callOnce env polls w a build).world = some w') : Tracking h start older w' := by
  rw [CodeStudy.Samba.callOnce] at hcall
  split_ifs at hcall with hconnected
  · split at hcall
    · cases hcall
    · rename_i ret w₁ hbuilt
      have hbuilt : Tracking h start older w₁ := hbuild ret w₁ hbuilt
      split_ifs at hcall
      · cases hcall
        exact hbuilt
      · have hbegun : Tracking h start older w₁.beginSendReceive :=
          hbuilt.of_same rfl rfl rfl (fun _ => rfl) rfl
        have hends := (exchangeRule_tracking env h start older).sendAndReceive
          hbegun polls
        split at hcall
        · rename_i w₂ hrunning
          rw [hrunning] at hends
          cases hcall
          exact hends.1
        · rename_i ret' w₂ hreturned
          rw [hreturned] at hends
          split_ifs at hcall
          · cases hcall
            exact hends.1
          · cases hcall
            exact hends.1
        · cases hcall
  · cases hcall
    exact htracking (Bool.eq_false_iff.mpr hconnected)

end

/-- A call of `smb2_read` or `smb2_write`, with what the network does meanwhile. -/
inductive SequentialCall where
  | read (polls : List Poll) (a : Nat) (buf : Bytes) (count : UInt32)
  | write (polls : List Poll) (a : Nat) (buf : Bytes) (count : UInt32)

def SequentialCall.call (env : Env) (w : World) (h : Nat) : SequentialCall → CallEnd
  | .read polls a buf count => smb2Read env polls w a h buf count
  | .write polls a buf count => smb2Write env polls w a h buf count

/-- Calls on one handle, one after the other, however they end. -/
inductive SequentialRun (env : Env) (h : Nat) (w : World) : World → Prop where
  | refl : SequentialRun env h w w
  | call {w' w'' : World} (call : SequentialCall) (hrun : SequentialRun env h w w')
      (hcall : (call.call env w' h).world = some w'') : SequentialRun env h w w''

section

variable {env : Env} {h : Nat} {start : Int} {older : List Event} {w w' : World}

theorem Tracking.transferCall (htracking : Tracking h start older w) {polls : List Poll} {a : Nat}
    {count : UInt32} {build : World → Option (Int × World)}
    (hbuild : ∀ w₀, Tracking h start older w₀ → ∀ ret w₁, build (w₀.callData a) = some (ret, w₁) →
      Tracking h start older w₁)
    (hcall : (CodeStudy.Samba.transferCall env polls w a h count build).world = some w') :
    Tracking h start older w' := by
  rw [CodeStudy.Samba.transferCall] at hcall
  split at hcall
  · cases hcall
  · rename_i w₁ hreset
    obtain ⟨fh, hfh, hw₁⟩ := Option.map_eq_some_iff.mp hreset
    have hreset : Tracking h start older w₁ := by
      rw [← hw₁]
      refine htracking.prepared rfl rfl (fun _ hb => hb) (fun fh' hfh' => ⟨fh, hfh, ?_⟩)
      simp only [Memory.setHandle, if_true, Option.some.injEq] at hfh'
      rw [← hfh', Nat.cast_zero, Int.add_zero]
    split_ifs at hcall
    · cases hcall
      exact hreset
    · exact tracking_callOnce (fun _ => hreset) (hbuild w₁ hreset) hcall

theorem Tracking.sequentialCall (htracking : Tracking h start older w) (call : SequentialCall)
    (hcall : (call.call env w h).world = some w') : Tracking h start older w' := by
  cases call with
  | read polls a buf count =>
      refine htracking.transferCall (fun w₀ hw₀ ret w₁ hbuild => ?_) hcall
      obtain ⟨fh, hfh, hbuild⟩ := Option.bind_eq_some_iff.mp hbuild
      obtain ⟨fh', hfh', hbuild⟩ := Option.map_eq_some_iff.mp hbuild
      cases hfh.symm.trans hfh'
      exact hw₀.transfer hfh (.inl rfl) rfl (fun smb2 pdu hpdu => fileOffset_read hpdu) hbuild
  | write polls a buf count =>
      refine htracking.transferCall (fun w₀ hw₀ ret w₁ hbuild => ?_) hcall
      obtain ⟨fh, hfh, hbuild⟩ := Option.bind_eq_some_iff.mp hbuild
      obtain ⟨fh', hfh', hbuild⟩ := Option.map_eq_some_iff.mp hbuild
      cases hfh.symm.trans hfh'
      exact hw₀.transfer hfh (.inr rfl) rfl (fun smb2 pdu hpdu => fileOffset_write hpdu) hbuild

theorem SequentialRun.tracking (hrun : SequentialRun env h w w') (htracking : Tracking h start older w) :
    Tracking h start older w' := by
  induction hrun with
  | refl => exact htracking
  | call call _ hcall ih => exact ih.sequentialCall call hcall

end

/-! ### From the opening on -/

section

variable {env : Env} {h : Nat} {start : Int} {w w₁ w₂ : World}

/-- A handle that was just opened is where the memory it was allocated in says. -/
theorem tracking_opened {polls : List Poll} {a : Nat} {f : OpenFunction} (hidle : w.Idle)
    (hopen : f.call env polls w a h (.fresh start) = .answered w₁) : Tracking h start w.trace w₁ := by
  obtain hcall | hcall := @OpenFunction.call_eq env polls w a h (.fresh start) f
  · have hopen := hcall.symm.trans hopen
    refine tracking_callOnce (fun hclosed => ?_) (fun ret w' hbuild => ?_) (by rw [hopen]; rfl)
    · rw [callOnce, if_neg (by rw [hclosed]; decide)] at hopen
      cases hopen
    · obtain ⟨req, hreq⟩ : ∃ req, f.request h (.fresh start) = .create h (.fresh start) req := by
        cases f
        all_goals exact ⟨_, rfl⟩
      simp only [hreq, HandleRequest.build, smb2BuildCreateRequest] at hbuild
      generalize hw₀ : ({ w.callData a with mem := _ } : World) = w₀ at hbuild
      have hsmb2 : w₀.smb2 = w.smb2 := by
        rw [← hw₀]
        rfl
      have hprepared : Tracking h start w.trace w₀ := by
        refine ⟨⟨[], by rw [← hw₀]; rfl, fun key chain hchain => ?_, fun _ => ⟨trivial, fun fh hfh => ?_⟩⟩,
          fun key chain hchain => ?_, fun key pdu hpdu => ?_⟩
        · rw [hsmb2] at hchain
          exact absurd hchain (OrdMap.not_lookup_of_empty hidle.1)
        · rw [← hw₀] at hfh
          simp only [Memory.setApp, Memory.setHandle, if_true, Option.some.injEq] at hfh
          rw [← hfh]
          simp [Smb2fh.fresh, acknowledgedBytes]
        · rw [hsmb2] at hchain
          exact absurd hchain (OrdMap.not_lookup_of_empty hidle.1)
        · rw [hsmb2] at hpdu
          exact absurd hpdu (OrdMap.not_lookup_of_empty hidle.2)
      split_ifs at hbuild
      obtain ⟨spec, hspec, err, w₃, hqueue, hret⟩ := queueOrFree_cases hbuild
      obtain ⟨hcommand, happData⟩ := encodeCreate_spec hspec
      have hdata : (w₀.mem.app spec.appData).fh = some h := by
        rw [← hw₀, happData]
        simp only [Memory.setApp, if_true]
      have hqueued : Tracking h start w.trace w₃ := by
        refine hprepared.queue hqueue (.inl hcommand) hdata fun pdu hpdu htransfer => ?_
        rw [Smb2Pdu.isTransfer, hpdu.command, hcommand] at htransfer
        rcases htransfer with htransfer | htransfer
        · cases htransfer
        · cases htransfer
      rcases hret with ⟨-, -, rfl⟩ | ⟨msg, -, -, rfl⟩
      · exact hqueued
      · exact hqueued.setErrorMsg _ _
  · cases hcall.symm.trans hopen

/-- A transfer was asked for. -/
def HasTransfer (evs : List Event) : Prop :=
  ∃ chain, .queued chain ∈ evs ∧ ∃ pdu ∈ chain.members, pdu.isTransfer

/-- A trace that follows one start follows zero only when the start is zero, or does not matter. -/
theorem offsetsFollow_zero_iff {evs : List Event} (hfollow : OffsetsFollow start evs) :
    OffsetsFollow 0 evs ↔ (HasTransfer evs → UInt64.ofInt start = 0) := by
  have hsum (n : Nat) : UInt64.ofInt (start + n) = UInt64.ofInt (0 + n) ↔ UInt64.ofInt start = 0 := by
    rw [UInt64.ofInt_add, UInt64.ofInt_add, UInt64.add_left_inj]
    rfl
  induction evs with
  | nil => exact ⟨fun _ ⟨_, hnone, _⟩ => absurd hnone List.not_mem_nil, fun _ => trivial⟩
  | cons event older ih =>
      obtain ⟨hqueued, hsent, holder⟩ := hfollow
      have ih := ih holder
      constructor
      · rintro ⟨hzero, -, hrest⟩ ⟨chain, hchain, pdu, hpdu, htransfer⟩
        rcases List.mem_cons.mp hchain with hevent | hmem
        · have hoffset := hqueued chain hevent.symm pdu hpdu htransfer
          rw [hzero chain hevent.symm pdu hpdu htransfer] at hoffset
          exact (hsum _).mp hoffset.symm
        · exact ih.mp hrest ⟨chain, hmem, pdu, hpdu, htransfer⟩
      · intro himp
        refine ⟨fun chain hevent pdu hpdu htransfer => ?_, hsent, ih.mpr fun ⟨chain, hchain, htransfer⟩ =>
          himp ⟨chain, List.mem_cons_of_mem _ hchain, htransfer⟩⟩
        rw [hqueued chain hevent pdu hpdu htransfer]
        exact (hsum _).mpr (himp ⟨chain, by rw [hevent]; exact List.mem_cons_self, pdu, hpdu, htransfer⟩)

/-- Calls of `smb2_read` and `smb2_write` on a new handle ask for the place where the acknowledged
bytes end, exactly when the memory of the handle held a zero where its offset is. -/
theorem offsetsFollow_iff {polls : List Poll} {a : Nat} {f : OpenFunction} (hidle : w.Idle)
    (hopen : f.call env polls w a h (.fresh start) = .answered w₁) (hrun : SequentialRun env h w₁ w₂) :
    ∃ evs, w₂.trace = evs ++ w.trace ∧ ((∀ event ∈ evs, event.notWriteEnd) →
      (OffsetsFollow 0 evs ↔ (HasTransfer evs → UInt64.ofInt start = 0))) := by
  obtain ⟨evs, htrace, -, hlaw⟩ := (hrun.tracking (tracking_opened hidle hopen)).law
  exact ⟨evs, htrace, fun hends => offsetsFollow_zero_iff (hlaw hends).1⟩

end

/-- A client whose server takes transfers of some size. -/
def transferring : World :=
  { idleClient 0 with smb2 := { (idleClient 0).smb2 with maxReadSize := 65536, maxWriteSize := 65536 } }

/-- A file is opened in memory that holds some offset. -/
def openedWith (start : Int) : CallEnd :=
  OpenFunction.call plainEnv (compoundPolls [createdFrame 0]) transferring 0 7 (.fresh start)
    (.path "f".toUTF8.toList 0)

/-- Three bytes are read. -/
def readThree : SequentialCall :=
  .read (compoundPolls [frameOf (replyHeader .read NtStatus.success 1 1 0 ++ leBytes 2 17 ++ leBytes 2 80 ++
    leBytes 4 3 ++ leBytes 8 0 ++ [1, 2, 3])]) 0 (List.replicate 4 0) 4

/-- A WRITE is sent, and nothing comes back yet. -/
def writeMore : SequentialCall := .write (compoundPolls []) 0 [9] 1

theorem offsetsFollow_zeroMemory :
    ∃ w₁ w₂ evs, openedWith 0 = .answered w₁ ∧ SequentialRun plainEnv 7 w₁ w₂ ∧
      w₂.trace = evs ++ transferring.trace ∧ acknowledgedBytes evs = 3 ∧ OffsetsFollow 0 evs := by
  have hany : (openedWith 0).answer?.any (fun w₁ => (readThree.call plainEnv w₁ 7).world.any fun w =>
      (writeMore.call plainEnv w 7).world.any fun w₂ =>
        (∀ event ∈ w₂.trace, event.notWriteEnd) ∧ acknowledgedBytes w₂.trace = 3) = true := by decide +kernel
  obtain ⟨w₁, hanswered, hany⟩ := (Option.any_eq_true _ _).mp hany
  have hopen := CallEnd.answer?_eq_some.mp hanswered
  obtain ⟨w, hread, hany⟩ := (Option.any_eq_true _ _).mp hany
  obtain ⟨w₂, hwrite, hall⟩ := (Option.any_eq_true _ _).mp hany
  rw [decide_eq_true_eq] at hall
  have hrun : SequentialRun plainEnv 7 w₁ w₂ := .call writeMore (.call readThree .refl hread) hwrite
  obtain ⟨evs, htrace, hiff⟩ := offsetsFollow_iff (w := transferring) ⟨rfl, rfl⟩ hopen hrun
  have hevs : w₂.trace = evs := htrace.trans (List.append_nil evs)
  rw [hevs] at hall
  exact ⟨w₁, w₂, evs, hopen, hrun, htrace, hall.2, (hiff hall.1).mpr fun _ => rfl⟩

/-- A READ that waits for its answer. -/
def firstRead : SequentialCall := .read [] 0 (List.replicate 4 0) 4

/-- The chain that was queued last, if nothing happened since. -/
def lastQueued? : List Event → Option (PduChain × List Event)
  | .queued chain :: older => some (chain, older)
  | _ => none

theorem lastQueued?_eq_some {trace older : List Event} {chain : PduChain} :
    lastQueued? trace = some (chain, older) ↔ trace = .queued chain :: older := by
  constructor
  · intro h
    unfold lastQueued? at h
    split at h
    · cases h
      rfl
    · cases h
  · rintro rfl
    rfl

/-- The memory of the handle held a five: the first READ asks for the bytes from there on. -/
theorem not_offsetsFollow_staleMemory :
    ∃ w₁ w₂ chain older, openedWith 5 = .answered w₁ ∧ SequentialRun plainEnv 7 w₁ w₂ ∧
      w₂.trace = .queued chain :: older ∧ acknowledgedBytes older = 0 ∧ chain.head.isTransfer ∧
      chain.head.fileOffset = 5 ∧ ¬ OffsetsFollow 0 w₂.trace := by
  have hany : (openedWith 5).answer?.any (fun w₁ => (firstRead.call plainEnv w₁ 7).world.any fun w₂ =>
      (lastQueued? w₂.trace).any fun last => acknowledgedBytes last.2 = 0 ∧
        last.1.head.command = .read ∧ last.1.head.fileOffset = 5) = true := by decide +kernel
  obtain ⟨w₁, hanswered, hany⟩ := (Option.any_eq_true _ _).mp hany
  have hopen := CallEnd.answer?_eq_some.mp hanswered
  obtain ⟨w₂, hread, hany⟩ := (Option.any_eq_true _ _).mp hany
  obtain ⟨⟨chain, older⟩, hlast, hall⟩ := (Option.any_eq_true _ _).mp hany
  have htrace := lastQueued?_eq_some.mp hlast
  rw [decide_eq_true_eq] at hall
  obtain ⟨hzero, hcommand, hoffset⟩ := hall
  refine ⟨w₁, w₂, chain, older, hopen, .call firstRead .refl hread, htrace, hzero, .inl hcommand, hoffset,
    fun hfollow => ?_⟩
  rw [htrace] at hfollow
  have hhead := hfollow.1 chain rfl chain.head List.mem_cons_self (.inl hcommand)
  rw [hoffset, hzero] at hhead
  exact absurd hhead (by decide)

end CodeStudy.Samba
