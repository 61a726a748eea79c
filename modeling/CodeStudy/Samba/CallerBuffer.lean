import CodeStudy.Samba.FileRequests
import CodeStudy.Samba.ReplyWindow

/-!
# Copies into the caller's buffer

A READ and an IOCTL come with a buffer of the caller. The request asks the server for no more bytes
than the buffer has, and the handler of the reply copies as many as the server says. Nothing in
between compares the two numbers: what keeps a copy inside the buffer is the server alone.
-/

namespace CodeStudy.Samba

/-! ### Decoding a whole reply -/

/-- A reply whose bytes arrive, up to its handler: the fixed part is decoded and then the variable
part, when the fixed part says that there is one. The client rejects the reply when this is `none`. -/
def decodeReply (env : Env) (w : World) (request : Smb2Pdu) (fixed rest : Bytes) :
    Option (Smb2Pdu × World) :=
  let (varSize, pdu, w) := smb2ReplyProcessFixed w (RecvState.save request fixed)
  if varSize < 0 then none
  else if varSize = 0 then some (pdu, w)
  else if rest.length < varSize.toNat then none
  else
    let (ret, pdu, w) := smb2ReplyProcessVariable env w (RecvState.save pdu (rest.take varSize.toNat))
    if ret < 0 then none else some (pdu, w)

section

variable {env : Env} {w w' : World} {s : RecvState} {request pdu : Smb2Pdu} {fixed rest : Bytes}

/-- A reply without a variable part is complete after its fixed part. -/
theorem onFixed_decodeReply
    (hv : (smb2ReplyProcessFixed s.world (RecvState.save request fixed)).1 = 0)
    (h : decodeReply env s.world request fixed rest = some (pdu, w')) :
    s.onFixed env request fixed = { s with world := w' }.checkPadding env pdu "fixed" := by
  simp only [decodeReply, hv, lt_irrefl, if_false, if_true, Option.some.injEq, Prod.mk.injEq] at h
  obtain ⟨rfl, rfl⟩ := h
  simp only [RecvState.onFixed, hv, lt_irrefl, if_false]

/-- Any other reply is complete after its variable part, whatever the socket did in between. -/
theorem onVariable_decodeReply {socket : Smb2Socket}
    (hv : 0 < (smb2ReplyProcessFixed w (RecvState.save request fixed)).1)
    (hworld : s.world = { (smb2ReplyProcessFixed w (RecvState.save request fixed)).2.2 with socket })
    (h : decodeReply env w request fixed rest = some (pdu, w')) :
    s.onVariable env (smb2ReplyProcessFixed w (RecvState.save request fixed)).2.1
        (rest.take (smb2ReplyProcessFixed w (RecvState.save request fixed)).1.toNat) =
      { s with world := { w' with socket } }.checkPadding env pdu "variable" := by
  simp only [decodeReply] at h
  generalize smb2ReplyProcessFixed w (RecvState.save request fixed) = parsed at hv hworld h ⊢
  obtain ⟨v, pdu₁, w₁⟩ := parsed
  simp only at hv hworld h
  rw [if_neg (by omega), if_neg (by omega)] at h
  split_ifs at h with hshort hfailed
  simp only [Option.some.injEq, Prod.mk.injEq] at h
  obtain ⟨rfl, rfl⟩ := h
  simp only [RecvState.onVariable, smb2ReplyProcessVariable, hworld] at hfailed ⊢
  cases herror : (variablePart env w₁.smb2 ((RecvState.save pdu₁ (rest.take v.toNat)).inVecs.iovs.getLastD [])
      (RecvState.save pdu₁ (rest.take v.toNat))).error with
  | none => simp only [lt_irrefl, if_false]
  | some msg =>
      simp only [herror] at hfailed
      exact absurd (by decide) hfailed

/-- What an accepted reply is decoded to. Nothing in the memory changes. -/
theorem decodeReply_cases (h : decodeReply env w request fixed rest = some (pdu, w')) :
    w'.mem = w.mem ∧ ∃ v payload inVecs, pdu = { request with payload, inVecs } ∧
      (fixedPart w.smb2 (RecvState.save request fixed) fixed).ret = .ok v ∧
      ((v = 0 ∧ payload = (fixedPart w.smb2 (RecvState.save request fixed) fixed).payload) ∨
        (0 < v ∧ v.toNat ≤ rest.length ∧ ∃ smb2 inVecs', payload =
          (variablePart env smb2 (rest.take v.toNat) { request with
            payload := (fixedPart w.smb2 (RecvState.save request fixed) fixed).payload
            inVecs := inVecs' }).payload)) := by
  have hlast (vecs : Smb2IoVectors) (iov : Bytes) :
      (vecs.smb2AddIovector iov).iovs.getLastD [] = iov := by
    simp [Smb2IoVectors.smb2AddIovector, List.getLastD_eq_getLast?]
  simp only [decodeReply, smb2ReplyProcessFixed, RecvState.save, hlast] at h ⊢
  split at h
  · rename_i v hret
    simp only at h
    split_ifs at h with hneg hzero hshort hfailed
    · simp only [Option.some.injEq, Prod.mk.injEq] at h
      obtain ⟨rfl, rfl⟩ := h
      exact ⟨rfl, v, _, _, rfl, hret, .inl ⟨hzero, rfl⟩⟩
    · simp only [smb2ReplyProcessVariable, hlast] at h hfailed
      split at h
      · simp only [Option.some.injEq, Prod.mk.injEq] at h
        obtain ⟨rfl, rfl⟩ := h
        exact ⟨rfl, v, _, _, rfl, hret, .inr ⟨by omega, by omega, _, _, rfl⟩⟩
      · rename_i herror
        simp only [herror] at hfailed
        exact absurd (by decide) hfailed
  · exact absurd h (by simp)

end

/-! ### Calls with a buffer -/

/-- The commands whose answer is copied to the caller. -/
inductive CopyCommand where
  | read | ioctl
  deriving DecidableEq

def CopyCommand.toSmb2Command : CopyCommand → Smb2Command
  | read => .read
  | ioctl => .ioctl

/-- A call of READ or IOCTL: where its data are, the handle it is about, and the caller's buffer,
whose size the caller gives as a number of 32 bits. -/
structure BufferCall where
  command : CopyCommand
  appData : Nat
  handle : Nat
  buf : Bytes
  fits : buf.length < 2 ^ 32

namespace BufferCall

variable (call : BufferCall) (w : World)

/-- The memory is as the call left it before it waits for the reply. -/
def Waits : Prop :=
  match call.command with
  | .read => (w.mem.app call.appData).fh = some call.handle ∧ (w.mem.app call.appData).readBuf = call.buf ∧
      ∃ fh, w.mem.handle call.handle = some fh ∧ fh.byteCount = 0
  | .ioctl => (w.mem.app call.appData).outBuf = call.buf ∧
      (w.mem.app call.appData).outBufLen = UInt32.ofNat call.buf.length

/-- The caller's buffer. -/
def buffer : Bytes :=
  match call.command with
  | .read => (w.mem.app call.appData).readBuf
  | .ioctl => (w.mem.app call.appData).outBuf

/-- The count the caller is told. A READ counts in its handle; an IOCTL counts only when it does not
fail. -/
def reported (status : NtStatus) : Option UInt32 :=
  match call.command with
  | .read => (w.mem.handle call.handle).map Smb2fh.byteCount
  | .ioctl => if status = NtStatus.success then some (w.mem.app call.appData).outBufLen else none

/-- The handler returns, it copied some bytes over the beginning of the buffer, no more than the
buffer has, and the caller is told how many these were. -/
def CopiesWithin (status : NtStatus) (result : Option World) : Prop :=
  ∃ w', result = some w' ∧ ∃ data : Bytes, data.length ≤ call.buf.length ∧
    call.buffer w' = memcpy call.buf 0 data ∧ ∀ count ∈ call.reported w' status, count.toNat = data.length

/-- The length the server gives is no more than the buffer has, and the data it stands for are data
of the reply. -/
def LengthFits (status : NtStatus) (fixed : Bytes) : Prop :=
  match call.command with
  | .read =>
      (status = NtStatus.success → (smb2GetUint32 fixed 4 0).toNat ≤ call.buf.length) ∧
        -- an error reply has no data, whatever length it gives
        (status = NtStatus.endOfFile → smb2GetUint32 fixed 4 0 = 0)
  | .ioctl =>
      status = NtStatus.success → (smb2GetUint32 fixed 36 0).toNat ≤ call.buf.length ∧
        (smb2GetUint32 fixed 32 0).toNat + (smb2GetUint32 fixed 36 0).toNat < 2 ^ 32 + 112

end BufferCall

/-! ### What the builders leave behind -/

section

variable {env : Env} {w w' : World}

/-- A request that was queued changes nothing of the memory. -/
theorem queueFor_mem {builder failed : String} {code : Int} {spec : RequestSpec} (hcode : code ≠ 0)
    (h : queueFor env w builder failed code spec = (0, w')) : w'.mem = w.mem := by
  simp only [queueFor, queueRequest, smb2QueuePdu] at h
  split_ifs at h
  · split at h
    · rename_i hqueue
      split at hqueue
      · cases hqueue
      · simp only [Prod.mk.injEq, true_and] at hqueue h
        rw [← h, ← hqueue]
        rfl
    · exact absurd (Prod.mk.inj h).1 (by decide)
  · exact absurd (Prod.mk.inj h).1 hcode

/-- A READ waits for its reply with the caller's buffer and a handle that counts nothing yet. -/
theorem waits_smb2BuildReadRequest {call : BufferCall} {fh : Smb2fh} {count : UInt32} {offset : UInt64}
    (hcommand : call.command = .read) (hfh : w.mem.handle call.handle = some fh) (hcount : fh.byteCount = 0)
    (h : smb2BuildReadRequest env w call.handle call.buf count offset call.appData = some (0, w')) :
    call.Waits w' := by
  simp only [smb2BuildReadRequest, hfh, Option.map_some, Option.some.injEq] at h
  have hmem := queueFor_mem (by decide) h
  simp only [BufferCall.Waits, hcommand, hmem, World.prepareTransfer, Memory.setApp, Memory.setHandle, if_true]
  exact ⟨trivial, trivial, _, rfl, hcount⟩

/-- An IOCTL waits for its reply with the caller's buffer and its size. -/
theorem waits_smb2BuildIoctlRequest {call : BufferCall} {ctl flags : UInt32} {input : Bytes}
    (hcommand : call.command = .ioctl)
    (h : smb2BuildIoctlRequest env w call.handle ctl flags input call.buf call.appData = some (0, w')) :
    call.Waits w' := by
  simp only [smb2BuildIoctlRequest] at h
  split_ifs at h
  · exact absurd (Prod.mk.inj (Option.some.inj h)).1 (by decide)
  · obtain ⟨fh, -, hqueue⟩ := Option.map_eq_some_iff.mp h
    have hmem := queueFor_mem (by decide) hqueue
    simp only [BufferCall.Waits, hcommand, hmem, Memory.setApp, if_true, and_self]

end

/-! ### What the handlers find -/

section

variable {env : Env} {w w' : World} {request pdu : Smb2Pdu} {fixed rest : Bytes}

/-- The data of a READ reply are as long as it says. -/
theorem decodeReply_read (hcommand : request.command = .read)
    (hstatus : request.headerResp.status = NtStatus.success)
    (h : decodeReply env w request fixed rest = some (pdu, w')) :
    ∃ rep, pdu.payload = .read rep ∧ rep.dataLength = smb2GetUint32 fixed 4 0 ∧
      rep.dataLength.toNat = rep.readData.length := by
  obtain ⟨-, v, payload, inVecs, rfl, hret, hpayload⟩ := decodeReply_cases h
  have herror : (RecvState.save request fixed).smb2ReplyIsError = false := by
    simp only [RecvState.save, Smb2Pdu.smb2ReplyIsError, hstatus]
    decide
  have hcommand' : (RecvState.save request fixed).command = .read := hcommand
  simp only [fixedPart, herror, hcommand', readFixed, Bool.false_eq_true, if_false] at hret hpayload
  split_ifs at hret with hsize hlength hoffset
  · rw [if_neg hsize, if_pos hlength] at hpayload
    rcases hpayload with ⟨-, rfl⟩ | ⟨hpos, -⟩
    · exact ⟨_, rfl, rfl, by simp [hlength]⟩
    · rw [← Except.ok.inj hret] at hpos
      exact absurd hpos (lt_irrefl 0)
  · rw [if_neg hsize, if_neg hlength, if_neg hoffset] at hpayload
    have hv := Except.ok.inj hret
    have hpositive : 0 < (smb2GetUint32 fixed 4 0).toNat := by
      rw [Nat.pos_iff_ne_zero]
      exact fun hzero => hlength (UInt32.toNat_inj.mp hzero)
    have hlarge := (smb2GetUint32 fixed 4 0).toNat_lt
    rcases hpayload with ⟨hzero, -⟩ | ⟨hpos, hle, smb2, inVecs', rfl⟩
    · rw [toInt32, Int.bmod_def] at hv
      omega
    · refine ⟨_, rfl, rfl, ?_⟩
      simp only [List.length_take, Nat.min_eq_left hle]
      rw [toInt32, Int.bmod_def] at hv
      omega

/-- An error reply to any command keeps its length field and nothing else a READ would look at. -/
theorem decodeReply_error (hstatus : request.smb2ReplyIsError = true)
    (h : decodeReply env w request fixed rest = some (pdu, w')) :
    ∃ rep, pdu.payload = .error rep ∧ rep.byteCount = smb2GetUint32 fixed 4 0 := by
  obtain ⟨-, v, payload, inVecs, rfl, hret, hpayload⟩ := decodeReply_cases h
  have herror : (RecvState.save request fixed).smb2ReplyIsError = true := hstatus
  simp only [fixedPart, herror, if_true, smb2ProcessErrorReplyFixed] at hret hpayload
  cases hsize : unexpectedSize "Error reply" 9 fixed with
  | some msg =>
      simp only [hsize] at hret
      cases hret
  | none =>
      simp only [hsize] at hpayload
      rcases hpayload with ⟨-, rfl⟩ | ⟨-, -, smb2, inVecs', rfl⟩
      · exact ⟨_, rfl, rfl⟩
      · exact ⟨_, rfl, rfl⟩

/-- The data of an IOCTL reply are as long as it says exactly when their end fits in 32 bits. -/
theorem decodeReply_ioctl (hcommand : request.command = .ioctl)
    (hstatus : request.headerResp.status = NtStatus.success)
    (h : decodeReply env w request fixed rest = some (pdu, w')) :
    ∃ rep, pdu.payload = .ioctl rep ∧ rep.outputCount = smb2GetUint32 fixed 36 0 ∧
      (rep.outputCount.toNat ≤ rep.outputBuffer.length ↔
        (smb2GetUint32 fixed 32 0).toNat + (smb2GetUint32 fixed 36 0).toNat < 2 ^ 32 + 112) := by
  obtain ⟨-, v, payload, inVecs, rfl, hret, hpayload⟩ := decodeReply_cases h
  have herror : (RecvState.save request fixed).smb2ReplyIsError = false := by
    simp only [RecvState.save, Smb2Pdu.smb2ReplyIsError, hstatus]
    decide
  have hcommand' : (RecvState.save request fixed).command = .ioctl := hcommand
  simp only [fixedPart, herror, hcommand', ioctlFixed, Bool.false_eq_true, if_false] at hret hpayload
  cases hsize : unexpectedSize "IOCTL reply" 49 fixed with
  | some msg =>
      simp only [hsize] at hret
      cases hret
  | none =>
      simp only [hsize] at hret hpayload
      split_ifs at hret with hcount hoverlap
      rw [if_neg hcount, if_neg hoverlap] at hpayload
      have hv := Except.ok.inj hret
      have hbase : (64 + 48 : UInt32).toNat = 112 := rfl
      have h64 : (64 : UInt32).toNat = 64 := rfl
      have h48 : (48 : UInt32).toNat = 48 := rfl
      rw [UInt32.not_lt, UInt32.le_iff_toNat_le, hbase] at hoverlap
      have hstart := toNat_sub_sub (x := smb2GetUint32 fixed 32 0) (a := 64) (b := 48)
        (by rw [h64, h48]; exact hoverlap)
      rw [h64, h48] at hstart
      have hpositive : 0 < (smb2GetUint32 fixed 36 0).toNat := by
        rw [Nat.pos_iff_ne_zero]
        exact fun hzero => hcount (UInt32.toNat_inj.mp hzero)
      have hlarge := (smb2GetUint32 fixed 36 0).toNat_lt
      have hlarge' := (smb2GetUint32 fixed 32 0).toNat_lt
      rw [UInt32.toNat_add, hstart, toInt32, Int.bmod_def] at hv
      rcases hpayload with ⟨hzero, rfl⟩ | ⟨hpos, hle, smb2, inVecs', rfl⟩
      · refine ⟨_, rfl, rfl, ?_⟩
        simp only [List.length_nil]
        omega
      · refine ⟨_, rfl, rfl, ?_⟩
        simp only [List.length_drop, List.length_take, Nat.min_eq_left hle, hstart]
        omega

end

/-! ### What the handlers copy -/

section

variable {env : Env} {call : BufferCall} {w w' : World} {pdu : Smb2Pdu}

theorem not_copiesWithin_none (status : NtStatus) : ¬ call.CopiesWithin status none := by
  rintro ⟨w', hw', -⟩
  cases hw'

/-- A handler that leaves buffer and count alone copies nothing. -/
theorem copiesWithin_nothing {status : NtStatus} (hbuffer : call.buffer w' = call.buf)
    (hreported : ∀ count ∈ call.reported w' status, count = 0) : call.CopiesWithin status (some w') := by
  refine ⟨w', rfl, [], Nat.zero_le _, ?_, fun count hcount => ?_⟩
  · rw [hbuffer, memcpy]
    simp
  · rw [hreported count hcount]
    rfl

/-- A READ that fails leaves the caller's buffer and the count 0. -/
theorem readReply_failed (hcommand : call.command = .read) (happData : pdu.appData = call.appData)
    (hwaits : call.Waits w) (hstatus : pdu.headerResp.status ≠ NtStatus.success)
    (heof : pdu.headerResp.status ≠ NtStatus.endOfFile) :
    call.CopiesWithin pdu.headerResp.status (readReply w pdu env) := by
  simp only [BufferCall.Waits, hcommand] at hwaits
  obtain ⟨-, hbuf, fh, hfh, hzero⟩ := hwaits
  simp only [readReply]
  rw [if_pos ⟨hstatus, heof⟩]
  apply copiesWithin_nothing
  · simp only [BufferCall.buffer, hcommand, happData, World.endSendReceive, World.setErrorMsg,
      World.setNtStatus, Memory.setApp, if_true, hbuf]
  · simp only [BufferCall.reported, hcommand, World.endSendReceive, World.setErrorMsg, World.setNtStatus,
      Memory.setApp, hfh, Option.map_some, Option.mem_def, Option.some.injEq]
    intro count hcount
    rw [← hcount, hzero]

/-- A READ copies as many bytes as the reply says, when they fit. -/
theorem readReply_copies {rep : Smb2ReadReply} (hcommand : call.command = .read)
    (happData : pdu.appData = call.appData) (hwaits : call.Waits w)
    (hstatus : pdu.headerResp.status = NtStatus.success ∨ pdu.headerResp.status = NtStatus.endOfFile)
    (hview : readReplyView env pdu.payload = some rep) (hlength : rep.dataLength.toNat = rep.readData.length) :
    call.CopiesWithin pdu.headerResp.status (readReply w pdu env) ↔
      rep.dataLength.toNat ≤ call.buf.length := by
  simp only [BufferCall.Waits, hcommand] at hwaits
  obtain ⟨haddress, hbuf, fh, hfh, -⟩ := hwaits
  have hresult : ¬ (pdu.headerResp.status ≠ 0 ∧ pdu.headerResp.status ≠ NtStatus.endOfFile) := by
    rcases hstatus with hstatus | hstatus
    · exact fun h => h.1 hstatus
    · exact fun h => h.2 hstatus
  simp only [readReply]
  rw [if_neg hresult]
  simp only [World.setNtStatus, Memory.setApp, happData, if_true, haddress, hfh, hview, hbuf,
    Option.bind_eq_bind, Option.bind_some]
  by_cases hfits : rep.dataLength.toNat ≤ call.buf.length
  · rw [if_pos ⟨hlength.le, hfits⟩]
    refine ⟨fun _ => hfits, fun _ => ⟨_, rfl, rep.readData, hlength ▸ hfits, ?_, ?_⟩⟩
    · simp only [BufferCall.buffer, hcommand, World.endSendReceive, Memory.setHandle, if_true, hlength,
        List.take_length]
    · simp only [BufferCall.reported, hcommand, World.endSendReceive, Memory.setHandle, if_true,
        Option.map_some, Option.mem_def, Option.some.injEq, forall_eq', hlength]
  · rw [if_neg fun h => hfits h.2]
    exact ⟨fun h => absurd h (not_copiesWithin_none _), fun h => absurd h hfits⟩

/-- An IOCTL that fails leaves the caller's buffer alone. -/
theorem ioctlReply_failed (hcommand : call.command = .ioctl) (happData : pdu.appData = call.appData)
    (hwaits : call.Waits w) (hstatus : pdu.headerResp.status ≠ NtStatus.success) :
    call.CopiesWithin pdu.headerResp.status (ioctlReply w pdu) := by
  simp only [BufferCall.Waits, hcommand] at hwaits
  simp only [ioctlReply]
  rw [if_pos hstatus]
  apply copiesWithin_nothing
  · simp only [BufferCall.buffer, hcommand, happData, World.endSendReceive, World.setErrorMsg,
      World.setNtStatus, Memory.setApp, if_true, hwaits.1]
  · simp only [BufferCall.reported, hcommand, hstatus, if_false, Option.mem_def, reduceCtorEq, false_implies,
      implies_true]

/-- An IOCTL copies as many bytes as the reply says, when they are there and fit. -/
theorem ioctlReply_copies {rep : Smb2IoctlReply} (hcommand : call.command = .ioctl)
    (happData : pdu.appData = call.appData) (hwaits : call.Waits w)
    (hstatus : pdu.headerResp.status = NtStatus.success) (hpayload : pdu.payload = .ioctl rep) :
    call.CopiesWithin pdu.headerResp.status (ioctlReply w pdu) ↔
      rep.outputCount.toNat ≤ rep.outputBuffer.length ∧ rep.outputCount.toNat ≤ call.buf.length := by
  simp only [BufferCall.Waits, hcommand] at hwaits
  simp only [ioctlReply]
  rw [if_neg (not_not.mpr hstatus)]
  simp only [hpayload, World.setNtStatus, Memory.setApp, happData, if_true, hwaits.1]
  by_cases hfits : rep.outputCount.toNat ≤ rep.outputBuffer.length ∧ rep.outputCount.toNat ≤ call.buf.length
  · rw [if_pos hfits]
    have htake : (rep.outputBuffer.take rep.outputCount.toNat).length = rep.outputCount.toNat := by
      rw [List.length_take, Nat.min_eq_left hfits.1]
    refine ⟨fun _ => hfits, fun _ => ⟨_, rfl, rep.outputBuffer.take rep.outputCount.toNat, ?_, ?_, ?_⟩⟩
    · rw [htake]
      exact hfits.2
    · simp only [BufferCall.buffer, hcommand, World.endSendReceive, if_true]
    · simp only [BufferCall.reported, hcommand, hstatus, World.endSendReceive, if_true, Option.mem_def,
        Option.some.injEq, forall_eq', htake]
  · rw [if_neg hfits]
    exact ⟨fun h => absurd h (not_copiesWithin_none _), fun h => absurd h hfits⟩

end

section

variable {env : Env} {call : BufferCall} {w w₁ w' : World} {request pdu handed : Smb2Pdu}
  {fixed rest : Bytes}

/-- What the handlers of the two commands look at in a reply. -/
structure SameAnswer (pdu handed : Smb2Pdu) : Prop where
  appData : handed.appData = pdu.appData
  headerResp : handed.headerResp = pdu.headerResp
  payload : handed.payload = pdu.payload

theorem readReply_copiesWithin_iff (hcommand : request.command = .read) (hcall : call.command = .read)
    (happData : request.appData = call.appData) (hwaits : call.Waits w₁)
    (haccept : decodeReply env w request fixed rest = some (pdu, w')) (hsame : SameAnswer pdu handed) :
    call.CopiesWithin handed.headerResp.status (readReply w₁ handed env) ↔
      call.LengthFits handed.headerResp.status fixed := by
  obtain ⟨-, -, payload, vecs, hpdu, -⟩ := decodeReply_cases haccept
  have hstatus : handed.headerResp.status = request.headerResp.status := by rw [hsame.headerResp, hpdu]
  have haddress : handed.appData = call.appData := by rw [hsame.appData, hpdu]; exact happData
  simp only [BufferCall.LengthFits, hcall]
  by_cases hsuccess : handed.headerResp.status = NtStatus.success
  · obtain ⟨rep, hrep, hcount, hlength⟩ := decodeReply_read hcommand (hstatus ▸ hsuccess) haccept
    have heof : ¬ handed.headerResp.status = NtStatus.endOfFile := by
      rw [hsuccess]
      decide
    have hview : readReplyView env handed.payload = some rep := by
      rw [hsame.payload, hrep, readReplyView]
    rw [readReply_copies hcall haddress hwaits (.inl hsuccess) hview hlength, hcount]
    exact ⟨fun h => ⟨fun _ => h, fun h' => absurd h' heof⟩, fun h => h.1 hsuccess⟩
  · by_cases heof : handed.headerResp.status = NtStatus.endOfFile
    · have herror : request.smb2ReplyIsError = true := by
        rw [Smb2Pdu.smb2ReplyIsError, ← hstatus, heof]
        decide
      obtain ⟨rep, hrep, hcount⟩ := decodeReply_error herror haccept
      by_cases hzero : rep.byteCount = 0
      · have hview : readReplyView env handed.payload = some { dataRemaining := env.stale } := by
          rw [hsame.payload, hrep, readReplyView, if_pos hzero]
        rw [readReply_copies hcall haddress hwaits (.inr heof) hview rfl]
        exact ⟨fun _ => ⟨fun h => absurd h hsuccess, fun _ => hcount ▸ hzero⟩, fun _ => Nat.zero_le _⟩
      · -- the pointer to the data would lie behind the structure of an error reply
        have hview : readReplyView env handed.payload = none := by
          rw [hsame.payload, hrep, readReplyView, if_neg hzero]
        have hundefined : readReply w₁ handed env = none := by
          simp only [readReply, heof, ne_eq, not_true_eq_false, and_false, if_false, hview,
            Option.bind_eq_bind, Option.bind_none, Option.bind_fun_none]
        rw [hundefined]
        exact ⟨fun h => absurd h (not_copiesWithin_none _),
          fun h => absurd (hcount.trans (h.2 heof)) hzero⟩
    · exact ⟨fun _ => ⟨fun h => absurd h hsuccess, fun h => absurd h heof⟩,
        fun _ => readReply_failed hcall haddress hwaits hsuccess heof⟩

theorem ioctlReply_copiesWithin_iff (hcommand : request.command = .ioctl) (hcall : call.command = .ioctl)
    (happData : request.appData = call.appData) (hwaits : call.Waits w₁)
    (haccept : decodeReply env w request fixed rest = some (pdu, w')) (hsame : SameAnswer pdu handed) :
    call.CopiesWithin handed.headerResp.status (ioctlReply w₁ handed) ↔
      call.LengthFits handed.headerResp.status fixed := by
  obtain ⟨-, -, payload, vecs, hpdu, -⟩ := decodeReply_cases haccept
  have hstatus : handed.headerResp.status = request.headerResp.status := by rw [hsame.headerResp, hpdu]
  have haddress : handed.appData = call.appData := by rw [hsame.appData, hpdu]; exact happData
  simp only [BufferCall.LengthFits, hcall]
  by_cases hsuccess : handed.headerResp.status = NtStatus.success
  · obtain ⟨rep, hrep, hcount, hthere⟩ := decodeReply_ioctl hcommand (hstatus ▸ hsuccess) haccept
    rw [ioctlReply_copies hcall haddress hwaits hsuccess (hsame.payload.trans hrep), hthere, hcount]
    exact ⟨fun h _ => h.symm, fun h => (h hsuccess).symm⟩
  · exact ⟨fun _ h => absurd h hsuccess, fun _ => ioctlReply_failed hcall haddress hwaits hsuccess⟩

/-- A decoded reply as the receive loop hands it to its handler: padding may be saved with it, the
socket was read on, and the reply may not be the last one of its frame. -/
def handleReply (env : Env) (w : World) (pdu : Smb2Pdu) (socket : Smb2Socket) (inVecs : Smb2IoVectors)
    (bIsLastInCompound : Bool) : Option World :=
  let pdu := { pdu with inVecs, bIsLastInCompound }
  smb2ProcessReplyAndAppData env ({ w with socket }.log (.processed pdu)) pdu

/-- For a READ or an IOCTL that waits for its reply and any reply that the client accepts: the bytes
copied stay in the caller's buffer and are counted exactly when the length in the reply fits. -/
theorem copiesWithin_iff_lengthFits (hcommand : request.command = call.command.toSmb2Command)
    (happData : request.appData = call.appData) (hwaits : call.Waits w)
    (haccept : decodeReply env w request fixed rest = some (pdu, w')) (socket : Smb2Socket)
    (inVecs : Smb2IoVectors) (bIsLastInCompound : Bool) :
    call.CopiesWithin request.headerResp.status (handleReply env w' pdu socket inVecs bIsLastInCompound) ↔
      call.LengthFits request.headerResp.status fixed := by
  obtain ⟨hmem, -, payload, vecs, hpdu, -⟩ := decodeReply_cases haccept
  simp only [handleReply]
  generalize hhanded : { pdu with inVecs, bIsLastInCompound } = handed
  have hsame : SameAnswer pdu handed := by
    rw [← hhanded]
    exact ⟨rfl, rfl, rfl⟩
  have hready : call.Waits ({ w' with socket }.log (.processed handed)) := by
    simp only [BufferCall.Waits, World.log, hmem] at hwaits ⊢
    exact hwaits
  have hstatus : request.headerResp.status = handed.headerResp.status := by rw [hsame.headerResp, hpdu]
  have hhandedCommand : handed.command = call.command.toSmb2Command := by
    rw [← hhanded, hpdu]
    exact hcommand
  rw [hstatus]
  cases hcall : call.command with
  | read =>
      rw [hcall] at hcommand hhandedCommand
      simp only [smb2ProcessReplyAndAppData, hhandedCommand, CopyCommand.toSmb2Command]
      exact readReply_copiesWithin_iff hcommand hcall happData hready haccept hsame
  | ioctl =>
      rw [hcall] at hcommand hhandedCommand
      simp only [smb2ProcessReplyAndAppData, hhandedCommand, CopyCommand.toSmb2Command]
      exact ioctlReply_copiesWithin_iff hcommand hcall happData hready haccept hsame

end

/-- A READ into a buffer of four bytes. -/
def shortRead : BufferCall where
  command := .read
  appData := 0
  handle := 1
  buf := List.replicate 4 0
  fits := by decide

/-- A client whose READ waits for its reply. -/
def readWaiting : World :=
  { smb2 := Smb2Context.fresh smb2Version0210
    mem := { app := fun _ => { fh := some 1, readBuf := List.replicate 4 0 }
             handle := fun _ => some {} } }

theorem waits_readWaiting : shortRead.Waits readWaiting := ⟨rfl, rfl, {}, rfl, rfl⟩

/-- The fixed part of a READ reply with some bytes of data. -/
def readPart (length : Nat) : Bytes := leBytes 2 17 ++ leBytes 2 80 ++ leBytes 4 length ++ leBytes 8 0

theorem copiesWithin_shortRead :
    ∃ pdu w', decodeReply plainEnv readWaiting (waitingRequest .read) (readPart 3) [1, 2, 3] = some (pdu, w') ∧
      shortRead.CopiesWithin NtStatus.success (handleReply plainEnv w' pdu {} {} true) := by
  have hsome : (decodeReply plainEnv readWaiting (waitingRequest .read) (readPart 3) [1, 2, 3]).isSome := by
    decide
  obtain ⟨⟨pdu, w'⟩, haccept⟩ := Option.isSome_iff_exists.mp hsome
  refine ⟨pdu, w', haccept, ?_⟩
  apply (copiesWithin_iff_lengthFits rfl rfl waits_readWaiting haccept {} {} true).mpr
  exact ⟨fun _ => by decide, fun h => absurd h (by decide)⟩

/-- A server that answers with more bytes than it was asked for writes behind the caller's buffer. -/
theorem not_copiesWithin_longReply :
    ∃ pdu w', decodeReply plainEnv readWaiting (waitingRequest .read) (readPart 5) [1, 2, 3, 4, 5] =
        some (pdu, w') ∧
      ¬ shortRead.CopiesWithin NtStatus.success (handleReply plainEnv w' pdu {} {} true) := by
  have hnone : (decodeReply plainEnv readWaiting (waitingRequest .read) (readPart 5) [1, 2, 3, 4, 5]).any
      (fun reply => (handleReply plainEnv reply.2 reply.1 {} {} true).isNone) = true := by decide
  obtain ⟨⟨pdu, w'⟩, haccept, hundefined⟩ := (Option.any_eq_true _ _).mp hnone
  refine ⟨pdu, w', haccept, ?_⟩
  rw [Option.isNone_iff_eq_none] at hundefined
  rw [hundefined]
  exact not_copiesWithin_none _

end CodeStudy.Samba
