import CodeStudy.Samba.CallerBuffer

/-!
# What a handle counts

The reply to a READ or a WRITE leaves in the handle how many bytes were transferred and how many the
server has left. A failed reply is decoded to another structure than a successful one, through the
same untyped pointer. The decoder tells the two apart by the severity of the status, the handler by
two of its values, and END_OF_FILE is an error for the one and none for the other.
-/

namespace CodeStudy.Samba

namespace Smb2Pdu

variable (pdu : Smb2Pdu)

/-- The bytes that a reply carried or acknowledged. A reply that is not a success has none. -/
def transferred : Nat :=
  if pdu.headerResp.status = NtStatus.success then
    match pdu.payload with
    | .read rep => rep.readData.length
    | .write rep => rep.count.toNat
    | _ => 0
  else 0

/-- The bytes that are left after a reply, from those that were left before it. -/
def leftAfter (before : UInt32) : UInt32 :=
  if pdu.headerResp.status = NtStatus.success then
    match pdu.payload with
    | .read rep => rep.dataRemaining
    | .write rep => rep.remaining
    | _ => before
  else before

end Smb2Pdu

/-- The handle counts what the reply says, and the handler looks at nothing in an error reply. -/
structure Accounted (env : Env) (w : World) (pdu : Smb2Pdu) (address : Nat) (fh : Smb2fh) : Prop where
  counted : ∀ w', smb2ProcessReplyAndAppData env w pdu = some w' → ∃ fh', w'.mem.handle address = some fh' ∧
    fh'.byteCount.toNat = pdu.transferred ∧ fh'.bytesRemaining = pdu.leftAfter fh.bytesRemaining
  uninterpreted : ∀ rep, pdu.payload = .error rep → ∀ rep',
    smb2ProcessReplyAndAppData env w { pdu with payload := .error rep' } = smb2ProcessReplyAndAppData env w pdu

/-- A READ or a WRITE. -/
def Smb2Pdu.IsTransfer (pdu : Smb2Pdu) : Prop := pdu.command = .read ∨ pdu.command = .write

section

variable {env : Env} {w w₁ : World} {request pdu : Smb2Pdu} {fixed rest : Bytes} {address : Nat} {fh : Smb2fh}

theorem decodeReply_write (hcommand : request.command = .write)
    (hstatus : request.headerResp.status = NtStatus.success)
    (h : decodeReply env w request fixed rest = some (pdu, w₁)) : ∃ rep, pdu.payload = .write rep := by
  obtain ⟨-, v, payload, inVecs, rfl, hret, hpayload⟩ := decodeReply_cases h
  have herror : (RecvState.save request fixed).smb2ReplyIsError = false := by
    simp only [RecvState.save, Smb2Pdu.smb2ReplyIsError, hstatus]
    decide
  have hcommand' : (RecvState.save request fixed).command = .write := hcommand
  simp only [fixedPart, herror, hcommand', writeFixed, Bool.false_eq_true, if_false] at hret hpayload
  cases hsize : unexpectedSize "Write reply" 17 fixed with
  | some msg =>
      simp only [hsize] at hret
      cases hret
  | none =>
      simp only [hsize] at hret hpayload
      obtain ⟨-, rfl⟩ | ⟨hpos, -⟩ := hpayload
      · exact ⟨_, rfl⟩
      · rw [← Except.ok.inj hret] at hpos
        exact absurd hpos (lt_irrefl 0)

/-- A reply that the handler takes for a failure leaves the handle alone. -/
theorem accounted_failed (htransfer : pdu.IsTransfer) (hstatus : pdu.headerResp.status ≠ NtStatus.success)
    (heof : pdu.headerResp.status ≠ NtStatus.endOfFile) (hhandle : w.mem.handle address = some fh) :
    Accounted env w pdu address fh ↔ fh.byteCount = 0 := by
  have hrun (payload : Payload) : smb2ProcessReplyAndAppData env w { pdu with payload } =
      some ((w.setNtStatus pdu.appData pdu.headerResp.status).setErrorMsg pdu.appData
        ("Read/Write failed with " ++ statusText pdu.headerResp.status)).endSendReceive := by
    obtain hcommand | hcommand := htransfer
    · simp only [smb2ProcessReplyAndAppData, hcommand, readReply]
      exact if_pos ⟨hstatus, heof⟩
    · simp only [smb2ProcessReplyAndAppData, hcommand, writeReply]
      exact if_pos ⟨hstatus, heof⟩
  have htransferred : pdu.transferred = 0 := if_neg hstatus
  have hleft : pdu.leftAfter fh.bytesRemaining = fh.bytesRemaining := if_neg hstatus
  constructor
  · intro h
    obtain ⟨fh', hfh', hcount, -⟩ := h.counted _ (hrun pdu.payload)
    have hsame : some fh' = some fh := hfh'.symm.trans hhandle
    rw [Option.some.injEq] at hsame
    rw [hsame, htransferred] at hcount
    exact UInt32.toNat_inj.mp hcount
  · intro hzero
    refine ⟨fun w' hw' => ⟨fh, ?_, ?_, hleft.symm⟩, fun rep hpayload rep' => ?_⟩
    · rw [hrun pdu.payload, Option.some.injEq] at hw'
      rw [← hw']
      exact hhandle
    · rw [hzero, htransferred]
      rfl
    · rw [hrun (.error rep'), hrun pdu.payload]

/-- The status of a reply whose payload the handler looks at. -/
theorem not_failed (h : pdu.headerResp.status = NtStatus.success ∨ pdu.headerResp.status = NtStatus.endOfFile) :
    ¬ (pdu.headerResp.status ≠ 0 ∧ pdu.headerResp.status ≠ NtStatus.endOfFile) := by
  obtain h | h := h
  · exact fun hfailed => hfailed.1 h
  · exact fun hfailed => hfailed.2 h

/-- A READ that is taken for a success copies the fields it finds. -/
theorem handle_readReply (happ : (w.mem.app pdu.appData).fh = some address) (hhandle : w.mem.handle address = some fh)
    (hstatus : pdu.headerResp.status = NtStatus.success ∨ pdu.headerResp.status = NtStatus.endOfFile)
    (h : readReply w pdu env = some w₁) : ∃ rep offset, readReplyView env pdu.payload = some rep ∧
      w₁.mem.handle address = some { fh with
        offset, byteCount := rep.dataLength, bytesRemaining := rep.dataRemaining } := by
  simp only [readReply, if_neg (not_failed hstatus), World.setNtStatus, Memory.setApp, if_true, happ, hhandle,
    Option.bind_eq_bind, Option.bind_some, Option.bind_eq_some_iff] at h
  obtain ⟨rep, hview, hcopied⟩ := h
  split_ifs at hcopied
  rw [Option.some.injEq] at hcopied
  refine ⟨rep, toInt64 (fh.offset + rep.dataLength.toNat), hview, ?_⟩
  rw [← hcopied]
  exact if_pos rfl

/-- Likewise a WRITE. -/
theorem handle_writeReply (happ : (w.mem.app pdu.appData).fh = some address) (hhandle : w.mem.handle address = some fh)
    (hstatus : pdu.headerResp.status = NtStatus.success ∨ pdu.headerResp.status = NtStatus.endOfFile)
    (h : writeReply w pdu env = some w₁) : ∃ rep offset, writeReplyView env pdu.payload = some rep ∧
      w₁.mem.handle address = some { fh with
        offset, byteCount := rep.count, bytesRemaining := rep.remaining } := by
  simp only [writeReply, if_neg (not_failed hstatus), World.setNtStatus, Memory.setApp, if_true, happ, hhandle,
    Option.bind_eq_bind, Option.bind_some, Option.bind_eq_some_iff] at h
  obtain ⟨rep, hview, hcopied⟩ := h
  rw [Option.some.injEq] at hcopied
  refine ⟨rep, toInt64 (fh.offset + rep.count.toNat), hview, ?_⟩
  rw [← hcopied]
  exact if_pos rfl

/-- The handler of a READ takes the byte count of an error reply for the length of its data. -/
theorem not_accounted_read_endOfFile {rep : Smb2ErrorReply} (hcommand : pdu.command = .read)
    (hstatus : pdu.headerResp.status = NtStatus.endOfFile) (hpayload : pdu.payload = .error rep)
    (happ : (w.mem.app pdu.appData).fh = some address) (hhandle : w.mem.handle address = some fh) :
    ¬ Accounted env w pdu address fh := by
  intro h
  have hrun (payload : Payload) : smb2ProcessReplyAndAppData env w { pdu with payload } =
      readReply w { pdu with payload } env := by
    simp only [smb2ProcessReplyAndAppData, hcommand]
  have hsame := (h.uninterpreted rep hpayload { byteCount := 0 }).trans
    (h.uninterpreted rep hpayload { byteCount := 1 }).symm
  rw [hrun, hrun] at hsame
  have hne : ¬ (1 : UInt32) = 0 := by decide
  -- with a byte count the view claims data that the error reply does not have
  have hnone : readReply w { pdu with payload := .error { byteCount := 1 } } env = none := by
    simp only [readReply, if_neg (not_failed (.inr hstatus)), World.setNtStatus, Memory.setApp, if_true, happ, hhandle,
      Option.bind_eq_bind, Option.bind_some, readReplyView, if_neg hne, Option.bind_none]
  have hsome : (readReply w { pdu with payload := .error { byteCount := 0 } } env).isSome = true := by
    simp only [readReply, if_neg (not_failed (.inr hstatus)), World.setNtStatus, Memory.setApp, if_true, happ, hhandle,
      Option.bind_eq_bind, Option.bind_some, readReplyView]
    rfl
  rw [hsame, hnone] at hsome
  cases hsome

/-- The handler of a WRITE takes the byte count of an error reply for the bytes that are left. -/
theorem not_accounted_write_endOfFile {rep : Smb2ErrorReply} (hcommand : pdu.command = .write)
    (hstatus : pdu.headerResp.status = NtStatus.endOfFile) (hpayload : pdu.payload = .error rep)
    (happ : (w.mem.app pdu.appData).fh = some address) (hhandle : w.mem.handle address = some fh) :
    ¬ Accounted env w pdu address fh := by
  intro h
  have hleft (rep' : Smb2ErrorReply) : ∃ w', smb2ProcessReplyAndAppData env w pdu = some w' ∧
      ∃ fh', w'.mem.handle address = some fh' ∧ fh'.bytesRemaining = rep'.byteCount := by
    have hrun : smb2ProcessReplyAndAppData env w { pdu with payload := .error rep' } =
        writeReply w { pdu with payload := .error rep' } env := by
      simp only [smb2ProcessReplyAndAppData, hcommand]
    have hsome : (writeReply w { pdu with payload := .error rep' } env).isSome = true := by
      simp only [writeReply, if_neg (not_failed (.inr hstatus)), World.setNtStatus, Memory.setApp, if_true, happ,
        hhandle, Option.bind_eq_bind, Option.bind_some, writeReplyView]
      rfl
    obtain ⟨w', hw'⟩ := Option.isSome_iff_exists.mp hsome
    obtain ⟨view, offset, hview, hhandle'⟩ :=
      @handle_writeReply env w w' { pdu with payload := .error rep' } address fh happ hhandle (.inr hstatus) hw'
    rw [writeReplyView, Option.some.injEq] at hview
    refine ⟨w', ?_, _, hhandle', ?_⟩
    · rw [← h.uninterpreted rep hpayload rep', hrun, hw']
    · rw [← hview]
  obtain ⟨w₀, hw₀, fh₀, hfh₀, hleft₀⟩ := hleft { byteCount := 0 }
  obtain ⟨w₁, hw₁, fh₁, hfh₁, hleft₁⟩ := hleft { byteCount := 1 }
  rw [hw₀, Option.some.injEq] at hw₁
  rw [hw₁, hfh₁, Option.some.injEq] at hfh₀
  rw [hfh₀, hleft₀] at hleft₁
  exact absurd hleft₁ (by decide)

/-- A success that was decoded as the reply to its own command is counted as it says. -/
theorem accounted_success {handed : Smb2Pdu} {w₂ : World} (htransfer : request.IsTransfer)
    (hsuccess : request.headerResp.status = NtStatus.success)
    (hdecode : decodeReply env w request fixed rest = some (pdu, w₁))
    (hstatus : handed.headerResp.status = request.headerResp.status) (hcommand : handed.command = request.command)
    (hpayload : handed.payload = pdu.payload) (happ : (w₂.mem.app handed.appData).fh = some address)
    (hhandle : w₂.mem.handle address = some fh) : Accounted env w₂ handed address fh := by
  have hsuccess' := hstatus.trans hsuccess
  obtain hread | hwrite := htransfer
  · obtain ⟨rep, hrep, -, hlength⟩ := decodeReply_read hread hsuccess hdecode
    rw [← hpayload] at hrep
    refine ⟨fun w' hw' => ?_, fun rep' hrep' => ?_⟩
    · simp only [smb2ProcessReplyAndAppData, hcommand.trans hread] at hw'
      obtain ⟨view, offset, hview, hfh'⟩ := handle_readReply happ hhandle (.inl hsuccess') hw'
      rw [hrep, readReplyView, Option.some.injEq] at hview
      refine ⟨_, hfh', ?_, ?_⟩
      · simp only [Smb2Pdu.transferred, hsuccess', if_true, hrep, ← hview, hlength]
      · simp only [Smb2Pdu.leftAfter, hsuccess', if_true, hrep, ← hview]
    · rw [hrep] at hrep'
      cases hrep'
  · obtain ⟨rep, hrep⟩ := decodeReply_write hwrite hsuccess hdecode
    rw [← hpayload] at hrep
    refine ⟨fun w' hw' => ?_, fun rep' hrep' => ?_⟩
    · simp only [smb2ProcessReplyAndAppData, hcommand.trans hwrite] at hw'
      obtain ⟨view, offset, hview, hfh'⟩ := handle_writeReply happ hhandle (.inl hsuccess') hw'
      rw [hrep, writeReplyView, Option.some.injEq] at hview
      refine ⟨_, hfh', ?_, ?_⟩
      · simp only [Smb2Pdu.transferred, hsuccess', if_true, hrep, ← hview]
      · simp only [Smb2Pdu.leftAfter, hsuccess', if_true, hrep, ← hview]
    · rw [hrep] at hrep'
      cases hrep'

/-- A decoded reply is accounted for however the receive loop hands it on: padding may be saved with
it, the socket was read on, and the reply may not be the last one of its frame. -/
def AccountedReply (env : Env) (w : World) (pdu : Smb2Pdu) (address : Nat) (fh : Smb2fh) : Prop :=
  ∀ socket inVecs bIsLastInCompound, Accounted env
    ({ w with socket }.log (.processed { pdu with inVecs, bIsLastInCompound }))
    { pdu with inVecs, bIsLastInCompound } address fh

/-- For a READ or a WRITE that waits with a handle and any reply that the client accepts: the handle
counts what the reply says when the reply is a success, and when it is another failure than
END_OF_FILE and nothing was counted before. -/
theorem accountedReply_iff (htransfer : request.IsTransfer)
    (hdecode : decodeReply env w request fixed rest = some (pdu, w₁))
    (happ : (w.mem.app request.appData).fh = some address) (hhandle : w.mem.handle address = some fh) :
    AccountedReply env w₁ pdu address fh ↔ request.headerResp.status = NtStatus.success ∨
      request.headerResp.status ≠ NtStatus.endOfFile ∧ fh.byteCount = 0 := by
  obtain ⟨hmem, -, payload, vecs, hpdu, -⟩ := decodeReply_cases hdecode
  have hone (socket : Smb2Socket) (inVecs : Smb2IoVectors) (bIsLastInCompound : Bool) :
      Accounted env ({ w₁ with socket }.log (.processed { pdu with inVecs, bIsLastInCompound }))
          { pdu with inVecs, bIsLastInCompound } address fh ↔
        request.headerResp.status = NtStatus.success ∨
          request.headerResp.status ≠ NtStatus.endOfFile ∧ fh.byteCount = 0 := by
    have hpayload : ({ pdu with inVecs, bIsLastInCompound } : Smb2Pdu).payload = pdu.payload := rfl
    have hstatus : ({ pdu with inVecs, bIsLastInCompound } : Smb2Pdu).headerResp.status =
        request.headerResp.status := by rw [hpdu]
    have hcommand : ({ pdu with inVecs, bIsLastInCompound } : Smb2Pdu).command = request.command := by rw [hpdu]
    have happ' : (({ w₁ with socket }.log (.processed { pdu with inVecs, bIsLastInCompound })).mem.app
        ({ pdu with inVecs, bIsLastInCompound } : Smb2Pdu).appData).fh = some address := by
      simp only [World.log, hmem, hpdu]
      exact happ
    have hhandle' : ({ w₁ with socket }.log (.processed { pdu with inVecs, bIsLastInCompound })).mem.handle
        address = some fh := by
      simp only [World.log, hmem]
      exact hhandle
    generalize { w₁ with socket }.log (.processed { pdu with inVecs, bIsLastInCompound }) = w₂ at happ' hhandle' ⊢
    generalize { pdu with inVecs, bIsLastInCompound } = handed at hpayload hstatus hcommand happ' ⊢
    have htransfer' : handed.IsTransfer := by
      rw [Smb2Pdu.IsTransfer, hcommand]
      exact htransfer
    by_cases hsuccess : request.headerResp.status = NtStatus.success
    · exact iff_of_true (accounted_success htransfer hsuccess hdecode hstatus hcommand hpayload happ' hhandle')
        (.inl hsuccess)
    · by_cases heof : request.headerResp.status = NtStatus.endOfFile
      · refine iff_of_false ?_ (fun h => h.elim hsuccess fun h => h.1 heof)
        have herror : request.smb2ReplyIsError = true := by
          rw [Smb2Pdu.smb2ReplyIsError, heof]
          decide
        obtain ⟨rep, hrep, -⟩ := decodeReply_error herror hdecode
        rw [← hpayload] at hrep
        obtain hread | hwrite := htransfer'
        · exact not_accounted_read_endOfFile hread (hstatus.trans heof) hrep happ' hhandle'
        · exact not_accounted_write_endOfFile hwrite (hstatus.trans heof) hrep happ' hhandle'
      · rw [accounted_failed htransfer' (hstatus.trans_ne hsuccess) (hstatus.trans_ne heof) hhandle']
        simp only [hsuccess, heof, false_or, ne_eq, not_false_eq_true, true_and]
  constructor
  · intro h
    exact (hone w₁.socket pdu.inVecs pdu.bIsLastInCompound).mp (h _ _ _)
  · intro h socket inVecs bIsLastInCompound
    exact (hone socket inVecs bIsLastInCompound).mpr h

end

/-- The reply to the waiting READ carried three bytes. -/
theorem accountedReply_threeBytes :
    ∃ pdu w₁, decodeReply plainEnv readWaiting (waitingRequest .read) (readPart 3) [1, 2, 3] = some (pdu, w₁) ∧
      AccountedReply plainEnv w₁ pdu 1 {} := by
  have hsome : (decodeReply plainEnv readWaiting (waitingRequest .read) (readPart 3) [1, 2, 3]).isSome := by
    decide +kernel
  obtain ⟨⟨pdu, w₁⟩, hdecode⟩ := Option.isSome_iff_exists.mp hsome
  refine ⟨pdu, w₁, hdecode, ?_⟩
  exact (accountedReply_iff (.inl rfl) hdecode rfl rfl).mpr (.inl rfl)

/-- A request whose reply says that the end of the file was reached. -/
def endOfFileRequest (command : Smb2Command) : Smb2Pdu :=
  { waitingRequest command with headerResp := { status := NtStatus.endOfFile } }

/-- The fixed part of an error reply without data. -/
def errorPart : Bytes := leBytes 2 9 ++ leBytes 6 0

/-- At the end of the file the bytes left are read from where the error reply has its own data pointer, which nobody set,
and the data pointer from behind it. -/
theorem not_accountedReply_endOfFile :
    ∃ pdu w₁, decodeReply { plainEnv with stale := 7 } readWaiting (endOfFileRequest .read) errorPart [] =
        some (pdu, w₁) ∧
      ¬ AccountedReply { plainEnv with stale := 7 } w₁ pdu 1 {} := by
  have hseven : (decodeReply { plainEnv with stale := 7 } readWaiting (endOfFileRequest .read) errorPart []).any
      (fun reply => reply.1.headerResp.status = NtStatus.endOfFile ∧
        (handleReply { plainEnv with stale := 7 } reply.2 reply.1 {} {} true).any fun w' =>
          (w'.mem.handle 1).any fun fh => fh.bytesRemaining = 7) = true := by decide +kernel
  obtain ⟨⟨pdu, w₁⟩, hdecode, hafter⟩ := (Option.any_eq_true _ _).mp hseven
  refine ⟨pdu, w₁, hdecode, fun h => ?_⟩
  rw [decide_eq_true_eq] at hafter
  obtain ⟨heof, hafter⟩ := hafter
  obtain ⟨w', hw', hafter⟩ := (Option.any_eq_true _ _).mp hafter
  obtain ⟨fh, hfh, hleft⟩ := (Option.any_eq_true _ _).mp hafter
  obtain ⟨fh', hfh', -, hsame⟩ := (h {} {} true).counted w' hw'
  rw [hfh, Option.some.injEq] at hfh'
  rw [← hfh', of_decide_eq_true hleft, Smb2Pdu.leftAfter, if_neg (by rw [heof]; decide)] at hsame
  exact absurd hsame (by decide)

end CodeStudy.Samba
