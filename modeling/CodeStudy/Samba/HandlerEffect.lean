import CodeStudy.Samba.Handlers

/-!
# What a handler can do to the queues

Every handler does one of six things as far as the queues, the credits and the exchange are
concerned: it leaves them alone (only a CREATE whose handle nobody wants), ends the exchange, closes
the context and ends the exchange, queues one more request, fails to queue one and says nothing, or
fails to queue one and closes. All statements about runs rest on this list.
-/

namespace CodeStudy.Samba

inductive HandlerEffect (env : Env) (pdu : Smb2Pdu) (w w' : World) : Prop where
  | ignored (same : SameQueues w w') (command : pdu.command = .create)
      (status : pdu.headerResp.status = NtStatus.success)
      (fh : (w.mem.app pdu.appData).fh = none)
  | ended (same : SameQueues w.endSendReceive w')
  | closed (same : SameQueues w.close.endSendReceive w')
  | queued {w₁ : World} {spec : RequestSpec} (same : SameQueues w w₁)
      (queue : queueRequest env w₁ spec = (none, w')) (command : spec.command ≠ .create)
  | dropped {w₁ : World} {spec : RequestSpec} {err : String} (same : SameQueues w w₁)
      (queue : queueRequest env w₁ spec = (some err, w'))
  | refused {w₁ w₂ : World} {spec : RequestSpec} {err : String} (same : SameQueues w w₁)
      (queue : queueRequest env w₁ spec = (some err, w₂))
      (after : SameQueues w₂.close.endSendReceive w')

namespace SameQueues

theorem endSendReceive {w w' : World} (h : SameQueues w w') :
    SameQueues w.endSendReceive w'.endSendReceive :=
  ⟨h.outqueue, h.waitqueue, h.credits, h.messageId, rfl, h.socket, h.trace, h.fh⟩

theorem close {w w' : World} (h : SameQueues w w') : SameQueues w.close w'.close :=
  ⟨h.outqueue, h.waitqueue, h.credits, rfl, h.isComplete, rfl, by simp [World.close, World.log, h.trace],
    h.fh⟩

/-- A change of fields the queues do not depend on. -/
theorem setSmb2 (w : World) (smb2 : Smb2Context) (hout : smb2.outqueue = w.smb2.outqueue)
    (hwait : smb2.waitqueue = w.smb2.waitqueue) (hcredits : smb2.credits = w.smb2.credits)
    (hid : smb2.messageId = w.smb2.messageId) (hcomplete : smb2.isComplete = w.smb2.isComplete) :
    SameQueues w { w with smb2 } :=
  ⟨hout, hwait, hcredits, hid, hcomplete, rfl, rfl, fun _ => rfl⟩

theorem setHandle (w : World) (address : Nat) (fh : Option Smb2fh) :
    SameQueues w { w with mem := w.mem.setHandle address fh } :=
  ⟨rfl, rfl, rfl, rfl, rfl, rfl, rfl, fun _ => rfl⟩

theorem deleteHandle {w w' : World} {fh : Option Nat} (h : w.deleteHandle fh = some w') :
    SameQueues w w' := by
  unfold World.deleteHandle at h
  split at h
  · cases h
    exact refl w
  · split at h
    · cases h
    · cases h
      exact setHandle w _ _

theorem fail (w : World) (appData : Nat) (status : NtStatus) (msg : String) :
    SameQueues w.endSendReceive (w.fail appData status msg) :=
  (setStatusMsg w appData status msg).endSendReceive

theorem failClosed (w : World) (appData : Nat) (status : NtStatus) (msg : String) :
    SameQueues w.close.endSendReceive (w.failClosed appData status msg) :=
  (setStatusMsg w.close appData status msg).endSendReceive

theorem noRequest (w : World) (appData : Nat) (msg : String) :
    SameQueues w.close.endSendReceive (w.noRequest appData msg) :=
  ((setErrorMsg w appData msg).close.trans (setNtStatus _ appData _)).endSendReceive

theorem endDirectory (w : World) (appData : Nat) (msg : String) :
    SameQueues w.endSendReceive (w.endDirectory appData msg) :=
  (setApp w appData { w.mem.app appData with errMsg := msg, dir := none } rfl).endSendReceive

end SameQueues

namespace HandlerEffect

variable {env : Env} {pdu : Smb2Pdu} {w w₁ w' : World}

/-- Changes before the handler's last action do not matter. -/
theorem after_same (h : SameQueues w w₁) (heff : HandlerEffect env pdu w₁ w') :
    HandlerEffect env pdu w w' := by
  cases heff with
  | ignored same command status fh =>
      exact .ignored (h.trans same) command status ((h.fh _).symm.trans fh)
  | ended same => exact .ended (h.endSendReceive.trans same)
  | closed same => exact .closed (h.close.endSendReceive.trans same)
  | queued same queue command => exact .queued (h.trans same) queue command
  | dropped same queue => exact .dropped (h.trans same) queue
  | refused same queue after => exact .refused (h.trans same) queue after

theorem end_ (w : World) : HandlerEffect env pdu w w.endSendReceive := .ended (.refl _)

/-- A request is queued, or not and nobody is told. -/
theorem queueRequest_ignoring (w : World) {spec : RequestSpec} (hcommand : spec.command ≠ .create) :
    HandlerEffect env pdu w (queueRequest env w spec).2 := by
  cases hq : queueRequest env w spec with
  | mk err w' =>
      cases err with
      | none => exact .queued (.refl w) hq hcommand
      | some err => exact .dropped (.refl w) hq

end HandlerEffect

section

variable {env : Env} {pdu : Smb2Pdu} {w w' : World}

/-! ### Commands that only end the exchange -/

theorem closeReply_same (h : closeReply w pdu = some w') : SameQueues w.endSendReceive w' := by
  simp only [closeReply] at h
  split at h
  · refine SameQueues.trans ?_ (SameQueues.deleteHandle h)
    exact ((SameQueues.setErrorMsg w pdu.appData _).trans
      (SameQueues.setNtStatus _ pdu.appData _)).endSendReceive
  · exact (SameQueues.setNtStatus w pdu.appData _).endSendReceive.trans (SameQueues.deleteHandle h)

/-- A CREATE ends the exchange, unless it succeeds and nobody asked for its handle. -/
theorem createReply_same (h : createReply w pdu = some w') :
    (SameQueues w.endSendReceive w' ∧ (pdu.headerResp.status ≠ NtStatus.success ∨
      (w.mem.app pdu.appData).fh ≠ none)) ∨
    (SameQueues w w' ∧ pdu.headerResp.status = NtStatus.success ∧
      (w.mem.app pdu.appData).fh = none) := by
  have hset := SameQueues.setNtStatus w pdu.appData pdu.headerResp.status
  simp only [createReply] at h
  split at h
  · rename_i hstatus
    refine Or.inl ⟨SameQueues.trans ?_ (SameQueues.deleteHandle h), Or.inl hstatus⟩
    exact (hset.trans (SameQueues.setErrorMsg _ pdu.appData _)).endSendReceive
  · rename_i hstatus
    split at h
    · rename_i hfh
      cases h
      exact Or.inr ⟨hset, by simpa using hstatus, hfh⟩
    · rename_i hfh
      split at h
      · cases h
        exact Or.inl ⟨(hset.trans (SameQueues.setHandle _ _ _)).endSendReceive,
          Or.inr (by rw [hfh]; exact Option.some_ne_none _)⟩
      · cases h

theorem echoReply_same (h : echoReply w pdu = some w') : SameQueues w.endSendReceive w' := by
  cases h
  exact (SameQueues.setNtStatus w pdu.appData _).endSendReceive

theorem flushReply_same (h : flushReply w pdu = some w') : SameQueues w.endSendReceive w' := by
  have hset := SameQueues.setNtStatus w pdu.appData pdu.headerResp.status
  simp only [flushReply] at h
  split at h <;> cases h
  · exact (hset.trans (SameQueues.setErrorMsg _ pdu.appData _)).endSendReceive
  · exact hset.endSendReceive

theorem setInfoReply_same (h : setInfoReply w pdu = some w') : SameQueues w.endSendReceive w' := by
  have hset := SameQueues.setNtStatus w pdu.appData pdu.headerResp.status
  simp only [setInfoReply] at h
  split at h <;> cases h
  · exact (hset.trans (SameQueues.setErrorMsg _ pdu.appData _)).endSendReceive
  · exact hset.endSendReceive

theorem ioctlReply_same (h : ioctlReply w pdu = some w') : SameQueues w.endSendReceive w' := by
  have hset := SameQueues.setNtStatus w pdu.appData pdu.headerResp.status
  simp only [ioctlReply] at h
  split at h
  · cases h
    exact (hset.trans (SameQueues.setErrorMsg _ pdu.appData _)).endSendReceive
  · split at h
    · split at h
      · cases h
        exact (hset.trans (SameQueues.setApp _ pdu.appData _ (by rfl))).endSendReceive
      · cases h
    · cases h

theorem readReply_same (h : readReply w pdu env = some w') : SameQueues w.endSendReceive w' := by
  have hset := SameQueues.setNtStatus w pdu.appData pdu.headerResp.status
  simp only [readReply] at h
  split at h
  · cases h
    exact (hset.trans (SameQueues.setErrorMsg _ pdu.appData _)).endSendReceive
  · simp only [Option.bind_eq_bind, Option.bind_eq_some_iff] at h
    obtain ⟨address, -, fh, -, rep, -, h⟩ := h
    split at h
    · cases h
      exact (hset.trans ((SameQueues.setHandle _ address _).trans
        (SameQueues.setApp _ pdu.appData _ (by rfl)))).endSendReceive
    · cases h

theorem writeReply_same (h : writeReply w pdu env = some w') : SameQueues w.endSendReceive w' := by
  have hset := SameQueues.setNtStatus w pdu.appData pdu.headerResp.status
  simp only [writeReply] at h
  split at h
  · cases h
    exact (hset.trans (SameQueues.setErrorMsg _ pdu.appData _)).endSendReceive
  · simp only [Option.bind_eq_bind, Option.bind_eq_some_iff] at h
    obtain ⟨address, -, fh, -, rep, -, h⟩ := h
    cases h
    exact (hset.trans (SameQueues.setHandle _ address _)).endSendReceive

theorem queryInfoReply_same (h : queryInfoReply w pdu = some w') :
    SameQueues w.endSendReceive w' := by
  have hset := SameQueues.setNtStatus w pdu.appData pdu.headerResp.status
  simp only [queryInfoReply] at h
  split at h
  · cases h
    exact (hset.trans (SameQueues.setErrorMsg _ pdu.appData _)).endSendReceive
  · split at h
    · split at h <;> cases h
      · exact (hset.trans (SameQueues.setApp _ pdu.appData _ (by rfl))).endSendReceive
      · exact (hset.trans (SameQueues.setStatusMsg _ pdu.appData _ _)).endSendReceive
    · cases h

/-! ### Commands that close the context -/

theorem logoffReply_same (h : logoffReply w pdu = some w') :
    SameQueues w.close.endSendReceive w' := by
  cases h
  exact (SameQueues.setNtStatus w pdu.appData _).close.endSendReceive

theorem treeConnectReply_effect (h : treeConnectReply w pdu = some w') :
    HandlerEffect env pdu w w' := by
  have hset := SameQueues.setNtStatus w pdu.appData pdu.headerResp.status
  simp only [treeConnectReply] at h
  split at h <;> cases h
  · exact .closed (hset.close.trans (SameQueues.setErrorMsg _ pdu.appData _)).endSendReceive
  · exact .ended hset.endSendReceive

/-! ### Commands that go on -/

theorem treeDisconnectReply_effect (h : treeDisconnectReply env w pdu = some w') :
    HandlerEffect env pdu w w' := by
  refine HandlerEffect.after_same (SameQueues.setNtStatus w pdu.appData pdu.headerResp.status) ?_
  simp only [treeDisconnectReply] at h
  split at h <;> cases h
  · exact .queueRequest_ignoring _ (by simp [logoffRequest])
  · exact .ended (SameQueues.setErrorMsg _ pdu.appData _).endSendReceive

theorem queryDirectoryRequest_command {appData : Nat} {fileId : Smb2FileId} {pattern : Bytes}
    {spec : RequestSpec} (h : queryDirectoryRequest env appData fileId pattern = some spec) :
    spec.command = .queryDirectory := by
  obtain ⟨body, -, rfl⟩ := Option.map_eq_some_iff.mp h
  rfl

theorem queryDirectoryRequest_appData {appData : Nat} {fileId : Smb2FileId} {pattern : Bytes}
    {spec : RequestSpec} (h : queryDirectoryRequest env appData fileId pattern = some spec) :
    spec.appData = appData := by
  obtain ⟨body, -, rfl⟩ := Option.map_eq_some_iff.mp h
  rfl

theorem queryDirectoryReply_effect (h : queryDirectoryReply env w pdu = some w') :
    HandlerEffect env pdu w w' := by
  refine HandlerEffect.after_same (SameQueues.setNtStatus w pdu.appData pdu.headerResp.status) ?_
  simp only [queryDirectoryReply] at h
  split at h
  · split at h
    · split at h
      · split at h
        · cases h
        · cases h
          exact .ended (SameQueues.endDirectory _ _ _)
        · have hentries {data : AppData} (hfh : data.fh = (w.mem.app pdu.appData).fh) :=
            SameQueues.setApp (w.setNtStatus pdu.appData pdu.headerResp.status) pdu.appData data
              (hfh.trans ((SameQueues.setNtStatus w pdu.appData _).fh _).symm)
          split at h
          · split at h <;> cases h
            · exact HandlerEffect.after_same (hentries (by exact (SameQueues.setNtStatus w _ _).fh _))
                (.ended (SameQueues.endDirectory _ _ _))
            · rename_i hspec
              refine HandlerEffect.after_same (hentries (by exact (SameQueues.setNtStatus w _ _).fh _))
                (.queueRequest_ignoring _ ?_)
              rw [queryDirectoryRequest_command hspec]
              decide
          · cases h
            exact HandlerEffect.after_same (hentries (by exact (SameQueues.setNtStatus w _ _).fh _))
              (.ended (SameQueues.endDirectory _ _ _))
      · cases h
    · cases h
  · split at h
    · cases h
      exact .ended (SameQueues.setNtStatus _ pdu.appData _).endSendReceive
    · split at h <;> cases h
      exact .ended (SameQueues.endDirectory _ _ _)

/-- Updating the hash changes nothing the queues depend on. -/
theorem smb2UpdatePreauthIntegrityHash_same {smb2 : Smb2Context} {iovs : Smb2IoVectors}
    (h : smb2UpdatePreauthIntegrityHash env w.smb2 iovs = some (.ok smb2)) :
    SameQueues w { w with smb2 } := by
  simp only [smb2UpdatePreauthIntegrityHash] at h
  split at h
  · obtain ⟨hash, -, hsmb2⟩ := Option.map_eq_some_iff.mp h
    cases hsmb2
    exact SameQueues.setSmb2 w _ rfl rfl rfl rfl rfl
  · cases h

theorem startSession_effect (h : startSession env w pdu = some w') : HandlerEffect env pdu w w' := by
  have hauth (authenticator : Option (List Bytes)) :
      SameQueues w { w with smb2 := { w.smb2 with authenticator } } :=
    SameQueues.setSmb2 w _ rfl rfl rfl rfl rfl
  simp only [startSession] at h
  split at h
  · split at h
    · cases h
      exact .after_same (hauth (some [])) (.closed (SameQueues.failClosed _ _ _ _))
    · split at h
      · cases h
        exact .after_same (hauth (some [])) (.closed (SameQueues.failClosed _ _ _ _))
      · split at h
        · split at h <;> cases h
          · rename_i hq
            exact .queued (hauth (some [[]])) hq (by simp [sessionSetupRequest])
          · rename_i hq
            exact .refused (hauth (some [[]])) hq (SameQueues.failClosed _ _ _ _)
        · cases h
          exact .after_same (hauth (some [[]])) (.closed (SameQueues.noRequest _ _ _))
  · cases h
    exact .after_same (hauth none) (.closed (SameQueues.failClosed _ _ _ _))

theorem negotiateReply_effect (h : negotiateReply env w pdu = some w') :
    HandlerEffect env pdu w w' := by
  refine HandlerEffect.after_same (SameQueues.setNtStatus w pdu.appData pdu.headerResp.status) ?_
  simp only [negotiateReply] at h
  split at h
  · cases h
    exact .closed (SameQueues.setErrorMsg _ pdu.appData _).endSendReceive
  · split at h
    · rename_i rep _
      split at h
      · cases h
        exact .ended (SameQueues.fail _ _ _ _)
      · have hnegotiated (w : World) : SameQueues w { w with smb2 := w.smb2.negotiated rep } :=
          SameQueues.setSmb2 w _ rfl rfl rfl rfl rfl
        refine HandlerEffect.after_same (hnegotiated _) ?_
        have hhash (w : World) (preauthIntegrityHash : Option Bytes) :
            SameQueues w { w with smb2 := { w.smb2 with preauthIntegrityHash } } :=
          SameQueues.setSmb2 w _ rfl rfl rfl rfl rfl
        split at h
        · split at h
          · refine HandlerEffect.after_same (hhash _ (some (List.replicate 64 0))) ?_
            split at h
            · cases h
            · cases h
              exact .ended (SameQueues.fail _ _ _ _)
            · rename_i hreq
              refine HandlerEffect.after_same (smb2UpdatePreauthIntegrityHash_same hreq) ?_
              split at h
              · cases h
              · cases h
                exact .ended (SameQueues.fail _ _ _ _)
              · rename_i hresp
                refine HandlerEffect.after_same (smb2UpdatePreauthIntegrityHash_same hresp) ?_
                exact startSession_effect h
          · cases h
            exact .after_same (hhash _ none) (.ended (SameQueues.fail _ _ _ _))
        · exact startSession_effect h
    · cases h

theorem connectTree_effect (h : connectTree env w pdu = some w') : HandlerEffect env pdu w w' := by
  have hauth : SameQueues w { w with smb2 := { w.smb2 with authenticator := none } } :=
    SameQueues.setSmb2 w _ rfl rfl rfl rfl rfl
  refine HandlerEffect.after_same hauth ?_
  simp only [connectTree] at h
  split at h
  · cases h
    exact .closed (SameQueues.failClosed _ _ _ _)
  · split at h <;> cases h
    · exact .queueRequest_ignoring _ (by simp [treeConnectRequest])
    · exact .closed (SameQueues.noRequest _ _ _)

theorem setSigningKey_effect (h : setSigningKey env w pdu = some w') :
    HandlerEffect env pdu w w' := by
  have hkeys (sessionKey : Option Bytes) (sessionKeySize : UInt8) (signingKey : Bytes) :
      SameQueues w { w with smb2 := { w.smb2 with sessionKey, sessionKeySize, signingKey } } :=
    SameQueues.setSmb2 w _ rfl rfl rfl rfl rfl
  simp only [setSigningKey] at h
  split at h
  · exact connectTree_effect h
  · split at h
    · cases h
    · split at h
      · cases h
        exact .closed (SameQueues.failClosed _ _ _ _)
      · split at h
        · cases h
          exact .after_same (hkeys _ _ _) (.closed (SameQueues.failClosed _ _ _ _))
        · split at h
          · cases h
            exact .after_same (hkeys _ _ _) (.closed (SameQueues.failClosed _ _ _ _))
          · exact .after_same (hkeys _ _ _) (connectTree_effect h)

theorem nextSessionRequest_same {rep : Smb2SessionSetupReply} {answer : Except String Bytes}
    (h : nextSessionRequest env w rep = some (answer, w')) : SameQueues w w' := by
  simp only [nextSessionRequest] at h
  split at h
  · cases h
  · split at h <;> cases h
    exact SameQueues.setSmb2 w _ rfl rfl rfl rfl rfl

theorem continueSession_effect {rep : Smb2SessionSetupReply}
    (h : continueSession env w pdu rep = some w') : HandlerEffect env pdu w w' := by
  simp only [continueSession] at h
  split at h
  · split at h
    · cases h
    · rename_i hnext
      cases h
      exact .after_same (nextSessionRequest_same hnext) (.closed (SameQueues.failClosed _ _ _ _))
    · rename_i hnext
      refine .after_same (nextSessionRequest_same hnext) ?_
      split at h <;> cases h
      · exact .queueRequest_ignoring _ (by simp [sessionSetupRequest])
      · exact .closed (SameQueues.noRequest _ _ _)
  · split at h
    · split at h
      · cases h
      · rename_i hnext
        cases h
        exact .after_same (nextSessionRequest_same hnext) (.ended (SameQueues.fail _ _ _ _))
      · rename_i hnext
        exact .after_same (nextSessionRequest_same hnext) (setSigningKey_effect h)
    · exact setSigningKey_effect h

theorem sessionSetupReply_effect (h : sessionSetupReply env w pdu = some w') :
    HandlerEffect env pdu w w' := by
  refine HandlerEffect.after_same (SameQueues.setNtStatus w pdu.appData pdu.headerResp.status) ?_
  simp only [sessionSetupReply] at h
  split at h
  · cases h
    exact .closed (SameQueues.failClosed _ _ _ _)
  · split at h
    · split at h
      · split at h
        · cases h
        · cases h
          exact .ended (SameQueues.fail _ _ _ _)
        · rename_i hreq
          refine HandlerEffect.after_same (smb2UpdatePreauthIntegrityHash_same hreq) ?_
          split at h
          · split at h
            · cases h
            · cases h
              exact .ended (SameQueues.fail _ _ _ _)
            · rename_i hresp
              exact .after_same (smb2UpdatePreauthIntegrityHash_same hresp) (continueSession_effect h)
          · exact continueSession_effect h
      · exact continueSession_effect h
    · cases h

/-- Whatever the command and the status, a handler that returns has one of the six effects. -/
theorem smb2ProcessReplyAndAppData_effect (h : smb2ProcessReplyAndAppData env w pdu = some w') :
    HandlerEffect env pdu w w' := by
  unfold smb2ProcessReplyAndAppData at h
  split at h
  case h_1 => exact negotiateReply_effect h
  case h_2 => exact sessionSetupReply_effect h
  case h_3 => exact .closed (logoffReply_same h)
  case h_4 => exact treeConnectReply_effect h
  case h_5 => exact treeDisconnectReply_effect h
  case h_6 hcommand =>
    rcases createReply_same h with ⟨hended, -⟩ | ⟨hsame, hstatus, hfh⟩
    · exact .ended hended
    · exact .ignored hsame hcommand hstatus hfh
  case h_7 => exact .ended (closeReply_same h)
  case h_8 => exact .ended (flushReply_same h)
  case h_9 => exact .ended (readReply_same h)
  case h_10 => exact .ended (writeReply_same h)
  case h_11 => exact .ended (ioctlReply_same h)
  case h_12 => exact .ended (echoReply_same h)
  case h_13 => exact queryDirectoryReply_effect h
  case h_14 => exact .ended (queryInfoReply_same h)
  case h_15 => exact .ended (setInfoReply_same h)

end

end CodeStudy.Samba
