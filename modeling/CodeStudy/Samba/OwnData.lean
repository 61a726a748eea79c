import CodeStudy.Samba.FileRequests
import CodeStudy.Samba.Numbering

/-!
# Data of other calls

The handler of a reply writes to the data its request was made with and to no others, and the
requests it makes are made with the same data. So the data of a call change only through replies to
requests that were made with them, and no handler of another call adds such a request.
-/

namespace CodeStudy.Samba

/-! ### Requests made with some data -/

/-- One for a query made with the data at an address, more for any other request made with them. -/
def Smb2Pdu.load (a : Nat) (pdu : Smb2Pdu) : Nat :=
  if pdu.appData ≠ a then 0 else if pdu.command = .queryInfo then 1 else 2

def PduChain.load (a : Nat) (chain : PduChain) : Nat := (chain.members.map (Smb2Pdu.load a)).sum

/-- Counts the requests in the queues that are made with the data at an address. -/
def Smb2Context.load (a : Nat) (smb2 : Smb2Context) : Nat :=
  smb2.outqueue.weight (PduChain.load a) + smb2.waitqueue.weight (Smb2Pdu.load a)

section

variable {a : Nat} {smb2 smb2' : Smb2Context} {w w' : World} {key : Nat} {chain : PduChain} {pdu pdu' : Smb2Pdu}

theorem Smb2Pdu.load_congr (hcommand : pdu'.command = pdu.command) (happData : pdu'.appData = pdu.appData) :
    pdu'.load a = pdu.load a := by
  rw [load, load, hcommand, happData]

theorem Smb2Pdu.load_of_ne (h : pdu.appData ≠ a) : pdu.load a = 0 := if_pos h

/-- A load of one is a query. -/
theorem Smb2Pdu.command_of_load (happData : pdu.appData = a) (h : pdu.load a ≤ 1) :
    pdu.command = .queryInfo ∧ pdu.load a = 1 := by
  rw [load, if_neg (not_not.mpr happData)] at h ⊢
  by_cases hcommand : pdu.command = .queryInfo
  · exact ⟨hcommand, if_pos hcommand⟩
  · rw [if_neg hcommand] at h
    omega

theorem Smb2Context.load_congr (hout : smb2'.outqueue = smb2.outqueue)
    (hwait : smb2'.waitqueue = smb2.waitqueue) : smb2'.load a = smb2.load a := by
  rw [load, load, hout, hwait]

theorem load_accept (offset : Nat) {hdr : Smb2Header}
    (h : w.smb2.waitqueue.lookup hdr.messageId.toNat = some pdu) :
    (w.accept offset hdr pdu).smb2.load a + pdu.load a = w.smb2.load a := by
  have hwait := OrdMap.weight_erase w.smb2.waitqueue (Smb2Pdu.load a) h
  show w.smb2.outqueue.weight (PduChain.load a) +
    (w.smb2.waitqueue.erase hdr.messageId.toNat).weight (Smb2Pdu.load a) + pdu.load a = _
  rw [Smb2Context.load]
  omega

theorem load_smb2PduAddToWaitqueue (pdus : List Smb2Pdu) (w : World) :
    (smb2PduAddToWaitqueue pdus w).smb2.load a ≤ w.smb2.load a + (pdus.map (Smb2Pdu.load a)).sum := by
  induction pdus generalizing w with
  | nil => exact Nat.le_refl _
  | cons pdu pdus ih =>
      rw [smb2PduAddToWaitqueue, List.map_cons, List.sum_cons]
      apply (ih _).trans
      have hinsert := w.smb2.waitqueue.weight_insert_le pdu.messageId pdu (Smb2Pdu.load a)
      show w.smb2.outqueue.weight (PduChain.load a) +
        (w.smb2.waitqueue.insert pdu.messageId pdu).weight (Smb2Pdu.load a) + _ ≤ _
      rw [Smb2Context.load]
      omega

theorem load_transmit (h : w.smb2.outqueue.lookup key = some chain) :
    (w.transmit key chain).smb2.load a ≤ w.smb2.load a := by
  have herase := OrdMap.weight_erase w.smb2.outqueue (PduChain.load a) h
  apply (load_smb2PduAddToWaitqueue chain.members _).trans
  show (w.smb2.outqueue.erase key).weight (PduChain.load a) +
    w.smb2.waitqueue.weight (Smb2Pdu.load a) + chain.load a ≤ _
  rw [Smb2Context.load]
  omega

theorem load_requeue (h : w.smb2.outqueue.lookup key = some chain) :
    (w.requeue key chain).smb2.load a ≤ w.smb2.load a := by
  have herase := OrdMap.weight_erase w.smb2.outqueue (PduChain.load a) h
  have hinsert := (w.smb2.outqueue.erase key).weight_insert_le chain.head.messageId chain (PduChain.load a)
  show ((w.smb2.outqueue.erase key).insert chain.head.messageId chain).weight (PduChain.load a) +
    w.smb2.waitqueue.weight (Smb2Pdu.load a) ≤ _
  rw [Smb2Context.load]
  omega

theorem sum_load_encoded {pdus encoded : List Smb2Pdu} (h : List.Forall₂ Encodes pdus encoded) :
    (encoded.map (Smb2Pdu.load a)).sum = (pdus.map (Smb2Pdu.load a)).sum := by
  induction h with
  | nil => rfl
  | cons hhead _ ih =>
      rw [List.map_cons, List.sum_cons, List.map_cons, List.sum_cons, ih,
        Smb2Pdu.load_congr hhead.command hhead.appData]

/-- Queueing adds the load of the chain at most. -/
theorem load_smb2QueuePdu {env : Env} {err : Option String} (h : smb2QueuePdu env w chain = (err, w')) :
    w'.smb2.load a ≤ w.smb2.load a + chain.load a := by
  obtain ⟨smb2, encoded, hencoded, ⟨hnone, queued, hqueued, rfl⟩ | ⟨-, rfl⟩⟩ := smb2QueuePdu_cases h
  · have hload : queued.load a = chain.load a := by
      have hall := sum_load_encoded (a := a) hencoded.encodes
      rw [PduChain.load, PduChain.load, hqueued, hall, hencoded.all hnone, List.take_length]
    have hinsert := w.smb2.outqueue.weight_insert_le queued.head.messageId queued (PduChain.load a)
    show (w.smb2.outqueue.insert queued.head.messageId queued).weight (PduChain.load a) +
      w.smb2.waitqueue.weight (Smb2Pdu.load a) ≤ _
    rw [Smb2Context.load]
    omega
  · exact Nat.le_add_right _ _

end

/-! ### Sparing the data of a call -/

/-- The data at an address stay as they are, and no request is added that was made with them. -/
structure Spares (a : Nat) (w w' : World) : Prop where
  app : w'.mem.app a = w.mem.app a
  load : w'.smb2.load a ≤ w.smb2.load a

namespace Spares

variable {a b : Nat} {w w₁ w' : World}

theorem refl (a : Nat) (w : World) : Spares a w w := ⟨rfl, Nat.le_refl _⟩

theorem trans (h : Spares a w w₁) (h' : Spares a w₁ w') : Spares a w w' :=
  ⟨h'.app.trans h.app, h'.load.trans h.load⟩

theorem setApp (hb : b ≠ a) (w : World) (data : AppData) :
    Spares a w { w with mem := w.mem.setApp b data } :=
  ⟨if_neg hb.symm, Nat.le_refl _⟩

theorem setErrorMsg (hb : b ≠ a) (w : World) (msg : String) : Spares a w (w.setErrorMsg b msg) :=
  setApp hb w _

theorem setNtStatus (hb : b ≠ a) (w : World) (status : NtStatus) : Spares a w (w.setNtStatus b status) :=
  setApp hb w _

theorem setStatusMsg (hb : b ≠ a) (w : World) (status : NtStatus) (msg : String) :
    Spares a w (w.setStatusMsg b status msg) := setApp hb w _

theorem setHandle (w : World) (address : Nat) (fh : Option Smb2fh) :
    Spares a w { w with mem := w.mem.setHandle address fh } := ⟨rfl, Nat.le_refl _⟩

/-- A change of the context that leaves the queues. -/
theorem setSmb2 (w : World) (smb2 : Smb2Context) (hout : smb2.outqueue = w.smb2.outqueue)
    (hwait : smb2.waitqueue = w.smb2.waitqueue) : Spares a w { w with smb2 } :=
  ⟨rfl, (Smb2Context.load_congr hout hwait).le⟩

theorem endSendReceive (w : World) : Spares a w w.endSendReceive := setSmb2 w _ rfl rfl

theorem close (w : World) : Spares a w w.close := ⟨rfl, (Smb2Context.load_congr rfl rfl).le⟩

theorem fail (hb : b ≠ a) (w : World) (status : NtStatus) (msg : String) : Spares a w (w.fail b status msg) :=
  (setStatusMsg hb w status msg).trans (endSendReceive _)

theorem failClosed (hb : b ≠ a) (w : World) (status : NtStatus) (msg : String) :
    Spares a w (w.failClosed b status msg) :=
  (close w).trans ((setStatusMsg hb _ status msg).trans (endSendReceive _))

theorem noRequest (hb : b ≠ a) (w : World) (msg : String) : Spares a w (w.noRequest b msg) :=
  (setErrorMsg hb w msg).trans ((close _).trans ((setNtStatus hb _ _).trans (endSendReceive _)))

theorem endDirectory (hb : b ≠ a) (w : World) (msg : String) : Spares a w (w.endDirectory b msg) :=
  (setApp hb w _).trans (endSendReceive _)

theorem deleteHandle {fh : Option Nat} (h : w.deleteHandle fh = some w') : Spares a w w' := by
  unfold World.deleteHandle at h
  split at h
  · cases h
    exact refl a w
  · split at h
    · cases h
    · cases h
      exact setHandle w _ _

theorem queueRequest {env : Env} {spec : RequestSpec} {err : Option String} (hspec : spec.appData ≠ a)
    (h : CodeStudy.Samba.queueRequest env w spec = (err, w')) : Spares a w w' := by
  have hload := load_smb2QueuePdu (a := a) h
  have hspec' : PduChain.load a { head := createPdu w.smb2 spec } = 0 := by
    rw [PduChain.load, PduChain.members, List.map_singleton, List.sum_singleton]
    exact Smb2Pdu.load_of_ne hspec
  refine ⟨?_, by omega⟩
  obtain ⟨messageId, pdu, -, ⟨-, rfl⟩ | ⟨-, rfl⟩⟩ := queueRequest_cases h
  · rfl
  · rfl

end Spares

/-! ### Handlers -/

section

variable {env : Env} {a : Nat} {w w' : World} {pdu : Smb2Pdu} {rep : Smb2SessionSetupReply}

/-- Whether a request could be queued or not. -/
theorem spares_queueRequest {spec : RequestSpec} (hspec : spec.appData ≠ a) (w : World) :
    Spares a w (queueRequest env w spec).2 := by
  cases hqueue : queueRequest env w spec with
  | mk err w' => exact Spares.queueRequest hspec hqueue

theorem closeReply_spares (hb : pdu.appData ≠ a) (h : closeReply w pdu = some w') : Spares a w w' := by
  simp only [closeReply] at h
  split at h
  · exact (Spares.setErrorMsg hb w _).trans ((Spares.setNtStatus hb _ _).trans
      ((Spares.endSendReceive _).trans (Spares.deleteHandle h)))
  · exact (Spares.setNtStatus hb w _).trans ((Spares.endSendReceive _).trans (Spares.deleteHandle h))

theorem createReply_spares (hb : pdu.appData ≠ a) (h : createReply w pdu = some w') : Spares a w w' := by
  have hset := Spares.setNtStatus hb w pdu.headerResp.status
  simp only [createReply] at h
  split at h
  · exact hset.trans ((Spares.setErrorMsg hb _ _).trans ((Spares.endSendReceive _).trans (Spares.deleteHandle h)))
  · split at h
    · cases h
      exact hset
    · split at h
      · cases h
        exact hset.trans ((Spares.setHandle _ _ _).trans (Spares.endSendReceive _))
      · cases h

theorem flushReply_spares (hb : pdu.appData ≠ a) (h : flushReply w pdu = some w') : Spares a w w' := by
  have hset := Spares.setNtStatus hb w pdu.headerResp.status
  simp only [flushReply] at h
  split at h
  · cases h
    exact hset.trans ((Spares.setErrorMsg hb _ _).trans (Spares.endSendReceive _))
  · cases h
    exact hset.trans (Spares.endSendReceive _)

theorem setInfoReply_spares (hb : pdu.appData ≠ a) (h : setInfoReply w pdu = some w') : Spares a w w' := by
  have hset := Spares.setNtStatus hb w pdu.headerResp.status
  simp only [setInfoReply] at h
  split at h
  · cases h
    exact hset.trans ((Spares.setErrorMsg hb _ _).trans (Spares.endSendReceive _))
  · cases h
    exact hset.trans (Spares.endSendReceive _)

theorem ioctlReply_spares (hb : pdu.appData ≠ a) (h : ioctlReply w pdu = some w') : Spares a w w' := by
  have hset := Spares.setNtStatus hb w pdu.headerResp.status
  simp only [ioctlReply] at h
  split at h
  · cases h
    exact hset.trans ((Spares.setErrorMsg hb _ _).trans (Spares.endSendReceive _))
  · split at h
    · split at h
      · cases h
        exact hset.trans ((Spares.setApp hb _ _).trans (Spares.endSendReceive _))
      · cases h
    · cases h

theorem readReply_spares (hb : pdu.appData ≠ a) (h : readReply w pdu env = some w') : Spares a w w' := by
  have hset := Spares.setNtStatus hb w pdu.headerResp.status
  simp only [readReply] at h
  split at h
  · cases h
    exact hset.trans ((Spares.setErrorMsg hb _ _).trans (Spares.endSendReceive _))
  · simp only [Option.bind_eq_bind, Option.bind_eq_some_iff] at h
    obtain ⟨address, -, fh, -, rep, -, h⟩ := h
    split at h
    · cases h
      exact hset.trans ((Spares.setHandle _ address _).trans
        ((Spares.setApp hb _ _).trans (Spares.endSendReceive _)))
    · cases h

theorem writeReply_spares (hb : pdu.appData ≠ a) (h : writeReply w pdu env = some w') : Spares a w w' := by
  have hset := Spares.setNtStatus hb w pdu.headerResp.status
  simp only [writeReply] at h
  split at h
  · cases h
    exact hset.trans ((Spares.setErrorMsg hb _ _).trans (Spares.endSendReceive _))
  · simp only [Option.bind_eq_bind, Option.bind_eq_some_iff] at h
    obtain ⟨address, -, fh, -, rep, -, h⟩ := h
    cases h
    exact hset.trans ((Spares.setHandle _ address _).trans (Spares.endSendReceive _))

theorem queryInfoReply_spares (hb : pdu.appData ≠ a) (h : queryInfoReply w pdu = some w') : Spares a w w' := by
  have hset := Spares.setNtStatus hb w pdu.headerResp.status
  simp only [queryInfoReply] at h
  split at h
  · cases h
    exact hset.trans ((Spares.setErrorMsg hb _ _).trans (Spares.endSendReceive _))
  · split at h
    · split at h
      · cases h
        exact hset.trans ((Spares.setApp hb _ _).trans (Spares.endSendReceive _))
      · cases h
        exact hset.trans ((Spares.setStatusMsg hb _ _ _).trans (Spares.endSendReceive _))
    · cases h

theorem treeConnectReply_spares (hb : pdu.appData ≠ a) (h : treeConnectReply w pdu = some w') :
    Spares a w w' := by
  have hset := Spares.setNtStatus hb w pdu.headerResp.status
  simp only [treeConnectReply] at h
  split at h
  · cases h
    exact hset.trans ((Spares.close _).trans ((Spares.setErrorMsg hb _ _).trans (Spares.endSendReceive _)))
  · cases h
    exact hset.trans (Spares.endSendReceive _)

theorem treeDisconnectReply_spares (hb : pdu.appData ≠ a) (h : treeDisconnectReply env w pdu = some w') :
    Spares a w w' := by
  have hset := Spares.setNtStatus hb w pdu.headerResp.status
  simp only [treeDisconnectReply] at h
  split at h
  · cases h
    exact hset.trans (spares_queueRequest hb _)
  · cases h
    exact hset.trans ((Spares.setErrorMsg hb _ _).trans (Spares.endSendReceive _))

theorem queryDirectoryReply_spares (hb : pdu.appData ≠ a) (h : queryDirectoryReply env w pdu = some w') :
    Spares a w w' := by
  have hset := Spares.setNtStatus hb w pdu.headerResp.status
  simp only [queryDirectoryReply] at h
  split at h
  · split at h
    · split at h
      · split at h
        · cases h
        · cases h
          exact hset.trans (Spares.endDirectory hb _ _)
        · have hentries (data : AppData) := hset.trans (Spares.setApp hb _ data)
          split at h
          · split at h
            · cases h
              exact (hentries _).trans (Spares.endDirectory hb _ _)
            · rename_i hspec
              cases h
              refine (hentries _).trans (spares_queueRequest ?_ _)
              rw [queryDirectoryRequest_appData hspec]
              exact hb
          · cases h
            exact (hentries _).trans (Spares.endDirectory hb _ _)
      · cases h
    · cases h
  · split at h
    · cases h
      exact hset.trans ((Spares.setNtStatus hb _ _).trans (Spares.endSendReceive _))
    · split at h
      · cases h
      · cases h
        exact hset.trans (Spares.endDirectory hb _ _)

theorem smb2UpdatePreauthIntegrityHash_spares {smb2 : Smb2Context} {iovs : Smb2IoVectors}
    (h : smb2UpdatePreauthIntegrityHash env w.smb2 iovs = some (.ok smb2)) : Spares a w { w with smb2 } := by
  have hsame := smb2UpdatePreauthIntegrityHash_same h
  exact Spares.setSmb2 w smb2 hsame.outqueue hsame.waitqueue

theorem startSession_spares (hb : pdu.appData ≠ a) (h : startSession env w pdu = some w') : Spares a w w' := by
  have hauth (authenticator : Option (List Bytes)) :
      Spares a w { w with smb2 := { w.smb2 with authenticator } } := Spares.setSmb2 w _ rfl rfl
  simp only [startSession] at h
  split at h
  · split at h
    · cases h
      exact (hauth (some [])).trans (Spares.failClosed hb _ _ _)
    · split at h
      · cases h
        exact (hauth (some [])).trans (Spares.failClosed hb _ _ _)
      · refine (hauth (some [[]])).trans ?_
        split at h
        · split at h
          · rename_i hqueue
            cases h
            exact Spares.queueRequest hb hqueue
          · rename_i hqueue
            cases h
            exact (Spares.queueRequest hb hqueue).trans (Spares.failClosed hb _ _ _)
        · cases h
          exact Spares.noRequest hb _ _
  · cases h
    exact (hauth none).trans (Spares.failClosed hb _ _ _)

theorem negotiateReply_spares (hb : pdu.appData ≠ a) (h : negotiateReply env w pdu = some w') :
    Spares a w w' := by
  have hset := Spares.setNtStatus hb w pdu.headerResp.status
  simp only [negotiateReply] at h
  split at h
  · cases h
    exact hset.trans ((Spares.close _).trans ((Spares.setErrorMsg hb _ _).trans (Spares.endSendReceive _)))
  · split at h
    · rename_i rep _
      split at h
      · cases h
        exact hset.trans (Spares.fail hb _ _ _)
      · have hnegotiated (w : World) : Spares a w { w with smb2 := w.smb2.negotiated rep } :=
          Spares.setSmb2 w _ rfl rfl
        refine hset.trans ((hnegotiated _).trans ?_)
        have hhash (w : World) (preauthIntegrityHash : Option Bytes) :
            Spares a w { w with smb2 := { w.smb2 with preauthIntegrityHash } } := Spares.setSmb2 w _ rfl rfl
        split at h
        · split at h
          · refine (hhash _ (some (List.replicate 64 0))).trans ?_
            split at h
            · cases h
            · cases h
              exact Spares.fail hb _ _ _
            · rename_i hreq
              refine (smb2UpdatePreauthIntegrityHash_spares hreq).trans ?_
              split at h
              · cases h
              · cases h
                exact Spares.fail hb _ _ _
              · rename_i hresp
                exact (smb2UpdatePreauthIntegrityHash_spares hresp).trans (startSession_spares hb h)
          · cases h
            exact (hhash _ none).trans (Spares.fail hb _ _ _)
        · exact startSession_spares hb h
    · cases h

theorem connectTree_spares (hb : pdu.appData ≠ a) (h : connectTree env w pdu = some w') : Spares a w w' := by
  have hauth : Spares a w { w with smb2 := { w.smb2 with authenticator := none } } :=
    Spares.setSmb2 w _ rfl rfl
  simp only [connectTree] at h
  refine hauth.trans ?_
  split at h
  · cases h
    exact Spares.failClosed hb _ _ _
  · split at h
    · cases h
      exact spares_queueRequest hb _
    · cases h
      exact Spares.noRequest hb _ _

theorem setSigningKey_spares (hb : pdu.appData ≠ a) (h : setSigningKey env w pdu = some w') :
    Spares a w w' := by
  have hkeys (sessionKey : Option Bytes) (sessionKeySize : UInt8) (signingKey : Bytes) :
      Spares a w { w with smb2 := { w.smb2 with sessionKey, sessionKeySize, signingKey } } :=
    Spares.setSmb2 w _ rfl rfl
  simp only [setSigningKey] at h
  split at h
  · exact connectTree_spares hb h
  · split at h
    · cases h
    · split at h
      · cases h
        exact Spares.failClosed hb _ _ _
      · split at h
        · cases h
          exact (hkeys _ _ _).trans (Spares.failClosed hb _ _ _)
        · split at h
          · cases h
            exact (hkeys _ _ _).trans (Spares.failClosed hb _ _ _)
          · exact (hkeys _ _ _).trans (connectTree_spares hb h)

theorem nextSessionRequest_spares {answer : Except String Bytes}
    (h : nextSessionRequest env w rep = some (answer, w')) : Spares a w w' := by
  simp only [nextSessionRequest] at h
  split at h
  · cases h
  · split at h
    · cases h
      exact Spares.setSmb2 w _ rfl rfl
    · cases h

theorem continueSession_spares (hb : pdu.appData ≠ a) (h : continueSession env w pdu rep = some w') :
    Spares a w w' := by
  simp only [continueSession] at h
  split at h
  · split at h
    · cases h
    · rename_i hnext
      cases h
      exact (nextSessionRequest_spares hnext).trans (Spares.failClosed hb _ _ _)
    · rename_i hnext
      refine (nextSessionRequest_spares hnext).trans ?_
      split at h
      · cases h
        exact spares_queueRequest hb _
      · cases h
        exact Spares.noRequest hb _ _
  · split at h
    · split at h
      · cases h
      · rename_i hnext
        cases h
        exact (nextSessionRequest_spares hnext).trans (Spares.fail hb _ _ _)
      · rename_i hnext
        exact (nextSessionRequest_spares hnext).trans (setSigningKey_spares hb h)
    · exact setSigningKey_spares hb h

theorem sessionSetupReply_spares (hb : pdu.appData ≠ a) (h : sessionSetupReply env w pdu = some w') :
    Spares a w w' := by
  have hset := Spares.setNtStatus hb w pdu.headerResp.status
  simp only [sessionSetupReply] at h
  split at h
  · cases h
    exact hset.trans (Spares.failClosed hb _ _ _)
  · refine hset.trans ?_
    split at h
    · split at h
      · split at h
        · cases h
        · cases h
          exact Spares.fail hb _ _ _
        · rename_i hreq
          refine (smb2UpdatePreauthIntegrityHash_spares hreq).trans ?_
          split at h
          · split at h
            · cases h
            · cases h
              exact Spares.fail hb _ _ _
            · rename_i hresp
              exact (smb2UpdatePreauthIntegrityHash_spares hresp).trans (continueSession_spares hb h)
          · exact continueSession_spares hb h
      · exact continueSession_spares hb h
    · cases h

/-- Whatever the command, the data of other calls are left alone. -/
theorem smb2ProcessReplyAndAppData_spares (hb : pdu.appData ≠ a)
    (h : smb2ProcessReplyAndAppData env w pdu = some w') : Spares a w w' := by
  have hset := Spares.setNtStatus hb w pdu.headerResp.status
  unfold smb2ProcessReplyAndAppData at h
  split at h
  case h_1 => exact negotiateReply_spares hb h
  case h_2 => exact sessionSetupReply_spares hb h
  case h_3 =>
    cases h
    exact hset.trans ((Spares.endSendReceive _).trans (Spares.close _))
  case h_4 => exact treeConnectReply_spares hb h
  case h_5 => exact treeDisconnectReply_spares hb h
  case h_6 => exact createReply_spares hb h
  case h_7 => exact closeReply_spares hb h
  case h_8 => exact flushReply_spares hb h
  case h_9 => exact readReply_spares hb h
  case h_10 => exact writeReply_spares hb h
  case h_11 => exact ioctlReply_spares hb h
  case h_12 =>
    cases h
    exact hset.trans (Spares.endSendReceive _)
  case h_13 => exact queryDirectoryReply_spares hb h
  case h_14 => exact queryInfoReply_spares hb h
  case h_15 => exact setInfoReply_spares hb h

end

end CodeStudy.Samba
