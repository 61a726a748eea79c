import CodeStudy.Samba.Api
import CodeStudy.Samba.ExchangeRule
import CodeStudy.Samba.Numbering

/-!
# The life of a handle

A handle is allocated by the builder of a CREATE, filled in by the handler of its reply, given to the
application, and released by the handler of the reply to a CLOSE. When the server refuses the CREATE
the handler releases the handle, and the data of the call keep the pointer: the call returns it, and
the functions that close what they opened use it. As long as the server refuses nothing and every
exchange comes to its end, the handles that exist are those the application has.
-/

namespace CodeStudy.Samba

/-- A handle that was allocated and not released. -/
def World.Alive (w : World) (h : Nat) : Prop := w.mem.handle h ≠ none

/-! ### What the handlers do to handles -/

section

variable {env : Env} {w w' : World} {pdu : Smb2Pdu} {a h : Nat}

theorem alive_setHandle {mem : Memory} {address : Nat} {fh fh' : Smb2fh} (hfh : mem.handle address = some fh) :
    (mem.setHandle address (some fh')).handle h ≠ none ↔ mem.handle h ≠ none := by
  simp only [Memory.setHandle]
  split_ifs with heq
  · rw [heq, hfh]
    simp
  · rfl

theorem readReply_alive (hhandler : readReply w pdu env = some w') : w'.Alive h ↔ w.Alive h := by
  simp only [readReply] at hhandler
  split at hhandler
  · cases hhandler
    rfl
  · simp only [Option.bind_eq_bind, Option.bind_eq_some_iff] at hhandler
    obtain ⟨address, -, fh, hfh, rep, -, hhandler⟩ := hhandler
    split at hhandler
    · cases hhandler
      exact alive_setHandle hfh
    · cases hhandler

theorem writeReply_alive (hhandler : writeReply w pdu env = some w') : w'.Alive h ↔ w.Alive h := by
  simp only [writeReply] at hhandler
  split at hhandler
  · cases hhandler
    rfl
  · simp only [Option.bind_eq_bind, Option.bind_eq_some_iff] at hhandler
    obtain ⟨address, -, fh, hfh, rep, -, hhandler⟩ := hhandler
    cases hhandler
    exact alive_setHandle hfh

/-- A CREATE that succeeds fills its handle in. -/
theorem createReply_alive (hstatus : pdu.headerResp.status = NtStatus.success)
    (hhandler : createReply w pdu = some w') :
    (w'.Alive h ↔ w.Alive h) ∧ (w'.mem.app pdu.appData).ntStatus = NtStatus.success := by
  have hset : ((w.setNtStatus pdu.appData pdu.headerResp.status).mem.app pdu.appData).ntStatus =
      NtStatus.success := by
    simp only [World.setNtStatus, Memory.setApp, if_true, hstatus]
  simp only [createReply] at hhandler
  rw [if_neg (not_not.mpr hstatus)] at hhandler
  split at hhandler
  · cases hhandler
    exact ⟨Iff.rfl, hset⟩
  · split at hhandler
    · rename_i hfh _
      cases hhandler
      exact ⟨alive_setHandle hfh, hset⟩
    · cases hhandler

theorem deleteHandle_alive {fh : Option Nat} (hdelete : w.deleteHandle fh = some w') :
    w'.Alive h ↔ w.Alive h ∧ fh ≠ some h := by
  unfold World.deleteHandle at hdelete
  split at hdelete
  · cases hdelete
    simp
  · rename_i address
    split at hdelete
    · cases hdelete
    · cases hdelete
      simp only [World.Alive, Memory.setHandle, ne_eq, Option.some.injEq]
      split_ifs with heq
      · simp [heq]
      · exact ⟨fun hne => ⟨hne, fun haddress => heq haddress.symm⟩, fun hne => hne.1⟩

/-- A CLOSE releases its handle, whatever the server says. -/
theorem closeReply_alive (hhandler : closeReply w pdu = some w') :
    w'.Alive h ↔ w.Alive h ∧ (w.mem.app pdu.appData).fh ≠ some h := by
  simp only [closeReply] at hhandler
  split at hhandler
  · have hdeleted := deleteHandle_alive (h := h) hhandler
    exact hdeleted
  · have hdeleted := deleteHandle_alive (h := h) hhandler
    exact hdeleted

end

/-! ### One request at a time -/

/-- At most one request is on its way, of a given command and with its data at a given address. -/
inductive OnlyRequest (c : Smb2Command) (a : Nat) (smb2 : Smb2Context) : Prop where
  | none (hout : smb2.outqueue.entries = []) (hwait : smb2.waitqueue.entries = [])
  | queued {key : Nat} {pdu : Smb2Pdu} (hout : smb2.outqueue.entries = [(key, ⟨pdu, []⟩)])
      (hwait : smb2.waitqueue.entries = []) (hcommand : pdu.command = c) (happData : pdu.appData = a)
  | waiting {key : Nat} {pdu : Smb2Pdu} (hout : smb2.outqueue.entries = [])
      (hwait : smb2.waitqueue.entries = [(key, pdu)]) (hcommand : pdu.command = c)
      (happData : pdu.appData = a)

namespace OnlyRequest

variable {c : Smb2Command} {a : Nat} {smb2 smb2' : Smb2Context} {w : World} {key : Nat} {chain : PduChain}

theorem congr (h : OnlyRequest c a smb2) (hout : smb2'.outqueue = smb2.outqueue)
    (hwait : smb2'.waitqueue = smb2.waitqueue) : OnlyRequest c a smb2' := by
  cases h with
  | none ho hw => exact .none (hout ▸ ho) (hwait ▸ hw)
  | queued ho hw hcommand happData => exact .queued (hout ▸ ho) (hwait ▸ hw) hcommand happData
  | waiting ho hw hcommand happData => exact .waiting (hout ▸ ho) (hwait ▸ hw) hcommand happData

/-- A request that can be sent is the only one. -/
theorem of_lookup_outqueue (h : OnlyRequest c a smb2) (hchain : smb2.outqueue.lookup key = some chain) :
    (smb2.outqueue.erase key).entries = [] ∧ smb2.waitqueue.entries = [] ∧
      ∃ pdu, chain = ⟨pdu, []⟩ ∧ pdu.command = c ∧ pdu.appData = a := by
  cases h with
  | none ho hw => exact absurd hchain (OrdMap.not_lookup_of_empty ho)
  | waiting ho hw => exact absurd hchain (OrdMap.not_lookup_of_empty ho)
  | queued ho hw hcommand happData =>
      obtain ⟨hentry, herase⟩ := OrdMap.lookup_of_single ho hchain
      cases hentry
      exact ⟨herase, hw, _, rfl, hcommand, happData⟩

/-- Once sent, it waits for its reply. -/
theorem transmit (h : OnlyRequest c a w.smb2) (hchain : w.smb2.outqueue.lookup key = some chain) :
    OnlyRequest c a (w.transmit key chain).smb2 := by
  obtain ⟨herase, hwait, pdu, rfl, hcommand, happData⟩ := h.of_lookup_outqueue hchain
  exact .waiting (by rw [outqueue_transmit]; exact herase) (OrdMap.entries_insert_of_empty hwait _ _) hcommand happData

theorem requeue (h : OnlyRequest c a w.smb2) (hchain : w.smb2.outqueue.lookup key = some chain) :
    OnlyRequest c a (w.requeue key chain).smb2 := by
  obtain ⟨herase, hwait, pdu, rfl, hcommand, happData⟩ := h.of_lookup_outqueue hchain
  exact .queued (OrdMap.entries_insert_of_empty herase _ _) hwait hcommand happData

/-- The request a header is matched to is the only one, and none is left. -/
theorem accept (h : OnlyRequest c a w.smb2) {request : Smb2Pdu}
    (hwaiting : w.smb2.waitqueue.lookup key = some request) :
    request.command = c ∧ request.appData = a ∧ w.smb2.outqueue.entries = [] ∧
      (w.smb2.waitqueue.erase key).entries = [] := by
  cases h with
  | none ho hw => exact absurd hwaiting (OrdMap.not_lookup_of_empty hw)
  | queued ho hw => exact absurd hwaiting (OrdMap.not_lookup_of_empty hw)
  | waiting ho hw hcommand happData =>
      obtain ⟨hentry, herase⟩ := OrdMap.lookup_of_single hw hwaiting
      cases hentry
      exact ⟨hcommand, happData, ho, herase⟩

/-- A request that a builder or a handler queues is the only one. -/
theorem queueRequest {env : Env} {w' : World} {spec : RequestSpec} {err : Option String}
    (hout : w.smb2.outqueue.entries = []) (hwait : w.smb2.waitqueue.entries = [])
    (h : CodeStudy.Samba.queueRequest env w spec = (err, w')) :
    OnlyRequest spec.command spec.appData w'.smb2 := by
  obtain ⟨messageId, pdu, hqueued, ⟨-, rfl⟩ | ⟨-, rfl⟩⟩ := queueRequest_cases h
  · exact .queued (OrdMap.entries_insert_of_empty hout _ _) hwait hqueued.command hqueued.appData
  · exact .none hout hwait

end OnlyRequest

/-! ### An exchange about a handle -/

/-- The entries of a directory can be decoded, and there is memory to ask for more of them. -/
def Decodes (env : Env) (payload : Payload) : Prop :=
  (∀ rep, payload = .queryDirectory rep → ∀ msg,
    env.decodeDirents (rep.outputBuffer.take rep.outputBufferLength.toNat) ≠ some (.error msg)) ∧
    ∀ smb2, env.alloc (.encodeRequest .queryDirectory) smb2 = true

/-- The server does what it was asked for when it answers a CREATE or a QUERY_DIRECTORY. -/
def Event.Succeeds (env : Env) : Event → Prop
  | .processed pdu =>
      (pdu.command = .create → pdu.headerResp.status = NtStatus.success) ∧
        (pdu.command = .queryDirectory → pdu.headerResp.status = NtStatus.noMoreFiles ∨
          (pdu.headerResp.status = NtStatus.success ∧ Decodes env pdu.payload))
  | _ => True

/-- Every answer so far was one that succeeds. -/
def World.Succeeds (env : Env) (w : World) : Prop := ∀ event ∈ w.trace, event.Succeeds env

/-- The directory of a call is there, and more of it can be asked for. -/
def HasDirectory (env : Env) (a : Nat) (w : World) : Prop :=
  ∃ dir, (w.mem.app a).dir = some dir ∧
    (queryDirectoryRequest env a dir.fileId (w.mem.app a).pattern).isSome

/-- The commands an application uses handles with. -/
def Smb2Command.isAboutHandle (c : Smb2Command) : Prop :=
  c = .create ∨ c = .close ∨ c = .read ∨ c = .write ∨ c = .queryDirectory

section

variable (env : Env) (c : Smb2Command) (a : Nat) (mem₀ : Memory)

/-- The client during an exchange of one request, which began with some memory. -/
structure Exchanging (w : World) : Prop where
  only : OnlyRequest c a w.smb2
  fh : ∀ b, (w.mem.app b).fh = (mem₀.app b).fh
  directory : c = .queryDirectory → HasDirectory env a w
  running : w.smb2.isComplete = false → ∀ h, w.Alive h ↔ mem₀.handle h ≠ none
  complete : w.smb2.isComplete = true →
    (w.smb2.outqueue.entries = [] ∧ w.smb2.waitqueue.entries = []) ∧
      (∀ h, w.Alive h ↔ mem₀.handle h ≠ none ∧ ¬ (c = .close ∧ (mem₀.app a).fh = some h)) ∧
      (c = .create ∨ c = .queryDirectory → (w.mem.app a).ntStatus = NtStatus.success)

/-- The reply to the request is being read. -/
structure Answering (pdu : Smb2Pdu) (w : World) : Prop where
  command : pdu.command = c
  appData : pdu.appData = a
  outqueue : w.smb2.outqueue.entries = []
  waitqueue : w.smb2.waitqueue.entries = []
  fh : ∀ b, (w.mem.app b).fh = (mem₀.app b).fh
  directory : c = .queryDirectory → HasDirectory env a w
  isComplete : w.smb2.isComplete = false
  alive : ∀ h, w.Alive h ↔ mem₀.handle h ≠ none

end

section

variable {env : Env} {c : Smb2Command} {a : Nat} {mem₀ : Memory} {w w' : World} {pdu : Smb2Pdu}

theorem Answering.exchanging (h : Answering env c a mem₀ pdu w) : Exchanging env c a mem₀ w where
  only := .none h.outqueue h.waitqueue
  fh := h.fh
  directory := h.directory
  running := fun _ => h.alive
  complete := fun hcomplete => absurd (h.isComplete.symm.trans hcomplete) (by decide)

/-- A request is matched only while the exchange goes on. -/
theorem Exchanging.isComplete_of_lookup (h : Exchanging env c a mem₀ w) {key : Nat} {request : Smb2Pdu}
    (hwaiting : w.smb2.waitqueue.lookup key = some request) : w.smb2.isComplete = false := by
  rw [← Bool.not_eq_true]
  exact fun hcomplete => OrdMap.not_lookup_of_empty (h.complete hcomplete).1.2 hwaiting

/-- Changes of texts and of the socket. -/
theorem Exchanging.of_same (h : Exchanging env c a mem₀ w) (hout : w'.smb2.outqueue = w.smb2.outqueue)
    (hwait : w'.smb2.waitqueue = w.smb2.waitqueue) (hcomplete : w'.smb2.isComplete = w.smb2.isComplete)
    (hmem : w'.mem = w.mem) : Exchanging env c a mem₀ w' where
  only := h.only.congr hout hwait
  fh := by rw [hmem]; exact h.fh
  directory := by simp only [HasDirectory, hmem]; exact h.directory
  running := by simp only [World.Alive, hmem, hcomplete]; exact h.running
  complete := by simp only [World.Alive, hmem, hcomplete, hout, hwait]; exact h.complete

/-- A handler that ends the exchange. -/
theorem Answering.ended (h : Answering env c a mem₀ pdu w)
    (hsame : SameQueues (w.log (.processed pdu)).endSendReceive w')
    (halive : ∀ h, w'.Alive h ↔ w.Alive h ∧ ¬ (c = .close ∧ (mem₀.app a).fh = some h))
    (hstatus : c = .create ∨ c = .queryDirectory → (w'.mem.app a).ntStatus = NtStatus.success)
    (hdirectory : c = .queryDirectory → HasDirectory env a w') : Exchanging env c a mem₀ w' := by
  have hout : w'.smb2.outqueue.entries = [] := by
    rw [hsame.outqueue]
    exact h.outqueue
  have hwait : w'.smb2.waitqueue.entries = [] := by
    rw [hsame.waitqueue]
    exact h.waitqueue
  have hcomplete : w'.smb2.isComplete = true := hsame.isComplete
  exact {
    only := .none hout hwait
    fh := fun b => (hsame.fh b).trans (h.fh b)
    directory := hdirectory
    running := fun hrunning => absurd (hrunning.symm.trans hcomplete) (by decide)
    complete := fun _ => ⟨⟨hout, hwait⟩, fun h' => by rw [halive, h.alive], hstatus⟩ }

/-! ### The handlers in an exchange -/

theorem Answering.create (h : Answering env .create a mem₀ pdu w) (hfh : (mem₀.app a).fh ≠ none)
    (hstatus : pdu.headerResp.status = NtStatus.success)
    (hhandler : createReply (w.log (.processed pdu)) pdu = some w') :
    Exchanging env .create a mem₀ w' := by
  rcases createReply_same hhandler with ⟨hsame, -⟩ | ⟨-, -, hnone⟩
  · refine h.ended hsame (fun h' => ?_) (fun _ => ?_) (fun hc => absurd hc (by decide))
    · rw [(createReply_alive hstatus hhandler).1]
      simp [World.Alive, World.log]
    · rw [← h.appData]
      exact (createReply_alive (h := 0) hstatus hhandler).2
  · refine absurd ?_ hfh
    rw [← h.fh, ← h.appData]
    exact hnone

theorem Answering.close (h : Answering env .close a mem₀ pdu w)
    (hhandler : closeReply (w.log (.processed pdu)) pdu = some w') : Exchanging env .close a mem₀ w' := by
  refine h.ended (closeReply_same hhandler) (fun h' => ?_) (by simp) (fun hc => absurd hc (by decide))
  rw [closeReply_alive hhandler, ← h.fh, ← h.appData]
  simp [World.Alive, World.log]

theorem Answering.read (h : Answering env .read a mem₀ pdu w)
    (hhandler : readReply (w.log (.processed pdu)) pdu env = some w') : Exchanging env .read a mem₀ w' := by
  refine h.ended (readReply_same hhandler) (fun h' => ?_) (by simp) (fun hc => absurd hc (by decide))
  rw [readReply_alive hhandler]
  simp [World.Alive, World.log]

theorem Answering.write (h : Answering env .write a mem₀ pdu w)
    (hhandler : writeReply (w.log (.processed pdu)) pdu env = some w') : Exchanging env .write a mem₀ w' := by
  refine h.ended (writeReply_same hhandler) (fun h' => ?_) (by simp) (fun hc => absurd hc (by decide))
  rw [writeReply_alive hhandler]
  simp [World.Alive, World.log]

/-- The handler of a QUERY_DIRECTORY that succeeds adds the entries and asks for more. -/
theorem queryDirectoryReply_success {dir : Smb2dir} (hdir : (w.mem.app pdu.appData).dir = some dir)
    (hpattern : (queryDirectoryRequest env pdu.appData dir.fileId (w.mem.app pdu.appData).pattern).isSome)
    (hstatus : pdu.headerResp.status = NtStatus.success) (hdecodes : Decodes env pdu.payload)
    (hhandler : queryDirectoryReply env w pdu = some w') :
    ∃ mem dir' spec, mem.handle = w.mem.handle ∧ (∀ b, (mem.app b).fh = (w.mem.app b).fh) ∧
      (mem.app pdu.appData).dir = some dir' ∧ dir'.fileId = dir.fileId ∧
      (mem.app pdu.appData).pattern = (w.mem.app pdu.appData).pattern ∧
      queryDirectoryRequest env pdu.appData dir.fileId (w.mem.app pdu.appData).pattern = some spec ∧
      (queueRequest env { w with mem } spec).2 = w' := by
  obtain ⟨spec, hspec⟩ := Option.isSome_iff_exists.mp hpattern
  have hset : ((w.setNtStatus pdu.appData pdu.headerResp.status).mem.app pdu.appData).dir = some dir := by
    simp only [World.setNtStatus, Memory.setApp, if_true, hdir]
  have hpattern' : ((w.setNtStatus pdu.appData pdu.headerResp.status).mem.app pdu.appData).pattern =
      (w.mem.app pdu.appData).pattern := by
    simp only [World.setNtStatus, Memory.setApp, if_true]
  simp only [queryDirectoryReply] at hhandler
  rw [if_pos hstatus, hset] at hhandler
  split at hhandler
  · rename_i dir' rep hdir' hrep
    cases hdir'
    by_cases hlength : rep.outputBufferLength.toNat ≤ rep.outputBuffer.length
    · rw [if_pos hlength] at hhandler
      split at hhandler
      · cases hhandler
      · rename_i msg hdecode
        exact absurd hdecode (hdecodes.1 rep hrep msg)
      · rename_i entries _
        rw [if_pos (hdecodes.2 _)] at hhandler
        simp only [hpattern', hspec] at hhandler
        refine ⟨_, { dir with entries := dir.entries ++ entries }, spec, ?_, fun b => ?_, ?_, ?_, ?_, hspec,
          Option.some.inj hhandler⟩
        · rfl
        · simp only [World.setNtStatus, Memory.setApp]
          split_ifs with hb
          · rw [hb]
          · rfl
        · simp only [Memory.setApp, if_true]
        · rfl
        · simp only [Memory.setApp, World.setNtStatus, if_true]
    · rw [if_neg hlength] at hhandler
      cases hhandler
  · cases hhandler

/-- A QUERY_DIRECTORY is followed by another one, or it ends the exchange with the directory. -/
theorem Answering.queryDirectory (h : Answering env .queryDirectory a mem₀ pdu w)
    (hsucceeds : pdu.headerResp.status = NtStatus.noMoreFiles ∨
      (pdu.headerResp.status = NtStatus.success ∧ Decodes env pdu.payload))
    (hhandler : queryDirectoryReply env (w.log (.processed pdu)) pdu = some w') :
    Exchanging env .queryDirectory a mem₀ w' := by
  obtain ⟨dir, hdir, hpattern⟩ := h.directory rfl
  rcases hsucceeds with hstatus | ⟨hstatus, hdecodes⟩
  · simp only [queryDirectoryReply, h.appData] at hhandler
    rw [if_neg (by rw [hstatus]; decide), if_pos hstatus] at hhandler
    cases hhandler
    refine h.ended ?_ (fun h' => ?_) (fun _ => ?_) (fun _ => ⟨dir, ?_, ?_⟩)
    · exact ((SameQueues.setNtStatus _ a _).trans (SameQueues.setNtStatus _ a _)).endSendReceive
    · simp [World.Alive, World.log, World.setNtStatus, World.endSendReceive, Memory.setApp]
    · simp only [World.setNtStatus, World.endSendReceive, Memory.setApp, if_true]
    · simp only [World.log, World.setNtStatus, World.endSendReceive, Memory.setApp, if_true, hdir]
    · simpa only [World.log, World.setNtStatus, World.endSendReceive, Memory.setApp, if_true] using hpattern
  · rw [← h.appData] at hdir hpattern
    obtain ⟨mem, dir', spec, hhandle, hfh, hdir', hfileId, hsame, hspec, hqueue⟩ :=
      queryDirectoryReply_success (w := w.log (.processed pdu)) hdir hpattern hstatus hdecodes hhandler
    have hcommand : spec.command = .queryDirectory := queryDirectoryRequest_command hspec
    have happData : spec.appData = a := (queryDirectoryRequest_appData hspec).trans h.appData
    obtain ⟨err, hresult⟩ : ∃ err, queueRequest env { w.log (.processed pdu) with mem } spec = (err, w') :=
      ⟨_, by rw [← hqueue]⟩
    have honly : OnlyRequest spec.command spec.appData w'.smb2 :=
      OnlyRequest.queueRequest (w := { w.log (.processed pdu) with mem }) h.outqueue h.waitqueue hresult
    have hsame' : w'.mem = mem ∧ w'.smb2.isComplete = false := by
      obtain ⟨messageId, request, -, ⟨-, rfl⟩ | ⟨-, rfl⟩⟩ := queueRequest_cases hresult
      · exact ⟨rfl, h.isComplete⟩
      · exact ⟨rfl, h.isComplete⟩
    rw [hcommand, happData] at honly
    exact {
      only := honly
      fh := fun b => by rw [hsame'.1, hfh]; exact h.fh b
      directory := fun _ => by
        refine ⟨dir', ?_, ?_⟩
        · rw [hsame'.1, ← h.appData, hdir']
        · rw [hsame'.1, hfileId, ← h.appData, hsame]
          exact hpattern
      running := fun _ h' => by
        rw [World.Alive, hsame'.1, hhandle]
        exact h.alive h'
      complete := fun hcomplete => absurd (hsame'.2.symm.trans hcomplete) (by decide) }

/-! ### The whole exchange -/

theorem World.Succeeds.of_trace {evs : List Event} (h : w'.Succeeds env) (htrace : w'.trace = evs ++ w.trace) :
    w.Succeeds env :=
  fun event he => h event (by rw [htrace]; exact List.mem_append_right _ he)

theorem World.Succeeds.of_log {event : Event} (h : (w.log event).Succeeds env) : w.Succeeds env :=
  fun event he => h event (List.mem_cons_of_mem _ he)

theorem mem_transmit (w : World) (key : Nat) (chain : PduChain) : (w.transmit key chain).mem = w.mem := by
  rw [World.transmit, smb2PduAddToWaitqueue_frame]
  rfl

theorem isComplete_transmit (w : World) (key : Nat) (chain : PduChain) :
    (w.transmit key chain).smb2.isComplete = w.smb2.isComplete := by
  rw [World.transmit, smb2PduAddToWaitqueue_frame]
  rfl

/-- A chain is sent only while the exchange goes on. -/
theorem Exchanging.isComplete_of_queued (h : Exchanging env c a mem₀ w) {key : Nat} {chain : PduChain}
    (hchain : w.smb2.outqueue.lookup key = some chain) : w.smb2.isComplete = false := by
  rw [← Bool.not_eq_true]
  exact fun hcomplete => OrdMap.not_lookup_of_empty (h.complete hcomplete).1.1 hchain

/-- A change of the queues while the exchange goes on. -/
theorem Exchanging.of_queues (h : Exchanging env c a mem₀ w) (hrunning : w.smb2.isComplete = false)
    (honly : OnlyRequest c a w'.smb2) (hmem : w'.mem = w.mem)
    (hcomplete : w'.smb2.isComplete = w.smb2.isComplete) : Exchanging env c a mem₀ w' where
  only := honly
  fh := by rw [hmem]; exact h.fh
  directory := by simp only [HasDirectory, hmem]; exact h.directory
  running := by simp only [World.Alive, hmem, hcomplete]; exact h.running
  complete := fun hended => absurd (hrunning.symm.trans (hcomplete.symm.trans hended)) (by decide)

/-- The handler of the reply, for each command that is about a handle. -/
theorem Answering.handle (h : Answering env c a mem₀ pdu w) (habout : c.isAboutHandle)
    (hcreate : c = .create → (mem₀.app a).fh ≠ none) (hsucceeds : (Event.processed pdu).Succeeds env)
    (hhandler : smb2ProcessReplyAndAppData env (w.log (.processed pdu)) pdu = some w') :
    Exchanging env c a mem₀ w' := by
  have hcommand := h.command
  rw [smb2ProcessReplyAndAppData] at hhandler
  rcases habout with rfl | rfl | rfl | rfl | rfl
  all_goals
    rw [hcommand] at hhandler
  · exact h.create (hcreate rfl) (hsucceeds.1 hcommand) hhandler
  · exact h.close hhandler
  · exact h.read hhandler
  · exact h.write hhandler
  · exact h.queryDirectory (hsucceeds.2 hcommand) hhandler

/-- As long as the server does what it was asked for, an exchange about a handle goes on so. -/
theorem exchangeRule_handle (habout : c.isAboutHandle) (hcreate : c = .create → (mem₀.app a).fh ≠ none) :
    ExchangeRule env (fun w => w.Succeeds env → Exchanging env c a mem₀ w)
      (fun pdu w => w.Succeeds env → Answering env c a mem₀ pdu w) where
  socket socket h hs := (h hs).of_same rfl rfl rfl rfl
  replySocket socket h hs := by
    have hanswering := h hs
    exact ⟨hanswering.command, hanswering.appData, hanswering.outqueue, hanswering.waitqueue,
      hanswering.fh, hanswering.directory, hanswering.isComplete, hanswering.alive⟩
  frame spl h hs := (h hs.of_log).of_same rfl rfl rfl rfl
  rejected hdr h hs := (h hs.of_log).of_same rfl rfl rfl rfl
  accept offset hdr request spl header h hwaiting hs := by
    have hexchanging := h hs.of_log
    have hrunning := hexchanging.isComplete_of_lookup hwaiting
    obtain ⟨hcommand, happData, hout, hwait⟩ := hexchanging.only.accept hwaiting
    exact ⟨hcommand, happData, hout, hwait, hexchanging.fh, hexchanging.directory, hrunning,
      hexchanging.running hrunning⟩
  decode payload inVecs smb2 h hsame hs := by
    have hanswering := h hs
    exact ⟨hanswering.command, hanswering.appData, by rw [hsame.outqueue]; exact hanswering.outqueue,
      by rw [hsame.waitqueue]; exact hanswering.waitqueue, hanswering.fh, hanswering.directory,
      hsame.isComplete.trans hanswering.isComplete, hanswering.alive⟩
  errorMsg {w pdu} msg h hs := by
    have hanswering := h hs
    refine ⟨hanswering.command, hanswering.appData, hanswering.outqueue, hanswering.waitqueue,
      fun b => ((SameQueues.setErrorMsg w pdu.appData msg).fh b).trans (hanswering.fh b), fun hc => ?_,
      hanswering.isComplete, hanswering.alive⟩
    obtain ⟨dir, hdir, hpattern⟩ := hanswering.directory hc
    rw [← hanswering.appData] at hdir hpattern ⊢
    simp only [HasDirectory, World.setErrorMsg, Memory.setApp, if_true]
    exact ⟨dir, hdir, hpattern⟩
  chained h hs := by
    have hanswering := h hs
    exact ⟨hanswering.command, hanswering.appData, hanswering.outqueue, hanswering.waitqueue,
      hanswering.fh, hanswering.directory, hanswering.isComplete, hanswering.alive⟩
  abandon h hs := (h hs).exchanging
  handle h _ hhandler hs := by
    obtain ⟨more, htrace, -⟩ := (smb2ProcessReplyAndAppData_effect hhandler).trace
    have hlogged := hs.of_trace htrace
    refine (h hlogged.of_log).handle habout hcreate ?_ hhandler
    exact hlogged _ List.mem_cons_self
  transmit {w key chain} h hchain hs := by
    obtain ⟨evs, htrace, -⟩ := trace_transmit w key chain
    rw [List.append_cons] at htrace
    have hexchanging := h (hs.of_trace htrace)
    exact hexchanging.of_queues (hexchanging.isComplete_of_queued hchain) (hexchanging.only.transmit hchain)
      (mem_transmit _ _ _) (isComplete_transmit _ _ _)
  requeue h hchain hs := by
    have hexchanging := h hs
    exact hexchanging.of_queues (hexchanging.isComplete_of_queued hchain) (hexchanging.only.requeue hchain) rfl rfl

end

end CodeStudy.Samba
