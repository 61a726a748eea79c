import CodeStudy.Samba.Compound
import CodeStudy.Samba.HandleLife

/-!
# Who has a handle

The calls that open, use and close files, as runs of an application. In a run whose exchanges all
come to their end, and whose CREATE and QUERY_DIRECTORY requests all succeed, the handles that exist
between two calls are those the application was given and did not close, no reply is handled with a
handle that was released, and what a call returns is there. A CREATE that the server refuses breaks
all of it: the call returns the handle that its own reply handler has deleted.
-/

namespace CodeStudy.Samba

/-- Nothing is queued and nothing is waited for. -/
def World.Idle (w : World) : Prop := w.smb2.outqueue.entries = [] ∧ w.smb2.waitqueue.entries = []

/-! ### Requests about a handle -/

/-- What a call asks for. The offset of a transfer may be the one its handle has. -/
inductive HandleRequest where
  | create (h : Nat) (fh : Smb2fh) (req : Smb2CreateRequest)
  | close (h : Nat)
  | queryDirectory (h : Nat) (pattern : Bytes)
  | read (h : Nat) (buf : Bytes) (count : UInt32) (offset : Smb2fh → UInt64)
  | write (h : Nat) (buf : Bytes) (count : UInt32) (offset : Smb2fh → UInt64)

namespace HandleRequest

def command : HandleRequest → Smb2Command
  | create .. => .create
  | close .. => .close
  | queryDirectory .. => .queryDirectory
  | read .. => .read
  | write .. => .write

def handle : HandleRequest → Nat
  | create h .. | close h | queryDirectory h .. | read h .. | write h .. => h

def build (env : Env) (a : Nat) (w : World) : HandleRequest → Option (Int × World)
  | create h fh req => smb2BuildCreateRequest env w h fh req a
  | close h => smb2BuildCloseRequest env w h a
  | queryDirectory h pattern => smb2BuildQueryDirectoryRequest env w h pattern a
  | read h buf count offset =>
      (w.mem.handle h).bind fun fh => smb2BuildReadRequest env w h buf count (offset fh) a
  | write h buf count offset =>
      (w.mem.handle h).bind fun fh => smb2BuildWriteRequest env w h buf count (offset fh) a

theorem isAboutHandle_command (r : HandleRequest) : r.command.isAboutHandle := by
  cases r
  all_goals simp [command, Smb2Command.isAboutHandle]

/-- A new handle is where nothing was; all others were opened before. -/
def Usable (w : World) (r : HandleRequest) : Prop := w.Alive r.handle ↔ r.command ≠ .create

/-- The handles that exist once a request is built. -/
def AliveWith (w : World) (r : HandleRequest) (h : Nat) : Prop :=
  w.Alive h ∨ (r.command = .create ∧ r.handle = h)

end HandleRequest

section

variable {env : Env} {w w' : World} {a : Nat} {r : HandleRequest}

/-- What a builder leaves, whether its request could be queued or not. -/
structure BuiltFor (env : Env) (a : Nat) (r : HandleRequest) (w : World) (ret : Int) (w' : World) : Prop where
  only : w.Idle → OnlyRequest r.command a w'.smb2
  failed : ret ≠ 0 → w.Idle → w'.Idle
  alive : ∀ h, w'.Alive h ↔ r.AliveWith w h
  fh : r.command ≠ .queryDirectory → (w'.mem.app a).fh = some r.handle
  directory : r.command = .queryDirectory → (w'.mem.app a).fh = none ∧ HasDirectory env a w'
  trace : ∃ evs, w'.trace = evs ++ w.trace

theorem queueRequest_mem {spec : RequestSpec} {err : Option String} (h : queueRequest env w spec = (err, w')) :
    w'.mem = w.mem ∧ ∃ evs, w'.trace = evs ++ w.trace := by
  obtain ⟨messageId, pdu, -, ⟨-, rfl⟩ | ⟨-, rfl⟩⟩ := queueRequest_cases h
  · exact ⟨rfl, [_], rfl⟩
  · exact ⟨rfl, [_], rfl⟩

theorem queueRequest_idle {spec : RequestSpec} {err : Option String} (hidle : w.Idle) (hfailed : err ≠ none)
    (h : queueRequest env w spec = (err, w')) : w'.Idle := by
  obtain ⟨messageId, pdu, -, ⟨hqueued, -⟩ | ⟨-, rfl⟩⟩ := queueRequest_cases h
  · exact absurd hqueued hfailed
  · exact hidle

/-- The changes of the memory a builder makes before it queues its request. -/
structure PreparedFor (env : Env) (a : Nat) (r : HandleRequest) (w w' : World) : Prop where
  idle : w.Idle → w'.Idle
  alive : ∀ h, w'.Alive h ↔ r.AliveWith w h
  fh : r.command ≠ .queryDirectory → (w'.mem.app a).fh = some r.handle
  directory : r.command = .queryDirectory → (w'.mem.app a).fh = none ∧ HasDirectory env a w'
  trace : w'.trace = w.trace

theorem PreparedFor.builtFor (h : PreparedFor env a r w w') (ret : Int) : BuiltFor env a r w ret w' where
  only := fun hidle => .none (h.idle hidle).1 (h.idle hidle).2
  failed := fun _ => h.idle
  alive := h.alive
  fh := h.fh
  directory := h.directory
  trace := ⟨[], h.trace⟩

theorem PreparedFor.queueRequest {w₁ : World} (h : PreparedFor env a r w w₁) {spec : RequestSpec}
    {err : Option String} (hcommand : spec.command = r.command) (happData : spec.appData = a)
    (hqueue : CodeStudy.Samba.queueRequest env w₁ spec = (err, w')) {ret : Int} (hret : err = none → ret = 0) :
    BuiltFor env a r w ret w' := by
  obtain ⟨hmem, evs, hevs⟩ := queueRequest_mem hqueue
  exact {
    only := fun hidle => by
      rw [← hcommand, ← happData]
      exact OnlyRequest.queueRequest (h.idle hidle).1 (h.idle hidle).2 hqueue
    failed := fun hne hidle => queueRequest_idle (h.idle hidle) (fun hnone => hne (hret hnone)) hqueue
    alive := by simp only [World.Alive, hmem]; exact h.alive
    fh := by rw [hmem]; exact h.fh
    directory := by simp only [HasDirectory, hmem]; exact h.directory
    trace := ⟨evs, by rw [hevs, h.trace]⟩ }

theorem HasDirectory.setErrorMsg (h : HasDirectory env a w) (msg : String) :
    HasDirectory env a (w.setErrorMsg a msg) := by
  obtain ⟨dir, hdir, hpattern⟩ := h
  simp only [HasDirectory, World.setErrorMsg, Memory.setApp, if_true]
  exact ⟨dir, hdir, hpattern⟩

theorem BuiltFor.setErrorMsg {ret : Int} (h : BuiltFor env a r w ret w') (msg : String) :
    BuiltFor env a r w ret (w'.setErrorMsg a msg) := by
  have hsame := SameQueues.setErrorMsg w' a msg
  exact {
    only := h.only
    failed := h.failed
    alive := h.alive
    fh := fun hc => (hsame.fh a).trans (h.fh hc)
    directory := fun hc => ⟨(hsame.fh a).trans (h.directory hc).1, (h.directory hc).2.setErrorMsg msg⟩
    trace := h.trace }

theorem PreparedFor.queueOrFree {w₁ : World} (h : PreparedFor env a r w w₁) {spec : Option RequestSpec}
    {ret : Int} (hspec : ∀ spec', spec = some spec' → spec'.command = r.command ∧ spec'.appData = a)
    (hqueue : CodeStudy.Samba.queueOrFree env w₁ a spec = some (ret, w')) : BuiltFor env a r w ret w' := by
  obtain ⟨spec', hsome, err, w₂, hresult, hret⟩ := queueOrFree_cases hqueue
  obtain ⟨hcommand, happData⟩ := hspec spec' hsome
  rcases hret with ⟨rfl, rfl, rfl⟩ | ⟨msg, rfl, rfl, rfl⟩
  · exact h.queueRequest hcommand happData hresult fun _ => rfl
  · exact (h.queueRequest hcommand happData hresult (by simp)).setErrorMsg msg

theorem PreparedFor.queueFor {w₁ : World} (h : PreparedFor env a r w w₁) {builder failed : String}
    {code ret : Int} {spec : RequestSpec} (hcommand : spec.command = r.command) (happData : spec.appData = a)
    (hqueue : CodeStudy.Samba.queueFor env w₁ builder failed code spec = (ret, w')) :
    BuiltFor env a r w ret w' := by
  rw [CodeStudy.Samba.queueFor, happData] at hqueue
  split_ifs at hqueue
  · split at hqueue
    · rename_i hresult
      cases hqueue
      exact h.queueRequest hcommand happData hresult fun _ => rfl
    · rename_i hresult
      cases hqueue
      exact (h.queueRequest hcommand happData hresult (by simp)).setErrorMsg _
  · cases hqueue
    exact (h.builtFor _).setErrorMsg _

/-! ### The builders -/

/-- The memory of a call before its request is built. -/
def World.callData (w : World) (a : Nat) : World := { w with mem := w.mem.setApp a {} }

/-- A transfer needs its handle, and sets it up. -/
theorem preparedFor_transfer {w : World} (hcreate : r.command ≠ .create)
    (hquery : r.command ≠ .queryDirectory) {fh : Smb2fh} (hfh : w.mem.handle r.handle = some fh)
    (offset : UInt64) (data : AppData) :
    PreparedFor env a r w (w.prepareTransfer r.handle fh offset a data) where
  idle hidle := hidle
  alive h := by
    have halive := @alive_setHandle h _ _ fh { fh with offset := toInt64 offset.toNat } hfh
    simp only [HandleRequest.AliveWith, hcreate, false_and, or_false]
    exact halive
  fh _ := by simp only [World.prepareTransfer, Memory.setApp, if_true]
  directory hc := absurd hc hquery
  trace := rfl

/-- Every builder stores the handle in the data of its call, and queues one request at most. -/
theorem builtFor_build {w : World} (hdata : w.mem.app a = {}) {ret : Int}
    (h : r.build env a w = some (ret, w')) : BuiltFor env a r w ret w' := by
  cases r with
  | create address fh req =>
      simp only [HandleRequest.build, smb2BuildCreateRequest] at h
      split_ifs at h
      refine PreparedFor.queueOrFree (w := w) ?_ (fun spec' hspec => encodeCreate_spec hspec) h
      exact {
        idle := id
        alive := fun h' => by
          simp only [World.Alive, Memory.setHandle, Memory.setApp, HandleRequest.AliveWith,
            HandleRequest.command, HandleRequest.handle, true_and]
          split_ifs with heq
          · simp [heq]
          · simp [Ne.symm heq]
        fh := fun _ => by simp only [Memory.setApp, if_true, HandleRequest.handle]
        directory := fun hc => absurd hc (by simp [HandleRequest.command])
        trace := rfl }
  | close address =>
      simp only [HandleRequest.build, smb2BuildCloseRequest, Option.bind_eq_some_iff] at h
      obtain ⟨fh, hfh, h⟩ := h
      split_ifs at h
      refine PreparedFor.queueOrFree (w := w) ?_ (fun spec' hspec => ?_) h
      · exact {
          idle := id
          alive := fun h' => by simp [HandleRequest.AliveWith, HandleRequest.command, World.Alive, Memory.setApp]
          fh := fun _ => by simp only [Memory.setApp, if_true, HandleRequest.handle]
          directory := fun hc => absurd hc (by simp [HandleRequest.command])
          trace := rfl }
      · cases hspec
        exact ⟨rfl, rfl⟩
  | queryDirectory address pattern =>
      simp only [HandleRequest.build, smb2BuildQueryDirectoryRequest, Option.bind_eq_some_iff] at h
      obtain ⟨fh, hfh, h⟩ := h
      split_ifs at h
      obtain ⟨spec, hspec, -⟩ := queueOrFree_cases h
      refine PreparedFor.queueOrFree (w := w) ?_ (fun spec' hspec' => ?_) h
      · exact {
          idle := id
          alive := fun h' => by simp [HandleRequest.AliveWith, HandleRequest.command, World.Alive, Memory.setApp]
          fh := fun hc => absurd rfl hc
          directory := fun _ => by
            simp only [HasDirectory, Memory.setApp, if_true, hdata, true_and]
            exact ⟨_, rfl, by rw [hspec]; rfl⟩
          trace := rfl }
      · exact ⟨queryDirectoryRequest_command hspec', queryDirectoryRequest_appData hspec'⟩
  | read address buf count offset =>
      simp only [HandleRequest.build, smb2BuildReadRequest, Option.bind_eq_some_iff,
        Option.map_eq_some_iff] at h
      obtain ⟨fh, hfh, fh', hfh', h⟩ := h
      have hprepared := @preparedFor_transfer env a (.read address buf count offset) _ (by simp [HandleRequest.command])
        (by simp [HandleRequest.command]) _ hfh'
      exact (hprepared _ _).queueFor rfl rfl h
  | write address buf count offset =>
      simp only [HandleRequest.build, smb2BuildWriteRequest, Option.bind_eq_some_iff,
        Option.map_eq_some_iff] at h
      obtain ⟨fh, hfh, fh', hfh', h⟩ := h
      have hprepared := @preparedFor_transfer env a (.write address buf count offset) _ (by simp [HandleRequest.command])
        (by simp [HandleRequest.command]) _ hfh'
      exact (hprepared _ _).queueFor rfl rfl h

/-! ### One exchange -/

/-- Nothing that happened is forgotten during an exchange. -/
theorem exchangeRule_trace (env : Env) (older : List Event) :
    ExchangeRule env (fun w => ∃ evs, w.trace = evs ++ older) (fun _ w => ∃ evs, w.trace = evs ++ older) where
  socket _ h := h
  replySocket _ h := h
  frame spl h := by
    obtain ⟨evs, htrace⟩ := h
    exact ⟨.frame spl :: evs, by rw [World.log, htrace, List.cons_append]⟩
  rejected hdr h := by
    obtain ⟨evs, htrace⟩ := h
    exact ⟨.rejected hdr :: evs, by rw [World.log, htrace, List.cons_append]⟩
  accept {w} offset {hdr request} spl header h hwaiting := by
    obtain ⟨evs, htrace⟩ := h
    exact ⟨.header offset hdr w.smb2.credits request :: evs,
      by rw [World.accept, World.log, htrace, List.cons_append]⟩
  decode _ _ _ h _ := h
  errorMsg _ h := h
  chained h := h
  abandon h := h
  handle h _ hhandler := by
    obtain ⟨evs, htrace⟩ := h
    obtain ⟨more, hmore, -⟩ := (smb2ProcessReplyAndAppData_effect hhandler).trace
    exact ⟨more ++ .processed _ :: evs, by rw [hmore, World.log, htrace, List.append_assoc, List.cons_append]⟩
  transmit {w key chain} h hchain := by
    obtain ⟨evs, htrace⟩ := h
    obtain ⟨sent, hsent, -⟩ := trace_transmit w key chain
    exact ⟨sent ++ .transmitted w.smb2.dialect w.smb2.credits chain :: evs,
      by rw [hsent, htrace, List.append_assoc, List.cons_append]⟩
  requeue h hchain := h

/-- A request that is queued, sent, or being answered. -/
def RecvState.Pending (s : RecvState) (pdu : Smb2Pdu) : Prop :=
  (∃ entry ∈ s.world.smb2.outqueue.entries, pdu ∈ entry.2.members) ∨
    (∃ entry ∈ s.world.smb2.waitqueue.entries, entry.2 = pdu) ∨
      s.recvState = .recvFixed pdu ∨ s.recvState = .recvVariable pdu ∨ s.recvState = .recvPad pdu

/-- No request is about a handle that was released. -/
def RecvState.UsesLive (s : RecvState) : Prop :=
  ∀ pdu, s.Pending pdu → ∀ h, (s.world.mem.app pdu.appData).fh = some h → s.world.Alive h

theorem Exchanging.usesLive {c : Smb2Command} {mem₀ : Memory} {s : RecvState}
    (hmem : ∀ h, (mem₀.app a).fh = some h → mem₀.handle h ≠ none) (h : Exchanging env c a mem₀ s.world)
    (hstate : s.recvState = .recvSpl ∨ s.recvState = .recvHeader) : s.UsesLive := by
  have hlive (hrunning : s.world.smb2.isComplete = false) (h' : Nat)
      (hfh : (s.world.mem.app a).fh = some h') : s.world.Alive h' :=
    (h.running hrunning h').mpr (hmem h' ((h.fh a).symm.trans hfh))
  have hrunning (hne : ¬ (s.world.smb2.outqueue.entries = [] ∧ s.world.smb2.waitqueue.entries = [])) :
      s.world.smb2.isComplete = false := by
    rw [← Bool.not_eq_true]
    exact fun hcomplete => hne (h.complete hcomplete).1
  intro pdu hpending h' hfh
  rcases hpending with ⟨entry, hentry, hpdu⟩ | ⟨entry, hentry, rfl⟩ | hreading
  · have hsome := hrunning fun hidle => by simp [hidle.1] at hentry
    cases h.only with
    | none hout => simp [hout] at hentry
    | waiting hout => simp [hout] at hentry
    | queued hout _ _ happData =>
        rw [hout, List.mem_singleton] at hentry
        subst hentry
        rw [PduChain.members, List.mem_singleton] at hpdu
        rw [hpdu, happData] at hfh
        exact hlive hsome h' hfh
  · have hsome := hrunning fun hidle => by simp [hidle.2] at hentry
    cases h.only with
    | none _ hwait => simp [hwait] at hentry
    | queued _ hwait => simp [hwait] at hentry
    | waiting _ hwait _ happData =>
        rw [hwait, List.mem_singleton] at hentry
        subst hentry
        rw [happData] at hfh
        exact hlive hsome h' hfh
  · rcases hstate with hstate | hstate
    · simp [hstate] at hreading
    · simp [hstate] at hreading

theorem Answering.usesLive {c : Smb2Command} {mem₀ : Memory} {s : RecvState} {pdu : Smb2Pdu}
    (hmem : ∀ h, (mem₀.app a).fh = some h → mem₀.handle h ≠ none) (h : Answering env c a mem₀ pdu s.world)
    (hstate : s.recvState = .recvFixed pdu ∨ s.recvState = .recvVariable pdu ∨ s.recvState = .recvPad pdu) :
    s.UsesLive := by
  intro pdu' hpending h' hfh
  rcases hpending with ⟨entry, hentry, -⟩ | ⟨entry, hentry, -⟩ | hreading
  · simp [h.outqueue] at hentry
  · simp [h.waitqueue] at hentry
  · have heq : pdu' = pdu := by
      rcases hstate with hstate | hstate | hstate
      all_goals
        rw [hstate] at hreading
        simpa [eq_comm] using hreading
    rw [heq, h.appData] at hfh
    exact (h.alive h').mpr (hmem h' ((h.fh a).symm.trans hfh))

/-- The states of the receive loop while a call waits for the answer to its request. -/
def HandleRequest.Passes (env : Env) (polls : List Poll) (a : Nat) (w : World) (r : HandleRequest)
    (s : RecvState) : Prop :=
  ∃ w', r.build env a (w.callData a) = some (0, w') ∧ During env polls w'.beginSendReceive s

theorem BuiltFor.exchanging {ret : Int} (h : BuiltFor env a r w ret w') (hidle : w.Idle) :
    Exchanging env r.command a w'.mem w'.beginSendReceive where
  only := (h.only hidle).congr rfl rfl
  fh := fun _ => rfl
  directory := fun hc => (h.directory hc).2
  running := fun _ _ => Iff.rfl
  complete := fun hcomplete => absurd hcomplete (by simp [World.beginSendReceive])

theorem BuiltFor.rule {ret : Int} (h : BuiltFor env a r w ret w') :
    ExchangeRule env (fun w₁ => w₁.Succeeds env → Exchanging env r.command a w'.mem w₁)
      (fun pdu w₁ => w₁.Succeeds env → Answering env r.command a w'.mem pdu w₁) := by
  refine exchangeRule_handle r.isAboutHandle_command fun hc => ?_
  rw [h.fh (by rw [hc]; decide)]
  exact Option.some_ne_none _

/-- The handle of a call exists once its request is built. -/
theorem BuiltFor.live {ret : Int} (h : BuiltFor env a r w ret w') (husable : r.Usable w) (h' : Nat)
    (hfh : (w'.mem.app a).fh = some h') : w'.mem.handle h' ≠ none := by
  by_cases hc : r.command = .queryDirectory
  · rw [(h.directory hc).1] at hfh
    cases hfh
  · rw [h.fh hc] at hfh
    cases hfh
    apply (h.alive _).mpr
    by_cases hcreate : r.command = .create
    · exact .inr ⟨hcreate, rfl⟩
    · exact .inl (husable.mpr hcreate)

theorem HandleRequest.usesLive {polls : List Poll} {s : RecvState} (hidle : w.Idle) (husable : r.Usable w)
    (hpasses : r.Passes env polls a w s) (hsucceeds : s.world.Succeeds env) : s.UsesLive := by
  obtain ⟨w', hbuild, hduring⟩ := hpasses
  have hbuilt : BuiltFor env a r (w.callData a) 0 w' := by
    refine builtFor_build (w := w.callData a) ?_ hbuild
    simp only [World.callData, Memory.setApp, if_true]
  have hphase := hbuilt.rule.during (fun _ => hbuilt.exchanging hidle) hduring
  have hlive := hbuilt.live husable
  rw [RecvState.Phase] at hphase
  split at hphase
  · rename_i hstate
    exact (hphase hsucceeds).usesLive hlive (.inl hstate)
  · rename_i hstate
    exact (hphase hsucceeds).usesLive hlive (.inr hstate)
  · rename_i hstate
    exact (hphase hsucceeds).usesLive hlive (.inl hstate)
  · rename_i hstate
    exact (hphase.1 hsucceeds).usesLive hlive (.inr (.inl hstate))
  · rename_i hstate
    exact (hphase.1 hsucceeds).usesLive hlive (.inr (.inr hstate))

/-! ### One call -/

/-- What a call leaves when its request was answered. -/
structure AnsweredFor (env : Env) (a : Nat) (r : HandleRequest) (w w' : World) : Prop where
  idle : w'.Idle
  alive : ∀ h, w'.Alive h ↔ r.AliveWith w h ∧ ¬ (r.command = .close ∧ r.handle = h)
  fh : r.command ≠ .queryDirectory → (w'.mem.app a).fh = some r.handle
  status : r.command = .create ∨ r.command = .queryDirectory → (w'.mem.app a).ntStatus = NtStatus.success
  directory : r.command = .queryDirectory → HasDirectory env a w'

theorem callOnce_answered {polls : List Poll}
    (h : callOnce env polls w a (fun w => r.build env a w) = .answered w') :
    (∃ evs, w'.trace = evs ++ w.trace) ∧ (w.Idle → w'.Succeeds env → AnsweredFor env a r w w') := by
  rw [callOnce] at h
  split_ifs at h
  split at h
  · cases h
  rename_i ret w₁ hbuild
  split_ifs at h with hret
  split at h
  · cases h
  · rename_i ret' w₂ hreturned
    split_ifs at h with hret'
    cases h
    have hbuilt : BuiltFor env a r (w.callData a) ret w₁ := by
      refine builtFor_build (w := w.callData a) ?_ hbuild
      simp only [World.callData, Memory.setApp, if_true]
    have htrace := (exchangeRule_trace env w.trace).sendAndReceive hbuilt.trace polls
    rw [hreturned] at htrace
    refine ⟨htrace.1, fun hidle hsucceeds => ?_⟩
    have hends := hbuilt.rule.sendAndReceive (fun _ => hbuilt.exchanging hidle) polls
    rw [hreturned] at hends
    have hexchanging := hends.1 hsucceeds
    obtain ⟨hidle', halive, hstatus⟩ := hexchanging.complete (hends.2 hret')
    exact {
      idle := hidle'
      alive := fun h' => by
        rw [halive h', show w₁.mem.handle h' ≠ none ↔ r.AliveWith w h' from hbuilt.alive h']
        refine and_congr_right fun _ => not_congr (and_congr_right fun hc => ?_)
        rw [hbuilt.fh (by rw [hc]; decide), Option.some.injEq]
      fh := fun hc => (hexchanging.fh a).trans (hbuilt.fh hc)
      status := hstatus
      directory := hexchanging.directory }
  · cases h

theorem callOnce_notBuilt {polls : List Poll} (h : callOnce env polls w a (fun w => r.build env a w) = .notBuilt w') :
    (w.Idle → w'.Idle) ∧ (∀ h, w'.Alive h ↔ r.AliveWith w h) ∧ ∃ evs, w'.trace = evs ++ w.trace := by
  rw [callOnce] at h
  split_ifs at h
  split at h
  · cases h
  rename_i ret w₁ hbuild
  split_ifs at h with hret
  · cases h
    have hbuilt : BuiltFor env a r (w.callData a) ret w' := by
      refine builtFor_build (w := w.callData a) ?_ hbuild
      simp only [World.callData, Memory.setApp, if_true]
    exact ⟨hbuilt.failed hret, hbuilt.alive, hbuilt.trace⟩
  · split at h
    · cases h
    · split_ifs at h
    · cases h

theorem callOnce_ne_nothing {polls : List Poll} {build : World → Option (Int × World)} (w' : World) :
    callOnce env polls w a build ≠ .nothing w' := by
  rw [callOnce]
  split_ifs
  · split
    · simp
    split_ifs
    · simp
    split
    · simp
    · split_ifs
      · simp
      · simp
    · simp
  · simp

theorem callOnce_notConnected {polls : List Poll} {build : World → Option (Int × World)}
    (h : callOnce env polls w a build = .notConnected w') : w' = w := by
  rw [callOnce] at h
  split_ifs at h
  · split at h
    · cases h
    split_ifs at h
    split at h
    · cases h
    · split_ifs at h
    · cases h
  · cases h
    rfl

end

/-! ### The calls of an application -/

/-- The functions that return a handle. -/
inductive OpenFunction where
  | file (req : Smb2CreateRequest)
  | path (name : Bytes) (flags : UInt32)
  | pipe (name : Bytes)

/-- The functions that open a file and close it at once. -/
inductive RemoveFunction where
  | unlink (path : Bytes)
  | rmdir (path : Bytes)
  | mkdir (path : Bytes)

/-- The functions that transfer bytes, at a given offset or at the one of the handle. -/
inductive TransferFunction where
  | pread (buf : Bytes) (count : UInt32) (offset : UInt64)
  | pwrite (buf : Bytes) (count : UInt32) (offset : UInt64)
  | read (buf : Bytes) (count : UInt32)
  | write (buf : Bytes) (count : UInt32)

section

variable (env : Env) (polls : List Poll) (w : World) (a h : Nat)

def OpenFunction.call (fh : Smb2fh) : OpenFunction → CallEnd
  | .file req => smb2OpenFile env polls w a h fh req
  | .path name flags => smb2Open env polls w a h fh name flags
  | .pipe name => smb2OpenPipe env polls w a h fh name

def RemoveFunction.call (polls' : List Poll) (a' : Nat) (fh : Smb2fh) : RemoveFunction → OpenClose
  | .unlink path => smb2Unlink env polls polls' w a a' h fh path
  | .rmdir path => smb2Rmdir env polls polls' w a a' h fh path
  | .mkdir path => smb2Mkdir env polls polls' w a a' h fh path

def TransferFunction.call : TransferFunction → CallEnd
  | .pread buf count offset => smb2Pread env polls w a h buf count offset
  | .pwrite buf count offset => smb2Pwrite env polls w a h buf count offset
  | .read buf count => smb2Read env polls w a h buf count
  | .write buf count => smb2Write env polls w a h buf count

end

def OpenFunction.request (h : Nat) (fh : Smb2fh) : OpenFunction → HandleRequest
  | .file req => .create h fh { req with impersonationLevel := 2 }
  | .path name flags => .create h fh (openRequest name flags)
  | .pipe name => .create h fh (pipeRequest name)

def RemoveFunction.request (h : Nat) (fh : Smb2fh) : RemoveFunction → HandleRequest
  | .unlink path => .create h fh (unlinkRequest path)
  | .rmdir path => .create h fh (rmdirRequest path)
  | .mkdir path => .create h fh (mkdirRequest path)

def TransferFunction.request (h : Nat) : TransferFunction → HandleRequest
  | .pread buf count offset => .read h buf count fun _ => offset
  | .pwrite buf count offset => .write h buf count fun _ => offset
  | .read buf count => .read h buf count Smb2fh.sentOffset
  | .write buf count => .write h buf count Smb2fh.sentOffset

def TransferFunction.count : TransferFunction → UInt32
  | .pread _ count _ | .pwrite _ count _ | .read _ count | .write _ count => count

section

variable {env : Env} {polls polls' : List Poll} {w : World} {a a' h : Nat} {fh : Smb2fh}

/-- A pipe without a name is refused before anything is done. -/
theorem OpenFunction.call_eq (f : OpenFunction) :
    f.call env polls w a h fh = callOnce env polls w a (fun w => (f.request h fh).build env a w) ∨
      f.call env polls w a h fh = .notBuilt w := by
  cases f with
  | file req => exact .inl rfl
  | path name flags => exact .inl rfl
  | pipe name =>
      simp only [OpenFunction.call, smb2OpenPipe]
      split_ifs
      · exact .inr rfl
      · exact .inl rfl

theorem openAndClose_spec (req : Smb2CreateRequest) :
    (openAndClose env polls polls' w a a' h fh req).create =
        callOnce env polls w a (fun w => smb2BuildCreateRequest env w h fh req a) ∧
      ∀ close, (openAndClose env polls polls' w a a' h fh req).close = some close →
        ∃ w' h', (openAndClose env polls polls' w a a' h fh req).create = .answered w' ∧
          (w'.mem.app a).fh = some h' ∧ smb2Close env polls' w' a' h' = close := by
  simp only [openAndClose]
  split
  · rename_i w' hanswered
    refine ⟨rfl, fun close hclose => ?_⟩
    obtain ⟨h', hfh, hcall⟩ := Option.map_eq_some_iff.mp hclose
    exact ⟨w', h', hanswered, hfh, hcall⟩
  · exact ⟨rfl, by simp⟩

/-- The CLOSE comes after a CREATE that was answered, and is about the handle of its data. -/
theorem RemoveFunction.call_spec (f : RemoveFunction) :
    (f.call env polls w a h polls' a' fh).create =
        callOnce env polls w a (fun w => (f.request h fh).build env a w) ∧
      ∀ close, (f.call env polls w a h polls' a' fh).close = some close →
        ∃ w' h', (f.call env polls w a h polls' a' fh).create = .answered w' ∧
          (w'.mem.app a).fh = some h' ∧ smb2Close env polls' w' a' h' = close := by
  cases f
  all_goals exact openAndClose_spec _

theorem TransferFunction.call_eq (f : TransferFunction) : f.call env polls w a h =
    transferCall env polls w a h f.count fun w => (f.request h).build env a w := by
  cases f with
  | pread buf count offset =>
      simp only [TransferFunction.call, smb2Pread, TransferFunction.request, HandleRequest.build,
        TransferFunction.count]
      congr
      ext w : 1
      simp only [smb2BuildReadRequest]
      cases w.mem.handle h with
      | none => rfl
      | some fh => rfl
  | pwrite buf count offset =>
      simp only [TransferFunction.call, smb2Pwrite, TransferFunction.request, HandleRequest.build,
        TransferFunction.count]
      congr
      ext w : 1
      simp only [smb2BuildWriteRequest]
      cases w.mem.handle h with
      | none => rfl
      | some fh => rfl
  | read buf count => rfl
  | write buf count => rfl

theorem OpenFunction.command_request (f : OpenFunction) : (f.request h fh).command = .create := by
  cases f
  all_goals rfl

theorem RemoveFunction.command_request (f : RemoveFunction) : (f.request h fh).command = .create := by
  cases f
  all_goals rfl

end

/-! ### Runs of an application -/

/-- A client, with the handles the application was given and did not close. -/
structure Client where
  world : World
  held : List Nat

/-- What an application calls, with what the network does meanwhile, the addresses of the data of the
call, and the address and the old content of a new handle. -/
inductive ApiCall where
  | opens (polls : List Poll) (a h : Nat) (offset : Int) (f : OpenFunction)
  | removes (polls polls' : List Poll) (a a' h : Nat) (offset : Int) (f : RemoveFunction)
  | closes (polls : List Poll) (a h : Nat)
  | queries (polls : List Poll) (a h : Nat) (pattern : Bytes)
  | transfers (polls : List Poll) (a h : Nat) (f : TransferFunction)

/-- The world a call leaves, unless its request may still be pending. -/
def CallEnd.settled : CallEnd → Option World
  | .notConnected w | .notBuilt w | .answered w | .nothing w => some w
  | .socketError _ | .waiting _ | .undefined => none

namespace ApiCall

/-- The allocator gives out free memory, and an application uses the handles it has. -/
def Allowed (c : Client) : ApiCall → Prop
  | opens _ _ h _ _ | removes _ _ _ _ h _ _ => ¬ c.world.Alive h
  | closes _ _ h | queries _ _ h _ | transfers _ _ h _ => h ∈ c.held

/-- The client after a call that came to its end and lost no handle on its way. -/
def perform (env : Env) (c : Client) : ApiCall → Option Client
  | opens polls a h offset f =>
      match f.call env polls c.world a h (.fresh offset) with
      | .answered w => some ⟨w, (w.mem.app a).fh.toList ++ c.held⟩
      | .notBuilt w => if (w.mem.handle h).isNone then some { c with world := w } else none
      | .notConnected w => some { c with world := w }
      | _ => none
  | removes polls polls' a a' h offset f =>
      match f.call env polls c.world a h polls' a' (.fresh offset) with
      | ⟨.answered _, some (.answered w)⟩ | ⟨.notConnected w, _⟩ => some { c with world := w }
      | _ => none
  | closes polls a h =>
      match smb2Close env polls c.world a h with
      | .answered w => some ⟨w, c.held.erase h⟩
      | .notBuilt w | .notConnected w => some { c with world := w }
      | _ => none
  | queries polls a h pattern =>
      (smb2Fquerydir env polls c.world a (some h) pattern).settled.map fun w => { c with world := w }
  | transfers polls a h f => (f.call env polls c.world a h).settled.map fun w => { c with world := w }

/-- The states of the receive loop during a call. -/
def Passes (env : Env) (c : Client) (s : RecvState) : ApiCall → Prop
  | opens polls a h offset f => (f.request h (.fresh offset)).Passes env polls a c.world s
  | removes polls polls' a a' h offset f =>
      (f.request h (.fresh offset)).Passes env polls a c.world s ∨
        ∃ w h', (f.call env polls c.world a h polls' a' (.fresh offset)).create = .answered w ∧
          (w.mem.app a).fh = some h' ∧ (HandleRequest.close h').Passes env polls' a' w s
  | closes polls a h => (HandleRequest.close h).Passes env polls a c.world s
  | queries polls a h pattern => (HandleRequest.queryDirectory h pattern).Passes env polls a c.world s
  | transfers polls a h f => ∃ w, c.world.resetCounts h = some w ∧ (f.request h).Passes env polls a w s

/-- What a call gives to its caller exists, and the operation succeeded then. A handle is closed
only when it was opened. -/
def Honest (env : Env) (c : Client) : ApiCall → Prop
  | opens polls a h offset f =>
      let call := f.call env polls c.world a h (.fresh offset)
      ∀ w, call.settled = some w → w.Succeeds env → ∀ h', call.handle a = some h' →
        call.status a = some NtStatus.success ∧ w.Alive h'
  | removes polls polls' a a' h offset f =>
      let call := f.call env polls c.world a h polls' a' (.fresh offset)
      ∀ w, call.create.settled = some w → w.Succeeds env → call.close ≠ none →
        call.create.status a = some NtStatus.success ∧ ∀ h', call.create.handle a = some h' → w.Alive h'
  | queries polls a h pattern =>
      let call := smb2Fquerydir env polls c.world a (some h) pattern
      ∀ w, call.settled = some w → w.Succeeds env → ∀ dir, call.directory a = some dir →
        call.status a = some NtStatus.success ∧ dir ≠ none
  | closes .. | transfers .. => True

end ApiCall

namespace Client

/-- The handles that exist are those the application has, and nothing is on its way. -/
structure Owns (c : Client) : Prop where
  idle : c.world.Idle
  alive : ∀ h, c.world.Alive h ↔ h ∈ c.held
  nodup : c.held.Nodup

/-- The run of an application. -/
inductive Runs (env : Env) (c : Client) : Client → Prop where
  | refl : Runs env c c
  | call {c' c'' : Client} (call : ApiCall) (h : Runs env c c') (hallowed : call.Allowed c')
      (hperform : call.perform env c' = some c'') : Runs env c c''

end Client

section

variable {env : Env} {c c' : Client} {call : ApiCall}

/-- A call that opens nothing and closes nothing. -/
theorem callOnce_settled {polls : List Poll} {a : Nat} {w w' : World} {r : HandleRequest}
    (hcreate : r.command ≠ .create) (hclose : r.command ≠ .close)
    (hsettled : (callOnce env polls w a (fun w => r.build env a w)).settled = some w') :
    (∃ evs, w'.trace = evs ++ w.trace) ∧
      (w.Idle → w'.Succeeds env → w'.Idle ∧ ∀ h, w'.Alive h ↔ w.Alive h) := by
  have hwith (h : Nat) : r.AliveWith w h ↔ w.Alive h := by
    simp only [HandleRequest.AliveWith, hcreate, false_and, or_false]
  generalize hcall : callOnce env polls w a (fun w => r.build env a w) = ends at hsettled
  cases ends with
  | notConnected w₁ =>
      cases hsettled
      cases callOnce_notConnected hcall
      exact ⟨⟨[], rfl⟩, fun hidle _ => ⟨hidle, fun h => Iff.rfl⟩⟩
  | notBuilt w₁ =>
      cases hsettled
      obtain ⟨hidle', halive, htrace⟩ := callOnce_notBuilt hcall
      exact ⟨htrace, fun hidle _ => ⟨hidle' hidle, fun h => (halive h).trans (hwith h)⟩⟩
  | answered w₁ =>
      cases hsettled
      obtain ⟨htrace, hanswered⟩ := callOnce_answered hcall
      refine ⟨htrace, fun hidle hsucceeds => ?_⟩
      have hleft := hanswered hidle hsucceeds
      refine ⟨hleft.idle, fun h => ?_⟩
      rw [hleft.alive h, hwith h]
      simp only [hclose, false_and, not_false_eq_true, and_true]
  | nothing w₁ => exact absurd hcall (callOnce_ne_nothing _)
  | socketError w₁ => cases hsettled
  | waiting w₁ => cases hsettled
  | undefined => cases hsettled

theorem World.resetCounts_same {w w' : World} {h : Nat} (hreset : w.resetCounts h = some w') :
    w'.smb2 = w.smb2 ∧ w'.trace = w.trace ∧ ∀ h', w'.Alive h' ↔ w.Alive h' := by
  obtain ⟨fh, hfh, rfl⟩ := Option.map_eq_some_iff.mp hreset
  exact ⟨rfl, rfl, fun h' => alive_setHandle hfh⟩

theorem TransferFunction.call_settled {polls : List Poll} {a h : Nat} {f : TransferFunction} {w w' : World}
    (hsettled : (f.call env polls w a h).settled = some w') :
    (∃ evs, w'.trace = evs ++ w.trace) ∧
      (w.Idle → w'.Succeeds env → w'.Idle ∧ ∀ h', w'.Alive h' ↔ w.Alive h') := by
  rw [f.call_eq, transferCall] at hsettled
  split at hsettled
  · cases hsettled
  · rename_i w₁ hreset
    obtain ⟨hsmb2, htrace, halive⟩ := World.resetCounts_same hreset
    have hidle₁ : w.Idle → w₁.Idle := by
      rw [World.Idle, World.Idle, hsmb2]
      exact id
    split_ifs at hsettled
    · cases hsettled
      exact ⟨⟨[], htrace⟩, fun hidle _ => ⟨hidle₁ hidle, halive⟩⟩
    · have hcommand : (f.request h).command ≠ .create ∧ (f.request h).command ≠ .close := by
        cases f
        all_goals simp [TransferFunction.request, HandleRequest.command]
      obtain ⟨hcall, hkept⟩ := callOnce_settled hcommand.1 hcommand.2 hsettled
      rw [htrace] at hcall
      refine ⟨hcall, fun hidle hsucceeds => ?_⟩
      obtain ⟨hidle', halive'⟩ := hkept (hidle₁ hidle) hsucceeds
      exact ⟨hidle', fun h' => (halive' h').trans (halive h')⟩

/-- What a call does to a client. -/
structure CallKeeps (env : Env) (call : ApiCall) (c c' : Client) : Prop where
  trace : ∃ evs, c'.world.trace = evs ++ c.world.trace
  owns : c.Owns → call.Allowed c → c'.world.Succeeds env → c'.Owns

/-- A call that keeps the handles as they are. -/
theorem CallKeeps.of_same {w' : World} (htrace : ∃ evs, w'.trace = evs ++ c.world.trace)
    (h : c.world.Idle → w'.Succeeds env → w'.Idle ∧ ∀ h, w'.Alive h ↔ c.world.Alive h) :
    CallKeeps env call c { c with world := w' } where
  trace := htrace
  owns howns _ hsucceeds := by
    obtain ⟨hidle, halive⟩ := h howns.idle hsucceeds
    exact ⟨hidle, fun h' => (halive h').trans (howns.alive h'), howns.nodup⟩

theorem callKeeps_opens {polls : List Poll} {a h : Nat} {offset : Int} {f : OpenFunction}
    (hperform : (ApiCall.opens polls a h offset f).perform env c = some c') :
    CallKeeps env (.opens polls a h offset f) c c' := by
  have hcreate : (f.request h (.fresh offset)).command = .create := f.command_request
  have hhandle : (f.request h (.fresh offset)).handle = h := by
    cases f
    all_goals rfl
  have hcall := @OpenFunction.call_eq env polls c.world a h (.fresh offset) f
  simp only [ApiCall.perform] at hperform
  split at hperform
  · rename_i w hanswered
    cases hperform
    rw [hanswered] at hcall
    obtain hcall | hcall := hcall
    · obtain ⟨htrace, hleft⟩ := callOnce_answered hcall.symm
      refine ⟨htrace, fun howns hfresh hsucceeds => ?_⟩
      have hleft := hleft howns.idle hsucceeds
      have hfh := hleft.fh (by rw [hcreate]; decide)
      rw [hhandle] at hfh
      refine ⟨hleft.idle, fun h' => ?_, ?_⟩
      · rw [hleft.alive h', HandleRequest.AliveWith, hcreate, hhandle, howns.alive h', hfh]
        simp [or_comm, eq_comm]
      · rw [hfh, Option.toList_some, List.singleton_append, List.nodup_cons, ← howns.alive]
        exact ⟨hfresh, howns.nodup⟩
    · cases hcall
  · rename_i w hnotBuilt
    rw [hnotBuilt] at hcall
    split_ifs at hperform with hnone
    cases hperform
    obtain hcall | hcall := hcall
    · -- the new handle would be lost
      obtain ⟨-, halive, -⟩ := callOnce_notBuilt hcall.symm
      have halive := (halive h).mpr (.inr ⟨hcreate, hhandle⟩)
      exact absurd (Option.isNone_iff_eq_none.mp hnone) halive
    · cases hcall
      exact .of_same ⟨[], rfl⟩ fun hidle _ => ⟨hidle, fun _ => Iff.rfl⟩
  · rename_i w hnotConnected
    cases hperform
    rw [hnotConnected] at hcall
    obtain hcall | hcall := hcall
    · cases callOnce_notConnected hcall.symm
      exact .of_same ⟨[], rfl⟩ fun hidle _ => ⟨hidle, fun _ => Iff.rfl⟩
    · cases hcall
  · cases hperform

theorem callKeeps_closes {polls : List Poll} {a h : Nat}
    (hperform : (ApiCall.closes polls a h).perform env c = some c') :
    CallKeeps env (.closes polls a h) c c' := by
  have hwith (w : World) (h' : Nat) : (HandleRequest.close h).AliveWith w h' ↔ w.Alive h' := by
    simp [HandleRequest.AliveWith, HandleRequest.command]
  simp only [ApiCall.perform] at hperform
  generalize hcall : smb2Close env polls c.world a h = ends at hperform
  have hcall : callOnce env polls c.world a (fun w => (HandleRequest.close h).build env a w) = ends := hcall
  split at hperform
  · cases hperform
    obtain ⟨htrace, hleft⟩ := callOnce_answered hcall
    refine ⟨htrace, fun howns _ hsucceeds => ?_⟩
    have hleft := hleft howns.idle hsucceeds
    refine ⟨hleft.idle, fun h' => ?_, howns.nodup.erase h⟩
    rw [hleft.alive h', hwith, howns.alive h', howns.nodup.mem_erase_iff]
    simp [HandleRequest.command, HandleRequest.handle, and_comm, eq_comm]
  · cases hperform
    obtain ⟨hidle', halive, htrace⟩ := callOnce_notBuilt hcall
    exact .of_same htrace fun hidle _ => ⟨hidle' hidle, fun h' => (halive h').trans (hwith _ h')⟩
  · cases hperform
    cases callOnce_notConnected hcall
    exact .of_same ⟨[], rfl⟩ fun hidle _ => ⟨hidle, fun _ => Iff.rfl⟩
  · cases hperform

theorem callKeeps_removes {polls polls' : List Poll} {a a' h : Nat} {offset : Int} {f : RemoveFunction}
    (hperform : (ApiCall.removes polls polls' a a' h offset f).perform env c = some c') :
    CallKeeps env (.removes polls polls' a a' h offset f) c c' := by
  have hcreate : (f.request h (.fresh offset)).command = .create := f.command_request
  have hhandle : (f.request h (.fresh offset)).handle = h := by
    cases f
    all_goals rfl
  have hclose (w : World) (r h' : Nat) : (HandleRequest.close r).AliveWith w h' ↔ w.Alive h' := by
    simp [HandleRequest.AliveWith, HandleRequest.command]
  obtain ⟨hcall, hcloses⟩ := @RemoveFunction.call_spec env polls polls' c.world a a' h (.fresh offset) f
  simp only [ApiCall.perform] at hperform
  split at hperform
  · rename_i w₁ w₂ hboth
    cases hperform
    rw [hboth] at hcall hcloses
    obtain ⟨w', h', hcreated, hfh', hclosed⟩ := hcloses _ rfl
    cases hcreated
    obtain ⟨⟨evs, htrace⟩, hleft⟩ := callOnce_answered hcall.symm
    obtain ⟨⟨evs', htrace'⟩, hleft'⟩ := callOnce_answered (r := .close h') hclosed
    refine ⟨⟨evs' ++ evs, by rw [htrace', htrace, List.append_assoc]⟩, fun howns hfresh hsucceeds => ?_⟩
    have hleft := hleft howns.idle (hsucceeds.of_trace htrace')
    have hleft' := hleft' hleft.idle hsucceeds
    have hfh := hleft.fh (by rw [hcreate]; decide)
    rw [hhandle, hfh', Option.some.injEq] at hfh
    refine ⟨hleft'.idle, fun h₂ => ?_, howns.nodup⟩
    rw [hleft'.alive h₂, hclose, hleft.alive h₂, HandleRequest.AliveWith, hcreate, hhandle, hfh, howns.alive h₂]
    have hne (hheld : h₂ ∈ c.held) : h ≠ h₂ := by
      rintro rfl
      exact hfresh ((howns.alive h).mpr hheld)
    simp only [HandleRequest.command, HandleRequest.handle]
    grind
  · rename_i w₁ close hnot
    cases hperform
    rw [hnot] at hcall
    cases callOnce_notConnected hcall.symm
    exact .of_same ⟨[], rfl⟩ fun hidle _ => ⟨hidle, fun _ => Iff.rfl⟩
  · cases hperform

/-- A call that came to its end keeps the handles with the application. -/
theorem ApiCall.perform_keeps (hperform : call.perform env c = some c') : CallKeeps env call c c' := by
  cases call with
  | opens polls a h offset f => exact callKeeps_opens hperform
  | removes polls polls' a a' h offset f => exact callKeeps_removes hperform
  | closes polls a h => exact callKeeps_closes hperform
  | queries polls a h pattern =>
      obtain ⟨w, hsettled, rfl⟩ := Option.map_eq_some_iff.mp hperform
      obtain ⟨htrace, hkept⟩ := callOnce_settled (r := .queryDirectory h pattern) (by simp [HandleRequest.command])
        (by simp [HandleRequest.command]) hsettled
      exact .of_same htrace hkept
  | transfers polls a h f =>
      obtain ⟨w, hsettled, rfl⟩ := Option.map_eq_some_iff.mp hperform
      obtain ⟨htrace, hkept⟩ := TransferFunction.call_settled hsettled
      exact .of_same htrace hkept

theorem Client.Runs.owns (hrun : c.Runs env c') (howns : c.Owns) (hsucceeds : c'.world.Succeeds env) :
    c'.Owns := by
  induction hrun with
  | refl => exact howns
  | call call _ hallowed hperform ih =>
      have hkeeps := ApiCall.perform_keeps hperform
      obtain ⟨evs, htrace⟩ := hkeeps.trace
      exact hkeeps.owns (ih (hsucceeds.of_trace htrace)) hallowed hsucceeds

/-! ### What an application sees -/

theorem HandleRequest.Passes.trace {polls : List Poll} {a : Nat} {w : World} {r : HandleRequest} {s : RecvState}
    (h : r.Passes env polls a w s) : ∃ evs, s.world.trace = evs ++ w.trace := by
  obtain ⟨w', hbuild, hduring⟩ := h
  have hbuilt : BuiltFor env a r (w.callData a) 0 w' := by
    refine builtFor_build (w := w.callData a) ?_ hbuild
    simp only [World.callData, Memory.setApp, if_true]
  have hrule := exchangeRule_trace env w.trace
  exact hrule.inv_of_phase (hrule.during (w := w'.beginSendReceive) hbuilt.trace hduring)

theorem ApiCall.usesLive {s : RecvState} (howns : c.Owns) (hallowed : call.Allowed c)
    (hpasses : call.Passes env c s) (hsucceeds : s.world.Succeeds env) : s.UsesLive := by
  have hnew {r : HandleRequest} {h : Nat} (hcommand : r.command = .create) (hhandle : r.handle = h)
      (hfresh : ¬ c.world.Alive h) : r.Usable c.world := by
    rw [HandleRequest.Usable, hcommand, hhandle]
    simpa using hfresh
  have hheld {r : HandleRequest} {h : Nat} (hcommand : r.command ≠ .create) (hhandle : r.handle = h)
      (hmem : h ∈ c.held) : r.Usable c.world := by
    rw [HandleRequest.Usable, hhandle]
    exact iff_of_true ((howns.alive h).mpr hmem) hcommand
  cases call with
  | opens polls a h offset f =>
      refine HandleRequest.usesLive howns.idle (hnew f.command_request ?_ hallowed) hpasses hsucceeds
      cases f
      all_goals rfl
  | removes polls polls' a a' h offset f =>
      have hhandle : (f.request h (.fresh offset)).handle = h := by
        cases f
        all_goals rfl
      rcases hpasses with hpasses | ⟨w, h', hanswered, hfh, hpasses⟩
      · exact HandleRequest.usesLive howns.idle (hnew f.command_request hhandle hallowed) hpasses hsucceeds
      · rw [f.call_spec.1] at hanswered
        obtain ⟨evs, htrace⟩ := hpasses.trace
        have hleft := (callOnce_answered hanswered).2 howns.idle (hsucceeds.of_trace htrace)
        have hsame := hleft.fh (by rw [f.command_request]; decide)
        rw [hfh, hhandle, Option.some.injEq] at hsame
        refine HandleRequest.usesLive hleft.idle ?_ hpasses hsucceeds
        refine iff_of_true ?_ (by simp [HandleRequest.command])
        rw [HandleRequest.handle, hsame, hleft.alive, HandleRequest.AliveWith, f.command_request, hhandle]
        simp
  | closes polls a h =>
      exact HandleRequest.usesLive howns.idle (hheld (h := h) (by simp [HandleRequest.command]) rfl hallowed)
        hpasses hsucceeds
  | queries polls a h pattern =>
      exact HandleRequest.usesLive howns.idle (hheld (h := h) (by simp [HandleRequest.command]) rfl hallowed)
        hpasses hsucceeds
  | transfers polls a h f =>
      obtain ⟨w, hreset, hpasses⟩ := hpasses
      obtain ⟨hsmb2, -, halive⟩ := World.resetCounts_same hreset
      have hidle : w.Idle := by
        rw [World.Idle, hsmb2]
        exact howns.idle
      refine HandleRequest.usesLive hidle ?_ hpasses hsucceeds
      refine iff_of_true ((halive _).mpr ((howns.alive _).mpr ?_)) ?_
      · cases f
        all_goals exact hallowed
      · cases f
        all_goals simp [TransferFunction.request, HandleRequest.command]

theorem ApiCall.honest (howns : c.Owns) : call.Honest env c := by
  cases call with
  | opens polls a h offset f =>
      intro w hsettled hsucceeds h' hh'
      cases hends : f.call env polls c.world a h (.fresh offset) with
      | answered w' =>
          rw [hends] at hsettled hh'
          cases hsettled
          obtain hcall | hcall := @OpenFunction.call_eq env polls c.world a h (.fresh offset) f
          · have hleft := (callOnce_answered (hcall.symm.trans hends)).2 howns.idle hsucceeds
            have hfh := hleft.fh (by rw [f.command_request]; decide)
            cases hfh.symm.trans hh'
            refine ⟨congrArg some (hleft.status (.inl f.command_request)), ?_⟩
            rw [hleft.alive, HandleRequest.AliveWith, f.command_request]
            simp
          · cases hcall.symm.trans hends
      | _ =>
          rw [hends] at hh'
          cases hh'
  | removes polls polls' a a' h offset f =>
      intro w hsettled hsucceeds hclose
      obtain ⟨close, hclose⟩ := Option.ne_none_iff_exists'.mp hclose
      obtain ⟨hcall, hcloses⟩ := @RemoveFunction.call_spec env polls polls' c.world a a' h (.fresh offset) f
      obtain ⟨w', h', hanswered, hfh', -⟩ := hcloses close hclose
      rw [hanswered] at hsettled ⊢
      cases hsettled
      have hleft := (callOnce_answered (hcall.symm.trans hanswered)).2 howns.idle hsucceeds
      refine ⟨congrArg some (hleft.status (.inl f.command_request)), fun h₂ hh₂ => ?_⟩
      cases (hleft.fh (by rw [f.command_request]; decide)).symm.trans hh₂
      rw [hleft.alive, HandleRequest.AliveWith, f.command_request]
      simp
  | queries polls a h pattern =>
      intro w hsettled hsucceeds dir hdir
      cases hends : smb2Fquerydir env polls c.world a (some h) pattern with
      | answered w' =>
          rw [hends] at hsettled hdir
          cases hsettled
          cases hdir
          have hleft := (callOnce_answered (r := .queryDirectory h pattern) hends).2 howns.idle hsucceeds
          obtain ⟨dir, hdir, -⟩ := hleft.directory rfl
          refine ⟨congrArg some (hleft.status (.inr rfl)), ?_⟩
          rw [hdir]
          exact Option.some_ne_none dir
      | _ =>
          rw [hends] at hdir
          cases hdir
  | closes polls a h => trivial
  | transfers polls a h f => trivial

end

/-- In every run in which the server does what it was asked for, the handles that exist are those the
application has, the next call tells the truth, and no request it waits for is about a handle that
was released. -/
theorem Client.Runs.keepsHandles {env : Env} {c c' : Client} (howns : c.Owns) (hrun : c.Runs env c')
    (hsucceeds : c'.world.Succeeds env) :
    c'.Owns ∧ ∀ call : ApiCall, call.Honest env c' ∧
      (call.Allowed c' → ∀ s, call.Passes env c' s → s.world.Succeeds env → s.UsesLive) := by
  have howns' := hrun.owns howns hsucceeds
  exact ⟨howns', fun call => ⟨ApiCall.honest howns',
    fun hallowed s hpasses hs => ApiCall.usesLive howns' hallowed hpasses hs⟩⟩

/-- A client that is connected, of an application that has opened nothing. -/
def newApplication : Client := ⟨idleClient 0, []⟩

theorem owns_newApplication : newApplication.Owns where
  idle := ⟨rfl, rfl⟩
  alive h := by simp [World.Alive, newApplication, idleClient]
  nodup := List.nodup_nil

/-- The answer to a CREATE that succeeds. -/
def createdFrame (messageId : UInt64) : Bytes :=
  frameOf (replyHeader .create NtStatus.success 1 messageId 0 ++ leBytes 88 89)

/-- A directory is opened and read to its end. -/
def openDirectory : ApiCall := .opens (compoundPolls [createdFrame 0]) 0 7 0 (.path "d".toUTF8.toList 0)

def readDirectory : ApiCall :=
  .queries (compoundPolls [frameOf (replyHeader .queryDirectory NtStatus.noMoreFiles 1 1 0 ++ leBytes 8 9)])
    0 7 "*".toUTF8.toList

/-- The answers so far were to CREATE requests that succeeded and to directories at their end. -/
def Event.succeedsPlainly : Event → Bool
  | .processed pdu =>
      (pdu.command ≠ .create || pdu.headerResp.status = NtStatus.success) &&
        (pdu.command ≠ .queryDirectory || pdu.headerResp.status = NtStatus.noMoreFiles)
  | _ => true

theorem Event.succeeds_of_plainly {env : Env} {event : Event} (h : event.succeedsPlainly = true) :
    event.Succeeds env := by
  cases event with
  | processed pdu =>
      simp only [Event.succeedsPlainly, Bool.and_eq_true, Bool.or_eq_true, decide_eq_true_eq] at h
      exact ⟨fun hc => h.1.resolve_left (not_not.mpr hc), fun hc => .inl (h.2.resolve_left (not_not.mpr hc))⟩
  | _ => trivial

theorem keepsHandles_readDirectory :
    ∃ c, newApplication.Runs plainEnv c ∧ c.held = [7] ∧ c.Owns ∧
      (ApiCall.closes [] 0 7).Honest plainEnv c := by
  have hopened : (openDirectory.perform plainEnv newApplication).any (fun c₁ =>
      c₁.held = [7] ∧ (readDirectory.perform plainEnv c₁).any (fun c =>
        c.held = [7] ∧ c.world.trace.all Event.succeedsPlainly)) = true := by decide +kernel
  obtain ⟨c₁, hperform₁, hall⟩ := (Option.any_eq_true _ _).mp hopened
  rw [decide_eq_true_eq] at hall
  obtain ⟨c, hperform, hlast⟩ := (Option.any_eq_true _ _).mp hall.2
  rw [decide_eq_true_eq] at hlast
  have hfresh : openDirectory.Allowed newApplication := by
    simp [ApiCall.Allowed, openDirectory, newApplication, idleClient, World.Alive]
  have hheld : readDirectory.Allowed c₁ := by
    rw [readDirectory, ApiCall.Allowed, hall.1]
    exact List.mem_singleton_self 7
  have hrun : newApplication.Runs plainEnv c := .call _ (.call _ .refl hfresh hperform₁) hheld hperform
  have hsucceeds : c.world.Succeeds plainEnv := fun event he =>
    Event.succeeds_of_plainly (List.all_eq_true.mp hlast.2 event he)
  obtain ⟨howns, hcalls⟩ := hrun.keepsHandles owns_newApplication hsucceeds
  exact ⟨c, hrun, hlast.1, howns, (hcalls _).1⟩

/-- The CREATE of the call is refused. -/
def refusedCreate : List Poll := compoundPolls [frameOf (errorReply .create 1 0 0)]

/-- The server refuses a CREATE. The call returns the handle its reply handler has deleted, and
`smb2_unlink` goes on to close that handle. -/
theorem not_keepsHandles_refusedCreate :
    (∃ w, smb2Open plainEnv refusedCreate (idleClient 0) 0 7 (.fresh 0) "f".toUTF8.toList 0 = .answered w ∧
      (CallEnd.answered w).handle 0 = some 7 ∧ (CallEnd.answered w).status 0 ≠ some NtStatus.success ∧
      ¬ w.Alive 7) ∧
    (smb2Unlink plainEnv refusedCreate [] (idleClient 0) 0 1 7 (.fresh 0) "f".toUTF8.toList).close =
      some .undefined := by
  constructor
  · have hopened : (smb2Open plainEnv refusedCreate (idleClient 0) 0 7 (.fresh 0) "f".toUTF8.toList 0).answer?.any
        (fun w => (w.mem.app 0).fh = some 7 ∧ (w.mem.app 0).ntStatus ≠ NtStatus.success ∧
          (w.mem.handle 7).isNone) = true := by decide +kernel
    obtain ⟨w, hanswered, hends⟩ := (Option.any_eq_true _ _).mp hopened
    rw [decide_eq_true_eq] at hends
    obtain ⟨hfh, hstatus, hdeleted⟩ := hends
    refine ⟨w, CallEnd.answer?_eq_some.mp hanswered, hfh, fun h => hstatus (Option.some.inj h), ?_⟩
    rw [World.Alive, not_not]
    exact Option.isNone_iff_eq_none.mp hdeleted
  · have hclosed : (smb2Unlink plainEnv refusedCreate [] (idleClient 0) 0 1 7 (.fresh 0)
        "f".toUTF8.toList).close.any CallEnd.isUndefined = true := by decide +kernel
    obtain ⟨close, hclose, hundefined⟩ := (Option.any_eq_true _ _).mp hclosed
    rw [hclose, CallEnd.isUndefined_iff.mp hundefined]

end CodeStudy.Samba
