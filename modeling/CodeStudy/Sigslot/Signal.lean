import CodeStudy.Base.Runs
import CodeStudy.Base.SharedStore
import CodeStudy.Sigslot.Slots

/-!
# A signal and its emissions

Threads connect and disconnect slots, and emit the signal, in any order. The list is changed under a lock; an
emission takes a reference to it under the lock and goes through it without the lock, slot after slot.
-/

namespace CodeStudy.Sigslot

/-- The lists are behind `m_slots` and the references of the emissions. -/
inductive Handle where
  | slots
  | ref (e : Nat)
deriving DecidableEq

/-- Where an emission is in the call of a slot. -/
inductive Point where
  | connected
  | blocked
  | lock
  /-- The object is locked. -/
  | stillConnected
  | call
  | running
  /-- The object was gone. -/
  | disconnect
  | clean
deriving DecidableEq

inductive Stage where
  | idle
  | starting
  | between (group slot : Nat)
  | turn (group slot : Nat) (s : SlotId) (point : Point)
  | ended
deriving DecidableEq

inductive Reason where
  | disconnected
  | blocked
  | expired
deriving DecidableEq

inductive Event where
  | connected (s : SlotId) (object : Option ObjectId)
  | disconnected (s : SlotId)
  | blocked (s : SlotId)
  | unblocked (s : SlotId)
  | expired (o : ObjectId)
  | referred (e : Nat) (slots : List SlotId)
  | turn (e : Nat) (s : SlotId)
  | skipped (e : Nat) (s : SlotId) (reason : Reason)
  | called (e : Nat) (s : SlotId)
  | ended (e : Nat)
deriving DecidableEq

structure State (σ : Type) where
  store : σ
  slots : Slots := fun _ => { group := 0, object := none }
  nextSlot : SlotId := 0
  block : Bool := false
  gone : ObjectId → Bool := fun _ => false
  /-- The emissions that have locked an object. -/
  holders : ObjectId → List Nat := fun _ => []
  stages : Nat → Stage := fun _ => .idle
  /-- The slots that a connection is about to have removed. -/
  cleaning : List SlotId := []
  /-- The newest event first. -/
  trace : List Event := []

inductive Action where
  | connect (gid : Int32) (object : Option ObjectId) (copied : Bool)
  | exchange (s : SlotId)
  | clean (s : SlotId) (copied : Bool)
  | disconnectIf (cond : SlotId → Bool) (copied : Bool)
  | disconnectGroup (gid : Int32) (copied : Bool)
  | disconnectAll (copied : Bool)
  | block (s : SlotId)
  | unblock (s : SlotId)
  | blockSignal
  | unblockSignal
  | expire (o : ObjectId)
  | emit (e : Nat)
  | proceed (e : Nat) (copied : Bool)

namespace State

variable {σ : Type}

def log (st : State σ) (event : Event) : State σ :=
  { st with trace := event :: st.trace }

def setStage (st : State σ) (e : Nat) (stage : Stage) : State σ :=
  { st with stages := Function.update st.stages e stage }

def setSlot (st : State σ) (s : SlotId) (slot : Slot) : State σ :=
  { st with slots := Function.update st.slots s slot }

/-- `m_connected.exchange(false)`, when it was `true` -/
def disconnect (st : State σ) (s : SlotId) : State σ :=
  (st.setSlot s { st.slots s with connected := false }).log (.disconnected s)

def acquire (st : State σ) (e : Nat) (o : ObjectId) : State σ :=
  { st with holders := Function.update st.holders o (e :: st.holders o) }

/-- The pointer that kept the object of the slot is gone. -/
def release (st : State σ) (e : Nat) (s : SlotId) : State σ :=
  match (st.slots s).object with
  | none => st
  | some o => { st with holders := Function.update st.holders o ((st.holders o).erase e) }

variable (store : SharedStore σ Handle (List Group))

/-- `cow_write(m_slots)` under the lock, and what is done to the slots. -/
def edit (copied : Bool) (st : State σ) (f : List Group → Slots → List Group × Slots) : Option (State σ) :=
  (store.read st.store .slots).bind fun groups =>
    (store.write copied st.store .slots (f groups st.slots).1).map fun s =>
      { st with store := s, slots := (f groups st.slots).2 }

/-- `slot_base::operator()` and `call_slot`, up to the next thing that is shared. -/
def takeTurn (copied : Bool) (st : State σ) (e g i : Nat) (s : SlotId) : Point → Option (State σ)
  | .connected =>
      if (st.slots s).connected then some (st.setStage e (.turn g i s .blocked))
      else some ((st.setStage e (.between g (i + 1))).log (.skipped e s .disconnected))
  | .blocked =>
      if (st.slots s).blocked then some ((st.setStage e (.between g (i + 1))).log (.skipped e s .blocked))
      else some (st.setStage e (.turn g i s (if (st.slots s).object.isSome then .lock else .call)))
  | .lock =>
      match (st.slots s).object with
      | none => none
      | some o =>
          if st.gone o then some ((st.setStage e (.turn g i s .disconnect)).log (.skipped e s .expired))
          else some ((st.acquire e o).setStage e (.turn g i s .stillConnected))
  | .stillConnected =>
      if (st.slots s).connected then some (st.setStage e (.turn g i s .call))
      else some (((st.release e s).setStage e (.between g (i + 1))).log (.skipped e s .disconnected))
  | .call => some ((st.setStage e (.turn g i s .running)).log (.called e s))
  | .running => some ((st.release e s).setStage e (.between g (i + 1)))
  | .disconnect =>
      if (st.slots s).connected then some ((st.setStage e (.turn g i s .clean)).disconnect s)
      else some (st.setStage e (.between g (i + 1)))
  | .clean =>
      (st.edit store copied fun groups slots => Sigslot.clean groups slots s).map fun st =>
        st.setStage e (.between g (i + 1))

/-- `operator()` goes through the groups of its reference. -/
def proceed (copied : Bool) (st : State σ) (e : Nat) : Option (State σ) :=
  match st.stages e with
  | .idle => none
  | .starting =>
      (store.read st.store .slots).bind fun groups =>
        (store.copy st.store .slots (.ref e)).map fun s =>
          ({ st with store := s }.setStage e (.between 0 0)).log (.referred e (listed groups))
  | .between g i =>
      (store.read st.store (.ref e)).bind fun groups =>
        match groups[g]? with
        | none =>
            (store.drop st.store (.ref e)).map fun s => ({ st with store := s }.setStage e .ended).log (.ended e)
        | some group =>
            match group.slts[i]? with
            | none => some (st.setStage e (.between (g + 1) 0))
            | some s => some ((st.setStage e (.turn g i s .connected)).log (.turn e s))
  | .turn g i s point => takeTurn store copied st e g i s point
  | .ended => none

def step (st : State σ) : Action → Option (State σ)
  | .connect gid object copied =>
      (({ st with nextSlot := st.nextSlot + 1 }.setSlot st.nextSlot { group := gid, object }).log
        (.connected st.nextSlot object)).edit store copied fun groups slots => addSlot groups slots st.nextSlot
  | .exchange s =>
      if s < st.nextSlot then
        if (st.slots s).connected then some { st.disconnect s with cleaning := s :: st.cleaning } else some st
      else none
  | .clean s copied =>
      if s ∈ st.cleaning then
        { st with cleaning := st.cleaning.erase s }.edit store copied fun groups slots => Sigslot.clean groups slots s
      else none
  | .disconnectIf cond copied =>
      st.edit store copied fun groups slots =>
        ((Sigslot.disconnectIf cond groups slots 0).1, (Sigslot.disconnectIf cond groups slots 0).2.1)
  | .disconnectGroup gid copied =>
      st.edit store copied fun groups slots => ((Sigslot.disconnectGroup groups gid).1, slots)
  | .disconnectAll copied => st.edit store copied fun _ slots => ([], slots)
  | .block s =>
      if s < st.nextSlot then some ((st.setSlot s { st.slots s with blocked := true }).log (.blocked s)) else none
  | .unblock s =>
      if s < st.nextSlot then some ((st.setSlot s { st.slots s with blocked := false }).log (.unblocked s)) else none
  | .blockSignal => some { st with block := true }
  | .unblockSignal => some { st with block := false }
  | .expire o =>
      if st.gone o = false ∧ st.holders o = [] then
        some ({ st with gone := Function.update st.gone o true }.log (.expired o))
      else none
  | .emit e =>
      if st.stages e = .idle then some (if st.block then st else st.setStage e .starting) else none
  | .proceed e copied => st.proceed store copied e

/-! ### Lists that are copied for every emission -/

/-- Every handle with a list of its own. -/
def plain (st : State σ) : State (Handle → Option (List Group)) :=
  { st with store := store.read st.store }

variable {store} {ok : σ → Prop} {st t : State σ} {copied : Bool}

theorem edit_plain (law : store.Lawful ok) (hok : ok st.store) {f : List Group → Slots → List Group × Slots}
    (hedit : st.edit store copied f = some t) :
    ok t.store ∧ (st.plain store).edit ownValues copied f = some (t.plain store) := by
  obtain ⟨groups, hread, hmap⟩ := Option.bind_eq_some_iff.1 hedit
  obtain ⟨s, hwrite, heq⟩ := Option.map_eq_some_iff.1 hmap
  subst heq
  have hop : store.step st.store (.write copied .slots (f groups st.slots).1) = some s := hwrite
  obtain ⟨hoks, hown⟩ := law.step_read hok hop
  have hread' : ownValues.read (st.plain store).store .slots = some groups := hread
  have hwrite' : ownValues.write copied (st.plain store).store .slots (f groups st.slots).1 = some (store.read s) := hown
  refine ⟨hoks, ?_⟩
  simp only [edit, hread', Option.bind_some]
  show Option.map _ (ownValues.write copied (st.plain store).store .slots (f groups st.slots).1) = _
  rw [hwrite']
  rfl

@[simp] theorem release_store (st : State σ) (e : Nat) (s : SlotId) : (st.release e s).store = st.store := by
  unfold release
  split <;> rfl

theorem release_plain (st : State σ) (e : Nat) (s : SlotId) :
    (st.release e s).plain store = (st.plain store).release e s := by
  unfold release
  cases hobject : (st.slots s).object with
  | none => simp [plain, hobject]
  | some o => simp [plain, hobject]

theorem takeTurn_plain (law : store.Lawful ok) (hok : ok st.store) {e g i : Nat} {s : SlotId} {point : Point}
    (hstep : takeTurn store copied st e g i s point = some t) :
    ok t.store ∧ takeTurn ownValues copied (st.plain store) e g i s point = some (t.plain store) := by
  cases point with
  | connected =>
    simp only [takeTurn] at hstep
    split_ifs at hstep with hc
    · cases hstep
      exact ⟨hok, if_pos hc⟩
    · cases hstep
      exact ⟨hok, if_neg hc⟩
  | blocked =>
    simp only [takeTurn] at hstep
    by_cases hb : (st.slots s).blocked
    · rw [if_pos hb] at hstep
      cases hstep
      exact ⟨hok, if_pos hb⟩
    · rw [if_neg hb] at hstep
      cases hstep
      exact ⟨hok, if_neg hb⟩
  | lock =>
    cases hobject : (st.slots s).object with
    | none => simp [takeTurn, hobject] at hstep
    | some o =>
      have hobject' : ((st.plain store).slots s).object = some o := hobject
      simp only [takeTurn, hobject] at hstep
      simp only [takeTurn, hobject']
      split_ifs at hstep with hgone
      · cases hstep
        exact ⟨hok, if_pos hgone⟩
      · cases hstep
        exact ⟨hok, if_neg hgone⟩
  | stillConnected =>
    simp only [takeTurn] at hstep
    split_ifs at hstep with hc
    · cases hstep
      exact ⟨hok, if_pos hc⟩
    · cases hstep
      refine ⟨by simpa [log, setStage] using hok, ?_⟩
      simp only [takeTurn]
      rw [if_neg (show ¬((st.plain store).slots s).connected = true from hc), ← release_plain]
      rfl
  | call =>
    cases hstep
    exact ⟨hok, rfl⟩
  | running =>
    cases hstep
    refine ⟨by simpa [setStage] using hok, ?_⟩
    simp only [takeTurn]
    rw [← release_plain]
    rfl
  | disconnect =>
    simp only [takeTurn] at hstep
    split_ifs at hstep with hc
    · cases hstep
      exact ⟨hok, if_pos hc⟩
    · cases hstep
      exact ⟨hok, if_neg hc⟩
  | clean =>
    obtain ⟨u, hedit, heq⟩ := Option.map_eq_some_iff.1 hstep
    obtain ⟨hoku, hplain⟩ := edit_plain law hok hedit
    subst heq
    refine ⟨hoku, ?_⟩
    simp only [takeTurn]
    rw [hplain]
    rfl

theorem proceed_plain (law : store.Lawful ok) (hok : ok st.store) {e : Nat}
    (hstep : st.proceed store copied e = some t) :
    ok t.store ∧ (st.plain store).proceed ownValues copied e = some (t.plain store) := by
  cases hstage : st.stages e with
  | idle => simp [proceed, hstage] at hstep
  | starting =>
    simp only [proceed, hstage] at hstep
    obtain ⟨groups, hread, hmap⟩ := Option.bind_eq_some_iff.1 hstep
    obtain ⟨s, hcopy, heq⟩ := Option.map_eq_some_iff.1 hmap
    have hop : store.step st.store (.copy .slots (.ref e)) = some s := hcopy
    obtain ⟨hoks, hown⟩ := law.step_read hok hop
    subst heq
    refine ⟨hoks, ?_⟩
    have hstage' : (st.plain store).stages e = .starting := hstage
    have hread' : ownValues.read (st.plain store).store .slots = some groups := hread
    have hcopy' : ownValues.copy (st.plain store).store .slots (.ref e) = some (store.read s) := hown
    simp only [proceed, hstage', hread', Option.bind_some, hcopy', Option.map_some]
    rfl
  | between g i =>
    have hstage' : (st.plain store).stages e = .between g i := hstage
    simp only [proceed, hstage] at hstep
    obtain ⟨groups, hread, hwalk⟩ := Option.bind_eq_some_iff.1 hstep
    have hread' : ownValues.read (st.plain store).store (.ref e) = some groups := hread
    simp only [proceed, hstage', hread', Option.bind_some]
    cases hg : groups[g]? with
    | none =>
      simp only [hg] at hwalk
      obtain ⟨s, hdrop, heq⟩ := Option.map_eq_some_iff.1 hwalk
      have hop : store.step st.store (.drop (.ref e)) = some s := hdrop
      obtain ⟨hoks, hown⟩ := law.step_read hok hop
      have hdrop' : ownValues.drop (st.plain store).store (.ref e) = some (store.read s) := hown
      subst heq
      refine ⟨hoks, ?_⟩
      simp only [hdrop', Option.map_some]
      rfl
    | some group =>
      simp only [hg] at hwalk
      cases hi : group.slts[i]? with
      | none =>
        simp only [hi] at hwalk
        cases hwalk
        refine ⟨hok, ?_⟩
        simp only [hi]
        rfl
      | some s =>
        simp only [hi] at hwalk
        cases hwalk
        refine ⟨hok, ?_⟩
        simp only [hi]
        rfl
  | turn g i s point =>
    have hstage' : (st.plain store).stages e = .turn g i s point := hstage
    simp only [proceed, hstage] at hstep
    simp only [proceed, hstage']
    exact takeTurn_plain law hok hstep
  | ended => simp [proceed, hstage] at hstep

/-- What a step does with shared lists, it does with lists of their own. -/
theorem step_plain (law : store.Lawful ok) (hok : ok st.store) {a : Action} (hstep : st.step store a = some t) :
    ok t.store ∧ (st.plain store).step ownValues a = some (t.plain store) := by
  cases a with
  | connect gid object copied =>
    simp only [step] at hstep ⊢
    exact edit_plain law (by exact hok) hstep
  | exchange s =>
    simp only [step] at hstep
    split_ifs at hstep with hs hc
    · cases hstep
      refine ⟨hok, (if_pos hs).trans (if_pos hc)⟩
    · cases hstep
      exact ⟨hok, (if_pos hs).trans (if_neg hc)⟩
  | clean s copied =>
    simp only [step] at hstep
    split_ifs at hstep with hs
    obtain ⟨hokt, hplain⟩ := edit_plain law (by exact hok) hstep
    exact ⟨hokt, (if_pos hs).trans hplain⟩
  | disconnectIf cond copied =>
    simp only [step] at hstep ⊢
    exact edit_plain law hok hstep
  | disconnectGroup gid copied =>
    simp only [step] at hstep ⊢
    exact edit_plain law hok hstep
  | disconnectAll copied =>
    simp only [step] at hstep ⊢
    exact edit_plain law hok hstep
  | block s =>
    simp only [step] at hstep
    split_ifs at hstep with hs
    cases hstep
    exact ⟨hok, if_pos hs⟩
  | unblock s =>
    simp only [step] at hstep
    split_ifs at hstep with hs
    cases hstep
    exact ⟨hok, if_pos hs⟩
  | blockSignal =>
    cases hstep
    exact ⟨hok, rfl⟩
  | unblockSignal =>
    cases hstep
    exact ⟨hok, rfl⟩
  | expire o =>
    simp only [step] at hstep
    split_ifs at hstep with ho
    cases hstep
    exact ⟨hok, if_pos ho⟩
  | emit e =>
    simp only [step] at hstep
    split_ifs at hstep with he hb
    · cases hstep
      exact ⟨hok, (if_pos he).trans (congrArg some (if_pos hb))⟩
    · cases hstep
      exact ⟨hok, (if_pos he).trans (congrArg some (if_neg hb))⟩
  | proceed e copied => exact proceed_plain law hok hstep

/-! A step with lists of their own is a step with shared lists, if it is copied where it has to be. -/

theorem edit_possible (law : store.Lawful ok) (hok : ok st.store) {f : List Group → Slots → List Group × Slots}
    {p : State (Handle → Option (List Group))} (hplain : (st.plain store).edit ownValues copied f = some p) :
    ∃ copied t, st.edit store copied f = some t := by
  obtain ⟨groups, hread, -⟩ := Option.bind_eq_some_iff.1 hplain
  have hread' : store.read st.store .slots = some groups := hread
  obtain ⟨copied, hwrite⟩ := law.canWrite hok (Option.isSome_of_eq_some hread') (f groups st.slots).1
  obtain ⟨s, hs⟩ := Option.isSome_iff_exists.1 hwrite
  exact ⟨copied, _, by simp only [edit, hread', Option.bind_some, hs, Option.map_some]; rfl⟩

theorem takeTurn_possible (law : store.Lawful ok) (hok : ok st.store) {e g i : Nat} {s : SlotId} {point : Point}
    {p : State (Handle → Option (List Group))}
    (hplain : takeTurn ownValues copied (st.plain store) e g i s point = some p) :
    ∃ copied t, takeTurn store copied st e g i s point = some t := by
  cases point with
  | connected =>
    simp only [takeTurn]
    split_ifs with hc
    · exact ⟨true, _, rfl⟩
    · exact ⟨true, _, rfl⟩
  | blocked =>
    simp only [takeTurn]
    by_cases hb : (st.slots s).blocked
    · exact ⟨true, _, if_pos hb⟩
    · exact ⟨true, _, if_neg hb⟩
  | lock =>
    cases hobject : (st.slots s).object with
    | none =>
      have hobject' : ((st.plain store).slots s).object = none := hobject
      simp [takeTurn, hobject'] at hplain
    | some o =>
      simp only [takeTurn, hobject]
      split_ifs with hgone
      · exact ⟨true, _, rfl⟩
      · exact ⟨true, _, rfl⟩
  | stillConnected =>
    simp only [takeTurn]
    split_ifs with hc
    · exact ⟨true, _, rfl⟩
    · exact ⟨true, _, rfl⟩
  | call => exact ⟨true, _, rfl⟩
  | running => exact ⟨true, _, rfl⟩
  | disconnect =>
    simp only [takeTurn]
    split_ifs with hc
    · exact ⟨true, _, rfl⟩
    · exact ⟨true, _, rfl⟩
  | clean =>
    obtain ⟨u, hedit, -⟩ := Option.map_eq_some_iff.1 hplain
    obtain ⟨copied, v, hv⟩ := edit_possible law hok hedit
    exact ⟨copied, _, by simp only [takeTurn, hv, Option.map_some]; rfl⟩

theorem proceed_possible (law : store.Lawful ok) (hok : ok st.store) {e : Nat}
    {p : State (Handle → Option (List Group))} (hplain : (st.plain store).proceed ownValues copied e = some p) :
    ∃ copied t, st.proceed store copied e = some t := by
  have hstages : (st.plain store).stages e = st.stages e := rfl
  cases hstage : st.stages e with
  | idle => simp [proceed, hstages, hstage] at hplain
  | starting =>
    simp only [proceed, hstages, hstage] at hplain
    obtain ⟨groups, hread, hmap⟩ := Option.bind_eq_some_iff.1 hplain
    obtain ⟨s, hcopy, -⟩ := Option.map_eq_some_iff.1 hmap
    have hread' : store.read st.store .slots = some groups := hread
    have hfree : store.read st.store (.ref e) = none := by
      by_contra hused
      have hcan : ¬((store.read st.store .slots).isSome ∧ store.read st.store (.ref e) = none) := fun h => hused h.2
      have hfail : ownValues.copy (st.plain store).store .slots (.ref e) = none := if_neg hcan
      simp [hfail] at hcopy
    obtain ⟨s', hs'⟩ := Option.isSome_iff_exists.1 (law.canCopy hok (Option.isSome_of_eq_some hread') hfree)
    exact ⟨true, _, by simp only [proceed, hstage, hread', Option.bind_some, hs', Option.map_some]; rfl⟩
  | between g i =>
    simp only [proceed, hstages, hstage] at hplain
    obtain ⟨groups, hread, -⟩ := Option.bind_eq_some_iff.1 hplain
    have hread' : store.read st.store (.ref e) = some groups := hread
    simp only [proceed, hstage, hread', Option.bind_some]
    cases hg : groups[g]? with
    | none =>
      obtain ⟨s', hs'⟩ := Option.isSome_iff_exists.1 (law.canDrop hok (Option.isSome_of_eq_some hread'))
      exact ⟨true, _, by simp only [hs', Option.map_some]; rfl⟩
    | some group =>
      simp only []
      cases hi : group.slts[i]? with
      | none => exact ⟨true, _, rfl⟩
      | some s => exact ⟨true, _, rfl⟩
  | turn g i s point =>
    simp only [proceed, hstages, hstage] at hplain
    simp only [proceed, hstage]
    exact takeTurn_possible law hok hplain
  | ended => simp [proceed, hstages, hstage] at hplain

/-- A list of its own is never copied before it is written. -/
theorem proceed_own (p : State (Handle → Option (List Group))) (copied copied' : Bool) (e : Nat) :
    p.proceed ownValues copied e = p.proceed ownValues copied' e := by
  unfold proceed
  cases p.stages e with
  | turn g i s point =>
    cases point with
    | clean => rfl
    | _ => rfl
  | _ => rfl

theorem step_possible (law : store.Lawful ok) (hok : ok st.store) {a : Action}
    {p : State (Handle → Option (List Group))} (hplain : (st.plain store).step ownValues a = some p) :
    ∃ b t, st.step store b = some t ∧ t.plain store = p := by
  have hsame : ∀ b t, st.step store b = some t →
      (st.plain store).step ownValues b = (st.plain store).step ownValues a → t.plain store = p := by
    intro b t hstep heq
    have hfound := (step_plain law hok hstep).2
    rw [heq, hplain, Option.some.injEq] at hfound
    exact hfound.symm
  -- An action that does not change the list is the same one; another may have to copy it.
  cases a with
  | connect gid object copied =>
    have hedit := hplain
    simp only [step] at hedit
    have hok' : ok (({ st with nextSlot := st.nextSlot + 1 }.setSlot st.nextSlot { group := gid, object }).log
        (.connected st.nextSlot object)).store := hok
    obtain ⟨copied', t, ht⟩ := edit_possible law hok' hedit
    have hstep : st.step store (.connect gid object copied') = some t := by
      simp only [step]
      exact ht
    exact ⟨_, t, hstep, hsame _ t hstep rfl⟩
  | exchange s =>
    have hs : s < st.nextSlot := by
      by_contra hs
      exact absurd hplain (by simp [step, plain, hs])
    by_cases hc : (st.slots s).connected
    · have hstep : st.step store (.exchange s) = some { st.disconnect s with cleaning := s :: st.cleaning } := by
        simp only [step, if_pos hs, if_pos hc]
      exact ⟨_, _, hstep, hsame _ _ hstep rfl⟩
    · have hstep : st.step store (.exchange s) = some st := by
        simp only [step, if_pos hs, if_neg hc]
      exact ⟨_, _, hstep, hsame _ _ hstep rfl⟩
  | clean s copied =>
    have hs : s ∈ st.cleaning := by
      by_contra hs
      exact absurd hplain (by simp [step, plain, hs])
    have hedit : ({ st with cleaning := st.cleaning.erase s }.plain store).edit ownValues copied
        (fun groups slots => Sigslot.clean groups slots s) = some p := (if_pos hs).symm.trans hplain
    have hok' : ok { st with cleaning := st.cleaning.erase s }.store := hok
    obtain ⟨copied', t, ht⟩ := edit_possible law hok' hedit
    have hstep : st.step store (.clean s copied') = some t := by simpa only [step, if_pos hs] using ht
    exact ⟨_, t, hstep, hsame _ t hstep rfl⟩
  | disconnectIf cond copied =>
    have hedit := hplain
    simp only [step] at hedit
    obtain ⟨copied', t, ht⟩ := edit_possible law hok hedit
    have hstep : st.step store (.disconnectIf cond copied') = some t := by simpa only [step] using ht
    exact ⟨_, t, hstep, hsame _ t hstep rfl⟩
  | disconnectGroup gid copied =>
    have hedit := hplain
    simp only [step] at hedit
    obtain ⟨copied', t, ht⟩ := edit_possible law hok hedit
    have hstep : st.step store (.disconnectGroup gid copied') = some t := by simpa only [step] using ht
    exact ⟨_, t, hstep, hsame _ t hstep rfl⟩
  | disconnectAll copied =>
    have hedit := hplain
    simp only [step] at hedit
    obtain ⟨copied', t, ht⟩ := edit_possible law hok hedit
    have hstep : st.step store (.disconnectAll copied') = some t := by simpa only [step] using ht
    exact ⟨_, t, hstep, hsame _ t hstep rfl⟩
  | block s =>
    have hs : s < st.nextSlot := by
      by_contra hs
      exact absurd hplain (by simp [step, plain, hs])
    have hstep : st.step store (.block s) =
        some ((st.setSlot s { st.slots s with blocked := true }).log (.blocked s)) := by
      simp only [step, if_pos hs]
    exact ⟨_, _, hstep, hsame _ _ hstep rfl⟩
  | unblock s =>
    have hs : s < st.nextSlot := by
      by_contra hs
      exact absurd hplain (by simp [step, plain, hs])
    have hstep : st.step store (.unblock s) =
        some ((st.setSlot s { st.slots s with blocked := false }).log (.unblocked s)) := by
      simp only [step, if_pos hs]
    exact ⟨_, _, hstep, hsame _ _ hstep rfl⟩
  | blockSignal => exact ⟨.blockSignal, _, rfl, hsame .blockSignal _ rfl rfl⟩
  | unblockSignal => exact ⟨.unblockSignal, _, rfl, hsame .unblockSignal _ rfl rfl⟩
  | expire o =>
    have ho : st.gone o = false ∧ st.holders o = [] := by
      by_contra ho
      have hfail : (st.plain store).step ownValues (.expire o) = none := if_neg ho
      simp [hfail] at hplain
    have hstep : st.step store (.expire o) =
        some ({ st with gone := Function.update st.gone o true }.log (.expired o)) := by
      simp only [step, if_pos ho]
    exact ⟨_, _, hstep, hsame _ _ hstep rfl⟩
  | emit e =>
    have he : st.stages e = .idle := by
      by_contra he
      exact absurd hplain (by simp [step, plain, he])
    have hstep : st.step store (.emit e) = some (if st.block then st else st.setStage e .starting) := by
      simp only [step, if_pos he]
    exact ⟨_, _, hstep, hsame _ _ hstep rfl⟩
  | proceed e copied =>
    obtain ⟨copied', t, ht⟩ := proceed_possible law hok hplain
    exact ⟨.proceed e copied', t, ht, hsame (.proceed e copied') t ht (proceed_own ..)⟩

end State

end CodeStudy.Sigslot
