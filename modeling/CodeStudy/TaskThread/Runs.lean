import CodeStudy.TaskThread.TaskThread
import Mathlib.Data.List.Nodup

/-!
# What becomes of posted tasks

In every run each posted task is queued, picked or called, once and not before its time, and the worker does not sleep
while a task is waiting for it. Tasks of one time keep the order they were posted in as long as no two of them are in
the queue when one is picked: the heap does not keep it.
-/

namespace CodeStudy.TaskThread

/-! ### One step -/

def Worker.inHand : Worker → List TaskItem
  | .holding task => [task]
  | _ => []

def Worker.IsWaiting : Worker → Prop
  | .waiting | .waitingUntil _ => True
  | _ => False

/-- The worker waits, and longer than it should for a queue. -/
def Worker.Oversleeps (queue : List TaskItem) : Worker → Prop
  | .waiting => queue ≠ []
  | .waitingUntil time => ∃ item ∈ queue, item.execTime < time
  | _ => False

theorem Worker.Oversleeps.isWaiting {queue : List TaskItem} {worker : Worker} (h : worker.Oversleeps queue) :
    worker.IsWaiting := by
  cases worker with
  | waiting | waitingUntil => trivial
  | looping | locking | holding | running | ended => exact h

/-- A step that neither posts, picks nor calls a task. It does not send the worker to sleep, and it takes back no
notification unless it wakes the worker. -/
structure Quiet (s s' : State) : Prop where
  queue : s'.queue = s.queue
  posted : s'.posted = s.posted
  picks : s'.picks = s.picks
  runs : s'.runs = s.runs
  inHand : s'.worker.inHand = s.worker.inHand
  clock : s.clock ≤ s'.clock
  waits : s'.worker.IsWaiting → s'.worker = s.worker ∧
    ∀ thread sync, s.posters thread = .notifying sync → s'.posters thread = .notifying sync

namespace State

theorem notified_eq (s : State) : s.notified = { s with worker := s.notified.worker } := by
  unfold notified
  split <;> rfl

theorem not_isWaiting_notified (s : State) : ¬ s.notified.worker.IsWaiting := by
  unfold notified
  cases hworker : s.worker with
  | waiting | waitingUntil => exact not_false
  | looping | locking | holding | running | ended => simp only [hworker, Worker.IsWaiting, not_false_eq_true]

theorem inHand_notified (s : State) : s.notified.worker.inHand = s.worker.inHand := by
  unfold notified
  cases hworker : s.worker with
  | waiting | waitingUntil => rfl
  | looping | locking | holding | running | ended => simp only [hworker, Worker.inHand]

/-- Waking the worker, and whatever becomes of those who post. -/
theorem quiet_notified (s : State) (posters : Nat → Poster) : Quiet s { s.notified with posters } := by
  rw [notified_eq]
  exact ⟨rfl, rfl, rfl, rfl, s.inHand_notified, le_rfl, fun h => absurd h s.not_isWaiting_notified⟩

/-- What a thread does that neither notifies nor takes the mutex. -/
theorem quiet_setPoster {s : State} {thread : Nat} {poster : Poster}
    (h : ∀ sync, s.posters thread ≠ .notifying sync) : Quiet s (s.setPoster thread poster) := by
  refine ⟨rfl, rfl, rfl, rfl, rfl, le_rfl, fun _ => ⟨rfl, fun other sync hother => ?_⟩⟩
  have hne : other ≠ thread := by
    rintro rfl
    exact h sync hother
  exact (Function.update_of_ne hne poster s.posters).trans hother

end State

variable {heap : HeapAlgorithm TaskItem.execTime}

/-- What a step can do to the tasks. -/
theorem step_cases {s s' : State} {a : Action} (h : step heap s a = some s') :
    Quiet s s' ∨
    (∃ execTime thread sync, s' = (emplaceItem heap s execTime).setPoster thread (.notifying sync)) ∨
    (a = .lock ∧ s.worker = .locking ∧ s' = lockedPart heap s) ∨
    ∃ task, s.worker = .holding task ∧ s' = { s with worker := .running task, runs := s.runs ++ [(task, s.clock)] } := by
  cases a with
  | tick now =>
      simp only [step] at h
      split_ifs at h with hle
      cases h
      exact .inl ⟨rfl, rfl, rfl, rfl, rfl, hle, fun _ => ⟨rfl, fun _ _ => id⟩⟩
  | postDelayedTask thread delayMs =>
      simp only [step] at h
      split at h
      · rename_i hposter
        cases h
        exact .inl (State.quiet_setPoster (by rw [hposter]; exact nofun))
      · cases h
  | emplace thread =>
      simp only [step] at h
      split at h
      · cases h
        exact .inr (.inl ⟨_, thread, none, rfl⟩)
      · cases h
  | postTaskSync thread =>
      simp only [step] at h
      split at h
      · cases h
        exact .inr (.inl ⟨_, thread, _, rfl⟩)
      · cases h
  | notify thread =>
      simp only [step] at h
      split at h
      · cases h
        exact .inl (s.quiet_notified _)
      · cases h
        exact .inl (s.quiet_notified _)
      · cases h
  | get thread =>
      simp only [step] at h
      split at h
      · rename_i hposter
        split_ifs at h
        cases h
        exact .inl (State.quiet_setPoster (by rw [hposter]; exact nofun))
      · cases h
  | stop =>
      cases h
      exact .inl ⟨rfl, rfl, rfl, rfl, rfl, le_rfl, fun _ => ⟨rfl, fun _ _ => id⟩⟩
  | notifyAll =>
      cases h
      exact .inl (s.quiet_notified s.notified.posters)
  | loop =>
      simp only [step] at h
      split_ifs at h with hworker hrunning
      · cases h
        exact .inl ⟨rfl, rfl, rfl, rfl, by rw [hworker]; rfl, le_rfl, nofun⟩
      · cases h
        exact .inl ⟨rfl, rfl, rfl, rfl, by rw [hworker]; rfl, le_rfl, nofun⟩
  | lock =>
      simp only [step] at h
      split_ifs at h with hworker
      cases h
      exact .inr (.inr (.inl ⟨rfl, hworker, rfl⟩))
  | wake =>
      simp only [step] at h
      split at h
      · cases h
        exact .inl (s.quiet_notified s.notified.posters)
      · cases h
        exact .inl (s.quiet_notified s.notified.posters)
      · cases h
  | call =>
      simp only [step] at h
      split at h
      · rename_i task hworker
        cases h
        exact .inr (.inr (.inr ⟨task, hworker, rfl⟩))
      · cases h
  | finish =>
      simp only [step] at h
      split at h
      · rename_i task hworker
        cases h
        exact .inl ⟨rfl, rfl, rfl, rfl, by rw [hworker]; rfl, le_rfl, nofun⟩
      · cases h

/-! ### Whatever the heap does with equal times -/

/-- The invariant of all runs. -/
structure Safe (heap : HeapAlgorithm TaskItem.execTime) (s : State) : Prop where
  valid : heap.Valid s.queue
  numbered : s.posted.map TaskItem.func = List.range s.posted.length
  accounted : (s.queue ++ s.picks.map Prod.fst).Perm s.posted
  picked : s.picks.map Prod.fst = s.runs.map Prod.fst ++ s.worker.inHand
  due : ∀ task ∈ s.worker.inHand, task.execTime ≤ s.clock
  notEarly : ∀ r ∈ s.runs, r.1.execTime ≤ r.2
  earliest : ∀ p ∈ s.picks, ∀ item ∈ p.2, p.1.execTime ≤ item.execTime
  awake : s.worker.Oversleeps s.queue → ∃ thread sync, s.posters thread = .notifying sync

namespace Safe

theorem start (heap : HeapAlgorithm TaskItem.execTime) (clock : Int) : Safe heap (.start clock) where
  valid := heap.valid_nil
  numbered := rfl
  accounted := .refl _
  picked := rfl
  due := nofun
  notEarly := nofun
  earliest := nofun
  awake := nofun

variable {s s' : State} (h : Safe heap s)

include h

theorem quiet (hq : Quiet s s') : Safe heap s' where
  valid := hq.queue ▸ h.valid
  numbered := hq.posted ▸ h.numbered
  accounted := by
    rw [hq.queue, hq.picks, hq.posted]
    exact h.accounted
  picked := by
    rw [hq.picks, hq.runs, hq.inHand]
    exact h.picked
  due := by
    rw [hq.inHand]
    exact fun task htask => (h.due task htask).trans hq.clock
  notEarly := hq.runs ▸ h.notEarly
  earliest := hq.picks ▸ h.earliest
  awake hsleeps := by
    obtain ⟨hworker, hposters⟩ := hq.waits hsleeps.isWaiting
    rw [hworker, hq.queue] at hsleeps
    obtain ⟨thread, sync, hthread⟩ := h.awake hsleeps
    exact ⟨thread, sync, hposters thread sync hthread⟩

/-- A posted task is in the queue, and its thread is about to notify the worker. -/
theorem emplaceItem (execTime : Int) (thread : Nat) (sync : Option Nat) :
    Safe heap ((emplaceItem heap s execTime).setPoster thread (.notifying sync)) where
  valid := heap.valid_push _ _ h.valid
  numbered := by
    show (s.posted ++ [_]).map TaskItem.func = List.range (s.posted ++ [_]).length
    rw [List.map_append, h.numbered, List.length_append, List.length_singleton, List.range_succ]
    rfl
  accounted := by
    have hpush := heap.push_perm s.queue ⟨s.posted.length, execTime, 0⟩ h.valid
    refine (hpush.append_right _).trans ?_
    rw [List.cons_append]
    exact (h.accounted.cons _).trans (List.perm_append_singleton _ _).symm
  picked := h.picked
  due := h.due
  notEarly := h.notEarly
  earliest := h.earliest
  awake _ := ⟨thread, sync, Function.update_self thread _ _⟩

/-- The worker picks the front of the queue if it is due, and otherwise sleeps no longer than until then. -/
theorem lockedPart (hworker : s.worker = .locking) : Safe heap (lockedPart heap s) := by
  have hpicked : s.picks.map Prod.fst = s.runs.map Prod.fst ++ [] := by
    rw [h.picked, hworker]
    rfl
  have haccounted := h.accounted
  have hvalid := h.valid
  unfold TaskThread.lockedPart
  split
  · rename_i hqueue
    exact ⟨h.valid, h.numbered, h.accounted, hpicked, nofun, h.notEarly, h.earliest, fun hsleeps => absurd hqueue hsleeps⟩
  · rename_i nextTask others hqueue
    rw [hqueue] at hvalid haccounted
    have hfront := heap.front_le nextTask others hvalid
    split_ifs with htime
    · refine ⟨h.valid, h.numbered, h.accounted, hpicked, nofun, h.notEarly, h.earliest, ?_⟩
      rintro ⟨item, hitem, hlt⟩
      have hitem : item ∈ nextTask :: others := hqueue ▸ hitem
      rcases List.mem_cons.mp hitem with rfl | hitem
      · exact absurd hlt (lt_irrefl _)
      · exact absurd hlt (not_lt.mpr (hfront item hitem))
    · refine ⟨heap.valid_pop _ _ hvalid, h.numbered, ?_, ?_, ?_, h.notEarly, ?_, nofun⟩
      · refine List.Perm.trans ?_ haccounted
        have hpop := heap.pop_perm nextTask others hvalid
        rw [List.map_append, ← List.append_assoc]
        exact ((hpop.append_right _).append_right _).trans (List.perm_append_singleton nextTask _)
      · rw [List.map_append, hpicked, List.append_nil]
        rfl
      · exact List.forall_mem_singleton.mpr (not_lt.mp htime)
      · rw [List.forall_mem_append, List.forall_mem_singleton]
        exact ⟨h.earliest, hfront⟩

theorem call {task : TaskItem} (hworker : s.worker = .holding task) :
    Safe heap { s with worker := .running task, runs := s.runs ++ [(task, s.clock)] } := by
  have hpicked := h.picked
  have hdue := h.due
  rw [hworker] at hpicked hdue
  refine ⟨h.valid, h.numbered, h.accounted, ?_, nofun, ?_, h.earliest, nofun⟩
  · rw [hpicked, List.map_append]
    exact (List.append_nil _).symm
  · rw [List.forall_mem_append]
    exact ⟨h.notEarly, List.forall_mem_singleton.mpr (hdue task (List.mem_singleton_self task))⟩

theorem step {a : Action} (hstep : step heap s a = some s') : Safe heap s' := by
  rcases step_cases hstep with hq | ⟨execTime, thread, sync, rfl⟩ | ⟨-, hworker, rfl⟩ | ⟨task, hworker, rfl⟩
  · exact h.quiet hq
  · exact h.emplaceItem execTime thread sync
  · exact h.lockedPart hworker
  · exact h.call hworker

end Safe

/-- What is true of the tasks of every run. -/
structure TasksSafe (s : State) : Prop where
  once : (s.runs.map fun r => r.1.func).Nodup
  notEarly : ∀ r ∈ s.runs, r.1.execTime ≤ r.2
  notLost : (s.queue ++ s.worker.inHand ++ s.runs.map Prod.fst).Perm s.posted
  awake : s.worker.Oversleeps s.queue → ∃ thread sync, s.posters thread = .notifying sync
  earliest : ∀ p ∈ s.picks, ∀ item ∈ p.2, p.1.execTime ≤ item.execTime

namespace Safe

variable {s s' : State} (h : Safe heap s)

include h

theorem nodup_picks : ((s.picks.map Prod.fst).map TaskItem.func).Nodup := by
  have hposted : (s.posted.map TaskItem.func).Nodup := by
    rw [h.numbered]
    exact List.nodup_range
  have hall := (h.accounted.map TaskItem.func).nodup_iff.mpr hposted
  rw [List.map_append] at hall
  exact hall.of_append_right

theorem tasksSafe : TasksSafe s where
  once := by
    have hpicks := h.nodup_picks
    rw [h.picked, List.map_append, List.map_map] at hpicks
    exact hpicks.of_append_left
  notEarly := h.notEarly
  notLost := by
    have haccounted := h.accounted
    rw [h.picked] at haccounted
    refine List.Perm.trans ?_ haccounted
    rw [List.append_assoc]
    exact List.perm_append_comm.append_left _
  awake := h.awake
  earliest := h.earliest

theorem run {actions : List Action} (hrun : run heap s actions = some s') : Safe heap s' := by
  induction actions generalizing s with
  | nil =>
      cases hrun
      exact h
  | cons a actions ih =>
      obtain ⟨s₁, hstep, hrest⟩ := Option.bind_eq_some_iff.mp hrun
      exact ih (h.step hstep) hrest

end Safe

/-- In every run each posted task is queued, picked or called, once and not before its time, the worker does not sleep
while a task waits for it, and it picks no task behind another's time. -/
theorem tasksSafe_of_run {clock : Int} {actions : List Action} {s : State} (h : run heap (.start clock) actions = some s) :
    TasksSafe s :=
  ((Safe.start heap clock).run h).tasksSafe

/-! ### The order of equal times -/

/-- Tasks of one time are in the order of their postings. -/
def InTurn (task task' : TaskItem) : Prop := task.execTime = task'.execTime → task.func < task'.func

instance (task task' : TaskItem) : Decidable (InTurn task task') := inferInstanceAs (Decidable (_ → _))

/-- If a task is picked now, no other of its time is in the queue. -/
def Undisputed (s : State) : Prop :=
  ∀ nextTask ∈ s.queue.head?, nextTask.execTime ≤ s.clock → ∀ item ∈ s.queue.tail, item.execTime ≠ nextTask.execTime

instance (s : State) : Decidable (Undisputed s) := inferInstanceAs (Decidable (∀ nextTask ∈ s.queue.head?, _))

/-- The invariant of runs without disputes. -/
structure InOrder (s : State) : Prop where
  picks : (s.picks.map Prod.fst).Pairwise InTurn
  behind : ∀ task ∈ s.picks.map Prod.fst, ∀ item ∈ s.queue, InTurn task item

/-- All that is wanted of the tasks. -/
structure TasksKept (s : State) : Prop extends TasksSafe s where
  inOrder : (s.runs.map Prod.fst).Pairwise InTurn

namespace InOrder

theorem start (clock : Int) : InOrder (.start clock) := ⟨.nil, nofun⟩

variable {s s' : State} (h : InOrder s)

include h

theorem emplaceItem (hsafe : Safe heap s) (execTime : Int) (thread : Nat) (poster : Poster) :
    InOrder ((emplaceItem heap s execTime).setPoster thread poster) := by
  refine ⟨h.picks, fun task htask item hitem => ?_⟩
  have hpush := heap.push_perm s.queue ⟨s.posted.length, execTime, 0⟩ hsafe.valid
  rcases List.mem_cons.mp (hpush.subset hitem) with rfl | hitem
  · -- a picked task was posted before
    intro _
    have hposted : task ∈ s.posted := hsafe.accounted.subset (List.mem_append_right _ htask)
    have hfunc : task.func ∈ List.range s.posted.length := hsafe.numbered ▸ List.mem_map_of_mem hposted
    exact List.mem_range.mp hfunc
  · exact h.behind task htask item hitem

theorem lockedPart (hsafe : Safe heap s) (hundisputed : Undisputed s) : InOrder (lockedPart heap s) := by
  have hbehind := h.behind
  have hvalid := hsafe.valid
  unfold Undisputed at hundisputed
  unfold TaskThread.lockedPart
  split
  · exact ⟨h.picks, h.behind⟩
  · rename_i nextTask others hqueue
    rw [hqueue] at hbehind hundisputed hvalid
    split_ifs with htime
    · exact ⟨h.picks, h.behind⟩
    · have hsame := hundisputed nextTask rfl (not_lt.mp htime)
      have hpop := heap.pop_perm nextTask others hvalid
      refine ⟨?_, fun task htask item hitem => ?_⟩
      · rw [List.map_append, List.pairwise_append]
        refine ⟨h.picks, List.pairwise_singleton _ _, fun task htask item hitem => ?_⟩
        cases List.mem_singleton.mp hitem
        exact hbehind task htask nextTask List.mem_cons_self
      · rw [List.map_append, List.mem_append] at htask
        have hothers := hpop.subset hitem
        rcases htask with htask | htask
        · exact hbehind task htask item (List.mem_cons_of_mem _ hothers)
        · cases List.mem_singleton.mp htask
          exact fun heq => absurd heq.symm (hsame item hothers)

theorem step {a : Action} (hsafe : Safe heap s) (hundisputed : a = .lock → Undisputed s)
    (hstep : step heap s a = some s') : InOrder s' := by
  rcases step_cases hstep with hq | ⟨execTime, thread, sync, rfl⟩ | ⟨rfl, -, rfl⟩ | ⟨task, -, rfl⟩
  · exact ⟨hq.picks ▸ h.picks, by rw [hq.picks, hq.queue]; exact h.behind⟩
  · exact h.emplaceItem hsafe execTime thread _
  · exact h.lockedPart hsafe (hundisputed rfl)
  · exact ⟨h.picks, h.behind⟩

end InOrder

/-! ### The runs of an object -/

/-- The worker does not take the mutex before the constructor has returned, nor picks a task while another of its time
is queued, and no post moves the vector while the worker is in `wait_until`. -/
def Undisturbed (o : Object) : Event → Prop
  | .thread .lock => o.missing = [] ∧ Undisputed o.state
  | .thread (.emplace _) | .thread (.postTaskSync _) => o.state.queue.length = o.capacity → ¬ o.inWait
  | _ => True

instance (o : Object) : (e : Event) → Decidable (Undisturbed o e)
  | .thread .lock => inferInstanceAs (Decidable (_ ∧ _))
  | .thread (.emplace _) | .thread (.postTaskSync _) => inferInstanceAs (Decidable (_ → _))
  | .construct | .returned | .thread (.tick _) | .thread (.postDelayedTask _ _) | .thread (.notify _) | .thread (.get _)
  | .thread .stop | .thread .notifyAll | .thread .loop | .thread .wake | .thread .call | .thread .finish => isTrue trivial

/-- All steps of a run are undisturbed. -/
def UndisturbedRun (heap : HeapAlgorithm TaskItem.execTime) (grow : Nat → Nat) (o : Object) : List Event → Prop
  | [] => True
  | e :: events =>
      Undisturbed o e ∧ ∀ o' ∈ (o.step heap grow e).bind Except.toOption, UndisturbedRun heap grow o' events

instance decidableUndisturbedRun (grow : Nat → Nat) (o : Object) :
    (events : List Event) → Decidable (UndisturbedRun heap grow o events)
  | [] => isTrue trivial
  | e :: events =>
      have (o' : Object) : Decidable (UndisturbedRun heap grow o' events) := decidableUndisturbedRun grow o' events
      inferInstanceAs (Decidable (_ ∧ ∀ o' ∈ (o.step heap grow e).bind Except.toOption, _))

namespace Object

/-- The invariant of undisturbed runs. -/
structure Sound (heap : HeapAlgorithm TaskItem.execTime) (o : Object) : Prop where
  safe : Safe heap o.state
  inOrder : InOrder o.state
  unmoved : o.moved = false

theorem sound_start (heap : HeapAlgorithm TaskItem.execTime) (clock : Int) : Sound heap (.start clock) :=
  ⟨.start heap clock, .start clock, rfl⟩

variable {grow : Nat → Nat} {o : Object} {result : Except Fault Object}

namespace Sound

variable (h : Sound heap o)

include h

/-- The steps of the threads keep the invariant, whatever else is known of the object. -/
theorem thread {a : Action} {state : State} (hundisputed : a = .lock → Undisputed o.state)
    (hstep : TaskThread.step heap o.state a = some state) (missing : List Member) (capacity : Nat)
    (inWait : Bool) : Sound heap ⟨state, missing, capacity, inWait, false⟩ :=
  ⟨h.safe.step hstep, h.inOrder.step h.safe hundisputed hstep, rfl⟩

theorem wholeStep {a : Action} {o' : Object} (hundisputed : a = .lock → Undisputed o.state)
    (hroom : a.emplaces → o.state.queue.length = o.capacity → ¬ o.inWait)
    (hstep : o.wholeStep heap grow a = some o') : Sound heap o' := by
  unfold Object.wholeStep at hstep
  split at hstep
  · cases hstep
  obtain ⟨state, hstate, rfl⟩ := Option.map_eq_some_iff.mp hstep
  have hstays : (o.moved || (a.emplaces && o.state.queue.length == o.capacity && o.inWait)) = false := by
    rw [h.unmoved, Bool.false_or, Bool.eq_false_iff]
    intro hall
    rw [Bool.and_eq_true, Bool.and_eq_true, beq_iff_eq] at hall
    exact hroom hall.1.1 hall.1.2 hall.2
  change Sound heap ⟨state, o.missing, _, _, o.moved || (a.emplaces && o.state.queue.length == o.capacity && o.inWait)⟩
  rw [hstays]
  exact h.thread hundisputed hstate _ _ _

theorem earlyStep {a : Action} (hlock : a ≠ .lock) (hstep : o.earlyStep heap a = some result) :
    ∃ o', result = .ok o' ∧ Sound heap o' := by
  have hundisputed (ha : a = .lock) : Undisputed o.state := absurd ha hlock
  have hmoved := h.unmoved
  cases a with
  | tick now =>
      obtain ⟨state, hstate, rfl⟩ := Option.map_eq_some_iff.mp hstep
      rw [hmoved]
      exact ⟨_, rfl, h.thread hundisputed hstate _ _ _⟩
  | loop =>
      obtain ⟨state, hstate, rfl⟩ := Option.map_eq_some_iff.mp hstep
      rw [hmoved]
      exact ⟨_, rfl, h.thread hundisputed hstate _ _ _⟩
  | lock => exact absurd rfl hlock
  | postDelayedTask | emplace | postTaskSync | notify | get | stop | notifyAll | wake | call | finish => cases hstep

theorem step {e : Event} (hundisturbed : Undisturbed o e) (hstep : o.step heap grow e = some result) :
    ∃ o', result = .ok o' ∧ Sound heap o' := by
  cases e with
  | construct =>
      rw [Object.step] at hstep
      split at hstep
      · cases hstep
      · cases hstep
        exact ⟨_, rfl, h.safe, h.inOrder, h.unmoved⟩
  | thread a =>
      rw [Object.step] at hstep
      have hundisputed (ha : a = .lock) : o.missing = [] ∧ Undisputed o.state := by
        rw [ha] at hundisturbed
        exact hundisturbed
      have hroom (ha : a.emplaces) (hfull : o.state.queue.length = o.capacity) : ¬ o.inWait := by
        cases a with
        | emplace | postTaskSync => exact hundisturbed hfull
        | tick | postDelayedTask | notify | get | stop | notifyAll | loop | lock | wake | call | finish => cases ha
      by_cases hmissing : o.missing = []
      · rw [if_pos hmissing] at hstep
        obtain ⟨o', hwhole, rfl⟩ := Option.map_eq_some_iff.mp hstep
        exact ⟨o', rfl, h.wholeStep (fun ha => (hundisputed ha).2) hroom hwhole⟩
      · rw [if_neg hmissing] at hstep
        exact h.earlyStep (fun ha => hmissing (hundisputed ha).1) hstep
  | returned =>
      have hmoved := h.unmoved
      rw [Object.step] at hstep
      split at hstep
      · rw [hmoved, if_neg Bool.false_ne_true] at hstep
        obtain rfl := Option.some.inj hstep
        exact ⟨_, rfl, h.safe, h.inOrder, rfl⟩
      · cases hstep

theorem run {events : List Event} (hundisturbed : UndisturbedRun heap grow o events)
    (hrun : o.run heap grow events = some result) : ∃ o', result = .ok o' ∧ Sound heap o' := by
  induction events generalizing o with
  | nil =>
      cases hrun
      exact ⟨o, rfl, h⟩
  | cons e events ih =>
      rw [Object.run] at hrun
      rcases hstep : o.step heap grow e with _ | fault | o'
      · rw [hstep] at hrun
        cases hrun
      · obtain ⟨o', hresult, -⟩ := h.step hundisturbed.1 hstep
        cases hresult
      · obtain ⟨o'', hresult, hsound⟩ := h.step hundisturbed.1 hstep
        obtain rfl := Except.ok.inj hresult
        rw [hstep] at hrun
        exact ih hsound (hundisturbed.2 _ (by rw [hstep]; rfl)) hrun

end Sound

end Object

/-- With any heap and any growth of its vector, in every run in which no task is picked while another of its time is
queued, and none of what the worker uses is missing: all that is wanted of the tasks is true in every state. -/
theorem tasksKept_of_undisturbedRun {grow : Nat → Nat} {clock : Int} {events : List Event}
    {result : Except Fault Object} (hrun : (Object.start clock).run heap grow events = some result)
    (hundisturbed : UndisturbedRun heap grow (.start clock) events) : ∃ o, result = .ok o ∧ TasksKept o.state := by
  obtain ⟨o, hresult, hsound⟩ := (Object.sound_start heap clock).run hundisturbed hrun
  have hpicks := hsound.inOrder.picks
  rw [hsound.safe.picked] at hpicks
  exact ⟨o, hresult, hsound.safe.tasksSafe, (List.pairwise_append.mp hpicks).1⟩

/-- A vector that doubles its room. -/
def doubled (n : Nat) : Nat := max 1 (2 * n)

def constructed : List Event := [.construct, .thread .loop, .construct, .construct]

/-- One thread posts a task for now and one for five milliseconds later, and another thread posts a task for now while
the worker waits for the second of them. -/
def threePosts : List Event :=
  constructed ++
    [.postTask 0, .emplace 0, .notify 0, .postDelayedTask 0 5, .emplace 0, .notify 0, .lock, .call, .finish, .loop, .lock,
      .postTask 1, .emplace 1, .notify 1].map .thread ++ [.returned] ++
    [.loop, .lock, .call, .finish, .loop, .lock, .tick 5000000, .wake].map .thread ++ [.returned] ++
    [.loop, .lock, .call].map .thread

theorem tasksKept_threePosts :
    ∃ o, (Object.start 0).run (Heap.binary TaskItem.execTime) doubled threePosts = some (.ok o) ∧
      o.state.runs.map (fun r => r.1.func) = [0, 2, 1] ∧ TasksKept o.state := by
  have hundisturbed : UndisturbedRun (Heap.binary TaskItem.execTime) doubled (.start 0) threePosts := by decide
  have hruns : ((Object.start 0).run (Heap.binary TaskItem.execTime) doubled threePosts).map
      (fun result => result.toOption.map fun o => o.state.runs.map fun r => r.1.func) = some (some [0, 2, 1]) := by decide
  obtain ⟨result, hrun, hfuncs⟩ := Option.map_eq_some_iff.mp hruns
  obtain ⟨o, rfl, hkept⟩ := tasksKept_of_undisturbedRun hrun hundisturbed
  exact ⟨o, hrun, Option.some.inj hfuncs, hkept⟩

/-- Four threads post a task each while the clock shows one time. -/
def fourPosts : List Event :=
  ((List.range 4).flatMap fun thread => [.postTask thread, .emplace thread, .notify thread]).map .thread

def fourRuns : List Event := (List.replicate 4 [.lock, .call, .finish, .loop]).flatten.map .thread

/-- The binary heap puts the third of them in front when the first is picked. -/
theorem not_tasksKept_fourPosts :
    ∃ o, (Object.start 0).run (Heap.binary TaskItem.execTime) doubled (constructed ++ fourPosts ++ fourRuns) =
        some (.ok o) ∧
      o.state.runs.map (fun r => (r.1.func, r.1.execTime)) = [(0, 0), (2, 0), (1, 0), (3, 0)] ∧ ¬ TasksKept o.state := by
  have hruns : ((Object.start 0).run (Heap.binary TaskItem.execTime) doubled (constructed ++ fourPosts ++ fourRuns)).map
      (fun result => result.toOption.map fun o => o.state.runs) =
        some (some [(⟨0, 0, 0⟩, 0), (⟨2, 0, 0⟩, 0), (⟨1, 0, 0⟩, 0), (⟨3, 0, 0⟩, 0)]) := by decide
  obtain ⟨result, hrun, hs⟩ := Option.map_eq_some_iff.mp hruns
  cases result with
  | error fault => cases hs
  | ok o =>
      have hs : o.state.runs = _ := Option.some.inj hs
      refine ⟨o, hrun, by rw [hs]; rfl, fun h => ?_⟩
      have hinOrder := h.inOrder
      rw [hs] at hinOrder
      exact absurd hinOrder (by decide)

end CodeStudy.TaskThread
