import CodeStudy.TaskThread.Runs

/-!
# Stopping the thread, and waiting for a task

The destructor clears `running_` and notifies the worker without the mutex, and joins it. The tasks that are queued
then are not run, also those that somebody waits for.
-/

namespace CodeStudy.TaskThread

variable {heap : HeapAlgorithm TaskItem.execTime} {s s' s'' : State}

/-! ### After `running_` was cleared -/

/-- What only the worker does. -/
def Action.ofWorker : Action → Bool
  | .loop | .lock | .wake | .call | .finish => true
  | .tick _ | .postDelayedTask _ _ | .emplace _ | .postTaskSync _ | .notify _ | .get _ | .stop | .notifyAll => false

/-- The steps that a worker has left when it is not to go on. -/
def Worker.stepsLeft : Worker → Nat
  | .ended => 0
  | .looping => 1
  | .waiting | .waitingUntil _ | .running _ => 2
  | .holding _ => 3
  | .locking => 4

def Worker.picksLeft : Worker → Nat
  | .locking => 1
  | .looping | .waiting | .waitingUntil _ | .holding _ | .running _ | .ended => 0

def Worker.callsLeft : Worker → Nat
  | .locking | .holding _ => 1
  | .looping | .waiting | .waitingUntil _ | .running _ | .ended => 0

theorem Worker.stepsLeft_le (worker : Worker) : worker.stepsLeft ≤ 4 := by
  cases worker <;> simp [stepsLeft]

theorem Worker.picksLeft_le (worker : Worker) : worker.picksLeft ≤ 1 := by
  cases worker <;> simp [picksLeft]

theorem Worker.callsLeft_le (worker : Worker) : worker.callsLeft ≤ 1 := by
  cases worker <;> simp [callsLeft]

/-- What becomes of a thread that is not to go on, with so many steps of the worker. -/
structure Stopped (steps : Nat) (s s' : State) : Prop where
  running : s'.running = false
  steps : steps + s'.worker.stepsLeft ≤ s.worker.stepsLeft
  picks : s'.picks.length + s'.worker.picksLeft ≤ s.picks.length + s.worker.picksLeft
  runs : s'.runs.length + s'.worker.callsLeft ≤ s.runs.length + s.worker.callsLeft
  locks : s'.worker = .locking → s.worker = .locking
  waits : s'.worker.IsWaiting → s.worker.IsWaiting ∨ s.worker = .locking

namespace Stopped

theorem trans {n n' : Nat} (h : Stopped n s s') (h' : Stopped n' s' s'') : Stopped (n + n') s s'' where
  running := h'.running
  steps := by
    have hfirst := h.steps
    have hsecond := h'.steps
    omega
  picks := h'.picks.trans h.picks
  runs := h'.runs.trans h.runs
  locks hlocking := h.locks (h'.locks hlocking)
  waits hwaiting := by
    rcases h'.waits hwaiting with hwaits | hlocks
    · exact h.waits hwaits
    · exact .inr (h.locks hlocks)

theorem unchanged (hrunning : s'.running = false) (hworker : s'.worker = s.worker) (hpicks : s'.picks = s.picks)
    (hruns : s'.runs = s.runs) : Stopped 0 s s' where
  running := hrunning
  steps := by rw [hworker, Nat.zero_add]
  picks := by rw [hworker, hpicks]
  runs := by rw [hworker, hruns]
  locks hlocking := hworker ▸ hlocking
  waits hwaiting := .inl (hworker ▸ hwaiting)

/-- A worker that wakes reads `running_` next, by its own step or by a notification. -/
theorem woken {n : Nat} (hn : n ≤ 1) (hrunning : s.running = false) (hwaiting : s.worker.IsWaiting)
    (posters : Nat → Poster) : Stopped n s { s with worker := .looping, posters } := by
  cases hworker : s.worker with
  | waiting | waitingUntil =>
    constructor
    · exact hrunning
    · simpa [hworker, Worker.stepsLeft] using hn
    · simp [hworker, Worker.picksLeft]
    · simp [hworker, Worker.callsLeft]
    · simp
    · simp [Worker.IsWaiting]
  | looping | locking | holding | running | ended => simp [hworker, Worker.IsWaiting] at hwaiting

theorem notified (hrunning : s.running = false) (posters : Nat → Poster) :
    Stopped 0 s { s.notified with posters } := by
  cases hworker : s.worker with
  | waiting | waitingUntil =>
    have hwaiting : s.worker.IsWaiting := by simp [hworker, Worker.IsWaiting]
    simpa [State.notified, hworker] using woken (Nat.zero_le 1) hrunning hwaiting posters
  | looping | locking | holding | running | ended =>
    apply unchanged <;> simp [State.notified, hworker, hrunning]

theorem lockedPart (hrunning : s.running = false) (hworker : s.worker = .locking) :
    Stopped 1 s (lockedPart heap s) := by
  unfold TaskThread.lockedPart
  split
  · constructor <;> simp [hrunning, hworker, Worker.stepsLeft, Worker.picksLeft, Worker.callsLeft]
  · split_ifs
    · constructor <;> simp [hrunning, hworker, Worker.stepsLeft, Worker.picksLeft, Worker.callsLeft]
    · constructor <;> simp [hrunning, hworker, Worker.stepsLeft, Worker.picksLeft, Worker.callsLeft]

theorem step (hrunning : s.running = false) {a : Action} (hstep : step heap s a = some s') :
    Stopped (if a.ofWorker then 1 else 0) s s' := by
  cases a with
  | tick now =>
    simp only [TaskThread.step] at hstep
    split_ifs at hstep
    cases hstep
    exact unchanged hrunning rfl rfl rfl
  | postDelayedTask thread delayMs =>
    simp only [TaskThread.step] at hstep
    split at hstep
    · cases hstep
      exact unchanged hrunning rfl rfl rfl
    · cases hstep
  | emplace thread =>
    simp only [TaskThread.step] at hstep
    split at hstep
    · cases hstep
      exact unchanged hrunning rfl rfl rfl
    · cases hstep
  | postTaskSync thread =>
    simp only [TaskThread.step] at hstep
    split at hstep
    · cases hstep
      exact unchanged hrunning rfl rfl rfl
    · cases hstep
  | notify thread =>
    simp only [TaskThread.step] at hstep
    split at hstep
    · cases hstep
      exact notified hrunning _
    · cases hstep
      exact notified hrunning _
    · cases hstep
  | get thread =>
    simp only [TaskThread.step] at hstep
    split at hstep
    · split_ifs at hstep
      cases hstep
      exact unchanged hrunning rfl rfl rfl
    · cases hstep
  | stop =>
    cases hstep
    exact unchanged rfl rfl rfl rfl
  | notifyAll =>
    cases hstep
    exact notified hrunning s.notified.posters
  | loop =>
    simp only [TaskThread.step] at hstep
    split_ifs at hstep with hworker hgoesOn
    · exact absurd (hrunning.symm.trans hgoesOn) Bool.false_ne_true
    · cases hstep
      constructor <;> simp [hrunning, hworker, Action.ofWorker, Worker.stepsLeft, Worker.picksLeft, Worker.callsLeft,
        Worker.IsWaiting]
  | lock =>
    simp only [TaskThread.step] at hstep
    split_ifs at hstep with hworker
    cases hstep
    exact lockedPart hrunning hworker
  | wake =>
    cases hworker : s.worker with
    | waiting | waitingUntil =>
      have hwaiting : s.worker.IsWaiting := by simp [hworker, Worker.IsWaiting]
      simp only [TaskThread.step, hworker, State.notified, Option.some.injEq] at hstep
      exact hstep ▸ woken le_rfl hrunning hwaiting s.posters
    | looping | locking | holding | running | ended => simp [TaskThread.step, hworker] at hstep
  | call =>
    simp only [TaskThread.step] at hstep
    split at hstep
    · rename_i task hworker
      cases hstep
      constructor <;> simp [hrunning, hworker, Action.ofWorker, Worker.stepsLeft, Worker.picksLeft, Worker.callsLeft,
        Worker.IsWaiting]
    · cases hstep
  | finish =>
    simp only [TaskThread.step] at hstep
    split at hstep
    · rename_i task hworker
      cases hstep
      constructor <;> simp [hrunning, hworker, Action.ofWorker, Worker.stepsLeft, Worker.picksLeft, Worker.callsLeft,
        Worker.IsWaiting]
    · cases hstep

theorem run {actions : List Action} (hrunning : s.running = false) (hrun : run heap s actions = some s') :
    Stopped (actions.countP Action.ofWorker) s s' := by
  induction actions generalizing s with
  | nil =>
    cases hrun
    exact unchanged hrunning rfl rfl rfl
  | cons a actions ih =>
    obtain ⟨u, hstep, hrest⟩ := Option.bind_eq_some_iff.1 hrun
    have hfirst := Stopped.step hrunning hstep
    rw [List.countP_cons, Nat.add_comm]
    exact hfirst.trans (ih hfirst.running hrest)

/-- Once the worker was notified it does not sleep again, if it has not read `running_` before that was cleared. -/
theorem not_isWaiting {actions : List Action} (hrunning : s.running = false) (hworker : s.worker ≠ .locking)
    (hnotified : Action.notifyAll ∈ actions) (hrun : TaskThread.run heap s actions = some s') :
    ¬ s'.worker.IsWaiting := by
  induction actions generalizing s with
  | nil => exact absurd hnotified List.not_mem_nil
  | cons a actions ih =>
    obtain ⟨u, hstep, hrest⟩ := Option.bind_eq_some_iff.1 hrun
    have hfirst := Stopped.step hrunning hstep
    rcases List.mem_cons.1 hnotified with rfl | hlater
    · intro hwaiting
      have hwoken : u = s.notified := (Option.some.inj hstep).symm
      rcases (Stopped.run hfirst.running hrest).waits hwaiting with hwaits | hlocks
      · rw [hwoken] at hwaits
        exact s.not_isWaiting_notified hwaits
      · exact hworker (hfirst.locks hlocks)
    · exact ih hfirst.running (fun hlocks => hworker (hfirst.locks hlocks)) hlater hrest

end Stopped

/-- A worker that neither sleeps nor has ended can take a step. -/
theorem exists_step_ofWorker (s : State) :
    s.worker = .ended ∨ s.worker.IsWaiting ∨ ∃ a, a.ofWorker = true ∧ (step heap s a).isSome := by
  cases hworker : s.worker with
  | ended => exact .inl rfl
  | waiting | waitingUntil => exact .inr (.inl trivial)
  | looping => exact .inr (.inr ⟨.loop, rfl, by simp [step, hworker]⟩)
  | locking => exact .inr (.inr ⟨.lock, rfl, by simp [step, hworker]⟩)
  | holding task => exact .inr (.inr ⟨.call, rfl, by simp [step, hworker]⟩)
  | running task => exact .inr (.inr ⟨.finish, rfl, by simp [step, hworker]⟩)

/-- After `running_` was cleared the worker takes four steps at most and calls one task at most, whatever is queued and
whoever posts. It ends after it was notified, unless it read `running_` before and sleeps since. -/
theorem stopped_run {actions : List Action} (hrunning : s.running = false) (hrun : run heap s actions = some s') :
    actions.countP Action.ofWorker ≤ 4 ∧ s'.picks.length ≤ s.picks.length + 1 ∧ s'.runs.length ≤ s.runs.length + 1 ∧
      (s'.worker = .ended ∨ s'.worker.IsWaiting ∨ ∃ a, a.ofWorker = true ∧ (step heap s' a).isSome) ∧
      (s'.worker.IsWaiting → s.worker.IsWaiting ∨ s.worker = .locking) ∧
      (s.worker ≠ .locking → Action.notifyAll ∈ actions → ¬ s'.worker.IsWaiting) := by
  have hstopped := Stopped.run hrunning hrun
  have hsteps := hstopped.steps.trans s.worker.stepsLeft_le
  have hpicks := hstopped.picks.trans (Nat.add_le_add_left s.worker.picksLeft_le _)
  have hruns := hstopped.runs.trans (Nat.add_le_add_left s.worker.callsLeft_le _)
  refine ⟨by omega, by omega, by omega, exists_step_ofWorker s', hstopped.waits, ?_⟩
  intro hworker hnotified
  exact Stopped.not_isWaiting hrunning hworker hnotified hrun

/-- The thread has picked a task when the destructor begins. -/
theorem stopped_run_holding :
    ∃ s s', run (Heap.binary TaskItem.execTime) (.start 0) [.postTask 0, .emplace 0, .notify 0, .loop, .lock, .stop] =
        some s ∧
      run (Heap.binary TaskItem.execTime) s [.notifyAll, .call, .postTaskSync 1, .finish, .loop] = some s' ∧
      s'.worker = .ended ∧ s'.runs.length ≤ s.runs.length + 1 ∧ ¬ s'.worker.IsWaiting := by
  have hfirst : (run (Heap.binary TaskItem.execTime) (.start 0)
      [.postTask 0, .emplace 0, .notify 0, .loop, .lock, .stop]).map (fun s => (s.running, s.worker)) =
      some (false, .holding ⟨0, 0, 0⟩) := by decide
  have hboth : (run (Heap.binary TaskItem.execTime) (.start 0)
      [.postTask 0, .emplace 0, .notify 0, .loop, .lock, .stop]).bind (fun s =>
        (run (Heap.binary TaskItem.execTime) s [.notifyAll, .call, .postTaskSync 1, .finish, .loop]).map State.worker) =
      some .ended := by decide
  obtain ⟨s, hrun, hs⟩ := Option.map_eq_some_iff.1 hfirst
  obtain ⟨hrunning, hworker⟩ := Prod.mk.inj hs
  rw [hrun, Option.bind_some] at hboth
  obtain ⟨s', hrun', hended⟩ := Option.map_eq_some_iff.1 hboth
  obtain ⟨-, -, hruns, -, -, hawake⟩ := stopped_run hrunning hrun'
  refine ⟨s, s', hrun, hrun', hended, hruns, hawake ?_ (List.mem_cons_self ..)⟩
  rw [hworker]
  exact Worker.noConfusion

/-- The notification of the destructor can come before the worker waits. -/
example : (run (Heap.binary TaskItem.execTime) (.start 0) [.loop, .stop, .notifyAll, .lock]).map
    (fun s => (s.running, s.worker)) = some (false, .waiting) := by decide

/-! ### Waiting for a task -/

/-- The function whose result a thread is to wait for. -/
def Poster.sync? : Poster → Option Nat
  | .notifying sync => sync
  | .awaiting func => some func
  | .idle | .posting _ => none

def Worker.inCall : Worker → List Nat
  | .running task => [task.func]
  | .looping | .locking | .waiting | .waitingUntil _ | .holding _ | .ended => []

/-- The calls that were made have returned, but for one that is being made. -/
def Returned (s : State) : Prop := (s.runs.map fun r => r.1.func) = s.finished ++ s.worker.inCall

/-- A step with which no thread begins to wait for a function. -/
structure Resigned (s s' : State) : Prop where
  sync : ∀ thread, (s'.posters thread).sync? = (s.posters thread).sync? ∨ (s'.posters thread).sync? = none
  posted : s.posted.length ≤ s'.posted.length
  returned : Returned s → Returned s'

namespace Resigned

theorem setPoster {thread : Nat} {poster : Poster} (h : poster.sync? = (s.posters thread).sync? ∨ poster.sync? = none)
    (hposters : s'.posters = s.posters) (hposted : s.posted.length ≤ s'.posted.length)
    (hreturned : Returned s → Returned s') : Resigned s (s'.setPoster thread poster) := by
  refine ⟨fun other => ?_, hposted, hreturned⟩
  by_cases hother : other = thread
  · subst hother
    simpa [State.setPoster] using h
  · simp [State.setPoster, hother, hposters]

theorem same (hposters : s'.posters = s.posters) (hposted : s'.posted = s.posted)
    (hreturned : Returned s → Returned s') : Resigned s s' :=
  ⟨fun _ => .inl (by rw [hposters]), by rw [hposted], hreturned⟩

end Resigned

namespace State

theorem posters_notified (s : State) : s.notified.posters = s.posters := by
  rw [notified_eq]

theorem posted_notified (s : State) : s.notified.posted = s.posted := by
  rw [notified_eq]

theorem returned_notified (h : Returned s) : Returned s.notified := by
  cases hworker : s.worker with
  | waiting | waitingUntil => simpa [Returned, notified, hworker, Worker.inCall] using h
  | looping | locking | holding | running | ended => simpa [Returned, notified, hworker] using h

theorem posters_setPoster_of_awaiting {thread other func : Nat} {poster : Poster}
    (hother : s.posters other ≠ .awaiting func) (hawaits : s.posters thread = .awaiting func) :
    (s.setPoster other poster).posters thread = .awaiting func := by
  have hne : thread ≠ other := by
    rintro rfl
    exact hother hawaits
  simp [setPoster, hne, hawaits]

end State

theorem resigned_lockedPart (hworker : s.worker = .locking) : Resigned s (lockedPart heap s) := by
  have hreturned : Returned s → (s.runs.map fun r => r.1.func) = s.finished ++ [] := by
    simp [Returned, hworker, Worker.inCall]
  unfold lockedPart
  split
  · exact .same rfl rfl hreturned
  · split_ifs
    · exact .same rfl rfl hreturned
    · exact .same rfl rfl hreturned

theorem step_resigned {a : Action} (h : step heap s a = some s') :
    Resigned s s' ∨ ∃ thread, s' = (emplaceItem heap s s.clock).setPoster thread (.notifying (some s.posted.length)) := by
  cases a with
  | tick now =>
    simp only [step] at h
    split_ifs at h
    cases h
    exact .inl (.same rfl rfl id)
  | postDelayedTask thread delayMs =>
    simp only [step] at h
    split at h
    · cases h
      exact .inl (.setPoster (.inr rfl) rfl le_rfl id)
    · cases h
  | emplace thread =>
    simp only [step] at h
    split at h
    · cases h
      exact .inl (.setPoster (.inr rfl) rfl (by simp [emplaceItem]) id)
    · cases h
  | postTaskSync thread =>
    simp only [step] at h
    split at h
    · cases h
      exact .inr ⟨thread, rfl⟩
    · cases h
  | notify thread =>
    simp only [step] at h
    split at h
    · cases h
      exact .inl (.setPoster (.inr rfl) s.posters_notified (congrArg List.length s.posted_notified).ge
        State.returned_notified)
    · rename_i func hposter
      cases h
      exact .inl (.setPoster (.inl (by rw [hposter]; rfl)) s.posters_notified
        (congrArg List.length s.posted_notified).ge State.returned_notified)
    · cases h
  | get thread =>
    simp only [step] at h
    split at h
    · split_ifs at h
      cases h
      exact .inl (.setPoster (.inr rfl) rfl le_rfl id)
    · cases h
  | stop =>
    cases h
    exact .inl (.same rfl rfl id)
  | notifyAll =>
    cases h
    exact .inl (.same s.posters_notified s.posted_notified State.returned_notified)
  | loop =>
    simp only [step] at h
    split_ifs at h with hworker
    · cases h
      exact .inl (.same rfl rfl (by simp [Returned, hworker, Worker.inCall]))
    · cases h
      exact .inl (.same rfl rfl (by simp [Returned, hworker, Worker.inCall]))
  | lock =>
    simp only [step] at h
    split_ifs at h with hworker
    cases h
    exact .inl (resigned_lockedPart hworker)
  | wake =>
    simp only [step] at h
    split at h
    · cases h
      exact .inl (.same s.posters_notified s.posted_notified State.returned_notified)
    · cases h
      exact .inl (.same s.posters_notified s.posted_notified State.returned_notified)
    · cases h
  | call =>
    simp only [step] at h
    split at h
    · rename_i task hworker
      cases h
      refine .inl (.same rfl rfl ?_)
      intro hreturned
      simp only [Returned, hworker, Worker.inCall, List.append_nil] at hreturned
      simp [Returned, Worker.inCall, hreturned]
    · cases h
  | finish =>
    simp only [step] at h
    split at h
    · rename_i task hworker
      cases h
      exact .inl (.same rfl rfl (by simp [Returned, hworker, Worker.inCall]))
    · cases h

/-- The invariant of those who wait: each for a function of its own, which was posted. -/
structure Waits (s : State) : Prop where
  posted : ∀ thread func, (s.posters thread).sync? = some func → func < s.posted.length
  own : ∀ thread other func, (s.posters thread).sync? = some func → (s.posters other).sync? = some func → thread = other
  returned : Returned s

namespace Waits

theorem start (clock : Int) : Waits (.start clock) := by
  constructor
  · intro thread func hsync
    simp [State.start, Poster.sync?] at hsync
  · intro thread other func hsync
    simp [State.start, Poster.sync?] at hsync
  · simp [Returned, State.start, Worker.inCall]

theorem step (h : Waits s) {a : Action} (hstep : step heap s a = some s') : Waits s' := by
  rcases step_resigned hstep with hresigned | ⟨waiter, rfl⟩
  · have hsync : ∀ thread func, (s'.posters thread).sync? = some func → (s.posters thread).sync? = some func := by
      intro thread func hsome
      rcases hresigned.sync thread with hsame | hnone
      · exact hsame ▸ hsome
      · simp [hnone] at hsome
    constructor
    · intro thread func hsome
      exact (h.posted thread func (hsync thread func hsome)).trans_le hresigned.posted
    · intro thread other func hthread hother
      exact h.own thread other func (hsync thread func hthread) (hsync other func hother)
    · exact hresigned.returned h.returned
  · -- the function that is posted is the first with its number
    have hsync : ∀ thread func,
        (((emplaceItem heap s s.clock).setPoster waiter (.notifying (some s.posted.length))).posters thread).sync? =
          some func →
        (thread = waiter ∧ func = s.posted.length) ∨ (thread ≠ waiter ∧ (s.posters thread).sync? = some func) := by
      intro thread func hsome
      by_cases hthread : thread = waiter
      · subst hthread
        simp only [State.setPoster, Function.update_self, Poster.sync?, Option.some.injEq] at hsome
        exact .inl ⟨rfl, hsome.symm⟩
      · simp only [State.setPoster, Function.update_of_ne hthread] at hsome
        exact .inr ⟨hthread, hsome⟩
    constructor
    · intro thread func hsome
      have hlength : (emplaceItem heap s s.clock).posted.length = s.posted.length + 1 := List.length_append
      show func < (emplaceItem heap s s.clock).posted.length
      rw [hlength]
      rcases hsync thread func hsome with ⟨-, rfl⟩ | ⟨-, hbefore⟩
      · exact Nat.lt_succ_self _
      · exact (h.posted thread func hbefore).trans (Nat.lt_succ_self _)
    · intro thread other func hthread hother
      rcases hsync thread func hthread with ⟨rfl, rfl⟩ | ⟨-, hbefore⟩
      · rcases hsync other _ hother with ⟨rfl, -⟩ | ⟨-, hbefore⟩
        · rfl
        · exact absurd (h.posted other _ hbefore) (lt_irrefl _)
      · rcases hsync other func hother with ⟨rfl, rfl⟩ | ⟨-, hbefore'⟩
        · exact absurd (h.posted thread _ hbefore) (lt_irrefl _)
        · exact h.own thread other func hbefore hbefore'
    · exact h.returned

theorem run (h : Waits s) {actions : List Action} (hrun : run heap s actions = some s') : Waits s' := by
  induction actions generalizing s with
  | nil =>
    cases hrun
    exact h
  | cons a actions ih =>
    obtain ⟨u, hstep, hrest⟩ := Option.bind_eq_some_iff.1 hrun
    exact ih (h.step hstep) hrest

end Waits

/-- No call returns after the thread has ended. -/
structure Deserted (thread func : Nat) (s : State) : Prop where
  ended : s.worker = .ended
  awaits : s.posters thread = .awaiting func
  unfinished : func ∉ s.finished

namespace Deserted

variable {thread func : Nat} (h : Deserted thread func s)

include h

theorem setPoster {other : Nat} {poster : Poster} (hother : s.posters other ≠ .awaiting func) :
    Deserted thread func (s.setPoster other poster) :=
  ⟨h.ended, State.posters_setPoster_of_awaiting hother h.awaits, h.unfinished⟩

theorem emplaceItem (execTime : Int) : Deserted thread func (emplaceItem heap s execTime) :=
  ⟨h.ended, h.awaits, h.unfinished⟩

theorem notified : s.notified = s := by
  simp [State.notified, h.ended]

theorem step {a : Action} (hstep : step heap s a = some s') : Deserted thread func s' := by
  cases a with
  | tick now =>
    simp only [TaskThread.step] at hstep
    split_ifs at hstep
    cases hstep
    exact ⟨h.ended, h.awaits, h.unfinished⟩
  | postDelayedTask other delayMs =>
    simp only [TaskThread.step] at hstep
    split at hstep
    · rename_i hposter
      cases hstep
      exact h.setPoster (by simp [hposter])
    · cases hstep
  | emplace other =>
    simp only [TaskThread.step] at hstep
    split at hstep
    · rename_i hposter
      cases hstep
      exact (h.emplaceItem _).setPoster (by simp [TaskThread.emplaceItem, hposter])
    · cases hstep
  | postTaskSync other =>
    simp only [TaskThread.step] at hstep
    split at hstep
    · rename_i hposter
      cases hstep
      exact (h.emplaceItem _).setPoster (by simp [TaskThread.emplaceItem, hposter])
    · cases hstep
  | notify other =>
    simp only [TaskThread.step, h.notified] at hstep
    split at hstep
    · rename_i hposter
      cases hstep
      exact h.setPoster (by simp [hposter])
    · rename_i hposter
      cases hstep
      exact h.setPoster (by simp [hposter])
    · cases hstep
  | get other =>
    simp only [TaskThread.step] at hstep
    split at hstep
    · rename_i func' hposter
      split_ifs at hstep with hfinished
      cases hstep
      refine h.setPoster ?_
      intro hother
      have hsame : func' = func := Poster.awaiting.inj (hposter.symm.trans hother)
      exact h.unfinished (hsame ▸ hfinished)
    · cases hstep
  | stop =>
    cases hstep
    exact ⟨h.ended, h.awaits, h.unfinished⟩
  | notifyAll =>
    cases hstep
    exact h.notified.symm ▸ h
  | loop | lock | wake | call | finish => simp [TaskThread.step, h.ended] at hstep

theorem run {actions : List Action} (hrun : run heap s actions = some s') : Deserted thread func s' := by
  induction actions generalizing s with
  | nil =>
    cases hrun
    exact h
  | cons a actions ih =>
    obtain ⟨u, hstep, hrest⟩ := Option.bind_eq_some_iff.1 hrun
    exact ih (h.step hstep) hrest

end Deserted

/-- Each posted function is called, or still to be called, once. -/
theorem Safe.count_func (h : Safe heap s) {func : Nat} (hposted : func < s.posted.length) :
    ((s.queue ++ s.worker.inHand).map TaskItem.func).count func + (s.runs.map fun r => r.1.func).count func = 1 := by
  have hall := (h.tasksSafe.notLost.map TaskItem.func).count_eq func
  rw [h.numbered, List.count_range, if_pos hposted, List.map_append, List.count_append, List.map_map] at hall
  exact hall

/-- Each thread in `PostTaskSync` waits for a function of its own, which is called once or will be. It returns only
after the call has returned; when the worker has ended before, it never does. -/
theorem postTaskSync_run {clock : Int} {actions : List Action} {thread func : Nat}
    (hrun : run heap (.start clock) actions = some s) (hawaits : s.posters thread = .awaiting func) :
    (∀ other, s.posters other = .awaiting func → other = thread) ∧
      ((s.queue ++ s.worker.inHand).map TaskItem.func).count func + (s.runs.map fun r => r.1.func).count func = 1 ∧
      ((step heap s (.get thread)).isSome →
        (s.runs.map fun r => r.1.func).count func = 1 ∧ func ∉ s.worker.inCall) ∧
      (s.worker = .ended → func ∉ s.finished → ∀ later s', run heap s later = some s' →
        s'.posters thread = .awaiting func ∧ func ∉ s'.finished) := by
  have hsafe := (Safe.start heap clock).run hrun
  have hwaits := (Waits.start clock).run hrun
  have hsync : (s.posters thread).sync? = some func := by rw [hawaits]; rfl
  have hcount := hsafe.count_func (hwaits.posted thread func hsync)
  refine ⟨?_, hcount, ?_, ?_⟩
  · intro other hother
    exact hwaits.own other thread func (by rw [hother]; rfl) hsync
  · intro hreturns
    have hfinished : func ∈ s.finished := by
      by_contra hunfinished
      simp [step, hawaits, hunfinished] at hreturns
    have hreturned : (s.runs.map fun r => r.1.func) = s.finished ++ s.worker.inCall := hwaits.returned
    have honce := hsafe.tasksSafe.once
    have hcalled : func ∈ s.runs.map fun r => r.1.func := by
      rw [hreturned]
      exact List.mem_append_left _ hfinished
    rw [hreturned] at honce
    exact ⟨List.count_eq_one_of_mem hsafe.tasksSafe.once hcalled, List.disjoint_of_nodup_append honce hfinished⟩
  · intro hended hunfinished later s' hlater
    have hdeserted := Deserted.run ⟨hended, hawaits, hunfinished⟩ hlater
    exact ⟨hdeserted.awaits, hdeserted.unfinished⟩

/-- The thread ends with a task in its queue that somebody waits for. -/
theorem postTaskSync_run_ended :
    ∃ s, run (Heap.binary TaskItem.execTime) (.start 0) [.postTaskSync 0, .notify 0, .stop, .notifyAll, .loop] = some s ∧
      s.worker = .ended ∧ s.posters 0 = .awaiting 0 ∧
      ∀ later s', run (Heap.binary TaskItem.execTime) s later = some s' → s'.posters 0 = .awaiting 0 := by
  have hends : (run (Heap.binary TaskItem.execTime) (.start 0)
      [.postTaskSync 0, .notify 0, .stop, .notifyAll, .loop]).map (fun s => (s.worker, s.posters 0, s.finished)) =
      some (.ended, .awaiting 0, []) := by decide
  obtain ⟨s, hrun, hs⟩ := Option.map_eq_some_iff.1 hends
  obtain ⟨hended, hothers⟩ := Prod.mk.inj hs
  obtain ⟨hawaits, hfinished⟩ := Prod.mk.inj hothers
  obtain ⟨-, -, -, hnever⟩ := postTaskSync_run hrun hawaits
  refine ⟨s, hrun, hended, hawaits, ?_⟩
  intro later s' hlater
  exact (hnever hended (by simp [hfinished]) later s' hlater).1

end CodeStudy.TaskThread
