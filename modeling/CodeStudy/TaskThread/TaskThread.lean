import CodeStudy.Base.Heap
import CodeStudy.Base.View
import Mathlib.Data.Int.Order.Basic
import Mathlib.Logic.Function.Basic

/-!
# A thread that runs tasks

Any number of threads post tasks, and a worker runs them when their time has come. A step is what one thread does
while it holds the mutex, or a single read, notification or call. The queue is a heap that is ordered by time only.

The postings, the picks and the runs are recorded for what is said of whole runs; the program does not keep them. A
function is known by the number of its posting.

The steps are those of an object that is there. Around them are the two things that can be missing from it while the
worker runs: the members that the constructor makes after it has started the thread, and the memory of the time that
`wait_until` was given a reference to.
-/

namespace CodeStudy.TaskThread

/-- The program neither sets nor compares `id`. -/
structure TaskItem where
  func : Nat
  /-- In nanoseconds of the steady clock. -/
  execTime : Int
  id : Nat := 0
  deriving DecidableEq, Repr

/-- What the worker does next, or what it waits for. -/
inductive Worker where
  /-- It reads `running_`. -/
  | looping
  /-- It takes the mutex. -/
  | locking
  | waiting
  | waitingUntil (time : Int)
  /-- It has picked a task and calls it next. -/
  | holding (task : TaskItem)
  | running (task : TaskItem)
  | ended
  deriving DecidableEq, Repr

/-- What a thread that posts does next. -/
inductive Poster where
  | idle
  /-- It takes the mutex. -/
  | posting (execTime : Int)
  /-- It notifies the worker, and waits for a function if it posted with `PostTaskSync`. -/
  | notifying (sync : Option Nat)
  | awaiting (func : Nat)
  deriving DecidableEq, Repr

structure State where
  clock : Int
  running : Bool := true
  queue : List TaskItem := []
  worker : Worker := .looping
  posters : Nat → Poster := fun _ => .idle
  finished : List Nat := []
  posted : List TaskItem := []
  /-- Each task that was picked, with the tasks that stayed in the queue. -/
  picks : List (TaskItem × List TaskItem) := []
  /-- Each task that was called, with the time then. -/
  runs : List (TaskItem × Int) := []

inductive Action where
  | tick (now : Int)
  | postDelayedTask (thread : Nat) (delayMs : Int32)
  | emplace (thread : Nat)
  | postTaskSync (thread : Nat)
  | notify (thread : Nat)
  | get (thread : Nat)
  /-- The first two steps of the destructor. -/
  | stop
  | notifyAll
  | loop
  | lock
  /-- A wait ends by itself, at its time or not. -/
  | wake
  | call
  | finish

/-- `PostTask`. -/
def Action.postTask (thread : Nat) : Action := .postDelayedTask thread 0

namespace State

def setPoster (s : State) (thread : Nat) (poster : Poster) : State :=
  { s with posters := Function.update s.posters thread poster }

/-- Wake the worker if it waits. -/
def notified (s : State) : State :=
  match s.worker with
  | .waiting | .waitingUntil _ => { s with worker := .looping }
  | _ => s

end State

variable (heap : HeapAlgorithm TaskItem.execTime)

/-- `task_queue_.emplace`, with the mutex held. -/
def emplaceItem (s : State) (execTime : Int) : State :=
  let item : TaskItem := { func := s.posted.length, execTime }
  { s with queue := heap.push s.queue item, posted := s.posted ++ [item] }

/-- The part of `ThreadLoop` with the mutex held. -/
def lockedPart (s : State) : State :=
  match s.queue with
  | [] => { s with worker := .waiting }
  | nextTask :: others =>
      if nextTask.execTime > s.clock then { s with worker := .waitingUntil nextTask.execTime }
      else
        { s with
          queue := heap.pop (nextTask :: others)
          worker := .holding nextTask
          picks := s.picks ++ [(nextTask, others)] }

/-- A step, if it is one that can be taken. -/
def step (s : State) : Action → Option State
  | .tick now => if s.clock ≤ now then some { s with clock := now } else none
  | .postDelayedTask thread delayMs =>
      match s.posters thread with
      | .idle => some (s.setPoster thread (.posting (s.clock + delayMs.toInt * 1000000)))
      | _ => none
  | .emplace thread =>
      match s.posters thread with
      | .posting execTime => some ((emplaceItem heap s execTime).setPoster thread (.notifying none))
      | _ => none
  | .postTaskSync thread =>
      match s.posters thread with
      | .idle => some ((emplaceItem heap s s.clock).setPoster thread (.notifying (some s.posted.length)))
      | _ => none
  | .notify thread =>
      match s.posters thread with
      | .notifying none => some (s.notified.setPoster thread .idle)
      | .notifying (some func) => some (s.notified.setPoster thread (.awaiting func))
      | _ => none
  | .get thread =>
      match s.posters thread with
      | .awaiting func => if func ∈ s.finished then some (s.setPoster thread .idle) else none
      | _ => none
  | .stop => some { s with running := false }
  | .notifyAll => some s.notified
  | .loop =>
      if s.worker = .looping then some { s with worker := if s.running then .locking else .ended } else none
  | .lock => if s.worker = .locking then some (lockedPart heap s) else none
  | .wake =>
      match s.worker with
      | .waiting | .waitingUntil _ => some s.notified
      | _ => none
  | .call =>
      match s.worker with
      | .holding task => some { s with worker := .running task, runs := s.runs ++ [(task, s.clock)] }
      | _ => none
  | .finish =>
      match s.worker with
      | .running task => some { s with worker := .looping, finished := s.finished ++ [task.func] }
      | _ => none

def run (s : State) : List Action → Option State
  | [] => some s
  | a :: actions => (step heap s a).bind fun s' => run s' actions

/-- A new thread, when the clock shows some time. The members of its object are taken to be there. -/
def State.start (clock : Int) : State := { clock }

/-! ### The object -/

/-- The members behind `thread_`. -/
inductive Member where
  | cv
  | mutex
  | taskQueue
  deriving DecidableEq, Repr

/-- The members are made in the order they are declared in, and making `thread_` starts the worker. -/
structure Object where
  state : State
  missing : List Member := [.cv, .mutex, .taskQueue]
  /-- The number of tasks that the vector of the queue has room for. -/
  capacity : Nat := 0
  /-- The worker is in `wait_until`, which has a reference to a time in the vector. -/
  inWait : Bool := false
  /-- The vector was moved since then. -/
  moved : Bool := false

/-- What the constructor does next, or another thread. -/
inductive Event where
  | construct
  | thread (a : Action)
  /-- The worker was woken in `wait_until`: it takes the mutex again, reads the time, and returns. -/
  | returned

/-- The action adds a task to the queue. -/
def Action.emplaces : Action → Bool
  | .emplace _ | .postTaskSync _ => true
  | _ => false

/-- The worker goes on with its loop. -/
def Action.loops : Action → Bool
  | .loop => true
  | _ => false

/-- The worker has called `wait_until`, and was not woken yet. -/
def Worker.waitsUntil : Worker → Bool
  | .waitingUntil _ => true
  | _ => false

namespace Object

variable (grow : Nat → Nat) (o : Object)

/-- A step after the constructor has returned. A full vector moves to one with more room. -/
def wholeStep (a : Action) : Option Object :=
  if o.inWait && a.loops then none
  else
    (TaskThread.step heap o.state a).map fun state =>
      let moves := a.emplaces && o.state.queue.length == o.capacity
      { o with
        state
        capacity := if moves then grow o.capacity else o.capacity
        inWait := o.inWait || state.worker.waitsUntil
        moved := o.moved || (moves && o.inWait) }

/-- A step before that. Only the worker knows the object, and `running_` is there. -/
def earlyStep : Action → Option (Except Fault Object)
  | .tick now => (TaskThread.step heap o.state (.tick now)).map fun state => .ok { o with state }
  | .loop => (TaskThread.step heap o.state .loop).map fun state => .ok { o with state }
  | .lock => if o.state.worker = .locking then some (.error .undefined) else none
  | _ => none

def step : Event → Option (Except Fault Object)
  | .construct =>
      match o.missing with
      | [] => none
      | _ :: missing => some (.ok { o with missing })
  | .thread a => if o.missing = [] then (wholeStep heap grow o a).map .ok else earlyStep heap o a
  | .returned =>
      if o.inWait && !o.state.worker.waitsUntil then
        some (if o.moved then .error .undefined else .ok { o with inWait := false })
      else none

/-- What is undefined ends the run. -/
def run (o : Object) : List Event → Option (Except Fault Object)
  | [] => some (.ok o)
  | e :: events =>
      match o.step heap grow e with
      | some (.ok o') => run o' events
      | other => other

/-- The constructor has started the thread. -/
def start (clock : Int) : Object := { state := .start clock }

end Object

end CodeStudy.TaskThread
