import Mathlib.Logic.Function.Basic
import Mathlib.Data.List.Basic

/-!
# The coroutine scheduler

`cppcoro` in its two versions, over `ucontext` and over `context_switch`. Both
keep one `main_ctx`, a state for each coroutine and the id of the running one,
and update them in the same order around each switch.

A coroutine's body is any sequence of calls of this library, so a run is a
sequence of actions, each taken by whoever executes.
-/

namespace CodeStudy.Cppcoro

/-- `SCHEDULER_ID`, also the mark of "no coroutine is running". -/
def schedulerId : UInt32 := 0

inductive State where
  | ready
  | running
  | suspend
  | dead
deriving DecidableEq, Repr

/-- Whose code executes: that of the main thread, or the body of a coroutine,
named by the address of its object. -/
inductive Code where
  | main
  | body (coroutine : Nat)
deriving DecidableEq, Repr

/-- A saved place in the execution of `code`: the one where it stops after
having been switched to `moment` times. -/
structure Context where
  code : Code
  moment : Nat
deriving DecidableEq, Repr

structure Coroutine where
  id : UInt32
  /-- Unset until `fake_stack` or a switch writes it. -/
  ctx : Option Context
  state : State
deriving DecidableEq, Repr

structure Scheduler where
  mainCtx : Option Context
  coroutines : UInt32 → Option Nat
  runningId : UInt32
  allocId : UInt32

/-- The scheduler, the coroutine objects in the order they were made, and the
processor: what it executes and how often it was switched to each code. -/
structure Machine where
  sched : Scheduler
  objects : List Coroutine
  executing : Code
  moments : Code → Nat

inductive Action where
  | create
  | resume (id : UInt32)
  | yield
  /-- The body of the executing coroutine returns to `coroutine_entry`. -/
  | ret
deriving DecidableEq, Repr

namespace Machine

def initial : Machine where
  sched :=
    { mainCtx := none, coroutines := fun _ => none, runningId := schedulerId, allocId := 1 }
  objects := []
  executing := .main
  moments := fun _ => 0

/-- What a switch saves of the code that executes. -/
def here (m : Machine) : Context := ⟨m.executing, m.moments m.executing⟩

/-- The stack that `fake_stack` prepares: about to execute `coroutine_entry`. -/
def fakeStack (m : Machine) (c : Nat) : Context := ⟨.body c, m.moments (.body c)⟩

/-- The second half of a switch. A context can be loaded as long as its code
has not executed since it was saved; from then on its stack has moved on. -/
def load (m : Machine) : Option Context → Option Machine
  | none => none
  | some ctx =>
    if m.moments ctx.code = ctx.moment then
      some
        { m with
          executing := ctx.code
          moments := Function.update m.moments ctx.code (ctx.moment + 1) }
    else none

def create (m : Machine) : Machine :=
  { m with
    objects := m.objects ++ [{ id := m.sched.allocId, ctx := none, state := .ready }]
    sched :=
      { m.sched with
        coroutines := Function.update m.sched.coroutines m.sched.allocId (some m.objects.length)
        allocId := m.sched.allocId + 1 } }

/-- The common end of the two branches of `resume`. -/
def switchTo (m : Machine) (id : UInt32) (c : Nat) (co : Coroutine) : Option Machine :=
  load
    { m with
      objects := m.objects.set c { co with state := .running }
      sched := { m.sched with mainCtx := some m.here, runningId := id } }
    co.ctx

/-- The object that `g_sched.coroutines[id]` points to. An id that was never
handed out gives a null pointer, and its use is undefined. -/
def find (m : Machine) (id : UInt32) : Option (Nat × Coroutine) :=
  (m.sched.coroutines id).bind fun c => m.objects[c]?.map (c, ·)

def resume (m : Machine) (id : UInt32) : Option Machine :=
  match m.find id with
  | none => none
  | some (c, co) =>
    match co.state with
    | .dead => some m
    | .ready => m.switchTo id c { co with ctx := some (m.fakeStack c) }
    | .suspend => m.switchTo id c co
    | .running => some m

def yield (m : Machine) : Option Machine :=
  if m.sched.runningId = schedulerId then some m
  else
    match m.find m.sched.runningId with
    | none => none
    | some (c, co) =>
      load
        { m with
          objects := m.objects.set c { co with state := .suspend, ctx := some m.here }
          sched := { m.sched with runningId := schedulerId } }
        m.sched.mainCtx

/-- The end of `coroutine_entry`. Its `c` was read from `coroutines[running_id]`
when the coroutine first ran, right after `resume` had stored the id there. -/
def coroutineEntryEnd (m : Machine) (c : Nat) : Option Machine :=
  match m.objects[c]? with
  | none => none
  | some co =>
    load
      { m with
        objects := m.objects.set c { co with state := .dead }
        sched := { m.sched with runningId := schedulerId } }
      m.sched.mainCtx

/-- One action of whoever executes; `none` where the behaviour is undefined,
and for a return of the main thread, which ends the program. -/
def step (m : Machine) : Action → Option Machine
  | .create => some m.create
  | .resume id => m.resume id
  | .yield => m.yield
  | .ret =>
    match m.executing with
    | .main => none
    | .body c => m.coroutineEntryEnd c

/-- At most one coroutine is in state `running`: the one that executes, and
`running_id` is its id, `SCHEDULER_ID` exactly when no coroutine executes. -/
structure Sane (m : Machine) : Prop where
  running : ∀ c co, m.objects[c]? = some co → (co.state = .running ↔ m.executing = .body c)
  runningId : ∀ c, m.executing = .body c →
    ∃ co, m.objects[c]? = some co ∧ m.sched.runningId = co.id
  scheduler : m.sched.runningId = schedulerId ↔ m.executing = .main

end Machine

/-- A machine and, for each coroutine, the place from where it was last resumed. -/
structure Traced where
  machine : Machine
  resumers : Nat → Option Context

namespace Traced

def start : Traced := ⟨.initial, fun _ => none⟩

/-- A `resume` that switches is noted for the coroutine it switches to. -/
def resumersAfter (t : Traced) (m' : Machine) : Action → Nat → Option Context
  | .resume _ =>
    match m'.executing with
    | .body c =>
      if m'.executing = t.machine.executing then t.resumers
      else Function.update t.resumers c (some t.machine.here)
    | .main => t.resumers
  | _ => t.resumers

def step (t : Traced) (a : Action) : Option Traced :=
  (t.machine.step a).map fun m' => ⟨m', t.resumersAfter m' a⟩

def run (t : Traced) : List Action → Option Traced
  | [] => some t
  | a :: as => (t.step a).bind fun t' => t'.run as

/-- A coroutine that yields or returns hands control to the place that resumed
it, which goes on from there. -/
def GoesBack (t : Traced) : Prop :=
  ∀ c, t.machine.executing = .body c → ∀ a, a = .yield ∨ a = .ret →
    ∃ m' ctx, t.machine.step a = some m' ∧ t.resumers c = some ctx ∧
      m'.here = ⟨ctx.code, ctx.moment + 1⟩

end Traced

end CodeStudy.Cppcoro
