import CodeStudy.Base.Channel
import CodeStudy.Base.Runs
import Mathlib.Logic.Function.Basic

/-!
# A publisher

Any number of goroutines publish values, subscribe, leave and close. A publication holds the lock for reading until
each of its senders has ended, and those who change the map of subscribers hold it for writing. A step is what one
goroutine does that another one can see.

A value in a channel is recorded with the number of its publication, and a publication with the publications that had
returned before it began and with the subscribers it found; the program keeps none of these.
-/

namespace CodeStudy.PubSub

variable {V : Type}

abbrev Topic (V : Type) := V → Bool

inductive Outcome where
  | refused
  | sent
  | timedOut
  deriving DecidableEq

/-- What a goroutine that runs `sendTopic` does next. -/
inductive Sender (V : Type) where
  /-- It asks the topic. -/
  | started (topic : Topic V)
  /-- It waits in the `select`. -/
  | selecting
  /-- It calls `wg.Done`. -/
  | leaving (outcome : Outcome)
  | done (outcome : Outcome)

def Sender.isDone : Sender V → Bool
  | .done _ => true
  | .started _ | .selecting | .leaving _ => false

inductive Stage where
  /-- It takes the lock for reading. -/
  | locking
  /-- It goes through the map. -/
  | ranging
  | waiting
  | returned
  deriving DecidableEq

/-- A call of `Publish`. -/
structure Publication (V : Type) where
  value : V
  stage : Stage := .locking
  spawned : List Nat := []
  senders : Nat → Option (Sender V) := fun _ => none
  found : List (Nat × Topic V) := []
  after : List Nat := []

/-- It holds the lock. -/
def Publication.holds (p : Publication V) : Bool :=
  match p.stage with
  | .ranging | .waiting => true
  | .locking | .returned => false

def Publication.setSender (p : Publication V) (ch : Nat) (sender : Sender V) : Publication V :=
  { p with senders := Function.update p.senders ch (some sender) }

/-- What one who holds the lock for writing does next. -/
inductive Writer (V : Type) where
  | subscribe (topic : Topic V)
  | evict (ch : Nat)
  | close
  /-- A channel that was deleted from the map is closed, and there may be more of them. -/
  | closing (ch : Nat) (more : Bool)
  | unlocking

inductive Panic where
  | sendOnClosed
  | closeOfClosed
  deriving DecidableEq

structure State (V : Type) where
  buffer : Nat
  subscribers : List (Nat × Topic V) := []
  channels : Nat → Option (Channel (Nat × V)) := fun _ => none
  made : Nat := 0
  calls : Nat → Option (Publication V) := fun _ => none
  begun : Nat := 0
  writer : Option (Writer V) := none
  panicked : Option Panic := none

/-- `NewPublisher`, with a buffer size that `make` accepts for a channel. -/
def State.new (buffer : Nat) : State V := { buffer }

namespace State

variable (s : State V)

def setCall (c : Nat) (p : Publication V) : State V := { s with calls := Function.update s.calls c (some p) }

def setChannel (ch : Nat) (channel : Channel (Nat × V)) : State V :=
  { s with channels := Function.update s.channels ch (some channel) }

/-- `delete(p.subscribers, sub)`. -/
def delete (ch : Nat) : State V := { s with subscribers := s.subscribers.filter fun e => e.1 ≠ ch }

def reading (c : Nat) : Bool := (s.calls c).any Publication.holds

def hasReturned (c : Nat) : Bool := (s.calls c).any fun p => p.stage = .returned

end State

/-- What a publication or one of its senders does by itself. -/
inductive CallAction where
  | rLock
  /-- The map is gone through in any order. -/
  | spawn (ch : Nat)
  | ranged
  | topic (ch : Nat)
  | timeout (ch : Nat)
  | done (ch : Nat)
  /-- `wg.Wait` returns, and the lock is given back. -/
  | wait

inductive Action (V : Type) where
  | publish (v : V)
  | call (c : Nat) (a : CallAction)
  /-- The `select` of a sender takes the send. -/
  | send (c ch : Nat)
  | handOver (c ch : Nat)
  | subscribeTopic (topic : Topic V)
  | evict (ch : Nat)
  | close
  /-- The next step of the one who holds the lock for writing; `close` goes through the map in any order. -/
  | write (ch : Nat)
  | receive (ch : Nat)

/-- `Subscribe`. -/
def Action.subscribe : Action V := .subscribeTopic fun _ => true

variable (s : State V)

/-- The lock is taken for writing when nobody has it. -/
def lock (writer : Writer V) : Option (State V) :=
  if s.writer.isNone ∧ ∀ c < s.begun, s.reading c = false then some { s with writer := some writer } else none

/-- The `select` of a sender takes the send, in one of its two ways. -/
def put (c ch : Nat) (how : Channel (Nat × V) → Nat × V → Option (Channel (Nat × V))) : Option (State V) :=
  (s.calls c).bind fun p =>
    match p.senders ch with
    | some .selecting =>
        (s.channels ch).bind fun channel =>
          if channel.closed then some { s with panicked := some .sendOnClosed }
          else
            (how channel (c, p.value)).map fun channel =>
              (s.setCall c (p.setSender ch (.leaving .sent))).setChannel ch channel
    | _ => none

def callStep (p : Publication V) : CallAction → Option (Publication V)
  | .rLock =>
      if p.stage = .locking ∧ s.writer.isNone then some { p with stage := .ranging, found := s.subscribers } else none
  | .spawn ch =>
      if p.stage = .ranging ∧ ch ∉ p.spawned then
        (s.subscribers.find? fun e => e.1 = ch).map fun e =>
          { p.setSender ch (.started e.2) with spawned := p.spawned ++ [ch] }
      else none
  | .ranged =>
      if p.stage = .ranging ∧ ∀ e ∈ s.subscribers, e.1 ∈ p.spawned then some { p with stage := .waiting } else none
  | .topic ch =>
      match p.senders ch with
      | some (.started topic) => some (p.setSender ch (if topic p.value then .selecting else .leaving .refused))
      | _ => none
  | .timeout ch =>
      match p.senders ch with
      | some .selecting => some (p.setSender ch (.leaving .timedOut))
      | _ => none
  | .done ch =>
      match p.senders ch with
      | some (.leaving outcome) => some (p.setSender ch (.done outcome))
      | _ => none
  | .wait =>
      if p.stage = .waiting ∧ ∀ ch ∈ p.spawned, (p.senders ch).any Sender.isDone then some { p with stage := .returned }
      else none

/-- The next step of the one who holds the lock for writing. -/
def writerStep (ch : Nat) : Option (State V) :=
  match s.writer with
  | some (.subscribe topic) =>
      some { s with
        subscribers := s.subscribers ++ [(s.made, topic)]
        channels := Function.update s.channels s.made (some (.make s.buffer))
        made := s.made + 1
        writer := some .unlocking }
  | some (.evict sub) => some { s.delete sub with writer := some (.closing sub false) }
  | some .close =>
      if s.subscribers.isEmpty then some { s with writer := some .unlocking }
      else if (s.subscribers.find? fun e => e.1 = ch).isSome then some { s.delete ch with writer := some (.closing ch true) }
      else none
  | some (.closing sub more) =>
      (s.channels sub).map fun channel =>
        if channel.closed then { s with panicked := some .closeOfClosed }
        else { s.setChannel sub channel.close with writer := some (if more then .close else .unlocking) }
  | some .unlocking => some { s with writer := none }
  | none => none

/-- A step, if it is one that can be taken. A panic ends the program. -/
def step (a : Action V) : Option (State V) :=
  if s.panicked.isSome then none
  else
    match a with
    | .publish v =>
        some { s with
          calls := Function.update s.calls s.begun
            (some { value := v, after := (List.range s.begun).filter s.hasReturned })
          begun := s.begun + 1 }
    | .send c ch => put s c ch Channel.send
    | .handOver c ch => put s c ch Channel.handOver
    | .subscribeTopic topic => lock s (.subscribe topic)
    -- only channels that the publisher made; one of somebody else may well be open
    | .evict ch => if ch < s.made then lock s (.evict ch) else none
    | .close => lock s .close
    | .write ch => writerStep s ch
    | .receive ch => (s.channels ch).bind fun channel => channel.receive.map fun channel => s.setChannel ch channel
    | .call c a => (s.calls c).bind fun p => (callStep s p a).map (s.setCall c)

end CodeStudy.PubSub
