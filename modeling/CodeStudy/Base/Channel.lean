import Mathlib.Data.List.Basic

/-!
# Channels

A channel hands values from those who send to those who receive, in order, and holds as many of them as its capacity
in between. Without room a value can only be handed to one who waits for it.

What was received is kept for what is said of whole runs.
-/

namespace CodeStudy

variable {α : Type}

structure Channel (α : Type) where
  capacity : Nat
  buffer : List α := []
  closed : Bool := false
  received : List α := []
  bounded : buffer.length ≤ capacity

namespace Channel

theorem length_push_le {buffer : List α} {capacity : Nat} (h : buffer.length < capacity) (v : α) :
    (buffer ++ [v]).length ≤ capacity := by
  rw [List.length_append]
  exact h

theorem length_tail_le {buffer : List α} {capacity : Nat} (h : buffer.length ≤ capacity) :
    buffer.tail.length ≤ capacity := by
  rw [List.length_tail]
  exact Nat.le_trans (Nat.sub_le _ _) h

def make (capacity : Nat) : Channel α := { capacity, buffer := [], bounded := Nat.zero_le capacity }

def send (c : Channel α) (v : α) : Option (Channel α) :=
  if h : c.buffer.length < c.capacity then some { c with buffer := c.buffer ++ [v], bounded := length_push_le h v }
  else none

/-- A value goes to one who waits in a receive. -/
def handOver (c : Channel α) (v : α) : Option (Channel α) :=
  if c.buffer.isEmpty then some { c with received := c.received ++ [v] } else none

def receive (c : Channel α) : Option (Channel α) :=
  c.buffer.head?.map fun v =>
    { c with buffer := c.buffer.tail, received := c.received ++ [v], bounded := length_tail_le c.bounded }

def close (c : Channel α) : Channel α := { c with closed := true }

/-- All values that were sent, in order. -/
def sent (c : Channel α) : List α := c.received ++ c.buffer

/-- A value more was sent. -/
structure Puts (v : α) (c c' : Channel α) : Prop where
  sent : c'.sent = c.sent ++ [v]
  closed : c'.closed = c.closed
  capacity : c'.capacity = c.capacity

variable {c c' : Channel α} {v : α}

theorem puts_send (h : c.send v = some c') : Puts v c c' := by
  unfold send at h
  split_ifs at h
  cases h
  exact ⟨(List.append_assoc _ _ _).symm, rfl, rfl⟩

theorem buffer_send (h : c.send v = some c') : c'.buffer = c.buffer ++ [v] := by
  unfold send at h
  split_ifs at h
  cases h
  rfl

theorem puts_handOver (h : c.handOver v = some c') : Puts v c c' := by
  unfold handOver at h
  split_ifs at h with hempty
  cases h
  rw [List.isEmpty_iff] at hempty
  refine ⟨?_, rfl, rfl⟩
  simp [Channel.sent, hempty]

/-- A receive takes the first value that is waiting. -/
theorem receive_spec (h : c.receive = some c') :
    (∃ v, c.buffer = v :: c'.buffer ∧ c'.received = c.received ++ [v]) ∧ c'.sent = c.sent ∧ c'.closed = c.closed ∧
      c'.capacity = c.capacity := by
  obtain ⟨v, hhead, rfl⟩ := Option.map_eq_some_iff.1 h
  have hbuffer : c.buffer = v :: c.buffer.tail := List.eq_cons_of_mem_head? hhead
  refine ⟨⟨v, hbuffer, rfl⟩, ?_, rfl, rfl⟩
  show c.received ++ [v] ++ c.buffer.tail = c.received ++ c.buffer
  rw [List.append_assoc, List.singleton_append, ← hbuffer]

theorem sent_close (c : Channel α) : c.close.sent = c.sent :=
  rfl

theorem sent_make (capacity : Nat) : (make capacity : Channel α).sent = [] :=
  rfl

/-- What was received is the first part of what was sent, and the capacity bounds the rest. -/
theorem received_prefix_sent (c : Channel α) :
    c.received <+: c.sent ∧ c.sent.length ≤ c.received.length + c.capacity := by
  refine ⟨List.prefix_append _ _, ?_⟩
  rw [sent, List.length_append]
  exact Nat.add_le_add_left c.bounded _

end Channel

end CodeStudy
