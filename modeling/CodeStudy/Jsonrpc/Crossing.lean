import CodeStudy.Jsonrpc.Framing

/-!
# Two connectors that call each other

The client's connector and the server's over one stream, each with its own
`Send` callers and listener. A listener tells an answer from a call by its own
`waiting_response` alone, so a call of the peer that is under way when `Send`
sets the flag is taken for the answer. Where no flag is set then, each message
is taken as what it was written as, and each `Send` returns what the peer's
`HandleRequest` made of its request.
-/

namespace CodeStudy.Jsonrpc

/-- Both ends, and what has been written to the stream and is not yet read. The
description is from one end; `swap` changes it to the other. -/
structure Link where
  here : Connector
  there : Connector
  toHere : Bytes
  toThere : Bytes

inductive Side where
  | client
  | server
deriving DecidableEq, Repr

namespace Link

def initial : Link := ⟨.initial, .initial, [], []⟩

def swap (l : Link) : Link := ⟨l.there, l.here, l.toThere, l.toHere⟩

/-- A step of this end. The listener reads when a whole frame has arrived; what
a step writes to the socket is on its way to the other end. -/
def stepHere (l : Link) (op : Op) : Option Link :=
  match op with
  | .read message =>
    match takeFrame l.toHere with
    | none => none
    | some (m, rest) =>
      if m = message then
        (l.here.step (.read message)).map fun c => { l with here := c, toHere := rest }
      else none
  | op =>
    (l.here.step op).map fun c =>
      { l with
        here := c
        toThere := l.toThere ++ c.record.stream.drop l.here.record.stream.length }

def step (l : Link) : Side × Op → Option Link
  | (.client, op) => l.stepHere op
  | (.server, op) => (l.swap.stepHere op).map swap

def run (l : Link) : List (Side × Op) → Option Link
  | [] => some l
  | a :: as => (l.step a).bind fun l' => l'.run as

/-- The other end awaits no response, or the response is on its way. -/
def MayAwait (l : Link) : Bool :=
  !l.there.waitingResponse || !l.toThere.isEmpty ||
    match l.there.listener with
    | .received _ => true
    | _ => false

/-- `Send` sets `waiting_response` only while no call of the other end is under
way, and four bytes can count each message. -/
def PoliteHere (l : Link) : Op → Bool
  | .send request => decide (request.length < 2 ^ 32)
  | .take response => l.here.waitingResponse || decide (response.length < 2 ^ 32)
  | .await => l.MayAwait
  | _ => true

def Polite (l : Link) : Side × Op → Bool
  | (.client, op) => l.PoliteHere op
  | (.server, op) => l.swap.PoliteHere op

def PoliteAlong (l : Link) : List (Side × Op) → Bool
  | [] => true
  | a :: as => l.Polite a && (l.step a).all fun l' => l'.PoliteAlong as

end Link

def Message.call? : Message → Option Bytes
  | .call text => some text
  | .answer _ => none

namespace Connector

/-- What the caller `c` and its peer `d` owe each other: `d` takes the messages
of `c` in order, each as what `c` wrote it as, `HandleRequest` has been called
with each call once, and each `Send` of `c` returned the response to its own
request. -/
structure Served (c d : Connector) : Prop where
  taken : d.record.taken <+: c.record.written
  handled : d.record.handled.map Prod.fst = d.record.taken.filterMap Message.call?
  returned : c.record.returned <+: d.record.handled

end Connector

/-! ### The stages of a call -/

/-- How far the call of one end has come. -/
inductive Stage where
  /-- No response is awaited. -/
  | quiet
  /-- The other end has not taken the request yet. -/
  | out
  /-- The other end is about to write the response. -/
  | answering (response : Bytes)
  | back (response : Bytes)
  /-- The other end had nothing to answer. -/
  | lost

/-- The calls of the two ends that can be under way together. -/
inductive Compatible : Stage → Stage → Prop where
  | quietLeft (s : Stage) : Compatible .quiet s
  | quietRight (s : Stage) : Compatible s .quiet
  | outBack (response : Bytes) : Compatible .out (.back response)
  | backOut (response : Bytes) : Compatible (.back response) .out

theorem Compatible.symm {s t : Stage} (h : Compatible s t) : Compatible t s := by
  cases h with
  | quietLeft => exact .quietRight _
  | quietRight => exact .quietLeft _
  | outBack => exact .backOut _
  | backOut => exact .outBack _

namespace Connector

/-- The request is written completely. -/
def Sent (c : Connector) (request : Bytes) : Prop :=
  c.send = .waiting request ∨ c.send = .payload request ∧ request = []

/-- The call of `c`, answered by `d`, is at this stage. -/
def AtStage (c d : Connector) : Stage → Prop
  | .quiet =>
    c.waitingResponse = false ∧ d.responseMutexFree = true ∧
      ((c.send = .idle ∨ ∃ request, c.send = .entered request) ∧
          d.record.handled = c.record.returned ∨
        ∃ request, c.Sent request ∧
          d.record.handled = c.record.returned ++ [(request, c.lastResponse)])
  | .out =>
    c.waitingResponse = true ∧ c.hasResponse = false ∧ d.responseMutexFree = true ∧
      (∃ request, c.send = .length request ∨ c.send = .payload request ∨
        c.send = .waiting request) ∧
      d.record.handled = c.record.returned
  | .answering response =>
    c.waitingResponse = true ∧ c.hasResponse = false ∧ response ≠ [] ∧
      d.listener = .length response ∧ d.waitingResponse = false ∧
      ∃ request, c.Sent request ∧
        d.record.handled = c.record.returned ++ [(request, response)]
  | .back response =>
    c.waitingResponse = true ∧ c.hasResponse = false ∧ response ≠ [] ∧
      (d.responseMutexFree = true ∨ d.listener = .payload response ∧ d.waitingResponse = false) ∧
      ∃ request, c.Sent request ∧
        d.record.handled = c.record.returned ++ [(request, response)]
  | .lost =>
    c.waitingResponse = true ∧ c.hasResponse = false ∧ d.responseMutexFree = true ∧
      ∃ request, c.Sent request ∧ d.record.handled = c.record.returned ++ [(request, [])]

/-- The call that `c` has begun to write and its peer has not taken. -/
def callQueue (c : Connector) : Stage → List Message
  | .out =>
    match c.send with
    | .payload request | .waiting request => [.call request]
    | .idle | .entered _ | .length _ => []
  | _ => []

/-- The message the listener has read and not taken. -/
def received (c : Connector) : List Bytes :=
  match c.listener with
  | .received message => [message]
  | _ => []

end Connector

/-- The answer to a call at this stage that its caller has not taken. -/
def answerQueue : Stage → List Message
  | .back response => [.answer response]
  | _ => []

/-- The messages that `c` has begun to write and its peer has not taken. -/
def queue (c : Connector) (own peer : Stage) : List Message := answerQueue peer ++ c.callQueue own

/-- `d` has taken all messages of `c` but these, which are on the wire. -/
structure Wire (c d : Connector) (wire : Bytes) (messages : List Message) : Prop where
  written : c.record.written = d.record.taken ++ messages
  arrival : ∃ rest, d.received ++ rest = messages.map Message.text ∧
    wire ++ c.due = rest.flatMap frame
  sizes : ∀ m ∈ messages, m.text.length < 2 ^ 32

/-- The messages that `c` is about to write are of a size that fits. -/
structure Small (c : Connector) : Prop where
  request : ∀ request, c.send = .entered request ∨ c.send = .length request →
    request.length < 2 ^ 32
  response : ∀ response, c.listener = .length response → response.length < 2 ^ 32

/-- What polite steps keep true, with the stages of the calls of both ends. -/
structure Link.Holds (l : Link) (own peer : Stage) : Prop where
  compatible : Compatible own peer
  ownStage : l.here.AtStage l.there own
  peerStage : l.there.AtStage l.here peer
  wireOut : Wire l.here l.there l.toThere (queue l.here own peer)
  wireIn : Wire l.there l.here l.toHere (queue l.there peer own)
  smallHere : Small l.here
  smallThere : Small l.there
  handledHere : l.here.record.handled.map Prod.fst = l.here.record.taken.filterMap Message.call?
  handledThere : l.there.record.handled.map Prod.fst = l.there.record.taken.filterMap Message.call?

namespace Connector

/-- A stage concerns the peer only through what it handled and how its listener
stands. -/
theorem AtStage.of_peer {c d d' : Connector} {s : Stage} (h : c.AtStage d s)
    (hhandled : d'.record.handled = d.record.handled) (hlistener : d'.listener = d.listener)
    (hwaiting : d'.waitingResponse = d.waitingResponse) : c.AtStage d' s := by
  have hfree : d'.responseMutexFree = d.responseMutexFree := by
    simp only [responseMutexFree, hlistener]
  cases s <;> simpa only [AtStage, hhandled, hlistener, hwaiting, hfree] using h

/-- While the peer's listener answers nothing, it is all one what else it does. -/
theorem AtStage.of_free {c d d' : Connector} {s : Stage} (h : c.AtStage d s)
    (hhandled : d'.record.handled = d.record.handled) (hfree : d.responseMutexFree = true)
    (hfree' : d'.responseMutexFree = true) : c.AtStage d' s := by
  cases s with
  | quiet => simpa only [AtStage, hhandled, hfree, hfree'] using h
  | out => simpa only [AtStage, hhandled, hfree, hfree'] using h
  | lost => simpa only [AtStage, hhandled, hfree, hfree'] using h
  | back response =>
    obtain ⟨hwaiting, hhas, hne, -, hrest⟩ := h
    exact ⟨hwaiting, hhas, hne, .inl hfree', by simpa only [hhandled] using hrest⟩
  | answering response =>
    obtain ⟨-, -, -, hlistener, -⟩ := h
    simp [responseMutexFree, hlistener] at hfree

end Connector

namespace Wire

variable {c c' d d' : Connector} {wire : Bytes} {messages : List Message}

theorem of_reader (h : Wire c d wire messages) (htaken : d'.record.taken = d.record.taken)
    (hreceived : d'.received = d.received) : Wire c d' wire messages where
  written := by rw [htaken]; exact h.written
  arrival := by rw [hreceived]; exact h.arrival
  sizes := h.sizes

theorem of_writer (h : Wire c d wire messages) {more : Bytes} (hdue : more ++ c'.due = c.due)
    (hwritten : c'.record.written = c.record.written) : Wire c' d (wire ++ more) messages where
  written := by rw [hwritten]; exact h.written
  arrival := by rw [List.append_assoc, hdue]; exact h.arrival
  sizes := h.sizes

theorem of_writer_same (h : Wire c d wire messages)
    (hwritten : c'.record.written = c.record.written) (hdue : c'.due = c.due) :
    Wire c' d wire messages where
  written := by rw [hwritten]; exact h.written
  arrival := by rw [hdue]; exact h.arrival
  sizes := h.sizes

/-- A message begins while the writer owes nothing. -/
theorem begin (h : Wire c d wire messages) (hdue : c.due = []) {m : Message}
    (hm : m.text.length < 2 ^ 32) (hwritten : c'.record.written = c.record.written ++ [m])
    (hdue' : c'.due = m.text) : Wire c' d (wire ++ lengthPrefix m.text) (messages ++ [m]) where
  written := by rw [hwritten, h.written, List.append_assoc]
  arrival := by
    obtain ⟨rest, hrest, hwire⟩ := h.arrival
    rw [hdue, List.append_nil] at hwire
    refine ⟨rest ++ [m.text], ?_, ?_⟩
    · rw [← List.append_assoc, hrest]
      simp
    · rw [hdue', List.append_assoc, hwire]
      simp [frame]
  sizes := by
    intro x hx
    obtain hold | hnew := List.mem_append.mp hx
    · exact h.sizes x hold
    · rw [List.mem_singleton.mp hnew]
      exact hm

/-- The listener reads the next of the messages. -/
theorem read (h : Wire c d wire messages) (hreading : d.received = []) {text rest : Bytes}
    (htake : takeFrame wire = some (text, rest)) (htaken : d'.record.taken = d.record.taken)
    (hreceived : d'.received = [text]) : Wire c d' rest messages where
  written := by rw [htaken]; exact h.written
  arrival := by
    obtain ⟨texts, htexts, hwire⟩ := h.arrival
    rw [hreading, List.nil_append] at htexts
    have hmore := takeFrame_append htake c.due
    rw [hwire] at hmore
    cases texts with
    | nil => exact absurd (takeFrame_nil.symm.trans hmore) (by simp)
    | cons first texts =>
      have hfirst : first.length < 2 ^ 32 := by
        have hmem : first ∈ messages.map Message.text := by
          rw [← htexts]
          exact List.mem_cons_self
        obtain ⟨m, hm, rfl⟩ := List.mem_map.mp hmem
        exact h.sizes m hm
      rw [List.flatMap_cons, takeFrame_frame_append hfirst] at hmore
      obtain ⟨rfl, hrest⟩ := Prod.mk.inj (Option.some.inj hmore)
      refine ⟨texts, ?_, hrest.symm⟩
      rw [hreceived]
      exact htexts
  sizes := h.sizes

/-- The message that the listener has read is the first of those not taken. -/
theorem received_eq (h : Wire c d wire messages) {text : Bytes} (hreceived : d.received = [text]) :
    ∃ m rest, messages = m :: rest ∧ m.text = text ∧
      wire ++ c.due = (rest.map Message.text).flatMap frame := by
  obtain ⟨texts, htexts, hwire⟩ := h.arrival
  rw [hreceived] at htexts
  cases messages with
  | nil => simp at htexts
  | cons m rest =>
    simp only [List.map_cons, List.cons_append, List.nil_append, List.cons.injEq] at htexts
    refine ⟨m, rest, rfl, htexts.1.symm, ?_⟩
    rw [hwire, htexts.2]

/-- The listener takes the message that it has read. -/
theorem take {m : Message} {text : Bytes} (h : Wire c d wire (m :: messages))
    (hreceived : d.received = [text]) (htaken : d'.record.taken = d.record.taken ++ [m])
    (hreceived' : d'.received = []) : Wire c d' wire messages where
  written := by
    rw [htaken, h.written]
    simp
  arrival := by
    obtain ⟨texts, htexts, hwire⟩ := h.arrival
    rw [hreceived] at htexts
    refine ⟨texts, ?_, hwire⟩
    rw [hreceived']
    simpa using (List.cons.inj htexts).2
  sizes := fun x hx => h.sizes x (List.mem_cons_of_mem m hx)

/-- With nothing to take the wire is empty. -/
theorem nothing (h : Wire c d wire []) : wire = [] ∧ d.received = [] := by
  obtain ⟨texts, htexts, hwire⟩ := h.arrival
  obtain ⟨hreceived, rfl⟩ := List.append_eq_nil_iff.mp htexts
  exact ⟨(List.append_eq_nil_iff.mp hwire).1, hreceived⟩

end Wire

end CodeStudy.Jsonrpc
