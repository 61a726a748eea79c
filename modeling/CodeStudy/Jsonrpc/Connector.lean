import CodeStudy.Base.Frame

/-!
# One connector of a TCP stream

`AsioClientConnector` and `AsioServerConnector` share their code: a `Send` that
writes a request and waits for the answer, and a listener thread that reads
messages from the same socket and takes each either as the answer `Send` waits
for or as a call of the peer. The demo server has a single connection.

A step is what one thread does between two points at which the other can see a
difference. A step that takes a mutex is possible only while it is free.
-/

namespace CodeStudy.Jsonrpc

/-- The `Send` that holds `send_mutex`, by what it does next. -/
inductive SendPhase where
  /-- No `Send` holds the mutex. -/
  | idle
  /-- Mark that a response is awaited, under `response_mutex`. -/
  | entered (request : Bytes)
  | length (request : Bytes)
  | payload (request : Bytes)
  /-- Wait for `has_response`. -/
  | waiting (request : Bytes)
deriving DecidableEq, Repr

/-- The listener thread, by what it does next. -/
inductive ListenerPhase where
  | reading
  /-- A message is read; lock `response_mutex`. -/
  | received (message : Bytes)
  /-- Write the length of an answer, holding `response_mutex`. -/
  | length (response : Bytes)
  /-- Write the answer, holding `response_mutex`. -/
  | payload (response : Bytes)
deriving DecidableEq, Repr

/-- A message with what its writer means by it, or how its reader takes it. -/
inductive Message where
  | call (text : Bytes)
  | answer (text : Bytes)
deriving DecidableEq, Repr

def Message.text : Message → Bytes
  | .call text => text
  | .answer text => text

/-- What has happened at a connector so far. -/
structure Record where
  /-- Everything written to the socket. -/
  stream : Bytes
  /-- The messages whose writing has begun. -/
  written : List Message
  /-- The messages of the peer, as the listener took them. -/
  taken : List Message
  /-- The arguments and results of `rpc_cb_server_.HandleRequest`. -/
  handled : List (Bytes × Bytes)
  /-- The arguments and results of `Send`. -/
  returned : List (Bytes × Bytes)
deriving DecidableEq, Repr

structure Connector where
  send : SendPhase
  listener : ListenerPhase
  waitingResponse : Bool
  hasResponse : Bool
  lastResponse : Bytes
  record : Record
deriving DecidableEq, Repr

inductive Op where
  /-- A call of `Send` takes `send_mutex`. -/
  | send (request : Bytes)
  | await
  | sendLength
  | sendPayload
  /-- `Send` is woken and returns. -/
  | finish
  /-- The listener has read a whole message. -/
  | read (message : Bytes)
  /-- The listener locks `response_mutex` and takes the message; for a call
  `response` is what `HandleRequest` returns. -/
  | take (response : Bytes)
  | answerLength
  | answerPayload
deriving DecidableEq, Repr

namespace Connector

def initial : Connector where
  send := .idle
  listener := .reading
  waitingResponse := false
  hasResponse := false
  lastResponse := []
  record := ⟨[], [], [], [], []⟩

/-- The listener holds `response_mutex` from the moment it takes a call until
the answer is written. -/
def responseMutexFree (c : Connector) : Bool :=
  match c.listener with
  | .reading | .received _ => true
  | .length _ | .payload _ => false

def write (c : Connector) (b : Bytes) : Connector :=
  { c with record := { c.record with stream := c.record.stream ++ b } }

/-- A message's length goes out. -/
def begin (c : Connector) (m : Message) : Connector :=
  { c with
    record :=
      { c.record with
        stream := c.record.stream ++ lengthPrefix m.text
        written := c.record.written ++ [m] } }

/-- The message is taken as the response that `Send` waits for. -/
def takeAnswer (c : Connector) (message : Bytes) : Connector :=
  { c with
    listener := .reading
    lastResponse := message
    hasResponse := true
    waitingResponse := false
    record := { c.record with taken := c.record.taken ++ [.answer message] } }

/-- The message is passed to `HandleRequest`, which returns `response`. -/
def takeCall (c : Connector) (message response : Bytes) : Connector :=
  { c with
    listener := if response = [] then .reading else .length response
    record :=
      { c.record with
        taken := c.record.taken ++ [.call message]
        handled := c.record.handled ++ [(message, response)] } }

/-- One step of either thread, first those of `Send` and then those of the
listener; `none` when it cannot be taken. -/
def step (c : Connector) : Op → Option Connector
  | .send request =>
    match c.send with
    | .idle => some { c with send := .entered request }
    | _ => none
  | .await =>
    match c.send with
    | .entered request =>
      if c.responseMutexFree then
        some { c with send := .length request, waitingResponse := true, hasResponse := false }
      else none
    | _ => none
  | .sendLength =>
    match c.send with
    | .length request => some { c.begin (.call request) with send := .payload request }
    | _ => none
  | .sendPayload =>
    match c.send with
    | .payload request => some { c.write request with send := .waiting request }
    | _ => none
  | .finish =>
    match c.send with
    | .waiting request =>
      if c.responseMutexFree ∧ c.hasResponse then
        some
          { c with
            send := .idle
            record :=
              { c.record with
                returned := c.record.returned ++ [(request, c.lastResponse)] } }
      else none
    | _ => none
  | .read message =>
    match c.listener with
    | .reading => some { c with listener := .received message }
    | _ => none
  | .take response =>
    match c.listener with
    | .received message =>
      some (if c.waitingResponse then c.takeAnswer message else c.takeCall message response)
    | _ => none
  | .answerLength =>
    match c.listener with
    | .length response => some { c.begin (.answer response) with listener := .payload response }
    | _ => none
  | .answerPayload =>
    match c.listener with
    | .payload response => some { c.write response with listener := .reading }
    | _ => none

def run (c : Connector) : List Op → Option Connector
  | [] => some c
  | op :: ops => (c.step op).bind fun c' => c'.run ops

/-! ### What each step can do -/

section Steps

variable {c c' : Connector}

theorem of_step_send {request : Bytes} (h : c.step (.send request) = some c') :
    c.send = .idle ∧ c' = { c with send := .entered request } := by
  cases hsend : c.send with
  | idle => exact ⟨rfl, by simpa [step, hsend] using h.symm⟩
  | entered | length | payload | waiting => simp [step, hsend] at h

theorem of_step_await (h : c.step .await = some c') :
    ∃ request, c.send = .entered request ∧ c.responseMutexFree ∧
      c' = { c with send := .length request, waitingResponse := true, hasResponse := false } := by
  cases hsend : c.send with
  | entered request =>
    by_cases hfree : c.responseMutexFree = true
    · exact ⟨request, rfl, hfree, by simpa [step, hsend, hfree] using h.symm⟩
    · simp [step, hsend, hfree] at h
  | idle | length | payload | waiting => simp [step, hsend] at h

theorem of_step_sendLength (h : c.step .sendLength = some c') :
    ∃ request, c.send = .length request ∧
      c' = { c.begin (.call request) with send := .payload request } := by
  cases hsend : c.send with
  | length request => exact ⟨request, rfl, by simpa [step, hsend] using h.symm⟩
  | idle | entered | payload | waiting => simp [step, hsend] at h

theorem of_step_sendPayload (h : c.step .sendPayload = some c') :
    ∃ request, c.send = .payload request ∧
      c' = { c.write request with send := .waiting request } := by
  cases hsend : c.send with
  | payload request => exact ⟨request, rfl, by simpa [step, hsend] using h.symm⟩
  | idle | entered | length | waiting => simp [step, hsend] at h

theorem of_step_finish (h : c.step .finish = some c') :
    ∃ request, c.send = .waiting request ∧ c.responseMutexFree ∧ c.hasResponse ∧
      c' =
        { c with
          send := .idle
          record :=
            { c.record with
              returned := c.record.returned ++ [(request, c.lastResponse)] } } := by
  cases hsend : c.send with
  | waiting request =>
    by_cases hready : c.responseMutexFree = true ∧ c.hasResponse = true
    · exact ⟨request, rfl, hready.1, hready.2, by simpa [step, hsend, hready] using h.symm⟩
    · simp [step, hsend, hready] at h
  | idle | entered | length | payload => simp [step, hsend] at h

theorem of_step_read {message : Bytes} (h : c.step (.read message) = some c') :
    c.listener = .reading ∧ c' = { c with listener := .received message } := by
  cases hlistener : c.listener with
  | reading => exact ⟨rfl, by simpa [step, hlistener] using h.symm⟩
  | received | length | payload => simp [step, hlistener] at h

theorem of_step_take {response : Bytes} (h : c.step (.take response) = some c') :
    ∃ message, c.listener = .received message ∧
      (c.waitingResponse = true ∧ c' = c.takeAnswer message ∨
        c.waitingResponse = false ∧ c' = c.takeCall message response) := by
  cases hlistener : c.listener with
  | received message =>
    refine ⟨message, rfl, ?_⟩
    by_cases hwaiting : c.waitingResponse = true
    · exact .inl ⟨hwaiting, by simpa [step, hlistener, hwaiting] using h.symm⟩
    · exact .inr ⟨by simpa using hwaiting, by simpa [step, hlistener, hwaiting] using h.symm⟩
  | reading | length | payload => simp [step, hlistener] at h

theorem of_step_answerLength (h : c.step .answerLength = some c') :
    ∃ response, c.listener = .length response ∧
      c' = { c.begin (.answer response) with listener := .payload response } := by
  cases hlistener : c.listener with
  | length response => exact ⟨response, rfl, by simpa [step, hlistener] using h.symm⟩
  | reading | received | payload => simp [step, hlistener] at h

theorem of_step_answerPayload (h : c.step .answerPayload = some c') :
    ∃ response, c.listener = .payload response ∧
      c' = { c.write response with listener := .reading } := by
  cases hlistener : c.listener with
  | payload response => exact ⟨response, rfl, by simpa [step, hlistener] using h.symm⟩
  | reading | received | length => simp [step, hlistener] at h

end Steps

end Connector

end CodeStudy.Jsonrpc
