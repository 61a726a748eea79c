import CodeStudy.Jsonrpc.Connector

/-!
# The frames two threads write to one socket

`Send` writes under `send_mutex` and the listener under `response_mutex`; what
keeps their frames apart is `waiting_response`, since the listener writes
nothing while it is set. It is cleared by the next message of the peer, whatever
that is, and from then on the listener may answer a call in the middle of a
`Send` that is still writing.
-/

namespace CodeStudy.Jsonrpc

namespace Connector

/-- `Send` has announced itself to the listener and has not written all of its
request. -/
def sending (c : Connector) : Bool :=
  match c.send with
  | .length _ | .payload _ => true
  | .idle | .entered _ | .waiting _ => false

/-- The payload of which `Send` has written the length only. -/
def dueOfSend (c : Connector) : Bytes :=
  match c.send with
  | .payload request => request
  | _ => []

/-- The payload of which the listener has written the length only. -/
def dueOfListener (c : Connector) : Bytes :=
  match c.listener with
  | .payload response => response
  | _ => []

def due (c : Connector) : Bytes := c.dueOfSend ++ c.dueOfListener

theorem dueOfListener_of_free {c : Connector} (h : c.responseMutexFree = true) :
    c.dueOfListener = [] := by
  cases hlistener : c.listener with
  | reading | received | length => simp [dueOfListener, hlistener]
  | payload => simp [responseMutexFree, hlistener] at h

theorem dueOfSend_of_not_sending {c : Connector} (h : c.sending = false) : c.dueOfSend = [] := by
  cases hsend : c.send with
  | idle | entered | length | waiting => simp [dueOfSend, hsend]
  | payload => simp [sending, hsend] at h

/-- A message that four bytes can count, and no call answered while `Send` writes. -/
def Orderly (c : Connector) : Op → Bool
  | .send request => decide (request.length < 2 ^ 32)
  | .take response =>
    c.waitingResponse || response.isEmpty ||
      (decide (response.length < 2 ^ 32) && !c.sending)
  | _ => true

def OrderlyAlong (c : Connector) : List Op → Bool
  | [] => true
  | op :: ops => c.Orderly op && (c.step op).all fun c' => c'.OrderlyAlong ops

/-- The stream is the frames of the messages written, the last up to what is
still due, and once nothing is due it parses back to just these messages. -/
structure WellFramed (c : Connector) : Prop where
  stream_due : c.record.stream ++ c.due = (c.record.written.map Message.text).flatMap frame
  parses : c.due = [] → parseFrames c.record.stream = some (c.record.written.map Message.text)

/-- What orderly steps keep true. -/
structure Framing (c : Connector) : Prop where
  stream_due : c.record.stream ++ c.due = (c.record.written.map Message.text).flatMap frame
  written : ∀ m ∈ c.record.written, m.text.length < 2 ^ 32
  request : ∀ request, c.send = .entered request ∨ c.send = .length request →
    request.length < 2 ^ 32
  response : ∀ response, c.listener = .length response → response.length < 2 ^ 32
  apart : c.sending = true → c.responseMutexFree = true

theorem Framing.wellFramed {c : Connector} (h : c.Framing) : c.WellFramed where
  stream_due := h.stream_due
  parses := by
    intro hdue
    have hstream := h.stream_due
    rw [hdue, List.append_nil] at hstream
    rw [hstream]
    apply parseFrames_flatMap
    intro m hm
    obtain ⟨message, hmessage, rfl⟩ := List.mem_map.mp hm
    exact h.written message hmessage

theorem framing_initial : initial.Framing where
  stream_due := rfl
  written := by intro m hm; simp [initial] at hm
  request := by intro request hrequest; simp [initial] at hrequest
  response := by intro response hresponse; simp [initial] at hresponse
  apart := by intro hsending; simp [initial, sending] at hsending

/-- A message begins while nothing is due. -/
theorem stream_begin {c : Connector}
    (h : c.record.stream = (c.record.written.map Message.text).flatMap frame) (m : Message) :
    (c.begin m).record.stream ++ m.text =
      ((c.begin m).record.written.map Message.text).flatMap frame := by
  simp [begin, h, frame]

theorem Framing.begin_sizes {c : Connector} (h : c.Framing) {m : Message}
    (hm : m.text.length < 2 ^ 32) : ∀ x ∈ (c.begin m).record.written, x.text.length < 2 ^ 32 := by
  intro x hx
  obtain hold | hnew := List.mem_append.mp hx
  · exact h.written x hold
  · rw [List.mem_singleton.mp hnew]
    exact hm

theorem Framing.step {c c' : Connector} (h : c.Framing) {op : Op} (horderly : c.Orderly op)
    (hstep : c.step op = some c') : c'.Framing := by
  have hstream := h.stream_due
  cases op with
  | send request =>
    obtain ⟨hsend, rfl⟩ := of_step_send hstep
    refine ⟨?_, h.written, ?_, h.response, ?_⟩
    · simpa [due, dueOfSend, dueOfListener, hsend] using hstream
    · intro r hr
      obtain rfl : request = r := by simpa using hr
      simpa [Orderly] using horderly
    · simp [sending]
  | await =>
    obtain ⟨request, hsend, hfree, rfl⟩ := of_step_await hstep
    refine ⟨?_, h.written, ?_, h.response, fun _ => hfree⟩
    · simpa [due, dueOfSend, dueOfListener, hsend] using hstream
    · intro r hr
      obtain rfl : request = r := by simpa using hr
      exact h.request request (.inl hsend)
  | sendLength =>
    obtain ⟨request, hsend, rfl⟩ := of_step_sendLength hstep
    have hfree := h.apart (by simp [sending, hsend])
    have hlistener := dueOfListener_of_free hfree
    simp only [due, dueOfSend, hsend, hlistener, List.append_nil] at hstream
    refine ⟨?_, h.begin_sizes (h.request request (.inr hsend)), ?_, h.response, fun _ => hfree⟩
    · show (c.begin (.call request)).record.stream ++ (request ++ c.dueOfListener) = _
      rw [hlistener, List.append_nil]
      exact stream_begin hstream (.call request)
    · simp
  | sendPayload =>
    obtain ⟨request, hsend, rfl⟩ := of_step_sendPayload hstep
    have hlistener := dueOfListener_of_free (h.apart (by simp [sending, hsend]))
    simp only [due, dueOfSend, hsend, hlistener, List.append_nil] at hstream
    refine ⟨?_, h.written, ?_, h.response, ?_⟩
    · show c.record.stream ++ request ++ ([] ++ c.dueOfListener) = _
      rw [hlistener, List.append_nil]
      simpa [write] using hstream
    · simp
    · simp [sending]
  | finish =>
    obtain ⟨request, hsend, -, -, rfl⟩ := of_step_finish hstep
    refine ⟨?_, h.written, ?_, h.response, ?_⟩
    · simpa [due, dueOfSend, dueOfListener, hsend] using hstream
    · simp
    · simp [sending]
  | read message =>
    obtain ⟨hlistener, rfl⟩ := of_step_read hstep
    refine ⟨?_, h.written, h.request, ?_, fun _ => rfl⟩
    · simpa [due, dueOfSend, dueOfListener, hlistener] using hstream
    · simp
  | take response =>
    obtain ⟨message, hlistener, ⟨hwaiting, rfl⟩ | ⟨hwaiting, rfl⟩⟩ := of_step_take hstep
    · refine ⟨?_, h.written, h.request, ?_, fun _ => rfl⟩
      · simpa [due, dueOfSend, dueOfListener, takeAnswer, hlistener] using hstream
      · simp [takeAnswer]
    · have hapart : response = [] ∨ response.length < 2 ^ 32 ∧ c.sending = false := by
        simpa [Orderly, hwaiting] using horderly
      refine ⟨?_, h.written, h.request, ?_, ?_⟩
      · by_cases hempty : response = []
        · simpa [due, dueOfSend, dueOfListener, takeCall, hlistener, hempty] using hstream
        · simpa [due, dueOfSend, dueOfListener, takeCall, hlistener, hempty] using hstream
      · intro r hr
        by_cases hempty : response = []
        · simp [takeCall, hempty] at hr
        · obtain rfl : response = r := by simpa [takeCall, hempty] using hr
          exact (hapart.resolve_left hempty).1
      · intro hsending
        by_cases hempty : response = []
        · simp [takeCall, hempty, responseMutexFree]
        · exact absurd hsending (by simpa [sending, takeCall] using (hapart.resolve_left hempty).2)
  | answerLength =>
    obtain ⟨response, hlistener, rfl⟩ := of_step_answerLength hstep
    have hsending : c.sending = false := by
      by_contra hsending
      have hfree := h.apart (by simpa using hsending)
      simp [responseMutexFree, hlistener] at hfree
    have hsend := dueOfSend_of_not_sending hsending
    simp only [due, dueOfListener, hlistener, hsend, List.append_nil] at hstream
    refine ⟨?_, h.begin_sizes (h.response response hlistener), h.request, ?_, ?_⟩
    · show (c.begin (.answer response)).record.stream ++ (c.dueOfSend ++ response) = _
      rw [hsend]
      exact stream_begin hstream (.answer response)
    · simp
    · intro hsending'
      exact absurd (hsending.symm.trans hsending') (by simp)
  | answerPayload =>
    obtain ⟨response, hlistener, rfl⟩ := of_step_answerPayload hstep
    have hsending : c.sending = false := by
      by_contra hsending
      have hfree := h.apart (by simpa using hsending)
      simp [responseMutexFree, hlistener] at hfree
    have hsend := dueOfSend_of_not_sending hsending
    simp only [due, dueOfListener, hlistener, hsend] at hstream
    refine ⟨?_, h.written, h.request, ?_, fun _ => rfl⟩
    · show c.record.stream ++ response ++ (c.dueOfSend ++ []) = _
      rw [hsend, List.append_nil]
      simpa [write] using hstream
    · simp

theorem Framing.run {c c' : Connector} (h : c.Framing) {ops : List Op}
    (horderly : c.OrderlyAlong ops) (hrun : c.run ops = some c') : c'.Framing := by
  induction ops generalizing c with
  | nil =>
    obtain rfl := Option.some.inj hrun
    exact h
  | cons op ops ih =>
    obtain ⟨c₁, hstep, hrest⟩ := Option.bind_eq_some_iff.mp hrun
    simp only [OrderlyAlong, hstep, Option.all_some, Bool.and_eq_true] at horderly
    exact ih (h.step horderly.1 hstep) horderly.2 hrest

/-- In a run whose steps are orderly the frames stay apart in every state. -/
theorem wellFramed_of_orderlyAlong (ops : List Op) (c : Connector)
    (horderly : initial.OrderlyAlong ops) (hrun : initial.run ops = some c) : c.WellFramed :=
  (framing_initial.run horderly hrun).wellFramed

/-- A call of the peer is answered, and then a `Send` gets its response while
another call is read. -/
def orderlyExample : List Op :=
  [.read [1], .send [2, 3], .take [4], .answerLength, .answerPayload, .await, .read [5],
    .sendLength, .sendPayload, .take [], .finish]

theorem wellFramed_orderlyExample :
    ∃ c, initial.run orderlyExample = some c ∧ c.WellFramed := by
  have hrun : (initial.run orderlyExample).isSome = true := by decide
  obtain ⟨c, hc⟩ := Option.isSome_iff_exists.mp hrun
  exact ⟨c, hc, wellFramed_of_orderlyAlong orderlyExample c (by decide) hc⟩

/-- `Send` is between its two writes when two calls of the peer come in; the
second is answered. -/
def crossedExample : List Op :=
  [.send [97, 98], .await, .sendLength, .read [1], .take [], .read [2], .take [114], .answerLength,
    .answerPayload, .sendPayload]

/-- Both messages are written completely, and the stream does not parse. -/
theorem not_parses_crossedExample :
    ∃ c, initial.run crossedExample = some c ∧ c.due = [] ∧
      c.record.written = [.call [97, 98], .answer [114]] ∧
      parseFrames c.record.stream = none := by
  have hrun : (initial.run crossedExample).any (fun c =>
      c.due == [] && c.record.written == [.call [97, 98], .answer [114]] &&
        c.record.stream == [0, 0, 0, 2, 0, 0, 0, 1, 114, 97, 98]) = true := by decide
  obtain ⟨c, hc, hstate⟩ := (Option.any_eq_true _ _).mp hrun
  simp only [Bool.and_eq_true, beq_iff_eq] at hstate
  obtain ⟨⟨hdue, hwritten⟩, hstream⟩ := hstate
  have hfirst : takeFrame [0, 0, 0, 2, 0, 0, 0, 1, 114, 97, 98] =
      some ([0, 0], [0, 1, 114, 97, 98]) := by decide
  refine ⟨c, hc, hdue, hwritten, ?_⟩
  rw [hstream, parseFrames_of_takeFrame hfirst,
    parseFrames_of_takeFrame_none (by decide) (by decide)]
  rfl

end Connector

end CodeStudy.Jsonrpc
