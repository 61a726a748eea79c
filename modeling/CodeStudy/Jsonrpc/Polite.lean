import CodeStudy.Jsonrpc.Crossing

/-!
# Runs in which no two calls cross

One lemma for each step of one end says to which stages the two calls go; by
induction the stages describe every state that polite steps reach, and from
them each message is taken as what it is and each `Send` gets its response.
-/

namespace CodeStudy.Jsonrpc

open Connector

/-- The stage of a call that was answered like this. -/
def Stage.afterTake (response : Bytes) : Stage :=
  if response = [] then .lost else .answering response

namespace Link.Holds

variable {l : Link} {own peer : Stage}

/-- A `Send` that has nothing under way has no response to wait for. -/
theorem quiet_of_send (h : l.Holds own peer)
    (hsend : l.here.send = .idle ∨ ∃ request, l.here.send = .entered request) : own = .quiet := by
  have hstage := h.ownStage
  cases own with
  | quiet => rfl
  | out =>
    obtain ⟨-, -, -, ⟨request, hcalling⟩, -⟩ := hstage
    obtain hidle | ⟨r, hentered⟩ := hsend <;> simp_all
  | answering response =>
    obtain ⟨-, -, -, -, -, request, hsent, -⟩ := hstage
    obtain hidle | ⟨r, hentered⟩ := hsend <;> simp_all [Sent]
  | back response =>
    obtain ⟨-, -, -, -, request, hsent, -⟩ := hstage
    obtain hidle | ⟨r, hentered⟩ := hsend <;> simp_all [Sent]
  | lost =>
    obtain ⟨-, -, -, request, hsent, -⟩ := hstage
    obtain hidle | ⟨r, hentered⟩ := hsend <;> simp_all [Sent]

theorem quiet_of_not_waiting (h : l.Holds own peer) (hwaiting : l.here.waitingResponse = false) :
    own = .quiet := by
  have hstage := h.ownStage
  cases own with
  | quiet => rfl
  | out | answering | back | lost => exact absurd (hwaiting.symm.trans hstage.1) (by simp)

theorem swap (h : l.Holds own peer) : l.swap.Holds peer own where
  compatible := h.compatible.symm
  ownStage := h.peerStage
  peerStage := h.ownStage
  wireOut := h.wireIn
  wireIn := h.wireOut
  smallHere := h.smallThere
  smallThere := h.smallHere
  handledHere := h.handledThere
  handledThere := h.handledHere

theorem send {request : Bytes} (h : l.Holds own peer) (hsend : l.here.send = .idle)
    (hsize : request.length < 2 ^ 32) :
    ({ l with here := { l.here with send := .entered request } } : Link).Holds own peer := by
  obtain rfl := h.quiet_of_send (.inl hsend)
  obtain ⟨hwaiting, hfree, hrest⟩ := h.ownStage
  refine ⟨h.compatible, ⟨hwaiting, hfree, .inl ⟨.inr ⟨request, rfl⟩, ?_⟩⟩,
    h.peerStage.of_peer rfl rfl rfl, h.wireOut.of_writer_same rfl ?_, h.wireIn.of_reader rfl rfl,
    ⟨?_, h.smallHere.response⟩, h.smallThere, h.handledHere, h.handledThere⟩
  · obtain ⟨-, heq⟩ | ⟨r, hsent, -⟩ := hrest
    · exact heq
    · simp [Sent, hsend] at hsent
  · simp [due, dueOfSend, dueOfListener, hsend]
  · intro r hr
    obtain rfl : request = r := by simpa using hr
    exact hsize

/-- What is on the wire or read, while this end has no call of its own, is the
answer to the call of the other end. -/
theorem back_of_pending (h : l.Holds .quiet peer)
    (hpending : l.toThere ≠ [] ∨ l.there.received ≠ []) : ∃ response, peer = .back response := by
  have hwire := h.wireOut
  cases peer with
  | back response => exact ⟨response, rfl⟩
  | quiet | out | answering | lost =>
    obtain ⟨hempty, hnone⟩ := Wire.nothing hwire
    exact absurd hpending (by simp [hempty, hnone])

theorem await {request : Bytes} (h : l.Holds own peer) (hsend : l.here.send = .entered request)
    (hfree : l.here.responseMutexFree = true) (hmay : l.MayAwait = true) :
    ({ l with
        here :=
          { l.here with
            send := .length request, waitingResponse := true, hasResponse := false } } :
      Link).Holds .out peer := by
  obtain rfl := h.quiet_of_send (.inr ⟨request, hsend⟩)
  obtain ⟨-, hfreeThere, hrest⟩ := h.ownStage
  have hpeer : peer = .quiet ∨ ∃ response, peer = .back response := by
    by_cases hwaiting : l.there.waitingResponse = false
    · exact .inl (h.swap.quiet_of_not_waiting hwaiting)
    · apply Or.inr
      apply h.back_of_pending
      cases hlistener : l.there.listener with
      | received message => exact .inr (by simp [received, hlistener])
      | reading | length | payload =>
        exact .inl (by simpa [MayAwait, hlistener, hwaiting] using hmay)
  have hhandled : l.there.record.handled = l.here.record.returned := by
    obtain ⟨-, heq⟩ | ⟨r, hsent, -⟩ := hrest
    · exact heq
    · simp [Sent, hsend] at hsent
  refine ⟨?_, ⟨rfl, rfl, hfreeThere, ⟨request, .inl rfl⟩, hhandled⟩,
    h.peerStage.of_free rfl hfree hfree, h.wireOut.of_writer_same rfl ?_,
    h.wireIn.of_reader rfl rfl, ⟨?_, h.smallHere.response⟩, h.smallThere, h.handledHere,
    h.handledThere⟩
  · obtain rfl | ⟨response, rfl⟩ := hpeer
    · exact .quietRight _
    · exact .outBack response
  · simp [due, dueOfSend, dueOfListener, hsend]
  · intro r hr
    obtain rfl : request = r := by simpa using hr
    exact h.smallHere.request request (.inl hsend)

/-- The request of this end is being written. -/
theorem out_of_length {request : Bytes} (h : l.Holds own peer)
    (hsend : l.here.send = .length request) : own = .out := by
  have hstage := h.ownStage
  cases own with
  | out => rfl
  | quiet =>
    obtain ⟨-, -, ⟨hidle | ⟨r, hentered⟩, -⟩ | ⟨r, hsent, -⟩⟩ := hstage
    · exact absurd (hsend.symm.trans hidle) (by simp)
    · exact absurd (hsend.symm.trans hentered) (by simp)
    · simp [Sent, hsend] at hsent
  | answering response =>
    obtain ⟨-, -, -, -, -, r, hsent, -⟩ := hstage
    simp [Sent, hsend] at hsent
  | back response =>
    obtain ⟨-, -, -, -, r, hsent, -⟩ := hstage
    simp [Sent, hsend] at hsent
  | lost =>
    obtain ⟨-, -, -, r, hsent, -⟩ := hstage
    simp [Sent, hsend] at hsent

/-- The listener of an end that awaits a response answers nothing. -/
theorem free_of_waiting (h : l.Holds own peer) (hwaiting : l.here.waitingResponse = true) :
    l.here.responseMutexFree = true := by
  have hstage := h.peerStage
  cases peer with
  | quiet => exact hstage.2.1
  | out => exact hstage.2.2.1
  | lost => exact hstage.2.2.1
  | answering response =>
    obtain ⟨-, -, -, -, hquiet, -⟩ := hstage
    exact absurd (hwaiting.symm.trans hquiet) (by simp)
  | back response =>
    obtain ⟨-, -, -, hfree | ⟨-, hquiet⟩, -⟩ := hstage
    · exact hfree
    · exact absurd (hwaiting.symm.trans hquiet) (by simp)

theorem sendLength {request : Bytes} (h : l.Holds own peer)
    (hsend : l.here.send = .length request) :
    ({ l with
        here := { l.here.begin (.call request) with send := .payload request }
        toThere := l.toThere ++ lengthPrefix request } : Link).Holds own peer := by
  obtain rfl := h.out_of_length hsend
  obtain ⟨hwaiting, hhas, hfreeThere, -, hhandled⟩ := h.ownStage
  have hlistener := dueOfListener_of_free (h.free_of_waiting hwaiting)
  have hqueue : queue l.here .out peer = answerQueue peer := by
    simp [queue, callQueue, hsend]
  have hwire := h.wireOut
  rw [hqueue] at hwire
  refine ⟨h.compatible, ⟨hwaiting, hhas, hfreeThere, ⟨request, .inr (.inl rfl)⟩, hhandled⟩,
    h.peerStage.of_peer rfl rfl rfl, ?_, h.wireIn.of_reader rfl rfl, ⟨?_, h.smallHere.response⟩,
    h.smallThere, h.handledHere, h.handledThere⟩
  · apply hwire.begin (m := .call request)
    · simp [due, dueOfSend, hsend, hlistener]
    · exact h.smallHere.request request (.inr hsend)
    · rfl
    · show request ++ l.here.dueOfListener = request
      rw [hlistener, List.append_nil]
  · simp

theorem sendPayload {request : Bytes} (h : l.Holds own peer)
    (hsend : l.here.send = .payload request) :
    ({ l with
        here := { l.here.write request with send := .waiting request }
        toThere := l.toThere ++ request } : Link).Holds own peer := by
  have hsent : ∀ r, l.here.Sent r → r = request := by
    rintro r (hwaiting | ⟨hpayload, -⟩)
    · exact absurd (hsend.symm.trans hwaiting) (by simp)
    · exact (SendPhase.payload.inj (hsend.symm.trans hpayload)).symm
  have hqueue : queue { l.here.write request with send := .waiting request } own peer =
      queue l.here own peer := by
    cases own <;> simp [queue, callQueue, hsend]
  refine ⟨h.compatible, ?_, h.peerStage.of_peer rfl rfl rfl, ?_, h.wireIn.of_reader rfl rfl,
    ⟨by simp, h.smallHere.response⟩, h.smallThere, h.handledHere, h.handledThere⟩
  · have hstage := h.ownStage
    cases own with
    | quiet =>
      obtain ⟨hwaiting, hfree, ⟨hidle | ⟨r, hentered⟩, -⟩ | ⟨r, hr, hhandled⟩⟩ := hstage
      · exact absurd (hsend.symm.trans hidle) (by simp)
      · exact absurd (hsend.symm.trans hentered) (by simp)
      · obtain rfl := hsent r hr
        exact ⟨hwaiting, hfree, .inr ⟨r, .inl rfl, hhandled⟩⟩
    | out =>
      obtain ⟨hwaiting, hhas, hfree, -, hhandled⟩ := hstage
      exact ⟨hwaiting, hhas, hfree, ⟨request, .inr (.inr rfl)⟩, hhandled⟩
    | answering response =>
      obtain ⟨hwaiting, hhas, hne, hlistener, hquiet, r, hr, hhandled⟩ := hstage
      obtain rfl := hsent r hr
      exact ⟨hwaiting, hhas, hne, hlistener, hquiet, r, .inl rfl, hhandled⟩
    | back response =>
      obtain ⟨hwaiting, hhas, hne, hlistener, r, hr, hhandled⟩ := hstage
      obtain rfl := hsent r hr
      exact ⟨hwaiting, hhas, hne, hlistener, r, .inl rfl, hhandled⟩
    | lost =>
      obtain ⟨hwaiting, hhas, hfree, r, hr, hhandled⟩ := hstage
      obtain rfl := hsent r hr
      exact ⟨hwaiting, hhas, hfree, r, .inl rfl, hhandled⟩
  · have hdue : request ++
        ({ l.here.write request with send := .waiting request } : Connector).due = l.here.due := by
      simp [due, dueOfSend, dueOfListener, hsend, write]
    show Wire _ l.there _ (queue _ own peer)
    rw [hqueue]
    exact h.wireOut.of_writer hdue rfl

/-- A response that has come belongs to a call that is over. -/
theorem quiet_of_hasResponse (h : l.Holds own peer) (hhas : l.here.hasResponse = true) :
    own = .quiet := by
  have hstage := h.ownStage
  cases own with
  | quiet => rfl
  | out | answering | back | lost => exact absurd (hhas.symm.trans hstage.2.1) (by simp)

theorem finish {request : Bytes} (h : l.Holds own peer) (hsend : l.here.send = .waiting request)
    (hhas : l.here.hasResponse = true) :
    ({ l with
        here :=
          { l.here with
            send := .idle
            record :=
              { l.here.record with
                returned := l.here.record.returned ++ [(request, l.here.lastResponse)] } } } :
      Link).Holds own peer := by
  obtain rfl := h.quiet_of_hasResponse hhas
  obtain ⟨hwaiting, hfree, ⟨hidle | ⟨r, hentered⟩, -⟩ | ⟨r, hr, hhandled⟩⟩ := h.ownStage
  · exact absurd (hsend.symm.trans hidle) (by simp)
  · exact absurd (hsend.symm.trans hentered) (by simp)
  · have hr' : r = request := by
      obtain hsent | ⟨hpayload, -⟩ := hr
      · exact (SendPhase.waiting.inj (hsend.symm.trans hsent)).symm
      · exact absurd (hsend.symm.trans hpayload) (by simp)
    subst hr'
    refine ⟨h.compatible, ⟨hwaiting, hfree, .inl ⟨.inl rfl, hhandled⟩⟩,
      h.peerStage.of_peer rfl rfl rfl, h.wireOut.of_writer_same rfl ?_, h.wireIn.of_reader rfl rfl,
      ⟨by simp, h.smallHere.response⟩, h.smallThere, h.handledHere, h.handledThere⟩
    simp [due, dueOfSend, dueOfListener, hsend]

theorem read {message rest : Bytes} (h : l.Holds own peer) (hlistener : l.here.listener = .reading)
    (htake : takeFrame l.toHere = some (message, rest)) :
    ({ l with here := { l.here with listener := .received message }, toHere := rest } :
      Link).Holds own peer := by
  have hfree : l.here.responseMutexFree = true := by simp [responseMutexFree, hlistener]
  have hnone : l.here.received = [] := by simp [received, hlistener]
  refine ⟨h.compatible, h.ownStage, h.peerStage.of_free rfl hfree rfl,
    h.wireOut.of_writer_same rfl ?_, h.wireIn.read hnone htake rfl rfl, ⟨h.smallHere.request, ?_⟩,
    h.smallThere, h.handledHere, h.handledThere⟩
  · simp [due, dueOfSend, dueOfListener, hlistener]
  · simp

/-- A message that has arrived while the answer is not among the messages of the
other end is its call. -/
theorem queue_of_received (h : l.Holds own peer) {message : Bytes}
    (hlistener : l.here.listener = .received message) :
    (∃ response, own = .back response) ∨ own = .quiet ∧ peer = .out := by
  have hreceived : l.here.received = [message] := by simp [received, hlistener]
  obtain ⟨m, rest, hqueue, -⟩ := h.wireIn.received_eq hreceived
  have hcompatible := h.compatible
  cases hcompatible with
  | quietLeft =>
    cases peer with
    | out => exact .inr ⟨rfl, rfl⟩
    | quiet | answering | back | lost => simp [queue, answerQueue, callQueue] at hqueue
  | quietRight =>
    cases own with
    | back response => exact .inl ⟨response, rfl⟩
    | quiet | out | answering | lost => simp [queue, answerQueue, callQueue] at hqueue
  | outBack => simp [queue, answerQueue, callQueue] at hqueue
  | backOut response => exact .inl ⟨response, rfl⟩

theorem takeAnswer {message : Bytes} (h : l.Holds own peer)
    (hlistener : l.here.listener = .received message)
    (hwaiting : l.here.waitingResponse = true) :
    ({ l with here := l.here.takeAnswer message } : Link).Holds .quiet peer := by
  have hreceived : l.here.received = [message] := by simp [received, hlistener]
  have hfreeHere : l.here.responseMutexFree = true := h.free_of_waiting hwaiting
  obtain ⟨response, rfl⟩ | ⟨rfl, -⟩ := h.queue_of_received hlistener
  · obtain ⟨-, -, hne, hthere, request, hsent, hhandled⟩ := h.ownStage
    have hwire := h.wireIn
    obtain ⟨m, rest, hqueue, htext, harrival⟩ := hwire.received_eq hreceived
    obtain ⟨rfl, rfl⟩ : .answer response = m ∧ l.there.callQueue peer = rest := by
      simpa [queue, answerQueue] using hqueue
    obtain rfl : response = message := htext
    have hfreeThere : l.there.responseMutexFree = true := by
      obtain hfree | ⟨hpayload, hquiet⟩ := hthere
      · exact hfree
      · -- the answer is not there before its payload is written
        obtain rfl := h.swap.quiet_of_not_waiting hquiet
        have hdue : l.there.due = l.there.dueOfSend ++ response := by
          simp [due, dueOfListener, hpayload]
        simp only [hdue, callQueue, List.map_nil, List.flatMap_nil, List.append_eq_nil_iff] at harrival
        exact absurd harrival.2.2 hne
    refine ⟨.quietLeft _, ⟨rfl, hfreeThere, .inr ⟨request, hsent, hhandled⟩⟩,
      h.peerStage.of_free rfl hfreeHere rfl, h.wireOut.of_writer_same rfl ?_,
      hwire.take hreceived rfl rfl, ⟨h.smallHere.request, by simp [Connector.takeAnswer]⟩,
      h.smallThere, ?_, h.handledThere⟩
    · simp [due, dueOfSend, dueOfListener, Connector.takeAnswer, hlistener]
    · simp [Connector.takeAnswer, h.handledHere, Message.call?]
  · exact absurd (hwaiting.symm.trans h.ownStage.1) (by simp)

theorem takeCall {message response : Bytes} (h : l.Holds own peer)
    (hlistener : l.here.listener = .received message)
    (hwaiting : l.here.waitingResponse = false) (hsize : response.length < 2 ^ 32) :
    ({ l with here := l.here.takeCall message response } : Link).Holds .quiet
      (Stage.afterTake response) := by
  have hreceived : l.here.received = [message] := by simp [received, hlistener]
  obtain ⟨response', rfl⟩ | ⟨rfl, rfl⟩ := h.queue_of_received hlistener
  · exact absurd (hwaiting.symm.trans h.ownStage.1) (by simp)
  · obtain ⟨hthere, hhas, -, ⟨request, hcalling⟩, hhandled⟩ := h.peerStage
    have hwire := h.wireIn
    obtain ⟨m, rest, hqueue, htext, harrival⟩ := hwire.received_eq hreceived
    have hsent : l.there.Sent message ∧ m = .call message ∧ rest = [] := by
      obtain hlength | hpayload | hsend := hcalling
      · simp [queue, answerQueue, callQueue, hlength] at hqueue
      · obtain ⟨rfl, rfl⟩ : .call request = m ∧ [] = rest := by
          simpa [queue, answerQueue, callQueue, hpayload] using hqueue
        obtain rfl : request = message := htext
        have hempty : request = [] := by
          have hdue : l.there.due = request ++ l.there.dueOfListener := by
            simp [due, dueOfSend, hpayload]
          simp only [hdue, List.map_nil, List.flatMap_nil, List.append_eq_nil_iff] at harrival
          exact harrival.2.1
        exact ⟨.inr ⟨hpayload, hempty⟩, rfl, rfl⟩
      · obtain ⟨rfl, rfl⟩ : .call request = m ∧ [] = rest := by
          simpa [queue, answerQueue, callQueue, hsend] using hqueue
        obtain rfl : request = message := htext
        exact ⟨.inl hsend, rfl, rfl⟩
    obtain ⟨hsent, rfl, rfl⟩ := hsent
    rw [hqueue] at hwire
    have hstage : l.there.AtStage (l.here.takeCall message response) (Stage.afterTake response) := by
      by_cases hempty : response = []
      · simp only [Stage.afterTake, if_pos hempty]
        refine ⟨hthere, hhas, by simp [Connector.takeCall, hempty, responseMutexFree], message,
          hsent, ?_⟩
        simp [Connector.takeCall, hhandled, hempty]
      · simp only [Stage.afterTake, if_neg hempty]
        refine ⟨hthere, hhas, hempty, by simp [Connector.takeCall, hempty], hwaiting, message,
          hsent, ?_⟩
        simp [Connector.takeCall, hhandled]
    have hnothing : queue (l.here.takeCall message response) .quiet (Stage.afterTake response) = [] := by
      by_cases hempty : response = [] <;> simp [queue, callQueue, answerQueue, Stage.afterTake, hempty]
    have hnothing' : queue l.there (Stage.afterTake response) .quiet = [] := by
      by_cases hempty : response = [] <;> simp [queue, callQueue, answerQueue, Stage.afterTake, hempty]
    have hnone : (l.here.takeCall message response).received = [] := by
      by_cases hempty : response = [] <;> simp [received, Connector.takeCall, hempty]
    refine ⟨.quietLeft _, h.ownStage, hstage, ?_, ?_, ⟨h.smallHere.request, ?_⟩, h.smallThere, ?_,
      h.handledThere⟩
    · show Wire _ l.there l.toThere (queue (l.here.takeCall message response) _ _)
      rw [hnothing]
      have hout := h.wireOut
      refine hout.of_writer_same rfl ?_
      by_cases hempty : response = [] <;>
        simp [due, dueOfSend, dueOfListener, Connector.takeCall, hlistener, hempty]
    · show Wire l.there _ l.toHere (queue l.there _ _)
      rw [hnothing']
      exact hwire.take hreceived rfl hnone
    · intro r hr
      by_cases hempty : response = []
      · simp [Connector.takeCall, hempty] at hr
      · obtain rfl : response = r := by simpa [Connector.takeCall, hempty] using hr
        exact hsize
    · simp [Connector.takeCall, h.handledHere, Message.call?]

/-- An end whose listener is busy answers a call or sends its answer, and awaits no response itself. -/
theorem stage_of_busy (h : l.Holds own peer) (hbusy : l.here.responseMutexFree = false) :
    own = .quiet ∧
      ((∃ response, peer = .answering response ∧ l.here.listener = .length response) ∨
        ∃ response, peer = .back response ∧ l.here.listener = .payload response) := by
  have hwaiting : l.here.waitingResponse = false := by
    by_contra hwaiting
    have hfree := h.free_of_waiting (by simpa using hwaiting)
    exact absurd (hbusy.symm.trans hfree) (by simp)
  refine ⟨h.quiet_of_not_waiting hwaiting, ?_⟩
  have hstage := h.peerStage
  cases peer with
  | answering response =>
    obtain ⟨-, -, -, hlistener, -⟩ := hstage
    exact .inl ⟨response, rfl, hlistener⟩
  | quiet => exact absurd (hbusy.symm.trans hstage.2.1) (by simp)
  | out => exact absurd (hbusy.symm.trans hstage.2.2.1) (by simp)
  | lost => exact absurd (hbusy.symm.trans hstage.2.2.1) (by simp)
  | back response =>
    obtain ⟨-, -, -, hfree | ⟨hpayload, -⟩, -⟩ := hstage
    · exact absurd (hbusy.symm.trans hfree) (by simp)
    · exact .inr ⟨response, rfl, hpayload⟩

theorem answering_of_length {response : Bytes} (h : l.Holds own peer)
    (hlistener : l.here.listener = .length response) :
    peer = .answering response ∧ own = .quiet := by
  obtain ⟨hown, ⟨response', hpeer, hlength⟩ | ⟨response', -, hpayload⟩⟩ :=
    h.stage_of_busy (by simp [responseMutexFree, hlistener])
  · rw [ListenerPhase.length.inj (hlistener.symm.trans hlength)]
    exact ⟨hpeer, hown⟩
  · exact absurd (hlistener.symm.trans hpayload) (by simp)

theorem back_of_payload {response : Bytes} (h : l.Holds own peer)
    (hlistener : l.here.listener = .payload response) :
    peer = .back response ∧ own = .quiet := by
  obtain ⟨hown, ⟨response', -, hlength⟩ | ⟨response', hpeer, hpayload⟩⟩ :=
    h.stage_of_busy (by simp [responseMutexFree, hlistener])
  · exact absurd (hlistener.symm.trans hlength) (by simp)
  · rw [ListenerPhase.payload.inj (hlistener.symm.trans hpayload)]
    exact ⟨hpeer, hown⟩

/-- A connector that awaits no response owes no part of a request. -/
theorem dueOfSend_of_quiet (h : l.Holds .quiet peer) : l.here.dueOfSend = [] := by
  obtain ⟨-, -, ⟨hidle | ⟨r, hentered⟩, -⟩ | ⟨r, hwaiting | ⟨hpayload, rfl⟩, -⟩⟩ := h.ownStage
  · simp [dueOfSend, hidle]
  · simp [dueOfSend, hentered]
  · simp [dueOfSend, hwaiting]
  · simp [dueOfSend, hpayload]

theorem answerLength {response : Bytes} (h : l.Holds own peer)
    (hlistener : l.here.listener = .length response) :
    ({ l with
        here := { l.here.begin (.answer response) with listener := .payload response }
        toThere := l.toThere ++ lengthPrefix response } : Link).Holds own (.back response) := by
  obtain ⟨rfl, rfl⟩ := h.answering_of_length hlistener
  obtain ⟨hthere, hhas, hne, -, hwaiting, hsent⟩ := h.peerStage
  have hsend := h.dueOfSend_of_quiet
  have hwire := h.wireOut
  refine ⟨.quietLeft _, h.ownStage, ⟨hthere, hhas, hne, .inr ⟨rfl, hwaiting⟩, hsent⟩, ?_,
    h.wireIn.of_reader rfl ?_, ⟨h.smallHere.request, by simp⟩, h.smallThere, h.handledHere,
    h.handledThere⟩
  · apply hwire.begin (m := .answer response)
    · simp [due, hsend, dueOfListener, hlistener]
    · exact h.smallHere.response response hlistener
    · rfl
    · show l.here.dueOfSend ++ response = response
      rw [hsend, List.nil_append]
  · simp [received, hlistener]

theorem answerPayload {response : Bytes} (h : l.Holds own peer)
    (hlistener : l.here.listener = .payload response) :
    ({ l with
        here := { l.here.write response with listener := .reading }
        toThere := l.toThere ++ response } : Link).Holds own peer := by
  obtain ⟨rfl, rfl⟩ := h.back_of_payload hlistener
  obtain ⟨hthere, hhas, hne, -, hsent⟩ := h.peerStage
  have hsend := h.dueOfSend_of_quiet
  have hdue : response ++
      ({ l.here.write response with listener := .reading } : Connector).due = l.here.due := by
    show response ++ (l.here.dueOfSend ++ []) = _
    simp [due, hsend, dueOfListener, hlistener]
  refine ⟨.quietLeft _, h.ownStage, ⟨hthere, hhas, hne, .inl rfl, hsent⟩,
    h.wireOut.of_writer hdue rfl, h.wireIn.of_reader rfl ?_, ⟨h.smallHere.request, by simp⟩,
    h.smallThere, h.handledHere, h.handledThere⟩
  simp [received, hlistener]

theorem stepHere {op : Op} {l' : Link} (h : l.Holds own peer) (hpolite : l.PoliteHere op)
    (hstep : l.stepHere op = some l') : ∃ own' peer', l'.Holds own' peer' := by
  cases op with
  | send request =>
    obtain ⟨c, hc, rfl⟩ := Option.map_eq_some_iff.mp hstep
    obtain ⟨hsend, rfl⟩ := of_step_send hc
    refine ⟨own, peer, ?_⟩
    simpa using h.send hsend (by simpa [PoliteHere] using hpolite)
  | await =>
    obtain ⟨c, hc, rfl⟩ := Option.map_eq_some_iff.mp hstep
    obtain ⟨request, hsend, hfree, rfl⟩ := of_step_await hc
    refine ⟨.out, peer, ?_⟩
    simpa using h.await hsend hfree hpolite
  | sendLength =>
    obtain ⟨c, hc, rfl⟩ := Option.map_eq_some_iff.mp hstep
    obtain ⟨request, hsend, rfl⟩ := of_step_sendLength hc
    refine ⟨own, peer, ?_⟩
    simpa [begin, Message.text] using h.sendLength hsend
  | sendPayload =>
    obtain ⟨c, hc, rfl⟩ := Option.map_eq_some_iff.mp hstep
    obtain ⟨request, hsend, rfl⟩ := of_step_sendPayload hc
    refine ⟨own, peer, ?_⟩
    simpa [write] using h.sendPayload hsend
  | finish =>
    obtain ⟨c, hc, rfl⟩ := Option.map_eq_some_iff.mp hstep
    obtain ⟨request, hsend, -, hhas, rfl⟩ := of_step_finish hc
    refine ⟨own, peer, ?_⟩
    simpa using h.finish hsend hhas
  | read message =>
    unfold Link.stepHere at hstep
    cases htake : takeFrame l.toHere with
    | none => simp [htake] at hstep
    | some found =>
      obtain ⟨m, rest⟩ := found
      simp only [htake] at hstep
      by_cases hm : m = message
      · rw [if_pos hm] at hstep
        subst hm
        obtain ⟨c, hc, rfl⟩ := Option.map_eq_some_iff.mp hstep
        obtain ⟨hlistener, rfl⟩ := of_step_read hc
        exact ⟨own, peer, h.read hlistener htake⟩
      · rw [if_neg hm] at hstep
        exact absurd hstep (by simp)
  | take response =>
    obtain ⟨c, hc, rfl⟩ := Option.map_eq_some_iff.mp hstep
    obtain ⟨message, hlistener, ⟨hwaiting, rfl⟩ | ⟨hwaiting, rfl⟩⟩ := of_step_take hc
    · refine ⟨.quiet, peer, ?_⟩
      simpa [Connector.takeAnswer] using h.takeAnswer hlistener hwaiting
    · refine ⟨.quiet, Stage.afterTake response, ?_⟩
      have hsize : response.length < 2 ^ 32 := by simpa [PoliteHere, hwaiting] using hpolite
      simpa [Connector.takeCall] using h.takeCall hlistener hwaiting hsize
  | answerLength =>
    obtain ⟨c, hc, rfl⟩ := Option.map_eq_some_iff.mp hstep
    obtain ⟨response, hlistener, rfl⟩ := of_step_answerLength hc
    refine ⟨own, .back response, ?_⟩
    simpa [begin, Message.text] using h.answerLength hlistener
  | answerPayload =>
    obtain ⟨c, hc, rfl⟩ := Option.map_eq_some_iff.mp hstep
    obtain ⟨response, hlistener, rfl⟩ := of_step_answerPayload hc
    refine ⟨own, peer, ?_⟩
    simpa [write] using h.answerPayload hlistener

theorem served (h : l.Holds own peer) : l.here.Served l.there where
  taken := by
    rw [h.wireOut.written]
    exact List.prefix_append _ _
  handled := h.handledThere
  returned := by
    have hstage := h.ownStage
    cases own with
    | quiet =>
      obtain ⟨-, -, ⟨-, hhandled⟩ | ⟨request, -, hhandled⟩⟩ := hstage
      · rw [hhandled]
      · rw [hhandled]
        exact List.prefix_append _ _
    | out =>
      obtain ⟨-, -, -, -, hhandled⟩ := hstage
      rw [hhandled]
    | answering response =>
      obtain ⟨-, -, -, -, -, request, -, hhandled⟩ := hstage
      rw [hhandled]
      exact List.prefix_append _ _
    | back response =>
      obtain ⟨-, -, -, -, request, -, hhandled⟩ := hstage
      rw [hhandled]
      exact List.prefix_append _ _
    | lost =>
      obtain ⟨-, -, -, request, -, hhandled⟩ := hstage
      rw [hhandled]
      exact List.prefix_append _ _

theorem step {a : Side × Op} {l' : Link} (h : l.Holds own peer) (hpolite : l.Polite a)
    (hstep : l.step a = some l') : ∃ own' peer', l'.Holds own' peer' := by
  obtain ⟨side, op⟩ := a
  cases side with
  | client => exact h.stepHere hpolite hstep
  | server =>
    obtain ⟨l₁, hl₁, rfl⟩ := Option.map_eq_some_iff.mp hstep
    obtain ⟨own', peer', h'⟩ := h.swap.stepHere hpolite hl₁
    exact ⟨peer', own', h'.swap⟩

theorem run {as : List (Side × Op)} {l' : Link} (h : l.Holds own peer) (hpolite : l.PoliteAlong as)
    (hrun : l.run as = some l') : ∃ own' peer', l'.Holds own' peer' := by
  induction as generalizing l own peer with
  | nil =>
    obtain rfl := Option.some.inj hrun
    exact ⟨own, peer, h⟩
  | cons a as ih =>
    obtain ⟨l₁, hstep, hrest⟩ := Option.bind_eq_some_iff.mp hrun
    simp only [PoliteAlong, hstep, Option.all_some, Bool.and_eq_true] at hpolite
    obtain ⟨own₁, peer₁, h₁⟩ := h.step hpolite.1 hstep
    exact ih h₁ hpolite.2 hrest

end Link.Holds

namespace Link

theorem holds_initial : initial.Holds .quiet .quiet := by
  have hstage : Connector.initial.AtStage Connector.initial .quiet :=
    ⟨rfl, rfl, .inl ⟨.inl rfl, rfl⟩⟩
  have hwire : Wire Connector.initial Connector.initial [] [] :=
    ⟨rfl, ⟨[], rfl, rfl⟩, by simp⟩
  have hsmall : Small Connector.initial := ⟨by simp [Connector.initial], by simp [Connector.initial]⟩
  exact ⟨.quietLeft _, hstage, hstage, hwire, hwire, hsmall, hsmall, rfl, rfl⟩

/-- In a run in which each `Send` announces itself only while no call of the
other end is under way, both ends are served in every state. -/
theorem served_of_politeAlong (as : List (Side × Op)) (l : Link)
    (hpolite : initial.PoliteAlong as) (hrun : initial.run as = some l) :
    l.here.Served l.there ∧ l.there.Served l.here := by
  obtain ⟨own, peer, h⟩ := holds_initial.run hpolite hrun
  exact ⟨h.served, h.swap.served⟩

/-- The server calls while the answer to the client's call is on its way. -/
def politeExample : List (Side × Op) :=
  [(.client, .send [1, 2]), (.client, .await), (.client, .sendLength), (.client, .sendPayload),
    (.server, .read [1, 2]), (.server, .take [3]), (.server, .answerLength),
    (.server, .answerPayload), (.server, .send [4]), (.server, .await), (.server, .sendLength),
    (.server, .sendPayload), (.client, .read [3]), (.client, .take []), (.client, .finish),
    (.client, .read [4]), (.client, .take [5, 6]), (.client, .answerLength),
    (.client, .answerPayload), (.server, .read [5, 6]), (.server, .take []), (.server, .finish)]

theorem served_politeExample :
    ∃ l, initial.run politeExample = some l ∧ l.here.Served l.there ∧ l.there.Served l.here := by
  have hrun : (initial.run politeExample).isSome = true := by decide
  obtain ⟨l, hl⟩ := Option.isSome_iff_exists.mp hrun
  exact ⟨l, hl, served_of_politeAlong politeExample l (by decide) hl⟩

/-- Both ends call at once. -/
def crossingExample : List (Side × Op) :=
  [(.client, .send [1]), (.client, .await), (.client, .sendLength), (.client, .sendPayload),
    (.server, .send [2]), (.server, .await), (.server, .sendLength), (.server, .sendPayload),
    (.client, .read [2]), (.client, .take []), (.client, .finish)]

/-- The client's `Send` returns the request of the server, which has handled
nothing. -/
theorem not_served_crossingExample :
    ∃ l, initial.run crossingExample = some l ∧ l.here.record.returned = [([1], [2])] ∧
      l.there.record.handled = [] ∧ l.here.record.handled = [] ∧ ¬ l.here.Served l.there := by
  have hrun : (initial.run crossingExample).any (fun l =>
      l.here.record.returned == [([1], [2])] && l.there.record.handled == [] &&
        l.here.record.handled == []) = true := by decide
  obtain ⟨l, hl, hstate⟩ := (Option.any_eq_true _ _).mp hrun
  simp only [Bool.and_eq_true, beq_iff_eq] at hstate
  obtain ⟨⟨hreturned, hthere⟩, hhere⟩ := hstate
  refine ⟨l, hl, hreturned, hthere, hhere, ?_⟩
  intro hserved
  have hprefix := hserved.returned
  rw [hreturned, hthere] at hprefix
  exact absurd hprefix (by simp)

end Link

end CodeStudy.Jsonrpc
