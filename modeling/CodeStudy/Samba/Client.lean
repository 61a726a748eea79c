import CodeStudy.Samba.Socket.Receive

/-!
# Runs of a client

The operations a client is driven by, and the loop that drives it through an exchange. What the
network does during one operation comes with the operation: the bytes that arrive while a frame is
received, and what the writes do while requests are sent.

Every run of operations is a sequence of the steps of `ClientStep`.
-/

namespace CodeStudy.Samba

/-- The socket with what the network does next. -/
def Smb2Socket.supply (socket : Smb2Socket) (rx : Bytes) (writevs : List WritevOutcome) : Smb2Socket :=
  { socket with fd := socket.fd.map fun conn => { conn with rx, writevs } }

def World.supply (w : World) (rx : Bytes) (writevs : List WritevOutcome) : World :=
  { w with socket := w.socket.supply rx writevs }

inductive ClientOp where
  | connect (conn : Connection)
  | request (first : RequestSpec) (others : List RequestSpec)
  | start
  | receive (rx : Bytes)
  | send (writevs : List WritevOutcome)
  | close

/-- The world after an operation; `none` when it does not return or its behaviour is undefined. -/
def ClientOp.perform (env : Env) : ClientOp → World → Option World
  | .connect conn, w => some (if w.socket.fd.isNone then w.connect conn else w)
  | .request first others, w =>
      some (if w.isConnected then (smb2QueuePdu env w (createChain w.smb2 first others)).2 else w)
  | .start, w => some w.beginSendReceive
  | .receive rx, w =>
      match receivePdus env (w.supply rx []) with
      | .returned _ _ _ w => some w
      | .undefined => none
  | .send writevs, w => (sendPdus (w.supply [] writevs)).map Prod.snd
  | .close, w => some w.close

/-- The operations of a run, one after the other. -/
def ClientOp.run (env : Env) : List ClientOp → World → Option World
  | [], w => some w
  | op :: ops, w => (op.perform env w).bind (ClientOp.run env ops)

/-! ### The exchange loop -/

/-- What `poll` reports, with what the socket does until the next call. -/
structure Poll where
  failed : Bool := false
  pollin : Bool := false
  pollout : Bool := false
  pollerr : Bool := false
  pollhup : Bool := false
  /-- The error of a connection attempt, asked for with `getsockopt`. -/
  soError : Bool := false
  rx : Bytes := []
  writevs : List WritevOutcome := []

def Poll.isTimeout (poll : Poll) : Bool :=
  !poll.pollin && !poll.pollout && !poll.pollerr && !poll.pollhup

def smb2Service (env : Env) (w : World) (poll : Poll) : Option (Int × World) :=
  if w.socket.fd.isNone then some (0, w)
  else if poll.pollerr then some (-1, w)
  else if poll.pollhup then some (-1, w)
  else if !w.socket.bConnected && poll.pollout then
    if poll.soError then some (-1, w)
    else some (0, { w with socket := { w.socket with bConnected := true } })
  else
    match if poll.pollin then receivePdus env w else .returned 0 none 0 w with
    | .undefined => none
    | .returned ret _ _ w =>
        if ret ≠ 0 then some (-1, w)
        else if poll.pollout ∧ w.smb2.outqueue.entries ≠ [] then
          match sendPdus w with
          | none => none
          | some (ret, w) => if ret ≠ 0 then some (-1, w) else some (0, w)
        else some (0, w)

inductive Exchange where
  /-- Between two iterations, waiting in `poll`. -/
  | running (w : World)
  | returned (ret : Int) (w : World)
  | undefined

def sendAndReceiveLoop (env : Env) : List Poll → World → Exchange
  | polls, w =>
      if w.smb2.isComplete then .returned 0 w
      else if w.socket.fd.isNone then .returned (-1) w
      else
        match polls with
        | [] => .running w
        | poll :: polls =>
            if poll.failed then .returned (-1) w
            else if poll.isTimeout then sendAndReceiveLoop env polls w
            else
              match smb2Service env (w.supply poll.rx poll.writevs) poll with
              | none => .undefined
              | some (ret, w) => if ret < 0 then .returned (-1) w else sendAndReceiveLoop env polls w

/-- Poll and serve the socket until a handler ends the exchange. -/
def sendAndReceive (env : Env) (polls : List Poll) (w : World) : Exchange :=
  sendAndReceiveLoop env polls w.beginSendReceive

/-! ### Sending, as steps -/

theorem writeIovec_isSome {fd fd' : Option Connection} {buf : Bytes} {ret : Int}
    (h : writeIovec fd buf = some (ret, fd')) : fd'.isSome = fd.isSome := by
  unfold writeIovec at h
  split at h
  · cases h
    rfl
  · split at h <;> cases h
    rfl

theorem sendIovecs_isSome {vs : List Bytes} {total : UInt64} {fd fd' : Option Connection}
    {res : Int ⊕ UInt64} (h : sendIovecs vs total fd = some (res, fd')) :
    fd'.isSome = fd.isSome := by
  induction vs generalizing total fd with
  | nil =>
      cases h
      rfl
  | cons v vs ih =>
      unfold sendIovecs at h
      split at h
      · cases h
      · rename_i hwrite
        have hfd := writeIovec_isSome hwrite
        simp only at h
        split_ifs at h
        · rw [Option.some.injEq, Prod.mk.injEq] at h
          rw [← h.2, hfd]
        · exact (ih h).trans hfd

theorem sendPdu_isSome {smb2 : Smb2Context} {fd fd' : Option Connection} {chain : PduChain} {ret : Int}
    (h : sendPdu smb2 fd chain = some (ret, fd')) : fd'.isSome = fd.isSome := by
  simp only [sendPdu] at h
  split_ifs at h
  · cases h
    rfl
  · split at h
    · cases h
    · rename_i hwrite
      have hfd := writeIovec_isSome hwrite
      split_ifs at h
      · rw [Option.some.injEq, Prod.mk.injEq] at h
        rw [← h.2, hfd]
      · split at h
        · cases h
        · rename_i hsend
          cases h
          exact (sendIovecs_isSome hsend).trans hfd
        · rename_i hsend
          split_ifs at h <;> cases h <;> exact (sendIovecs_isSome hsend).trans hfd

theorem sendPdu_credits {smb2 : Smb2Context} {fd fd' : Option Connection} {chain : PduChain} {ret : Int}
    (h : sendPdu smb2 fd chain = some (ret, fd')) (hret : ¬ ret < 0) :
    ¬ insufficientCredits smb2 chain := by
  intro hcredits
  rw [sendPdu, if_pos hcredits] at h
  cases h
  exact hret (by decide)

theorem outqueue_smb2PduAddToWaitqueue (pdus : List Smb2Pdu) (w : World) :
    (smb2PduAddToWaitqueue pdus w).smb2.outqueue = w.smb2.outqueue := by
  induction pdus generalizing w with
  | nil => rfl
  | cons pdu pdus ih => rw [smb2PduAddToWaitqueue, ih]; rfl

theorem sendChains_steps {entries : List (Nat × PduChain)} {w w' : World} {ret : Int}
    (hsorted : entries.Pairwise fun a b => a.1 < b.1)
    (hlookup : ∀ e ∈ entries, w.smb2.outqueue.lookup e.1 = some e.2)
    (h : sendChains entries w = some (ret, w')) : Relation.ReflTransGen SendStep w w' := by
  induction entries generalizing w with
  | nil =>
      cases h
      exact Relation.ReflTransGen.refl
  | cons entry entries ih =>
      obtain ⟨key, chain⟩ := entry
      obtain ⟨hhead, htail⟩ := List.forall_mem_cons.mp hlookup
      obtain ⟨hkey, hsorted⟩ := List.pairwise_cons.mp hsorted
      simp only [sendChains] at h
      split at h
      · cases h
      · rename_i ret₁ fd hsend
        have hquiet : Quiet w { w with socket := { w.socket with fd } } :=
          Quiet.setSocket w _ (sendPdu_isSome hsend)
        split_ifs at h with hret
        · cases h
          exact (Relation.ReflTransGen.single (.quiet hquiet)).tail
            (SendStep.requeue (w := { w with socket := { w.socket with fd } }) hhead)
        · have hcredits := sendPdu_credits hsend hret
          have hsent : Relation.ReflTransGen SendStep w
              (World.transmit { w with socket := { w.socket with fd } } key chain) :=
            (Relation.ReflTransGen.single (.quiet hquiet)).tail (.transmit hhead hcredits)
          refine hsent.trans (ih hsorted (fun e he => ?_) h)
          -- the chains behind this one are still in the queue: their keys are larger
          rw [World.transmit, outqueue_smb2PduAddToWaitqueue]
          show (w.smb2.outqueue.erase key).lookup e.1 = some e.2
          rw [OrdMap.lookup_erase, if_neg (hkey e he).ne', htail e he]

theorem sendPdus_steps {w w' : World} {ret : Int} (h : sendPdus w = some (ret, w')) :
    Relation.ReflTransGen SendStep w w' :=
  sendChains_steps w.smb2.outqueue.sorted
    (fun e he => (w.smb2.outqueue.mem_entries_iff e.1 e.2).mp he) h

theorem sendPdus_acts (env : Env) {w w' : World} {ret : Int} (h : sendPdus w = some (ret, w')) :
    Acts env w w' :=
  Relation.ReflTransGen.mono (fun _ _ hstep => hstep.act env) _ _ (sendPdus_steps h)

/-! ### Runs, as steps -/

theorem Quiet.supply (w : World) (rx : Bytes) (writevs : List WritevOutcome) :
    Quiet w (w.supply rx writevs) :=
  Quiet.setSocket w _ (by rw [Smb2Socket.supply, Option.isSome_map])

theorem ClientOp.perform_steps {env : Env} {op : ClientOp} {w w' : World}
    (h : op.perform env w = some w') : ClientSteps env w w' := by
  cases op with
  | connect conn =>
      cases h
      split_ifs with hfd
      · exact .single (.connect conn (Option.isNone_iff_eq_none.mp hfd))
      · exact .refl
  | request first others =>
      cases h
      split_ifs with hconnected
      · exact .single (.request first others rfl)
      · exact .refl
  | start =>
      cases h
      exact .single .start
  | receive rx =>
      simp only [perform] at h
      split at h <;> cases h
      rename_i hreceived
      exact .head (.act (.quiet (Quiet.supply w rx []))) (receivePdus_returned hreceived).acts.steps
  | send writevs =>
      obtain ⟨⟨ret, w''⟩, hsend, rfl⟩ := Option.map_eq_some_iff.mp h
      exact .head (.act (.quiet (Quiet.supply w [] writevs))) (sendPdus_acts env hsend).steps
  | close =>
      cases h
      exact .single (.act .close)

theorem ClientOp.run_steps {env : Env} {ops : List ClientOp} {w w' : World}
    (h : ClientOp.run env ops w = some w') : ClientSteps env w w' := by
  induction ops generalizing w with
  | nil =>
      cases h
      exact .refl
  | cons op ops ih =>
      obtain ⟨w₁, hop, hops⟩ := Option.bind_eq_some_iff.mp h
      exact (perform_steps hop).trans (ih hops)

end CodeStudy.Samba
