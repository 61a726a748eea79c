import CodeStudy.Samba.Context

/-!
# Sending requests

`writeIovec` writes one io vector, `sendPdu` the length of a chain and then every vector of every
member, and `sendPdus` empties `outqueue`. The result of `writeIovec` is an `int` that `sendPdu`
stores in a variable of the unsigned type `size_t`, so its tests for a negative result never
succeed: a failed write counts as `2 ^ 64 - 1` bytes and the loop goes on, until the total at the
end does not add up. A vector without bytes, though, ends the loop at once with the result 0.
-/

namespace CodeStudy.Samba

/-- The loop that writes one vector; `none` when it still waits for the socket. -/
def writeLoop (buf : Bytes) : Nat → List WritevOutcome → Bytes → Option (Int × List WritevOutcome × Bytes)
  | total, [], tx => if total < buf.length then none else some (toInt32 total, [], tx)
  | total, outcome :: outcomes, tx =>
      if total < buf.length then
        match outcome with
        | .wrote count =>
            let bytesWritten := min count (buf.length - total)
            writeLoop buf (total + bytesWritten) outcomes (tx ++ (buf.drop total).take bytesWritten)
        | .error .eagain => writeLoop buf total outcomes tx
        | .error _ => some (-1, outcomes, tx)
      else some (toInt32 total, outcome :: outcomes, tx)

def writeIovec (fd : Option Connection) (buf : Bytes) : Option (Int × Option Connection) :=
  match fd with
  | none => some (-1, none)
  | some conn =>
      match writeLoop buf 0 conn.writevs conn.tx with
      | none => none
      | some (ret, writevs, tx) => some (ret, some { conn with writevs, tx })

/-- Write the vectors one after the other. The result is the value returned early, or the total of
what the calls reported. -/
def sendIovecs : List Bytes → UInt64 → Option Connection →
    Option ((Int ⊕ UInt64) × Option Connection)
  | [], total, fd => some (.inr total, fd)
  | v :: vs, total, fd =>
      match writeIovec fd v with
      | none => none
      | some (ret, fd) =>
          let bytesWritten := UInt64.ofInt ret
          if bytesWritten ≤ 0 then some (.inl (toInt32 bytesWritten.toNat), fd)
          else sendIovecs vs (total + bytesWritten) fd

def insufficientCredits (smb2 : Smb2Context) (chain : PduChain) : Prop :=
  smb2.dialect > smb2Version0202 ∧ chain.getReqCreditCharge > smb2.credits

instance (smb2 : Smb2Context) (chain : PduChain) : Decidable (insufficientCredits smb2 chain) :=
  inferInstanceAs (Decidable (_ ∧ _))

def sendPdu (smb2 : Smb2Context) (fd : Option Connection) (chain : PduChain) :
    Option (Int × Option Connection) :=
  let netbiosLen := chain.getReqNBLength
  if insufficientCredits smb2 chain then some (-1, fd)
  else
    match writeIovec fd (beBytes smb2SplSize netbiosLen.toNat) with
    | none => none
    | some (ret, fd) =>
        let bytesWritten := UInt64.ofInt ret
        if bytesWritten < 0 then some (toInt32 bytesWritten.toNat, fd)
        else
          match sendIovecs chain.getAllComOutVecs.iovs bytesWritten fd with
          | none => none
          | some (.inl ret, fd) => some (ret, fd)
          | some (.inr total, fd) =>
              if total ≠ (UInt32.ofNat smb2SplSize + netbiosLen).toUInt64 then some (-1, fd)
              else some (0, fd)

/-- Send the chains of `outqueue` in the order of their keys; a chain that could not be sent goes
back into the queue. -/
def sendChains : List (Nat × PduChain) → World → Option (Int × World)
  | [], w => some (0, w)
  | (key, chain) :: rest, w =>
      let w := { w with smb2 := { w.smb2 with outqueue := w.smb2.outqueue.erase key } }
      match sendPdu w.smb2 w.socket.fd chain with
      | none => none
      | some (ret, fd) =>
          let w := { w with socket := { w.socket with fd } }
          if ret < 0 then
            some (-1, { w with smb2 := { w.smb2 with
              outqueue := w.smb2.outqueue.insert chain.head.messageId chain } })
          else
            sendChains rest <| smb2PduAddToWaitqueue chain.members <|
              w.log (.transmitted w.smb2.dialect w.smb2.credits chain)

def sendPdus (w : World) : Option (Int × World) := sendChains w.smb2.outqueue.entries w

/-! ### One vector -/

theorem writeLoop_cases {buf tx tx' : Bytes} {total : Nat} {outcomes outcomes' : List WritevOutcome}
    {ret : Int} (hle : total ≤ buf.length)
    (h : writeLoop buf total outcomes tx = some (ret, outcomes', tx')) :
    (ret = toInt32 buf.length ∧ tx' = tx ++ buf.drop total) ∨
      (ret = -1 ∧ tx'.length + total < tx.length + buf.length) := by
  induction outcomes generalizing total tx with
  | nil =>
      rw [writeLoop] at h
      split_ifs at h with hlt
      have htotal : total = buf.length := by omega
      simp only [Option.some.injEq, Prod.mk.injEq] at h
      exact Or.inl ⟨by rw [← h.1, htotal], by simp [← h.2.2, htotal]⟩
  | cons outcome outcomes ih =>
      unfold writeLoop at h
      split_ifs at h with hlt
      · cases outcome with
        | wrote count =>
            rcases ih (by omega) h with ⟨hret, htx⟩ | ⟨hret, hlen⟩
            · refine Or.inl ⟨hret, ?_⟩
              rw [htx, List.append_assoc, ← List.drop_drop, List.take_append_drop]
            · refine Or.inr ⟨hret, ?_⟩
              simp only [List.length_append, List.length_take, List.length_drop] at hlen
              omega
        | error errno =>
            cases errno with
            | eagain => exact ih hle h
            | eintr | other _ =>
                simp only [Option.some.injEq, Prod.mk.injEq] at h
                exact Or.inr ⟨h.1.symm, by rw [← h.2.2]; omega⟩
      · have htotal : total = buf.length := by omega
        simp only [Option.some.injEq, Prod.mk.injEq] at h
        exact Or.inl ⟨by rw [← h.1, htotal], by simp [← h.2.2, htotal]⟩

theorem writeLoop_wrote {buf : Bytes} (hpos : 0 < buf.length) (outcomes : List WritevOutcome)
    (tx : Bytes) : writeLoop buf 0 (.wrote buf.length :: outcomes) tx =
      some (toInt32 buf.length, outcomes, tx ++ buf) := by
  unfold writeLoop
  simp only [if_pos hpos, Nat.sub_zero, min_self, Nat.zero_add, List.drop_zero, List.take_length]
  cases outcomes <;> · unfold writeLoop; rw [if_neg (lt_irrefl _)]

theorem writeIovec_wrote {buf : Bytes} (hpos : 0 < buf.length) (conn : Connection)
    (outcomes : List WritevOutcome) :
    writeIovec (some { conn with writevs := .wrote buf.length :: outcomes }) buf =
      some (toInt32 buf.length, some { conn with writevs := outcomes, tx := conn.tx ++ buf }) := by
  rw [writeIovec]
  simp only [writeLoop_wrote hpos]

theorem writeIovec_nil (conn : Connection) : writeIovec (some conn) [] = some (0, some conn) := by
  obtain ⟨rx, writevs, tx⟩ := conn
  cases writevs <;> rfl

/-- A vector that is not empty is written as a whole, or its call reports -1. -/
theorem writeIovec_cases {conn : Connection} {buf : Bytes} {ret : Int} {fd : Option Connection}
    (h : writeIovec (some conn) buf = some (ret, fd)) :
    ∃ conn', fd = some conn' ∧ ((ret = toInt32 buf.length ∧ conn'.tx = conn.tx ++ buf) ∨
      (ret = -1 ∧ conn'.tx.length < conn.tx.length + buf.length)) := by
  rw [writeIovec] at h
  cases hloop : writeLoop buf 0 conn.writevs conn.tx with
  | none => simp [hloop] at h
  | some result =>
      obtain ⟨ret', writevs, tx⟩ := result
      simp only [hloop, Option.some.injEq, Prod.mk.injEq] at h
      refine ⟨_, h.2.symm, ?_⟩
      rw [← h.1]
      exact writeLoop_cases (Nat.zero_le _) hloop

/-! ### All the vectors -/

/-- What `sendIovecs` leaves behind when no vector is empty: the total it reports falls short of the
bytes there were by an amount that is zero exactly when all were written. -/
structure Reported (total : UInt64) (vs : List Bytes) (conn : Connection) (total' : UInt64)
    (conn' : Connection) (short : Nat) : Prop where
  sum : total' + UInt64.ofNat short = total + UInt64.ofNat (byteCount vs)
  bound : short ≤ byteCount vs + vs.length
  whole : short = 0 → conn'.tx = conn.tx ++ vs.flatten
  part : 0 < short → conn'.tx.length < conn.tx.length + byteCount vs

theorem ofInt_toInt32_length {v : Bytes} (hv : v.length < 2 ^ 31) :
    UInt64.ofInt (toInt32 v.length) = UInt64.ofNat v.length := by
  rw [toInt32_of_lt (by omega) (by exact_mod_cast hv), uint64_ofInt_natCast]

theorem sendIovecs_reported {vs : List Bytes} {total : UInt64} {conn : Connection}
    {result : Int ⊕ UInt64} {fd : Option Connection}
    (hvs : ∀ v ∈ vs, 0 < v.length ∧ v.length < 2 ^ 31)
    (h : sendIovecs vs total (some conn) = some (result, fd)) :
    ∃ total' conn' short, result = .inr total' ∧ fd = some conn' ∧
      Reported total vs conn total' conn' short := by
  induction vs generalizing total conn with
  | nil =>
      simp only [sendIovecs, Option.some.injEq, Prod.mk.injEq] at h
      refine ⟨total, conn, 0, h.1.symm, h.2.symm, ?_, le_refl _, fun _ => ?_, fun h => absurd h (lt_irrefl _)⟩
      · rfl
      · simp
  | cons v vs ih =>
      obtain ⟨⟨hpos, hlt⟩, hrest⟩ := List.forall_mem_cons.mp hvs
      rw [sendIovecs] at h
      cases hw : writeIovec (some conn) v with
      | none => simp [hw] at h
      | some r =>
          obtain ⟨ret, fd₁⟩ := r
          simp only [hw] at h
          obtain ⟨conn₁, rfl, hcase⟩ := writeIovec_cases hw
          rcases hcase with ⟨hret, htx⟩ | ⟨hret, htx⟩
          · rw [hret, ofInt_toInt32_length hlt] at h
            have hne : ¬ UInt64.ofNat v.length ≤ 0 := by
              rw [UInt64.le_iff_toNat_le, toNat_ofNat_uint64 (by omega), UInt64.toNat_zero]
              omega
            rw [if_neg hne] at h
            obtain ⟨total', conn', short, hres, hfd, hrep⟩ := ih hrest h
            refine ⟨total', conn', short, hres, hfd, ?_, ?_, fun hzero => ?_, fun hshort => ?_⟩
            · rw [hrep.sum, byteCount_cons, UInt64.ofNat_add, UInt64.add_assoc]
            · have := hrep.bound
              rw [byteCount_cons, List.length_cons]
              omega
            · rw [hrep.whole hzero, htx, List.flatten_cons, List.append_assoc]
            · have := hrep.part hshort
              rw [htx, List.length_append] at this
              rw [byteCount_cons]
              omega
          · have hne : ¬ UInt64.ofInt (-1) ≤ 0 := by decide
            rw [hret, if_neg hne] at h
            obtain ⟨total', conn', short, hres, hfd, hrep⟩ := ih hrest h
            have hbytes : conn'.tx.length ≤ conn₁.tx.length + byteCount vs := by
              rcases Nat.eq_zero_or_pos short with hzero | hshort
              · rw [hrep.whole hzero, List.length_append, length_flatten_eq_byteCount]
              · exact (hrep.part hshort).le
            refine ⟨total', conn', short + (v.length + 1), hres, hfd, ?_, ?_, fun hzero => ?_, fun _ => ?_⟩
            · have hsum := hrep.sum
              rw [UInt64.ofInt_neg_one] at hsum
              simp only [byteCount_cons, UInt64.ofNat_add]
              grind
            · have := hrep.bound
              rw [byteCount_cons, List.length_cons]
              omega
            · omega
            · rw [byteCount_cons]
              omega

/-- Without a connection every call reports -1. -/
theorem sendIovecs_closed (vs : List Bytes) (total : UInt64) :
    ∃ total', sendIovecs vs total none = some (.inr total', none) ∧
      total' + UInt64.ofNat vs.length = total := by
  induction vs generalizing total with
  | nil => exact ⟨total, rfl, UInt64.add_zero _⟩
  | cons v vs ih =>
      obtain ⟨total', hsend, hsum⟩ := ih (total + UInt64.ofInt (-1))
      have hne : ¬ UInt64.ofInt (-1) ≤ 0 := by decide
      refine ⟨total', ?_, ?_⟩
      · simp only [sendIovecs, writeIovec, if_neg hne]
        exact hsend
      · rw [UInt64.ofInt_neg_one] at hsum
        rw [List.length_cons, UInt64.ofNat_add]
        grind

/-! ### One chain -/

/-- The bytes of a chain on the wire: its length in big-endian order, then its vectors. -/
def PduChain.wireBytes (chain : PduChain) : Bytes :=
  beBytes smb2SplSize chain.getReqNBLength.toNat ++ chain.getAllComOutVecs.iovs.flatten

/-- Everything of the chain went out between two states of the connection. -/
def HandedOver (chain : PduChain) (fd fd' : Option Connection) : Prop :=
  ∃ conn conn', fd = some conn ∧ fd' = some conn' ∧ conn'.tx = conn.tx ++ chain.wireBytes

/-- Whatever the writes do, `sendPdu` returns 0 exactly when the whole chain was handed to the
socket, and a negative value otherwise. -/
def ReportsHandOver (smb2 : Smb2Context) (fd : Option Connection) (chain : PduChain) : Prop :=
  ∀ writevs ret fd', sendPdu smb2 (fd.map fun conn => { conn with writevs }) chain = some (ret, fd') →
    (ret = 0 ↔ HandedOver chain fd fd') ∧ (ret ≠ 0 → ret < 0)

/-- The sizes `sendPdu` can count in its `int` and 32-bit variables. -/
structure FrameFits (chain : PduChain) : Prop where
  vector : ∀ v ∈ chain.getAllComOutVecs.iovs, v.length < 2 ^ 31
  total : smb2SplSize + byteCount chain.getAllComOutVecs.iovs < 2 ^ 32
  count : chain.getAllComOutVecs.iovs.length < 2 ^ 32

/-- The chain is not sent at all, or is of a size that can be counted and has no empty vector. -/
def SendsWhole (smb2 : Smb2Context) (fd : Option Connection) (chain : PduChain) : Prop :=
  insufficientCredits smb2 chain ∨
    FrameFits chain ∧ (fd = none ∨ ∀ v ∈ chain.getAllComOutVecs.iovs, v ≠ [])

section

variable {smb2 : Smb2Context} {chain : PduChain} {fd fd' : Option Connection}

theorem PduChain.length_wireBytes (chain : PduChain) :
    chain.wireBytes.length = smb2SplSize + byteCount chain.getAllComOutVecs.iovs := by
  rw [wireBytes, List.length_append, length_beBytes, length_flatten_eq_byteCount]

/-- The total that `sendPdu` wants to see at the end. -/
theorem FrameFits.toNat_expected (hfits : FrameFits chain) (hout : ∀ p ∈ chain.members, p.out.Counted) :
    (UInt32.ofNat smb2SplSize + chain.getReqNBLength).toUInt64.toNat =
      smb2SplSize + byteCount chain.getAllComOutVecs.iovs := by
  have htotal := hfits.total
  rw [chain.getReqNBLength_eq hout, ← UInt32.ofNat_add, UInt32.toNat_toUInt64, toNat_ofNat_uint32 htotal]

/-- On an open connection the length is one more vector, and never an empty one. -/
theorem sendPdu_open (hcredits : ¬ insufficientCredits smb2 chain) (conn : Connection) :
    sendPdu smb2 (some conn) chain =
      match sendIovecs (beBytes smb2SplSize chain.getReqNBLength.toNat :: chain.getAllComOutVecs.iovs)
        0 (some conn) with
      | none => none
      | some (.inl ret, fd) => some (ret, fd)
      | some (.inr total, fd) =>
          if total ≠ (UInt32.ofNat smb2SplSize + chain.getReqNBLength).toUInt64 then some (-1, fd)
          else some (0, fd) := by
  rw [sendPdu, if_neg hcredits, sendIovecs]
  cases hw : writeIovec (some conn) (beBytes smb2SplSize chain.getReqNBLength.toNat) with
  | none => rfl
  | some r =>
      obtain ⟨ret, fd⟩ := r
      obtain ⟨conn', -, hcase⟩ := writeIovec_cases hw
      have hret : ¬ UInt64.ofInt ret ≤ 0 := by
        rcases hcase with ⟨hret, -⟩ | ⟨hret, -⟩
        · rw [hret, length_beBytes]
          decide
        · rw [hret]
          decide
      simp only [UInt64.not_lt_zero, if_false, hret, UInt64.zero_add]

theorem not_handedOver_of_lt {conn conn' : Connection}
    (h : conn'.tx.length < conn.tx.length + chain.wireBytes.length) :
    ¬ HandedOver chain (some conn) (some conn') := by
  rintro ⟨c, c', hc, hc', htx⟩
  cases hc
  cases hc'
  rw [htx, List.length_append] at h
  omega

theorem reportsHandOver_of_insufficientCredits (hcredits : insufficientCredits smb2 chain) :
    ReportsHandOver smb2 fd chain := by
  intro writevs ret fd' h
  rw [sendPdu, if_pos hcredits, Option.some.injEq, Prod.mk.injEq] at h
  obtain ⟨rfl, rfl⟩ := h
  refine ⟨iff_of_false (by decide) ?_, fun _ => by decide⟩
  cases fd with
  | none =>
      rintro ⟨conn, conn', hconn, -⟩
      cases hconn
  | some conn =>
      refine not_handedOver_of_lt ?_
      rw [chain.length_wireBytes]
      simp only [smb2SplSize]
      omega

theorem reportsHandOver_closed (hfits : FrameFits chain) (hout : ∀ p ∈ chain.members, p.out.Counted)
    (hcredits : ¬ insufficientCredits smb2 chain) : ReportsHandOver smb2 none chain := by
  intro writevs ret fd' h
  have hnone : ¬ HandedOver chain none fd' := by
    rintro ⟨conn, conn', hconn, -⟩
    cases hconn
  obtain ⟨total, hsend, hsum⟩ :=
    sendIovecs_closed chain.getAllComOutVecs.iovs (UInt64.ofInt (-1))
  have hne : total ≠ (UInt32.ofNat smb2SplSize + chain.getReqNBLength).toUInt64 := by
    intro heq
    have hexp := hfits.toNat_expected hout
    have htotal := hfits.total
    have hcount := hfits.count
    have hneg : (UInt64.ofInt (-1)).toNat = 2 ^ 64 - 1 := by decide
    have hnat := congrArg UInt64.toNat hsum
    rw [← heq] at hexp
    rw [UInt64.toNat_add, toNat_ofNat_uint64 (by omega), hneg] at hnat
    omega
  simp only [Option.map_none, sendPdu, if_neg hcredits, writeIovec, UInt64.not_lt_zero, if_false,
    hsend, if_pos hne, Option.some.injEq, Prod.mk.injEq] at h
  rw [← h.1]
  exact ⟨iff_of_false (by decide) hnone, fun _ => by decide⟩

/-- The length of the frame and the vectors behind it can be written. -/
theorem FrameFits.lengths (hfits : FrameFits chain) (hfull : ∀ v ∈ chain.getAllComOutVecs.iovs, v ≠ []) :
    ∀ v ∈ beBytes smb2SplSize chain.getReqNBLength.toNat :: chain.getAllComOutVecs.iovs,
      0 < v.length ∧ v.length < 2 ^ 31 := by
  refine List.forall_mem_cons.mpr ⟨by rw [length_beBytes]; decide, fun v hv => ?_⟩
  exact ⟨List.length_pos_iff.mpr (hfull v hv), hfits.vector v hv⟩

theorem reportsHandOver_open {conn : Connection} (hfits : FrameFits chain)
    (hout : ∀ p ∈ chain.members, p.out.Counted) (hcredits : ¬ insufficientCredits smb2 chain)
    (hfull : ∀ v ∈ chain.getAllComOutVecs.iovs, v ≠ []) : ReportsHandOver smb2 (some conn) chain := by
  intro writevs ret fd' h
  rw [Option.map_some, sendPdu_open hcredits] at h
  have hvs := hfits.lengths hfull
  cases hsend : sendIovecs (beBytes smb2SplSize chain.getReqNBLength.toNat ::
      chain.getAllComOutVecs.iovs) 0 (some { conn with writevs }) with
  | none => simp [hsend] at h
  | some r =>
      obtain ⟨result, fd⟩ := r
      obtain ⟨total, conn', short, rfl, rfl, hrep⟩ := sendIovecs_reported hvs hsend
      simp only [hsend] at h
      have hexp := hfits.toNat_expected hout
      have htotal := hfits.total
      have hcount := hfits.count
      have hbound := hrep.bound
      have hsum := congrArg UInt64.toNat hrep.sum
      simp only [byteCount_cons, length_beBytes, List.length_cons] at hbound hsum
      rw [UInt64.toNat_add, UInt64.zero_add, toNat_ofNat_uint64 (by omega),
        toNat_ofNat_uint64 (by omega)] at hsum
      have hiff : total = (UInt32.ofNat smb2SplSize + chain.getReqNBLength).toUInt64 ↔ short = 0 := by
        rw [← UInt64.toNat_inj, hexp]
        have := total.toNat_lt
        omega
      by_cases hshort : short = 0
      · rw [if_neg (not_not.mpr (hiff.mpr hshort)), Option.some.injEq, Prod.mk.injEq] at h
        obtain ⟨rfl, rfl⟩ := h
        exact ⟨iff_of_true rfl ⟨conn, conn', rfl, rfl, hrep.whole hshort⟩, fun hne => absurd rfl hne⟩
      · rw [if_pos (fun heq => hshort (hiff.mp heq)), Option.some.injEq, Prod.mk.injEq] at h
        obtain ⟨rfl, rfl⟩ := h
        have hpart := hrep.part (Nat.pos_of_ne_zero hshort)
        simp only [byteCount_cons, length_beBytes] at hpart
        refine ⟨iff_of_false (by decide) (not_handedOver_of_lt ?_), fun _ => by decide⟩
        rw [chain.length_wireBytes]
        exact hpart

/-- Vectors that are written whole. -/
theorem sendIovecs_append {before : List Bytes} (after : List Bytes) (total : UInt64) (conn : Connection)
    (writevs : List WritevOutcome) (hvs : ∀ v ∈ before, 0 < v.length ∧ v.length < 2 ^ 31) :
    sendIovecs (before ++ after) total
        (some { conn with writevs := (before.map fun v => .wrote v.length) ++ writevs }) =
      sendIovecs after (total + UInt64.ofNat (byteCount before))
        (some { conn with writevs, tx := conn.tx ++ before.flatten }) := by
  induction before generalizing total conn with
  | nil =>
      have hzero : total + UInt64.ofNat (byteCount []) = total := UInt64.add_zero _
      rw [hzero, List.flatten_nil, List.append_nil]
      rfl
  | cons v before ih =>
      obtain ⟨⟨hpos, hlt⟩, hrest⟩ := List.forall_mem_cons.mp hvs
      have hne : ¬ UInt64.ofNat v.length ≤ 0 := by
        rw [UInt64.le_iff_toNat_le, toNat_ofNat_uint64 (by omega), UInt64.toNat_zero]
        omega
      rw [List.cons_append, sendIovecs, List.map_cons, List.cons_append, writeIovec_wrote hpos conn]
      simp only [ofInt_toInt32_length hlt, if_neg hne]
      have := ih (total + UInt64.ofNat v.length) { conn with tx := conn.tx ++ v } hrest
      simp only at this
      rw [this, List.flatten_cons, List.append_assoc, byteCount_cons, UInt64.ofNat_add, UInt64.add_assoc]

/-- Vectors that are written whole, up to an empty one. -/
theorem sendIovecs_until_empty {before : List Bytes} (after : List Bytes) (total : UInt64)
    (conn : Connection) (hvs : ∀ v ∈ before, 0 < v.length ∧ v.length < 2 ^ 31) :
    sendIovecs (before ++ [] :: after) total
        (some { conn with writevs := before.map fun v => .wrote v.length }) =
      some (.inl 0, some { conn with writevs := [], tx := conn.tx ++ before.flatten }) := by
  have hwritten := sendIovecs_append ([] :: after) total conn [] hvs
  have hle : UInt64.ofInt 0 ≤ 0 := by decide
  have hzero : toInt32 (UInt64.ofInt 0).toNat = 0 := by decide
  rw [List.append_nil] at hwritten
  rw [hwritten]
  simp only [sendIovecs, writeIovec_nil, if_pos hle, hzero]

/-- A chain of which everything is written at once. -/
theorem sendPdu_whole (conn : Connection) (hfits : FrameFits chain) (hout : ∀ p ∈ chain.members, p.out.Counted)
    (hcredits : ¬ insufficientCredits smb2 chain) (hfull : ∀ v ∈ chain.getAllComOutVecs.iovs, v ≠ []) :
    sendPdu smb2 (some { conn with writevs :=
        (beBytes smb2SplSize chain.getReqNBLength.toNat :: chain.getAllComOutVecs.iovs).map fun v => .wrote v.length })
        chain =
      some (0, some { conn with writevs := [], tx := conn.tx ++ chain.wireBytes }) := by
  have hvs := hfits.lengths hfull
  have hwritten := sendIovecs_append [] 0 conn [] hvs
  rw [List.append_nil, List.append_nil] at hwritten
  have htotal : 0 + UInt64.ofNat (byteCount (beBytes smb2SplSize chain.getReqNBLength.toNat ::
      chain.getAllComOutVecs.iovs)) = (UInt32.ofNat smb2SplSize + chain.getReqNBLength).toUInt64 := by
    have hlt := hfits.total
    rw [UInt64.zero_add, ← UInt64.toNat_inj, hfits.toNat_expected hout, byteCount_cons, length_beBytes,
      toNat_ofNat_uint64 (by omega)]
  rw [sendPdu_open hcredits, hwritten]
  simp only [sendIovecs, htotal, ne_eq, not_true_eq_false, if_false]
  rfl

theorem ReportsHandOver.ne_nil {conn : Connection} (h : ReportsHandOver smb2 (some conn) chain)
    (hfits : FrameFits chain) (hcredits : ¬ insufficientCredits smb2 chain) :
    ∀ v ∈ chain.getAllComOutVecs.iovs, v ≠ [] := by
  rintro v hv rfl
  obtain ⟨before, after, heq, hbefore⟩ := List.eq_append_cons_of_mem hv
  -- the length is lost to an error, and the empty vector hides it
  let writevs := WritevOutcome.error (.other 5) :: before.map fun v => .wrote v.length
  have hvs : ∀ v ∈ before, 0 < v.length ∧ v.length < 2 ^ 31 := by
    intro v hv
    refine ⟨List.length_pos_iff.mpr fun hnil => hbefore (hnil ▸ hv), hfits.vector v ?_⟩
    rw [heq]
    exact List.mem_append_left _ hv
  have hsend : sendPdu smb2 (some { conn with writevs }) chain =
      some (0, some { conn with writevs := [], tx := conn.tx ++ before.flatten }) := by
    have hlen : 0 < (beBytes smb2SplSize chain.getReqNBLength.toNat).length := by
      rw [length_beBytes]
      decide
    have hne : ¬ UInt64.ofInt (-1) ≤ 0 := by decide
    have hw : writeIovec (some { conn with writevs }) (beBytes smb2SplSize chain.getReqNBLength.toNat) =
        some (-1, some { conn with writevs := before.map fun v => .wrote v.length }) := by
      simp only [writeIovec, writevs]
      unfold writeLoop
      rw [if_pos hlen]
    rw [sendPdu_open hcredits, sendIovecs, hw]
    simp only [if_neg hne, heq, sendIovecs_until_empty after _ conn hvs]
  have hover := (h writevs 0 _ hsend).1.mp rfl
  refine not_handedOver_of_lt ?_ hover
  rw [chain.length_wireBytes, heq]
  simp only [List.length_append, length_flatten_eq_byteCount, byteCount_append, byteCount_cons]
  simp only [smb2SplSize]
  omega

/-- `sendPdu` tells truly whether it handed over the whole chain when the chain is not sent at all,
or is of a size that can be counted and has no empty vector; among the chains of such a size these
are the only ones. -/
theorem reportsHandOver_of_sendsWhole (smb2 : Smb2Context) (fd : Option Connection) (chain : PduChain)
    (hout : ∀ p ∈ chain.members, p.out.Counted) :
    (SendsWhole smb2 fd chain → ReportsHandOver smb2 fd chain) ∧
      (FrameFits chain → ReportsHandOver smb2 fd chain → SendsWhole smb2 fd chain) := by
  by_cases hcredits : insufficientCredits smb2 chain
  · exact ⟨fun _ => reportsHandOver_of_insufficientCredits hcredits, fun _ _ => Or.inl hcredits⟩
  constructor
  · rintro (hins | ⟨hfits, hfd⟩)
    · exact absurd hins hcredits
    cases fd with
    | none => exact reportsHandOver_closed hfits hout hcredits
    | some conn =>
        rcases hfd with hnone | hfull
        · cases hnone
        · exact reportsHandOver_open hfits hout hcredits hfull
  · intro hfits hreports
    refine Or.inr ⟨hfits, ?_⟩
    cases fd with
    | none => exact Or.inl rfl
    | some conn => exact Or.inr (hreports.ne_nil hfits hcredits)

/-- An ECHO request. -/
def echoRequest (appData : Nat) : RequestSpec := { command := .echo, appData, body := [[4, 0, 0, 0]] }

theorem reportsHandOver_echo :
    (∀ p ∈ (createChain (.fresh smb2Version0202) (echoRequest 0) []).members, p.out.Counted) ∧
      ReportsHandOver (.fresh smb2Version0202) (some ⟨[], [], []⟩)
        (createChain (.fresh smb2Version0202) (echoRequest 0) []) := by
  have hout := counted_createChain (.fresh smb2Version0202) (echoRequest 0) []
  refine ⟨hout, (reportsHandOver_of_sendsWhole _ _ _ hout).1 (Or.inr ⟨⟨?_, ?_, ?_⟩, Or.inr ?_⟩)⟩
  all_goals decide

/-- The compound that sets the security descriptor of a file to an empty one. -/
def emptySecurityChain : PduChain :=
  createChain (.fresh smb2Version0202)
    { command := .create, appData := 1, body := [List.replicate 56 0, [0x66, 0]] }
    [{ command := .setInfo, appData := 0, body := [List.replicate 32 0, []] },
     { command := .close, appData := 2, body := [List.replicate 24 0] }]

/-- The CLOSE behind an empty descriptor is never written, and `sendPdu` returns 0. -/
theorem not_reportsHandOver_emptySecurity :
    ¬ ReportsHandOver (.fresh smb2Version0202) (some ⟨[], [], []⟩) emptySecurityChain := by
  intro h
  let writevs := List.replicate 9 (WritevOutcome.wrote 100)
  have hsend : ((sendPdu (.fresh smb2Version0202) (some ⟨[], writevs, []⟩) emptySecurityChain).map
      fun r => (r.1, r.2.map fun conn => conn.tx.length)) = some (0, some 228) := by
    decide +kernel
  have hlen : emptySecurityChain.wireBytes.length = 316 := by decide +kernel
  cases hres : sendPdu (.fresh smb2Version0202) (some ⟨[], writevs, []⟩) emptySecurityChain with
  | none => simp [hres] at hsend
  | some r =>
      obtain ⟨ret, fd'⟩ := r
      simp only [hres, Option.map_some, Option.some.injEq, Prod.mk.injEq] at hsend
      obtain ⟨conn, conn', hconn, hconn', htx⟩ := (h writevs ret fd' hres).1.mp hsend.1
      cases hconn
      have hshort := hsend.2
      rw [hconn', Option.map_some, htx, List.length_append, hlen] at hshort
      simp at hshort

end

end CodeStudy.Samba
