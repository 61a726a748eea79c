import CodeStudy.Samba.Fields
import CodeStudy.Samba.FileRequests
import CodeStudy.Samba.MessageIds

/-!
# The size of a transfer

A READ or a WRITE asks for what its caller wants, cut down to what the server allows and to what the
credits pay for. A credit pays for 65536 bytes. The cuts are made one after the other on 32-bit
numbers, and each can undo what the one before it did.
-/

namespace CodeStudy.Samba

/-- The credits that pay for so many bytes. -/
def creditsFor (n : Nat) : Nat := (n + 65535) / 65536

/-- The size the cuts arrive at, for a count that is not zero. -/
def transferLength (smb2 : Smb2Context) (limit count : Nat) : Nat :=
  if smb2.dialect > smb2Version0202 then
    if creditsFor count > 1008 then min smb2.credits.toNat 1008 * 65536
    else if limit = 0 then if smb2.credits.toNat < 65536 then smb2.credits.toNat * 65536 else 0
    else min (min count limit) (smb2.credits.toNat * 65536)
  else min (min count limit) 65536

/-- What is left of a size without multi-credit requests. -/
def singleCreditCut (smb2 : Smb2Context) (n : Nat) : Nat :=
  if smb2.supportsMultiCredit then n else min n (60 * 1024)

theorem toNat_neededCredits {count : UInt32} (h : 0 < count) :
    ((count - 1) / 65536 + 1).toNat = creditsFor count.toNat := by
  have hpos : 1 ≤ count.toNat := UInt32.lt_iff_toNat_lt.mp h
  have hlt := count.toNat_lt
  have hone : (1 : UInt32) ≤ count := UInt32.le_iff_toNat_le.mpr hpos
  have hunit : (1 : UInt32).toNat = 1 ∧ (65536 : UInt32).toNat = 65536 := ⟨rfl, rfl⟩
  rw [UInt32.toNat_add, UInt32.toNat_div, UInt32.toNat_sub_of_le _ _ hone, hunit.1, hunit.2, creditsFor]
  omega

theorem toNat_mul_65536 {credits : UInt32} (h : credits.toNat < 65536) :
    (credits * 65536).toNat = credits.toNat * 65536 := by
  have hunit : (65536 : UInt32).toNat = 65536 := rfl
  rw [UInt32.toNat_mul, hunit]
  omega

/-- The last cut, to what the credits pay for. -/
theorem toNat_payable (credits : UInt32) {count : UInt32} (hcount : 0 < count) :
    (if (count - 1) / 65536 + 1 > credits then credits * 65536 else count).toNat =
      min count.toNat (credits.toNat * 65536) := by
  have hneeded := toNat_neededCredits hcount
  have hlt := count.toNat_lt
  have hgt : (count - 1) / 65536 + 1 > credits ↔ credits.toNat < creditsFor count.toNat := by
    rw [gt_iff_lt, UInt32.lt_iff_toNat_lt, hneeded]
  rw [creditsFor] at hgt
  by_cases hfew : (count - 1) / 65536 + 1 > credits
  · have hcredits := hgt.mp hfew
    rw [if_pos hfew, toNat_mul_65536 (by omega)]
    omega
  · have hcredits := mt hgt.mpr hfew
    rw [if_neg hfew]
    omega

theorem toNat_transferCount (smb2 : Smb2Context) (limit : UInt32) {count : UInt32} (hcount : 0 < count) :
    (transferCount smb2 limit count).toNat = transferLength smb2 limit.toNat count.toNat := by
  have hcut : (if count > limit then limit else count).toNat = min count.toNat limit.toNat := by
    have hgt : count > limit ↔ limit.toNat < count.toNat := UInt32.lt_iff_toNat_lt
    by_cases hlong : count > limit
    · rw [if_pos hlong, min_eq_right (hgt.mp hlong).le]
    · rw [if_neg hlong, min_eq_left (not_lt.mp (mt hgt.mpr hlong))]
  have hmany : (count - 1) / 65536 + 1 > maxCredits - 16 ↔ creditsFor count.toNat > 1008 := by
    rw [gt_iff_lt, UInt32.lt_iff_toNat_lt, toNat_neededCredits hcount]
    rfl
  rw [transferCount, transferLength]
  by_cases hdialect : smb2.dialect > smb2Version0202
  · simp only [if_pos hdialect]
    by_cases hbig : creditsFor count.toNat > 1008
    · rw [if_pos hbig, if_pos (hmany.mpr hbig), toNat_payable _ (by decide)]
      show min (1008 * 65536) (smb2.credits.toNat * 65536) = _
      omega
    · rw [if_neg hbig, if_neg (mt hmany.mp hbig)]
      by_cases hlimit : limit.toNat = 0
      · have hzero : (if count > limit then limit else count) = 0 := by
          rw [← UInt32.toNat_inj, hcut, hlimit, Nat.min_zero]
          rfl
        rw [if_pos hlimit, hzero]
        have hneeded : ((0 : UInt32) - 1) / 65536 + 1 > smb2.credits ↔ smb2.credits.toNat < 65536 :=
          UInt32.lt_iff_toNat_lt
        by_cases hfew : smb2.credits.toNat < 65536
        · rw [if_pos hfew, if_pos (hneeded.mpr hfew), toNat_mul_65536 hfew]
        · rw [if_neg hfew, if_neg (mt hneeded.mp hfew)]
          rfl
      · have hpos : 0 < (if count > limit then limit else count) := by
          have hcount' : 0 < count.toNat := UInt32.lt_iff_toNat_lt.mp hcount
          rw [UInt32.lt_iff_toNat_lt, hcut]
          show 0 < min count.toNat limit.toNat
          omega
        rw [if_neg hlimit, toNat_payable _ hpos, hcut]
  · simp only [if_neg hdialect]
    have hhigh : (if count > limit then limit else count) > 65536 ↔
        65536 < (if count > limit then limit else count).toNat := UInt32.lt_iff_toNat_lt
    rw [hcut] at hhigh
    by_cases hlong : (if count > limit then limit else count) > 65536
    · have hmin := hhigh.mp hlong
      rw [if_pos hlong]
      show 65536 = _
      omega
    · have hmin := mt hhigh.mpr hlong
      rw [if_neg hlong, hcut]
      omega

theorem toNat_singleCreditLength (smb2 : Smb2Context) (length : UInt32) :
    (singleCreditLength smb2 length).toNat = singleCreditCut smb2 length.toNat := by
  have hunit : (60 * 1024 : UInt32).toNat = 60 * 1024 := rfl
  have hgt : length > 60 * 1024 ↔ 60 * 1024 < length.toNat := UInt32.lt_iff_toNat_lt
  rw [singleCreditLength, singleCreditCut]
  split_ifs with hcut hmulti hmulti
  · exact absurd hmulti hcut.1
  · have hlong := hgt.mp hcut.2
    rw [hunit]
    omega
  · rfl
  · have hshort : ¬ 60 * 1024 < length.toNat := fun h => hcut ⟨hmulti, hgt.mpr h⟩
    omega

/-! ### The requests that are built -/

/-- The size that a READ or a WRITE asks for. -/
def Smb2Pdu.lengthField (pdu : Smb2Pdu) : Option Nat := pdu.out.iovs[1]?.bind fun fixed => getField 4 fixed 4

theorem queueRequest_encodes {env : Env} {w w' : World} {spec : RequestSpec} {err : Option String} {pdu : Smb2Pdu}
    (h : queueRequest env w spec = (err, w')) (hqueued : w'.trace = .queued ⟨pdu, []⟩ :: w.trace) :
    QueuedAs w.smb2 spec pdu ∧ Encodes (createPdu w.smb2 spec) pdu := by
  constructor
  · obtain ⟨messageId, pdu', hqueuedAs, ⟨-, rfl⟩ | ⟨-, rfl⟩⟩ := queueRequest_cases h
    · rw [World.log, List.cons.injEq] at hqueued
      cases hqueued.1
      exact hqueuedAs
    · cases hqueued
  · obtain ⟨smb2, encoded, hspec, ⟨-, queued, hmembers, rfl⟩ | ⟨-, rfl⟩⟩ := smb2QueuePdu_cases h
    · rw [World.log, List.cons.injEq] at hqueued
      cases hqueued.1
      obtain ⟨original, hmem, hencodes⟩ := hspec.exists_member pdu (by rw [← hmembers]; exact List.mem_singleton_self _)
      rw [PduChain.members, List.mem_singleton] at hmem
      rw [hmem] at hencodes
      exact hencodes
    · cases hqueued

theorem queueFor_encodes {env : Env} {w w' : World} {builder failed : String} {code ret : Int} {spec : RequestSpec}
    {pdu : Smb2Pdu} (h : queueFor env w builder failed code spec = (ret, w'))
    (hqueued : w'.trace = .queued ⟨pdu, []⟩ :: w.trace) :
    QueuedAs w.smb2 spec pdu ∧ Encodes (createPdu w.smb2 spec) pdu := by
  rw [queueFor] at h
  by_cases halloc : env.alloc (.encodeRequest spec.command) w.smb2 = true
  · rw [if_pos halloc] at h
    cases hrequest : queueRequest env w spec with
    | mk err w₁ =>
        rw [hrequest] at h
        have htrace : w'.trace = w₁.trace := by
          cases err with
          | none => cases h; rfl
          | some msg => cases h; rfl
        exact queueRequest_encodes hrequest (htrace.symm.trans hqueued)
  · rw [if_neg halloc] at h
    cases h
    exact absurd hqueued (List.ne_cons_self)

theorem getField_read (smb2 : Smb2Context) (appData : Nat) (fileId : Smb2FileId) (count : UInt32)
    (offset : UInt64) : (encodeRead smb2 appData fileId count offset).body[0]?.bind (getField 4 · 4) =
      some (singleCreditLength smb2 count).toNat := by
  simp only [encodeRead, List.getElem?_cons_zero, Option.bind_some]
  simp (disch := decide) only [smb2SetUint64, getField_setField_of_disjoint]
  exact getField_smb2SetUint32 (by decide) _

theorem getField_write (smb2 : Smb2Context) (appData : Nat) (fileId : Smb2FileId) (buf : Bytes) (count : UInt32)
    (offset : UInt64) : (encodeWrite smb2 appData fileId buf count offset).body[0]?.bind (getField 4 · 4) =
      some (singleCreditLength smb2 count).toNat := by
  simp only [encodeWrite, List.getElem?_cons_zero, Option.bind_some]
  simp (disch := decide) only [Smb2WriteRequest.fixed, smb2SetUint16, smb2SetUint64, smb2SetUint32,
    getField_setField_of_disjoint]
  rw [← smb2SetUint32]
  exact getField_smb2SetUint32 (by decide) _

theorem iovs_queuedAs {smb2 : Smb2Context} {spec : RequestSpec} {pdu : Smb2Pdu} (h : QueuedAs smb2 spec pdu) (i : Nat)
    (hi : i < spec.body.length) : pdu.out.iovs[i + 1]? = spec.body[i]? := by
  obtain ⟨pad, hiovs⟩ := iovs_createPdu smb2 spec
  have htail := h.body
  rw [hiovs, List.tail_cons] at htail
  rw [← List.getElem?_tail, htail, List.getElem?_append_left hi]

theorem toNat_transferSize (smb2 : Smb2Context) (limit : UInt32) {count : UInt32} (hcount : 0 < count) :
    (singleCreditLength smb2 (transferCount smb2 limit count)).toNat =
      singleCreditCut smb2 (transferLength smb2 limit.toNat count.toNat) := by
  rw [toNat_singleCreditLength, toNat_transferCount _ _ hcount]

/-- The size of a transfer is where the first vector of its request says. -/
theorem lengthField_of_queuedAs {smb2 : Smb2Context} {spec : RequestSpec} {pdu : Smb2Pdu} {limit count : UInt32}
    (h : QueuedAs smb2 spec pdu) (hbody : 0 < spec.body.length)
    (hfield : spec.body[0]?.bind (getField 4 · 4) =
      some (singleCreditLength smb2 (transferCount smb2 limit count)).toNat) (hcount : 0 < count) :
    pdu.lengthField = some (singleCreditCut smb2 (transferLength smb2 limit.toNat count.toNat)) := by
  rw [Smb2Pdu.lengthField, iovs_queuedAs h 0 hbody, hfield, toNat_transferSize _ _ hcount]

section

variable {env : Env} {w w' : World} {h a : Nat} {buf : Bytes} {count : UInt32} {offset : UInt64} {ret : Int}
  {pdu : Smb2Pdu}

/-- What the builder of a READ queued. -/
theorem of_smb2BuildReadRequest (hbuild : smb2BuildReadRequest env w h buf count offset a = some (ret, w'))
    (hqueued : w'.trace = .queued ⟨pdu, []⟩ :: w.trace) :
    ∃ fileId, let spec := encodeRead w.smb2 a fileId (transferCount w.smb2 w.smb2.maxReadSize count) offset
      QueuedAs w.smb2 spec pdu ∧ Encodes (createPdu w.smb2 spec) pdu := by
  obtain ⟨fh, -, hfor⟩ := Option.map_eq_some_iff.mp hbuild
  exact ⟨fh.fileId, @queueFor_encodes env (w.prepareTransfer h fh offset a { w.mem.app a with readBuf := buf }) w'
    _ _ _ ret _ pdu hfor hqueued⟩

/-- What the builder of a WRITE queued. -/
theorem of_smb2BuildWriteRequest (hbuild : smb2BuildWriteRequest env w h buf count offset a = some (ret, w'))
    (hqueued : w'.trace = .queued ⟨pdu, []⟩ :: w.trace) :
    ∃ fileId, let spec := encodeWrite w.smb2 a fileId buf (transferCount w.smb2 w.smb2.maxWriteSize count) offset
      QueuedAs w.smb2 spec pdu ∧ Encodes (createPdu w.smb2 spec) pdu := by
  obtain ⟨fh, -, hfor⟩ := Option.map_eq_some_iff.mp hbuild
  exact ⟨fh.fileId, @queueFor_encodes env (w.prepareTransfer h fh offset a (w.mem.app a)) w'
    _ _ _ ret _ pdu hfor hqueued⟩

theorem lengthField_read (hcount : 0 < count)
    (hbuild : smb2BuildReadRequest env w h buf count offset a = some (ret, w'))
    (hqueued : w'.trace = .queued ⟨pdu, []⟩ :: w.trace) :
    pdu.lengthField =
      some (singleCreditCut w.smb2 (transferLength w.smb2 w.smb2.maxReadSize.toNat count.toNat)) := by
  obtain ⟨fileId, hqueuedAs, -⟩ := of_smb2BuildReadRequest hbuild hqueued
  exact lengthField_of_queuedAs hqueuedAs Nat.two_pos (getField_read _ _ _ _ _) hcount

theorem lengthField_write (hcount : 0 < count)
    (hbuild : smb2BuildWriteRequest env w h buf count offset a = some (ret, w'))
    (hqueued : w'.trace = .queued ⟨pdu, []⟩ :: w.trace) :
    pdu.lengthField =
      some (singleCreditCut w.smb2 (transferLength w.smb2 w.smb2.maxWriteSize.toNat count.toNat)) := by
  obtain ⟨fileId, hqueuedAs, -⟩ := of_smb2BuildWriteRequest hbuild hqueued
  exact lengthField_of_queuedAs hqueuedAs Nat.two_pos (getField_write _ _ _ _ _ _) hcount

end

/-! ### The caller's count -/

/-- The request asks for at most so many bytes. -/
def Smb2Pdu.AsksWithin (pdu : Smb2Pdu) (count : Nat) : Prop := ∃ n, pdu.lengthField = some n ∧ n ≤ count

/-- The request announces the bytes it carries, and these are the first ones of a buffer. -/
def Smb2Pdu.SendsWithin (pdu : Smb2Pdu) (buf : Bytes) : Prop :=
  ∃ n, pdu.lengthField = some n ∧ n ≤ buf.length ∧ pdu.out.iovs[2]? = some (buf.take n)

/-- The limit is zero, and the cut to what the credits pay for makes more of it than the caller's count. -/
def CutRaises (smb2 : Smb2Context) (limit count : Nat) : Prop :=
  smb2.dialect > smb2Version0202 ∧ limit = 0 ∧ creditsFor count ≤ 1008 ∧ smb2.credits.toNat < 65536 ∧
    count < singleCreditCut smb2 (smb2.credits.toNat * 65536)

theorem singleCreditCut_le (smb2 : Smb2Context) (n : Nat) : singleCreditCut smb2 n ≤ n := by
  rw [singleCreditCut]
  split_ifs
  · exact le_rfl
  · exact min_le_left _ _

theorem transferLength_le_iff (smb2 : Smb2Context) (limit : Nat) {count : Nat} (hcount : 0 < count) :
    singleCreditCut smb2 (transferLength smb2 limit count) ≤ count ↔ ¬ CutRaises smb2 limit count := by
  rw [CutRaises, transferLength]
  have hle (n : Nat) := singleCreditCut_le smb2 n
  by_cases hdialect : smb2.dialect > smb2Version0202
  · rw [if_pos hdialect]
    by_cases hbig : creditsFor count > 1008
    · have hcut := hle (min smb2.credits.toNat 1008 * 65536)
      rw [if_pos hbig]
      rw [creditsFor] at hbig ⊢
      refine iff_of_true (by omega) (by omega)
    · rw [if_neg hbig]
      by_cases hlimit : limit = 0
      · rw [if_pos hlimit]
        by_cases hfew : smb2.credits.toNat < 65536
        · rw [if_pos hfew]
          simp only [hdialect, hlimit, hfew, not_lt.mp hbig, true_and, not_lt]
        · have hcut := hle 0
          rw [if_neg hfew]
          exact iff_of_true (by omega) (fun h => hfew h.2.2.2.1)
      · have hcut := hle (min (min count limit) (smb2.credits.toNat * 65536))
        rw [if_neg hlimit]
        exact iff_of_true (by omega) (fun h => hlimit h.2.1)
  · have hcut := hle (min (min count limit) 65536)
    rw [if_neg hdialect]
    exact iff_of_true (by omega) (fun h => hdialect h.1)

theorem transfersWithin_iff (env : Env) (w : World) (h a : Nat) (buf : Bytes) (count : UInt32) (offset : UInt64)
    (hcount : 0 < count) (hbuf : buf.length = count.toNat) (pdu : Smb2Pdu) :
    (∀ ret w', smb2BuildReadRequest env w h buf count offset a = some (ret, w') →
      w'.trace = .queued ⟨pdu, []⟩ :: w.trace →
        (pdu.AsksWithin count.toNat ↔ ¬ CutRaises w.smb2 w.smb2.maxReadSize.toNat count.toNat)) ∧
    (∀ ret w', smb2BuildWriteRequest env w h buf count offset a = some (ret, w') →
      w'.trace = .queued ⟨pdu, []⟩ :: w.trace →
        (pdu.SendsWithin buf ↔ ¬ CutRaises w.smb2 w.smb2.maxWriteSize.toNat count.toNat)) := by
  have hpos : 0 < count.toNat := UInt32.lt_iff_toNat_lt.mp hcount
  refine ⟨fun ret w' hbuild hqueued => ?_, fun ret w' hbuild hqueued => ?_⟩
  · rw [← transferLength_le_iff _ _ hpos, Smb2Pdu.AsksWithin, lengthField_read hcount hbuild hqueued]
    simp only [Option.some.injEq, exists_eq_left']
  · obtain ⟨fileId, hqueuedAs, -⟩ := of_smb2BuildWriteRequest hbuild hqueued
    have hdata : pdu.out.iovs[2]? = some (buf.take (singleCreditCut w.smb2
        (transferLength w.smb2 w.smb2.maxWriteSize.toNat count.toNat))) := by
      rw [iovs_queuedAs hqueuedAs 1 Nat.one_lt_two, ← toNat_transferSize _ _ hcount]
      rfl
    rw [← transferLength_le_iff _ _ hpos, Smb2Pdu.SendsWithin, lengthField_write hcount hbuild hqueued, hdata, hbuf]
    simp only [Option.some.injEq, exists_eq_left', and_true]

/-- A connected client with an open file, whose server allows reads of so many bytes. -/
def transferClient (maxReadSize credits : UInt32) : World :=
  { idleClient 0 with
    smb2 := { (idleClient 0).smb2 with
      maxReadSize, maxWriteSize := 65536, maxTransactSize := 65536, credits, supportsMultiCredit := true }
    mem := (idleClient 0).mem.setHandle 0 (some {}) }

/-- A call that reads four bytes, and the request it queues. -/
theorem exists_readRequest (maxReadSize credits : UInt32) : ∃ ret w' pdu,
    smb2BuildReadRequest plainEnv (transferClient maxReadSize credits) 0 [0, 0, 0, 0] 4 0 0 = some (ret, w') ∧
      w'.trace = .queued ⟨pdu, []⟩ :: (transferClient maxReadSize credits).trace := ⟨_, _, _, rfl, rfl⟩

theorem transfersWithin_fourBytes : ∃ ret w' pdu,
    smb2BuildReadRequest plainEnv (transferClient 65536 8) 0 [0, 0, 0, 0] 4 0 0 = some (ret, w') ∧
      w'.trace = .queued ⟨pdu, []⟩ :: (transferClient 65536 8).trace ∧ pdu.AsksWithin 4 := by
  obtain ⟨ret, w', pdu, hbuild, hqueued⟩ := exists_readRequest 65536 8
  refine ⟨ret, w', pdu, hbuild, hqueued, ?_⟩
  refine ((transfersWithin_iff plainEnv (transferClient 65536 8) 0 0 [0, 0, 0, 0] 4 0 (by decide) rfl pdu).1
    ret w' hbuild hqueued).mpr ?_
  exact fun hraises => absurd hraises.2.1 (by decide)

/-- A READ of four bytes from a server that allows none asks for 512 kilobytes. -/
theorem not_transfersWithin_noReadSize : ∃ ret w' pdu,
    smb2BuildReadRequest plainEnv (transferClient 0 8) 0 [0, 0, 0, 0] 4 0 0 = some (ret, w') ∧
      w'.trace = .queued ⟨pdu, []⟩ :: (transferClient 0 8).trace ∧ ¬ pdu.AsksWithin 4 := by
  obtain ⟨ret, w', pdu, hbuild, hqueued⟩ := exists_readRequest 0 8
  refine ⟨ret, w', pdu, hbuild, hqueued, ?_⟩
  rintro ⟨n, hn, hle⟩
  rw [lengthField_read (by decide) hbuild hqueued, Option.some.injEq] at hn
  have hasked : singleCreditCut (transferClient 0 8).smb2
      (transferLength (transferClient 0 8).smb2 0 4) = 8 * 65536 := by decide
  have hcount : (transferClient 0 8).smb2.maxReadSize.toNat = 0 ∧ (4 : UInt32).toNat = 4 := ⟨rfl, rfl⟩
  rw [hcount.1, hcount.2, hasked] at hn
  omega

/-! ### The server's limits and the credits -/

/-- The request asks for something, for no more than the limit and, with multi-credit requests, is
charged for what it asks and can be paid for. -/
def Smb2Pdu.TransferFits (smb2 : Smb2Context) (limit : Nat) (pdu : Smb2Pdu) : Prop :=
  ∃ n, pdu.lengthField = some n ∧ 0 < n ∧ n ≤ limit ∧
    (smb2.supportsMultiCredit = true → pdu.creditCharge = creditsFor n ∧ pdu.creditCharge ≤ smb2.credits.toNat)

/-- There are credits, where they count, and a size that is cut down to what `MAX_CREDITS` pay for is
not above the limit. -/
def TransferAffordable (smb2 : Smb2Context) (limit count : Nat) : Prop :=
  (smb2.dialect > smb2Version0202 ∨ smb2.supportsMultiCredit = true → 0 < smb2.credits.toNat) ∧
    (smb2.dialect > smb2Version0202 → creditsFor count > 1008 →
      singleCreditCut smb2 (min smb2.credits.toNat 1008 * 65536) ≤ limit)

/-- The charge for a payload. One of no bytes wraps around to no credits at all. -/
theorem creditCharge_of_encodes {smb2 : Smb2Context} {spec : RequestSpec} {pdu : Smb2Pdu}
    (h : Encodes (createPdu smb2 spec) pdu) (hmulti : smb2.supportsMultiCredit = true)
    (hcommand : spec.command.multiCredit = true) :
    pdu.creditCharge = creditsFor spec.payloadLength.toNat % 65536 := by
  have hcharge : (createPdu smb2 spec).header.creditCharge =
      ((spec.payloadLength - 1) / 65536 + 1).toUInt16 := by
    simp only [createPdu, hmulti, hcommand, and_self, if_true]
  rw [Smb2Pdu.creditCharge, h.creditCharge, hcharge, UInt32.toNat_toUInt16]
  by_cases hpayload : 0 < spec.payloadLength
  · rw [toNat_neededCredits hpayload]
  · have hzero : spec.payloadLength = 0 := UInt32.le_zero_iff.mp (UInt32.not_lt.mp hpayload)
    rw [hzero]
    rfl

theorem transferFits_arith (smb2 : Smb2Context) {limit count : Nat} (hlimit : 0 < limit) (hcount : 0 < count) :
    (0 < singleCreditCut smb2 (transferLength smb2 limit count) ∧
      singleCreditCut smb2 (transferLength smb2 limit count) ≤ limit ∧
      (smb2.supportsMultiCredit = true →
        creditsFor (singleCreditCut smb2 (transferLength smb2 limit count)) ≤ smb2.credits.toNat)) ↔
      TransferAffordable smb2 limit count := by
  have hne : limit ≠ 0 := hlimit.ne'
  simp only [TransferAffordable, transferLength, singleCreditCut, creditsFor]
  by_cases hdialect : smb2.dialect > smb2Version0202
  · by_cases hbig : (count + 65535) / 65536 > 1008
    · cases hmulti : smb2.supportsMultiCredit with
      | true =>
          simp only [hdialect, hbig, if_true, true_or, true_imp_iff]
          omega
      | false =>
          simp only [hdialect, hbig, Bool.false_eq_true, if_true, if_false, true_or, true_imp_iff, false_imp_iff, and_true]
          omega
    · cases hmulti : smb2.supportsMultiCredit with
      | true =>
          simp only [hdialect, hbig, hne, if_true, if_false, true_or, true_imp_iff, false_imp_iff, and_true]
          omega
      | false =>
          simp only [hdialect, hbig, hne, Bool.false_eq_true, if_true, if_false, true_or, true_imp_iff, false_imp_iff, and_true]
          omega
  · cases hmulti : smb2.supportsMultiCredit with
    | true =>
        simp only [hdialect, if_true, if_false, or_true, true_imp_iff, false_imp_iff, and_true]
        omega
    | false =>
        simp only [hdialect, Bool.false_eq_true, if_false, or_self, false_imp_iff, and_true, iff_true]
        omega

/-- No transfer takes more than 1008 credits, unless the limit is zero. -/
theorem creditsFor_transferLength_le (smb2 : Smb2Context) {limit : Nat} (hlimit : 0 < limit) (count : Nat) :
    creditsFor (singleCreditCut smb2 (transferLength smb2 limit count)) ≤ 1008 := by
  have hcut := singleCreditCut_le smb2 (transferLength smb2 limit count)
  have hlength : transferLength smb2 limit count ≤ 1008 * 65536 := by
    simp only [transferLength, creditsFor, hlimit.ne', if_false]
    split_ifs <;> omega
  rw [creditsFor]
  omega

theorem transferFits_iff {smb2 : Smb2Context} {limit count : UInt32} {spec : RequestSpec} {pdu : Smb2Pdu}
    (hlimit : 0 < limit) (hcount : 0 < count)
    (hfield : pdu.lengthField = some (singleCreditCut smb2 (transferLength smb2 limit.toNat count.toNat)))
    (hpayload : spec.payloadLength = singleCreditLength smb2 (transferCount smb2 limit count))
    (hcommand : spec.command.multiCredit = true) (hencodes : Encodes (createPdu smb2 spec) pdu) :
    pdu.TransferFits smb2 limit.toNat ↔ TransferAffordable smb2 limit.toNat count.toNat := by
  have hlimit' : 0 < limit.toNat := UInt32.lt_iff_toNat_lt.mp hlimit
  have hcount' : 0 < count.toNat := UInt32.lt_iff_toNat_lt.mp hcount
  have hfew := creditsFor_transferLength_le smb2 hlimit' count.toNat
  rw [← transferFits_arith smb2 hlimit' hcount', Smb2Pdu.TransferFits, hfield]
  simp only [Option.some.injEq, exists_eq_left']
  refine and_congr_right fun _ => and_congr_right fun _ => forall_congr' fun hmulti => ?_
  have hcharge : pdu.creditCharge =
      creditsFor (singleCreditCut smb2 (transferLength smb2 limit.toNat count.toNat)) := by
    rw [creditCharge_of_encodes hencodes hmulti hcommand, hpayload, toNat_transferSize _ _ hcount,
      Nat.mod_eq_of_lt (by omega)]
  rw [hcharge]
  exact and_iff_right rfl

/-! ### IOCTL -/

/-- The largest answer that an IOCTL allows. -/
def Smb2Pdu.maxOutputField (pdu : Smb2Pdu) : Option Nat := pdu.out.iovs[1]?.bind fun fixed => getField 4 fixed 44

/-- The request can be paid for, and allows no answer above the server's limit. -/
def Smb2Pdu.IoctlFits (smb2 : Smb2Context) (pdu : Smb2Pdu) : Prop :=
  pdu.creditCharge ≤ smb2.credits.toNat ∧ ∃ n, pdu.maxOutputField = some n ∧ n ≤ smb2.maxTransactSize.toNat

/-- The credits pay for the input, and the limit is not one from which 1024 cannot be taken, where that
would be done. -/
def IoctlAffordable (smb2 : Smb2Context) (inputCount outputCount : Nat) : Prop :=
  (if smb2.supportsMultiCredit then
      inputCount ≤ smb2.credits.toNat * 65536 ∨ 2 ^ 32 - 65536 < inputCount
    else smb2.dialect = smb2Version0202 ∨ 0 < smb2.credits.toNat) ∧
  ¬ (smb2.maxTransactSize.toNat < 1024 ∧ smb2.maxTransactSize.toNat < smb2.credits.toNat * 65536 % 2 ^ 32 ∧
    smb2.maxTransactSize.toNat < outputCount)

/-- The answer that is allowed, with both subtractions that can go wrong. -/
def ioctlOutput (credits maxTransactSize outputCount : Nat) : Nat :=
  let payload := credits * 65536 % 2 ^ 32
  min outputCount
    (if payload > maxTransactSize then
      if maxTransactSize < 1024 then maxTransactSize + 2 ^ 32 - 1024 else maxTransactSize - 1024
    else payload)

theorem toNat_maxOutputResponse (smb2 : Smb2Context) (outputCount : UInt32) :
    (maxOutputResponse smb2 outputCount).toNat =
      ioctlOutput smb2.credits.toNat smb2.maxTransactSize.toNat outputCount.toNat := by
  have hpayload : (smb2.credits * (64 * 1024)).toNat = smb2.credits.toNat * 65536 % 2 ^ 32 := UInt32.toNat_mul _ _
  have hless : (smb2.maxTransactSize - 1024).toNat =
      if smb2.maxTransactSize.toNat < 1024 then smb2.maxTransactSize.toNat + 2 ^ 32 - 1024
        else smb2.maxTransactSize.toNat - 1024 := by
    have hlt := smb2.maxTransactSize.toNat_lt
    have hunit : (1024 : UInt32).toNat = 1024 := rfl
    rw [UInt32.toNat_sub, hunit]
    split_ifs <;> omega
  have hcut : (if smb2.credits * (64 * 1024) > smb2.maxTransactSize then smb2.maxTransactSize - 1024
      else smb2.credits * (64 * 1024)).toNat =
      if smb2.credits.toNat * 65536 % 2 ^ 32 > smb2.maxTransactSize.toNat then (smb2.maxTransactSize - 1024).toNat
        else smb2.credits.toNat * 65536 % 2 ^ 32 := by
    rw [← hpayload, apply_ite UInt32.toNat]
    exact if_congr UInt32.lt_iff_toNat_lt rfl rfl
  rw [maxOutputResponse, ioctlOutput, ← hless, ← hcut]
  generalize (if smb2.credits * (64 * 1024) > smb2.maxTransactSize then smb2.maxTransactSize - 1024
      else smb2.credits * (64 * 1024)) = payload
  have hgt : outputCount < payload ↔ outputCount.toNat < payload.toNat := UInt32.lt_iff_toNat_lt
  show (if outputCount < payload then outputCount else payload).toNat = min outputCount.toNat payload.toNat
  by_cases hsmall : outputCount < payload
  · rw [if_pos hsmall, min_eq_left (hgt.mp hsmall).le]
  · rw [if_neg hsmall, min_eq_right (not_lt.mp (mt hgt.mpr hsmall))]

theorem getField_ioctl (smb2 : Smb2Context) (appData : Nat) (fileId : Smb2FileId) (ctl flags : UInt32)
    (input : Bytes) (outputCount : UInt32) :
    (encodeIoctl smb2 appData fileId ctl flags input outputCount).body[0]?.bind (getField 4 · 44) =
      some (maxOutputResponse smb2 outputCount).toNat := by
  simp only [encodeIoctl, List.getElem?_cons_zero, Option.bind_some]
  simp (disch := decide) only [Smb2IoctlRequest.fixed, smb2SetUint16, smb2SetUint64, smb2SetUint32,
    getField_setField_of_disjoint]
  rw [← smb2SetUint32]
  exact getField_smb2SetUint32 (by simp only [length_setField, List.length_replicate]; decide) _

theorem ioctl_arith (smb2 : Smb2Context) {inputCount outputCount : Nat}
    (hinput : inputCount ≤ smb2.maxTransactSize.toNat) :
    ((if smb2.supportsMultiCredit then
          creditsFor (max inputCount (ioctlOutput smb2.credits.toNat smb2.maxTransactSize.toNat outputCount)) % 65536
        else if smb2.dialect = smb2Version0202 then 0 else 1) ≤ smb2.credits.toNat ∧
      ioctlOutput smb2.credits.toNat smb2.maxTransactSize.toNat outputCount ≤ smb2.maxTransactSize.toNat) ↔
      IoctlAffordable smb2 inputCount outputCount := by
  have hcredits := smb2.credits.toNat_lt
  have hlimit := smb2.maxTransactSize.toNat_lt
  simp only [IoctlAffordable, ioctlOutput, creditsFor]
  generalize smb2.credits.toNat = credits at *
  generalize smb2.maxTransactSize.toNat = limit at *
  cases hmulti : smb2.supportsMultiCredit with
  | true =>
      simp only [if_true]
      split_ifs <;> omega
  | false =>
      simp only [Bool.false_eq_true, if_false]
      by_cases hdialect : smb2.dialect = smb2Version0202
      · simp only [hdialect, if_true, true_or, true_and, Nat.zero_le]
        split_ifs <;> omega
      · simp only [hdialect, if_false, false_or]
        split_ifs <;> omega

theorem ioctlFits_iff {env : Env} {w w' : World} {h a : Nat} {ctl flags : UInt32} {input output : Bytes} {ret : Int}
    {pdu : Smb2Pdu} (houtput : output.length < 2 ^ 32)
    (hbuild : smb2BuildIoctlRequest env w h ctl flags input output a = some (ret, w'))
    (hqueued : w'.trace = .queued ⟨pdu, []⟩ :: w.trace) :
    pdu.IoctlFits w.smb2 ↔ IoctlAffordable w.smb2 input.length output.length := by
  rw [smb2BuildIoctlRequest] at hbuild
  by_cases hlong : input.length > w.smb2.maxTransactSize.toNat
  · rw [if_pos hlong, Option.some.injEq, Prod.mk.injEq] at hbuild
    rw [← hbuild.2] at hqueued
    exact absurd hqueued List.ne_cons_self
  · rw [if_neg hlong] at hbuild
    obtain ⟨fh, -, hfor⟩ := Option.map_eq_some_iff.mp hbuild
    let data := { w.mem.app a with outBuf := output, outBufLen := UInt32.ofNat output.length }
    obtain ⟨hqueuedAs, hencodes⟩ := @queueFor_encodes env { w with mem := w.mem.setApp a data } w' _ _ _ ret _ pdu hfor hqueued
    set spec := encodeIoctl w.smb2 a fh.fileId ctl flags input (UInt32.ofNat output.length) with hspec
    have hinput := w.smb2.maxTransactSize.toNat_lt
    have hcount : (UInt32.ofNat input.length).toNat = input.length := toNat_ofNat_uint32 (by omega)
    have hmax : (maxOutputResponse w.smb2 (UInt32.ofNat output.length)).toNat =
        ioctlOutput w.smb2.credits.toNat w.smb2.maxTransactSize.toNat output.length := by
      rw [toNat_maxOutputResponse, toNat_ofNat_uint32 houtput]
    have hpayload : spec.payloadLength.toNat = max input.length
        (ioctlOutput w.smb2.credits.toNat w.smb2.maxTransactSize.toNat output.length) := by
      have hgt : UInt32.ofNat input.length > maxOutputResponse w.smb2 (UInt32.ofNat output.length) ↔
          ioctlOutput w.smb2.credits.toNat w.smb2.maxTransactSize.toNat output.length < input.length := by
        rw [← hmax, gt_iff_lt, UInt32.lt_iff_toNat_lt, hcount]
      show (if UInt32.ofNat input.length > maxOutputResponse w.smb2 (UInt32.ofNat output.length) then
        UInt32.ofNat input.length else maxOutputResponse w.smb2 (UInt32.ofNat output.length)).toNat = _
      by_cases hlarge : UInt32.ofNat input.length > maxOutputResponse w.smb2 (UInt32.ofNat output.length)
      · rw [if_pos hlarge, hcount, max_eq_left (hgt.mp hlarge).le]
      · rw [if_neg hlarge, hmax, max_eq_right (not_lt.mp (mt hgt.mpr hlarge))]
    have hcharge : pdu.creditCharge =
        if w.smb2.supportsMultiCredit then creditsFor (max input.length
          (ioctlOutput w.smb2.credits.toNat w.smb2.maxTransactSize.toNat output.length)) % 65536
        else if w.smb2.dialect = smb2Version0202 then 0 else 1 := by
      by_cases hmulti : w.smb2.supportsMultiCredit = true
      · rw [if_pos hmulti, creditCharge_of_encodes hencodes hmulti rfl, hpayload]
      · rw [if_neg hmulti, Smb2Pdu.creditCharge, hencodes.creditCharge]
        have hnew : (createPdu w.smb2 spec).header.creditCharge = if w.smb2.dialect = smb2Version0202 then 0 else 1 := by
          simp only [createPdu, hmulti, Bool.false_eq_true, false_and, if_false, Smb2Pdu.new]
          rfl
        rw [hnew]
        split_ifs <;> rfl
    have hfield : pdu.maxOutputField =
        some (ioctlOutput w.smb2.credits.toNat w.smb2.maxTransactSize.toNat output.length) := by
      rw [Smb2Pdu.maxOutputField, iovs_queuedAs hqueuedAs 0 Nat.two_pos, getField_ioctl, hmax]
    rw [← ioctl_arith w.smb2 (not_lt.mp hlong), Smb2Pdu.IoctlFits, hcharge, hfield]
    simp only [Option.some.injEq, exists_eq_left']

theorem requestsFit_iff (env : Env) (w : World) (h a : Nat) (pdu : Smb2Pdu) :
    (∀ buf count offset ret w', 0 < count → 0 < w.smb2.maxReadSize →
      smb2BuildReadRequest env w h buf count offset a = some (ret, w') →
      w'.trace = .queued ⟨pdu, []⟩ :: w.trace →
        (pdu.TransferFits w.smb2 w.smb2.maxReadSize.toNat ↔
          TransferAffordable w.smb2 w.smb2.maxReadSize.toNat count.toNat)) ∧
    (∀ buf count offset ret w', 0 < count → 0 < w.smb2.maxWriteSize →
      smb2BuildWriteRequest env w h buf count offset a = some (ret, w') →
      w'.trace = .queued ⟨pdu, []⟩ :: w.trace →
        (pdu.TransferFits w.smb2 w.smb2.maxWriteSize.toNat ↔
          TransferAffordable w.smb2 w.smb2.maxWriteSize.toNat count.toNat)) ∧
    (∀ ctl flags input output ret w', output.length < 2 ^ 32 →
      smb2BuildIoctlRequest env w h ctl flags input output a = some (ret, w') →
      w'.trace = .queued ⟨pdu, []⟩ :: w.trace →
        (pdu.IoctlFits w.smb2 ↔ IoctlAffordable w.smb2 input.length output.length)) := by
  refine ⟨?_, ?_, ?_⟩
  · intro buf count offset ret w' hcount hlimit hbuild hqueued
    obtain ⟨fileId, -, hencodes⟩ := of_smb2BuildReadRequest hbuild hqueued
    exact transferFits_iff hlimit hcount (lengthField_read hcount hbuild hqueued) rfl rfl hencodes
  · intro buf count offset ret w' hcount hlimit hbuild hqueued
    obtain ⟨fileId, -, hencodes⟩ := of_smb2BuildWriteRequest hbuild hqueued
    exact transferFits_iff hlimit hcount (lengthField_write hcount hbuild hqueued) rfl rfl hencodes
  · intro ctl flags input output ret w' houtput hbuild hqueued
    exact ioctlFits_iff houtput hbuild hqueued

/-- A READ, a WRITE and an IOCTL of four bytes with eight credits. -/
theorem requestsFit_fourBytes :
    (∃ ret w' pdu,
      smb2BuildReadRequest plainEnv (transferClient 65536 8) 0 [0, 0, 0, 0] 4 0 0 = some (ret, w') ∧
        w'.trace = .queued ⟨pdu, []⟩ :: (transferClient 65536 8).trace ∧
        pdu.TransferFits (transferClient 65536 8).smb2 65536) ∧
    (∃ ret w' pdu,
      smb2BuildWriteRequest plainEnv (transferClient 65536 8) 0 [0, 0, 0, 0] 4 0 0 = some (ret, w') ∧
        w'.trace = .queued ⟨pdu, []⟩ :: (transferClient 65536 8).trace ∧
        pdu.TransferFits (transferClient 65536 8).smb2 65536) ∧
    (∃ ret w' pdu,
      smb2BuildIoctlRequest plainEnv (transferClient 65536 8) 0 0 0 [0, 0, 0, 0] [0, 0, 0, 0] 0 = some (ret, w') ∧
        w'.trace = .queued ⟨pdu, []⟩ :: (transferClient 65536 8).trace ∧
        pdu.IoctlFits (transferClient 65536 8).smb2) := by
  refine ⟨?_, ?_, ?_⟩
  · obtain ⟨ret, w', pdu, hbuild, hqueued⟩ := exists_readRequest 65536 8
    refine ⟨ret, w', pdu, hbuild, hqueued, ?_⟩
    refine ((requestsFit_iff plainEnv (transferClient 65536 8) 0 0 pdu).1 _ 4 0 ret w' (by decide) (by decide)
      hbuild hqueued).mpr ?_
    exact ⟨fun _ => by decide, fun _ hbig => absurd hbig (by decide)⟩
  · obtain ⟨ret, w', pdu, hbuild, hqueued⟩ : ∃ ret w' pdu,
      smb2BuildWriteRequest plainEnv (transferClient 65536 8) 0 [0, 0, 0, 0] 4 0 0 = some (ret, w') ∧
        w'.trace = .queued ⟨pdu, []⟩ :: (transferClient 65536 8).trace := ⟨_, _, _, rfl, rfl⟩
    refine ⟨ret, w', pdu, hbuild, hqueued, ?_⟩
    refine ((requestsFit_iff plainEnv (transferClient 65536 8) 0 0 pdu).2.1 _ 4 0 ret w' (by decide) (by decide)
      hbuild hqueued).mpr ?_
    exact ⟨fun _ => by decide, fun _ hbig => absurd hbig (by decide)⟩
  · obtain ⟨ret, w', pdu, hbuild, hqueued⟩ : ∃ ret w' pdu,
      smb2BuildIoctlRequest plainEnv (transferClient 65536 8) 0 0 0 [0, 0, 0, 0] [0, 0, 0, 0] 0 = some (ret, w') ∧
        w'.trace = .queued ⟨pdu, []⟩ :: (transferClient 65536 8).trace := ⟨_, _, _, rfl, rfl⟩
    refine ⟨ret, w', pdu, hbuild, hqueued, ?_⟩
    refine ((requestsFit_iff plainEnv (transferClient 65536 8) 0 0 pdu).2.2 0 0 _ _ ret w' (by decide)
      hbuild hqueued).mpr ?_
    refine ⟨.inl (by decide), fun h => absurd h.1 (by decide)⟩

/-- Without credits a READ asks for nothing. -/
theorem not_requestsFit_noCredits : ∃ ret w' pdu,
    smb2BuildReadRequest plainEnv (transferClient 65536 0) 0 [0, 0, 0, 0] 4 0 0 = some (ret, w') ∧
      w'.trace = .queued ⟨pdu, []⟩ :: (transferClient 65536 0).trace ∧
      ¬ pdu.TransferFits (transferClient 65536 0).smb2 65536 := by
  obtain ⟨ret, w', pdu, hbuild, hqueued⟩ := exists_readRequest 65536 0
  refine ⟨ret, w', pdu, hbuild, hqueued, ?_⟩
  rintro ⟨n, hn, hpos, -⟩
  rw [lengthField_read (by decide) hbuild hqueued, Option.some.injEq] at hn
  have hasked : singleCreditCut (transferClient 65536 0).smb2
      (transferLength (transferClient 65536 0).smb2 65536 4) = 0 := by decide
  have hcount : (transferClient 65536 0).smb2.maxReadSize.toNat = 65536 ∧ (4 : UInt32).toNat = 4 := ⟨rfl, rfl⟩
  rw [hcount.1, hcount.2, hasked] at hn
  omega

end CodeStudy.Samba
