import CodeStudy.Base.Loop
import CodeStudy.Samba.Context

/-!
# Reading one io vector

`readIovec` fills a vector from a non-blocking socket. It keeps the result of `readv` and the count
of bytes read in variables of the unsigned type `size_t`, so a failed call counts as `2 ^ 64 - 1`
bytes: the test for a negative result never succeeds, and the addition moves the position back by
one. At position 0 that ends the loop with the result -1, whatever the error was. At a later
position it takes the last byte back and goes on.
-/

namespace CodeStudy.Samba

/-- What one `readv` does: it delivers at most `more + 1` bytes, fails, or finds the stream at its
end. -/
inductive ReadvOutcome where
  | data (more : Nat)
  | error (errno : Errno)
  | eof
  deriving DecidableEq

def Errno.isTransient (errno : Errno) : Bool := errno = .eintr || errno = .eagain

/-- The vector a caller wants filled; its length is a `size_t`. -/
structure ReadVec where
  buf : Bytes
  fits : buf.length < 2 ^ 64

def ReadVec.len (v : ReadVec) : UInt64 := UInt64.ofNat v.buf.length

@[simp] theorem ReadVec.toNat_len (v : ReadVec) : v.len.toNat = v.buf.length := by
  rw [len, toNat_ofNat_uint64 v.fits]

/-- The buffer, the count of bytes read and the position of the socket in the stream. -/
structure ReadState where
  buf : Bytes
  totalBytesRead : UInt64 := 0
  position : Nat := 0
  deriving DecidableEq

section

variable (stream : Nat → UInt8) (v : ReadVec)

/-- The bytes of the stream from a position on. -/
def streamBytes (position count : Nat) : Bytes := (List.range count).map fun i => stream (position + i)

/-- The call of `readv` for what is missing, with its result as a `size_t`. -/
def readv (s : ReadState) : ReadvOutcome → UInt64 × ReadState
  | .data more =>
      let count := min (more + 1) (v.buf.length - s.totalBytesRead.toNat)
      (UInt64.ofNat count,
       { s with
         buf := memcpy s.buf s.totalBytesRead.toNat (streamBytes stream s.position count)
         position := s.position + count })
  | .error _ => (UInt64.ofInt (-1), s)
  | .eof => (0, s)

/-- The body of the loop. -/
def readStep (s : ReadState) (outcome : ReadvOutcome) : Step ReadState Int :=
  let (bytesRead, s) := readv stream v s outcome
  if bytesRead < 0 then
    match outcome with
    | .error errno => if errno.isTransient then .next s else .done (-1)
    | _ => .done (-1)
  else if bytesRead = 0 then .done (-1)
  else .next { s with totalBytesRead := s.totalBytesRead + bytesRead }

/-- The loop over the outcomes of its calls; `none` when they run out before it ends. -/
def readLoop : ReadState → List ReadvOutcome → Option (Int × ReadState)
  | s, [] => if s.totalBytesRead < v.len then none else some (toInt32 s.totalBytesRead.toNat, s)
  | s, outcome :: outcomes =>
      if s.totalBytesRead < v.len then
        match readStep stream v s outcome with
        | .next s => readLoop s outcomes
        | .done result => some (result, s)
      else some (toInt32 s.totalBytesRead.toNat, s)

def readIovec (outcomes : List ReadvOutcome) : Option (Int × ReadState) :=
  readLoop stream v { buf := v.buf } outcomes

/-- The state at the head of the loop when it is still running after the given outcomes. -/
def stillReading : ReadState → List ReadvOutcome → Option ReadState
  | s, [] => if s.totalBytesRead < v.len then some s else none
  | s, outcome :: outcomes =>
      if s.totalBytesRead < v.len then
        match readStep stream v s outcome with
        | .next s => stillReading s outcomes
        | .done _ => none
      else none

/-- What a caller expects of one call of `readIovec`. -/
structure ReadsExactly (outcomes : List ReadvOutcome) : Prop where
  exact : ∀ ret s, readIovec stream v outcomes = some (ret, s) → ret = v.buf.length →
    s.buf = streamBytes stream 0 v.buf.length ∧ s.position = v.buf.length
  transient : ∀ before errno after s, outcomes = before ++ .error errno :: after →
    errno.isTransient → stillReading stream v { buf := v.buf } before = some s →
    stillReading stream v { buf := v.buf } (before ++ [.error errno]) = some s
  failure : ∀ before outcome after s, outcomes = before ++ outcome :: after →
    (outcome = .eof ∨ ∃ errno, outcome = .error errno ∧ errno.isTransient = false) →
    stillReading stream v { buf := v.buf } before = some s →
    ∃ s', readIovec stream v (before ++ [outcome]) = some (-1, s')

/-! ### One call of `readv` -/

variable {stream v} {s : ReadState}

theorem readStep_data (more : Nat) (h : s.totalBytesRead < v.len) :
    ∃ count, 0 < count ∧ count = min (more + 1) (v.buf.length - s.totalBytesRead.toNat) ∧
      readStep stream v s (.data more) = .next
        { buf := memcpy s.buf s.totalBytesRead.toNat (streamBytes stream s.position count)
          totalBytesRead := s.totalBytesRead + UInt64.ofNat count
          position := s.position + count } := by
  have hlt := UInt64.lt_iff_toNat_lt.mp h
  rw [ReadVec.toNat_len] at hlt
  have hfits := v.fits
  refine ⟨_, by omega, rfl, ?_⟩
  have hpos : UInt64.ofNat (min (more + 1) (v.buf.length - s.totalBytesRead.toNat)) ≠ 0 := by
    intro hzero
    have := congrArg UInt64.toNat hzero
    rw [toNat_ofNat_uint64 (by omega), UInt64.toNat_zero] at this
    omega
  simp only [readStep, readv, UInt64.not_lt_zero, if_false, hpos]

theorem readStep_error (errno : Errno) :
    readStep stream v s (.error errno) =
      .next { s with totalBytesRead := s.totalBytesRead + UInt64.ofInt (-1) } := by
  have hne : UInt64.ofInt (-1) ≠ 0 := by decide
  simp only [readStep, readv, UInt64.not_lt_zero, if_false, hne]

theorem toInt32_neg_one : toInt32 (UInt64.ofInt (-1)).toNat = -1 := by decide

theorem readStep_eof : readStep stream v s .eof = .done (-1) := by
  simp only [readStep, readv, UInt64.not_lt_zero, if_false, if_true]

theorem readLoop_of_not_lt (h : ¬ s.totalBytesRead < v.len) (outcomes : List ReadvOutcome) :
    readLoop stream v s outcomes = some (toInt32 s.totalBytesRead.toNat, s) := by
  cases outcomes <;> rw [readLoop, if_neg h]

theorem stillReading_of_not_lt (h : ¬ s.totalBytesRead < v.len) (outcomes : List ReadvOutcome) :
    stillReading stream v s outcomes = none := by
  cases outcomes <;> rw [stillReading, if_neg h]

/-! ### Reading without errors -/

theorem stillReading_append {before : List ReadvOutcome} {s' : ReadState}
    (h : stillReading stream v s before = some s') (after : List ReadvOutcome) :
    stillReading stream v s (before ++ after) = stillReading stream v s' after ∧
      readLoop stream v s (before ++ after) = readLoop stream v s' after := by
  induction before generalizing s with
  | nil =>
      rw [stillReading] at h
      split_ifs at h
      cases h
      exact ⟨rfl, rfl⟩
  | cons outcome before ih =>
      rw [stillReading] at h
      split_ifs at h with hlt
      cases hstep : readStep stream v s outcome with
      | next s₁ =>
          simp only [hstep] at h
          obtain ⟨hstill, hloop⟩ := ih h
          rw [List.cons_append, stillReading, readLoop, if_pos hlt, if_pos hlt, hstep]
          exact ⟨hstill, hloop⟩
      | done _ => simp [hstep] at h

theorem stillReading_lt {outcomes : List ReadvOutcome} {s' : ReadState}
    (h : stillReading stream v s outcomes = some s') : s'.totalBytesRead < v.len := by
  have happ := (stillReading_append h []).1
  rw [List.append_nil, h, stillReading] at happ
  by_contra hge
  rw [if_neg hge] at happ
  cases happ

/-- The first `count` bytes of the buffer are the first `count` bytes of the stream, which is read
up to there. -/
structure Filled (stream : Nat → UInt8) (v : ReadVec) (s : ReadState) (count : Nat) : Prop where
  size : s.buf.length = v.buf.length
  total : s.totalBytesRead.toNat = count
  position : s.position = count
  bytes : s.buf.take count = streamBytes stream 0 count
  le : count ≤ v.buf.length

theorem Filled.lt_iff {count : Nat} (h : Filled stream v s count) :
    s.totalBytesRead < v.len ↔ count < v.buf.length := by
  rw [UInt64.lt_iff_toNat_lt, h.total, ReadVec.toNat_len]

theorem filled_start : Filled stream v { buf := v.buf } 0 where
  size := rfl
  total := rfl
  position := rfl
  bytes := rfl
  le := Nat.zero_le _

theorem streamBytes_append (stream : Nat → UInt8) (m n : Nat) :
    streamBytes stream 0 m ++ streamBytes stream m n = streamBytes stream 0 (m + n) := by
  simp [streamBytes, List.range_add, Function.comp_def]

theorem filled_data {count : Nat} (h : Filled stream v s count) (hlt : count < v.buf.length)
    (more : Nat) : ∃ s', readStep stream v s (.data more) = .next s' ∧
      Filled stream v s' (min (count + (more + 1)) v.buf.length) := by
  obtain ⟨n, hpos, hn, hstep⟩ := @readStep_data stream v s more (h.lt_iff.mpr hlt)
  rw [h.total] at hn
  have hcount : min (count + (more + 1)) v.buf.length = count + n := by omega
  have hlen : (streamBytes stream s.position n).length = n := by simp [streamBytes]
  have hfits := v.fits
  refine ⟨_, hstep, ?_⟩
  rw [hcount]
  constructor
  · rw [length_memcpy (by rw [hlen, h.total, h.size]; omega), h.size]
  · rw [UInt64.toNat_add, h.total, toNat_ofNat_uint64 (by omega)]
    omega
  · rw [h.position]
  · have hbound : s.totalBytesRead.toNat + (streamBytes stream s.position n).length ≤ s.buf.length := by
      rw [hlen, h.total, h.size]
      omega
    have htake := take_memcpy hbound
    rw [hlen, h.total] at htake
    rw [h.total, htake, h.bytes, h.position, streamBytes_append]
  · omega

/-! ### Where a call may fail -/

def ReadvOutcome.isData : ReadvOutcome → Bool
  | .data _ => true
  | _ => false

/-- How far calls that succeed fill a vector of `len` bytes from position `count` on. -/
def deliveredFrom (len : Nat) : Nat → List ReadvOutcome → Nat
  | count, [] => count
  | count, .data more :: outcomes => deliveredFrom len (min (count + (more + 1)) len) outcomes
  | count, _ :: outcomes => deliveredFrom len count outcomes

theorem le_deliveredFrom {len count : Nat} (hle : count ≤ len) (outcomes : List ReadvOutcome) :
    count ≤ deliveredFrom len count outcomes := by
  induction outcomes generalizing count with
  | nil => exact le_refl _
  | cons outcome outcomes ih =>
      cases outcome with
      | data more => exact le_trans (by omega) (ih (min_le_right _ _))
      | error _ => exact ih hle
      | eof => exact ih hle

/-- From position `count` on, a call that fails before the vector is full is the very first call of
the loop, and its error is not transient. -/
def ErrorsOnlyFirst (len count : Nat) (outcomes : List ReadvOutcome) : Prop :=
  ∀ before errno after, outcomes = before ++ .error errno :: after →
    (∀ o ∈ before, o.isData) → deliveredFrom len count before < len →
    before = [] ∧ count = 0 ∧ errno.isTransient = false

theorem ErrorsOnlyFirst.tail {len count more : Nat} {outcomes : List ReadvOutcome}
    (h : ErrorsOnlyFirst len count (.data more :: outcomes)) (count' : Nat)
    (hcount : count' = min (count + (more + 1)) len) : ErrorsOnlyFirst len count' outcomes := by
  intro before errno after heq hdata hlt
  have := h (.data more :: before) errno after (by rw [heq, List.cons_append])
    (List.forall_mem_cons.mpr ⟨rfl, hdata⟩) (by rw [deliveredFrom, ← hcount]; exact hlt)
  simp at this

/-- A failed first call ends the loop with -1. -/
theorem totalBytesRead_error_zero {count : Nat} (h : Filled stream v s count) (hcount : count = 0) :
    s.totalBytesRead + UInt64.ofInt (-1) = UInt64.ofInt (-1) := by
  have : s.totalBytesRead = 0 := UInt64.toNat_inj.mp (by rw [h.total, hcount, UInt64.toNat_zero])
  rw [this, UInt64.zero_add]

theorem not_ofInt_neg_one_lt (len : UInt64) : ¬ UInt64.ofInt (-1) < len := by
  have hmax : (UInt64.ofInt (-1)).toNat = 2 ^ 64 - 1 := by decide
  rw [UInt64.lt_iff_toNat_lt, hmax]
  have := len.toNat_lt
  omega

theorem filled_of_done {outcomes : List ReadvOutcome} {count : Nat} {ret : Int} {s' : ReadState}
    (hs : Filled stream v s count) (hlt : ¬ s.totalBytesRead < v.len)
    (h : readLoop stream v s outcomes = some (ret, s')) : Filled stream v s' v.buf.length := by
  rw [readLoop_of_not_lt hlt, Option.some.injEq, Prod.mk.injEq] at h
  have hle := hs.le
  rw [hs.lt_iff] at hlt
  have hcount : count = v.buf.length := by omega
  rw [← h.2, ← hcount]
  exact hs

theorem readLoop_exact {outcomes : List ReadvOutcome} {count : Nat} {ret : Int} {s' : ReadState}
    (hs : Filled stream v s count) (herr : ErrorsOnlyFirst v.buf.length count outcomes)
    (h : readLoop stream v s outcomes = some (ret, s')) (hret : ret = v.buf.length) :
    Filled stream v s' v.buf.length := by
  induction outcomes generalizing s count with
  | nil =>
      by_cases hlt : s.totalBytesRead < v.len
      · rw [readLoop, if_pos hlt] at h
        cases h
      · exact filled_of_done hs hlt h
  | cons outcome outcomes ih =>
      by_cases hlt : s.totalBytesRead < v.len
      · have hcount := hs.lt_iff.mp hlt
        rw [readLoop, if_pos hlt] at h
        cases outcome with
        | data more =>
            obtain ⟨s₁, hstep, hs₁⟩ := filled_data hs hcount more
            simp only [hstep] at h
            exact ih hs₁ (herr.tail _ rfl) h
        | error errno =>
            obtain ⟨-, hzero, -⟩ := herr [] errno outcomes rfl (by simp) hcount
            simp only [readStep_error, totalBytesRead_error_zero hs hzero] at h
            rw [readLoop_of_not_lt (not_ofInt_neg_one_lt _), Option.some.injEq, Prod.mk.injEq] at h
            have := toInt32_neg_one.symm.trans h.1
            omega
        | eof =>
            simp only [readStep_eof, Option.some.injEq, Prod.mk.injEq] at h
            omega
      · exact filled_of_done hs hlt h

theorem stillReading_data {outcomes after : List ReadvOutcome} {count : Nat} {s' : ReadState}
    (hs : Filled stream v s count) (herr : ErrorsOnlyFirst v.buf.length count (outcomes ++ after))
    (h : stillReading stream v s outcomes = some s') :
    (∀ o ∈ outcomes, o.isData) ∧ Filled stream v s' (deliveredFrom v.buf.length count outcomes) := by
  induction outcomes generalizing s count with
  | nil =>
      rw [stillReading] at h
      split_ifs at h
      cases h
      exact ⟨by simp, hs⟩
  | cons outcome outcomes ih =>
      rw [stillReading] at h
      split_ifs at h with hlt
      have hcount := hs.lt_iff.mp hlt
      cases outcome with
      | data more =>
          obtain ⟨s₁, hstep, hs₁⟩ := filled_data hs hcount more
          simp only [hstep] at h
          obtain ⟨hdata, hfilled⟩ := ih hs₁ (herr.tail _ rfl) h
          exact ⟨List.forall_mem_cons.mpr ⟨rfl, hdata⟩, hfilled⟩
      | error errno =>
          obtain ⟨-, hzero, -⟩ := herr [] errno (outcomes ++ after) rfl (by simp) hcount
          simp only [readStep_error, totalBytesRead_error_zero hs hzero] at h
          rw [stillReading_of_not_lt (not_ofInt_neg_one_lt _)] at h
          cases h
      | eof => simp [readStep_eof] at h

theorem stillReading_of_data {outcomes : List ReadvOutcome} {count : Nat}
    (hs : Filled stream v s count) (hdata : ∀ o ∈ outcomes, o.isData)
    (hlt : deliveredFrom v.buf.length count outcomes < v.buf.length) :
    ∃ s', stillReading stream v s outcomes = some s' ∧
      Filled stream v s' (deliveredFrom v.buf.length count outcomes) := by
  induction outcomes generalizing s count with
  | nil => exact ⟨s, by rw [stillReading, if_pos (hs.lt_iff.mpr hlt)], hs⟩
  | cons outcome outcomes ih =>
      obtain ⟨hfirst, hrest⟩ := List.forall_mem_cons.mp hdata
      cases outcome with
      | data more =>
          rw [deliveredFrom] at hlt ⊢
          have hle := le_deliveredFrom (min_le_right (count + (more + 1)) v.buf.length) outcomes
          have hcount : count < v.buf.length := by omega
          obtain ⟨s₁, hstep, hs₁⟩ := filled_data hs hcount more
          obtain ⟨s', hstill, hs'⟩ := ih hs₁ hrest hlt
          exact ⟨s', by rw [stillReading, if_pos (hs.lt_iff.mpr hcount), hstep]; exact hstill, hs'⟩
      | error _ => simp [ReadvOutcome.isData] at hfirst
      | eof => simp [ReadvOutcome.isData] at hfirst

/-! ### The contract of `readIovec` -/

theorem toNat_add_neg_one (total : UInt64) :
    (total + UInt64.ofInt (-1)).toNat = (total.toNat + (2 ^ 64 - 1)) % 2 ^ 64 := by
  have hneg : (UInt64.ofInt (-1)).toNat = 2 ^ 64 - 1 := by decide
  rw [UInt64.toNat_add, hneg]

/-- An error moves the position, so the loop is not where it was. -/
theorem stillReading_error_ne (errno : Errno) :
    stillReading stream v s [.error errno] ≠ some s := by
  intro hsame
  rw [stillReading] at hsame
  split_ifs at hsame
  simp only [readStep_error, stillReading] at hsame
  split_ifs at hsame
  have htotal := congrArg (Option.map fun s => s.totalBytesRead.toNat) hsame
  simp only [Option.map_some, Option.some.injEq, toNat_add_neg_one] at htotal
  have := s.totalBytesRead.toNat_lt
  omega

/-- After the first byte an error leaves the loop running. -/
theorem readLoop_error_of_pos (errno : Errno) (hpos : 0 < s.totalBytesRead.toNat)
    (hlt : s.totalBytesRead < v.len) : readLoop stream v s [.error errno] = none := by
  have hlt' := UInt64.lt_iff_toNat_lt.mp hlt
  have hrun : s.totalBytesRead + UInt64.ofInt (-1) < v.len := by
    rw [UInt64.lt_iff_toNat_lt, toNat_add_neg_one]
    have := v.len.toNat_lt
    omega
  rw [readLoop, if_pos hlt, readStep_error]
  simp only [readLoop, if_pos hrun]

theorem ReadsExactly.errorsOnlyFirst {outcomes : List ReadvOutcome}
    (h : ReadsExactly stream v outcomes) : ErrorsOnlyFirst v.buf.length 0 outcomes := by
  intro before errno after heq hdata hlt
  obtain ⟨s, hstill, hs⟩ := stillReading_of_data (@filled_start stream v) hdata hlt
  obtain ⟨hstill', hloop⟩ := stillReading_append hstill [.error errno]
  have hhard : errno.isTransient = false := by
    by_contra htrans
    have hsame := h.transient before errno after s heq (by simpa using htrans) hstill
    exact stillReading_error_ne errno (hstill' ▸ hsame)
  refine ⟨?_, rfl, hhard⟩
  by_contra hne
  have hpos : 0 < deliveredFrom v.buf.length 0 before := by
    cases before with
    | nil => exact absurd rfl hne
    | cons outcome before =>
        cases outcome with
        | data more =>
            rw [deliveredFrom] at hlt ⊢
            have := le_deliveredFrom (min_le_right (0 + (more + 1)) v.buf.length) before
            omega
        | error _ => simp [ReadvOutcome.isData] at hdata
        | eof => simp [ReadvOutcome.isData] at hdata
  obtain ⟨s', hret⟩ := h.failure before (.error errno) after s heq (Or.inr ⟨errno, rfl, hhard⟩) hstill
  have hnone := @readLoop_error_of_pos stream v s errno (hs.total ▸ hpos) (stillReading_lt hstill)
  rw [readIovec, hloop, hnone] at hret
  cases hret

theorem ErrorsOnlyFirst.readsExactly {outcomes : List ReadvOutcome}
    (herr : ErrorsOnlyFirst v.buf.length 0 outcomes) : ReadsExactly stream v outcomes := by
  constructor
  · intro ret s hread hret
    have hs := readLoop_exact filled_start herr hread hret
    exact ⟨by rw [← hs.bytes, ← hs.size, List.take_length], hs.position⟩
  · intro before errno after s heq htrans hstill
    obtain ⟨hdata, hs⟩ := stillReading_data filled_start (heq ▸ herr) hstill
    obtain ⟨-, -, hhard⟩ := herr before errno after heq hdata (hs.lt_iff.mp (stillReading_lt hstill))
    rw [hhard] at htrans
    cases htrans
  · intro before outcome after s heq hfail hstill
    obtain ⟨hdata, hs⟩ := stillReading_data filled_start (heq ▸ herr) hstill
    have hlt := stillReading_lt hstill
    rw [readIovec, (stillReading_append hstill [outcome]).2, readLoop, if_pos hlt]
    rcases hfail with rfl | ⟨errno, rfl, -⟩
    · exact ⟨s, by rw [readStep_eof]⟩
    · obtain ⟨hnil, -, -⟩ := herr before errno after heq hdata (hs.lt_iff.mp hlt)
      have hzero : deliveredFrom v.buf.length 0 before = 0 := by rw [hnil]; rfl
      simp only [readStep_error, totalBytesRead_error_zero hs hzero]
      rw [readLoop_of_not_lt (not_ofInt_neg_one_lt _), toInt32_neg_one]
      exact ⟨_, rfl⟩

/-- A call of `readIovec` does what its caller expects exactly when no `readv` fails before the
vector is full, except that the very first one may fail with an error that is not transient. -/
theorem readsExactly_iff (stream : Nat → UInt8) (v : ReadVec) (outcomes : List ReadvOutcome) :
    ReadsExactly stream v outcomes ↔ ErrorsOnlyFirst v.buf.length 0 outcomes :=
  ⟨ReadsExactly.errorsOnlyFirst, ErrorsOnlyFirst.readsExactly⟩

/-- A vector of two bytes, read as one byte, a call that would block, and two more bytes: the first
byte of the stream is lost. -/
theorem not_readsExactly_eagain :
    ¬ ReadsExactly (fun i => UInt8.ofNat i) ⟨[0, 0], by decide⟩
      [.data 0, .error .eagain, .data 1] := by
  intro h
  have hread : readIovec (fun i => UInt8.ofNat i) ⟨[0, 0], by decide⟩
      [.data 0, .error .eagain, .data 1] = some (2, ⟨[1, 2], 2, 3⟩) := by decide
  have := (h.exact 2 _ hread rfl).2
  simp at this

end

end CodeStudy.Samba
