import CodeStudy.Base.Bytes
import CodeStudy.Base.View

/-!
# Windows and Unix times

A Windows time counts units of 100 ns from the year 1601 in 64 bits without a sign. The conversions subtract
the distance to 1970 and divide, both without a sign. A `time_t` before 1970 is converted to the right Windows
time and does not come back; a `smb2_timeval` has no sign and no times before 1970. The way there from a `time_t`
is signed throughout, and undefined where a result does not fit.
-/

namespace CodeStudy.Samba

structure Smb2Timeval where
  tvSec : UInt32
  tvUsec : UInt32
  deriving DecidableEq, Repr

def Smb2Timeval.timevalToWinEpoch (tv : Smb2Timeval) : UInt64 :=
  tv.tvSec.toUInt64 * 10000000 + 116444736000000000 + (tv.tvUsec * 10).toUInt64

def winEpochToTimeval (smb2Time : UInt64) : Smb2Timeval where
  tvUsec := (smb2Time / 10 % 1000000).toUInt32
  tvSec := ((smb2Time - 116444736000000000) / 10000000).toUInt32

def smbTimeToUTime (smbTime : UInt64) : Int64 := .ofNat ((smbTime - 116444736000000000) / 10000000).toNat

/-- The result of an operation on signed 64-bit numbers. -/
def signedResult (n : Int) : Except Fault Int := if -2 ^ 63 ≤ n ∧ n < 2 ^ 63 then .ok n else .error .undefined

/-- A `time_t` is signed, and so are the product and the sum. -/
def uTimeToSmbTime (utime : Int64) : Except Fault UInt64 := do
  let product ← signedResult (utime.toInt * 10000000)
  let sum ← signedResult (product + 116444736000000000)
  return .ofInt sum

/-- A time comes back from its Windows time. -/
def TimeComesBack (utime : Int64) : Prop :=
  ∃ smbTime, uTimeToSmbTime utime = .ok smbTime ∧ smbTimeToUTime smbTime = utime

/-! ### There -/

theorem toNat_ofInt_uint64 (n : Int) : ((UInt64.ofInt n).toNat : Int) = n % 2 ^ 64 := by
  have hnonneg : 0 ≤ n % 2 ^ 64 := Int.emod_nonneg _ (by decide)
  have hlt : n % 2 ^ 64 < 2 ^ 64 := Int.emod_lt_of_pos _ (by decide)
  rw [UInt64.ofInt, toNat_ofNat_uint64 (by omega), Int.toNat_of_nonneg hnonneg]

/-- Only the product can be too small; where it is too large the sum is, and from a smaller time on. -/
theorem uTimeToSmbTime_eq (utime : Int64) :
    uTimeToSmbTime utime =
      if -2 ^ 63 ≤ utime.toInt * 10000000 ∧ utime.toInt * 10000000 + 116444736000000000 < 2 ^ 63 then
        .ok (UInt64.ofInt (utime.toInt * 10000000 + 116444736000000000))
      else .error .undefined := by
  by_cases hproduct : -2 ^ 63 ≤ utime.toInt * 10000000 ∧ utime.toInt * 10000000 < 2 ^ 63
  · rw [uTimeToSmbTime, signedResult, if_pos hproduct]
    change (signedResult (utime.toInt * 10000000 + 116444736000000000) >>= _) = _
    by_cases hsum : utime.toInt * 10000000 + 116444736000000000 < 2 ^ 63
    · rw [signedResult, if_pos ⟨by omega, hsum⟩, if_pos ⟨hproduct.1, hsum⟩]
      rfl
    · rw [signedResult, if_neg (fun h => hsum h.2), if_neg (fun h => hsum h.2)]
      rfl
  · rw [uTimeToSmbTime, signedResult, if_neg hproduct, if_neg (by omega)]
    rfl

/-! ### And back -/

/-- What is divided is the product as a number without a sign. -/
theorem toInt_smbTimeToUTime (n : Int) :
    (smbTimeToUTime (UInt64.ofInt (n + 116444736000000000))).toInt = n % 2 ^ 64 / 10000000 := by
  have hsum := toNat_ofInt_uint64 (n + 116444736000000000)
  have hdistance : (116444736000000000 : UInt64).toNat = 116444736000000000 := rfl
  have hten : (10000000 : UInt64).toNat = 10000000 := rfl
  have hback : ((UInt64.ofInt (n + 116444736000000000) - 116444736000000000).toNat : Int) = n % 2 ^ 64 := by
    rw [UInt64.toNat_sub, hdistance]
    omega
  have hlt := (UInt64.ofInt (n + 116444736000000000) - 116444736000000000).toNat_lt
  rw [smbTimeToUTime, UInt64.toNat_div, hten, Int64.toInt_ofNat_of_lt (by omega)]
  omega

/-- A time comes back if and only if it is not before 1970 and the signed sum is defined. -/
theorem timeComesBack_iff (utime : Int64) :
    TimeComesBack utime ↔ 0 ≤ utime.toInt ∧ utime.toInt * 10000000 + 116444736000000000 < 2 ^ 63 := by
  rw [TimeComesBack, uTimeToSmbTime_eq]
  constructor
  · rintro ⟨smbTime, hthere, hback⟩
    split_ifs at hthere with hdefined
    rw [Except.ok.injEq] at hthere
    have hresult := toInt_smbTimeToUTime (utime.toInt * 10000000)
    rw [hthere, hback] at hresult
    have hnonneg : 0 ≤ utime.toInt * 10000000 % 2 ^ 64 := Int.emod_nonneg _ (by decide)
    exact ⟨by omega, hdefined.2⟩
  · rintro ⟨hnonneg, hlt⟩
    refine ⟨_, if_pos ⟨by omega, hlt⟩, ?_⟩
    rw [← Int64.toInt_inj, toInt_smbTimeToUTime]
    omega

/-! ### A time without a sign -/

/-- No product and no sum wraps. -/
theorem toNat_timevalToWinEpoch {tv : Smb2Timeval} (h : tv.tvUsec.toNat < 1000000) :
    tv.timevalToWinEpoch.toNat = tv.tvSec.toNat * 10000000 + 116444736000000000 + tv.tvUsec.toNat * 10 := by
  have hsec := tv.tvSec.toNat_lt
  have husec : (tv.tvUsec * 10).toUInt64.toNat = tv.tvUsec.toNat * 10 := by
    have hten : (10 : UInt32).toNat = 10 := rfl
    rw [UInt32.toNat_toUInt64, UInt32.toNat_mul, hten]
    exact Nat.mod_eq_of_lt (by omega)
  have hproduct : (tv.tvSec.toUInt64 * 10000000).toNat = tv.tvSec.toNat * 10000000 := by
    have hten : (10000000 : UInt64).toNat = 10000000 := rfl
    rw [UInt64.toNat_mul, UInt32.toNat_toUInt64, hten]
    exact Nat.mod_eq_of_lt (by omega)
  have hdistance : (116444736000000000 : UInt64).toNat = 116444736000000000 := rfl
  rw [Smb2Timeval.timevalToWinEpoch, UInt64.toNat_add, UInt64.toNat_add, hproduct, husec, hdistance]
  omega

/-- The microseconds are what is left of the seconds, which have no sign in a `smb2_timeval`. -/
theorem winEpochToTimeval_timevalToWinEpoch {tv : Smb2Timeval} (h : tv.tvUsec.toNat < 1000000) :
    winEpochToTimeval tv.timevalToWinEpoch = tv := by
  obtain ⟨sec, usec⟩ := tv
  have hlt : usec.toNat < 1000000 := h
  have hsec := sec.toNat_lt
  have htime := toNat_timevalToWinEpoch h
  dsimp only at htime
  generalize Smb2Timeval.timevalToWinEpoch ⟨sec, usec⟩ = time at htime
  have hback : (time - 116444736000000000).toNat = time.toNat - 116444736000000000 := by
    refine UInt64.toNat_sub_of_le _ _ ?_
    rw [UInt64.le_iff_toNat_le, htime]
    exact (Nat.le_add_left _ _).trans (Nat.le_add_right _ _)
  have hseconds : ((time - 116444736000000000) / 10000000).toUInt32 = sec := by
    have hten : (10000000 : UInt64).toNat = 10000000 := rfl
    rw [← UInt32.toNat_inj, UInt64.toNat_toUInt32, UInt64.toNat_div, hback, htime, hten]
    omega
  have hmicros : (time / 10 % 1000000).toUInt32 = usec := by
    have hten : (10 : UInt64).toNat = 10 := rfl
    have hmillion : (1000000 : UInt64).toNat = 1000000 := rfl
    rw [← UInt32.toNat_inj, UInt64.toNat_toUInt32, UInt64.toNat_mod, UInt64.toNat_div, htime, hten, hmillion]
    omega
  rw [winEpochToTimeval, hseconds, hmicros]

/-- Every `smb2_timeval` comes back, and a `time_t` does if and only if it is not before 1970 and at most
910692730085 seconds after. -/
theorem timesComeBack_iff {tv : Smb2Timeval} (h : tv.tvUsec.toNat < 1000000) (utime : Int64) :
    winEpochToTimeval tv.timevalToWinEpoch = tv ∧ TimeComesBack utime ↔
      0 ≤ utime.toInt ∧ utime.toInt ≤ 910692730085 := by
  rw [and_iff_right (winEpochToTimeval_timevalToWinEpoch h), timeComesBack_iff]
  omega

/-- The last microsecond of the first day of 1970. -/
theorem timesComeBack_firstDay :
    (⟨86399, 999999⟩ : Smb2Timeval).tvUsec.toNat < 1000000 ∧
      winEpochToTimeval (Smb2Timeval.timevalToWinEpoch ⟨86399, 999999⟩) = ⟨86399, 999999⟩ ∧ TimeComesBack 86399 :=
  ⟨by decide, (timesComeBack_iff (by decide) 86399).mpr (by decide)⟩

/-- The second before 1970 comes back as one more than 58000 years later, and has the right Windows time. -/
theorem not_timeComesBack_lastSecond :
    uTimeToSmbTime (-1) = .ok 116444735990000000 ∧ smbTimeToUTime 116444735990000000 = 1844674407369 ∧
      ¬ TimeComesBack (-1) := by
  have hthere : uTimeToSmbTime (-1) = .ok 116444735990000000 := rfl
  have hback : smbTimeToUTime 116444735990000000 = 1844674407369 := rfl
  refine ⟨hthere, hback, ?_⟩
  rintro ⟨smbTime, hconverted, hresult⟩
  rw [hthere, Except.ok.injEq] at hconverted
  rw [← hconverted, hback] at hresult
  exact absurd hresult (by decide)

end CodeStudy.Samba
