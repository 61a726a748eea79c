import CodeStudy.Base.View
import CodeStudy.Samba.Ucs2

/-!
# The conversions between UTF-8 and UCS-2

A name of the application is validated before it is converted: every lead byte is followed by as many
continuation bytes as its leading ones say. That lets overlong forms and surrogates pass, which the
conversion back does not produce. Characters and bytes are counted in an `int`.
-/

namespace CodeStudy.Samba

/-! ### The functions -/

/-- The next code point of a string, and what is behind it. No code point goes on after the
terminator, and no caller is at it. -/
def validateUtf8Cp : Bytes → Option (UInt16 × Bytes)
  | [] => none
  | c :: utf8 =>
      match l1 c with
      | 0 => some (c.toUInt16 &&& 0x7f, utf8)
      | 2 =>
          match utf8 with
          | c₁ :: utf8 => if l1 c₁ ≠ 1 then none else some (continueCp (c.toUInt16 &&& 0x1f) c₁, utf8)
          | [] => none
      | 3 =>
          match utf8 with
          | c₁ :: c₂ :: utf8 =>
              if l1 c₁ ≠ 1 ∨ l1 c₂ ≠ 1 then none
              else some (continueCp (continueCp (c.toUInt16 &&& 0x1f) c₁) c₂, utf8)
          | _ => none
      | _ => none

theorem length_of_validateUtf8Cp {utf8 rest : Bytes} {cp : UInt16} (h : validateUtf8Cp utf8 = some (cp, rest)) :
    rest.length < utf8.length := by
  rw [validateUtf8Cp.eq_def] at h
  repeat' split at h
  all_goals
    cases h
  all_goals simp only [List.length_cons]
  all_goals omega

/-- The number of characters, `none` where one is not valid. -/
def validateUtf8Str (utf8 : Bytes) (i : Nat) : Except Fault (Option Nat) :=
  if utf8 = [] then .ok (some i)
  else
    match h : validateUtf8Cp utf8 with
    | none => .ok none
    | some (_, rest) =>
        have := length_of_validateUtf8Cp h
        if i + 1 < 2 ^ 31 then validateUtf8Str rest (i + 1) else .error .undefined
termination_by utf8.length

/-- The units of so many characters. -/
def utf8Chars : Nat → Bytes → List UInt16
  | 0, _ => []
  | len + 1, utf8 =>
      match validateUtf8Cp utf8 with
      | none => []
      | some (cp, rest) => cp :: utf8Chars len rest

/-- The size that is allocated is computed in an `int`. -/
def utf8ToUcs2 (alloc : Bool) (utf8 : Bytes) : Except Fault (Option (List UInt16)) :=
  match validateUtf8Str utf8 0 with
  | .error fault => .error fault
  | .ok none => .ok none
  | .ok (some len) =>
      if 2 * len < 2 ^ 31 then .ok (if alloc then some (utf8Chars len utf8) else none) else .error .undefined

/-- The bytes are counted with the terminator. -/
def ucs2ToUtf8Str (alloc : Bool) (units : List UInt16) : Except Fault (Option Bytes) :=
  let str := ucs2ToUtf8 units
  if str.length + 1 < 2 ^ 31 then .ok (if alloc then some str else none) else .error .undefined

/-! ### Sequences -/

/-- Bytes that have the marks of a character, with the number in their other bits. -/
inductive FramedAs : Bytes → Nat → Prop where
  | one {a : UInt8} (ha : a.toNat < 0x80) : FramedAs [a] a.toNat
  | two {a b : UInt8} (ha : 0xc0 ≤ a.toNat ∧ a.toNat < 0xe0) (hb : 0x80 ≤ b.toNat ∧ b.toNat < 0xc0) :
      FramedAs [a, b] ((a.toNat - 0xc0) * 64 + (b.toNat - 0x80))
  | three {a b c : UInt8} (ha : 0xe0 ≤ a.toNat ∧ a.toNat < 0xf0) (hb : 0x80 ≤ b.toNat ∧ b.toNat < 0xc0)
      (hc : 0x80 ≤ c.toNat ∧ c.toNat < 0xc0) :
      FramedAs [a, b, c] ((a.toNat - 0xe0) * 4096 + (b.toNat - 0x80) * 64 + (c.toNat - 0x80))

structure Utf8Sequence where
  bytes : Bytes
  codePoint : Nat
  framed : FramedAs bytes codePoint

namespace Utf8Sequence

/-- No shorter sequence has the same number. -/
def Shortest (q : Utf8Sequence) : Prop :=
  q.bytes.length = if q.codePoint < 0x80 then 1 else if q.codePoint < 0x800 then 2 else 3

def Surrogate (q : Utf8Sequence) : Prop := 0xd800 ≤ q.codePoint ∧ q.codePoint < 0xe000

end Utf8Sequence

/-- A string of characters of one unit each, in UTF-8. -/
def WellFormedBmp (utf8 : Bytes) : Prop :=
  ∃ chars : List Char, (∀ c ∈ chars, c.toNat < 2 ^ 16) ∧ utf8 = chars.flatMap String.utf8EncodeChar

/-- A string is accepted exactly if it is well formed, and what is accepted comes back. -/
structure ConvertsBack (utf8 : Bytes) : Prop where
  accepts : (∃ len, validateUtf8Str utf8 0 = .ok (some len)) ↔ WellFormedBmp utf8
  decided : validateUtf8Str utf8 0 ≠ .error .undefined
  back : ∀ len, validateUtf8Str utf8 0 = .ok (some len) →
    ∃ units, utf8ToUcs2 true utf8 = .ok (some units) ∧ ucs2ToUtf8Str true units = .ok (some utf8)

/-- The sequences of a string can be counted, and if they are the whole string, each of them is the one
form of a character. -/
structure ShortestForms (utf8 : Bytes) : Prop where
  countable : ∀ (qs : List Utf8Sequence) rest, utf8 = qs.flatMap Utf8Sequence.bytes ++ rest → qs.length < 2 ^ 31
  whole : ∀ qs : List Utf8Sequence, utf8 = qs.flatMap Utf8Sequence.bytes →
    (∀ q ∈ qs, q.Shortest ∧ ¬ q.Surrogate) ∧ qs.length < 2 ^ 30 ∧ utf8.length + 1 < 2 ^ 31

/-! ### Reading sequences -/

theorem l1_ranges (c : UInt8) : (l1 c = 0 ↔ c.toNat < 0x80) ∧ (l1 c = 1 ↔ 0x80 ≤ c.toNat ∧ c.toNat < 0xc0) ∧
    (l1 c = 2 ↔ 0xc0 ≤ c.toNat ∧ c.toNat < 0xe0) ∧ (l1 c = 3 ↔ 0xe0 ≤ c.toNat ∧ c.toNat < 0xf0) := by
  have hbytes : ∀ n < 256, (l1 (UInt8.ofNat n) = 0 ↔ n < 0x80) ∧ (l1 (UInt8.ofNat n) = 1 ↔ 0x80 ≤ n ∧ n < 0xc0) ∧
      (l1 (UInt8.ofNat n) = 2 ↔ 0xc0 ≤ n ∧ n < 0xe0) ∧ (l1 (UInt8.ofNat n) = 3 ↔ 0xe0 ≤ n ∧ n < 0xf0) := by
    decide +kernel
  have hc := hbytes c.toNat c.toNat_lt
  rw [UInt8.ofNat_toNat] at hc
  exact hc

theorem toNat_and_low {c : UInt8} (mask : UInt16) (bits : Nat) (hmask : mask.toNat = 2 ^ bits - 1) :
    (c.toUInt16 &&& mask).toNat = c.toNat % 2 ^ bits := by
  rw [UInt16.toNat_and, hmask, Nat.and_two_pow_sub_one_eq_mod, UInt8.toNat_toUInt16]

theorem toNat_continueCp {cp : UInt16} {c : UInt8} (hcp : cp.toNat < 1024) (hc : 0x80 ≤ c.toNat ∧ c.toNat < 0xc0) :
    (continueCp cp c).toNat = cp.toNat * 64 + (c.toNat - 0x80) := by
  have hlow : (c.toUInt16 &&& 0x3f).toNat = c.toNat % 2 ^ 6 := toNat_and_low 0x3f 6 rfl
  have hshift : (cp <<< 6).toNat = cp.toNat <<< 6 := by
    rw [UInt16.toNat_shiftLeft]
    have hsix : (6 : UInt16).toNat % 16 = 6 := rfl
    rw [hsix, Nat.shiftLeft_eq]
    exact Nat.mod_eq_of_lt (by omega)
  rw [continueCp, UInt16.toNat_or, hshift, hlow, ← Nat.shiftLeft_add_eq_or_of_lt (Nat.mod_lt _ (by decide)),
    Nat.shiftLeft_eq]
  omega

theorem FramedAs.lt {bytes : Bytes} {n : Nat} (h : FramedAs bytes n) : n < 2 ^ 16 := by
  cases h with
  | one ha => omega
  | two ha hb => omega
  | three ha hb hc => omega

theorem FramedAs.validateUtf8Cp_append {bytes : Bytes} {n : Nat} (h : FramedAs bytes n) (rest : Bytes) :
    validateUtf8Cp (bytes ++ rest) = some (UInt16.ofNat n, rest) := by
  have hcp := h.lt
  cases h with
  | @one a ha =>
      have hl : l1 a = 0 := (l1_ranges a).1.mpr ha
      have hvalue : a.toUInt16 &&& 0x7f = UInt16.ofNat a.toNat := by
        rw [← UInt16.toNat_inj, toNat_and_low 0x7f 7 rfl, toNat_ofNat_uint16 hcp]
        omega
      show validateUtf8Cp (a :: rest) = _
      simp only [validateUtf8Cp.eq_def, hl, hvalue]
  | @two a b ha hb =>
      have hl : l1 a = 2 := (l1_ranges a).2.2.1.mpr ha
      have hb1 : ¬ l1 b ≠ 1 := not_not.mpr ((l1_ranges b).2.1.mpr hb)
      have hlead : (a.toUInt16 &&& 0x1f).toNat = a.toNat % 2 ^ 5 := toNat_and_low 0x1f 5 rfl
      have hvalue : continueCp (a.toUInt16 &&& 0x1f) b =
          UInt16.ofNat ((a.toNat - 0xc0) * 64 + (b.toNat - 0x80)) := by
        rw [← UInt16.toNat_inj, toNat_continueCp (by omega) hb, toNat_ofNat_uint16 hcp, hlead]
        omega
      show validateUtf8Cp (a :: b :: rest) = _
      simp only [validateUtf8Cp.eq_def, hl, hb1, if_false, hvalue]
  | @three a b c ha hb hc =>
      have hl : l1 a = 3 := (l1_ranges a).2.2.2.mpr ha
      have hbc : ¬ (l1 b ≠ 1 ∨ l1 c ≠ 1) := by
        rw [(l1_ranges b).2.1.mpr hb, (l1_ranges c).2.1.mpr hc]
        decide
      have hlead : (a.toUInt16 &&& 0x1f).toNat = a.toNat % 2 ^ 5 := toNat_and_low 0x1f 5 rfl
      have hfirst : (continueCp (a.toUInt16 &&& 0x1f) b).toNat = (a.toNat - 0xe0) * 64 + (b.toNat - 0x80) := by
        rw [toNat_continueCp (by omega) hb, hlead]
        omega
      have hvalue : continueCp (continueCp (a.toUInt16 &&& 0x1f) b) c =
          UInt16.ofNat ((a.toNat - 0xe0) * 4096 + (b.toNat - 0x80) * 64 + (c.toNat - 0x80)) := by
        rw [← UInt16.toNat_inj, toNat_continueCp (by omega) hc, toNat_ofNat_uint16 hcp, hfirst]
        omega
      show validateUtf8Cp (a :: b :: c :: rest) = _
      simp only [validateUtf8Cp.eq_def, hl, hbc, if_false, hvalue]

/-- What is validated as a code point is a sequence. -/
theorem exists_sequence {utf8 rest : Bytes} {cp : UInt16} (h : validateUtf8Cp utf8 = some (cp, rest)) :
    ∃ q : Utf8Sequence, utf8 = q.bytes ++ rest := by
  cases utf8 with
  | nil => cases h
  | cons a utf8 =>
      simp only [validateUtf8Cp.eq_def] at h
      split at h
      · rename_i hl
        cases h
        exact ⟨⟨_, _, .one ((l1_ranges a).1.mp hl)⟩, rfl⟩
      · rename_i hl
        split at h
        · rename_i b utf8
          split_ifs at h with hb
          cases h
          exact ⟨⟨_, _, .two ((l1_ranges a).2.2.1.mp hl) ((l1_ranges b).2.1.mp (not_not.mp hb))⟩, rfl⟩
        · cases h
      · rename_i hl
        split at h
        · rename_i b c utf8
          split_ifs at h with hbc
          cases h
          obtain ⟨hb, hc⟩ := not_or.mp hbc
          exact ⟨⟨_, _, .three ((l1_ranges a).2.2.2.mp hl) ((l1_ranges b).2.1.mp (not_not.mp hb))
            ((l1_ranges c).2.1.mp (not_not.mp hc))⟩, rfl⟩
        · cases h
      · cases h

/-- Sequences from the beginning of a string up to its end, or to where it is not valid. -/
theorem exists_sequences (utf8 : Bytes) : ∃ (qs : List Utf8Sequence) (rest : Bytes),
    utf8 = qs.flatMap Utf8Sequence.bytes ++ rest ∧ validateUtf8Cp rest = none := by
  induction hn : utf8.length using Nat.strong_induction_on generalizing utf8 with
  | _ n ih =>
      cases hcp : validateUtf8Cp utf8 with
      | none => exact ⟨[], utf8, rfl, hcp⟩
      | some next =>
          obtain ⟨cp, tail⟩ := next
          have hshorter := length_of_validateUtf8Cp hcp
          obtain ⟨q, hq⟩ := exists_sequence hcp
          obtain ⟨qs, rest, hqs, hrest⟩ := ih tail.length (by omega) tail rfl
          refine ⟨q :: qs, rest, ?_, hrest⟩
          rw [hq, hqs, List.flatMap_cons, List.append_assoc]

/-- A string has one beginning of sequences only. -/
theorem sequences_unique {qs qs' : List Utf8Sequence}
    (h : qs.flatMap Utf8Sequence.bytes = qs'.flatMap Utf8Sequence.bytes) :
    qs.map Utf8Sequence.bytes = qs'.map Utf8Sequence.bytes := by
  induction qs generalizing qs' with
  | nil =>
      cases qs' with
      | nil => rfl
      | cons q' qs' =>
          have hcp := q'.framed.validateUtf8Cp_append (qs'.flatMap Utf8Sequence.bytes)
          rw [← List.flatMap_cons, ← h] at hcp
          cases hcp
  | cons q qs ih =>
      have hcp := q.framed.validateUtf8Cp_append (qs.flatMap Utf8Sequence.bytes)
      rw [← List.flatMap_cons, h] at hcp
      cases qs' with
      | nil => cases hcp
      | cons q' qs' =>
          rw [List.flatMap_cons, q'.framed.validateUtf8Cp_append, Option.some.injEq, Prod.mk.injEq] at hcp
          rw [List.flatMap_cons, List.flatMap_cons, hcp.2] at h
          rw [List.map_cons, List.map_cons, List.append_cancel_right h, ih hcp.2.symm]

/-! ### Counting -/

theorem validateUtf8Str_append (qs : List Utf8Sequence) (rest : Bytes) {i : Nat} (hi : i < 2 ^ 31) :
    validateUtf8Str (qs.flatMap Utf8Sequence.bytes ++ rest) i =
      if i + qs.length < 2 ^ 31 then validateUtf8Str rest (i + qs.length) else .error .undefined := by
  induction qs generalizing i with
  | nil => exact (if_pos hi).symm
  | cons q qs ih =>
      have hcp := q.framed.validateUtf8Cp_append (qs.flatMap Utf8Sequence.bytes ++ rest)
      have hne : q.bytes ++ (qs.flatMap Utf8Sequence.bytes ++ rest) ≠ [] := by
        intro hnil
        rw [hnil] at hcp
        cases hcp
      rw [List.flatMap_cons, List.append_assoc, validateUtf8Str, if_neg hne, List.length_cons]
      split
      · rename_i hnone
        rw [hcp] at hnone
        cases hnone
      · rename_i cp tail hsome
        rw [hcp, Option.some.injEq, Prod.mk.injEq] at hsome
        obtain ⟨-, rfl⟩ := hsome
        show (if i + 1 < 2 ^ 31 then validateUtf8Str (qs.flatMap Utf8Sequence.bytes ++ rest) (i + 1) else _) = _
        by_cases hnext : i + 1 < 2 ^ 31
        · rw [if_pos hnext, ih hnext, Nat.add_assoc, Nat.add_comm 1]
        · rw [if_neg hnext, if_neg (by omega)]

theorem validateUtf8Str_stop {rest : Bytes} (hrest : validateUtf8Cp rest = none) (i : Nat) :
    validateUtf8Str rest i = .ok (if rest = [] then some i else none) := by
  rw [validateUtf8Str]
  by_cases hnil : rest = []
  · rw [if_pos hnil, if_pos hnil]
  · rw [if_neg hnil, if_neg hnil]
    split
    · rfl
    · rename_i hsome
      rw [hrest] at hsome
      cases hsome

theorem utf8Chars_append (qs : List Utf8Sequence) (rest : Bytes) :
    utf8Chars qs.length (qs.flatMap Utf8Sequence.bytes ++ rest) = qs.map fun q => UInt16.ofNat q.codePoint := by
  induction qs with
  | nil => rfl
  | cons q qs ih =>
      rw [List.flatMap_cons, List.append_assoc, List.length_cons, utf8Chars, q.framed.validateUtf8Cp_append]
      simp only [ih, List.map_cons]

/-! ### Characters -/

theorem toNat_uint8_ofNat {n : Nat} (h : n < 256) : (UInt8.ofNat n).toNat = n := UInt8.toNat_ofNat_of_lt' h

/-- A sequence in its one form is a character. -/
theorem exists_char {q : Utf8Sequence} (hshort : q.Shortest) (hscalar : ¬ q.Surrogate) :
    ∃ c : Char, c.toNat = q.codePoint ∧ String.utf8EncodeChar c = q.bytes := by
  obtain ⟨bytes, n, hframed⟩ := q
  have hlt := hframed.lt
  simp only [Utf8Sequence.Surrogate] at hscalar
  simp only [Utf8Sequence.Shortest] at hshort
  have hn : (UInt32.ofNat n).toNat = n := toNat_ofNat_uint32 (by omega)
  have hvalid : (UInt32.ofNat n).isValidChar := by
    show (UInt32.ofNat n).toNat.isValidChar
    rw [hn, Nat.isValidChar]
    omega
  refine ⟨⟨UInt32.ofNat n, hvalid⟩, hn, ?_⟩
  have hbyte (a : UInt8) {m : Nat} (hm : m = a.toNat) : UInt8.ofNat m = a := by rw [hm, UInt8.ofNat_toNat]
  simp only [String.utf8EncodeChar, hn]
  cases hframed with
  | @one a ha => rw [if_pos (by omega), UInt8.ofNat_toNat]
  | @two a b ha hb =>
      have hlarge : ¬ (a.toNat - 0xc0) * 64 + (b.toNat - 0x80) < 0x80 := by
        intro hsmall
        rw [if_pos hsmall] at hshort
        cases hshort
      rw [if_neg (by omega), if_pos (by omega), hbyte a (by omega), hbyte b (by omega)]
  | @three a b c ha hb hc =>
      have hlarge : ¬ (a.toNat - 0xe0) * 4096 + (b.toNat - 0x80) * 64 + (c.toNat - 0x80) < 0x800 := by
        intro hsmall
        split_ifs at hshort
        all_goals cases hshort
      rw [if_neg (by omega), if_neg (by omega), if_pos (by omega), hbyte a (by omega), hbyte b (by omega),
        hbyte c (by omega)]

/-- The bytes of a unit are a sequence, half of a surrogate pair too. -/
theorem framedAs_unitUtf8 (c : UInt16) : FramedAs (unitUtf8 c) c.toNat ∧
    (unitUtf8 c).length = if c.toNat < 0x80 then 1 else if c.toNat < 0x800 then 2 else 3 := by
  have hlt := c.toNat_lt
  rw [unitUtf8_eq]
  by_cases hone : c.toNat ≤ 0x7f
  · rw [if_pos hone, if_pos (by omega)]
    have hbyte : (UInt8.ofNat c.toNat).toNat = c.toNat := toNat_uint8_ofNat (by omega)
    refine ⟨?_, rfl⟩
    have hone := @FramedAs.one (UInt8.ofNat c.toNat) (by omega)
    rw [hbyte] at hone
    exact hone
  · have hmany : ¬ c.toNat < 0x80 := by omega
    rw [if_neg hone, if_neg hmany]
    have hlast : (UInt8.ofNat (c.toNat % 0x40 + 0x80)).toNat = c.toNat % 0x40 + 0x80 := toNat_uint8_ofNat (by omega)
    by_cases htwo : c.toNat ≤ 0x7ff
    · rw [if_pos htwo, if_pos (Nat.lt_succ_of_le htwo)]
      have hfirst : (UInt8.ofNat (c.toNat / 64 % 0x20 + 0xc0)).toNat = c.toNat / 64 + 0xc0 := by
        rw [toNat_uint8_ofNat (by omega)]
        omega
      refine ⟨?_, rfl⟩
      have htwo := @FramedAs.two _ _ (show _ ∧ _ by rw [hfirst]; omega) (show _ ∧ _ by rw [hlast]; omega)
      have hnumber : (c.toNat / 64 + 0xc0 - 0xc0) * 64 + (c.toNat % 0x40 + 0x80 - 0x80) = c.toNat := by omega
      rw [hfirst, hlast, hnumber] at htwo
      exact htwo
    · have hmore : ¬ c.toNat < 0x800 := by omega
      rw [if_neg htwo, if_neg hmore]
      have hfirst : (UInt8.ofNat (c.toNat / 4096 % 0x10 + 0xe0)).toNat = c.toNat / 4096 + 0xe0 := by
        rw [toNat_uint8_ofNat (by omega)]
        omega
      have hsecond : (UInt8.ofNat (c.toNat / 64 % 0x40 + 0x80)).toNat = c.toNat / 64 % 0x40 + 0x80 :=
        toNat_uint8_ofNat (by omega)
      refine ⟨?_, rfl⟩
      have hthree := @FramedAs.three _ _ _ (show _ ∧ _ by rw [hfirst]; omega) (show _ ∧ _ by rw [hsecond]; omega)
        (show _ ∧ _ by rw [hlast]; omega)
      have hnumber : (c.toNat / 4096 + 0xe0 - 0xe0) * 4096 + (c.toNat / 64 % 0x40 + 0x80 - 0x80) * 64 +
          (c.toNat % 0x40 + 0x80 - 0x80) = c.toNat := by omega
      rw [hfirst, hsecond, hlast, hnumber] at hthree
      exact hthree

/-- A character of one unit is a sequence in its one form. -/
theorem exists_sequence_of_char {c : Char} (h : c.toNat < 2 ^ 16) :
    ∃ q : Utf8Sequence, q.bytes = String.utf8EncodeChar c ∧ q.codePoint = c.toNat ∧ q.Shortest ∧ ¬ q.Surrogate := by
  have hvalid : c.toNat < 0xd800 ∨ 0xdfff < c.toNat ∧ c.toNat < 0x110000 := c.valid
  have hframed := framedAs_unitUtf8 (UInt16.ofNat c.toNat)
  rw [unitUtf8_ofNat h, toNat_ofNat_uint16 h] at hframed
  refine ⟨⟨_, _, hframed.1⟩, rfl, rfl, hframed.2, ?_⟩
  simp only [Utf8Sequence.Surrogate]
  omega

/-- Characters and sequences in their one form are the same. -/
theorem wellFormedBmp_iff {qs : List Utf8Sequence} :
    WellFormedBmp (qs.flatMap Utf8Sequence.bytes) ↔ ∀ q ∈ qs, q.Shortest ∧ ¬ q.Surrogate := by
  constructor
  · rintro ⟨chars, hchars, heq⟩
    have hmap : ∃ qs' : List Utf8Sequence, qs'.map Utf8Sequence.bytes = chars.map String.utf8EncodeChar ∧
        ∀ q ∈ qs', q.Shortest ∧ ¬ q.Surrogate := by
      clear heq
      induction chars with
      | nil => exact ⟨[], rfl, List.forall_mem_nil _⟩
      | cons c chars ih =>
          obtain ⟨hc, hchars⟩ := List.forall_mem_cons.mp hchars
          obtain ⟨q, hq, -, hproper⟩ := exists_sequence_of_char hc
          obtain ⟨qs', hqs', hall⟩ := ih hchars
          exact ⟨q :: qs', by rw [List.map_cons, List.map_cons, hq, hqs'], List.forall_mem_cons.mpr ⟨hproper, hall⟩⟩
    obtain ⟨qs', hbytes, hall⟩ := hmap
    have hsame : qs.map Utf8Sequence.bytes = qs'.map Utf8Sequence.bytes := by
      apply sequences_unique
      rw [heq, List.flatMap_def, List.flatMap_def, hbytes]
    intro q hq
    have hmem : q.bytes ∈ qs'.map Utf8Sequence.bytes := by
      rw [← hsame]
      exact List.mem_map_of_mem hq
    obtain ⟨q', hq', hbytes'⟩ := List.mem_map.mp hmem
    have hnumber : UInt16.ofNat q'.codePoint = UInt16.ofNat q.codePoint := by
      have hcp := q.framed.validateUtf8Cp_append []
      rw [← hbytes', q'.framed.validateUtf8Cp_append, Option.some.injEq, Prod.mk.injEq] at hcp
      exact hcp.1
    have hcodePoint : q'.codePoint = q.codePoint := by
      rw [← UInt16.toNat_inj, toNat_ofNat_uint16 q'.framed.lt, toNat_ofNat_uint16 q.framed.lt] at hnumber
      exact hnumber
    have hproper := hall q' hq'
    rw [Utf8Sequence.Shortest, Utf8Sequence.Surrogate, hbytes', hcodePoint] at hproper
    exact hproper
  · intro hall
    induction qs with
    | nil => exact ⟨[], List.forall_mem_nil _, rfl⟩
    | cons q qs ih =>
        obtain ⟨⟨hshort, hscalar⟩, hall⟩ := List.forall_mem_cons.mp hall
        obtain ⟨c, hc, hbytes⟩ := exists_char hshort hscalar
        obtain ⟨chars, hchars, heq⟩ := ih hall
        refine ⟨c :: chars, List.forall_mem_cons.mpr ⟨?_, hchars⟩, ?_⟩
        · rw [hc]
          exact q.framed.lt
        · rw [List.flatMap_cons, List.flatMap_cons, heq, hbytes]

/-- Where every sequence is in its one form, its unit becomes it again. -/
theorem ucs2ToUtf8_sequences {qs : List Utf8Sequence} (h : ∀ q ∈ qs, q.Shortest ∧ ¬ q.Surrogate) :
    ucs2ToUtf8 (qs.map fun q => UInt16.ofNat q.codePoint) = qs.flatMap Utf8Sequence.bytes := by
  rw [ucs2ToUtf8, List.flatMap_map]
  refine List.flatMap_congr fun q hq => ?_
  obtain ⟨c, hc, hbytes⟩ := exists_char (h q hq).1 (h q hq).2
  rw [← hbytes, ← hc]
  exact unitUtf8_ofNat (by rw [hc]; exact q.framed.lt)

/-! ### The whole string -/

theorem validateUtf8Str_sequences {utf8 rest : Bytes} {qs : List Utf8Sequence}
    (h : utf8 = qs.flatMap Utf8Sequence.bytes ++ rest) (hrest : validateUtf8Cp rest = none) :
    validateUtf8Str utf8 0 = if qs.length < 2 ^ 31 then .ok (if rest = [] then some qs.length else none)
      else .error .undefined := by
  rw [h, validateUtf8Str_append qs rest (by decide), Nat.zero_add, validateUtf8Str_stop hrest]

/-- Strings that have a whole number of sequences are the ones with a well-formed candidate. -/
theorem exists_sequences_of_wellFormedBmp {utf8 : Bytes} (h : WellFormedBmp utf8) :
    ∃ qs : List Utf8Sequence, utf8 = qs.flatMap Utf8Sequence.bytes := by
  obtain ⟨chars, hchars, rfl⟩ := h
  induction chars with
  | nil => exact ⟨[], rfl⟩
  | cons c chars ih =>
      obtain ⟨hc, hchars⟩ := List.forall_mem_cons.mp hchars
      obtain ⟨q, hq, -⟩ := exists_sequence_of_char hc
      obtain ⟨qs, hqs⟩ := ih hchars
      exact ⟨q :: qs, by rw [List.flatMap_cons, List.flatMap_cons, hq, hqs]⟩

theorem utf8ToUcs2_sequences {qs : List Utf8Sequence} (hlen : qs.length < 2 ^ 30) :
    utf8ToUcs2 true (qs.flatMap Utf8Sequence.bytes) = .ok (some (qs.map fun q => UInt16.ofNat q.codePoint)) := by
  have hvalid := validateUtf8Str_sequences (List.append_nil (qs.flatMap Utf8Sequence.bytes)).symm rfl
  rw [if_pos (by omega), if_pos rfl] at hvalid
  have hunits := utf8Chars_append qs []
  rw [List.append_nil] at hunits
  rw [utf8ToUcs2, hvalid]
  show (if 2 * qs.length < 2 ^ 31 then _ else _) = _
  rw [if_pos (by omega), if_pos rfl, hunits]

/-- The bytes of a string of ASCII characters are its sequences. -/
theorem exists_sequences_of_ascii {utf8 : Bytes} (h : ∀ c ∈ utf8, c.toNat < 0x80) :
    ∃ qs : List Utf8Sequence, qs.flatMap Utf8Sequence.bytes = utf8 ∧ qs.length = utf8.length ∧
      qs.map (fun q => UInt16.ofNat q.codePoint) = utf8.map UInt8.toUInt16 := by
  induction utf8 with
  | nil => exact ⟨[], rfl, rfl, rfl⟩
  | cons c utf8 ih =>
      obtain ⟨hc, hrest⟩ := List.forall_mem_cons.mp h
      obtain ⟨qs, hbytes, hlength, hunits⟩ := ih hrest
      refine ⟨⟨[c], c.toNat, .one hc⟩ :: qs, ?_, ?_, ?_⟩
      · rw [List.flatMap_cons, hbytes]
        rfl
      · rw [List.length_cons, List.length_cons, hlength]
      · have hunit : UInt16.ofNat c.toNat = c.toUInt16 := by
          rw [← UInt16.toNat_inj, toNat_ofNat_uint16 (by omega), UInt8.toNat_toUInt16]
        rw [List.map_cons, List.map_cons, hunits, hunit]

theorem utf8ToUcs2_ascii {utf8 : Bytes} (h : ∀ c ∈ utf8, c.toNat < 0x80) (hlen : utf8.length < 2 ^ 30) :
    utf8ToUcs2 true utf8 = .ok (some (utf8.map UInt8.toUInt16)) := by
  obtain ⟨qs, hbytes, hlength, hunits⟩ := exists_sequences_of_ascii h
  rw [← hbytes, utf8ToUcs2_sequences (by omega), hunits, hbytes]

/-- The units of a string go on behind a code point. -/
theorem utf8Units_eq {utf8 : Bytes} (h : utf8 ≠ []) :
    utf8Units utf8 = (validateUtf8Cp utf8).bind fun (cp, rest) => (utf8Units rest).map (cp :: ·) := by
  cases utf8 with
  | nil => exact absurd rfl h
  | cons c utf8 =>
      rw [utf8Units.eq_def, validateUtf8Cp.eq_def]
      simp only
      generalize l1 c = marks
      rcases marks with _ | _ | _ | _ | marks
      · rfl
      · rfl
      · cases utf8 with
        | nil => rfl
        | cons c₁ utf8 =>
            simp only
            split_ifs <;> rfl
      · rcases utf8 with _ | ⟨c₁, _ | ⟨c₂, utf8⟩⟩
        · rfl
        · rfl
        · simp only
          split_ifs <;> rfl
      · rfl

theorem utf8Units_sequences (qs : List Utf8Sequence) {rest : Bytes} (hrest : validateUtf8Cp rest = none) :
    utf8Units (qs.flatMap Utf8Sequence.bytes ++ rest) =
      if rest = [] then some (qs.map fun q => UInt16.ofNat q.codePoint) else none := by
  induction qs with
  | nil =>
      by_cases hnil : rest = []
      · rw [if_pos hnil, hnil]
        rfl
      · show utf8Units rest = _
        rw [utf8Units_eq hnil, hrest, if_neg hnil]
        rfl
  | cons q qs ih =>
      have hcp := q.framed.validateUtf8Cp_append (qs.flatMap Utf8Sequence.bytes ++ rest)
      have hne : q.bytes ++ (qs.flatMap Utf8Sequence.bytes ++ rest) ≠ [] := by
        intro hnil
        rw [hnil] at hcp
        cases hcp
      rw [List.flatMap_cons, List.append_assoc, utf8Units_eq hne, hcp]
      show (utf8Units (qs.flatMap Utf8Sequence.bytes ++ rest)).map _ = _
      rw [ih]
      split_ifs <;> rfl

/-- What is converted has the units of the string. -/
theorem utf8Units_of_utf8ToUcs2 {alloc : Bool} {utf8 : Bytes} {units : List UInt16}
    (h : utf8ToUcs2 alloc utf8 = .ok (some units)) : utf8Units utf8 = some units := by
  obtain ⟨qs, rest, hutf8, hrest⟩ := exists_sequences utf8
  rw [utf8ToUcs2, validateUtf8Str_sequences hutf8 hrest] at h
  by_cases hlen : qs.length < 2 ^ 31
  · rw [if_pos hlen] at h
    by_cases hnil : rest = []
    · rw [if_pos hnil] at h
      simp only at h
      split_ifs at h with hsize halloc
      · have hchars := utf8Chars_append qs rest
        rw [← hutf8] at hchars
        rw [Except.ok.injEq, Option.some.injEq, hchars] at h
        rw [hutf8, utf8Units_sequences qs hrest, if_pos hnil, h]
      · cases h
    · rw [if_neg hnil] at h
      cases h
  · rw [if_neg hlen] at h
    cases h

theorem Utf8Sequence.length_bytes (q : Utf8Sequence) :
    1 ≤ q.bytes.length ∧ q.bytes.length ≤ 3 ∧ (q.bytes.length = 1 → ∀ c ∈ q.bytes, c.toNat < 0x80) := by
  obtain ⟨bytes, n, framed⟩ := q
  show 1 ≤ bytes.length ∧ bytes.length ≤ 3 ∧ (bytes.length = 1 → ∀ c ∈ bytes, c.toNat < 0x80)
  cases framed with
  | one ha => simpa using ha
  | two ha hb => simp
  | three ha hb hc => simp

/-- A string has a byte for each of its units only if it is ASCII. -/
theorem length_utf8Units {utf8 : Bytes} {units : List UInt16} (h : utf8Units utf8 = some units) :
    units.length ≤ utf8.length ∧ utf8.length ≤ 3 * units.length ∧
      (units.length = utf8.length → ∀ c ∈ utf8, c.toNat < 0x80) := by
  obtain ⟨qs, rest, rfl, hrest⟩ := exists_sequences utf8
  rw [utf8Units_sequences qs hrest] at h
  split_ifs at h with hnil
  rw [Option.some.injEq] at h
  rw [← h, hnil, List.append_nil, List.length_map]
  clear h hnil hrest
  induction qs with
  | nil => exact ⟨Nat.le_refl 0, Nat.le_refl 0, fun _ _ hc => absurd hc List.not_mem_nil⟩
  | cons q qs ih =>
      obtain ⟨hle, hge, hascii⟩ := ih
      obtain ⟨hone, hthree, hsingle⟩ := q.length_bytes
      rw [List.flatMap_cons, List.length_append, List.length_cons]
      refine ⟨by omega, by omega, fun heq => ?_⟩
      rw [List.forall_mem_append]
      exact ⟨hsingle (by omega), hascii (by omega)⟩

theorem utf8Units_ascii {utf8 : Bytes} (h : ∀ c ∈ utf8, c.toNat < 0x80) :
    utf8Units utf8 = some (utf8.map UInt8.toUInt16) := by
  obtain ⟨qs, hbytes, -, hunits⟩ := exists_sequences_of_ascii h
  have hwhole := @utf8Units_sequences qs [] rfl
  rw [List.append_nil, if_pos rfl, hbytes, hunits] at hwhole
  exact hwhole

theorem validateUtf8Str_whole {qs : List Utf8Sequence} (hlen : qs.length < 2 ^ 31) :
    validateUtf8Str (qs.flatMap Utf8Sequence.bytes) 0 = .ok (some qs.length) := by
  rw [validateUtf8Str_sequences (List.append_nil _).symm rfl, if_pos hlen, if_pos rfl]

/-- What converts back has the short forms only. -/
theorem ConvertsBack.shortestForms {utf8 : Bytes} (h : ConvertsBack utf8) : ShortestForms utf8 := by
  have hcountable (qs : List Utf8Sequence) (rest : Bytes) (heq : utf8 = qs.flatMap Utf8Sequence.bytes ++ rest) :
      qs.length < 2 ^ 31 := by
    by_contra hmany
    apply h.decided
    rw [heq, validateUtf8Str_append qs rest (by decide), Nat.zero_add, if_neg hmany]
  refine ⟨hcountable, fun qs heq => ?_⟩
  have hlen := hcountable qs [] (by rw [List.append_nil, heq])
  have hvalid : validateUtf8Str utf8 0 = .ok (some qs.length) := by
    rw [heq]
    exact validateUtf8Str_whole hlen
  obtain ⟨units, hunits, hback⟩ := h.back _ hvalid
  have hwell := h.accepts.mp ⟨_, hvalid⟩
  rw [heq] at hwell
  refine ⟨wellFormedBmp_iff.mp hwell, ?_, ?_⟩
  · by_contra hmany
    rw [utf8ToUcs2, hvalid] at hunits
    simp only at hunits
    rw [if_neg (by omega)] at hunits
    cases hunits
  · simp only [ucs2ToUtf8Str, if_true] at hback
    split_ifs at hback with hfits
    rw [Except.ok.injEq, Option.some.injEq] at hback
    rw [hback] at hfits
    exact hfits

/-- A string is accepted exactly if it is well-formed UTF-8 of characters of one unit, and comes back from
the conversion, if and only if no sequence in it is overlong or a surrogate and it is not too long to be
counted. -/
theorem convertsBack_iff (memory : Bytes) : ConvertsBack (cString memory) ↔ ShortestForms (cString memory) := by
  generalize cString memory = utf8
  refine ⟨ConvertsBack.shortestForms, fun h => ?_⟩
  obtain ⟨qs, rest, heq, hrest⟩ := exists_sequences utf8
  have hvalid := validateUtf8Str_sequences heq hrest
  rw [if_pos (h.countable qs rest heq)] at hvalid
  have hwhole {len : Nat} (hlen : validateUtf8Str utf8 0 = .ok (some len)) : utf8 = qs.flatMap Utf8Sequence.bytes := by
    rw [hvalid] at hlen
    split_ifs at hlen with hnil
    · rw [heq, hnil, List.append_nil]
    · cases hlen
  refine ⟨⟨?_, fun hwell => ?_⟩, ?_, fun len hlen => ?_⟩
  · rintro ⟨len, hlen⟩
    have hproper := (h.whole qs (hwhole hlen)).1
    rw [hwhole hlen]
    exact wellFormedBmp_iff.mpr hproper
  · obtain ⟨qs', heq'⟩ := exists_sequences_of_wellFormedBmp hwell
    refine ⟨qs'.length, ?_⟩
    have hcount := h.countable qs' [] (by rw [List.append_nil, heq'])
    rw [heq']
    exact validateUtf8Str_whole hcount
  · rw [hvalid]
    intro hundefined
    cases hundefined
  · obtain ⟨hproper, hcount, hsize⟩ := h.whole qs (hwhole hlen)
    refine ⟨_, by rw [hwhole hlen]; exact utf8ToUcs2_sequences hcount, ?_⟩
    rw [ucs2ToUtf8Str, ucs2ToUtf8_sequences hproper, ← hwhole hlen]
    simp only [if_pos hsize, if_true]

/-- The letter A in two bytes. -/
def overlongA : Utf8Sequence := ⟨[0xc1, 0x81], 0x41, .two (by decide) (by decide)⟩

/-- Half of a pair of units. -/
def highSurrogate : Utf8Sequence := ⟨[0xed, 0xa0, 0x80], 0xd800, .three (by decide) (by decide) (by decide)⟩

/-- An overlong letter is accepted and comes back as another name; a surrogate is accepted. -/
theorem not_convertsBack_overlong :
    ¬ ConvertsBack (cString [0xc1, 0x81, 0]) ∧ ¬ ConvertsBack (cString [0xed, 0xa0, 0x80, 0]) := by
  have hrefuted (q : Utf8Sequence) (hq : ¬ (q.Shortest ∧ ¬ q.Surrogate)) : ¬ ConvertsBack q.bytes := by
    intro h
    have hsingle : [q].flatMap Utf8Sequence.bytes = q.bytes := List.flatMap_singleton _ _
    have hone : [q].length < 2 ^ 31 := by
      rw [List.length_singleton]
      decide
    have hvalid := validateUtf8Str_whole hone
    rw [hsingle] at hvalid
    have hwell := h.accepts.mp ⟨_, hvalid⟩
    rw [← hsingle] at hwell
    exact hq (wellFormedBmp_iff.mp hwell q (List.mem_singleton_self q))
  refine ⟨hrefuted overlongA fun h => ?_, hrefuted highSurrogate fun h => h.2 ?_⟩
  · have hlength : overlongA.bytes.length = 1 := h.1
    cases hlength
  · exact ⟨by decide, by decide⟩

end CodeStudy.Samba
