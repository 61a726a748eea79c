import CodeStudy.Samba.FileRequests

/-!
# UCS-2 names

The protocol sends names as strings of 16-bit units, the application has them in UTF-8. Both
conversions go unit by unit: a code point that needs four bytes is refused, and the two halves of a
surrogate pair are units like any other.
-/

namespace CodeStudy.Samba

/-! ### From UTF-8 -/

/-- The number of leading ones of a character. -/
def l1 (c : UInt8) : Nat :=
  if c < 0x80 then 0
  else if c < 0xc0 then 1
  else if c < 0xe0 then 2
  else if c < 0xf0 then 3
  else if c < 0xf8 then 4
  else if c < 0xfc then 5
  else if c < 0xfe then 6
  else if c < 0xff then 7
  else 8

/-- A code point after one more of its bytes. -/
def continueCp (cp : UInt16) (c : UInt8) : UInt16 := (cp <<< 6) ||| (c.toUInt16 &&& 0x3f)

/-- The units of a UTF-8 string, `none` where a code point is not valid or takes four bytes. -/
def utf8Units : Bytes → Option (List UInt16)
  | [] => some []
  | c :: utf8 =>
      match l1 c with
      | 0 => (utf8Units utf8).map fun units => (c.toUInt16 &&& 0x7f) :: units
      | 2 =>
          match utf8 with
          | c₁ :: utf8 =>
              if l1 c₁ ≠ 1 then none
              else (utf8Units utf8).map fun units => continueCp (c.toUInt16 &&& 0x1f) c₁ :: units
          | [] => none
      | 3 =>
          match utf8 with
          | c₁ :: c₂ :: utf8 =>
              if l1 c₁ ≠ 1 ∨ l1 c₂ ≠ 1 then none
              else
                (utf8Units utf8).map fun units =>
                  continueCp (continueCp (c.toUInt16 &&& 0x1f) c₁) c₂ :: units
          | _ => none
      | _ => none

example : utf8Units [0x41, 0xc3, 0xa4, 0xe2, 0x82, 0xac] = some [0x41, 0xe4, 0x20ac] := by decide

/-! ### To UTF-8 -/

/-- The bytes of one unit. -/
def unitUtf8 (c : UInt16) : Bytes :=
  if c > 0x07ff then
    [(c >>> 12).toUInt8 ||| 0xe0, ((c >>> 6) &&& 0xbf).toUInt8 ||| 0x80, (c &&& 0xbf).toUInt8 ||| 0x80]
  else if c > 0x007f then [(c >>> 6).toUInt8 ||| 0xc0, (c &&& 0xbf).toUInt8 ||| 0x80]
  else [c.toUInt8]

def ucs2ToUtf8 (units : List UInt16) : Bytes := units.flatMap unitUtf8

/-- The units that little-endian bytes spell. -/
def ucs2Units : Bytes → List UInt16
  | low :: high :: bytes => UInt16.ofNat (leNat [low, high]) :: ucs2Units bytes
  | _ => []

theorem ucs2Units_ucs2Bytes (units : List UInt16) : ucs2Units (ucs2Bytes units) = units := by
  induction units with
  | nil => rfl
  | cons unit units ih =>
      have hunit : UInt16.ofNat (leNat (leBytes 2 unit.toNat)) = unit := by
        rw [leNat_leBytes_of_lt unit.toNat_lt, UInt16.ofNat_toNat]
      have hcons : ucs2Units (ucs2Bytes (unit :: units)) =
          UInt16.ofNat (leNat (leBytes 2 unit.toNat)) :: ucs2Units (ucs2Bytes units) := rfl
      rw [hcons, hunit, ih]

theorem length_ucs2Bytes (units : List UInt16) : (ucs2Bytes units).length = units.length * 2 := by
  induction units with
  | nil => rfl
  | cons unit units ih =>
      have hcons : ucs2Bytes (unit :: units) = leBytes 2 unit.toNat ++ ucs2Bytes units := rfl
      rw [hcons, List.length_append, length_leBytes, ih, List.length_cons]
      omega

/-- A unit that is not the terminator has no byte that is one. -/
theorem zero_notMem_unitUtf8 {c : UInt16} (hc : c ≠ 0) : 0 ∉ unitUtf8 c := by
  have hmarked (b mark : UInt8) (hmark : 0 < mark.toNat) : (0 : UInt8) ≠ b ||| mark := by
    intro hzero
    have hle : mark.toNat ≤ (b ||| mark).toNat := by
      rw [UInt8.toNat_or]
      exact Nat.right_le_or
    rw [← hzero] at hle
    exact absurd hmark (Nat.not_lt.mpr hle)
  rw [unitUtf8]
  by_cases hthree : c > 0x07ff
  · rw [if_pos hthree]
    simp only [List.mem_cons, List.not_mem_nil, or_false, not_or]
    exact ⟨hmarked _ 0xe0 (by decide), hmarked _ 0x80 (by decide), hmarked _ 0x80 (by decide)⟩
  · rw [if_neg hthree]
    by_cases htwo : c > 0x007f
    · rw [if_pos htwo]
      simp only [List.mem_cons, List.not_mem_nil, or_false, not_or]
      exact ⟨hmarked _ 0xc0 (by decide), hmarked _ 0x80 (by decide)⟩
    · rw [if_neg htwo, List.mem_singleton]
      intro hzero
      have hsmall : c.toNat ≤ 0x7f := by
        have hle := UInt16.not_lt.mp htwo
        exact UInt16.le_iff_toNat_le.mp hle
      have hnat : c.toNat % 256 = 0 := by
        rw [← UInt16.toNat_toUInt8, ← hzero]
        rfl
      apply hc
      rw [← UInt16.toNat_inj]
      show c.toNat = 0
      omega

/-- The terminator ends the converted string, and nothing else does. -/
theorem cString_ucs2ToUtf8 {units : List UInt16} (h : ∀ unit ∈ units, unit ≠ 0) :
    cString (ucs2ToUtf8 (units ++ [0])) = ucs2ToUtf8 units := by
  have hnonzero : ∀ b ∈ ucs2ToUtf8 units, b ≠ 0 := by
    intro b hb hzero
    obtain ⟨unit, hunit, hmem⟩ := List.mem_flatMap.mp hb
    rw [hzero] at hmem
    exact zero_notMem_unitUtf8 (h unit hunit) hmem
  have hend : ucs2ToUtf8 (units ++ [0]) = ucs2ToUtf8 units ++ [0] := List.flatMap_append
  rw [hend, cString, List.takeWhile_append_of_pos (by simpa using hnonzero)]
  exact List.append_nil _

/-! ### Characters -/

theorem toUInt8_and_bf {c : UInt16} {n : Nat} (h : c.toUInt8 = UInt8.ofNat n) :
    (c &&& 0xbf).toUInt8 ||| 0x80 = UInt8.ofNat (n % 0x40 + 0x80) := by
  have hbyte : ∀ n < 256, (UInt8.ofNat n &&& 0xbf) ||| 0x80 = UInt8.ofNat (n % 0x40 + 0x80) := by decide +kernel
  have hmod : UInt8.ofNat n = UInt8.ofNat (n % 256) := by
    rw [← UInt8.toNat_inj, UInt8.toNat_ofNat', UInt8.toNat_ofNat', Nat.mod_mod]
  have hdigit : n % 256 % 0x40 = n % 0x40 := Nat.mod_mod_of_dvd n (by decide)
  have hmask : (0xbf : UInt16).toUInt8 = 0xbf := rfl
  rw [UInt16.toUInt8_and, h, hmask, hmod, hbyte _ (Nat.mod_lt _ (by decide)), hdigit]

/-- The bytes of a unit in numbers. -/
theorem unitUtf8_eq (c : UInt16) : unitUtf8 c =
    if c.toNat ≤ 0x7f then [UInt8.ofNat c.toNat]
    else if c.toNat ≤ 0x7ff then [UInt8.ofNat (c.toNat / 64 % 0x20 + 0xc0), UInt8.ofNat (c.toNat % 0x40 + 0x80)]
    else [UInt8.ofNat (c.toNat / 4096 % 0x10 + 0xe0), UInt8.ofNat (c.toNat / 64 % 0x40 + 0x80),
      UInt8.ofNat (c.toNat % 0x40 + 0x80)] := by
  have hlt := c.toNat_lt
  have hshift (k : Nat) (hk : k < 16) : (c >>> UInt16.ofNat k).toUInt8 = UInt8.ofNat (c.toNat / 2 ^ k) := by
    have hk' : (UInt16.ofNat k).toNat = k := UInt16.toNat_ofNat_of_lt' (hk.trans (by decide))
    rw [← UInt8.toNat_inj, UInt16.toNat_toUInt8, UInt16.toNat_shiftRight, hk', Nat.mod_eq_of_lt hk,
      Nat.shiftRight_eq_div_pow, UInt8.toNat_ofNat']
  have hlow : c.toUInt8 = UInt8.ofNat c.toNat := by
    rw [← UInt8.toNat_inj, UInt16.toNat_toUInt8, UInt8.toNat_ofNat']
  have hthree : ∀ n < 16, UInt8.ofNat n ||| 0xe0 = UInt8.ofNat (n % 0x10 + 0xe0) := by decide
  have htwo : ∀ n < 32, UInt8.ofNat n ||| 0xc0 = UInt8.ofNat (n % 0x20 + 0xc0) := by decide
  have hgt (n : Nat) (hn : n < 2 ^ 16) : c > UInt16.ofNat n ↔ ¬ c.toNat ≤ n := by
    rw [gt_iff_lt, UInt16.lt_iff_toNat_lt, UInt16.toNat_ofNat_of_lt' hn, not_le]
  have hlong : c > 0x07ff ↔ ¬ c.toNat ≤ 0x7ff := hgt 0x7ff (by decide)
  have hshort : c > 0x007f ↔ ¬ c.toNat ≤ 0x7f := hgt 0x7f (by decide)
  have hsix : (c >>> 6).toUInt8 = UInt8.ofNat (c.toNat / 64) := hshift 6 (by decide)
  have htwelve : (c >>> 12).toUInt8 = UInt8.ofNat (c.toNat / 4096) := hshift 12 (by decide)
  simp only [unitUtf8, hlong, hshort]
  by_cases hle : c.toNat ≤ 0x7ff
  · by_cases hle' : c.toNat ≤ 0x7f
    · rw [if_neg (not_not.mpr hle), if_neg (not_not.mpr hle'), if_pos hle', hlow]
    · rw [if_neg (not_not.mpr hle), if_pos hle', if_neg hle', if_pos hle, toUInt8_and_bf hlow, hsix,
        htwo _ (by omega)]
  · rw [if_pos hle, if_neg (by omega), if_neg hle, toUInt8_and_bf hlow, toUInt8_and_bf hsix, htwelve,
      hthree _ (by omega)]

/-- A unit that is a character of its own becomes the character in UTF-8. -/
theorem unitUtf8_ofNat {c : Char} (h : c.toNat < 2 ^ 16) :
    unitUtf8 (UInt16.ofNat c.toNat) = String.utf8EncodeChar c := by
  have hnat : (UInt16.ofNat c.toNat).toNat = c.toNat := UInt16.toNat_ofNat_of_lt' h
  have hval : c.val.toNat = c.toNat := rfl
  rw [unitUtf8_eq, hnat]
  simp only [String.utf8EncodeChar, hval]
  split_ifs with hone htwo hthree
  · rfl
  · rfl
  · rfl
  · omega

end CodeStudy.Samba
