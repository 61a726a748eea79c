import CodeStudy.Base.Store
import CodeStudy.Samba.Utf8

/-!
# Names there and back

A name of the protocol is converted in two passes, one for the size of the memory and one that fills it, and
the conversion back has two passes of its own. Sizes and lengths are counted in an `int`, and twice the number
of characters is computed in one too.
-/

namespace CodeStudy.Samba

/-! ### The two passes -/

def ucs2CpSize (cp : UInt16) : Nat :=
  if cp > 0x07ff then 3 else if cp > 0x007f then 2 else 1

/-- The first pass. -/
def utf8Len : List UInt16 → Nat → Except Fault Nat
  | [], len => .ok len
  | cp :: ucs2, len =>
      if len + ucs2CpSize cp < 2 ^ 31 then utf8Len ucs2 (len + ucs2CpSize cp) else .error .undefined

/-- What is written for a unit, and where. -/
def unitWrites (tmp : Nat) (c : UInt16) : List (Nat × UInt8) :=
  match ucs2CpSize c with
  | 3 =>
      [(tmp, (c >>> 12).toUInt8 ||| 0xe0), (tmp + 1, ((c >>> 6) &&& 0xbf).toUInt8 ||| 0x80),
        (tmp + 2, (c &&& 0xbf).toUInt8 ||| 0x80)]
  | 2 => [(tmp, (c >>> 6).toUInt8 ||| 0xc0), (tmp + 1, (c &&& 0xbf).toUInt8 ||| 0x80)]
  | 1 => [(tmp, c.toUInt8)]
  | _ => []

/-- The second pass. -/
def utf8Writes : Nat → List UInt16 → List (Nat × UInt8)
  | _, [] => []
  | tmp, c :: ucs2 => unitWrites tmp c ++ utf8Writes (tmp + ucs2CpSize c) ucs2

/-- The size and the memory, which is allocated with any contents and has the terminator written first. -/
def ucs2ToUtf8Memory (malloc : (n : Nat) → Block n) (ucs2 : List UInt16) : Except Fault (Nat × Bytes) := do
  let utf8Len ← utf8Len ucs2 1
  let str ← store (malloc utf8Len).1 (utf8Len - 1) [0]
  let str ← (utf8Writes 0 ucs2).foldlM (fun str w => store str w.1 [w.2]) str
  .ok (utf8Len, str)

/-- Each byte in front of the terminator is written once and none behind it, and the string that stands in
the memory then is converted back to the units. -/
structure UnitsComeBack (ucs2 : List UInt16) (malloc : (n : Nat) → Block n) (size : Nat) (str : Bytes) : Prop where
  converted : ucs2ToUtf8Memory malloc ucs2 = .ok (size, str)
  size_eq : str.length = size
  filled : (utf8Writes 0 ucs2).map Prod.fst = List.range (size - 1)
  terminated : str = cString str ++ [0]
  length : validateUtf8Str (cString str) 0 = .ok (some ucs2.length)
  units : utf8ToUcs2 true (cString str) = .ok (some ucs2)

/-- Units from U+0080 on have one byte more, and those from U+0800 on another one. -/
def utf8Size (ucs2 : List UInt16) : Nat :=
  ucs2.length + ucs2.countP (fun c => 0x7f < c) + ucs2.countP (fun c => 0x7ff < c)

/-! ### The size -/

theorem length_unitUtf8 (c : UInt16) : (unitUtf8 c).length = ucs2CpSize c := by
  rw [unitUtf8, ucs2CpSize]
  split_ifs <;> rfl

theorem sum_ucs2CpSize (ucs2 : List UInt16) : (ucs2.map ucs2CpSize).sum = utf8Size ucs2 := by
  induction ucs2 with
  | nil => rfl
  | cons c ucs2 ih =>
      have hle : 0x7ff < c → 0x7f < c := UInt16.lt_trans (show (0x7f : UInt16) < 0x7ff by decide)
      rw [List.map_cons, List.sum_cons, ih, utf8Size, utf8Size, List.length_cons, List.countP_cons, List.countP_cons]
      simp only [ucs2CpSize, gt_iff_lt, decide_eq_true_eq]
      by_cases hthree : 0x7ff < c
      · rw [if_pos hthree, if_pos (hle hthree), if_pos hthree]
        omega
      · rw [if_neg hthree, if_neg hthree]
        split_ifs <;> omega

theorem length_ucs2ToUtf8 (ucs2 : List UInt16) : (ucs2ToUtf8 ucs2).length = utf8Size ucs2 := by
  rw [← sum_ucs2CpSize, ucs2ToUtf8, List.length_flatMap]
  exact congrArg List.sum (List.map_congr_left fun c _ => length_unitUtf8 c)

theorem utf8Len_eq (ucs2 : List UInt16) {len : Nat} (hlen : len < 2 ^ 31) :
    utf8Len ucs2 len = if len + utf8Size ucs2 < 2 ^ 31 then .ok (len + utf8Size ucs2) else .error .undefined := by
  rw [← sum_ucs2CpSize]
  induction ucs2 generalizing len with
  | nil => exact (if_pos hlen).symm
  | cons c ucs2 ih =>
      rw [utf8Len, List.map_cons, List.sum_cons, ← Nat.add_assoc]
      by_cases hnext : len + ucs2CpSize c < 2 ^ 31
      · rw [if_pos hnext, ih hnext]
      · rw [if_neg hnext, if_neg (by omega)]

/-! ### The writes -/

theorem unitWrites_eq (tmp : Nat) (c : UInt16) : unitWrites tmp c = ((unitUtf8 c).zipIdx tmp).map Prod.swap := by
  rw [unitWrites, unitUtf8, ucs2CpSize]
  by_cases hthree : c > 0x07ff
  · rw [if_pos hthree, if_pos hthree]
    rfl
  · rw [if_neg hthree, if_neg hthree]
    by_cases htwo : c > 0x007f
    · rw [if_pos htwo, if_pos htwo]
      rfl
    · rw [if_neg htwo, if_neg htwo]
      rfl

/-- The bytes are written in their order, one behind the other. -/
theorem utf8Writes_eq (tmp : Nat) (ucs2 : List UInt16) :
    utf8Writes tmp ucs2 = ((ucs2ToUtf8 ucs2).zipIdx tmp).map Prod.swap := by
  induction ucs2 generalizing tmp with
  | nil => rfl
  | cons c ucs2 ih =>
      have hcons : ucs2ToUtf8 (c :: ucs2) = unitUtf8 c ++ ucs2ToUtf8 ucs2 := rfl
      rw [utf8Writes, ih, unitWrites_eq, hcons, List.zipIdx_append, List.map_append, length_unitUtf8]

/-- Bytes written one behind the other replace as many. -/
theorem foldlM_store_zipIdx {pre old post bytes : Bytes} (hold : old.length = bytes.length) :
    ((bytes.zipIdx pre.length).map Prod.swap).foldlM (fun str w => store str w.1 [w.2]) (pre ++ (old ++ post)) =
      .ok (pre ++ (bytes ++ post)) := by
  induction bytes generalizing pre old with
  | nil =>
      rw [List.length_eq_zero_iff.mp hold]
      rfl
  | cons b bytes ih =>
      obtain _ | ⟨o, old⟩ := old
      · cases hold
      have hfirst : store (pre ++ (o :: old ++ post)) pre.length [b] = .ok (pre ++ [b] ++ (old ++ post)) := by
        have hstored := @store_eq _ [b] _ pre [o] (old ++ post) rfl rfl rfl
        rw [← List.append_assoc pre [b]] at hstored
        exact hstored
      have hnext : (pre ++ [b]).length = pre.length + 1 := List.length_append
      have hrest := @ih (pre ++ [b]) old (Nat.succ.inj hold)
      rw [hnext] at hrest
      rw [List.zipIdx_cons, List.map_cons, List.foldlM_cons, Prod.swap_prod_mk, hfirst, ok_bind, hrest, List.append_assoc]
      rfl

/-- The memory ends up as the converted name with its terminator. -/
theorem ucs2ToUtf8Memory_eq (malloc : (n : Nat) → Block n) {ucs2 : List UInt16} (hsize : utf8Size ucs2 + 1 < 2 ^ 31) :
    ucs2ToUtf8Memory malloc ucs2 = .ok (utf8Size ucs2 + 1, ucs2ToUtf8 ucs2 ++ [0]) := by
  have hlen : utf8Len ucs2 1 = .ok (utf8Size ucs2 + 1) := by
    rw [utf8Len_eq ucs2 (by decide), Nat.add_comm 1, if_pos hsize]
  obtain ⟨old, last, hmemory, hold, hlast⟩ := exists_append_of_length (malloc (utf8Size ucs2 + 1)).2
  have hterminator : store (old ++ last) (utf8Size ucs2) [0] = .ok (old ++ [0]) := by
    have hstored := @store_eq _ [0] _ old last [] rfl hold hlast
    rw [List.append_nil, List.append_nil] at hstored
    exact hstored
  have hwrites := @foldlM_store_zipIdx [] old [0] (ucs2ToUtf8 ucs2) (by rw [hold, length_ucs2ToUtf8])
  rw [List.length_nil, ← utf8Writes_eq, List.nil_append, List.nil_append] at hwrites
  rw [ucs2ToUtf8Memory, hlen]
  simp only [ok_bind, hmemory, Nat.add_sub_cancel, hterminator, hwrites]

/-! ### There and back -/

/-- Every unit is a sequence, so that the string is one of sequences with the units as their numbers. -/
theorem exists_sequences_of_units (ucs2 : List UInt16) : ∃ qs : List Utf8Sequence,
    qs.flatMap Utf8Sequence.bytes = ucs2ToUtf8 ucs2 ∧ (qs.map fun q => UInt16.ofNat q.codePoint) = ucs2 := by
  induction ucs2 with
  | nil => exact ⟨[], rfl, rfl⟩
  | cons c ucs2 ih =>
      obtain ⟨qs, hbytes, hunits⟩ := ih
      refine ⟨⟨unitUtf8 c, c.toNat, (framedAs_unitUtf8 c).1⟩ :: qs, ?_, ?_⟩
      · rw [List.flatMap_cons, hbytes]
        rfl
      · rw [List.map_cons, hunits, UInt16.ofNat_toNat]

/-- The characters of the converted name are the units. -/
theorem validateUtf8Str_ucs2ToUtf8 {ucs2 : List UInt16} (hlen : ucs2.length < 2 ^ 31) :
    validateUtf8Str (ucs2ToUtf8 ucs2) 0 = .ok (some ucs2.length) := by
  obtain ⟨qs, hbytes, hunits⟩ := exists_sequences_of_units ucs2
  have hcount : qs.length = ucs2.length := by rw [← hunits, List.length_map]
  rw [← hbytes, validateUtf8Str_whole (by omega), hcount]

/-- Lists that come back are not too long. -/
theorem lt_of_unitsComeBack {ucs2 : List UInt16} {malloc : (n : Nat) → Block n} {size : Nat} {str : Bytes}
    (h : UnitsComeBack ucs2 malloc size str) : ucs2.length < 2 ^ 30 ∧ utf8Size ucs2 + 1 < 2 ^ 31 := by
  constructor
  · have hunits := h.units
    rw [utf8ToUcs2, h.length] at hunits
    simp only at hunits
    split_ifs at hunits with hfits
    omega
  · obtain ⟨len, hlen, -⟩ := bind_eq_ok.mp h.converted
    rw [utf8Len_eq ucs2 (by decide)] at hlen
    split_ifs at hlen with hfits
    omega

/-- A name of units that are not zero comes back, if and only if it has fewer than 2^30 units and its size with
the terminator fits an `int`. -/
theorem unitsComeBack_iff {ucs2 : List UInt16} (h : ∀ c ∈ ucs2, c ≠ 0) :
    (∀ malloc, ∃ size str, UnitsComeBack ucs2 malloc size str) ↔ ucs2.length < 2 ^ 30 ∧ utf8Size ucs2 + 1 < 2 ^ 31 := by
  constructor
  · intro hback
    obtain ⟨size, str, hstr⟩ := hback fun n => ⟨List.replicate n 0, List.length_replicate⟩
    exact lt_of_unitsComeBack hstr
  · rintro ⟨hcount, hsize⟩ malloc
    have hstring : cString (ucs2ToUtf8 ucs2 ++ [0]) = ucs2ToUtf8 ucs2 := by
      have hend : ucs2ToUtf8 (ucs2 ++ [0]) = ucs2ToUtf8 ucs2 ++ [0] := List.flatMap_append
      rw [← hend, cString_ucs2ToUtf8 h]
    obtain ⟨qs, hbytes, hunits⟩ := exists_sequences_of_units ucs2
    have hqs : qs.length = ucs2.length := by rw [← hunits, List.length_map]
    refine ⟨_, _, ucs2ToUtf8Memory_eq malloc hsize, ?_, ?_, ?_, ?_, ?_⟩
    · rw [List.length_append, length_ucs2ToUtf8, List.length_singleton]
    · rw [utf8Writes_eq, List.map_map]
      have hfst : Prod.fst ∘ Prod.swap = (Prod.snd : UInt8 × Nat → Nat) := rfl
      rw [hfst, List.zipIdx_map_snd, length_ucs2ToUtf8, Nat.add_sub_cancel, List.range_eq_range']
    · rw [hstring]
    · rw [hstring, validateUtf8Str_ucs2ToUtf8 (by omega)]
    · rw [hstring, ← hbytes, utf8ToUcs2_sequences (by omega), hunits]

/-- A letter, a letter with an umlaut, a sign and half of a surrogate pair. -/
theorem unitsComeBack_fourSizes : (∀ c ∈ [0x61, 0xe4, 0x20ac, 0xd800], c ≠ (0 : UInt16)) ∧
    ∀ malloc, ∃ size str, UnitsComeBack [0x61, 0xe4, 0x20ac, 0xd800] malloc size str := by
  have hnonzero : ∀ c ∈ [0x61, 0xe4, 0x20ac, 0xd800], c ≠ (0 : UInt16) := by simp
  exact ⟨hnonzero, (unitsComeBack_iff hnonzero).mpr (by decide)⟩

/-- A name of 2^30 letters fits the memory for it, and its number of characters cannot be doubled. -/
theorem not_unitsComeBack_manyLetters :
    ¬ ∀ malloc, ∃ size str, UnitsComeBack (List.replicate (2 ^ 30) 0x61) malloc size str := by
  intro h
  obtain ⟨size, str, hstr⟩ := h fun n => ⟨List.replicate n 0, List.length_replicate⟩
  have hlt := (lt_of_unitsComeBack hstr).1
  rw [List.length_replicate] at hlt
  exact lt_irrefl _ hlt

end CodeStudy.Samba
