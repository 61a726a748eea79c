import CodeStudy.Samba.DceRpcRequests
import Mathlib.Data.List.TakeWhile

/-!
# What a string value says

The fields of a string value count 16-bit units. They are computed from the number of bytes the string has
in UTF-8, which is the same for ASCII only, and the units are those up to the first NUL: a terminator gets
its two bytes, but nobody writes them.
-/

namespace CodeStudy.Samba

/-! ### What it is to say -/

/-- A string with its terminator, if it is to have one. -/
def terminated (string : Bytes) (terminateNull : Bool) : Bytes := if terminateNull then string ++ [0] else string

def terminatedUnits (units : List UInt16) (terminateNull : Bool) : List UInt16 :=
  if terminateNull then units ++ [0] else units

/-- The units that a reader of a string value takes. -/
def ndrUnits (block : Bytes) (buf : Nat) : List UInt16 :=
  ucs2Units (slice block (buf + 12) (2 * leNat (slice block (buf + 8) 4)))

/-- A string value describes a string with these units. -/
structure DescribesString (string : Bytes) (units : List UInt16) (terminateNull : Bool) (block : Bytes) (buf : Nat) :
    Prop where
  maxLength : leNat (slice block buf 4) = (terminatedUnits units terminateNull).length
  length : leNat (slice block (buf + 8) 4) = (terminatedUnits units terminateNull).length
  written : slice block (buf + 12) (2 * (terminatedUnits units terminateNull).length) =
    ucs2Bytes (terminatedUnits units terminateNull)
  readBack : ucs2ToUtf8 (ndrUnits block buf) = terminated string terminateNull

/-- The string is ASCII, and where its units from the first NUL on belong the buffer already has them. -/
structure AsciiInPlace (string : Bytes) (terminateNull : Bool) (block : Bytes) (buf : Nat) : Prop where
  ascii : ∀ c ∈ string, c.toNat < 0x80
  behind : slice block (buf + 12 + 2 * (cString string).length)
      (2 * ((terminated string terminateNull).length - (cString string).length)) =
    ucs2Bytes (((terminated string terminateNull).drop (cString string).length).map UInt8.toUInt16)

/-- The places where a string is described. -/
inductive StringWrite where
  | value (string : Bytes) (terminateNull : Bool) (buf bufLen : Nat)
  | lookUpNames (handle : PolicyHandle) (user domain : Bytes)

namespace StringWrite

def string : StringWrite → Bytes
  | value string _ _ _ => string
  | lookUpNames _ user domain => domain ++ [0x5c] ++ user

def run (buffer : SizedBuffer 32) : StringWrite → Except Fault (Bytes × Nat)
  | value string terminateNull buf bufLen =>
      dcerpcInitStringValue true string terminateNull buffer.bytes buf bufLen
  | lookUpNames handle user domain => (DceRpcRequest.lookUpNames handle user domain).create true buffer

/-- The request for a SID has the size of the name twice in front of its string value. -/
def Describes (units : List UInt16) (block : Bytes) : StringWrite → Prop
  | value string terminateNull buf _ => DescribesString string units terminateNull block buf
  | lookUpNames _ user domain =>
      leNat (slice block 28 2) = 2 * units.length ∧ leNat (slice block 30 2) = 2 * units.length ∧
        DescribesString (domain ++ [0x5c] ++ user) units false block 36

def Exact (buffer : SizedBuffer 32) : StringWrite → Prop
  | value string terminateNull buf _ => AsciiInPlace string terminateNull buffer.bytes buf
  | lookUpNames _ user domain => ∀ c ∈ domain ++ user, c ≠ 0 ∧ c.toNat < 0x80

end StringWrite

/-! ### ASCII -/

theorem length_cString_le (string : Bytes) : (cString string).length ≤ string.length :=
  (List.takeWhile_prefix _).length_le

theorem cString_ascii {string : Bytes} (h : ∀ c ∈ string, c.toNat < 0x80) : ∀ c ∈ cString string, c.toNat < 0x80 :=
  fun c hc => h c ((List.takeWhile_prefix _).subset hc)

theorem take_length_cString (string : Bytes) : string.take (cString string).length = cString string :=
  ((List.prefix_iff_eq_take.mp (List.takeWhile_prefix _)).symm : _)

/-- A string without NUL is a whole one. -/
theorem cString_eq_self_iff {string : Bytes} : (cString string).length = string.length ↔ ∀ c ∈ string, c ≠ 0 := by
  constructor
  · intro h c hc hzero
    have hself : cString string = string := (List.takeWhile_prefix _).eq_of_length h
    rw [← hself, cString] at hc
    have hnonzero := List.mem_takeWhile_imp hc
    exact absurd hzero (of_decide_eq_true hnonzero)
  · intro h
    rw [cString, List.takeWhile_eq_self_iff.mpr fun c hc => decide_eq_true (h c hc)]

theorem ucs2ToUtf8_ascii {string : Bytes} (h : ∀ c ∈ string, c.toNat < 0x80) :
    ucs2ToUtf8 (string.map UInt8.toUInt16) = string := by
  have hbyte : ∀ n < 128, unitUtf8 (UInt8.ofNat n).toUInt16 = [UInt8.ofNat n] := by decide
  induction string with
  | nil => rfl
  | cons c string ih =>
      obtain ⟨hc, hstring⟩ := List.forall_mem_cons.mp h
      have hunit := hbyte c.toNat hc
      rw [UInt8.ofNat_toNat] at hunit
      have hcons : ucs2ToUtf8 ((c :: string).map UInt8.toUInt16) =
          unitUtf8 c.toUInt16 ++ ucs2ToUtf8 (string.map UInt8.toUInt16) := rfl
      rw [hcons, hunit, ih hstring]
      rfl

theorem terminatedUnits_map (string : Bytes) (terminateNull : Bool) :
    terminatedUnits (string.map UInt8.toUInt16) terminateNull = (terminated string terminateNull).map UInt8.toUInt16 := by
  cases terminateNull with
  | false => rfl
  | true =>
      show string.map UInt8.toUInt16 ++ [0] = (string ++ [0]).map UInt8.toUInt16
      rw [List.map_append]
      rfl

/-! ### What is written -/

theorem slice_store_self {block block' bytes : Bytes} {position : Nat} (h : store block position bytes = .ok block') :
    slice block' position bytes.length = bytes := by
  have hle := le_of_store h
  rw [store_of_le hle, Except.ok.injEq] at h
  rw [← h, slice_memcpy_self hle]

theorem slice_store_of_disjoint {block block' bytes : Bytes} {position offset n : Nat}
    (h : store block position bytes = .ok block')
    (hdisjoint : offset + n ≤ position ∨ position + bytes.length ≤ offset) :
    slice block' offset n = slice block offset n := by
  have hle := le_of_store h
  rw [store_of_le hle, Except.ok.injEq] at h
  rw [← h, slice_memcpy_of_disjoint hle hdisjoint]

/-- What writing a string value makes of a buffer. -/
structure StringValueWritten (len : Nat) (written : List UInt16) (block out : Bytes) (buf : Nat) : Prop where
  size : out.length = block.length
  room : buf + 12 + 2 * written.length ≤ block.length
  maxLength : leNat (slice out buf 4) = len
  length : leNat (slice out (buf + 8) 4) = len
  units : ∀ m, slice out (buf + 12) (2 * written.length + m) =
    ucs2Bytes written ++ slice block (buf + 12 + 2 * written.length) m
  before : ∀ offset n, offset + n ≤ buf → slice out offset n = slice block offset n

theorem of_initStringValue {string block out : Bytes} {terminateNull : Bool} {buf bufLen used : Nat}
    (h : dcerpcInitStringValue true string terminateNull block buf bufLen = .ok (out, used)) :
    used = stringValueSize string terminateNull ∧ used ≤ bufLen ∧ ∃ written, utf8Units (cString string) = some written ∧
      StringValueWritten (stringValueLen string terminateNull) written block out buf := by
  rw [dcerpcInitStringValue] at h
  obtain ⟨name, hname, h⟩ := bind_eq_ok.mp h
  cases name with
  | none => cases h
  | some written =>
      simp only at h
      split_ifs at h with hsmall
      obtain ⟨block₁, hhead, h⟩ := bind_eq_ok.mp h
      obtain ⟨block₂, hunits, h⟩ := bind_eq_ok.mp h
      cases h
      generalize hlen : stringValueLen string terminateNull = len at hhead
      have hlt : len < 256 ^ 4 := by
        rw [← hlen, stringValueLen]
        exact Nat.mod_lt _ (by decide)
      have hfields : (leBytes 4 len ++ leBytes 4 0 ++ leBytes 4 len).length = 12 := by
        simp only [List.length_append, length_leBytes]
      have hbytes : (ucs2Bytes written).length = 2 * written.length := by rw [length_ucs2Bytes, Nat.mul_comm]
      have hhead₁ := slice_store_self hhead
      have hunits₁ := slice_store_self hunits
      have hle := le_of_store hunits
      rw [hfields] at hhead₁
      rw [hbytes] at hunits₁ hle
      refine ⟨rfl, not_lt.mp hsmall, written, utf8Units_of_utf8ToUcs2 hname, ?_⟩
      constructor
      case size => rw [length_store hunits, length_store hhead]
      case room =>
        rw [length_store hhead] at hle
        exact hle
      case maxLength =>
        rw [slice_store_of_disjoint hunits (Or.inl (by omega)), ← Nat.add_zero buf,
          ← slice_slice (show 0 + 4 ≤ 12 by decide), hhead₁]
        exact leNat_leBytes_of_lt hlt
      case length =>
        rw [slice_store_of_disjoint hunits (Or.inl (by omega)), ← slice_slice (show 8 + 4 ≤ 12 by decide), hhead₁]
        exact leNat_leBytes_of_lt hlt
      case units =>
        intro m
        rw [slice_add, hunits₁, slice_store_of_disjoint hunits (Or.inr (by omega)),
          slice_store_of_disjoint hhead (Or.inr (by omega))]
      case before =>
        intro offset n hn
        rw [slice_store_of_disjoint hunits (Or.inl (by omega)), slice_store_of_disjoint hhead (Or.inl hn)]

/-! ### When it says what it is to -/

theorem length_terminated (string : Bytes) (terminateNull : Bool) :
    (terminated string terminateNull).length = string.length + (if terminateNull then 1 else 0) := by
  cases terminateNull with
  | false => rfl
  | true => exact List.length_append

theorem length_terminatedUnits (units : List UInt16) (terminateNull : Bool) :
    (terminatedUnits units terminateNull).length = units.length + (if terminateNull then 1 else 0) := by
  cases terminateNull with
  | false => rfl
  | true => exact List.length_append

theorem stringValueLen_eq (string : Bytes) (terminateNull : Bool) :
    stringValueLen string terminateNull = (terminated string terminateNull).length % 2 ^ 32 := by
  cases terminateNull with
  | false => rfl
  | true => rw [length_terminated]; rfl

theorem terminated_ascii {string : Bytes} (h : ∀ c ∈ string, c.toNat < 0x80) (terminateNull : Bool) :
    ∀ c ∈ terminated string terminateNull, c.toNat < 0x80 := by
  cases terminateNull with
  | false => exact h
  | true => exact List.forall_mem_append.mpr ⟨h, List.forall_mem_singleton.mpr (by decide)⟩

theorem take_terminated (string : Bytes) (terminateNull : Bool) :
    (terminated string terminateNull).take (cString string).length = cString string := by
  cases terminateNull with
  | false => exact take_length_cString string
  | true =>
      show (string ++ [0]).take _ = _
      rw [List.take_append_of_le_length (length_cString_le string), take_length_cString]

/-- So many bytes stand in a buffer only if it has room for them. -/
theorem le_of_slice_eq {block bytes : Bytes} {offset n : Nat} (h : slice block offset n = bytes) (hn : bytes.length = n) :
    n ≤ block.length := by
  have hlength := congrArg List.length h
  rw [slice, List.length_take, List.length_drop] at hlength
  omega

section

variable {string block out : Bytes} {terminateNull : Bool} {buf : Nat}

/-- All units are there exactly if those that are not written are. -/
theorem StringValueWritten.behind_iff {len : Nat} {written : List UInt16} (hascii : ∀ c ∈ string, c.toNat < 0x80)
    (hwritten : utf8Units (cString string) = some written) (h : StringValueWritten len written block out buf) :
    slice out (buf + 12) (2 * (terminated string terminateNull).length) =
        ucs2Bytes ((terminated string terminateNull).map UInt8.toUInt16) ↔
      AsciiInPlace string terminateNull block buf := by
  rw [utf8Units_ascii (cString_ascii hascii), Option.some.injEq] at hwritten
  have hlength : written.length = (cString string).length := by rw [← hwritten, List.length_map]
  have hle := length_cString_le string
  have hterminated := length_terminated string terminateNull
  have hcopied := h.units (2 * ((terminated string terminateNull).length - (cString string).length))
  have hsum : 2 * (cString string).length + 2 * ((terminated string terminateNull).length - (cString string).length) =
      2 * (terminated string terminateNull).length := by omega
  rw [hlength, hsum, ← hwritten] at hcopied
  have hparts : ucs2Bytes ((terminated string terminateNull).map UInt8.toUInt16) =
      ucs2Bytes ((cString string).map UInt8.toUInt16) ++
        ucs2Bytes (((terminated string terminateNull).drop (cString string).length).map UInt8.toUInt16) := by
    rw [ucs2Bytes, ucs2Bytes, ucs2Bytes, ← List.flatMap_append, ← List.map_append]
    congr 2
    rw [← take_terminated string terminateNull, List.length_take, Nat.min_eq_left (by omega), List.take_append_drop]
  rw [hcopied, hparts, List.append_right_inj]
  exact ⟨fun hbehind => ⟨hascii, hbehind⟩, fun hplace => hplace.behind⟩

theorem describesString_iff {units written : List UInt16} (hblock : block.length < 2 ^ 32)
    (hunits : utf8Units string = some units) (hwritten : utf8Units (cString string) = some written)
    (h : StringValueWritten (stringValueLen string terminateNull) written block out buf) :
    DescribesString string units terminateNull out buf ↔ AsciiInPlace string terminateNull block buf := by
  have hcount := length_terminatedUnits units terminateNull
  have hsize := length_terminated string terminateNull
  have hlen := stringValueLen_eq string terminateNull
  have hbytes (l : List UInt16) : (ucs2Bytes l).length = 2 * l.length := by rw [length_ucs2Bytes, Nat.mul_comm]
  constructor
  · intro hdescribes
    obtain ⟨hle, hge, hascii⟩ := length_utf8Units hunits
    have hroom := le_of_slice_eq hdescribes.written (hbytes _)
    have hlength := hdescribes.length
    rw [h.length, hlen] at hlength
    rw [h.size] at hroom
    have hsame : units.length = string.length := by omega
    have hform := hdescribes.written
    rw [utf8Units_ascii (hascii hsame), Option.some.injEq] at hunits
    rw [← hunits, terminatedUnits_map, List.length_map] at hform
    exact (h.behind_iff (hascii hsame) hwritten).mp hform
  · intro hplace
    have hform := (h.behind_iff hplace.ascii hwritten).mpr hplace
    have hroom := le_of_slice_eq hform (by rw [hbytes, List.length_map])
    rw [h.size] at hroom
    rw [Nat.mod_eq_of_lt (by omega)] at hlen
    rw [utf8Units_ascii hplace.ascii, Option.some.injEq] at hunits
    have hsame : (terminatedUnits units terminateNull).length = (terminated string terminateNull).length := by
      rw [← hunits, terminatedUnits_map, List.length_map]
    constructor
    case maxLength => rw [h.maxLength, hlen, hsame]
    case length => rw [h.length, hlen, hsame]
    case written => rw [hsame, hform, ← hunits, terminatedUnits_map]
    case readBack =>
      rw [ndrUnits, h.length, hlen, hform, ucs2Units_ucs2Bytes]
      exact ucs2ToUtf8_ascii (terminated_ascii hplace.ascii terminateNull)

end

/-- Only the bytes of a string value count. -/
theorem DescribesString.of_slices {string block block' : Bytes} {units : List UInt16} {terminateNull : Bool} {buf : Nat}
    (h : DescribesString string units terminateNull block buf)
    (hslices : ∀ offset n, buf ≤ offset → offset + n ≤ buf + 12 + 2 * (terminatedUnits units terminateNull).length →
      slice block' offset n = slice block offset n) : DescribesString string units terminateNull block' buf := by
  have hlength := hslices (buf + 8) 4 (by omega) (by omega)
  have hunits := hslices (buf + 12) (2 * (terminatedUnits units terminateNull).length) (by omega) (by omega)
  constructor
  case maxLength => rw [hslices buf 4 (by omega) (by omega), h.maxLength]
  case length => rw [hlength, h.length]
  case written => rw [hunits, h.written]
  case readBack =>
    have hback := h.readBack
    rw [ndrUnits, h.length] at hback
    rw [ndrUnits, hlength, h.length, hunits, hback]

/-! ### The request for a SID -/

theorem ne_zero_of_mem_cString {string : Bytes} {c : UInt8} (h : c ∈ cString string) : c ≠ 0 := by
  have hnonzero := List.mem_takeWhile_imp h
  exact of_decide_eq_true hnonzero

/-- The text in the array ends where it was ended. -/
theorem cString_scratch {domain user name : Bytes}
    (h : store (List.replicate 1024 0) 0 (cString domain ++ [0x5c] ++ cString user ++ [0]) = .ok name) :
    cString name = cString domain ++ [0x5c] ++ cString user := by
  have hle := le_of_store h
  rw [store_of_le hle, Except.ok.injEq] at h
  rw [← h, memcpy, List.take_zero, List.nil_append, List.append_assoc, cString, List.takeWhile_append_of_pos]
  · exact List.append_nil _
  · intro c hc
    refine decide_eq_true ?_
    rcases List.mem_append.mp hc with hc | hc
    · rcases List.mem_append.mp hc with hc | hc
      · exact ne_zero_of_mem_cString hc
      · rw [List.mem_singleton.mp hc]
        decide
    · exact ne_zero_of_mem_cString hc

/-- What the request has in front of its string value and in it. -/
structure LookUpWritten (user domain : Bytes) (written : List UInt16) (before block out : Bytes) : Prop where
  scratch : (cString domain).length + (cString user).length + 2 ≤ 1024
  nameSize : leNat (slice out 28 2) = 2 * ((cString domain).length + 1 + (cString user).length)
  maximumSize : leNat (slice out 30 2) = 2 * ((cString domain).length + 1 + (cString user).length)
  value : StringValueWritten (stringValueLen (domain ++ [0x5c] ++ user) false) written before block 36
  behind : ∀ offset n, 36 ≤ offset → offset + n ≤ 36 + stringValueSize (domain ++ [0x5c] ++ user) false →
    stringValueSize (domain ++ [0x5c] ++ user) false + 64 ≤ 2 ^ 32 → slice out offset n = slice block offset n

/-- The fields behind the string value touch neither it nor the sizes in front of it. -/
theorem slice_lookUpTail {block block₈ block₉ block₁₀ out : Bytes} {p offset n : Nat} (hlength : block.length < 2 ^ 32)
    (h₈ : store block p (leBytes 4 0) = .ok block₈) (h₉ : store block₈ (add32 p 4) (leBytes 4 0) = .ok block₉)
    (h₁₀ : store block₉ (add32 (add32 p 4) 4) (leBytes 2 1) = .ok block₁₀)
    (h₁₁ : store block₁₀ (align4 (add32 (add32 (add32 p 4) 4) 2)) (leBytes 4 0) = .ok out)
    (hplace : (offset + n ≤ p ∧ p + 16 ≤ 2 ^ 32) ∨ (20 ≤ offset ∧ offset + n ≤ 36 ∧ (p = 0 ∨ 36 ≤ p))) :
    slice out offset n = slice block offset n := by
  have hfour (m : Nat) : (leBytes 4 m).length = 4 := length_leBytes 4 m
  have htwo (m : Nat) : (leBytes 2 m).length = 2 := length_leBytes 2 m
  have hle₈ := le_of_store h₈
  have hle₉ := le_of_store h₉
  have hle₁₀ := le_of_store h₁₀
  rw [hfour] at hle₈ hle₉
  rw [length_store h₈] at hle₉
  rw [htwo, length_store h₉, length_store h₈] at hle₁₀
  have hsids : add32 p 4 = p + 4 := add32_eq (by omega)
  rw [hsids] at h₉ h₁₀ h₁₁ hle₉ hle₁₀
  have hlevel : add32 (p + 4) 4 = p + 8 := add32_eq (by omega)
  rw [hlevel] at h₁₀ h₁₁ hle₁₀
  have hend : add32 (p + 8) 2 = p + 10 := add32_eq (by omega)
  rw [hend] at h₁₁
  have hcases := align4_cases (show p + 10 < 2 ^ 32 by omega)
  rw [slice_store_of_disjoint h₁₁ (by rw [hfour]; omega), slice_store_of_disjoint h₁₀ (by rw [htwo]; omega),
    slice_store_of_disjoint h₉ (by rw [hfour]; omega), slice_store_of_disjoint h₈ (by rw [hfour]; omega)]

theorem of_lookUpNames {handle : PolicyHandle} {user domain out : Bytes} {used : Nat} {buffer : SizedBuffer 32}
    (h : (DceRpcRequest.lookUpNames handle user domain).create true buffer = .ok (out, used)) :
    ∃ written before block, utf8Units (cString (domain ++ [0x5c] ++ user)) = some written ∧
      before.length = buffer.size ∧ LookUpWritten user domain written before block out := by
  change lsarpcCreateLookUpNamesReq true handle user domain buffer.bytes buffer.size = _ at h
  rw [lsarpcCreateLookUpNamesReq] at h
  obtain ⟨name, hname, h⟩ := bind_eq_ok.mp h
  obtain ⟨block₁, h₁, h⟩ := bind_eq_ok.mp h
  obtain ⟨block₂, h₂, h⟩ := bind_eq_ok.mp h
  obtain ⟨block₃, h₃, h⟩ := bind_eq_ok.mp h
  obtain ⟨block₄, h₄, h⟩ := bind_eq_ok.mp h
  obtain ⟨block₅, h₅, h⟩ := bind_eq_ok.mp h
  obtain ⟨before, h₆, h⟩ := bind_eq_ok.mp h
  obtain ⟨⟨block, size⟩, hvalue, h⟩ := bind_eq_ok.mp h
  obtain ⟨block₈, h₈, h⟩ := bind_eq_ok.mp h
  obtain ⟨block₉, h₉, h⟩ := bind_eq_ok.mp h
  obtain ⟨block₁₀, h₁₀, h⟩ := bind_eq_ok.mp h
  obtain ⟨block₁₁, h₁₁, h⟩ := bind_eq_ok.mp h
  cases h
  obtain ⟨rfl, hfits, written, hwritten, hvalue⟩ := of_initStringValue hvalue
  have hname' := cString_scratch hname
  have hscratch := le_of_store hname
  have hroom := le_of_store h₈
  have hbefore : before.length = buffer.bytes.length := by
    rw [length_store h₆, length_store h₅, length_store h₄, length_store h₃, length_store h₂, length_store h₁]
  have hlength : block.length < 2 ^ 32 := by
    rw [hvalue.size, hbefore]
    exact buffer.fits
  rw [List.length_replicate] at hscratch
  simp only [List.length_append, List.length_singleton] at hscratch
  have hsize : (cString name).length = (cString domain).length + 1 + (cString user).length := by
    rw [hname']
    simp only [List.length_append, List.length_singleton]
  rw [hsize, Nat.mod_eq_of_lt (by omega)] at h₄ h₅
  have hheader := le_of_store h₆
  have hfour := length_leBytes 4 0x0141afb8
  rw [hfour, ← length_store h₆, hbefore] at hheader
  have hspace := buffer.fits
  have hsub : sub32 buffer.size 36 = buffer.bytes.length - 36 := sub32_eq hheader buffer.fits
  have hend : add32 36 (stringValueSize (domain ++ [0x5c] ++ user) false) =
      36 + stringValueSize (domain ++ [0x5c] ++ user) false := add32_eq (by omega)
  rw [hend] at h₈ h₉ h₁₀ h₁₁
  have hcases := align4_cases (show 36 + stringValueSize (domain ++ [0x5c] ++ user) false < 2 ^ 32 by omega)
  have htwo (m : Nat) : (leBytes 2 m).length = 2 := length_leBytes 2 m
  have hlt : 2 * ((cString domain).length + 1 + (cString user).length) < 256 ^ 2 := by omega
  refine ⟨written, before, block, hwritten, hbefore, ?_⟩
  constructor
  case scratch => omega
  case nameSize =>
    rw [slice_lookUpTail hlength h₈ h₉ h₁₀ h₁₁ (Or.inr (by omega)), hvalue.before 28 2 (by decide),
      slice_store_of_disjoint h₆ (Or.inl (by decide)), slice_store_of_disjoint h₅ (Or.inl (by decide))]
    have hsame := slice_store_self h₄
    rw [htwo] at hsame
    rw [hsame, leNat_leBytes_of_lt hlt]
  case maximumSize =>
    rw [slice_lookUpTail hlength h₈ h₉ h₁₀ h₁₁ (Or.inr (by omega)), hvalue.before 30 2 (by decide),
      slice_store_of_disjoint h₆ (Or.inl (by decide))]
    have hsame := slice_store_self h₅
    rw [htwo] at hsame
    rw [hsame, leNat_leBytes_of_lt hlt]
  case value => exact hvalue
  case behind =>
    intro offset n hoffset hend hsmall
    exact slice_lookUpTail hlength h₈ h₉ h₁₀ h₁₁ (Or.inl (by omega))

theorem LookUpWritten.describes_iff {user domain before block out : Bytes} {units written : List UInt16}
    (hbefore : before.length < 2 ^ 32) (hunits : utf8Units (domain ++ [0x5c] ++ user) = some units)
    (hwritten : utf8Units (cString (domain ++ [0x5c] ++ user)) = some written)
    (h : LookUpWritten user domain written before block out) :
    (leNat (slice out 28 2) = 2 * units.length ∧ leNat (slice out 30 2) = 2 * units.length ∧
        DescribesString (domain ++ [0x5c] ++ user) units false out 36) ↔
      ∀ c ∈ domain ++ user, c ≠ 0 ∧ c.toNat < 0x80 := by
  have hscratch := h.scratch
  have hlength : (domain ++ [0x5c] ++ user).length = domain.length + 1 + user.length := by
    simp only [List.length_append, List.length_singleton]
  have hsize (hsmall : (domain ++ [0x5c] ++ user).length ≤ 4096) :
      stringValueSize (domain ++ [0x5c] ++ user) false = 12 + 2 * (domain ++ [0x5c] ++ user).length := by
    show (12 + 2 * ((domain ++ [0x5c] ++ user).length % 2 ^ 32)) % 2 ^ 32 = _
    rw [Nat.mod_eq_of_lt (by omega), Nat.mod_eq_of_lt (by omega)]
  have hslices (hsmall : (domain ++ [0x5c] ++ user).length ≤ 4096)
      (hle : units.length ≤ (domain ++ [0x5c] ++ user).length) (offset n : Nat) (hoffset : 36 ≤ offset)
      (hend : offset + n ≤ 36 + 12 + 2 * (terminatedUnits units false).length) :
      slice out offset n = slice block offset n := by
    have hunterminated : (terminatedUnits units false).length = units.length := rfl
    exact h.behind offset n hoffset (by rw [hsize hsmall]; omega) (by rw [hsize hsmall]; omega)
  obtain ⟨hle, hge, -⟩ := length_utf8Units hunits
  constructor
  · rintro ⟨hsizes, -, hdescribes⟩
    rw [h.nameSize] at hsizes
    have hsmall : (domain ++ [0x5c] ++ user).length ≤ 4096 := by omega
    have hplace := (describesString_iff hbefore hunits hwritten h.value).mp
      (hdescribes.of_slices fun offset n hoffset hend => (hslices hsmall hle offset n hoffset hend).symm)
    rw [utf8Units_ascii hplace.ascii, Option.some.injEq] at hunits
    rw [← hunits, List.length_map] at hsizes
    have hdomain := length_cString_le domain
    have huser := length_cString_le user
    have hdomainWhole := cString_eq_self_iff.mp (show (cString domain).length = domain.length by omega)
    have huserWhole := cString_eq_self_iff.mp (show (cString user).length = user.length by omega)
    intro c hc
    rcases List.mem_append.mp hc with hc | hc
    · exact ⟨hdomainWhole c hc, hplace.ascii c (by simp [hc])⟩
    · exact ⟨huserWhole c hc, hplace.ascii c (by simp [hc])⟩
  · intro hchars
    obtain ⟨hdomain, huser⟩ := List.forall_mem_append.mp hchars
    have hascii : ∀ c ∈ domain ++ [0x5c] ++ user, c.toNat < 0x80 :=
      List.forall_mem_append.mpr ⟨List.forall_mem_append.mpr ⟨fun c hc => (hdomain c hc).2,
        List.forall_mem_singleton.mpr (by decide)⟩, fun c hc => (huser c hc).2⟩
    have hwhole : (cString (domain ++ [0x5c] ++ user)).length = (domain ++ [0x5c] ++ user).length :=
      cString_eq_self_iff.mpr (List.forall_mem_append.mpr ⟨List.forall_mem_append.mpr ⟨fun c hc => (hdomain c hc).1,
        List.forall_mem_singleton.mpr (by decide)⟩, fun c hc => (huser c hc).1⟩)
    have hdomainLength := cString_eq_self_iff.mpr fun c hc => (hdomain c hc).1
    have huserLength := cString_eq_self_iff.mpr fun c hc => (huser c hc).1
    have hplace : AsciiInPlace (domain ++ [0x5c] ++ user) false before 36 := by
      refine ⟨hascii, ?_⟩
      rw [hwhole]
      show slice before _ (2 * ((domain ++ [0x5c] ++ user).length - (domain ++ [0x5c] ++ user).length)) =
        ucs2Bytes (((domain ++ [0x5c] ++ user).drop (domain ++ [0x5c] ++ user).length).map UInt8.toUInt16)
      rw [Nat.sub_self, List.drop_length]
      rfl
    have hdescribes := (describesString_iff hbefore hunits hwritten h.value).mpr hplace
    have hcount : units.length = (domain ++ [0x5c] ++ user).length := by
      rw [utf8Units_ascii hascii, Option.some.injEq] at hunits
      rw [← hunits, List.length_map]
    refine ⟨by rw [h.nameSize, hcount, hlength]; omega, by rw [h.maximumSize, hcount, hlength]; omega, ?_⟩
    exact hdescribes.of_slices (hslices (by omega) hle)

/-- The lengths count units, and a reader gets the string back, exactly for ASCII strings whose units from
the first NUL on the buffer already has. -/
theorem StringWrite.describes_iff_exact (w : StringWrite) (buffer : SizedBuffer 32) {units : List UInt16} {out : Bytes}
    {used : Nat} (hunits : utf8Units w.string = some units) (haccepted : w.run buffer = .ok (out, used)) :
    w.Describes units out ↔ w.Exact buffer := by
  cases w with
  | value string terminateNull buf bufLen =>
      obtain ⟨-, -, written, hwritten, hvalue⟩ := of_initStringValue haccepted
      exact describesString_iff buffer.fits hunits hwritten hvalue
  | lookUpNames handle user domain =>
      obtain ⟨written, before, block, hwritten, hbefore, h⟩ := of_lookUpNames haccepted
      exact h.describes_iff (by rw [hbefore]; exact buffer.fits) hunits hwritten

/-- The name of a pipe, "srvsvc". -/
def pipeName : Bytes := [0x73, 0x72, 0x76, 0x73, 0x76, 0x63]

theorem StringWrite.describes_pipeName :
    let buffer : SizedBuffer 32 := ⟨List.replicate 26 0, by decide⟩
    let out : Bytes := [7, 0, 0, 0, 0, 0, 0, 0, 7, 0, 0, 0, 0x73, 0, 0x72, 0, 0x76, 0, 0x73, 0, 0x76, 0, 0x63, 0, 0, 0]
    (value pipeName true 0 26).run buffer = .ok (out, 26) ∧
      (value pipeName true 0 26).Describes [0x73, 0x72, 0x76, 0x73, 0x76, 0x63] out := by
  intro buffer out
  have hname : utf8ToUcs2 true (cString pipeName) = .ok (some [0x73, 0x72, 0x76, 0x73, 0x76, 0x63]) :=
    utf8ToUcs2_ascii (by simp [cString, pipeName]) (by decide)
  have hrun : (value pipeName true 0 26).run buffer = .ok (out, 26) := by
    rw [run, dcerpcInitStringValue, hname]
    rfl
  refine ⟨hrun, (StringWrite.describes_iff_exact (value pipeName true 0 26) buffer (by decide) hrun).mpr ?_⟩
  exact ⟨by simp [pipeName], by decide⟩

/-- The letter e with an acute accent has one unit, and a length of two. -/
theorem StringWrite.not_describes_accent :
    let buffer : SizedBuffer 32 := ⟨List.replicate 16 0, by decide⟩
    let out : Bytes := [2, 0, 0, 0, 0, 0, 0, 0, 2, 0, 0, 0, 0xe9, 0, 0, 0]
    utf8Units [0xc3, 0xa9] = some [0xe9] ∧ (value [0xc3, 0xa9] false 0 16).run buffer = .ok (out, 16) ∧
      ¬ (value [0xc3, 0xa9] false 0 16).Describes [0xe9] out := by
  intro buffer out
  let accent : Utf8Sequence := ⟨[0xc3, 0xa9], 0xe9, .two (by decide) (by decide)⟩
  have hname : utf8ToUcs2 true (cString [0xc3, 0xa9]) = .ok (some [0xe9]) :=
    @utf8ToUcs2_sequences [accent] (by decide)
  refine ⟨by decide, ?_, fun h => ?_⟩
  · rw [run, dcerpcInitStringValue, hname]
    rfl
  · have hlength : leNat (slice out 8 4) = 1 := h.length
    exact absurd hlength (by decide)

end CodeStudy.Samba
