import CodeStudy.Samba.ShareEnum

/-!
# The response with the shares

How a server marshals its answer to a share enumeration, and that the client reads it back: an
offset of the client, moved to a multiple of four, is the number of bytes in front of the next
string. The lemmas go up from a string to a share, to the array of shares and to the response.
-/

namespace CodeStudy.Samba

/-! ### What a server sends -/

/-- A marshalled string; the terminator comes after the units. -/
structure NdrString where
  maxLength : UInt32
  offset : UInt32 := 0
  units : List UInt16
  ne_zero : ∀ unit ∈ units, unit ≠ 0

structure NdrPointer where
  referent : UInt32
  referent_ne_zero : referent ≠ 0
  string : NdrString

/-- A share, with the null pointer for a string that is missing. -/
structure ServerShare where
  name : Option NdrPointer
  shareType : UInt32
  remark : Option NdrPointer
  permissions : UInt32 := 0
  maxUses : UInt32 := 0
  currentUses : UInt32 := 0
  path : Option NdrPointer := none
  password : Option NdrPointer := none

/-- An answer to one call, with the null pointer for an array that is missing. -/
structure ServerResponse where
  level : ShareLevel
  referent : UInt32
  arrayReferent : UInt32
  maxCount : UInt32
  shares : Option (List ServerShare)
  totalEntries : UInt32
  resumeHandlePtr : UInt32
  resumeHandle : Option UInt32

/-- Bytes up to a multiple of four. -/
def padded (b : Bytes) : Bytes := b ++ List.replicate ((4 - b.length % 4) % 4) 0

def NdrString.head (s : NdrString) : Bytes :=
  leBytes 4 s.maxLength.toNat ++ leBytes 4 s.offset.toNat ++ leBytes 4 (s.units.length + 1)

def NdrString.bytes (s : NdrString) : Bytes := s.head ++ ucs2Bytes (s.units ++ [0])

def referentId (p : Option NdrPointer) : Nat := p.elim 0 fun p => p.referent.toNat

/-- What a pointer points to. -/
def pointee (p : Option NdrPointer) : Bytes := p.elim [] fun p => padded p.string.bytes

/-- The text of the string behind a pointer can be made. -/
def PointeeFits (c : TextConversion) (p : Option NdrPointer) : Prop := ∀ q, p = some q → c.Fits (q.string.units ++ [0])

namespace ServerShare

/-- The fixed part of a share. -/
def info (level : ShareLevel) (share : ServerShare) : Bytes :=
  let basic := leBytes 4 (referentId share.name) ++ leBytes 4 share.shareType.toNat ++
    leBytes 4 (referentId share.remark)
  match level with
  | .one => basic
  | .two =>
      basic ++ leBytes 4 share.permissions.toNat ++ leBytes 4 share.maxUses.toNat ++
        leBytes 4 share.currentUses.toNat ++ leBytes 4 (referentId share.path) ++
        leBytes 4 (referentId share.password)

def strings (level : ShareLevel) (share : ServerShare) : Bytes :=
  match level with
  | .one => pointee share.name ++ pointee share.remark
  | .two => pointee share.name ++ pointee share.remark ++ pointee share.path ++ pointee share.password

/-- The text of a string, empty if it is missing. -/
def text (p : Option NdrPointer) : Bytes := p.elim [] fun p => ucs2ToUtf8 p.string.units

/-- The share as the client should list it. -/
def listed (level : ShareLevel) (share : ServerShare) : Smb2ShareInfo :=
  let basic : Smb2ShareInfo :=
    { name := text share.name, shareType := share.shareType.toNat, remark := text share.remark }
  match level with
  | .one => basic
  | .two =>
      { basic with
        permissions := share.permissions.toNat, maxUses := share.maxUses.toNat
        currentUses := share.currentUses.toNat, path := text share.path, password := text share.password }

def TextsFit (c : TextConversion) (level : ShareLevel) (share : ServerShare) : Prop :=
  PointeeFits c share.name ∧ PointeeFits c share.remark ∧
    match level with
    | .one => True
    | .two => PointeeFits c share.path ∧ PointeeFits c share.password

/-- Only the password may be missing. -/
def Complete (level : ShareLevel) (share : ServerShare) : Prop :=
  share.name.isSome ∧ share.remark.isSome ∧ (level = .two → share.path.isSome)

end ServerShare

namespace ServerResponse

variable (r : ServerResponse)

/-- The shares of the response. -/
def listed : List Smb2ShareInfo := (r.shares.getD []).map (ServerShare.listed r.level)

def TextsFit (c : TextConversion) : Prop := ∀ share ∈ r.shares.getD [], share.TextsFit c r.level

def Complete : Prop := r.shares.isSome ∧ ∀ share ∈ r.shares.getD [], share.Complete r.level

/-- What the client should report, with the shares behind the ones it has. -/
def reported (shares : Smb2Shares) : ShareEnumResponse where
  numEntries := (r.shares.getD []).length
  totalEntries := r.totalEntries.toNat
  resumeHandlePtr := r.resumeHandlePtr.toNat
  resumeHandle := r.resumeHandle.elim 0 UInt32.toNat
  shares := { shareInfoType := r.level.number, sharelist := shares.sharelist ++ r.listed }

/-- What the client reports when these bytes stand behind the number of all shares. -/
def reportedBefore (behind : Bytes) (shares : Smb2Shares) : ShareEnumResponse where
  numEntries := (r.shares.getD []).length
  totalEntries := r.totalEntries.toNat
  resumeHandlePtr := leNat (slice behind 0 4)
  resumeHandle := if behind.length = 12 then leNat (slice behind 4 4) else 0
  shares := { shareInfoType := r.level.number, sharelist := shares.sharelist ++ r.listed }

/-- Everything in front of the shares. -/
def head : Bytes :=
  leBytes 4 r.level.number ++ leBytes 4 r.level.number ++ leBytes 4 r.referent.toNat ++
    leBytes 4 (r.shares.getD []).length ++ leBytes 4 (r.shares.elim 0 fun _ => r.arrayReferent.toNat)

def array : Bytes :=
  r.shares.elim [] fun shares =>
    leBytes 4 r.maxCount.toNat ++ shares.flatMap (ServerShare.info r.level) ++
      shares.flatMap (ServerShare.strings r.level)

/-- Everything behind the shares but the status. -/
def tail : Bytes :=
  leBytes 4 r.totalEntries.toNat ++ leBytes 4 r.resumeHandlePtr.toNat ++
    r.resumeHandle.elim [] fun handle => leBytes 4 handle.toNat

/-- The marshalled response, with the status of success. -/
def stub : Bytes := r.head ++ r.array ++ r.tail ++ leBytes 4 0

/-- The response up to the number of all shares, which is the last that the client needs. -/
def front : Bytes := r.head ++ r.array ++ leBytes 4 r.totalEntries.toNat

/-- Everything behind the number of all shares. -/
def behind : Bytes :=
  leBytes 4 r.resumeHandlePtr.toNat ++ r.resumeHandle.elim [] (fun handle => leBytes 4 handle.toNat) ++ leBytes 4 0

end ServerResponse

/-! ### Reading one string -/

theorem length_padded (b : Bytes) : (padded b).length = b.length + (4 - b.length % 4) % 4 := by
  rw [padded, List.length_append, List.length_replicate]

theorem length_padded_mod (b : Bytes) : (padded b).length % 4 = 0 := by
  rw [length_padded]
  omega

/-- An offset behind a string leads to the place behind its padding. -/
theorem align4_add {position : Nat} {b : Bytes} (hposition : position % 4 = 0)
    (h : position + (padded b).length < 2 ^ 32) :
    align4 (position + b.length) = position + (padded b).length := by
  rw [length_padded] at h ⊢
  by_cases haligned : (position + b.length) % 4 = 0
  · rw [align4_eq haligned]
    omega
  · rw [align4, if_pos haligned, add32_eq (by omega)]
    omega

theorem length_head (s : NdrString) : s.head.length = 12 := rfl

theorem length_bytes (s : NdrString) : s.bytes.length = 12 + 2 * (s.units.length + 1) := by
  rw [NdrString.bytes, List.length_append, length_head, length_ucs2Bytes, List.length_append]
  show 12 + (s.units.length + 1) * 2 = 12 + 2 * (s.units.length + 1)
  omega

theorem word_head {s : NdrString} (h : s.units.length + 1 < 2 ^ 32) : word s.head 2 = s.units.length + 1 := by
  have hslice : slice s.head (4 * 2) 4 = leBytes 4 (s.units.length + 1) := rfl
  rw [word, hslice, leNat_leBytes_of_lt h]

variable {c : TextConversion}

/-- A string in the place of the offset is read if its text can be made. -/
theorem parseString_marshalled {s : NdrString} {pre rest : Bytes} {offset least : Nat}
    (hoffset : align4 offset = pre.length) (hpre : pre.length % 4 = 0) (hleast : least ≤ 2)
    (h : pre.length + (padded s.bytes).length < 2 ^ 32) :
    DefinedWhere (parseString c (pre ++ padded s.bytes ++ rest) offset least) (c.Fits (s.units ++ [0])) fun result =>
      result.1 = ucs2ToUtf8 s.units ∧ align4 result.2 = pre.length + (padded s.bytes).length := by
  have hlength := length_bytes s
  have hpadded := length_padded s.bytes
  set padding := List.replicate ((4 - s.bytes.length % 4) % 4) (0 : UInt8) with hpadding
  have hhead : (View.of (pre ++ padded s.bytes ++ rest)).copy pre.length 12 = .ok ⟨s.head, length_head s⟩ := by
    apply View.copy_eq pre s.head (ucs2Bytes (s.units ++ [0]) ++ padding ++ rest) _ rfl
    simp only [View.of, padded, NdrString.bytes, List.append_assoc, hpadding]
  have hunits : (ucs2Bytes (s.units ++ [0])).length = 2 * (s.units.length + 1) := by
    rw [length_ucs2Bytes, List.length_append]
    exact Nat.mul_comm _ _
  have hbody : (View.of (pre ++ padded s.bytes ++ rest)).copy (pre.length + 12) (2 * (s.units.length + 1)) =
      .ok ⟨ucs2Bytes (s.units ++ [0]), hunits⟩ := by
    apply View.copy_eq (pre ++ s.head) _ (padding ++ rest)
    · simp only [View.of, padded, NdrString.bytes, List.append_assoc, hpadding]
    · rw [List.length_append, length_head]
  have htext : DefinedWhere (if s.units.length + 1 < least then .ok [] else
      ucs2ToUtf8At c (pre ++ padded s.bytes ++ rest) (pre.length + 12) (s.units.length + 1))
        (c.Fits (s.units ++ [0])) fun text => text = ucs2ToUtf8 s.units := by
    by_cases hshort : s.units.length + 1 < least
    · have hnil : s.units = [] := List.length_eq_zero_iff.mp (by omega)
      rw [if_pos hshort, hnil]
      refine (?_ : DefinedWhere _ True _).congr (iff_of_true trivial c.fits_terminator)
      exact DefinedWhere.ok rfl
    · have hcount : (toInt32 ((s.units.length + 1 : Nat) : Int)).toNat = s.units.length + 1 := by
        rw [toInt32_of_lt (by omega) (by omega), Int.toNat_natCast]
      rw [if_neg hshort, ucs2ToUtf8At, hcount, hbody, ok_bind, ucs2Units_ucs2Bytes]
      refine ((c.definedWhere_convert _).bind fun _ text htext => DefinedWhere.ok ?_).congr (iff_of_eq (and_true _))
      rw [htext, cString_ucs2ToUtf8 s.ne_zero]
  have hhere : add32 pre.length 12 = pre.length + 12 := add32_eq (by omega)
  have hnext : add32 (pre.length + 12) (2 * (s.units.length + 1)) = pre.length + s.bytes.length := by
    rw [add32_eq (by omega), hlength, Nat.add_assoc]
  simp only [parseString, hoffset, hhead, ok_bind, word_head (show s.units.length + 1 < 2 ^ 32 by omega),
    hhere, hnext]
  exact (htext.bind fun _ text htext => DefinedWhere.ok ⟨htext, align4_add hpre h⟩).congr (iff_of_eq (and_true _))

/-! ### Reading one share -/

/-- A string behind a pointer that is not null. -/
theorem parsePointee_marshalled {p : Option NdrPointer} (hp : p.isSome) (least : Nat) (hleast : least ≤ 2)
    {payload pre rest : Bytes} {offset : Nat} (hpayload : payload = pre ++ pointee p ++ rest)
    (hoffset : align4 offset = pre.length) (hpre : pre.length % 4 = 0)
    (h : (pre ++ pointee p).length < 2 ^ 32) :
    DefinedWhere (parseString c payload offset least) (PointeeFits c p) fun result =>
      result.1 = ServerShare.text p ∧ align4 result.2 = (pre ++ pointee p).length := by
  obtain ⟨q, rfl⟩ := Option.isSome_iff_exists.mp hp
  rw [hpayload, List.length_append]
  rw [List.length_append] at h
  refine (parseString_marshalled hoffset hpre hleast h).congr ⟨fun hfits q' hq' => ?_, fun hfits => hfits q rfl⟩
  rw [← Option.some.inj hq']
  exact hfits

theorem length_pointee_mod (p : Option NdrPointer) : (pointee p).length % 4 = 0 := by
  cases p with
  | none => rfl
  | some p => exact length_padded_mod p.string.bytes

theorem length_append_mod {pre b : Bytes} (hpre : pre.length % 4 = 0) (hb : b.length % 4 = 0) :
    (pre ++ b).length % 4 = 0 := by
  rw [List.length_append]
  omega

theorem length_strings_mod (level : ShareLevel) (share : ServerShare) : (share.strings level).length % 4 = 0 := by
  cases level with
  | one => exact length_append_mod (length_pointee_mod _) (length_pointee_mod _)
  | two =>
      exact length_append_mod (length_append_mod (length_append_mod (length_pointee_mod _)
        (length_pointee_mod _)) (length_pointee_mod _)) (length_pointee_mod _)

theorem length_info (level : ShareLevel) (share : ServerShare) : (share.info level).length = level.infoSize := by
  cases level with
  | one => rfl
  | two => rfl

/-- The password is looked at only where the share has one. -/
theorem referentId_eq_zero_iff (p : Option NdrPointer) : referentId p = 0 ↔ p = none := by
  cases p with
  | none => exact ⟨fun _ => rfl, fun _ => rfl⟩
  | some p =>
      constructor
      · intro h
        have hzero : p.referent.toNat = (0 : UInt32).toNat := h
        exact absurd (UInt32.toNat_inj.mp hzero) p.referent_ne_zero
      · intro h
        cases h

theorem referentId_lt (p : Option NdrPointer) : referentId p < 256 ^ 4 := by
  cases p with
  | none => exact Nat.zero_lt_succ _
  | some p => exact p.referent.toNat_lt

theorem word_info_one (level : ShareLevel) (share : ServerShare) :
    word (share.info level) 1 = share.shareType.toNat := by
  have hslice : slice (share.info level) (4 * 1) 4 = leBytes 4 share.shareType.toNat := by
    cases level with
    | one => rfl
    | two => rfl
  rw [word, hslice, leNat_leBytes_of_lt share.shareType.toNat_lt]

theorem word_info_two (share : ServerShare) :
    word (share.info .two) 3 = share.permissions.toNat ∧ word (share.info .two) 4 = share.maxUses.toNat ∧
      word (share.info .two) 5 = share.currentUses.toNat ∧ word (share.info .two) 7 = referentId share.password := by
  have hslice3 : slice (share.info .two) (4 * 3) 4 = leBytes 4 share.permissions.toNat := rfl
  have hslice4 : slice (share.info .two) (4 * 4) 4 = leBytes 4 share.maxUses.toNat := rfl
  have hslice5 : slice (share.info .two) (4 * 5) 4 = leBytes 4 share.currentUses.toNat := rfl
  have hslice7 : slice (share.info .two) (4 * 7) 4 = leBytes 4 (referentId share.password) := rfl
  rw [word, word, word, word, hslice3, hslice4, hslice5, hslice7,
    leNat_leBytes_of_lt share.permissions.toNat_lt, leNat_leBytes_of_lt share.maxUses.toNat_lt,
    leNat_leBytes_of_lt share.currentUses.toNat_lt, leNat_leBytes_of_lt (referentId_lt _)]
  exact ⟨rfl, rfl, rfl, rfl⟩

theorem parseShare_marshalled {level : ShareLevel} {share : ServerShare} (hcomplete : share.Complete level)
    {payload pre rest : Bytes} {offset : Nat} (hpayload : payload = pre ++ share.strings level ++ rest)
    (hoffset : align4 offset = pre.length) (hpre : pre.length % 4 = 0)
    (h : (pre ++ share.strings level).length < 2 ^ 32) :
    DefinedWhere (parseShare c level (share.info level) payload offset) (share.TextsFit c level) fun result =>
      result.1 = share.listed level ∧ align4 result.2 = (pre ++ share.strings level).length := by
  obtain ⟨hname, hremark, hpath⟩ := hcomplete
  rw [parseShare]
  cases level with
  | one =>
      simp only [ServerShare.TextsFit, ServerShare.strings, ← List.append_assoc] at hpayload h ⊢
      have hpayload₁ : payload = pre ++ pointee share.name ++ (pointee share.remark ++ rest) := by
        rw [hpayload]
        simp only [List.append_assoc]
      have h₁ : (pre ++ pointee share.name).length < 2 ^ 32 := by
        rw [List.length_append] at h
        omega
      refine (parsePointee_marshalled hname 0 (by omega) hpayload₁ hoffset hpre h₁).bind
        fun _ (name, offset₁) ⟨hname', hoffset₁⟩ => ?_
      refine (parsePointee_marshalled hremark 2 (by omega) hpayload hoffset₁
        (length_append_mod hpre (length_pointee_mod _)) h).bind fun _ (remark, offset₂) ⟨hremark', hoffset₂⟩ => ?_
      obtain rfl : name = ServerShare.text share.name := hname'
      obtain rfl : remark = ServerShare.text share.remark := hremark'
      refine DefinedWhere.ok ⟨?_, hoffset₂⟩
      simp only [word_info_one]
      rfl
  | two =>
      simp only [ServerShare.TextsFit, ServerShare.strings, ← List.append_assoc] at hpayload h ⊢
      have hpayload₁ : payload = pre ++ pointee share.name ++
          (pointee share.remark ++ pointee share.path ++ pointee share.password ++ rest) := by
        rw [hpayload]
        simp only [List.append_assoc]
      have hpayload₂ : payload = pre ++ pointee share.name ++ pointee share.remark ++
          (pointee share.path ++ pointee share.password ++ rest) := by
        rw [hpayload]
        simp only [List.append_assoc]
      have hpayload₃ : payload = pre ++ pointee share.name ++ pointee share.remark ++ pointee share.path ++
          (pointee share.password ++ rest) := by
        rw [hpayload]
        simp only [List.append_assoc]
      have h₃ : (pre ++ pointee share.name ++ pointee share.remark ++ pointee share.path).length < 2 ^ 32 := by
        rw [List.length_append] at h
        omega
      have h₂ : (pre ++ pointee share.name ++ pointee share.remark).length < 2 ^ 32 := by
        rw [List.length_append] at h₃
        omega
      have h₁ : (pre ++ pointee share.name).length < 2 ^ 32 := by
        rw [List.length_append] at h₂
        omega
      have hpre₁ := length_append_mod hpre (length_pointee_mod share.name)
      have hpre₂ := length_append_mod hpre₁ (length_pointee_mod share.remark)
      have hpre₃ := length_append_mod hpre₂ (length_pointee_mod share.path)
      obtain ⟨hpermissions, hmaxUses, hcurrentUses, hpassword⟩ := word_info_two share
      refine (parsePointee_marshalled hname 0 (by omega) hpayload₁ hoffset hpre h₁).bind
        fun _ (name, offset₁) ⟨hname', hoffset₁⟩ => ?_
      refine (parsePointee_marshalled hremark 2 (by omega) hpayload₂ hoffset₁ hpre₁ h₂).bind
        fun _ (remark, offset₂) ⟨hremark', hoffset₂⟩ => ?_
      refine (parsePointee_marshalled (hpath rfl) 2 (by omega) hpayload₃ hoffset₂ hpre₂ h₃).bind
        fun _ (path, offset₃) ⟨hpath', hoffset₃⟩ => ?_
      have hread : DefinedWhere (if word (share.info .two) 7 ≠ 0 then parseString c payload (align4 offset₃) 2
          else .ok ([], align4 offset₃)) (PointeeFits c share.password) fun result =>
            result.1 = ServerShare.text share.password ∧ align4 result.2 = (pre ++ pointee share.name ++
              pointee share.remark ++ pointee share.path ++ pointee share.password).length := by
        have haligned : align4 (align4 offset₃) = align4 offset₃ := align4_eq (by rw [hoffset₃]; exact hpre₃)
        by_cases hnone : share.password = none
        · rw [hpassword, if_neg (not_not.mpr ((referentId_eq_zero_iff _).mpr hnone)), hnone]
          refine (DefinedWhere.ok ⟨rfl, ?_⟩).congr (iff_of_true trivial fun q hq => by cases hq)
          rw [haligned, hoffset₃]
          exact congrArg List.length (List.append_nil _).symm
        · have hsome : share.password.isSome := Option.isSome_iff_ne_none.mpr hnone
          rw [hpassword, if_pos (fun hzero => hnone ((referentId_eq_zero_iff _).mp hzero))]
          exact parsePointee_marshalled hsome 2 (by omega) hpayload (haligned.trans hoffset₃) hpre₃ h
      obtain rfl : name = ServerShare.text share.name := hname'
      obtain rfl : remark = ServerShare.text share.remark := hremark'
      obtain rfl : path = ServerShare.text share.path := hpath'
      refine (?_ : DefinedWhere _ (PointeeFits c share.password ∧ True) _).congr (iff_of_eq (and_true _))
      refine hread.bind fun _ (password, offset₄) ⟨hpassword', hoffset₄⟩ => ?_
      obtain rfl : password = ServerShare.text share.password := hpassword'
      refine DefinedWhere.ok ⟨?_, hoffset₄⟩
      simp only [word_info_one, hpermissions, hmaxUses, hcurrentUses]
      rfl

/-! ### Reading all shares -/

theorem length_flatMap_info (level : ShareLevel) (shares : List ServerShare) :
    (shares.flatMap (ServerShare.info level)).length = shares.length * level.infoSize := by
  induction shares with
  | nil => exact (Nat.zero_mul _).symm
  | cons share shares ih =>
      rw [List.flatMap_cons, List.length_append, length_info, ih, List.length_cons, Nat.add_one_mul, Nat.add_comm]

theorem parseShares_marshalled {level : ShareLevel} {shares : List ServerShare}
    (hcomplete : ∀ share ∈ shares, share.Complete level) {buffer ipre irest payload pre rest : Bytes}
    {bufferOffset payloadOffset : Nat} (sharelist : List Smb2ShareInfo)
    (hbuffer : buffer = ipre ++ shares.flatMap (ServerShare.info level) ++ irest)
    (hbufferOffset : bufferOffset = ipre.length)
    (hinfo : (ipre ++ shares.flatMap (ServerShare.info level)).length < 2 ^ 32)
    (hpayload : payload = pre ++ shares.flatMap (ServerShare.strings level) ++ rest)
    (hpayloadOffset : align4 payloadOffset = pre.length) (hpre : pre.length % 4 = 0)
    (hstrings : (pre ++ shares.flatMap (ServerShare.strings level)).length < 2 ^ 32) :
    DefinedWhere (parseShares c level buffer payload shares.length bufferOffset payloadOffset sharelist)
      (∀ share ∈ shares, share.TextsFit c level) fun result =>
        result.1 = sharelist ++ shares.map (ServerShare.listed level) ∧
          result.2.1 = (ipre ++ shares.flatMap (ServerShare.info level)).length ∧
            align4 result.2.2 = (pre ++ shares.flatMap (ServerShare.strings level)).length := by
  induction shares generalizing ipre pre bufferOffset payloadOffset sharelist with
  | nil =>
      rw [List.flatMap_nil, List.append_nil, List.flatMap_nil, List.append_nil, List.map_nil, List.append_nil]
      refine (?_ : DefinedWhere _ True _).congr (iff_of_true trivial (List.forall_mem_nil _))
      exact DefinedWhere.ok ⟨rfl, hbufferOffset, hpayloadOffset⟩
  | cons share shares ih =>
      simp only [List.flatMap_cons, ← List.append_assoc] at hbuffer hinfo hpayload hstrings ⊢
      have hcopy : (View.of buffer).copy bufferOffset level.infoSize = .ok ⟨share.info level, length_info level share⟩ := by
        apply View.copy_eq ipre _ (shares.flatMap (ServerShare.info level) ++ irest) _ hbufferOffset.symm
        show buffer = _
        rw [hbuffer]
        simp only [List.append_assoc]
      have hpayload₁ : payload = pre ++ share.strings level ++
          (shares.flatMap (ServerShare.strings level) ++ rest) := by
        rw [hpayload]
        simp only [List.append_assoc]
      have h₁ : (pre ++ share.strings level).length < 2 ^ 32 := by
        rw [List.length_append] at hstrings
        omega
      have hadvance : add32 bufferOffset level.infoSize = (ipre ++ share.info level).length := by
        rw [List.length_append, List.length_append, length_info] at hinfo
        rw [hbufferOffset, List.length_append, length_info]
        exact add32_eq (by omega)
      rw [List.length_cons, parseShares, hcopy, ok_bind, List.forall_mem_cons]
      refine (parseShare_marshalled (hcomplete share (List.mem_cons_self ..)) hpayload₁ hpayloadOffset hpre h₁).bind
        fun _ (parsed, payloadOffset₁) ⟨hparsed, hoffset₁⟩ => ?_
      have hrest := ih (fun other hother => hcomplete other (List.mem_cons_of_mem _ hother))
        (sharelist ++ [share.listed level]) hbuffer hadvance hinfo hpayload hoffset₁
        (length_append_mod hpre (length_strings_mod level share)) hstrings
      rw [List.append_assoc, List.singleton_append] at hrest
      obtain rfl : parsed = share.listed level := hparsed
      exact hrest

/-! ### Reading a response -/

theorem readU32_complete {b pre post : Bytes} {n offset : Nat} (hb : b = pre ++ leBytes 4 n ++ post)
    (hoffset : pre.length = offset) (hn : n < 256 ^ 4) : readU32 b offset = .ok n := by
  rw [readU32, View.copy_eq pre (leBytes 4 n) post hb hoffset (length_leBytes 4 n), ok_bind,
    leNat_leBytes_of_lt hn]

section

variable {r : ServerResponse}

theorem word_head_response (hcount : (r.shares.getD []).length < 2 ^ 32) :
    word r.head 0 = r.level.number ∧ word r.head 3 = (r.shares.getD []).length := by
  have hslice0 : slice r.head (4 * 0) 4 = leBytes 4 r.level.number := rfl
  have hslice3 : slice r.head (4 * 3) 4 = leBytes 4 (r.shares.getD []).length := rfl
  have hlevel : r.level.number < 256 ^ 4 := by
    cases r.level with
    | one => decide
    | two => decide
  rw [word, word, hslice0, hslice3, leNat_leBytes_of_lt hlevel, leNat_leBytes_of_lt hcount]
  exact ⟨rfl, rfl⟩

/-- Every share takes bytes of the response. -/
theorem count_le_length (hsome : r.shares.isSome) : (r.shares.getD []).length ≤ r.array.length := by
  obtain ⟨entries, hentries⟩ := Option.isSome_iff_exists.mp hsome
  have harray : r.array.length = 4 + (entries.flatMap (ServerShare.info r.level)).length +
      (entries.flatMap (ServerShare.strings r.level)).length := by
    simp only [ServerResponse.array, hentries, Option.elim_some, List.length_append, length_leBytes]
  have hsize : entries.length ≤ entries.length * r.level.infoSize := by
    apply Nat.le_mul_of_pos_right
    cases r.level with
    | one => decide
    | two => decide
  rw [length_flatMap_info] at harray
  rw [hentries, Option.getD_some]
  omega

theorem stub_eq_front : r.stub = r.front ++ r.behind := by
  simp only [ServerResponse.stub, ServerResponse.front, ServerResponse.behind, ServerResponse.tail, List.append_assoc]

/-- What the client reports of the response alone. -/
theorem reportedBefore_behind (shares : Smb2Shares) : r.reportedBefore r.behind shares = r.reported shares := by
  have hptr : slice r.behind 0 4 = leBytes 4 r.resumeHandlePtr.toNat := by
    rw [ServerResponse.behind, List.append_assoc]
    exact List.take_left' (length_leBytes 4 _)
  rw [ServerResponse.reportedBefore, hptr, leNat_leBytes_of_lt r.resumeHandlePtr.toNat_lt, ServerResponse.reported]
  congr 1
  cases hresume : r.resumeHandle with
  | none =>
      have hlength : r.behind.length = 8 := by
        rw [ServerResponse.behind, hresume]
        rfl
      rw [hlength]
      rfl
  | some handle =>
      have hlength : r.behind.length = 12 := by
        rw [ServerResponse.behind, hresume]
        rfl
      have hslice : slice r.behind 4 4 = leBytes 4 handle.toNat := by
        rw [ServerResponse.behind, hresume]
        exact slice_append_middle (leBytes 4 _) (leBytes 4 handle.toNat) (leBytes 4 0)
      rw [if_pos hlength, hslice, leNat_leBytes_of_lt handle.toNat_lt]
      rfl

/-- A number behind the front of a buffer. -/
theorem readU32_behind {front behind : Bytes} {offset position : Nat} (hoffset : offset = front.length + position)
    (h : position + 4 ≤ behind.length) : readU32 (front ++ behind) offset = .ok (leNat (slice behind position 4)) := by
  have hslice : slice (front ++ behind) offset 4 = slice behind position 4 := by
    rw [slice, slice, hoffset, List.drop_length_add_append]
  have hcopy := definedWhere_copy (front ++ behind) offset 4
  rw [hslice] at hcopy
  have hin : offset + 4 ≤ (front ++ behind).length := by
    rw [List.length_append]
    omega
  rw [readU32]
  rcases hcopy with ⟨-, bytes, hbytes, heq⟩ | ⟨hout, -⟩
  · rw [hbytes, ok_bind, heq]
  · exact absurd hin hout

/-- The client reads the shares when the response is there up to the number of all shares, whatever stands
behind it. -/
theorem parseNetrShareEnumBuffer_front (hcomplete : r.Complete) {payload behind : Bytes}
    (hpayload : payload = r.front ++ behind) (hbehind : 8 ≤ behind.length) (hlt : payload.length < 2 ^ 32)
    (shares : Smb2Shares) :
    DefinedWhere (parseNetrShareEnumBuffer c r.level payload (payload.length - 4) 24 (r.shares.getD []).length shares)
      (r.TextsFit c) fun response => response = r.reportedBefore behind shares := by
  obtain ⟨hsome, hshares⟩ := hcomplete
  obtain ⟨entries, hentries⟩ := Option.isSome_iff_exists.mp hsome
  have hlisted : r.listed = entries.map (ServerShare.listed r.level) := by
    rw [ServerResponse.listed, hentries, Option.getD_some]
  rw [hentries, Option.getD_some] at hshares
  rw [hentries, Option.getD_some]
  set infos := entries.flatMap (ServerShare.info r.level) with hinfos
  set strings := entries.flatMap (ServerShare.strings r.level) with hstrings
  set total := leBytes 4 r.totalEntries.toNat with htotalBytes
  have hcount : infos.length = entries.length * r.level.infoSize := length_flatMap_info r.level entries
  have harray : r.array = leBytes 4 r.maxCount.toNat ++ infos ++ strings := by
    rw [ServerResponse.array, hentries, Option.elim_some]
  have hheadLength : r.head.length = 20 := rfl
  have hparts : payload = (r.head ++ leBytes 4 r.maxCount.toNat) ++ (infos ++ (strings ++ (total ++ behind))) := by
    rw [hpayload, ServerResponse.front, harray]
    simp only [List.append_assoc, htotalBytes]
  have hbuffer : payload.drop 24 = infos ++ (strings ++ (total ++ behind)) := by
    rw [hparts]
    exact List.drop_left' rfl
  have hstringsAt : (payload.drop 24).drop (entries.length * r.level.infoSize) = strings ++ (total ++ behind) := by
    rw [hbuffer, ← hcount, List.drop_left]
  have htotalLength : total.length = 4 := length_leBytes 4 _
  have hlength : payload.length = 24 + infos.length + strings.length + 4 + behind.length := by
    rw [hparts]
    simp only [List.length_append, length_leBytes, hheadLength, htotalLength]
    omega
  have hparse := @parseShares_marshalled c r.level entries hshares
    (payload.drop 24) [] (strings ++ (total ++ behind))
    ((payload.drop 24).drop (entries.length * r.level.infoSize)) [] (total ++ behind) 0 0
    shares.sharelist hbuffer rfl (by rw [List.nil_append, ← hinfos]; omega) hstringsAt rfl rfl
    (by rw [List.nil_append, ← hstrings]; omega)
  rw [List.nil_append, List.nil_append, ← hinfos, ← hstrings] at hparse
  have hinfosMod : infos.length % 4 = 0 := by
    rw [hcount]
    cases r.level with
    | one =>
        show entries.length * 12 % 4 = 0
        omega
    | two =>
        show entries.length * 32 % 4 = 0
        omega
  have htotalOffset (payloadOffset : Nat) (hoffset : align4 payloadOffset = strings.length) :
      align4 (add32 infos.length (add32 24 payloadOffset)) = 24 + infos.length + strings.length := by
    have h24 : align4 (add32 24 payloadOffset) = 24 + strings.length :=
      align4_add32 rfl hoffset (by omega)
    rw [align4_add32 hinfosMod h24 (by omega)]
    omega
  have hfrontLength : r.front.length = 24 + infos.length + strings.length + 4 := by
    simp only [ServerResponse.front, harray, List.length_append, length_leBytes, hheadLength]
    omega
  have htotal : readU32 payload (24 + infos.length + strings.length) = .ok r.totalEntries.toNat := by
    apply @readU32_complete _ (r.head ++ r.array) behind _ _ hpayload _ r.totalEntries.toNat_lt
    simp only [harray, List.length_append, length_leBytes, hheadLength]
    omega
  have hptr : readU32 payload (24 + infos.length + strings.length + 4) = .ok (leNat (slice behind 0 4)) := by
    rw [hpayload]
    exact readU32_behind (by omega) (by omega)
  have hhandle : (if sub32 (payload.length - 4) (24 + infos.length + strings.length + 4) = 8 then
      readU32 payload (add32 (24 + infos.length + strings.length + 4) 4) else .ok 0) =
        .ok (if behind.length = 12 then leNat (slice behind 4 4) else 0) := by
    rw [sub32_eq (by omega) (by omega)]
    by_cases hresume : behind.length = 12
    · rw [if_pos hresume, if_pos (by omega), add32_eq (by omega), hpayload]
      exact readU32_behind (by omega) (by omega)
    · rw [if_neg hresume, if_neg (by omega)]
  have hadvance : add32 (24 + infos.length + strings.length) 4 = 24 + infos.length + strings.length + 4 :=
    add32_eq (by omega)
  rw [parseNetrShareEnumBuffer, ServerResponse.TextsFit, hentries, Option.getD_some]
  refine (?_ : DefinedWhere _ ((∀ share ∈ entries, share.TextsFit c r.level) ∧ True) _).congr (iff_of_eq (and_true _))
  refine hparse.bind fun _ (sharelist, bufferOffset, payloadOffset) ⟨hsharelist, hbufferOffset, hoffset⟩ => ?_
  obtain rfl : bufferOffset = infos.length := hbufferOffset
  obtain rfl : sharelist = shares.sharelist ++ entries.map (ServerShare.listed r.level) := hsharelist
  have hpayloadOffset := htotalOffset payloadOffset hoffset
  simp only [hpayloadOffset, htotal, ok_bind, hadvance, hptr, hhandle]
  refine DefinedWhere.ok ?_
  rw [ServerResponse.reportedBefore, hlisted, hentries, Option.getD_some]

theorem parseNetrShareEnumResponse_front (hcomplete : r.Complete) {payload behind : Bytes}
    (hpayload : payload = r.front ++ behind) (hbehind : 8 ≤ behind.length) (hlt : payload.length < 2 ^ 32)
    (shares : Smb2Shares) :
    DefinedWhere (parseNetrShareEnumResponse c payload (payload.length - 4) shares) (r.TextsFit c) fun response =>
      response = r.reportedBefore behind shares := by
  have hheadLength : r.head.length = 20 := rfl
  have hfrontLength : r.front.length = 20 + r.array.length + 4 := by
    simp only [ServerResponse.front, List.length_append, length_leBytes, hheadLength]
  have hlength : payload.length = r.front.length + behind.length := by
    rw [hpayload, List.length_append]
  have hcopy : (View.of payload).copy 0 20 = .ok ⟨r.head, rfl⟩ := by
    apply View.copy_eq [] r.head (r.array ++ leBytes 4 r.totalEntries.toNat ++ behind) _ rfl
    simp only [View.of, hpayload, ServerResponse.front, List.nil_append, List.append_assoc]
  have hcount := count_le_length hcomplete.1
  obtain ⟨hlevel, hentries⟩ := word_head_response (show (r.shares.getD []).length < 2 ^ 32 by omega)
  have hparse := @parseNetrShareEnumBuffer_front c r hcomplete payload behind hpayload hbehind hlt shares
  rw [parseNetrShareEnumResponse, if_neg (by omega), hcopy, ok_bind]
  show DefinedWhere (if word r.head 0 = 1 then _ else _) _ _
  rw [hlevel, hentries]
  cases hcase : r.level with
  | one =>
      rw [hcase] at hparse
      exact hparse
  | two =>
      rw [hcase] at hparse
      exact hparse

/-- The client reads back what the server marshalled, if it can make the texts. -/
theorem parseNetrShareEnumResponse_marshalled (hcomplete : r.Complete) (hlt : r.stub.length < 2 ^ 32)
    (shares : Smb2Shares) :
    DefinedWhere (parseNetrShareEnumResponse c r.stub (r.stub.length - 4) shares) (r.TextsFit c) fun response =>
      response = r.reported shares := by
  have hbehind : 8 ≤ r.behind.length := by
    simp only [ServerResponse.behind, List.length_append, length_leBytes]
    omega
  have hparse := @parseNetrShareEnumResponse_front c r hcomplete r.stub r.behind stub_eq_front hbehind hlt shares
  rw [reportedBefore_behind] at hparse
  exact hparse

end

end CodeStudy.Samba
