import CodeStudy.Samba.Security.Reencode

/-!
# What the decoder reads

A server chooses every byte of a descriptor, the offsets and the sizes in it included. The decoder
walks through the buffer with a pointer and a remaining length. It stays inside the buffer as long
as the length is one the buffer has. Two steps can break that: an offset so large that its 32-bit
check wraps, and an access control list that claims to be shorter than its own header.
-/

namespace CodeStudy.Samba

/-! ### The views the decoder computes -/

/-- A SID is read from one view, and what is behind it is left as another one. -/
def sidViews (v : View) : List View :=
  match decodeSid v with
  | .ok sid => [v, v.skip sid.size]
  | .error _ => [v]

/-- The views behind the header of an entry. -/
def aceContentViews (aceType : UInt8) (v : View) : List View :=
  match aceKind aceType with
  | .basic | .callback => if v.len < 4 then [v] else v :: sidViews (v.skip 4)
  | .object =>
      if v.len < 40 then [v]
      else
        v :: v.skip 4 :: (v.skip 4).skip 4 :: ((v.skip 4).skip 4).skip 16 ::
          sidViews ((((v.skip 4).skip 4).skip 16).skip 16)
  | .unknown => [v]

def aceHeadViews (v : View) : List View :=
  if v.len < 4 ∨ aceLen v.buf < 4 ∨ v.len < aceLen v.buf then [v]
  else v :: aceContentViews (v.buf.headD 0) (v.skip 4)

/-- The views of entries one after the other, up to the first that cannot be decoded. -/
def acesViews : Nat → View → List View
  | 0, v => [v]
  | count + 1, v =>
      aceHeadViews v ++
        match decodeAce v with
        | .ok ace => if ace.aceSize.toNat > v.len then [] else acesViews count (v.skip ace.aceSize.toNat)
        | .error _ => []

/-- The revisions of an access control list that are decoded. -/
def isAclRevision (b : Bytes) : Prop := b.headD 0 = 2 ∨ b.headD 0 = 4

instance (b : Bytes) : Decidable (isAclRevision b) := inferInstanceAs (Decidable (_ ∨ _))

def aclViews (v : View) : List View :=
  if v.len < 8 ∨ ¬ isAclRevision v.buf then [v]
  else if (v.cut (aclLen v.buf)).len < aclLen v.buf then [v, v.cut (aclLen v.buf)]
  else v :: v.cut (aclLen v.buf) :: acesViews (aclCount v.buf) ((v.cut (aclLen v.buf)).skip 8)

/-- The views behind a part, which are there when the part could be decoded. -/
def viewsAfter {α : Type} (part : Except Fault α) (views : List View) : List View :=
  match part with
  | .error _ => []
  | .ok _ => views

/-- Every view that the decoder of descriptors computes before it stops. -/
def secDescViews (b : Bytes) : List View :=
  if b.length < 20 then []
  else if b.headD 0 ≠ 1 then [⟨b, 20⟩]
  else
    ⟨b, 20⟩ :: (ownerAt b).elim [] sidViews ++
      viewsAfter (decodePart "" decodeSid (ownerAt b))
        ((groupAt b).elim [] sidViews ++
          viewsAfter (decodePart "" decodeSid (groupAt b)) ((daclAt b).elim [] aclViews))

/-- Nothing outside the buffer is read, and no remaining length exceeds what remains. -/
structure ReadsInside (b : Bytes) : Prop where
  reads : smb2DecodeSecDescInternal b ≠ .error .undefined
  lengths : ∀ v ∈ secDescViews b, v.Sound

/-! ### When that is so -/

section

variable (b : Bytes) (offset : UInt32)

/-- The check that an offset passes before it is followed. The sum is a 32-bit number. -/
def FollowsOffset : Prop := 0 < offset ∧ (offset + 8).toNat < b.length

/-- An offset that is followed lies inside the buffer. -/
def OffsetInside : Prop := FollowsOffset b offset → offset.toNat ≤ b.length

/-- A whole SID of the known revision stands at an offset that is followed. -/
def SidStands : Prop :=
  FollowsOffset b offset →
    (b.drop offset.toNat).headD 0 = 1 ∧
      offset.toNat + 8 + 4 * ((b.drop offset.toNat).getD 1 0).toNat ≤ b.length

/-- A list of a known revision, at an offset that is followed, is not shorter than its header. -/
def AclHasHeader : Prop :=
  FollowsOffset b offset → offset.toNat + 8 ≤ b.length → isAclRevision (b.drop offset.toNat) →
    8 ≤ aclLen (b.drop offset.toNat)

end

instance (b : Bytes) (offset : UInt32) : Decidable (FollowsOffset b offset) :=
  inferInstanceAs (Decidable (_ ∧ _))

instance (b : Bytes) (offset : UInt32) : Decidable (OffsetInside b offset) :=
  inferInstanceAs (Decidable (_ → _))

instance (b : Bytes) (offset : UInt32) : Decidable (SidStands b offset) :=
  inferInstanceAs (Decidable (_ → _))

instance (b : Bytes) (offset : UInt32) : Decidable (AclHasHeader b offset) :=
  inferInstanceAs (Decidable (_ → _))

/-- Up to the first SID that does not stand in the buffer, every offset lies inside it, and so does
the header of the list. -/
def OffsetsInside (b : Bytes) : Prop :=
  20 ≤ b.length → b.headD 0 = 1 →
    OffsetInside b (descriptorOffset b 4) ∧
      (SidStands b (descriptorOffset b 4) → OffsetInside b (descriptorOffset b 8) ∧
        (SidStands b (descriptorOffset b 8) →
          OffsetInside b (descriptorOffset b 16) ∧ AclHasHeader b (descriptorOffset b 16)))

instance (b : Bytes) : Decidable (OffsetsInside b) := inferInstanceAs (Decidable (_ → _))

/-! ### SIDs -/

section

variable {v : View}

theorem decodeSid_ne_undefined (h : v.Sound) : decodeSid v ≠ .error .undefined := by
  rw [decodeSid]
  split_ifs with hshort
  · simp
  obtain ⟨revision, hrevision⟩ := h.get 1 0 0
  rw [hrevision, ok_bind]
  split_ifs with hone
  · simp
  obtain ⟨count, hcount⟩ := h.get 1 1 0
  rw [hcount, ok_bind]
  split_ifs with hlen
  · simp
  obtain ⟨idAuth, hid⟩ := h.copy (show 2 + 6 ≤ v.len by omega)
  obtain ⟨subAuth, hwords⟩ := h.words 8 (UInt8.ofNat count).toNat
  rw [hid, ok_bind, hwords, ok_bind]
  simp

theorem sound_of_mem_sidViews (h : v.Sound) : ∀ u ∈ sidViews v, u.Sound := by
  rw [sidViews]
  split
  · rename_i sid hsid
    have hle := (decodeSid_eq_ok hsid).2.1
    exact List.forall_mem_cons.mpr ⟨h, List.forall_mem_singleton.mpr (h.skip hle)⟩
  · exact List.forall_mem_singleton.mpr h

/-- A SID is decoded when it stands there as a whole. -/
theorem decodeSid_isOk (h : v.Sound) : (∃ sid, decodeSid v = .ok sid) ↔
    v.buf.headD 0 = 1 ∧ 8 + 4 * (v.buf.getD 1 0).toNat ≤ v.len := by
  constructor
  · rintro ⟨sid, hsid⟩
    obtain ⟨hrevision, hlen, hbuf⟩ := decodeSid_eq_ok hsid
    have hcount := getD_sidBytes [] sid (v.buf.drop sid.size) (n := 1) rfl
    rw [List.nil_append, ← hbuf] at hcount
    have hhead : v.buf.headD 0 = sid.revision := by
      rw [hbuf]
      rfl
    refine ⟨hhead.trans hrevision, ?_⟩
    rw [Smb2Sid.size] at hlen
    omega
  · rintro ⟨hhead, hlen⟩
    have hrevision : v.get 1 0 0 = .ok 1 := by
      rw [h.get_byte (by omega), ← List.headD_eq_getD, hhead]
      rfl
    have hcount := h.get_byte (show 1 < v.len by omega) 0
    obtain ⟨idAuth, hid⟩ := h.copy (show 2 + 6 ≤ v.len by omega)
    obtain ⟨subAuth, hwords⟩ := h.words 8 (UInt8.ofNat (v.buf.getD 1 0).toNat).toNat
    rw [decodeSid, if_neg (by omega), hrevision, ok_bind, if_neg (by decide), hcount, ok_bind,
      if_neg (by rw [UInt8.ofNat_toNat]; omega), hid, ok_bind, hwords, ok_bind]
    exact ⟨_, rfl⟩

/-! ### Entries -/

theorem annotate_ne_undefined {α : Type} {text : String} {x : Except Fault α} (h : x ≠ .error .undefined) :
    Fault.annotate text x ≠ .error .undefined := by
  unfold Fault.annotate
  split
  · simp
  · exact h

theorem bind_ne_undefined {α β : Type} {x : Except Fault α} {f : α → Except Fault β}
    (hx : x ≠ .error .undefined) (hf : ∀ a, x = .ok a → f a ≠ .error .undefined) :
    x >>= f ≠ .error .undefined := by
  cases x with
  | error fault =>
      intro hbind
      cases hbind
      exact hx rfl
  | ok a => exact hf a rfl

theorem copyRest_ne_undefined (h : v.Sound) (msg : String) : copyRest v msg ≠ .error .undefined := by
  rw [copyRest]
  split_ifs
  · simp
  · obtain ⟨bytes, hcopy⟩ := h.copy (show 0 + v.len ≤ v.len by omega)
    rw [hcopy, ok_bind]
    simp

/-- A mask, and a SID behind it. -/
theorem sid_ne_undefined (h : v.Sound) (hlen : 4 ≤ v.len) (text : String) :
    Fault.annotate text (decodeSid (v.skip 4)) ≠ .error .undefined :=
  annotate_ne_undefined (decodeSid_ne_undefined (h.skip hlen))

/-- What is left for the parts of an entry of the object kind. -/
theorem len_objectParts (hlong : 40 ≤ v.len) :
    ((v.skip 4).skip 4).len = v.len - 8 ∧ (((v.skip 4).skip 4).skip 16).len = v.len - 24 := by
  have hlen₁ : (v.skip 4).len = v.len - 4 := View.len_skip (by omega)
  have hlen₂ : ((v.skip 4).skip 4).len = v.len - 8 := by
    rw [View.len_skip (by omega), hlen₁, Nat.sub_sub]
  refine ⟨hlen₂, ?_⟩
  rw [View.len_skip (by omega), hlen₂, Nat.sub_sub]

theorem sound_objectParts (h : v.Sound) (hlong : 40 ≤ v.len) :
    (v.skip 4).Sound ∧ ((v.skip 4).skip 4).Sound ∧ (((v.skip 4).skip 4).skip 16).Sound ∧
      ((((v.skip 4).skip 4).skip 16).skip 16).Sound := by
  obtain ⟨hlen₂, hlen₃⟩ := len_objectParts hlong
  have hlen₁ : (v.skip 4).len = v.len - 4 := View.len_skip (by omega)
  have h₁ := h.skip (show 4 ≤ v.len by omega)
  have h₂ := h₁.skip (show 4 ≤ (v.skip 4).len by omega)
  have h₃ := h₂.skip (show 16 ≤ ((v.skip 4).skip 4).len by omega)
  exact ⟨h₁, h₂, h₃, h₃.skip (show 16 ≤ (((v.skip 4).skip 4).skip 16).len by omega)⟩

theorem decodeAceContent_ne_undefined (h : v.Sound) (ace : Smb2Ace) :
    decodeAceContent ace v ≠ .error .undefined := by
  rw [decodeAceContent]
  cases aceKind ace.aceType with
  | basic =>
      obtain ⟨mask, hmask⟩ := h.get 4 0 0
      simp only [hmask, ok_bind]
      split_ifs with hshort
      · simp
      · apply bind_ne_undefined (sid_ne_undefined h (by omega) _)
        simp
  | object =>
      simp only
      split_ifs with hshort
      · simp
      obtain ⟨h₁, h₂, h₃, h₄⟩ := sound_objectParts h (not_lt.mp hshort)
      obtain ⟨hlen₂, hlen₃⟩ := len_objectParts (not_lt.mp hshort)
      obtain ⟨mask, hmask⟩ := h.get 4 0 0
      obtain ⟨flags, hflags⟩ := h₁.get 4 0 0
      obtain ⟨objectType, hobject⟩ := h₂.copy (show 0 + 16 ≤ _ by omega)
      obtain ⟨inheritedObjectType, hinherited⟩ := h₃.copy (show 0 + 16 ≤ _ by omega)
      rw [hmask, ok_bind, hflags, ok_bind, hobject, ok_bind, hinherited, ok_bind]
      apply bind_ne_undefined (annotate_ne_undefined (decodeSid_ne_undefined h₄))
      simp
  | callback =>
      obtain ⟨mask, hmask⟩ := h.get 4 0 0
      simp only [hmask, ok_bind]
      split_ifs with hshort
      · simp
      · apply bind_ne_undefined (sid_ne_undefined h (by omega) _)
        intro sid _
        apply bind_ne_undefined (copyRest_ne_undefined (h.skip (by omega)) _)
        simp
  | unknown =>
      apply bind_ne_undefined (copyRest_ne_undefined h _)
      simp

theorem decodeAce_ne_undefined (h : v.Sound) : decodeAce v ≠ .error .undefined := by
  rw [decodeAce]
  split_ifs with hshort
  · simp
  obtain ⟨aceType, htype⟩ := h.get 1 0 0
  obtain ⟨aceFlags, hflags⟩ := h.get 1 1 0
  obtain ⟨aceSize, hsize⟩ := h.get 2 2 0
  simp only [htype, hflags, hsize, ok_bind]
  split_ifs
  · simp
  · simp
  · exact decodeAceContent_ne_undefined (h.skip (by omega)) _

theorem decodeAces_ne_undefined (h : v.Sound) (index count : Nat) :
    decodeAces index count v ≠ .error .undefined := by
  induction count generalizing index v with
  | zero => simp [decodeAces]
  | succ count ih =>
      rw [decodeAces]
      apply bind_ne_undefined (annotate_ne_undefined (decodeAce_ne_undefined h))
      intro ace _
      split_ifs with hsize
      · simp
      · apply bind_ne_undefined (ih (h.skip (by omega)) (index + 1))
        simp

theorem sound_of_mem_aceContentViews (h : v.Sound) (aceType : UInt8) :
    ∀ u ∈ aceContentViews aceType v, u.Sound := by
  rw [aceContentViews]
  cases aceKind aceType with
  | basic | callback =>
      simp only
      split_ifs with hshort
      · exact List.forall_mem_singleton.mpr h
      · exact List.forall_mem_cons.mpr ⟨h, sound_of_mem_sidViews (h.skip (by omega))⟩
  | object =>
      simp only
      split_ifs with hshort
      · exact List.forall_mem_singleton.mpr h
      obtain ⟨h₁, h₂, h₃, h₄⟩ := sound_objectParts h (not_lt.mp hshort)
      simp only [List.forall_mem_cons]
      exact ⟨h, h₁, h₂, h₃, sound_of_mem_sidViews h₄⟩
  | unknown => exact List.forall_mem_singleton.mpr h

theorem sound_of_mem_aceHeadViews (h : v.Sound) : ∀ u ∈ aceHeadViews v, u.Sound := by
  rw [aceHeadViews]
  split_ifs with hshort
  · exact List.forall_mem_singleton.mpr h
  · exact List.forall_mem_cons.mpr ⟨h, sound_of_mem_aceContentViews (h.skip (by omega)) _⟩

theorem sound_of_mem_acesViews (h : v.Sound) (count : Nat) : ∀ u ∈ acesViews count v, u.Sound := by
  induction count generalizing v with
  | zero => exact List.forall_mem_singleton.mpr h
  | succ count ih =>
      rw [acesViews, List.forall_mem_append]
      refine ⟨sound_of_mem_aceHeadViews h, ?_⟩
      split
      · split_ifs with hsize
        · simp
        · exact ih (h.skip (by omega))
      · simp

/-! ### The list -/

theorem decodeAcl_ne_undefined (h : v.Sound)
    (hheader : 8 ≤ v.len → isAclRevision v.buf → 8 ≤ aclLen v.buf) :
    decodeAcl v ≠ .error .undefined := by
  rw [decodeAcl]
  split_ifs with hshort
  · simp
  have hrevision := h.get_byte (show 0 < v.len by omega) 0
  obtain ⟨aclSize, hsize⟩ := h.get 2 2 0
  obtain ⟨aceCount, hcount⟩ := h.get 2 4 0
  simp only [hrevision, hsize, hcount, ok_bind]
  split_ifs with hunknown hmissing
  · simp
  · simp
  · have hknown : isAclRevision v.buf := by
      simp only [isAclRevision, List.headD_eq_getD, ← UInt8.toNat_inj]
      have htwo : UInt8.toNat 2 = 2 := rfl
      have hfour : UInt8.toNat 4 = 4 := rfl
      omega
    have hlen : aclLen v.buf = aclSize := (View.eq_leNat_of_get hsize (by omega)).symm
    have hle := hheader (by omega) hknown
    apply bind_ne_undefined
    · exact decodeAces_ne_undefined ((h.cut aclSize).skip (by omega)) 0 aceCount
    · simp

theorem sound_of_mem_aclViews (h : v.Sound)
    (hheader : 8 ≤ v.len → isAclRevision v.buf → 8 ≤ aclLen v.buf) :
    ∀ u ∈ aclViews v, u.Sound := by
  rw [aclViews]
  split_ifs with hshort hmissing
  · exact List.forall_mem_singleton.mpr h
  · exact List.forall_mem_cons.mpr ⟨h, List.forall_mem_singleton.mpr (h.cut _)⟩
  · have hle := hheader (by omega) (by by_contra hunknown; exact hshort (Or.inr hunknown))
    simp only [List.forall_mem_cons]
    exact ⟨h, h.cut _, sound_of_mem_acesViews ((h.cut _).skip (by omega)) _⟩

/-- A list shorter than its header leaves an enormous length. -/
theorem aclLen_of_sound (hbuf : v.buf.length < 2 ^ 64) (hlen : 8 ≤ v.len) (hknown : isAclRevision v.buf)
    (hviews : ∀ u ∈ aclViews v, u.Sound) : 8 ≤ aclLen v.buf := by
  by_contra hlt
  have hcut : (v.cut (aclLen v.buf)).len = aclLen v.buf := by
    rw [View.cut, if_pos (by omega)]
  have hsame : (v.cut (aclLen v.buf)).buf = v.buf := by
    rw [View.cut]
    split_ifs
    · rfl
    · rfl
  rw [aclViews, if_neg (by simp [hknown, hlen]), if_neg (by omega)] at hviews
  have hfirst : (v.cut (aclLen v.buf)).skip 8 ∈ acesViews (aclCount v.buf) ((v.cut (aclLen v.buf)).skip 8) := by
    cases aclCount v.buf with
    | zero => exact List.mem_singleton_self _
    | succ count =>
        rw [acesViews, aceHeadViews]
        split_ifs
        · simp
        · simp
  refine View.not_sound_skip (n := 8) (by omega) (hsame ▸ hbuf) (by decide) (hviews _ ?_)
  exact List.mem_cons_of_mem _ (List.mem_cons_of_mem _ hfirst)

end

/-! ### The whole descriptor -/

section

variable {b : Bytes} {offset : UInt32}

theorem partAt_of_follows (h : FollowsOffset b offset) : partAt b offset = some ((View.of b).skip offset.toNat) :=
  if_pos h

theorem partAt_of_not_follows (h : ¬ FollowsOffset b offset) : partAt b offset = none := if_neg h

/-- The length of a part is what the buffer has exactly when the offset lies inside. -/
theorem sound_partAt_iff (hbuf : b.length < 2 ^ 64) :
    (∀ v ∈ partAt b offset, v.Sound) ↔ OffsetInside b offset := by
  by_cases hfollows : FollowsOffset b offset
  · rw [partAt_of_follows hfollows]
    simp only [Option.mem_def, Option.some.injEq, forall_eq', OffsetInside, hfollows, forall_const]
    constructor
    · intro hsound
      by_contra hlt
      refine View.not_sound_skip (v := View.of b) (not_le.mp hlt) hbuf ?_ hsound
      exact offset.toNat_lt.trans (by decide)
    · exact (View.sound_of b).skip
  · rw [partAt_of_not_follows hfollows]
    simp [OffsetInside, hfollows]

/-- A part that is decoded, or one that is not there. -/
theorem decodePart_sid_isOk (hinside : OffsetInside b offset) :
    (∃ part, decodePart "" decodeSid (partAt b offset) = .ok part) ↔ SidStands b offset := by
  by_cases hfollows : FollowsOffset b offset
  · have hle : offset.toNat ≤ (View.of b).len := hinside hfollows
    have hsid := decodeSid_isOk ((View.sound_of b).skip hle)
    have hlen : ((View.of b).skip offset.toNat).len = b.length - offset.toNat := View.len_skip hle
    have hbuf : ((View.of b).skip offset.toNat).buf = b.drop offset.toNat := rfl
    rw [partAt_of_follows hfollows, SidStands]
    simp only [hfollows, forall_const]
    rw [hlen, hbuf] at hsid
    have hle : offset.toNat ≤ b.length := hle
    constructor
    · rintro ⟨part, hpart⟩
      obtain ⟨sid, hdecoded, -⟩ := bind_eq_ok.mp hpart
      obtain ⟨hone, hcount⟩ := hsid.mp ⟨sid, Fault.annotate_eq_ok.mp hdecoded⟩
      exact ⟨hone, by omega⟩
    · rintro ⟨hone, hcount⟩
      obtain ⟨sid, hdecoded⟩ := hsid.mpr ⟨hone, by omega⟩
      refine ⟨some sid, ?_⟩
      rw [decodePart, Fault.annotate_eq_ok.mpr hdecoded, ok_bind]
  · rw [partAt_of_not_follows hfollows, SidStands]
    simp [hfollows, decodePart]

theorem decodePart_ne_undefined {α : Type} {decode : View → Except Fault α} {text : String}
    (h : ∀ v ∈ partAt b offset, decode v ≠ .error .undefined) :
    decodePart text decode (partAt b offset) ≠ .error .undefined := by
  cases hpart : partAt b offset with
  | none => simp [decodePart]
  | some v =>
      rw [decodePart]
      apply bind_ne_undefined (annotate_ne_undefined (h v hpart))
      simp

/-- The text of a failure does not matter for what is decoded. -/
theorem decodePart_text {α : Type} {decode : View → Except Fault α} {text : String} {part : Option View}
    {result : Option α} (h : decodePart text decode part = .ok result) : decodePart "" decode part = .ok result := by
  cases part with
  | none => exact h
  | some v =>
      obtain ⟨decoded, hdecoded, h⟩ := bind_eq_ok.mp h
      rw [decodePart, Fault.annotate_eq_ok.mpr (Fault.annotate_eq_ok.mp hdecoded), ok_bind]
      exact h

theorem elim_views {views : View → List View} (part : Option View) :
    (∀ u ∈ part.elim [] views, u.Sound) ↔ ∀ v ∈ part, ∀ u ∈ views v, u.Sound := by
  cases part with
  | none => simp
  | some v => simp

theorem mem_sidViews_self (v : View) : v ∈ sidViews v := by
  rw [sidViews]
  split
  · simp
  · simp

theorem mem_aclViews_self (v : View) : v ∈ aclViews v := by
  rw [aclViews]
  split_ifs
  · simp
  · simp
  · simp

end

/-- What follows a part, when the part can be decoded. -/
theorem forall_after_part {α : Type} {part : Except Fault α} {views : List View} :
    (∀ u ∈ viewsAfter part views, u.Sound) ↔
      ((∃ decoded, part = .ok decoded) → ∀ u ∈ views, u.Sound) := by
  cases part with
  | error fault => simp [viewsAfter]
  | ok decoded => simp [viewsAfter]

theorem forall_secDescViews {b : Bytes} (hlen : 20 ≤ b.length) (hone : b.headD 0 = 1) :
    (∀ u ∈ secDescViews b, u.Sound) ↔
      (∀ v ∈ ownerAt b, ∀ u ∈ sidViews v, u.Sound) ∧
        ((∃ owner, decodePart "" decodeSid (ownerAt b) = .ok owner) →
          (∀ v ∈ groupAt b, ∀ u ∈ sidViews v, u.Sound) ∧
            ((∃ group, decodePart "" decodeSid (groupAt b) = .ok group) →
              ∀ v ∈ daclAt b, ∀ u ∈ aclViews v, u.Sound)) := by
  have hhead : View.Sound ⟨b, 20⟩ := hlen
  rw [secDescViews, if_neg (by omega), if_neg (not_not.mpr hone), List.cons_append, List.forall_mem_cons,
    List.forall_mem_append, forall_after_part, List.forall_mem_append, forall_after_part, elim_views, elim_views,
    elim_views]
  exact ⟨fun h => h.2, fun h => ⟨hhead, h⟩⟩

theorem buf_of_mem_partAt {b : Bytes} {offset : UInt32} {v : View} (hv : v ∈ partAt b offset) :
    v.buf = b.drop offset.toNat := by
  by_cases hfollows : FollowsOffset b offset
  · rw [partAt_of_follows hfollows] at hv
    cases hv
    rfl
  · rw [partAt_of_not_follows hfollows] at hv
    cases hv

theorem aclHasHeader_iff {b : Bytes} {offset : UInt32} (hinside : OffsetInside b offset) :
    AclHasHeader b offset ↔ ∀ v ∈ partAt b offset, 8 ≤ v.len → isAclRevision v.buf → 8 ≤ aclLen v.buf := by
  by_cases hfollows : FollowsOffset b offset
  · have hle := hinside hfollows
    have hlen : ((View.of b).skip offset.toNat).len = b.length - offset.toNat := View.len_skip hle
    have hroom : offset.toNat + 8 ≤ b.length ↔ 8 ≤ b.length - offset.toNat := by omega
    rw [partAt_of_follows hfollows]
    simp only [AclHasHeader, hfollows, forall_const, Option.mem_def, Option.some.injEq, forall_eq', hlen, hroom]
    rfl
  · rw [partAt_of_not_follows hfollows]
    simp [AclHasHeader, hfollows]

theorem reads_of_offsetsInside {b : Bytes} (hbuf : b.length < 2 ^ 64) (h : OffsetsInside b) :
    smb2DecodeSecDescInternal b ≠ .error .undefined := by
  rw [smb2DecodeSecDescInternal]
  split_ifs with hshort
  · simp
  have hhead : View.Sound ⟨b, 20⟩ := not_lt.mp hshort
  have hrevision := hhead.get_byte (show 0 < 20 by decide) 0
  obtain ⟨control, hcontrol⟩ := hhead.get 2 2 0
  have hoffset (field : Nat) (hfield : field + 4 ≤ 20) :
      View.get ⟨b, 20⟩ 4 field 0 = .ok (leNat ((b.drop field).take 4)) := by
    obtain ⟨offset, hoffset⟩ := hhead.get 4 field 0
    rw [hoffset, View.eq_leNat_of_get hoffset hfield]
  simp only [hrevision, hcontrol, hoffset 4 (by decide), hoffset 8 (by decide), hoffset 16 (by decide), ok_bind]
  split_ifs with hunknown
  · simp
  have hone : b.headD 0 = 1 := by
    rw [List.headD_eq_getD, ← UInt8.toNat_inj]
    exact not_not.mp hunknown
  obtain ⟨howner, h⟩ := h (by omega) hone
  apply bind_ne_undefined
  · exact decodePart_ne_undefined fun v hv =>
      decodeSid_ne_undefined ((sound_partAt_iff hbuf).mpr howner v hv)
  intro owner hdecoded
  obtain ⟨hgroup, h⟩ := h ((decodePart_sid_isOk howner).mp ⟨owner, decodePart_text hdecoded⟩)
  apply bind_ne_undefined
  · exact decodePart_ne_undefined fun v hv =>
      decodeSid_ne_undefined ((sound_partAt_iff hbuf).mpr hgroup v hv)
  intro group hdecoded
  obtain ⟨hdacl, hheader⟩ := h ((decodePart_sid_isOk hgroup).mp ⟨group, decodePart_text hdecoded⟩)
  apply bind_ne_undefined
  · exact decodePart_ne_undefined fun v hv =>
      decodeAcl_ne_undefined ((sound_partAt_iff hbuf).mpr hdacl v hv)
        ((aclHasHeader_iff hdacl).mp hheader v hv)
  · simp

/-- The decoder stays inside a buffer exactly when no offset it follows leads out of it and no list
it decodes is shorter than its header. -/
theorem readsInside_iff_offsetsInside {b : Bytes} (hbuf : b.length < 2 ^ 64) :
    ReadsInside b ↔ OffsetsInside b := by
  constructor
  · intro h hlen hone
    obtain ⟨howner, hrest⟩ := (forall_secDescViews hlen hone).mp h.lengths
    have howner : OffsetInside b (descriptorOffset b 4) :=
      (sound_partAt_iff hbuf).mp fun v hv => howner v hv v (mem_sidViews_self v)
    refine ⟨howner, fun hstands => ?_⟩
    obtain ⟨hgroup, hrest⟩ := hrest ((decodePart_sid_isOk howner).mpr hstands)
    have hgroup : OffsetInside b (descriptorOffset b 8) :=
      (sound_partAt_iff hbuf).mp fun v hv => hgroup v hv v (mem_sidViews_self v)
    refine ⟨hgroup, fun hstands => ?_⟩
    have hviews := hrest ((decodePart_sid_isOk hgroup).mpr hstands)
    have hdacl : OffsetInside b (descriptorOffset b 16) :=
      (sound_partAt_iff hbuf).mp fun v hv => hviews v hv v (mem_aclViews_self v)
    refine ⟨hdacl, (aclHasHeader_iff hdacl).mpr fun v hv hroom hknown => ?_⟩
    have hsound : v.buf.length < 2 ^ 64 := by
      rw [buf_of_mem_partAt hv, List.length_drop]
      omega
    exact aclLen_of_sound hsound hroom hknown (hviews v hv)
  · intro h
    refine ⟨reads_of_offsetsInside hbuf h, ?_⟩
    by_cases hlen : 20 ≤ b.length
    · by_cases hone : b.headD 0 = 1
      · obtain ⟨howner, h⟩ := h hlen hone
        refine (forall_secDescViews hlen hone).mpr ⟨fun v hv => ?_, fun hdecoded => ?_⟩
        · exact sound_of_mem_sidViews ((sound_partAt_iff hbuf).mpr howner v hv)
        obtain ⟨hgroup, h⟩ := h ((decodePart_sid_isOk howner).mp hdecoded)
        refine ⟨fun v hv => ?_, fun hdecoded v hv => ?_⟩
        · exact sound_of_mem_sidViews ((sound_partAt_iff hbuf).mpr hgroup v hv)
        obtain ⟨hdacl, hheader⟩ := h ((decodePart_sid_isOk hgroup).mp hdecoded)
        exact sound_of_mem_aclViews ((sound_partAt_iff hbuf).mpr hdacl v hv)
          ((aclHasHeader_iff hdacl).mp hheader v hv)
      · rw [secDescViews, if_neg (by omega), if_pos hone]
        exact List.forall_mem_singleton.mpr hlen
    · rw [secDescViews, if_pos (by omega)]
      simp

theorem readsInside_sentDescriptor :
    (sentDescriptor [0, 0]).length < 2 ^ 64 ∧ ReadsInside (sentDescriptor [0, 0]) :=
  ⟨by decide, (readsInside_iff_offsetsInside (by decide)).mpr (by decide)⟩

/-- A descriptor whose list claims to be empty and to hold one entry. -/
def emptyAclDescriptor : Bytes :=
  [1, 0] ++ leBytes 2 0x8004 ++ leBytes 4 0 ++ leBytes 4 0 ++ leBytes 4 0 ++ leBytes 4 20 ++
    [2, 0] ++ leBytes 2 0 ++ leBytes 2 1 ++ [0, 0, 0]

def isUndefined {α : Type} : Except Fault α → Bool
  | .error .undefined => true
  | _ => false

theorem isUndefined_iff {α : Type} {run : Except Fault α} : isUndefined run = true ↔ run = .error .undefined := by
  cases run with
  | ok value => simp [isUndefined]
  | error fault => cases fault <;> simp [isUndefined]

/-- The flags of the entry are read behind the end of the buffer. -/
theorem not_readsInside_emptyAcl : ¬ ReadsInside emptyAclDescriptor := by
  intro h
  have hstop : isUndefined (smb2DecodeSecDescInternal emptyAclDescriptor) = true := by decide
  exact h.reads (isUndefined_iff.mp hstop)

end CodeStudy.Samba
