import CodeStudy.Samba.Security.Bounds

/-!
# What the encoder writes of a decoded descriptor

The encoder compares the room that is left with the sizes the entries declare, and then writes what
the decoder kept of them. The two are different numbers: the decoder takes the data of some entries up
to the end of the list, and a SID may be longer than the entry it stands in. The encoder stays inside
every buffer when the entries of a list together are no longer than they declare.
-/

namespace CodeStudy.Samba

/-- Whatever the size of the buffer, nothing is written behind it, and what is reported as written is
no more than the size the encoder asks for. -/
structure EncodesInside (sd : Smb2SecurityDescriptor) : Prop where
  defined : ∀ size, smb2EncodeSecurityDescriptor sd size ≠ .error .undefined
  reported : ∀ size out, smb2EncodeSecurityDescriptor sd size = .ok out →
    out.length ≤ size.toNat ∧ out.length ≤ (smb2GetSecurityDescriptorSize sd).toNat

/-- The encoder does not refuse the list for the sizes of its entries. -/
def Smb2Acl.Accepted (acl : Smb2Acl) : Prop := acl.aces ≠ [] → 8 + aceSizes acl.aces ≤ acl.aclSize.toNat

/-- The entries of a list together are no longer than they declare. -/
def DeclaresEnough (sd : Smb2SecurityDescriptor) : Prop :=
  ∀ acl ∈ sd.dacl, acl.Accepted → (acesBytes acl.aces).length ≤ aceSizes acl.aces

/-! ### Entries -/

/-- The entries have the SIDs their types need. -/
def HaveSids (aces : List Smb2Ace) : Prop :=
  ∀ ace ∈ aces, aceKind ace.aceType ≠ .unknown → ∃ sid, ace.sid = some sid

theorem length_acesBytes_cons (ace : Smb2Ace) (aces : List Smb2Ace) :
    (acesBytes (ace :: aces)).length = (aceBytes ace).length + (acesBytes aces).length := by
  rw [acesBytes, List.flatMap_cons, List.length_append]
  rfl

section

variable {bufferLen : UInt32} {room : Nat} {aces : List Smb2Ace}

/-- Where there is room for the bytes of the entries, nothing is written behind it. -/
theorem encodeAces_ne_undefined (hroom : bufferLen.toNat = room) (hsids : HaveSids aces)
    (hle : (acesBytes aces).length ≤ room) : encodeAces aces bufferLen room ≠ .error .undefined := by
  induction aces generalizing bufferLen room with
  | nil => simp [encodeAces]
  | cons ace aces ih =>
      obtain ⟨hsid, hrest⟩ := List.forall_mem_cons.mp hsids
      rw [length_acesBytes_cons] at hle
      rw [encodeAces]
      by_cases hsize : ace.aceSize.toNat ≤ room
      · rw [encodeAce_of_fits hroom hsid hsize (by omega)]
        have hnext := ih (toNat_sub_ofNat hroom (n := (aceBytes ace).length) (by omega)) hrest (by omega)
        simp only [Fault.annotate, ok_bind]
        exact bind_ne_undefined hnext fun rest _ => by simp
      · rw [encodeAce, if_pos (by omega)]
        exact bind_ne_undefined (annotate_ne_undefined (by simp)) fun first hfirst => by cases hfirst

/-- Where there is room for one more entry of any size, the entries are written. -/
theorem encodeAces_of_room (hroom : bufferLen.toNat = room) (hsids : HaveSids aces)
    (hle : (acesBytes aces).length + 65535 ≤ room) : encodeAces aces bufferLen room = .ok (acesBytes aces) := by
  induction aces generalizing bufferLen room with
  | nil => rfl
  | cons ace aces ih =>
      obtain ⟨hsid, hrest⟩ := List.forall_mem_cons.mp hsids
      have hlimit := ace.aceSize.toNat_lt
      rw [length_acesBytes_cons] at hle
      have hnext := ih (toNat_sub_ofNat hroom (n := (aceBytes ace).length) (by omega)) hrest (by omega)
      rw [encodeAces, encodeAce_of_fits hroom hsid (by omega) (by omega)]
      simp only [Fault.annotate, ok_bind, hnext]
      rfl

end

/-! ### Lists -/

section

variable {bufferLen : UInt32} {room : Nat} {acl : Smb2Acl}

theorem sumAceSizes_ne_undefined (limit : UInt16) (aces : List Smb2Ace) (start : UInt32) :
    sumAceSizes limit aces start ≠ .error .undefined := by
  induction aces generalizing start with
  | nil => simp [sumAceSizes]
  | cons ace aces ih =>
      simp only [sumAceSizes]
      split_ifs
      · simp
      · simp
      · exact ih _

theorem encodeAcl_ne_undefined (hroom : bufferLen.toNat = room) (hsids : HaveSids acl.aces)
    (hsize : 8 + aceSizes acl.aces ≤ room)
    (henough : acl.Accepted → (acesBytes acl.aces).length ≤ aceSizes acl.aces) :
    encodeAcl acl bufferLen room ≠ .error .undefined := by
  apply bind_ne_undefined (sumAceSizes_ne_undefined _ _ _)
  intro total htotal
  obtain ⟨-, hlimit⟩ := sumAceSizes_eq_ok (by decide) htotal
  have hsum := (sumAceSizes_eq_ok (by decide) htotal).1
  have hbytes := henough fun hne => hsum ▸ hlimit hne
  have hnext : (bufferLen - 8).toNat = room - 8 := toNat_sub_ofNat hroom (show 8 ≤ room by omega)
  split_ifs
  · simp
  · rw [emit_of_le (by rw [length_aclHeader]; omega), ok_bind]
    exact bind_ne_undefined (encodeAces_ne_undefined hnext hsids (by omega)) fun aces _ => by simp

theorem encodeAcl_of_room (hroom : bufferLen.toNat = room) (hsids : HaveSids acl.aces) (haccepted : acl.Accepted)
    (hsmall : 8 + aceSizes acl.aces ≤ 65535) (hle : 8 + (acesBytes acl.aces).length + 65535 ≤ room) :
    encodeAcl acl bufferLen room = .ok (aclBytes acl) := by
  have height : (8 : UInt32).toNat = 8 := rfl
  obtain ⟨total, hsum, htotal⟩ : ∃ total, sumAceSizes acl.aclSize acl.aces 8 = .ok total ∧
      total.toNat = (8 : UInt32).toNat + aceSizes acl.aces := by
    by_cases hne : acl.aces = []
    · rw [hne]
      exact ⟨8, rfl, rfl⟩
    · exact sumAceSizes_of_le (by rw [height]; exact haccepted hne)
  have hno : ¬ bufferLen < total := by
    rw [UInt32.not_lt, UInt32.le_iff_toNat_le]
    omega
  have hnext : (bufferLen - 8).toNat = room - 8 := toNat_sub_ofNat hroom (show 8 ≤ room by omega)
  rw [encodeAcl, hsum, ok_bind, if_neg hno, emit_of_le (by rw [length_aclHeader]; omega), ok_bind,
    encodeAces_of_room hnext hsids (by omega)]
  rfl

theorem toNat_smb2GetAclSize_of_lt (h : 8 + aceSizes acl.aces < 2 ^ 32) :
    (smb2GetAclSize acl).toNat = 8 + aceSizes acl.aces := by
  have hfold : ∀ (aces : List Smb2Ace) (start : UInt32), start.toNat + aceSizes aces < 2 ^ 32 →
      (aces.foldl (fun size ace => size + ace.aceSize.toUInt32) start).toNat =
        start.toNat + aceSizes aces := by
    intro aces
    induction aces with
    | nil => exact fun start _ => rfl
    | cons ace aces ih =>
        intro start hlt
        rw [aceSizes_cons] at hlt ⊢
        have hadd : (start + ace.aceSize.toUInt32).toNat = start.toNat + ace.aceSize.toNat := by
          rw [UInt32.toNat_add, UInt16.toNat_toUInt32, Nat.mod_eq_of_lt (by omega)]
        rw [List.foldl_cons, ih _ (by omega), hadd, Nat.add_assoc]
  exact hfold acl.aces 8 h

end

/-! ### Decoded descriptors -/

theorem sid_of_decodeAce {ace : Smb2Ace} {v : View} (h : decodeAce v = .ok ace)
    (hkind : aceKind ace.aceType ≠ .unknown) : ∃ sid, ace.sid = some sid := by
  rw [decodeAce] at h
  split_ifs at h
  iterate 3 obtain ⟨_, -, h⟩ := bind_eq_ok.mp h
  simp only at h
  split_ifs at h
  rw [decodeAceContent] at h
  split at h
  · obtain ⟨mask, -, h⟩ := bind_eq_ok.mp h
    split_ifs at h
    obtain ⟨sid, -, h⟩ := bind_eq_ok.mp h
    cases h
    exact ⟨sid, rfl⟩
  · split_ifs at h
    iterate 4 obtain ⟨_, -, h⟩ := bind_eq_ok.mp h
    obtain ⟨sid, -, h⟩ := bind_eq_ok.mp h
    cases h
    exact ⟨sid, rfl⟩
  · obtain ⟨mask, -, h⟩ := bind_eq_ok.mp h
    split_ifs at h
    obtain ⟨sid, -, h⟩ := bind_eq_ok.mp h
    obtain ⟨adData, -, h⟩ := bind_eq_ok.mp h
    cases h
    exact ⟨sid, rfl⟩
  · rename_i hunknown
    obtain ⟨rawData, -, h⟩ := bind_eq_ok.mp h
    cases h
    exact absurd hunknown hkind

/-- What an entry is encoded to is hardly longer than what the decoder saw of the list. -/
theorem length_aceBytes_le {ace : Smb2Ace} {v : View} (h : decodeAce v = .ok ace) :
    (aceBytes ace).length ≤ v.len + 1028 := by
  have hsid := length_sidPart_le ace.sid
  have hcontent := (decodeAce_eq_ok h).content
  rw [DecodedFrom] at hcontent
  rw [aceBytes]
  cases hkind : aceKind ace.aceType with
  | basic =>
      simp only [hkind] at hcontent
      obtain ⟨sid, -, -, hlen, -⟩ := hcontent
      simp only [List.length_append, length_aceMasked]
      omega
  | object =>
      simp only [hkind] at hcontent
      obtain ⟨sid, -, -, hlen, -⟩ := hcontent
      simp only [List.length_append, length_aceObject]
      omega
  | callback =>
      simp only [hkind] at hcontent
      simp only [List.length_append, length_aceMasked]
      omega
  | unknown =>
      simp only [hkind] at hcontent
      simp only [List.length_append, length_aceHeader]
      omega

section

variable {aces : List Smb2Ace} {count : Nat} {v : View}

/-- The entries of a list that are decoded one after the other. -/
theorem bounds_of_decodeAces (h : List.Forall₂ (fun ace w => decodeAce w = .ok ace) aces (aceViews count v)) :
    4 * aces.length ≤ aceSizes aces ∧ aceSizes aces ≤ 65535 * aces.length ∧
      (acesBytes aces).length ≤ aces.length * (v.len + 1028) ∧ HaveSids aces := by
  induction count generalizing aces v with
  | zero =>
      cases h
      exact ⟨Nat.zero_le _, Nat.zero_le _, Nat.zero_le _, fun ace hace => by cases hace⟩
  | succ count ih =>
      rw [aceViews] at h
      obtain _ | ⟨hace, hrest⟩ := h
      rename_i ace aces
      have hdecoded := decodeAce_eq_ok hace
      have hfour := hdecoded.four_le
      have hlimit := ace.aceSize.toNat_lt
      have hskip : (v.skip (aceLen v.buf)).len ≤ v.len := by
        rw [hdecoded.aceLen_eq, View.len_skip hdecoded.size_le]
        exact Nat.sub_le _ _
      obtain ⟨hcount, hsizes, hbytes, hsids⟩ := ih hrest
      have hbytes' : (acesBytes aces).length ≤ aces.length * (v.len + 1028) :=
        hbytes.trans (Nat.mul_le_mul_left _ (by omega))
      have hfirst := length_aceBytes_le hace
      rw [List.length_cons, aceSizes_cons, length_acesBytes_cons, Nat.add_one_mul aces.length]
      refine ⟨by omega, by omega, ?_, ?_⟩
      · calc (aceBytes ace).length + (acesBytes aces).length
            = (acesBytes aces).length + (aceBytes ace).length := Nat.add_comm _ _
          _ ≤ aces.length * (v.len + 1028) + (v.len + 1028) := Nat.add_le_add hbytes' hfirst
      · exact List.forall_mem_cons.mpr ⟨sid_of_decodeAce hace, hsids⟩

variable {acl : Smb2Acl}

theorem AclDecoded.bounds (h : AclDecoded acl v) : aceSizes acl.aces ≤ 65535 * 65535 ∧ HaveSids acl.aces := by
  obtain ⟨-, hsizes, -, hsids⟩ := bounds_of_decodeAces h.entries
  have hcount := acl.aceCount.toNat_lt
  rw [h.length] at hsizes
  exact ⟨by omega, hsids⟩

/-- A list that the encoder accepts fits in a buffer of half the size there can be. -/
theorem AclDecoded.length_lt (h : AclDecoded acl v) (haccepted : acl.Accepted) :
    8 + aceSizes acl.aces ≤ 65535 ∧ (acesBytes acl.aces).length < 2 ^ 31 := by
  obtain ⟨hcount, hsizes, hbytes, -⟩ := bounds_of_decodeAces h.entries
  have hlimit := acl.aclSize.toNat_lt
  by_cases hne : acl.aces = []
  · rw [hne]
    exact ⟨by decide, by decide⟩
  · have hsum := haccepted hne
    have hcut : (v.cut (aclLen v.buf)).len = acl.aclSize.toNat := by
      have hle := h.size_le
      rw [View.cut, ← h.size]
      split_ifs with hlong
      · rfl
      · omega
    have hlen : ((v.cut (aclLen v.buf)).skip 8).len ≤ 65527 := by
      rw [View.len_skip (by omega), hcut]
      omega
    have hmany : acl.aces.length * (((v.cut (aclLen v.buf)).skip 8).len + 1028) ≤ 16383 * (65527 + 1028) :=
      Nat.mul_le_mul (by omega) (by omega)
    exact ⟨by omega, (hbytes.trans hmany).trans_lt (by decide)⟩

end

/-- The size the encoder asks for, by the sizes the entries declare. -/
theorem toNat_secDescSize {sd : Smb2SecurityDescriptor} (h : ∀ acl ∈ sd.dacl, aceSizes acl.aces ≤ 65535 * 65535) :
    (smb2GetSecurityDescriptorSize sd).toNat = 20 + (sidPart sd.owner).length + (sidPart sd.group).length +
      sd.dacl.elim 0 fun acl => 8 + aceSizes acl.aces := by
  have howner := length_sidPart_le sd.owner
  have hgroup := length_sidPart_le sd.group
  have htwenty : (20 : UInt32).toNat = 20 := rfl
  have hdacl : (sd.dacl.elim 0 smb2GetAclSize).toNat = (sd.dacl.elim 0 fun acl => 8 + aceSizes acl.aces) ∧
      (sd.dacl.elim 0 fun acl => 8 + aceSizes acl.aces) ≤ 8 + 65535 * 65535 := by
    cases hsd : sd.dacl with
    | none => exact ⟨rfl, Nat.zero_le _⟩
    | some acl =>
        have hsizes := h acl hsd
        exact ⟨toNat_smb2GetAclSize_of_lt (by omega), Nat.add_le_add_left hsizes 8⟩
  rw [smb2GetSecurityDescriptorSize, UInt32.toNat_add, UInt32.toNat_add, UInt32.toNat_add, hdacl.1, toNat_sidSize,
    toNat_sidSize, htwenty]
  omega

/-- For every descriptor that was decoded: the encoder stays inside every buffer, and inside the size
it asks for, if and only if the entries of a list it accepts are together no longer than they declare. -/
theorem encodesInside_iff {b : Bytes} {sd : Smb2SecurityDescriptor} (h : smb2DecodeSecDescInternal b = .ok sd) :
    EncodesInside sd ↔ DeclaresEnough sd := by
  have hdecoded := smb2DecodeSecDescInternal_eq_ok h
  have hacl (acl : Smb2Acl) (hmem : sd.dacl = some acl) : ∃ v, AclDecoded acl v := by
    obtain ⟨v, -, hdecode⟩ := hdecoded.dacl.exists_view hmem
    exact ⟨v, decodeAcl_eq_ok hdecode⟩
  have hsizes : ∀ acl ∈ sd.dacl, aceSizes acl.aces ≤ 65535 * 65535 := by
    intro acl hmem
    obtain ⟨v, hv⟩ := hacl acl hmem
    exact hv.bounds.1
  have hasked := toNat_secDescSize hsizes
  have howner := length_sidPart_le sd.owner
  have hgroup := length_sidPart_le sd.group
  constructor
  · intro hinside acl hmem haccepted
    obtain ⟨v, hv⟩ := hacl acl hmem
    obtain ⟨hsmall, hshort⟩ := hv.length_lt haccepted
    rw [Option.mem_def.mp hmem, Option.elim_some] at hasked
    -- a buffer with room for everything
    obtain ⟨size, hsize⟩ : ∃ size : UInt32, size.toNat = 20 + (sidPart sd.owner).length + (sidPart sd.group).length +
        (8 + (acesBytes acl.aces).length + 65535) := ⟨_, toNat_ofNat_uint32 (by omega)⟩
    have hno : ¬ size < smb2GetSecurityDescriptorSize sd := by
      rw [UInt32.not_lt, UInt32.le_iff_toNat_le]
      omega
    have hroom : (size - UInt32.ofNat (20 + (sidPart sd.owner).length + (sidPart sd.group).length)).toNat =
        size.toNat - (20 + (sidPart sd.owner).length + (sidPart sd.group).length) :=
      toNat_sub_ofNat rfl (by omega)
    have hencode := encodeAcl_of_room hroom hv.bounds.2 haccepted hsmall (by omega)
    have hall := smb2EncodeSecurityDescriptor_eq hno (by omega)
    rw [Option.mem_def.mp hmem, encodePart, hencode] at hall
    obtain ⟨-, hreported⟩ := hinside.reported size _ hall
    simp only [List.length_append, length_secDescHeader, aclBytes, length_aclHeader] at hreported
    omega
  · intro henough
    have hdefined (size : UInt32) : smb2EncodeSecurityDescriptor sd size ≠ .error .undefined := by
      by_cases hno : size < smb2GetSecurityDescriptorSize sd
      · rw [smb2EncodeSecurityDescriptor, if_pos hno]
        simp
      · have hle := hno
        rw [UInt32.not_lt, UInt32.le_iff_toNat_le] at hle
        rw [smb2EncodeSecurityDescriptor_eq hno (by omega)]
        refine bind_ne_undefined ?_ fun dacl _ => by simp
        cases hmem : sd.dacl with
        | none => simp [encodePart]
        | some acl =>
            obtain ⟨v, hv⟩ := hacl acl hmem
            rw [hmem, Option.elim_some] at hasked
            apply annotate_ne_undefined
            exact encodeAcl_ne_undefined (toNat_sub_ofNat rfl (by omega)) hv.bounds.2 (by omega) (henough acl hmem)
    refine ⟨hdefined, fun size out hout => ?_⟩
    obtain ⟨rfl, haccepted⟩ := smb2EncodeSecurityDescriptor_eq_ok hout
    have hle : ¬ size < smb2GetSecurityDescriptorSize sd := by
      intro hlt
      rw [smb2EncodeSecurityDescriptor, if_pos hlt] at hout
      cases hout
    rw [UInt32.not_lt, UInt32.le_iff_toNat_le] at hle
    suffices hlength : (secDescBytes sd).length ≤ (smb2GetSecurityDescriptorSize sd).toNat from
      ⟨hlength.trans hle, hlength⟩
    rw [length_secDescBytes, hasked]
    cases hmem : sd.dacl with
    | none => exact le_refl _
    | some acl =>
        have hbytes := henough acl hmem (haccepted acl hmem)
        simp only [Option.elim_some, aclBytes, List.length_append, length_aclHeader]
        omega

/-- With padding the entry declares more than is written of it. -/
theorem encodesInside_sentDescriptor :
    ∃ sd, smb2DecodeSecDescInternal (sentDescriptor [0, 0]) = .ok sd ∧ EncodesInside sd := by
  have henough : (smb2DecodeSecDescInternal (sentDescriptor [0, 0])).toOption.any (fun sd =>
      sd.dacl.all fun acl => (acesBytes acl.aces).length ≤ aceSizes acl.aces) = true := by decide
  cases hdecode : smb2DecodeSecDescInternal (sentDescriptor [0, 0]) with
  | error e =>
      rw [hdecode] at henough
      cases henough
  | ok sd =>
      rw [hdecode] at henough
      refine ⟨sd, rfl, (encodesInside_iff hdecode).mpr fun acl hmem _ => ?_⟩
      exact of_decide_eq_true ((Option.all_eq_true _ _).mp henough acl hmem)

/-- A descriptor with a list of one conditional entry, whose SID nothing follows. -/
def conditionalDescriptor : Bytes :=
  [1, 0, 4, 0x80] ++ leBytes 4 0 ++ leBytes 4 0 ++ leBytes 4 0 ++ leBytes 4 20 ++
    ([2, 0] ++ leBytes 2 32 ++ leBytes 2 1 ++ [0, 0]) ++
    ([9, 0] ++ leBytes 2 24 ++ leBytes 4 0x1F01FF ++ sidBytes administrators)

/-- The decoder takes the SID for data of the application as well, so the encoder writes it twice, the
second time behind a buffer of the size it asks for. -/
theorem not_encodesInside_conditional :
    ∃ sd, smb2DecodeSecDescInternal conditionalDescriptor = .ok sd ∧
      smb2EncodeSecurityDescriptor sd (smb2GetSecurityDescriptorSize sd) = .error .undefined ∧
      ¬ EncodesInside sd := by
  have hundefined : (match smb2DecodeSecDescInternal conditionalDescriptor with
      | .ok sd => decide (smb2EncodeSecurityDescriptor sd (smb2GetSecurityDescriptorSize sd) = .error .undefined)
      | .error _ => false) = true := by decide
  cases hdecode : smb2DecodeSecDescInternal conditionalDescriptor with
  | error e =>
      rw [hdecode] at hundefined
      cases hundefined
  | ok sd =>
      rw [hdecode] at hundefined
      have hfault := of_decide_eq_true hundefined
      exact ⟨sd, rfl, hfault, fun h => h.defined _ hfault⟩

end CodeStudy.Samba
