import CodeStudy.Samba.Security.RoundTrip

/-!
# Encoding what a server sent

The client hands its caller a security descriptor in the self-relative form, which it makes anew
from the decoded one. A server chooses the layout: entries may be padded, and the encoder writes an
entry without its padding but keeps the sizes of the server. The new bytes say the same as the old
ones exactly when every entry fills its size.
-/

namespace CodeStudy.Samba

/-! ### What a successful decoding says about the bytes -/

theorem decodeSid_eq_ok {v : View} {sid : Smb2Sid} (h : decodeSid v = .ok sid) :
    sid.revision = 1 ∧ sid.size ≤ v.len ∧ v.buf = sidBytes sid ++ v.buf.drop sid.size := by
  rw [decodeSid] at h
  split_ifs at h with hshort
  obtain ⟨revision, hrevision, h⟩ := bind_eq_ok.mp h
  split_ifs at h with hone
  obtain ⟨count, hcount, h⟩ := bind_eq_ok.mp h
  split_ifs at h with hlen
  obtain ⟨idAuth, hid, h⟩ := bind_eq_ok.mp h
  obtain ⟨subAuth, hwords, h⟩ := bind_eq_ok.mp h
  cases h
  rw [not_not] at hone
  subst hone
  have hnum : (UInt8.ofNat count).toNat = subAuth.1.length := subAuth.2.symm
  obtain ⟨hbuf₀, -⟩ := View.drop_get hrevision (by omega)
  obtain ⟨hbuf₁, -⟩ := View.drop_get hcount (by omega)
  have hbuf₂ := View.drop_copy hid
  have hbuf₃ := View.drop_words hwords (by omega)
  have hbyte : UInt8.ofNat subAuth.1.length = UInt8.ofNat count := by
    rw [← hnum, UInt8.ofNat_toNat]
  refine ⟨rfl, by simp only [Smb2Sid.size]; omega, ?_⟩
  simp only [Smb2Sid.size, sidBytes, hbyte]
  calc v.buf = leBytes 1 1 ++ (leBytes 1 count ++ (idAuth.1 ++ v.buf.drop 8)) := by
        rw [← hbuf₂, ← hbuf₁, ← hbuf₀, List.drop_zero]
    _ = _ := by
        rw [hbuf₃, subAuth.2]
        simp only [List.append_assoc]
        rfl

/-- What the view of an entry was, by the layout of the entry. -/
def DecodedFrom (ace : Smb2Ace) (v : View) : Prop :=
  match aceKind ace.aceType with
  | .basic =>
      ∃ sid, ace.sid = some sid ∧ sid.revision = 1 ∧ 8 + sid.size ≤ v.len ∧
        v.buf = aceMasked ace ++ sidBytes sid ++ v.buf.drop (8 + sid.size)
  | .object =>
      ∃ sid, ace.sid = some sid ∧ sid.revision = 1 ∧ 44 + sid.size ≤ v.len ∧
        v.buf = aceObject ace ++ sidBytes sid ++ v.buf.drop (44 + sid.size)
  | .callback => 8 + ace.adData.length = v.len
  | .unknown => 4 + ace.rawData.length = v.len

/-- A mask and a SID behind it, as they were read. -/
theorem masked_eq_ok {v : View} {mask : Nat} {sid : Smb2Sid} (hmask : v.get 4 0 0 = .ok mask)
    (hfour : 4 ≤ v.len) (hsid : decodeSid (v.skip 4) = .ok sid) :
    (UInt32.ofNat mask).toNat = mask ∧ sid.revision = 1 ∧ 4 + sid.size ≤ v.len ∧
      v.buf = leBytes 4 mask ++ sidBytes sid ++ v.buf.drop (4 + sid.size) := by
  obtain ⟨hbuf, hlt⟩ := View.drop_get hmask (by omega)
  obtain ⟨hrevision, hlen, hrest⟩ := decodeSid_eq_ok hsid
  rw [View.len_skip hfour] at hlen
  refine ⟨toNat_ofNat_uint32 hlt, hrevision, by omega, ?_⟩
  rw [View.skip, List.drop_drop] at hrest
  rw [List.append_assoc, ← hrest]
  exact hbuf

theorem length_of_copyRest {v : View} {msg : String} {bytes : Bytes} (h : copyRest v msg = .ok bytes) :
    bytes.length = v.len := by
  rw [copyRest] at h
  split_ifs at h
  obtain ⟨copied, -, h⟩ := bind_eq_ok.mp h
  cases h
  exact copied.2

theorem decodeAceContent_eq_ok {head ace : Smb2Ace} {v : View} (hhead : head = head.header)
    (hbuf : v.buf = aceHeader head ++ v.buf.drop 4) (hfour : 4 ≤ v.len)
    (h : decodeAceContent head (v.skip 4) = .ok ace) :
    ace.normalize = ace ∧ ace.header = head ∧ DecodedFrom ace v := by
  have hlen := View.len_skip hfour
  have hskip : (v.skip 4).buf = v.buf.drop 4 := rfl
  obtain ⟨aceType, aceFlags, aceSize, _, _, _, _, _, _, _⟩ := head
  cases hhead
  rw [decodeAceContent] at h
  cases hkind : aceKind aceType with
  | basic =>
      simp only [hkind] at h
      obtain ⟨mask, hmask, h⟩ := bind_eq_ok.mp h
      split_ifs at h with hshort
      obtain ⟨sid, hsid, h⟩ := bind_eq_ok.mp h
      cases h
      obtain ⟨hvalue, hrevision, hfits, hrest⟩ :=
        masked_eq_ok hmask (by omega) (Fault.annotate_eq_ok.mp hsid)
      simp only [Smb2Ace.normalize, Smb2Ace.header, DecodedFrom, hkind, true_and]
      refine ⟨sid, rfl, hrevision, by omega, ?_⟩
      rw [hskip, List.drop_drop, ← Nat.add_assoc] at hrest
      calc v.buf = _ := hbuf
        _ = _ := by
            rw [hrest, aceMasked, hvalue]
            simp only [List.append_assoc]
            rfl
  | object =>
      simp only [hkind] at h
      split_ifs at h with hshort
      obtain ⟨mask, hmask, h⟩ := bind_eq_ok.mp h
      obtain ⟨flags, hflags, h⟩ := bind_eq_ok.mp h
      obtain ⟨objectType, hobject, h⟩ := bind_eq_ok.mp h
      obtain ⟨inheritedObjectType, hinherited, h⟩ := bind_eq_ok.mp h
      obtain ⟨sid, hsid, h⟩ := bind_eq_ok.mp h
      cases h
      have hlen₁ := View.len_skip (v := v.skip 4) (n := 4) (by omega)
      have hlen₂ := View.len_skip (v := (v.skip 4).skip 4) (n := 4) (by omega)
      have hlen₃ := View.len_skip (v := ((v.skip 4).skip 4).skip 4) (n := 16) (by omega)
      have hlen₄ := View.len_skip (v := (((v.skip 4).skip 4).skip 4).skip 16) (n := 16) (by omega)
      obtain ⟨hbuf₁, hmasklt⟩ := View.drop_get hmask (by omega)
      obtain ⟨hbuf₂, hflagslt⟩ := View.drop_get hflags (by omega)
      have hbuf₃ := View.drop_copy hobject
      have hbuf₄ := View.drop_copy hinherited
      obtain ⟨hrevision, hfits, hbuf₅⟩ := decodeSid_eq_ok (Fault.annotate_eq_ok.mp hsid)
      simp only [View.skip, List.drop_drop, Nat.add_zero] at hbuf₁ hbuf₂ hbuf₃ hbuf₄ hbuf₅
      simp only [Smb2Ace.normalize, Smb2Ace.header, DecodedFrom, hkind, true_and]
      refine ⟨sid, rfl, hrevision, by omega, ?_⟩
      calc v.buf = _ := hbuf
        _ = _ := by
            rw [hbuf₁, hbuf₂, hbuf₃, hbuf₄, hbuf₅, aceObject, aceMasked, toNat_ofNat_uint32 hmasklt,
              toNat_ofNat_uint32 hflagslt]
            simp only [List.append_assoc]
            rfl
  | callback =>
      simp only [hkind] at h
      obtain ⟨mask, hmask, h⟩ := bind_eq_ok.mp h
      split_ifs at h with hshort
      obtain ⟨sid, hsid, h⟩ := bind_eq_ok.mp h
      obtain ⟨adData, had, h⟩ := bind_eq_ok.mp h
      cases h
      have hlen₁ := View.len_skip (v := v.skip 4) (n := 4) (by omega)
      have hdata := length_of_copyRest had
      simp only [Smb2Ace.normalize, Smb2Ace.header, DecodedFrom, hkind, true_and]
      omega
  | unknown =>
      simp only [hkind] at h
      obtain ⟨rawData, hraw, h⟩ := bind_eq_ok.mp h
      cases h
      have hdata := length_of_copyRest hraw
      simp only [Smb2Ace.normalize, Smb2Ace.header, DecodedFrom, hkind, true_and]
      omega

/-- What is known of an entry that was decoded. -/
structure AceDecoded (ace : Smb2Ace) (v : View) : Prop where
  normal : ace.normalize = ace
  header : v.buf = aceHeader ace ++ v.buf.drop 4
  four_le : 4 ≤ ace.aceSize.toNat
  size_le : ace.aceSize.toNat ≤ v.len
  content : DecodedFrom ace v

theorem decodeAce_eq_ok {v : View} {ace : Smb2Ace} (h : decodeAce v = .ok ace) : AceDecoded ace v := by
  rw [decodeAce] at h
  split_ifs at h with hshort
  obtain ⟨aceType, htype, h⟩ := bind_eq_ok.mp h
  obtain ⟨aceFlags, hflags, h⟩ := bind_eq_ok.mp h
  obtain ⟨aceSize, hsize, h⟩ := bind_eq_ok.mp h
  simp only at h
  split_ifs at h with hfour hlen
  obtain ⟨hbuf₀, -⟩ := View.drop_get htype (by omega)
  obtain ⟨hbuf₁, -⟩ := View.drop_get hflags (by omega)
  obtain ⟨hbuf₂, hlt⟩ := View.drop_get hsize (by omega)
  have hfield : (UInt16.ofNat aceSize).toNat = aceSize := UInt16.toNat_ofNat_of_lt' hlt
  have hbuf : v.buf = [UInt8.ofNat aceType, UInt8.ofNat aceFlags] ++
      leBytes 2 (UInt16.ofNat aceSize).toNat ++ v.buf.drop 4 := by
    calc v.buf = leBytes 1 aceType ++ (leBytes 1 aceFlags ++ (leBytes 2 aceSize ++ v.buf.drop 4)) := by
          rw [← hbuf₂, ← hbuf₁, ← hbuf₀, List.drop_zero]
      _ = _ := by
          rw [hfield]
          rfl
  obtain ⟨hnormal, hheader, hcontent⟩ := decodeAceContent_eq_ok rfl hbuf (not_lt.mp hshort) h
  have hbytes : aceHeader ace = aceHeader ace.header := rfl
  have hace : ace.aceSize = ace.header.aceSize := rfl
  refine ⟨hnormal, ?_, ?_, ?_, hcontent⟩
  · rw [hbytes, hheader]
    exact hbuf
  · rw [hace, hheader]
    exact not_lt.mp hfour
  · rw [hace, hheader]
    exact not_lt.mp hlen

/-! ### Entries -/

/-- The size in the header of an entry. -/
def aceLen (b : Bytes) : Nat := leNat ((b.drop 2).take 2)

/-- The bytes behind the size of an entry have no influence on how it is decoded. -/
def DecodesLocally (v : View) : Prop :=
  ∀ tail, decodeAce (View.of (v.buf.take (aceLen v.buf) ++ tail)) = decodeAce v

/-- An entry that ends with a SID, and its size is the size of the header and of that SID. -/
def TightAce (b : Bytes) : Prop :=
  match aceKind (b.headD 0) with
  | .basic => aceLen b = 16 + 4 * (b.getD 9 0).toNat
  | .object => aceLen b = 52 + 4 * (b.getD 45 0).toNat
  | .callback | .unknown => False

/-- The same, said of the decoded entry. -/
structure Smb2Ace.Tight (ace : Smb2Ace) : Prop where
  kind : aceKind ace.aceType = .basic ∨ aceKind ace.aceType = .object
  size : ace.aceSize.toNat = (aceBytes ace).length

section

variable {v : View} {ace : Smb2Ace}

theorem AceDecoded.aceLen_eq (h : AceDecoded ace v) : aceLen v.buf = ace.aceSize.toNat := by
  rw [aceLen, h.header, aceHeader, List.append_assoc]
  show leNat (List.take 2 (leBytes 2 ace.aceSize.toNat ++ _)) = _
  rw [List.take_left' (length_leBytes 2 _), leNat_leBytes_of_lt ace.aceSize.toNat_lt]

theorem AceDecoded.headD_eq (h : AceDecoded ace v) : v.buf.headD 0 = ace.aceType := by
  rw [h.header]
  rfl

/-- The byte of a SID that counts its sub-authorities, behind some bytes. -/
theorem getD_sidBytes (pre : Bytes) (sid : Smb2Sid) (post : Bytes) {n : Nat} (hn : pre.length + 1 = n) :
    ((pre ++ sidBytes sid ++ post).getD n 0).toNat = sid.subAuth.length := by
  have hbyte : (UInt8.ofNat sid.subAuth.length).toNat = sid.subAuth.length :=
    UInt8.toNat_ofNat_of_lt' sid.count_lt
  rw [← hn, List.append_assoc, List.getD_eq_getElem?_getD, List.getElem?_append_right (by omega),
    Nat.add_sub_cancel_left]
  exact hbyte

theorem AceDecoded.tightAce_iff (h : AceDecoded ace v) : TightAce v.buf ↔ ace.Tight := by
  have hcontent := h.content
  rw [TightAce, h.headD_eq, h.aceLen_eq]
  rw [DecodedFrom] at hcontent
  cases hkind : aceKind ace.aceType with
  | basic =>
      simp only [hkind] at hcontent
      obtain ⟨sid, hsid, -, -, hbuf⟩ := hcontent
      have hcount : (v.buf.getD 9 0).toNat = sid.subAuth.length := by
        rw [hbuf]
        exact getD_sidBytes _ sid _ (by rw [length_aceMasked])
      have hbytes : (aceBytes ace).length = 16 + 4 * sid.subAuth.length := by
        simp only [aceBytes, hkind, hsid, sidPart, Option.elim, List.length_append, length_aceMasked,
          length_sidBytes, Smb2Sid.size]
        omega
      rw [hcount, ← hbytes]
      exact ⟨fun hsize => ⟨.inl hkind, hsize⟩, fun htight => htight.size⟩
  | object =>
      simp only [hkind] at hcontent
      obtain ⟨sid, hsid, -, -, hbuf⟩ := hcontent
      have hcount : (v.buf.getD 45 0).toNat = sid.subAuth.length := by
        rw [hbuf]
        exact getD_sidBytes _ sid _ (by rw [length_aceObject])
      have hbytes : (aceBytes ace).length = 52 + 4 * sid.subAuth.length := by
        simp only [aceBytes, hkind, hsid, sidPart, Option.elim, List.length_append, length_aceObject,
          length_sidBytes, Smb2Sid.size]
        omega
      rw [hcount, ← hbytes]
      exact ⟨fun hsize => ⟨.inr hkind, hsize⟩, fun htight => htight.size⟩
  | callback | unknown =>
      simp only [false_iff]
      rintro ⟨hbad | hbad, -⟩ <;> rw [hkind] at hbad <;> cases hbad

/-- An entry that is decoded by its own bytes alone ends with a SID, and the SID is inside. -/
theorem bytes_le_of_decodesLocally (h : decodeAce v = .ok ace) (hlocal : DecodesLocally v) :
    (aceKind ace.aceType = .basic ∨ aceKind ace.aceType = .object) ∧
      (aceBytes ace).length ≤ ace.aceSize.toNat := by
  have hlen := (decodeAce_eq_ok h).aceLen_eq
  have hown (tail : Bytes) : AceDecoded ace (View.of (v.buf.take ace.aceSize.toNat ++ tail)) := by
    rw [← hlen]
    exact decodeAce_eq_ok ((hlocal tail).trans h)
  have hle := (hown []).size_le
  have hlength : (v.buf.take ace.aceSize.toNat).length = ace.aceSize.toNat := by
    rw [List.append_nil, View.len_of] at hle
    exact le_antisymm (List.length_take_le _ _) hle
  have hcontent := (hown []).content
  -- with one byte more behind it, the data of a variable tail would have one byte more
  have hcontent' := (hown [0]).content
  simp only [DecodedFrom, View.len_of, List.length_append, hlength, List.length_nil, List.length_singleton,
    Nat.add_zero] at hcontent hcontent'
  cases hkind : aceKind ace.aceType with
  | basic =>
      simp only [hkind] at hcontent
      obtain ⟨sid, hsid, -, hfits, -⟩ := hcontent
      refine ⟨.inl rfl, ?_⟩
      simpa only [aceBytes, hkind, hsid, sidPart, Option.elim, List.length_append, length_aceMasked,
        length_sidBytes] using hfits
  | object =>
      simp only [hkind] at hcontent
      obtain ⟨sid, hsid, -, hfits, -⟩ := hcontent
      refine ⟨.inr rfl, ?_⟩
      simpa only [aceBytes, hkind, hsid, sidPart, Option.elim, List.length_append, length_aceObject,
        length_sidBytes] using hfits
  | callback | unknown =>
      simp only [hkind] at hcontent hcontent'
      omega

/-- Sizes, contents and SID of an entry that fills its size. -/
theorem AceDecoded.agrees (h : AceDecoded ace v) (htight : ace.Tight) : ace.Agrees := by
  have hcontent := h.content
  rw [DecodedFrom] at hcontent
  refine ⟨htight.size, fun _ => ?_⟩
  rcases htight.kind with hkind | hkind
  all_goals
    simp only [hkind] at hcontent
    obtain ⟨sid, hsid, hrevision, -⟩ := hcontent
    exact ⟨sid, hsid, hrevision⟩

theorem decodesLocally_of_tight (h : decodeAce v = .ok ace) (htight : ace.Tight) : DecodesLocally v := by
  have hdecoded := decodeAce_eq_ok h
  have hcontent := hdecoded.content
  have hfour := hdecoded.four_le
  have hsize := htight.size
  intro tail
  rw [hdecoded.aceLen_eq, h, hsize]
  rw [DecodedFrom] at hcontent
  rcases htight.kind with hkind | hkind
  · simp only [hkind] at hcontent
    obtain ⟨sid, hsid, hrevision, -, hbuf⟩ := hcontent
    have hbytes : aceBytes ace = aceMasked ace ++ sidBytes sid := by
      simp only [aceBytes, hkind, hsid, sidPart, Option.elim]
    rw [hbytes, List.length_append, length_aceMasked, length_sidBytes] at hsize
    have hlen : (View.of (aceMasked ace ++ sidBytes sid ++ tail)).len = 8 + sid.size + tail.length := by
      simp [Nat.add_assoc]
    rw [hbytes, hbuf, List.take_left, decodeAce_basic hkind hsid hrevision rfl hfour (by omega) (by omega),
      hdecoded.normal]
  · simp only [hkind] at hcontent
    obtain ⟨sid, hsid, hrevision, -, hbuf⟩ := hcontent
    have hbytes : aceBytes ace = aceObject ace ++ sidBytes sid := by
      simp only [aceBytes, hkind, hsid, sidPart, Option.elim]
    rw [hbytes, List.length_append, length_aceObject, length_sidBytes] at hsize
    have hlen : (View.of (aceObject ace ++ sidBytes sid ++ tail)).len = 44 + sid.size + tail.length := by
      simp [Nat.add_assoc]
    rw [hbytes, hbuf, List.take_left, decodeAce_object hkind hsid hrevision rfl hfour (by omega) (by omega),
      hdecoded.normal]

end

/-! ### Lists of entries -/

/-- Where the decoder looks for entries, each as far behind the one before it as its size says. -/
def aceViews : Nat → View → List View
  | 0, _ => []
  | count + 1, v => v :: aceViews count (v.skip (aceLen v.buf))

theorem length_aceViews (count : Nat) (v : View) : (aceViews count v).length = count := by
  induction count generalizing v with
  | zero => rfl
  | succ count ih => rw [aceViews, List.length_cons, ih]

theorem decodeAces_eq_ok {index count : Nat} {v : View} {aces : List Smb2Ace}
    (h : decodeAces index count v = .ok aces) :
    List.Forall₂ (fun ace v => decodeAce v = .ok ace) aces (aceViews count v) := by
  induction count generalizing index v aces with
  | zero =>
      cases h
      exact .nil
  | succ count ih =>
      obtain ⟨ace, hace, h⟩ := bind_eq_ok.mp h
      split_ifs at h
      obtain ⟨rest, hrest, h⟩ := bind_eq_ok.mp h
      cases h
      have hdecode := Fault.annotate_eq_ok.mp hace
      rw [← (decodeAce_eq_ok hdecode).aceLen_eq] at hrest
      exact .cons hdecode (ih hrest)

section

variable {aces : List Smb2Ace} {views : List View}

theorem sum_aceLen (h : List.Forall₂ (fun ace v => decodeAce v = .ok ace) aces views) :
    (views.map fun v => aceLen v.buf).sum = aceSizes aces := by
  induction h with
  | nil => rfl
  | cons hdecode _ ih =>
      rw [List.map_cons, List.sum_cons, aceSizes_cons, ih, (decodeAce_eq_ok hdecode).aceLen_eq]

theorem tightAces_iff (h : List.Forall₂ (fun ace v => decodeAce v = .ok ace) aces views) :
    (∀ v ∈ views, TightAce v.buf) ↔ ∀ ace ∈ aces, ace.Tight := by
  induction h with
  | nil => simp
  | cons hdecode _ ih =>
      rw [List.forall_mem_cons, List.forall_mem_cons, ih, (decodeAce_eq_ok hdecode).tightAce_iff]

theorem bytes_le_of_decodeLocally (h : List.Forall₂ (fun ace v => decodeAce v = .ok ace) aces views)
    (hlocal : ∀ v ∈ views, DecodesLocally v) : ∀ ace ∈ aces,
      (aceKind ace.aceType = .basic ∨ aceKind ace.aceType = .object) ∧
        (aceBytes ace).length ≤ ace.aceSize.toNat := by
  induction h with
  | nil => simp
  | cons hdecode _ ih =>
      obtain ⟨hfirst, hrest⟩ := List.forall_mem_cons.mp hlocal
      exact List.forall_mem_cons.mpr ⟨bytes_le_of_decodesLocally hdecode hfirst, ih hrest⟩

theorem decodeLocally_of_tight (h : List.Forall₂ (fun ace v => decodeAce v = .ok ace) aces views)
    (htight : ∀ ace ∈ aces, ace.Tight) : ∀ v ∈ views, DecodesLocally v := by
  induction h with
  | nil => simp
  | cons hdecode _ ih =>
      obtain ⟨hfirst, hrest⟩ := List.forall_mem_cons.mp htight
      exact List.forall_mem_cons.mpr ⟨decodesLocally_of_tight hdecode hfirst, ih hrest⟩

/-- Entries that were decoded and fill their sizes agree with themselves and have no other fields. -/
theorem agree_of_tight (h : List.Forall₂ (fun ace v => decodeAce v = .ok ace) aces views)
    (htight : ∀ ace ∈ aces, ace.Tight) : ∀ ace ∈ aces, ace.Agrees ∧ ace.normalize = ace := by
  induction h with
  | nil => simp
  | cons hdecode _ ih =>
      obtain ⟨hfirst, hrest⟩ := List.forall_mem_cons.mp htight
      have hdecoded := decodeAce_eq_ok hdecode
      exact List.forall_mem_cons.mpr ⟨⟨hdecoded.agrees hfirst, hdecoded.normal⟩, ih hrest⟩

end

theorem readableAces_of_tight {aces : List Smb2Ace} (h : ∀ ace ∈ aces, ace.Tight) : ReadableAces aces := by
  induction aces with
  | nil => trivial
  | cons ace aces ih =>
      obtain ⟨hfirst, hrest⟩ := List.forall_mem_cons.mp h
      exact ⟨hfirst.kind.imp_right Or.inl, ih hrest⟩

/-- Entries that are not longer than their sizes fill them when the sums agree. -/
theorem size_eq_of_sums {aces : List Smb2Ace}
    (hle : ∀ ace ∈ aces, (aceBytes ace).length ≤ ace.aceSize.toNat)
    (hsum : aceSizes aces ≤ (acesBytes aces).length) :
    ∀ ace ∈ aces, ace.aceSize.toNat = (aceBytes ace).length := by
  induction aces with
  | nil => simp
  | cons ace aces ih =>
      obtain ⟨hfirst, hrest⟩ := List.forall_mem_cons.mp hle
      have hrest_le : (acesBytes aces).length ≤ aceSizes aces := by
        rw [acesBytes, List.length_flatMap, aceSizes]
        exact List.sum_le_sum hrest
      have hbytes : (acesBytes (ace :: aces)).length = (aceBytes ace).length + (acesBytes aces).length := by
        rw [acesBytes, List.flatMap_cons, List.length_append]
        rfl
      rw [aceSizes_cons, hbytes] at hsum
      exact List.forall_mem_cons.mpr ⟨by omega, ih hrest (by omega)⟩

/-! ### The list of a descriptor -/

/-- The size in the header of a list. -/
def aclLen (b : Bytes) : Nat := leNat ((b.drop 2).take 2)

/-- The count of entries in the header of a list. -/
def aclCount (b : Bytes) : Nat := leNat ((b.drop 4).take 2)

/-- Where the decoder looks for the entries of a list. -/
def entriesOf (v : View) : List View := aceViews (aclCount v.buf) ((v.cut (aclLen v.buf)).skip 8)

/-- A list with entries, which all end with a SID, fill their sizes and make up the size of the list. -/
structure TightAcl (v : View) : Prop where
  count : aclCount v.buf ≠ 0
  entries : ∀ w ∈ entriesOf v, TightAce w.buf
  size : 8 + ((entriesOf v).map fun w => aceLen w.buf).sum = aclLen v.buf

/-- What is known of a list that was decoded. -/
structure AclDecoded (acl : Smb2Acl) (v : View) : Prop where
  revision : acl.revision = 2 ∨ acl.revision = 4
  size : acl.aclSize.toNat = aclLen v.buf
  count : acl.aceCount.toNat = aclCount v.buf
  size_le : acl.aclSize.toNat ≤ v.len
  entries : List.Forall₂ (fun ace w => decodeAce w = .ok ace) acl.aces (entriesOf v)

theorem decodeAcl_eq_ok {v : View} {acl : Smb2Acl} (h : decodeAcl v = .ok acl) : AclDecoded acl v := by
  rw [decodeAcl] at h
  split_ifs at h with hshort
  obtain ⟨revision, hrevision, h⟩ := bind_eq_ok.mp h
  obtain ⟨aclSize, hsize, h⟩ := bind_eq_ok.mp h
  obtain ⟨aceCount, hcount, h⟩ := bind_eq_ok.mp h
  split_ifs at h with hknown hlen
  obtain ⟨aces, haces, h⟩ := bind_eq_ok.mp h
  cases h
  have hsizelt : aclSize < 2 ^ 16 := (View.drop_get hsize (by omega)).2
  have hcountlt : aceCount < 2 ^ 16 := (View.drop_get hcount (by omega)).2
  have hsize' := View.eq_leNat_of_get hsize (by omega)
  have hcount' := View.eq_leNat_of_get hcount (by omega)
  have hle : aclSize ≤ v.len := by
    rw [View.cut] at hlen
    split_ifs at hlen with hcut
    · exact hcut.le
    · exact not_lt.mp hlen
  have hentries := decodeAces_eq_ok haces
  refine ⟨?_, ?_, ?_, ?_, ?_⟩
  · by_cases htwo : revision = 2
    · exact .inl (by rw [htwo]; rfl)
    · by_cases hfour : revision = 4
      · exact .inr (by rw [hfour]; rfl)
      · exact absurd ⟨htwo, hfour⟩ hknown
  · exact (UInt16.toNat_ofNat_of_lt' hsizelt).trans hsize'
  · exact (UInt16.toNat_ofNat_of_lt' hcountlt).trans hcount'
  · exact (UInt16.toNat_ofNat_of_lt' hsizelt).trans_le hle
  · rw [entriesOf, aclLen, aclCount, ← hsize', ← hcount']
    exact hentries

section

variable {v : View} {acl : Smb2Acl}

theorem AclDecoded.length (h : AclDecoded acl v) : acl.aces.length = acl.aceCount.toNat := by
  rw [h.entries.length_eq, entriesOf, length_aceViews, h.count]

theorem AclDecoded.tightAcl_iff (h : AclDecoded acl v) : TightAcl v ↔
    acl.aces ≠ [] ∧ (∀ ace ∈ acl.aces, ace.Tight) ∧ 8 + aceSizes acl.aces = acl.aclSize.toNat := by
  have hcount : aclCount v.buf ≠ 0 ↔ acl.aces ≠ [] := by
    rw [← h.count, ← h.length, ne_eq, List.length_eq_zero_iff]
  constructor
  · intro htight
    refine ⟨hcount.mp htight.count, (tightAces_iff h.entries).mp htight.entries, ?_⟩
    rw [← sum_aceLen h.entries, h.size]
    exact htight.size
  · rintro ⟨hne, hentries, hsize⟩
    refine ⟨hcount.mpr hne, (tightAces_iff h.entries).mpr hentries, ?_⟩
    rw [sum_aceLen h.entries, ← h.size]
    exact hsize

theorem AclDecoded.agrees (h : AclDecoded acl v) (htight : TightAcl v) :
    acl.Agrees ∧ acl.normalize = acl := by
  obtain ⟨-, hentries, hsize⟩ := h.tightAcl_iff.mp htight
  have hagree := agree_of_tight h.entries hentries
  refine ⟨⟨h.revision, hsize.symm, h.length.symm, fun ace hace => (hagree ace hace).1⟩, ?_⟩
  have hmap : acl.aces.map Smb2Ace.normalize = acl.aces :=
    (List.map_congr_left fun ace hace => (hagree ace hace).2).trans (List.map_id' _)
  rw [Smb2Acl.normalize, hmap]

end

/-! ### The descriptor -/

/-- An offset in the header of a descriptor. -/
def descriptorOffset (b : Bytes) (field : Nat) : UInt32 := UInt32.ofNat (leNat ((b.drop field).take 4))

def ownerAt (b : Bytes) : Option View := partAt b (descriptorOffset b 4)

def groupAt (b : Bytes) : Option View := partAt b (descriptorOffset b 8)

def daclAt (b : Bytes) : Option View := partAt b (descriptorOffset b 16)

/-- The layout of a descriptor that the client can make again: a tight list or, when there is none, a
SID with sub-authorities as the last part. -/
structure TightDescriptor (b : Bytes) : Prop where
  dacl : ∀ v ∈ daclAt b, TightAcl v
  group : daclAt b = none → ∀ v ∈ groupAt b, v.buf.getD 1 0 ≠ 0
  owner : daclAt b = none → groupAt b = none → ∀ v ∈ ownerAt b, v.buf.getD 1 0 ≠ 0

/-- A part that was decoded where the decoder looked for it, or is missing in both. -/
def PartDecoded {α : Type} (decode : View → Except Fault α) (part : Option α) (v : Option View) : Prop :=
  Option.Rel (fun a v => decode v = .ok a) part v

theorem decodePart_eq_ok {α : Type} {text : String} {decode : View → Except Fault α} {v : Option View}
    {part : Option α} (h : decodePart text decode v = .ok part) : PartDecoded decode part v := by
  cases v with
  | none =>
      cases h
      exact .none
  | some v =>
      obtain ⟨a, ha, h⟩ := bind_eq_ok.mp h
      cases h
      exact .some (Fault.annotate_eq_ok.mp ha)

theorem PartDecoded.none_iff {α : Type} {decode : View → Except Fault α} {part : Option α}
    {v : Option View} (h : PartDecoded decode part v) : v = none ↔ part = none := by
  cases h with
  | none => simp
  | some _ => simp

theorem PartDecoded.forall_iff {α : Type} {decode : View → Except Fault α} {part : Option α}
    {v : Option View} (h : PartDecoded decode part v) {P : α → Prop} {Q : View → Prop}
    (hiff : ∀ {a v}, decode v = .ok a → (Q v ↔ P a)) : (∀ w ∈ v, Q w) ↔ ∀ a ∈ part, P a := by
  cases h with
  | none => simp
  | some h => simpa using hiff h

theorem PartDecoded.exists_view {α : Type} {decode : View → Except Fault α} {part : Option α}
    {v : Option View} (h : PartDecoded decode part v) {a : α} (ha : part = some a) :
    ∃ w, v = some w ∧ decode w = .ok a := by
  cases h with
  | none => cases ha
  | some h =>
      cases ha
      exact ⟨_, rfl, h⟩

theorem PartDecoded.exists_part {α : Type} {decode : View → Except Fault α} {part : Option α}
    {v : Option View} (h : PartDecoded decode part v) {w : View} (hw : v = some w) :
    ∃ a, part = some a ∧ decode w = .ok a := by
  cases h with
  | none => cases hw
  | some h =>
      cases hw
      exact ⟨_, rfl, h⟩

structure DescriptorDecoded (sd : Smb2SecurityDescriptor) (b : Bytes) : Prop where
  revision : sd.revision = 1
  owner : PartDecoded decodeSid sd.owner (ownerAt b)
  group : PartDecoded decodeSid sd.group (groupAt b)
  dacl : PartDecoded decodeAcl sd.dacl (daclAt b)

theorem smb2DecodeSecDescInternal_eq_ok {b : Bytes} {sd : Smb2SecurityDescriptor}
    (h : smb2DecodeSecDescInternal b = .ok sd) : DescriptorDecoded sd b := by
  rw [smb2DecodeSecDescInternal] at h
  split_ifs at h
  obtain ⟨revision, -, h⟩ := bind_eq_ok.mp h
  split_ifs at h with hone
  obtain ⟨control, -, h⟩ := bind_eq_ok.mp h
  obtain ⟨offsetOwner, howner, h⟩ := bind_eq_ok.mp h
  obtain ⟨offsetGroup, hgroup, h⟩ := bind_eq_ok.mp h
  obtain ⟨offsetDacl, hdacl, h⟩ := bind_eq_ok.mp h
  obtain ⟨owner, hownerPart, h⟩ := bind_eq_ok.mp h
  obtain ⟨group, hgroupPart, h⟩ := bind_eq_ok.mp h
  obtain ⟨dacl, hdaclPart, h⟩ := bind_eq_ok.mp h
  cases h
  have field {offset n : Nat} (hget : (⟨b, 20⟩ : View).get 4 offset 0 = .ok n) (hle : offset + 4 ≤ 20) :
      UInt32.ofNat n = descriptorOffset b offset := by
    rw [View.eq_leNat_of_get hget hle]
    rfl
  refine ⟨?_, ?_, ?_, ?_⟩
  · rw [not_not.mp hone]
    rfl
  · rw [ownerAt, ← field howner (by omega)]
    exact decodePart_eq_ok hownerPart
  · rw [groupAt, ← field hgroup (by omega)]
    exact decodePart_eq_ok hgroupPart
  · rw [daclAt, ← field hdacl (by omega)]
    exact decodePart_eq_ok hdaclPart

/-- Where the decoder looks for the parts of a descriptor that the encoder wrote. -/
theorem partsAt_secDescBytes (sd : Smb2SecurityDescriptor) :
    ownerAt (secDescBytes sd) = partAt (secDescBytes sd) (UInt32.ofNat (partOffset sd.owner 20)) ∧
      groupAt (secDescBytes sd) = partAt (secDescBytes sd)
        (UInt32.ofNat (partOffset sd.group (20 + (sidPart sd.owner).length))) ∧
      daclAt (secDescBytes sd) = partAt (secDescBytes sd) (UInt32.ofNat
        (partOffset sd.dacl (20 + (sidPart sd.owner).length + (sidPart sd.group).length))) := by
  obtain ⟨-, -, howner, hgroup, hdacl⟩ := get_secDescBytes sd
  have field {offset n : Nat} (hget : (⟨secDescBytes sd, 20⟩ : View).get 4 offset 0 = .ok n)
      (hle : offset + 4 ≤ 20) : descriptorOffset (secDescBytes sd) offset = UInt32.ofNat n := by
    rw [View.eq_leNat_of_get hget hle]
    rfl
  exact ⟨by rw [ownerAt, field howner (by omega)], by rw [groupAt, field hgroup (by omega)],
    by rw [daclAt, field hdacl (by omega)]⟩

theorem daclAt_secDescBytes {sd : Smb2SecurityDescriptor} {acl : Smb2Acl} (h : sd.dacl = some acl) :
    daclAt (secDescBytes sd) =
      if 8 < (aclBytes acl).length then some (View.of (aclBytes acl)) else none := by
  have howner := length_sidPart_le sd.owner
  have hgroup := length_sidPart_le sd.group
  have hbytes : secDescBytes sd = secDescHeader sd (sidPart sd.owner) (sidPart sd.group) ++
      sidPart sd.owner ++ sidPart sd.group ++ aclBytes acl := by
    rw [secDescBytes, h]
    rfl
  rw [(partsAt_secDescBytes sd).2.2, h, partOffset_some, hbytes]
  exact partAt_append _ _ (by simp [Nat.add_assoc]) (by omega) (by omega)

theorem groupAt_secDescBytes {sd : Smb2SecurityDescriptor} {sid : Smb2Sid} (hdacl : sd.dacl = none)
    (h : sd.group = some sid) : groupAt (secDescBytes sd) =
      if 8 < (sidBytes sid).length then some (View.of (sidBytes sid)) else none := by
  have howner := length_sidPart_le sd.owner
  have hbytes : secDescBytes sd = secDescHeader sd (sidPart sd.owner) (sidPart sd.group) ++
      sidPart sd.owner ++ sidBytes sid := by
    rw [secDescBytes, h, hdacl]
    exact List.append_nil _
  rw [(partsAt_secDescBytes sd).2.1, h, partOffset_some, hbytes]
  exact partAt_append _ _ (by simp) (by omega) (by omega)

theorem ownerAt_secDescBytes {sd : Smb2SecurityDescriptor} {sid : Smb2Sid} (hdacl : sd.dacl = none)
    (hgroup : sd.group = none) (h : sd.owner = some sid) : ownerAt (secDescBytes sd) =
      if 8 < (sidBytes sid).length then some (View.of (sidBytes sid)) else none := by
  have hbytes : secDescBytes sd = secDescHeader sd (sidPart sd.owner) (sidPart sd.group) ++
      sidBytes sid := by
    rw [secDescBytes, h, hdacl, hgroup]
    simp [sidPart]
  rw [(partsAt_secDescBytes sd).1, h, partOffset_some, hbytes]
  exact partAt_append _ _ (by simp) (by omega) (by omega)

/-! ### A buffer that grows -/

/-- Whatever the size of the buffer was in the end, the encoder succeeded with it. -/
theorem encodeGrowing_eq_ok {sd : Smb2SecurityDescriptor} {doublings : Nat} {size : UInt32} {out : Bytes}
    (h : encodeGrowing sd doublings size = .ok out) :
    ∃ size', smb2EncodeSecurityDescriptor sd size' = .ok out := by
  induction doublings generalizing size with
  | zero => cases h
  | succ doublings ih =>
      rw [encodeGrowing] at h
      split at h
      · exact ih h
      · exact ⟨size, h⟩

/-- A buffer that is large enough after some doublings, before its size overflows. -/
theorem encodeGrowing_of_agrees {sd : Smb2SecurityDescriptor} (h : sd.Agrees) (steps : Nat)
    {doublings : Nat} (hsteps : steps < doublings) {size : UInt32}
    (hsmall : size.toNat * 2 ^ steps < 2 ^ 32)
    (hlarge : (secDescBytes sd).length ≤ size.toNat * 2 ^ steps) :
    encodeGrowing sd doublings size = .ok (secDescBytes sd) := by
  have hlength := toNat_smb2GetSecurityDescriptorSize h
  induction steps generalizing size doublings with
  | zero =>
      obtain ⟨doublings, rfl⟩ := Nat.exists_eq_add_of_lt hsteps
      rw [Nat.pow_zero, Nat.mul_one, ← hlength, ← UInt32.le_iff_toNat_le] at hlarge
      rw [encodeGrowing, smb2EncodeSecurityDescriptor_of_le h hlarge]
  | succ steps ih =>
      obtain ⟨doublings, rfl⟩ := Nat.exists_eq_add_of_lt (Nat.zero_lt_of_lt hsteps)
      have hpow : size.toNat * 2 ^ (steps + 1) = size.toNat * 2 * 2 ^ steps := by ring
      have hone := Nat.one_le_two_pow (n := steps)
      have htwice : (size * 2).toNat = size.toNat * 2 := by
        rw [UInt32.toNat_mul]
        exact Nat.mod_eq_of_lt ((Nat.le_mul_of_pos_right _ hone).trans_lt (hpow ▸ hsmall))
      by_cases hfits : smb2GetSecurityDescriptorSize sd ≤ size
      · rw [encodeGrowing, smb2EncodeSecurityDescriptor_of_le h hfits]
      · rw [encodeGrowing, smb2EncodeSecurityDescriptor, if_pos (UInt32.not_le.mp hfits)]
        apply ih (by omega)
        · rw [htwice, ← hpow]
          exact hsmall
        · rw [htwice, ← hpow]
          exact hlarge

theorem smb2GetSecurity_of_agrees {sd : Smb2SecurityDescriptor} (h : sd.Agrees) :
    smb2GetSecurity sd = .ok (secDescBytes sd) := by
  have howner := length_sidPart_le sd.owner
  have hgroup := length_sidPart_le sd.group
  have hdacl := (length_dacl_le h.dacl).1
  have hlength := length_secDescBytes sd
  have hsize : (1024 : UInt32).toNat = 1024 := rfl
  -- the largest descriptor has 67611 bytes
  apply encodeGrowing_of_agrees h 7 (by omega)
  all_goals
    rw [hsize]
    omega

/-! ### Encoding a decoded descriptor -/

/-- The bytes handed to the caller decode to the same descriptor. -/
def Reencodes (sd : Smb2SecurityDescriptor) : Prop :=
  ∃ bytes sd', smb2GetSecurity sd = .ok bytes ∧ smb2DecodeSecDescInternal bytes = .ok sd' ∧
    sd'.owner = sd.owner ∧ sd'.group = sd.group ∧ sd'.dacl = sd.dacl

/-- Every entry of the list is decoded by its own bytes. -/
def EntriesDecodeLocally (b : Bytes) : Prop :=
  ∀ v ∈ daclAt b, ∀ w ∈ entriesOf v, DecodesLocally w

theorem tightAcl_of_reencodes {b : Bytes} {sd : Smb2SecurityDescriptor} (h : DescriptorDecoded sd b)
    (hreencodes : Reencodes sd) (hlocal : EntriesDecodeLocally b) : ∀ v ∈ daclAt b, TightAcl v := by
  intro v hv
  obtain ⟨bytes, sd', hencode, hdecode, -, -, hsame⟩ := hreencodes
  obtain ⟨size, hencode⟩ := encodeGrowing_eq_ok hencode
  obtain ⟨rfl, hlimit⟩ := smb2EncodeSecurityDescriptor_eq_ok hencode
  obtain ⟨acl, hdacl, hacl⟩ := h.dacl.exists_part hv
  have hdecoded := decodeAcl_eq_ok hacl
  -- the list was found again, so it has entries and its size is not larger than what was written
  have hfound := (smb2DecodeSecDescInternal_eq_ok hdecode).dacl
  rw [hsame, hdacl, daclAt_secDescBytes hdacl] at hfound
  split_ifs at hfound with height
  · obtain ⟨w, hw, hreread⟩ := hfound.exists_view rfl
    cases hw
    have hreread := decodeAcl_eq_ok hreread
    have hbytes : (aclBytes acl).length = 8 + (acesBytes acl.aces).length := by
      rw [aclBytes, List.length_append, length_aclHeader]
    have hne : acl.aces ≠ [] := by
      intro hnil
      rw [hbytes, hnil] at height
      exact absurd height (lt_irrefl 8)
    have hentries := bytes_le_of_decodeLocally hdecoded.entries (hlocal v hv)
    have hle := hreread.size_le
    have hsum := hlimit acl hdacl hne
    rw [View.len_of] at hle
    have hsizes := size_eq_of_sums (fun ace hace => (hentries ace hace).2) (by omega)
    have htight : ∀ ace ∈ acl.aces, ace.Tight :=
      fun ace hace => ⟨(hentries ace hace).1, hsizes ace hace⟩
    have htotal := length_acesBytes fun ace hace => (agree_of_tight hdecoded.entries htight ace hace).1
    exact hdecoded.tightAcl_iff.mpr ⟨hne, htight, by omega⟩
  · cases hfound

theorem subAuth_ne_nil_iff {v : View} {sid : Smb2Sid} (h : decodeSid v = .ok sid) :
    v.buf.getD 1 0 ≠ 0 ↔ sid.subAuth ≠ [] := by
  have hcount : (v.buf.getD 1 0).toNat = sid.subAuth.length := by
    rw [(decodeSid_eq_ok h).2.2]
    exact getD_sidBytes [] sid _ rfl
  rw [ne_eq, ne_eq, ← List.length_eq_zero_iff, ← hcount, ← UInt8.toNat_inj]
  rfl

section

variable {b : Bytes} {sd : Smb2SecurityDescriptor}

/-- The layout of the bytes, said of the decoded descriptor where SIDs are concerned. -/
theorem DescriptorDecoded.tight_iff (h : DescriptorDecoded sd b) : TightDescriptor b ↔
    (∀ v ∈ daclAt b, TightAcl v) ∧ (sd.dacl = none → ∀ sid ∈ sd.group, sid.subAuth ≠ []) ∧
      (sd.dacl = none → sd.group = none → ∀ sid ∈ sd.owner, sid.subAuth ≠ []) := by
  rw [← h.dacl.none_iff, ← h.group.none_iff, ← h.group.forall_iff subAuth_ne_nil_iff,
    ← h.owner.forall_iff subAuth_ne_nil_iff]
  exact ⟨fun htight => ⟨htight.dacl, htight.group, htight.owner⟩,
    fun ⟨hdacl, hgroup, howner⟩ => ⟨hdacl, hgroup, howner⟩⟩

/-- The last SID of a descriptor without a list is found again only if it is longer than eight bytes. -/
theorem subAuth_ne_nil_of_found {sid : Smb2Sid} (h : PartDecoded decodeSid (some sid)
    (if 8 < (sidBytes sid).length then some (View.of (sidBytes sid)) else none)) : sid.subAuth ≠ [] := by
  split_ifs at h with height
  · exact (eight_lt_sidBytes sid).mp height
  · cases h

theorem tightDescriptor_of_reencodes (h : DescriptorDecoded sd b) (hreencodes : Reencodes sd)
    (hlocal : EntriesDecodeLocally b) : TightDescriptor b := by
  refine h.tight_iff.mpr ⟨tightAcl_of_reencodes h hreencodes hlocal, ?_, ?_⟩
  · intro hdacl sid hsid
    obtain ⟨bytes, sd', hencode, hdecode, -, hsame, -⟩ := hreencodes
    obtain ⟨size, hencode⟩ := encodeGrowing_eq_ok hencode
    obtain ⟨rfl, -⟩ := smb2EncodeSecurityDescriptor_eq_ok hencode
    have hfound := (smb2DecodeSecDescInternal_eq_ok hdecode).group
    rw [hsame, hsid, groupAt_secDescBytes hdacl hsid] at hfound
    exact subAuth_ne_nil_of_found hfound
  · intro hdacl hgroup sid hsid
    obtain ⟨bytes, sd', hencode, hdecode, hsame, -, -⟩ := hreencodes
    obtain ⟨size, hencode⟩ := encodeGrowing_eq_ok hencode
    obtain ⟨rfl, -⟩ := smb2EncodeSecurityDescriptor_eq_ok hencode
    have hfound := (smb2DecodeSecDescInternal_eq_ok hdecode).owner
    rw [hsame, hsid, ownerAt_secDescBytes hdacl hgroup hsid] at hfound
    exact subAuth_ne_nil_of_found hfound

/-- A decoded descriptor of a tight layout agrees with itself, and its entries have no other fields. -/
theorem DescriptorDecoded.agrees (h : DescriptorDecoded sd b) (htight : ∀ v ∈ daclAt b, TightAcl v) :
    sd.Agrees ∧ sd.dacl.map Smb2Acl.normalize = sd.dacl := by
  have hsid {part : Option Smb2Sid} {v : Option View} (hpart : PartDecoded decodeSid part v) :
      ∀ sid ∈ part, sid.revision = 1 := by
    intro sid hsid
    obtain ⟨w, -, hdecode⟩ := hpart.exists_view hsid
    exact (decodeSid_eq_ok hdecode).1
  have hacl : ∀ acl ∈ sd.dacl, acl.Agrees ∧ acl.normalize = acl := by
    intro acl hacl
    obtain ⟨v, hv, hdecode⟩ := h.dacl.exists_view hacl
    exact (decodeAcl_eq_ok hdecode).agrees (htight v hv)
  refine ⟨⟨h.revision, hsid h.owner, hsid h.group, fun acl h => (hacl acl h).1⟩, ?_⟩
  cases hpart : sd.dacl with
  | none => rfl
  | some acl => rw [Option.map_some, (hacl acl hpart).2]

theorem DescriptorDecoded.readable (h : DescriptorDecoded sd b) (htight : TightDescriptor b) :
    Readable sd := by
  obtain ⟨hdacl, hgroup, howner⟩ := h.tight_iff.mp htight
  refine ⟨?_, hgroup, howner⟩
  intro acl hacl
  obtain ⟨v, hv, hdecode⟩ := h.dacl.exists_view hacl
  obtain ⟨hne, hentries, -⟩ := (decodeAcl_eq_ok hdecode).tightAcl_iff.mp (hdacl v hv)
  exact ⟨hne, readableAces_of_tight hentries⟩

theorem reencodes_of_tight (h : DescriptorDecoded sd b) (htight : TightDescriptor b) : Reencodes sd := by
  obtain ⟨hagrees, hnormal⟩ := h.agrees htight.dacl
  have hreadable := h.readable htight
  have hdacl : ∀ acl ∈ sd.dacl, acl.aces ≠ [] := fun acl hacl => (hreadable.dacl acl hacl).1
  refine ⟨secDescBytes sd, sd.reread, smb2GetSecurity_of_agrees hagrees,
    smb2DecodeSecDescInternal_secDescBytes hagrees, ?_, ?_, ?_⟩
  · exact (reread_owner_eq hagrees hdacl hreadable.group).mpr hreadable.owner
  · exact (reread_group_eq hagrees hdacl).mpr hreadable.group
  · rw [(reread_dacl_eq hagrees).mpr hreadable.dacl, hnormal]

theorem entriesDecodeLocally_of_tight (h : DescriptorDecoded sd b) (htight : ∀ v ∈ daclAt b, TightAcl v) :
    EntriesDecodeLocally b := by
  intro v hv
  obtain ⟨acl, -, hdecode⟩ := h.dacl.exists_part hv
  have hdecoded := decodeAcl_eq_ok hdecode
  exact decodeLocally_of_tight hdecoded.entries (hdecoded.tightAcl_iff.mp (htight v hv)).2.1

/-- What a server sent is handed on unchanged, and its entries do not run into each other, exactly
when its layout is tight. -/
theorem reencodes_iff_tightDescriptor (h : smb2DecodeSecDescInternal b = .ok sd) :
    Reencodes sd ∧ EntriesDecodeLocally b ↔ TightDescriptor b := by
  have hdecoded := smb2DecodeSecDescInternal_eq_ok h
  constructor
  · exact fun ⟨hreencodes, hlocal⟩ => tightDescriptor_of_reencodes hdecoded hreencodes hlocal
  · exact fun htight =>
      ⟨reencodes_of_tight hdecoded htight, entriesDecodeLocally_of_tight hdecoded htight.dacl⟩

end

/-- A descriptor with a list of one entry for `S-1-5-32-544`, which is followed by some padding. -/
def sentDescriptor (padding : Bytes) : Bytes :=
  [1, 0, 4, 0x80] ++ leBytes 4 0 ++ leBytes 4 0 ++ leBytes 4 0 ++ leBytes 4 20 ++
    ([2, 0] ++ leBytes 2 (32 + padding.length) ++ leBytes 2 1 ++ [0, 0]) ++
    ([0, 3] ++ leBytes 2 (24 + padding.length) ++ leBytes 4 0x1F01FF ++ sidBytes administrators) ++ padding

theorem reencodes_sentDescriptor :
    ∃ sd, smb2DecodeSecDescInternal (sentDescriptor []) = .ok sd ∧ TightDescriptor (sentDescriptor []) ∧
      Reencodes sd ∧ EntriesDecodeLocally (sentDescriptor []) := by
  have hok : (smb2DecodeSecDescInternal (sentDescriptor [])).isOk = true := by decide
  have htight : TightDescriptor (sentDescriptor []) := by
    have hdacl : (daclAt (sentDescriptor [])).all (fun v => aclCount v.buf ≠ 0 ∧
        8 + ((entriesOf v).map fun w => aceLen w.buf).sum = aclLen v.buf ∧
        ∀ w ∈ entriesOf v, aceKind (w.buf.headD 0) = .basic ∧ aceLen w.buf = 16 + 4 * (w.buf.getD 9 0).toNat) =
          true := by decide
    have hsome : (daclAt (sentDescriptor [])).isSome = true := by decide
    refine ⟨fun v hv => ?_, fun hnone => ?_, fun hnone => ?_⟩
    · have hacl := (Option.all_eq_true _ _).mp hdacl v hv
      obtain ⟨hcount, hsize, hentries⟩ := of_decide_eq_true hacl
      refine ⟨hcount, fun w hw => ?_, hsize⟩
      obtain ⟨hkind, hlen⟩ := hentries w hw
      simpa only [TightAce, hkind] using hlen
    · rw [hnone] at hsome
      cases hsome
    · rw [hnone] at hsome
      cases hsome
  cases hdecode : smb2DecodeSecDescInternal (sentDescriptor []) with
  | error e =>
      rw [hdecode] at hok
      cases hok
  | ok sd => exact ⟨sd, rfl, htight, (reencodes_iff_tightDescriptor hdecode).mpr htight⟩

/-- With four bytes of padding in the entry, the decoder rejects what the client hands on: the list
claims to be longer than what was written. -/
theorem not_reencodes_sentDescriptor :
    ∃ sd, smb2DecodeSecDescInternal (sentDescriptor [0, 0, 0, 0]) = .ok sd ∧ ¬ Reencodes sd := by
  have hok : (smb2DecodeSecDescInternal (sentDescriptor [0, 0, 0, 0])).isOk = true := by decide
  have hfails : (do
      let sd ← smb2DecodeSecDescInternal (sentDescriptor [0, 0, 0, 0])
      let bytes ← smb2GetSecurity sd
      smb2DecodeSecDescInternal bytes).isOk = false := by decide
  cases hdecode : smb2DecodeSecDescInternal (sentDescriptor [0, 0, 0, 0]) with
  | error e =>
      rw [hdecode] at hok
      cases hok
  | ok sd =>
      refine ⟨sd, rfl, ?_⟩
      rintro ⟨bytes, sd', hencode, hreread, -⟩
      rw [hdecode, ok_bind, hencode, ok_bind, hreread] at hfails
      cases hfails

end CodeStudy.Samba
