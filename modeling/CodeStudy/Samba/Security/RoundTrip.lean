import Mathlib.Algebra.Order.BigOperators.Group.List
import CodeStudy.Samba.Security.Descriptor

/-!
# Encoding and decoding a security descriptor

What the encoder writes, and what the decoder makes of it. The two agree on SIDs and on the entries
whose layout ends with a SID. They disagree on the entries with a variable tail: the decoder takes
everything up to the end of the list for the tail, and for an entry with application data it begins
at the SID. It also misses a part of exactly eight bytes that ends the buffer: an empty list, or a
SID without sub-authorities.
-/

namespace CodeStudy.Samba

/-! ### What the encoder writes -/

/-- The SID of an entry, nothing when there is none. -/
def sidPart (sid : Option Smb2Sid) : Bytes := sid.elim [] sidBytes

def aceBytes (ace : Smb2Ace) : Bytes :=
  match aceKind ace.aceType with
  | .basic => aceMasked ace ++ sidPart ace.sid
  | .object => aceObject ace ++ sidPart ace.sid
  | .callback => aceMasked ace ++ sidPart ace.sid ++ ace.adData
  | .unknown => aceHeader ace ++ ace.rawData

def acesBytes (aces : List Smb2Ace) : Bytes := aces.flatMap aceBytes

def aclBytes (acl : Smb2Acl) : Bytes := aclHeader acl ++ acesBytes acl.aces

def secDescBytes (sd : Smb2SecurityDescriptor) : Bytes :=
  secDescHeader sd (sidPart sd.owner) (sidPart sd.group) ++ sidPart sd.owner ++ sidPart sd.group ++
    sd.dacl.elim [] aclBytes

@[simp] theorem length_sidBytes (sid : Smb2Sid) : (sidBytes sid).length = sid.size := by
  have hwords : (sid.subAuth.flatMap fun word => leBytes 4 word.toNat).length =
      sid.subAuth.length * 4 := by
    rw [List.length_flatMap]
    simp
  rw [sidBytes, List.length_append, List.length_append, hwords, sid.idAuth.2, Smb2Sid.size]
  rfl

@[simp] theorem length_aceHeader (ace : Smb2Ace) : (aceHeader ace).length = 4 := by simp [aceHeader]

@[simp] theorem length_aceMasked (ace : Smb2Ace) : (aceMasked ace).length = 8 := by simp [aceMasked]

@[simp] theorem length_aceObject (ace : Smb2Ace) : (aceObject ace).length = 44 := by
  rw [aceObject, List.length_append, List.length_append, List.length_append, length_aceMasked,
    length_leBytes, ace.objectType.2, ace.inheritedObjectType.2]

@[simp] theorem length_aclHeader (acl : Smb2Acl) : (aclHeader acl).length = 8 := by simp [aclHeader]

@[simp] theorem length_secDescHeader (sd : Smb2SecurityDescriptor) (owner group : Bytes) :
    (secDescHeader sd owner group).length = 20 := by simp [secDescHeader]

/-- An encoder that succeeds wrote the bytes of the part, whatever room there was. -/
theorem emit_eq_ok {room : Nat} {bytes out : Bytes} (h : emit room bytes = .ok out) :
    out = bytes ∧ bytes.length ≤ room := by
  rw [emit] at h
  split_ifs at h with hroom
  cases h
  exact ⟨rfl, hroom⟩

theorem encodeSid_eq_ok {sid : Smb2Sid} {bufferLen : UInt32} {room : Nat} {out : Bytes}
    (h : encodeSid sid bufferLen room = .ok out) : out = sidBytes sid := by
  rw [encodeSid] at h
  split_ifs at h
  exact (emit_eq_ok h).1

theorem encodeAceSid_eq_ok {ace : Smb2Ace} {text : String} {bufferLen : UInt32} {room : Nat}
    {out : Bytes} (h : encodeAceSid ace text bufferLen room = .ok out) : out = sidPart ace.sid := by
  rw [encodeAceSid] at h
  split at h
  · cases h
  · rename_i sid hsid
    rw [hsid]
    exact encodeSid_eq_ok (Fault.annotate_eq_ok.mp h)

theorem encodeAce_eq_ok {ace : Smb2Ace} {bufferLen : UInt32} {room : Nat} {out : Bytes}
    (h : encodeAce ace bufferLen room = .ok out) : out = aceBytes ace := by
  rw [encodeAce] at h
  split_ifs at h
  rw [aceBytes]
  cases hkind : aceKind ace.aceType with
  | basic | object =>
      simp only [hkind] at h
      obtain ⟨head, hhead, h⟩ := bind_eq_ok.mp h
      obtain ⟨sid, hsid, h⟩ := bind_eq_ok.mp h
      cases h
      rw [(emit_eq_ok hhead).1, encodeAceSid_eq_ok hsid]
  | callback =>
      simp only [hkind] at h
      obtain ⟨head, hhead, h⟩ := bind_eq_ok.mp h
      obtain ⟨sid, hsid, h⟩ := bind_eq_ok.mp h
      obtain ⟨adData, had, h⟩ := bind_eq_ok.mp h
      cases h
      rw [(emit_eq_ok hhead).1, encodeAceSid_eq_ok hsid, (emit_eq_ok had).1]
  | unknown =>
      simp only [hkind] at h
      obtain ⟨head, hhead, h⟩ := bind_eq_ok.mp h
      obtain ⟨rawData, hraw, h⟩ := bind_eq_ok.mp h
      cases h
      rw [(emit_eq_ok hhead).1, (emit_eq_ok hraw).1]

theorem encodeAces_eq_ok {aces : List Smb2Ace} {bufferLen : UInt32} {room : Nat} {out : Bytes}
    (h : encodeAces aces bufferLen room = .ok out) : out = acesBytes aces := by
  induction aces generalizing bufferLen room out with
  | nil =>
      cases h
      rfl
  | cons ace aces ih =>
      obtain ⟨first, hfirst, h⟩ := bind_eq_ok.mp h
      obtain ⟨rest, hrest, h⟩ := bind_eq_ok.mp h
      cases h
      rw [encodeAce_eq_ok (Fault.annotate_eq_ok.mp hfirst), ih hrest]
      rfl

/-- The sizes of the entries, added up. -/
def aceSizes (aces : List Smb2Ace) : Nat := (aces.map fun ace => ace.aceSize.toNat).sum

theorem aceSizes_cons (ace : Smb2Ace) (aces : List Smb2Ace) :
    aceSizes (ace :: aces) = ace.aceSize.toNat + aceSizes aces := List.sum_cons

/-- Adding the size of one entry to a sum that fits in 16 bits. -/
theorem toNat_add_aceSize {start : UInt32} (hstart : start.toNat ≤ 65535) (ace : Smb2Ace) :
    (start + ace.aceSize.toUInt32).toNat = start.toNat + ace.aceSize.toNat := by
  have hsize := ace.aceSize.toNat_lt
  rw [UInt32.toNat_add, UInt16.toNat_toUInt32, Nat.mod_eq_of_lt (by omega)]

theorem sumAceSizes_eq_ok {limit : UInt16} {aces : List Smb2Ace} {start total : UInt32}
    (hstart : start.toNat ≤ 65535) (h : sumAceSizes limit aces start = .ok total) :
    total.toNat = start.toNat + aceSizes aces ∧ (aces ≠ [] → total.toNat ≤ limit.toNat) := by
  induction aces generalizing start with
  | nil =>
      cases h
      exact ⟨rfl, fun h => absurd rfl h⟩
  | cons ace aces ih =>
      have hadd := toNat_add_aceSize hstart ace
      have hlimit := limit.toNat_lt
      simp only [sumAceSizes] at h
      split_ifs at h with _ hle
      rw [UInt32.not_lt, UInt32.le_iff_toNat_le, hadd, UInt16.toNat_toUInt32] at hle
      obtain ⟨htotal, hrest⟩ := ih (by omega) h
      rw [hadd] at htotal
      refine ⟨by rw [htotal, aceSizes_cons, Nat.add_assoc], fun _ => ?_⟩
      cases aces with
      | nil =>
          cases h
          omega
      | cons next aces => exact hrest (List.cons_ne_nil _ _)

theorem encodeAcl_eq_ok {acl : Smb2Acl} {bufferLen : UInt32} {room : Nat} {out : Bytes}
    (h : encodeAcl acl bufferLen room = .ok out) :
    out = aclBytes acl ∧ (acl.aces ≠ [] → 8 + aceSizes acl.aces ≤ acl.aclSize.toNat) := by
  obtain ⟨total, htotal, h⟩ := bind_eq_ok.mp h
  split_ifs at h
  obtain ⟨head, hhead, h⟩ := bind_eq_ok.mp h
  obtain ⟨aces, haces, h⟩ := bind_eq_ok.mp h
  cases h
  obtain ⟨hsum, hlimit⟩ := sumAceSizes_eq_ok (by decide) htotal
  rw [(emit_eq_ok hhead).1, encodeAces_eq_ok haces]
  exact ⟨rfl, fun hne => hsum ▸ hlimit hne⟩

theorem encodePart_eq_ok {α : Type} {text : String} {encode : α → UInt32 → Nat → Except Fault Bytes}
    (bytes : α → Bytes)
    (hencode : ∀ {a bufferLen room out}, encode a bufferLen room = .ok out → out = bytes a)
    {part : Option α} {bufferLen : UInt32} {room : Nat} {out : Bytes}
    (h : encodePart text encode part bufferLen room = .ok out) : out = part.elim [] bytes := by
  cases part with
  | none =>
      cases h
      rfl
  | some a => exact hencode (Fault.annotate_eq_ok.mp h)

theorem smb2EncodeSecurityDescriptor_eq_ok {sd : Smb2SecurityDescriptor} {size : UInt32} {out : Bytes}
    (h : smb2EncodeSecurityDescriptor sd size = .ok out) :
    out = secDescBytes sd ∧ ∀ acl ∈ sd.dacl, acl.aces ≠ [] → 8 + aceSizes acl.aces ≤ acl.aclSize.toNat := by
  rw [smb2EncodeSecurityDescriptor] at h
  split_ifs at h
  obtain ⟨owner, howner, h⟩ := bind_eq_ok.mp h
  obtain ⟨group, hgroup, h⟩ := bind_eq_ok.mp h
  obtain ⟨dacl, hdacl, h⟩ := bind_eq_ok.mp h
  cases h
  rw [encodePart_eq_ok sidBytes encodeSid_eq_ok howner, encodePart_eq_ok sidBytes encodeSid_eq_ok hgroup,
    encodePart_eq_ok aclBytes (fun h => (encodeAcl_eq_ok h).1) hdacl]
  refine ⟨rfl, fun acl hacl => ?_⟩
  rw [Option.mem_def.mp hacl] at hdacl
  exact (encodeAcl_eq_ok (Fault.annotate_eq_ok.mp hdacl)).2

/-! ### What the decoder makes of it -/

theorem decodeSid_sidBytes {sid : Smb2Sid} (hrevision : sid.revision = 1) {v : View} {rest : Bytes}
    (hbuf : v.buf = sidBytes sid ++ rest) (hlen : sid.size ≤ v.len) : decodeSid v = .ok sid := by
  obtain ⟨revision, idAuth, subAuth, hcount⟩ := sid
  simp only [Smb2Sid.size, sidBytes] at hlen hrevision hbuf
  subst hrevision
  have hbyte : (UInt8.ofNat subAuth.length).toNat = subAuth.length := UInt8.toNat_ofNat_of_lt' hcount
  have hrev : v.get 1 0 0 = .ok 1 := View.get_eq [] [1] _ hbuf rfl rfl (by simp; omega) 0
  have hnum : v.get 1 1 0 = .ok subAuth.length := by
    have hget := View.get_eq [1] [UInt8.ofNat subAuth.length] _ hbuf rfl rfl (by simp; omega) 0
    simpa [leNat, hbyte] using hget
  have hid : v.copy 2 6 = .ok idAuth :=
    View.copy_eq [1, UInt8.ofNat subAuth.length] idAuth.1 _
      (by rw [hbuf, List.append_assoc (_ ++ _)]) rfl idAuth.2
  have hpre : ([1, UInt8.ofNat subAuth.length] ++ idAuth.1).length = 8 := by simp [idAuth.2]
  have hwords := View.words_eq subAuth hbuf hpre hbyte.symm (by rw [hbyte]; exact hlen)
  rw [decodeSid, if_neg (by omega), hrev, ok_bind, if_neg (by simp), hnum, ok_bind,
    if_neg (by rw [hbyte]; omega), hid, ok_bind, hwords, ok_bind]
  rfl

/-- The fields of an entry that every type has. -/
def Smb2Ace.header (ace : Smb2Ace) : Smb2Ace :=
  { aceType := ace.aceType, aceFlags := ace.aceFlags, aceSize := ace.aceSize }

/-- An entry with the fields that its type has no use for as the constructor leaves them. -/
def Smb2Ace.normalize (ace : Smb2Ace) : Smb2Ace :=
  match aceKind ace.aceType with
  | .basic => { ace.header with mask := ace.mask, sid := ace.sid }
  | .object =>
      { ace.header with
        mask := ace.mask
        flags := ace.flags
        objectType := ace.objectType
        inheritedObjectType := ace.inheritedObjectType
        sid := ace.sid }
  | .callback => { ace.header with mask := ace.mask, sid := ace.sid, adData := ace.adData }
  | .unknown => { ace.header with rawData := ace.rawData }

/-- The sizes in an entry agree with its contents, and it has the SID its type needs. -/
structure Smb2Ace.Agrees (ace : Smb2Ace) : Prop where
  size : ace.aceSize.toNat = (aceBytes ace).length
  sid : aceKind ace.aceType ≠ .unknown → ∃ sid, ace.sid = some sid ∧ sid.revision = 1

theorem decodeAce_header {ace : Smb2Ace} {v : View} {rest : Bytes}
    (hbuf : v.buf = aceHeader ace ++ rest) (hsize : 4 ≤ ace.aceSize.toNat)
    (hlen : ace.aceSize.toNat ≤ v.len) : decodeAce v = decodeAceContent ace.header (v.skip 4) := by
  have htype : v.get 1 0 0 = .ok ace.aceType.toNat := by
    have hget := View.get_eq [] [ace.aceType] _ hbuf rfl rfl (by simp; omega) 0
    simpa [leNat] using hget
  have hflags : v.get 1 1 0 = .ok ace.aceFlags.toNat := by
    have hget := View.get_eq [ace.aceType] [ace.aceFlags] _ hbuf rfl rfl (by simp; omega) 0
    simpa [leNat] using hget
  have hfield : v.get 2 2 0 = .ok ace.aceSize.toNat :=
    View.get_leBytes [ace.aceType, ace.aceFlags] _ hbuf rfl ace.aceSize.toNat_lt
      (show 2 + 2 ≤ v.len by omega) 0
  rw [decodeAce, if_neg (by omega), htype, ok_bind, hflags, ok_bind, hfield, ok_bind]
  simp only [UInt8.ofNat_toNat, UInt16.ofNat_toNat]
  rw [if_neg (by omega), if_neg (by omega)]
  rfl

section

variable {ace : Smb2Ace} {sid : Smb2Sid} {v : View} {rest : Bytes}

/-- Reading the mask and the SID behind it. -/
theorem decode_masked (hrevision : sid.revision = 1)
    (hbuf : v.buf = leBytes 4 ace.mask.toNat ++ (sidBytes sid ++ rest)) (hlen : 4 + sid.size ≤ v.len) :
    v.get 4 0 0 = .ok ace.mask.toNat ∧ decodeSid (v.skip 4) = .ok sid := by
  constructor
  · exact View.get_leBytes [] _ hbuf rfl ace.mask.toNat_lt (show 0 + 4 ≤ v.len by omega) 0
  · apply decodeSid_sidBytes hrevision (View.buf_skip hbuf (length_leBytes 4 _))
    rw [View.len_skip (by omega)]
    omega

theorem decodeAce_basic (hkind : aceKind ace.aceType = .basic) (hsid : ace.sid = some sid)
    (hrevision : sid.revision = 1) (hbuf : v.buf = aceMasked ace ++ sidBytes sid ++ rest)
    (hsize : 4 ≤ ace.aceSize.toNat) (hlen : ace.aceSize.toNat ≤ v.len) (hcontent : 8 + sid.size ≤ v.len) :
    decodeAce v = .ok ace.normalize := by
  have hbuf' : v.buf = aceHeader ace ++ (leBytes 4 ace.mask.toNat ++ (sidBytes sid ++ rest)) := by
    rw [hbuf, aceMasked, List.append_assoc, List.append_assoc]
  have hlen' := View.len_skip (v := v) (n := 4) (by omega)
  obtain ⟨hmask, hdecode⟩ := decode_masked (v := v.skip 4) hrevision
    (View.buf_skip hbuf' (length_aceHeader ace)) (by omega)
  have hkind' : aceKind ace.header.aceType = .basic := hkind
  rw [decodeAce_header hbuf' hsize hlen, decodeAceContent, Smb2Ace.normalize]
  simp only [hkind, hkind', hmask, ok_bind, hdecode, Fault.annotate, hsid, UInt32.ofNat_toNat]
  rw [if_neg (by omega)]

theorem decodeAce_object (hkind : aceKind ace.aceType = .object) (hsid : ace.sid = some sid)
    (hrevision : sid.revision = 1) (hbuf : v.buf = aceObject ace ++ sidBytes sid ++ rest)
    (hsize : 4 ≤ ace.aceSize.toNat) (hlen : ace.aceSize.toNat ≤ v.len) (hcontent : 44 + sid.size ≤ v.len) :
    decodeAce v = .ok ace.normalize := by
  have hbuf₀ : v.buf = aceHeader ace ++ (leBytes 4 ace.mask.toNat ++ (leBytes 4 ace.flags.toNat ++
      (ace.objectType.1 ++ (ace.inheritedObjectType.1 ++ (sidBytes sid ++ rest))))) := by
    rw [hbuf, aceObject, aceMasked]
    simp only [List.append_assoc]
  have hbuf₁ := View.buf_skip hbuf₀ (length_aceHeader ace)
  have hbuf₂ := View.buf_skip hbuf₁ (length_leBytes 4 _)
  have hbuf₃ := View.buf_skip hbuf₂ (length_leBytes 4 _)
  have hbuf₄ := View.buf_skip hbuf₃ ace.objectType.2
  have hbuf₅ := View.buf_skip hbuf₄ ace.inheritedObjectType.2
  have hlen₁ := View.len_skip (v := v) (n := 4) (by omega)
  have hlen₂ := View.len_skip (v := v.skip 4) (n := 4) (by omega)
  have hlen₃ := View.len_skip (v := (v.skip 4).skip 4) (n := 4) (by omega)
  have hlen₄ := View.len_skip (v := ((v.skip 4).skip 4).skip 4) (n := 16) (by omega)
  have hlen₅ := View.len_skip (v := (((v.skip 4).skip 4).skip 4).skip 16) (n := 16) (by omega)
  have hmask : (v.skip 4).get 4 0 0 = .ok ace.mask.toNat :=
    View.get_leBytes [] _ hbuf₁ rfl ace.mask.toNat_lt (show 0 + 4 ≤ _ by omega) 0
  have hflags : ((v.skip 4).skip 4).get 4 0 0 = .ok ace.flags.toNat :=
    View.get_leBytes [] _ hbuf₂ rfl ace.flags.toNat_lt (show 0 + 4 ≤ _ by omega) 0
  have hobject : (((v.skip 4).skip 4).skip 4).copy 0 16 = .ok ace.objectType :=
    View.copy_eq [] _ _ hbuf₃ rfl ace.objectType.2
  have hinherited : ((((v.skip 4).skip 4).skip 4).skip 16).copy 0 16 = .ok ace.inheritedObjectType :=
    View.copy_eq [] _ _ hbuf₄ rfl ace.inheritedObjectType.2
  have hdecode := decodeSid_sidBytes hrevision hbuf₅ (by omega)
  have hkind' : aceKind ace.header.aceType = .object := hkind
  rw [decodeAce_header hbuf₀ hsize hlen, decodeAceContent, Smb2Ace.normalize]
  simp only [hkind, hkind', hmask, hflags, hobject, hinherited, ok_bind, hdecode, Fault.annotate, hsid,
    UInt32.ofNat_toNat]
  rw [if_neg (by omega)]

/-- The rest of a whole block. -/
theorem copyRest_of {b : Bytes} (hlen : b.length < 2 ^ 31) (msg : String) :
    copyRest (View.of b) msg = .ok b := by
  have hcopy : (View.of b).copy 0 b.length = .ok ⟨b, rfl⟩ :=
    View.copy_eq [] b [] (by simp [View.of]) rfl rfl
  have hint : ¬ toInt32 ((View.of b).len : Int) < 0 := by
    show ¬ toInt32 (b.length : Int) < 0
    rw [toInt32_of_lt (by omega) (by exact_mod_cast hlen)]
    omega
  rw [copyRest, if_neg hint]
  show ((View.of b).copy 0 b.length >>= fun bytes => Except.ok bytes.1) = _
  rw [hcopy]
  rfl

/-- An entry with application data: the decoder takes the SID and all that follows for the data. -/
theorem decodeAce_callback (hkind : aceKind ace.aceType = .callback) (hsid : ace.sid = some sid)
    (hrevision : sid.revision = 1) (hsize : 4 ≤ ace.aceSize.toNat)
    (hlen : ace.aceSize.toNat ≤ 8 + (sidBytes sid ++ rest).length)
    (hshort : (sidBytes sid ++ rest).length < 2 ^ 31) :
    decodeAce (View.of (aceMasked ace ++ (sidBytes sid ++ rest))) =
      .ok { ace.normalize with adData := sidBytes sid ++ rest } := by
  have hbuf : aceMasked ace ++ (sidBytes sid ++ rest) =
      aceHeader ace ++ (leBytes 4 ace.mask.toNat ++ (sidBytes sid ++ rest)) := by
    rw [aceMasked, List.append_assoc]
  have htotal : (View.of (aceMasked ace ++ (sidBytes sid ++ rest))).len =
      8 + (sidBytes sid ++ rest).length := by
    rw [View.of, List.length_append, length_aceMasked]
  have hskip : (View.of (aceMasked ace ++ (sidBytes sid ++ rest))).skip 4 =
      View.of (leBytes 4 ace.mask.toNat ++ (sidBytes sid ++ rest)) := by
    rw [hbuf]
    exact View.of_skip_append _ _ (length_aceHeader ace)
  have hlen' : (View.of (leBytes 4 ace.mask.toNat ++ (sidBytes sid ++ rest))).len =
      4 + (sidBytes sid ++ rest).length := by
    rw [View.of, List.length_append, length_leBytes]
  obtain ⟨hmask, hdecode⟩ := decode_masked hrevision
    (v := View.of (leBytes 4 ace.mask.toNat ++ (sidBytes sid ++ rest))) rfl
    (by rw [hlen', List.length_append, length_sidBytes]; omega)
  rw [View.of_skip_append _ _ (length_leBytes 4 _)] at hdecode
  have hkind' : aceKind ace.header.aceType = .callback := hkind
  rw [decodeAce_header hbuf hsize (by omega), hskip, decodeAceContent, Smb2Ace.normalize]
  simp only [hkind, hkind', hmask, ok_bind, View.of_skip_append _ _ (length_leBytes 4 _), hdecode,
    Fault.annotate, copyRest_of hshort, hsid, UInt32.ofNat_toNat]
  rw [if_neg (by omega)]

/-- An entry of an unknown type: the decoder takes all that follows for its data. -/
theorem decodeAce_unknown (hkind : aceKind ace.aceType = .unknown) (hsize : 4 ≤ ace.aceSize.toNat)
    (hlen : ace.aceSize.toNat ≤ 4 + rest.length) (hshort : rest.length < 2 ^ 31) :
    decodeAce (View.of (aceHeader ace ++ rest)) = .ok { ace.normalize with rawData := rest } := by
  have htotal : (View.of (aceHeader ace ++ rest)).len = 4 + rest.length := by
    rw [View.of, List.length_append, length_aceHeader]
  have hkind' : aceKind ace.header.aceType = .unknown := hkind
  rw [decodeAce_header rfl hsize (by omega), View.of_skip_append _ _ (length_aceHeader ace),
    decodeAceContent, Smb2Ace.normalize]
  simp only [hkind, hkind', ok_bind, copyRest_of hshort]

end

/-- What the decoder makes of an entry when some bytes of the list follow it. -/
def Smb2Ace.rereadBefore (ace : Smb2Ace) (rest : Bytes) : Smb2Ace :=
  match aceKind ace.aceType with
  | .basic | .object => ace.normalize
  | .callback => { ace.normalize with adData := sidPart ace.sid ++ (ace.adData ++ rest) }
  | .unknown => { ace.normalize with rawData := ace.rawData ++ rest }

/-- What the decoder makes of the entries that the encoder wrote. -/
def rereadAces : List Smb2Ace → List Smb2Ace
  | [] => []
  | ace :: aces => ace.rereadBefore (acesBytes aces) :: rereadAces aces

theorem Smb2Ace.Agrees.four_le {ace : Smb2Ace} (h : ace.Agrees) : 4 ≤ ace.aceSize.toNat := by
  rw [h.size, aceBytes]
  cases aceKind ace.aceType <;> simp <;> omega

theorem decodeAce_aceBytes {ace : Smb2Ace} (h : ace.Agrees) {rest : Bytes}
    (hshort : (aceBytes ace ++ rest).length < 2 ^ 31) :
    decodeAce (View.of (aceBytes ace ++ rest)) = .ok (ace.rereadBefore rest) := by
  have hfour := h.four_le
  have hsize := h.size
  have hlen : (View.of (aceBytes ace ++ rest)).len = (aceBytes ace).length + rest.length := by
    rw [View.of, List.length_append]
  rw [List.length_append] at hshort
  cases hkind : aceKind ace.aceType with
  | basic =>
      obtain ⟨sid, hsid, hrevision⟩ := h.sid (by simp [hkind])
      have hbytes : aceBytes ace = aceMasked ace ++ sidBytes sid := by
        simp only [aceBytes, hkind, hsid, sidPart, Option.elim]
      simp only [hbytes, List.length_append, length_aceMasked, length_sidBytes] at hsize hlen hshort ⊢
      simp only [Smb2Ace.rereadBefore, hkind]
      exact decodeAce_basic hkind hsid hrevision rfl hfour (by omega) (by omega)
  | object =>
      obtain ⟨sid, hsid, hrevision⟩ := h.sid (by simp [hkind])
      have hbytes : aceBytes ace = aceObject ace ++ sidBytes sid := by
        simp only [aceBytes, hkind, hsid, sidPart, Option.elim]
      simp only [hbytes, List.length_append, length_aceObject, length_sidBytes] at hsize hlen hshort ⊢
      simp only [Smb2Ace.rereadBefore, hkind]
      exact decodeAce_object hkind hsid hrevision rfl hfour (by omega) (by omega)
  | callback =>
      obtain ⟨sid, hsid, hrevision⟩ := h.sid (by simp [hkind])
      have hbytes : aceBytes ace ++ rest = aceMasked ace ++ (sidBytes sid ++ (ace.adData ++ rest)) := by
        simp only [aceBytes, hkind, hsid, sidPart, Option.elim, List.append_assoc]
      have hlength : (aceBytes ace).length = 8 + sid.size + ace.adData.length := by
        simp only [aceBytes, hkind, hsid, sidPart, Option.elim, List.length_append, length_aceMasked,
          length_sidBytes]
      simp only [Smb2Ace.rereadBefore, hkind, hbytes]
      rw [decodeAce_callback hkind hsid hrevision hfour]
      · simp only [hsid, sidPart, Option.elim]
      · simp only [List.length_append, length_sidBytes]
        omega
      · simp only [List.length_append, length_sidBytes]
        omega
  | unknown =>
      have hbytes : aceBytes ace ++ rest = aceHeader ace ++ (ace.rawData ++ rest) := by
        simp only [aceBytes, hkind, List.append_assoc]
      have hlength : (aceBytes ace).length = 4 + ace.rawData.length := by
        simp only [aceBytes, hkind, List.length_append, length_aceHeader]
      simp only [Smb2Ace.rereadBefore, hkind, hbytes]
      rw [decodeAce_unknown hkind hfour]
      · rw [List.length_append]
        omega
      · rw [List.length_append]
        omega

theorem aceSize_rereadBefore (ace : Smb2Ace) (rest : Bytes) :
    (ace.rereadBefore rest).aceSize = ace.aceSize := by
  rw [Smb2Ace.rereadBefore, Smb2Ace.normalize]
  cases aceKind ace.aceType <;> rfl

theorem decodeAces_acesBytes {aces : List Smb2Ace} (h : ∀ ace ∈ aces, ace.Agrees)
    (hshort : (acesBytes aces).length < 2 ^ 31) (index : Nat) :
    decodeAces index aces.length (View.of (acesBytes aces)) = .ok (rereadAces aces) := by
  induction aces generalizing index with
  | nil => rfl
  | cons ace aces ih =>
      obtain ⟨hace, haces⟩ := List.forall_mem_cons.mp h
      have hbytes : acesBytes (ace :: aces) = aceBytes ace ++ acesBytes aces := List.flatMap_cons
      rw [hbytes] at hshort ⊢
      have hfirst := decodeAce_aceBytes hace hshort
      rw [List.length_append] at hshort
      have hrest := ih haces (by omega) (index + 1)
      rw [List.length_cons, decodeAces, hfirst]
      simp only [Fault.annotate, ok_bind, aceSize_rereadBefore]
      rw [if_neg, View.of_skip_append _ _ hace.size.symm, hrest]
      · rfl
      · show ¬ ace.aceSize.toNat > (aceBytes ace ++ acesBytes aces).length
        rw [List.length_append, hace.size]
        omega

/-- The sizes and the count in a list agree with its entries. -/
structure Smb2Acl.Agrees (acl : Smb2Acl) : Prop where
  revision : acl.revision = 2 ∨ acl.revision = 4
  size : acl.aclSize.toNat = 8 + aceSizes acl.aces
  count : acl.aceCount.toNat = acl.aces.length
  aces : ∀ ace ∈ acl.aces, ace.Agrees

theorem length_acesBytes {aces : List Smb2Ace} (h : ∀ ace ∈ aces, ace.Agrees) :
    (acesBytes aces).length = aceSizes aces := by
  induction aces with
  | nil => rfl
  | cons ace aces ih =>
      obtain ⟨hace, haces⟩ := List.forall_mem_cons.mp h
      rw [acesBytes, List.flatMap_cons, List.length_append, aceSizes_cons, ← hace.size]
      exact congrArg _ (ih haces)

theorem Smb2Acl.Agrees.length {acl : Smb2Acl} (h : acl.Agrees) :
    (aclBytes acl).length = acl.aclSize.toNat := by
  rw [aclBytes, List.length_append, length_aclHeader, length_acesBytes h.aces, h.size]

theorem decodeAcl_aclBytes {acl : Smb2Acl} (h : acl.Agrees) :
    decodeAcl (View.of (aclBytes acl)) = .ok { acl with aces := rereadAces acl.aces } := by
  have hlen : (View.of (aclBytes acl)).len = acl.aclSize.toNat := h.length
  have hlimit := acl.aclSize.toNat_lt
  have hsize := h.size
  have hbuf : (View.of (aclBytes acl)).buf = [acl.revision] ++ [0] ++ (leBytes 2 acl.aclSize.toNat ++
      (leBytes 2 acl.aceCount.toNat ++ ([0, 0] ++ acesBytes acl.aces))) := by
    show aclBytes acl = _
    rw [aclBytes, aclHeader]
    simp only [List.append_assoc]
    rfl
  have hrevision : (View.of (aclBytes acl)).get 1 0 0 = .ok acl.revision.toNat := by
    have hget := View.get_eq [] [acl.revision] _ hbuf rfl rfl (show 0 + 1 ≤ _ by omega) 0
    simpa [leNat] using hget
  have hfield : (View.of (aclBytes acl)).get 2 2 0 = .ok acl.aclSize.toNat :=
    View.get_leBytes [acl.revision, 0] _ hbuf rfl acl.aclSize.toNat_lt (show 2 + 2 ≤ _ by omega) 0
  have hcount : (View.of (aclBytes acl)).get 2 4 0 = .ok acl.aceCount.toNat := by
    refine View.get_leBytes ([acl.revision, 0] ++ leBytes 2 acl.aclSize.toNat)
      ([0, 0] ++ acesBytes acl.aces) ?_ ?_ acl.aceCount.toNat_lt (show 4 + 2 ≤ _ by omega) 0
    · rw [hbuf]
      simp only [List.append_assoc]
      rfl
    · simp
  have hcut : (View.of (aclBytes acl)).cut acl.aclSize.toNat = View.of (aclBytes acl) :=
    if_neg (by omega)
  have hskip : (View.of (aclBytes acl)).skip 8 = View.of (acesBytes acl.aces) :=
    View.of_skip_append _ _ (length_aclHeader acl)
  have haces := decodeAces_acesBytes h.aces (by rw [length_acesBytes h.aces]; omega) 0
  have hknown : ¬ (acl.revision.toNat ≠ 2 ∧ acl.revision.toNat ≠ 4) := by
    rcases h.revision with hrev | hrev <;> simp [hrev]
  rw [decodeAcl, if_neg (by omega), hrevision, ok_bind, hfield, ok_bind, hcount, ok_bind,
    if_neg hknown, hcut, if_neg (by omega), hskip, h.count, haces, ok_bind]
  simp only [UInt8.ofNat_toNat, UInt16.ofNat_toNat, ← h.count]

/-! ### The descriptor -/

theorem partOffset_some {α : Type} (a : α) (offset : Nat) : partOffset (some a) offset = offset := rfl

/-- A part of a descriptor is found by its offset unless eight bytes or less are left there. -/
theorem partAt_append (pre post : Bytes) {offset : Nat} (hpre : pre.length = offset) (hpos : 0 < offset)
    (hsmall : offset + 8 < 2 ^ 32) : partAt (pre ++ post) (UInt32.ofNat offset) =
      if 8 < post.length then some (View.of post) else none := by
  have hoffset : (UInt32.ofNat offset).toNat = offset := toNat_ofNat_uint32 (by omega)
  have hsum : (UInt32.ofNat offset + 8).toNat = offset + 8 := by
    rw [UInt32.toNat_add, hoffset]
    exact Nat.mod_eq_of_lt hsmall
  have hpos : 0 < UInt32.ofNat offset := UInt32.lt_iff_toNat_lt.mpr (by rw [hoffset]; exact hpos)
  rw [partAt, hsum, hoffset, View.of_skip_append _ _ hpre, List.length_append, hpre]
  refine if_congr ?_ rfl rfl
  rw [and_iff_right hpos]
  omega

theorem decodePart_eq {α β : Type} {text : String} {decode : View → Except Fault β} {bytes : α → Bytes}
    {f : α → β} {part : Option α} {b : Bytes} {offset : Nat} (pre post : Bytes)
    (hb : b = pre ++ part.elim [] bytes ++ post) (hpre : pre.length = offset) (hpos : 0 < offset)
    (hsmall : offset + 8 < 2 ^ 32)
    (hdecode : ∀ a ∈ part, decode (View.of (bytes a ++ post)) = .ok (f a)) :
    decodePart text decode (partAt b (UInt32.ofNat (partOffset part offset))) =
      .ok (if offset + 8 < b.length then part.map f else none) := by
  cases part with
  | none =>
      rw [Option.map_none, ite_self]
      rfl
  | some a =>
      have hlength : b.length = offset + (bytes a ++ post).length := by
        rw [hb, List.append_assoc, List.length_append, hpre]
        rfl
      show decodePart text decode (partAt b (UInt32.ofNat offset)) = _
      rw [hb, List.append_assoc, partAt_append _ _ hpre hpos hsmall, ← List.append_assoc, ← hb]
      show decodePart text decode (if 8 < (bytes a ++ post).length then some (View.of (bytes a ++ post))
        else none) = _
      by_cases hlt : 8 < (bytes a ++ post).length
      · rw [if_pos hlt, if_pos (by omega)]
        show (Fault.annotate text (decode (View.of (bytes a ++ post))) >>= _) = _
        rw [hdecode a rfl]
        rfl
      · rw [if_neg hlt, if_neg (by omega)]
        rfl

/-- The revisions are known, and the sizes and counts agree with the contents. -/
structure Smb2SecurityDescriptor.Agrees (sd : Smb2SecurityDescriptor) : Prop where
  revision : sd.revision = 1
  owner : ∀ sid ∈ sd.owner, sid.revision = 1
  group : ∀ sid ∈ sd.group, sid.revision = 1
  dacl : ∀ acl ∈ sd.dacl, acl.Agrees

/-- A descriptor as the decoder finds it in the bytes of the encoder. -/
def Smb2SecurityDescriptor.reread (sd : Smb2SecurityDescriptor) : Smb2SecurityDescriptor :=
  let owner := 20 + (sidPart sd.owner).length
  let group := owner + (sidPart sd.group).length
  let size := (secDescBytes sd).length
  { sd with
    owner := if 20 + 8 < size then sd.owner else none
    group := if owner + 8 < size then sd.group else none
    dacl :=
      if group + 8 < size then sd.dacl.map fun acl => { acl with aces := rereadAces acl.aces } else none }

theorem length_sidPart_le (sid : Option Smb2Sid) : (sidPart sid).length ≤ 1028 := by
  cases sid with
  | none => simp [sidPart]
  | some sid =>
      have hcount := sid.count_lt
      simp only [sidPart, Option.elim, length_sidBytes, Smb2Sid.size]
      omega

/-- The fields of a header of 20 bytes, read back. -/
theorem get_secDescHeader {v : View} {revision : UInt8} {control : UInt16} {owner group dacl : Nat}
    (rest : Bytes) (hbuf : v.buf = [revision, 0] ++ leBytes 2 control.toNat ++ leBytes 4 owner ++
      leBytes 4 group ++ leBytes 4 0 ++ leBytes 4 dacl ++ rest) (hlen : v.len = 20)
    (howner : owner < 2 ^ 32) (hgroup : group < 2 ^ 32) (hdacl : dacl < 2 ^ 32) :
    v.get 1 0 0 = .ok revision.toNat ∧ v.get 2 2 0 = .ok control.toNat ∧ v.get 4 4 0 = .ok owner ∧
      v.get 4 8 0 = .ok group ∧ v.get 4 16 0 = .ok dacl := by
  have field (pre : Bytes) {width n : Nat} (post : Bytes) (hv : v.buf = pre ++ leBytes width n ++ post)
      {offset : Nat} (hoffset : pre.length = offset) (hn : n < 256 ^ width)
      (hfits : offset + width ≤ 20) : v.get width offset 0 = .ok n :=
    View.get_leBytes pre post hv hoffset hn (hlen ▸ hfits) 0
  refine ⟨?_, ?_, ?_, ?_, ?_⟩
  · have hget := View.get_eq [] [revision] ([0] ++ leBytes 2 control.toNat ++ leBytes 4 owner ++
      leBytes 4 group ++ leBytes 4 0 ++ leBytes 4 dacl ++ rest) hbuf rfl rfl
      (show 0 + 1 ≤ v.len by omega) 0
    simpa [leNat] using hget
  · exact field [revision, 0] (leBytes 4 owner ++ leBytes 4 group ++ leBytes 4 0 ++ leBytes 4 dacl ++ rest)
      (by rw [hbuf]; simp only [List.append_assoc]) rfl control.toNat_lt (by omega)
  · exact field ([revision, 0] ++ leBytes 2 control.toNat)
      (leBytes 4 group ++ leBytes 4 0 ++ leBytes 4 dacl ++ rest)
      (by rw [hbuf]; simp only [List.append_assoc]) (by simp) howner (by omega)
  · exact field ([revision, 0] ++ leBytes 2 control.toNat ++ leBytes 4 owner)
      (leBytes 4 0 ++ leBytes 4 dacl ++ rest)
      (by rw [hbuf]; simp only [List.append_assoc]) (by simp) hgroup (by omega)
  · exact field ([revision, 0] ++ leBytes 2 control.toNat ++ leBytes 4 owner ++ leBytes 4 group ++
      leBytes 4 0) rest (by rw [hbuf]) (by simp) hdacl (by omega)

/-- The header of the bytes the encoder writes. -/
theorem get_secDescBytes (sd : Smb2SecurityDescriptor) :
    (⟨secDescBytes sd, 20⟩ : View).get 1 0 0 = .ok sd.revision.toNat ∧
      (⟨secDescBytes sd, 20⟩ : View).get 2 2 0 = .ok sd.control.toNat ∧
      (⟨secDescBytes sd, 20⟩ : View).get 4 4 0 = .ok (partOffset sd.owner 20) ∧
      (⟨secDescBytes sd, 20⟩ : View).get 4 8 0 =
        .ok (partOffset sd.group (20 + (sidPart sd.owner).length)) ∧
      (⟨secDescBytes sd, 20⟩ : View).get 4 16 0 =
        .ok (partOffset sd.dacl (20 + (sidPart sd.owner).length + (sidPart sd.group).length)) := by
  have howner := length_sidPart_le sd.owner
  have hgroup := length_sidPart_le sd.group
  have hoffset {α : Type} (part : Option α) {n : Nat} (hn : n < 2 ^ 32) : partOffset part n < 2 ^ 32 := by
    rw [partOffset]
    split_ifs <;> omega
  exact get_secDescHeader (sidPart sd.owner ++ sidPart sd.group ++ sd.dacl.elim [] aclBytes)
    (by simp only [secDescBytes, secDescHeader, List.append_assoc]) rfl
    (hoffset _ (by omega)) (hoffset _ (by omega)) (hoffset _ (by omega))

theorem smb2DecodeSecDescInternal_secDescBytes {sd : Smb2SecurityDescriptor} (h : sd.Agrees) :
    smb2DecodeSecDescInternal (secDescBytes sd) = .ok sd.reread := by
  have howner := length_sidPart_le sd.owner
  have hgroup := length_sidPart_le sd.group
  have hsize : ¬ (secDescBytes sd).length < 20 := by
    rw [secDescBytes, List.append_assoc, List.append_assoc, List.length_append, length_secDescHeader]
    omega
  obtain ⟨hrev, hcontrol, hoff₁, hoff₂, hoff₃⟩ := get_secDescBytes sd
  have hsid (rest : Bytes) {part : Option Smb2Sid} (hpart : ∀ sid ∈ part, sid.revision = 1) :
      ∀ sid ∈ part, decodeSid (View.of (sidBytes sid ++ rest)) = .ok (id sid) := by
    intro sid hmem
    apply decodeSid_sidBytes (hpart sid hmem) rfl
    simp
  have hownerPart (text : String) : decodePart text decodeSid
      (partAt (secDescBytes sd) (UInt32.ofNat (partOffset sd.owner 20))) = .ok sd.reread.owner := by
    rw [decodePart_eq (secDescHeader sd (sidPart sd.owner) (sidPart sd.group))
      (sidPart sd.group ++ sd.dacl.elim [] aclBytes)
      (by simp only [secDescBytes, sidPart, List.append_assoc]) (by simp) (by omega) (by omega)
      (hsid _ h.owner), Option.map_id]
    simp only [Smb2SecurityDescriptor.reread, id_eq]
  have hgroupPart (text : String) : decodePart text decodeSid (partAt (secDescBytes sd)
      (UInt32.ofNat (partOffset sd.group (20 + (sidPart sd.owner).length)))) = .ok sd.reread.group := by
    rw [decodePart_eq (secDescHeader sd (sidPart sd.owner) (sidPart sd.group) ++ sidPart sd.owner)
      (sd.dacl.elim [] aclBytes)
      (by simp only [secDescBytes, sidPart, List.append_assoc]) (by simp) (by omega) (by omega)
      (hsid _ h.group), Option.map_id]
    simp only [Smb2SecurityDescriptor.reread, id_eq]
  have hdaclPart (text : String) : decodePart text decodeAcl (partAt (secDescBytes sd)
      (UInt32.ofNat (partOffset sd.dacl (20 + (sidPart sd.owner).length + (sidPart sd.group).length)))) =
        .ok sd.reread.dacl := by
    have hacl : ∀ acl ∈ sd.dacl, decodeAcl (View.of (aclBytes acl ++ [])) =
        .ok { acl with aces := rereadAces acl.aces } := by
      intro acl hmem
      rw [List.append_nil]
      exact decodeAcl_aclBytes (h.dacl acl hmem)
    rw [decodePart_eq (secDescHeader sd (sidPart sd.owner) (sidPart sd.group) ++ sidPart sd.owner ++
        sidPart sd.group) [] (by simp only [secDescBytes, List.append_nil]) (by simp [Nat.add_assoc])
      (by omega) (by omega) hacl]
    simp only [Smb2SecurityDescriptor.reread]
  rw [smb2DecodeSecDescInternal, if_neg hsize]
  simp only [hrev, hcontrol, hoff₁, hoff₂, hoff₃, ok_bind, hownerPart, hgroupPart, hdaclPart,
    UInt8.ofNat_toNat, UInt16.ofNat_toNat]
  rw [if_neg (by simp [h.revision])]
  simp only [Smb2SecurityDescriptor.reread]

/-! ### A buffer that is large enough -/

section

variable {bufferLen : UInt32} {room : Nat}

theorem emit_of_le {bytes : Bytes} (h : bytes.length ≤ room) : emit room bytes = .ok bytes := if_pos h

theorem toNat_sub_ofNat (hroom : bufferLen.toNat = room) {n : Nat} (hn : n ≤ room) :
    (bufferLen - UInt32.ofNat n).toNat = room - n := by
  have hlt := bufferLen.toNat_lt
  have hofNat : (UInt32.ofNat n).toNat = n := toNat_ofNat_uint32 (by omega)
  rw [UInt32.toNat_sub_of_le _ _ (UInt32.le_iff_toNat_le.mpr (by omega)), hofNat, hroom]

theorem encodeSid_of_le (hroom : bufferLen.toNat = room) {sid : Smb2Sid} (h : sid.size ≤ room) :
    encodeSid sid bufferLen room = .ok (sidBytes sid) := by
  rw [encodeSid, if_neg (by omega), emit_of_le (by rw [length_sidBytes]; exact h)]

theorem encodeAceSid_of_le (hroom : bufferLen.toNat = room) {ace : Smb2Ace} {sid : Smb2Sid}
    (hsid : ace.sid = some sid) (text : String) (h : sid.size ≤ room) :
    encodeAceSid ace text bufferLen room = .ok (sidPart ace.sid) := by
  simp only [encodeAceSid, hsid, encodeSid_of_le hroom h, Fault.annotate, sidPart, Option.elim]

/-- An entry that has the SID its type needs, where there is room for its bytes and for its size. -/
theorem encodeAce_of_fits (hroom : bufferLen.toNat = room) {ace : Smb2Ace}
    (hneeds : aceKind ace.aceType ≠ .unknown → ∃ sid, ace.sid = some sid) (hle : ace.aceSize.toNat ≤ room)
    (hsize : (aceBytes ace).length ≤ room) : encodeAce ace bufferLen room = .ok (aceBytes ace) := by
  rw [encodeAce, if_neg (by omega)]
  rw [aceBytes] at hsize ⊢
  cases hkind : aceKind ace.aceType with
  | basic =>
      obtain ⟨sid, hsid⟩ := hneeds (by simp [hkind])
      simp only [hkind, List.length_append, length_aceMasked, hsid, sidPart, Option.elim,
        length_sidBytes] at hsize
      have hnext : (bufferLen - 8).toNat = room - 8 :=
        toNat_sub_ofNat hroom (show 8 ≤ room by omega)
      simp only [emit_of_le (show (aceMasked ace).length ≤ room by rw [length_aceMasked]; omega),
        ok_bind]
      rw [encodeAceSid_of_le hnext hsid _ (by omega)]
      rfl
  | object =>
      obtain ⟨sid, hsid⟩ := hneeds (by simp [hkind])
      simp only [hkind, List.length_append, length_aceObject, hsid, sidPart, Option.elim,
        length_sidBytes] at hsize
      have hnext : (bufferLen - 44).toNat = room - 44 :=
        toNat_sub_ofNat hroom (show 44 ≤ room by omega)
      simp only [emit_of_le (show (aceObject ace).length ≤ room by rw [length_aceObject]; omega),
        ok_bind]
      rw [encodeAceSid_of_le hnext hsid _ (by omega)]
      rfl
  | callback =>
      obtain ⟨sid, hsid⟩ := hneeds (by simp [hkind])
      simp only [hkind, List.length_append, length_aceMasked, hsid, sidPart, Option.elim,
        length_sidBytes] at hsize
      have hnext : (bufferLen - 8).toNat = room - 8 :=
        toNat_sub_ofNat hroom (show 8 ≤ room by omega)
      simp only [emit_of_le (show (aceMasked ace).length ≤ room by rw [length_aceMasked]; omega),
        ok_bind]
      rw [encodeAceSid_of_le hnext hsid _ (by omega), ok_bind, hsid]
      simp only [sidPart, Option.elim, length_sidBytes]
      rw [emit_of_le (by omega)]
      rfl
  | unknown =>
      simp only [hkind, List.length_append, length_aceHeader] at hsize
      simp only [emit_of_le (show (aceHeader ace).length ≤ room by rw [length_aceHeader]; omega),
        ok_bind]
      rw [emit_of_le (by omega)]
      rfl

theorem encodeAce_of_le (hroom : bufferLen.toNat = room) {ace : Smb2Ace} (h : ace.Agrees)
    (hle : ace.aceSize.toNat ≤ room) : encodeAce ace bufferLen room = .ok (aceBytes ace) :=
  encodeAce_of_fits hroom (fun hkind => (h.sid hkind).imp fun _ hsid => hsid.1) hle (h.size ▸ hle)

theorem encodeAces_of_le (hroom : bufferLen.toNat = room) {aces : List Smb2Ace}
    (h : ∀ ace ∈ aces, ace.Agrees) (hle : aceSizes aces ≤ room) :
    encodeAces aces bufferLen room = .ok (acesBytes aces) := by
  induction aces generalizing bufferLen room with
  | nil => rfl
  | cons ace aces ih =>
      obtain ⟨hace, haces⟩ := List.forall_mem_cons.mp h
      rw [aceSizes_cons] at hle
      have hsize := hace.size
      have hrest := ih (toNat_sub_ofNat hroom (n := (aceBytes ace).length) (by omega)) haces (by omega)
      rw [encodeAces, encodeAce_of_le hroom hace (by omega)]
      simp only [Fault.annotate, ok_bind, hrest]
      rfl

theorem sumAceSizes_of_le {limit : UInt16} {aces : List Smb2Ace} {start : UInt32}
    (h : start.toNat + aceSizes aces ≤ limit.toNat) :
    ∃ total, sumAceSizes limit aces start = .ok total ∧ total.toNat = start.toNat + aceSizes aces := by
  have hlimit := limit.toNat_lt
  induction aces generalizing start with
  | nil => exact ⟨start, rfl, rfl⟩
  | cons ace aces ih =>
      rw [aceSizes_cons] at h ⊢
      have hstart : start.toNat ≤ 65535 := by omega
      have hadd := toNat_add_aceSize hstart ace
      obtain ⟨total, hsum, htotal⟩ := ih (show (start + ace.aceSize.toUInt32).toNat + _ ≤ _ by omega)
      have hno : ¬ start + ace.aceSize.toUInt32 < ace.aceSize.toUInt32 := by
        rw [UInt32.not_lt, UInt32.le_iff_toNat_le, hadd, UInt16.toNat_toUInt32]
        omega
      have hle : ¬ start + ace.aceSize.toUInt32 > limit.toUInt32 := by
        rw [gt_iff_lt, UInt32.not_lt, UInt32.le_iff_toNat_le, hadd, UInt16.toNat_toUInt32]
        omega
      refine ⟨total, ?_, by omega⟩
      simp only [sumAceSizes, if_neg hno, if_neg hle, hsum]

theorem encodeAcl_of_le (hroom : bufferLen.toNat = room) {acl : Smb2Acl} (h : acl.Agrees)
    (hle : acl.aclSize.toNat ≤ room) : encodeAcl acl bufferLen room = .ok (aclBytes acl) := by
  have hsize := h.size
  have height : (8 : UInt32).toNat = 8 := rfl
  obtain ⟨total, hsum, htotal⟩ : ∃ total, sumAceSizes acl.aclSize acl.aces 8 = .ok total ∧
      total.toNat = (8 : UInt32).toNat + aceSizes acl.aces := sumAceSizes_of_le (by omega)
  have hno : ¬ bufferLen < total := by
    rw [UInt32.not_lt, UInt32.le_iff_toNat_le]
    omega
  have hnext : (bufferLen - 8).toNat = room - 8 :=
        toNat_sub_ofNat hroom (show 8 ≤ room by omega)
  have haces := encodeAces_of_le hnext h.aces (by omega)
  rw [encodeAcl, hsum, ok_bind, if_neg hno, emit_of_le (by rw [length_aclHeader]; omega), ok_bind,
    haces]
  rfl

theorem encodePart_of_le {α : Type} {text : String} {encode : α → UInt32 → Nat → Except Fault Bytes}
    {bytes : α → Bytes} {part : Option α}
    (h : ∀ a ∈ part, encode a bufferLen room = .ok (bytes a)) :
    encodePart text encode part bufferLen room = .ok (part.elim [] bytes) := by
  cases part with
  | none => rfl
  | some a =>
      show Fault.annotate text (encode a bufferLen room) = _
      rw [h a rfl]
      rfl

theorem toNat_smb2GetAclSize {acl : Smb2Acl} (h : acl.Agrees) :
    (smb2GetAclSize acl).toNat = acl.aclSize.toNat := by
  have hfold : ∀ (aces : List Smb2Ace) (start : UInt32), start.toNat + aceSizes aces ≤ 65535 →
      (aces.foldl (fun size ace => size + ace.aceSize.toUInt32) start).toNat =
        start.toNat + aceSizes aces := by
    intro aces
    induction aces with
    | nil => exact fun start _ => rfl
    | cons ace aces ih =>
        intro start hle
        rw [aceSizes_cons] at hle ⊢
        have hstart : start.toNat ≤ 65535 := by omega
        have hadd := toNat_add_aceSize hstart ace
        rw [List.foldl_cons, ih _ (by omega), hadd, Nat.add_assoc]
  have hlimit := acl.aclSize.toNat_lt
  have hsize := h.size
  have height : (8 : UInt32).toNat = 8 := rfl
  rw [smb2GetAclSize, hfold _ _ (by omega)]
  omega

theorem length_dacl_le {dacl : Option Smb2Acl} (h : ∀ acl ∈ dacl, acl.Agrees) :
    (dacl.elim [] aclBytes).length ≤ 65535 ∧
      (dacl.elim 0 smb2GetAclSize).toNat = (dacl.elim [] aclBytes).length := by
  cases dacl with
  | none => exact ⟨Nat.zero_le _, rfl⟩
  | some acl =>
      have hacl := h acl rfl
      have hlimit := acl.aclSize.toNat_lt
      show (aclBytes acl).length ≤ 65535 ∧ (smb2GetAclSize acl).toNat = (aclBytes acl).length
      rw [toNat_smb2GetAclSize hacl, hacl.length]
      exact ⟨by omega, rfl⟩

theorem toNat_sidSize (sid : Option Smb2Sid) :
    (sid.elim 0 fun sid => UInt32.ofNat sid.size).toNat = (sidPart sid).length := by
  cases sid with
  | none => rfl
  | some sid =>
      have hcount := sid.count_lt
      show (UInt32.ofNat sid.size).toNat = (sidBytes sid).length
      rw [length_sidBytes, Smb2Sid.size, toNat_ofNat_uint32 (by omega)]

theorem length_secDescBytes (sd : Smb2SecurityDescriptor) : (secDescBytes sd).length =
    20 + (sidPart sd.owner).length + (sidPart sd.group).length + (sd.dacl.elim [] aclBytes).length := by
  simp only [secDescBytes, List.length_append, length_secDescHeader]

theorem toNat_smb2GetSecurityDescriptorSize {sd : Smb2SecurityDescriptor} (h : sd.Agrees) :
    (smb2GetSecurityDescriptorSize sd).toNat = (secDescBytes sd).length := by
  have howner := length_sidPart_le sd.owner
  have hgroup := length_sidPart_le sd.group
  obtain ⟨hdacl, hsize⟩ := length_dacl_le h.dacl
  have htwenty : (20 : UInt32).toNat = 20 := rfl
  rw [smb2GetSecurityDescriptorSize, length_secDescBytes, UInt32.toNat_add, UInt32.toNat_add,
    UInt32.toNat_add, hsize, toNat_sidSize, toNat_sidSize, htwenty]
  omega

/-- In a buffer with room for the header and the SIDs, the list decides. -/
theorem smb2EncodeSecurityDescriptor_eq {sd : Smb2SecurityDescriptor} {size : UInt32}
    (hno : ¬ size < smb2GetSecurityDescriptorSize sd)
    (hsize : 20 + (sidPart sd.owner).length + (sidPart sd.group).length ≤ size.toNat) :
    smb2EncodeSecurityDescriptor sd size = (do
      let dacl ← encodePart "smb2EncodeSecurityDescriptor: Failed to encode DACL : " encodeAcl sd.dacl
        (size - UInt32.ofNat (20 + (sidPart sd.owner).length + (sidPart sd.group).length))
        (size.toNat - (20 + (sidPart sd.owner).length + (sidPart sd.group).length))
      .ok (secDescHeader sd (sidPart sd.owner) (sidPart sd.group) ++ sidPart sd.owner ++ sidPart sd.group ++ dacl)) := by
  have hroom₁ : (size - 20).toNat = size.toNat - 20 := toNat_sub_ofNat rfl (show 20 ≤ size.toNat by omega)
  have howner : ∀ sid ∈ sd.owner, encodeSid sid (size - 20) (size.toNat - 20) = .ok (sidBytes sid) := by
    intro sid hsid
    apply encodeSid_of_le hroom₁
    rw [Option.mem_def.mp hsid] at hsize
    simp only [sidPart, Option.elim, length_sidBytes] at hsize
    omega
  have hroom₂ : (size - UInt32.ofNat (20 + (sidPart sd.owner).length)).toNat =
      size.toNat - (20 + (sidPart sd.owner).length) := toNat_sub_ofNat rfl (by omega)
  have hgroup : ∀ sid ∈ sd.group, encodeSid sid (size - UInt32.ofNat (20 + (sidPart sd.owner).length))
      (size.toNat - (20 + (sidPart sd.owner).length)) = .ok (sidBytes sid) := by
    intro sid hsid
    apply encodeSid_of_le hroom₂
    rw [Option.mem_def.mp hsid] at hsize
    simp only [sidPart, Option.elim, length_sidBytes] at hsize ⊢
    omega
  rw [smb2EncodeSecurityDescriptor, if_neg hno, if_neg (by omega), encodePart_of_le howner]
  simp only [ok_bind]
  rw [show sd.owner.elim [] sidBytes = sidPart sd.owner from rfl, encodePart_of_le hgroup]
  rfl

/-- A buffer of the size the encoder asks for is enough. -/
theorem smb2EncodeSecurityDescriptor_of_le {sd : Smb2SecurityDescriptor} (h : sd.Agrees) {size : UInt32}
    (hsize : smb2GetSecurityDescriptorSize sd ≤ size) :
    smb2EncodeSecurityDescriptor sd size = .ok (secDescBytes sd) := by
  have hno : ¬ size < smb2GetSecurityDescriptorSize sd := UInt32.not_lt.mpr hsize
  rw [UInt32.le_iff_toNat_le, toNat_smb2GetSecurityDescriptorSize h, length_secDescBytes] at hsize
  have hroom : (size - UInt32.ofNat (20 + (sidPart sd.owner).length + (sidPart sd.group).length)).toNat =
      size.toNat - (20 + (sidPart sd.owner).length + (sidPart sd.group).length) :=
    toNat_sub_ofNat rfl (by omega)
  have hdacl : ∀ acl ∈ sd.dacl, encodeAcl acl
      (size - UInt32.ofNat (20 + (sidPart sd.owner).length + (sidPart sd.group).length))
      (size.toNat - (20 + (sidPart sd.owner).length + (sidPart sd.group).length)) =
        .ok (aclBytes acl) := by
    intro acl hacl
    apply encodeAcl_of_le hroom (h.dacl acl hacl)
    rw [Option.mem_def.mp hacl] at hsize
    simp only [Option.elim, (h.dacl acl hacl).length] at hsize
    omega
  rw [smb2EncodeSecurityDescriptor_eq hno (by omega), encodePart_of_le hdacl]
  rfl

end

/-! ### Round trips -/

def Smb2Acl.normalize (acl : Smb2Acl) : Smb2Acl := { acl with aces := acl.aces.map Smb2Ace.normalize }

/-- Encoding a descriptor and decoding the bytes gives it back, entry by entry in the fields that
the types of the entries use. -/
def RoundTrips (sd : Smb2SecurityDescriptor) (size : UInt32) : Prop :=
  ∃ bytes sd', smb2EncodeSecurityDescriptor sd size = .ok bytes ∧
    smb2DecodeSecDescInternal bytes = .ok sd' ∧ sd'.control = sd.control ∧ sd'.owner = sd.owner ∧
    sd'.group = sd.group ∧ sd'.dacl = sd.dacl.map Smb2Acl.normalize

/-- Entries that end with their SID, and at the very end possibly one of an unknown type. -/
def ReadableAces : List Smb2Ace → Prop
  | [] => True
  | ace :: aces =>
      (aceKind ace.aceType = .basic ∨ aceKind ace.aceType = .object ∨
        (aceKind ace.aceType = .unknown ∧ aces = [])) ∧ ReadableAces aces

/-- The decoder finds everything the descriptor has. -/
structure Readable (sd : Smb2SecurityDescriptor) : Prop where
  dacl : ∀ acl ∈ sd.dacl, acl.aces ≠ [] ∧ ReadableAces acl.aces
  group : sd.dacl = none → ∀ sid ∈ sd.group, sid.subAuth ≠ []
  owner : sd.dacl = none → sd.group = none → ∀ sid ∈ sd.owner, sid.subAuth ≠ []

theorem acesBytes_eq_nil {aces : List Smb2Ace} (h : ∀ ace ∈ aces, ace.Agrees) :
    acesBytes aces = [] ↔ aces = [] := by
  cases aces with
  | nil => exact ⟨fun _ => rfl, fun _ => rfl⟩
  | cons ace aces =>
      have hace := h ace List.mem_cons_self
      have hfour := hace.four_le
      have hlen := length_acesBytes h
      rw [aceSizes_cons] at hlen
      constructor
      · intro hnil
        rw [hnil, List.length_nil] at hlen
        omega
      · exact fun hnil => absurd hnil (List.cons_ne_nil _ _)

theorem rereadBefore_eq_normalize {ace : Smb2Ace} (h : ace.Agrees) (rest : Bytes) :
    ace.rereadBefore rest = ace.normalize ↔ aceKind ace.aceType = .basic ∨
      aceKind ace.aceType = .object ∨ (aceKind ace.aceType = .unknown ∧ rest = []) := by
  rw [Smb2Ace.rereadBefore, Smb2Ace.normalize]
  cases hkind : aceKind ace.aceType with
  | basic => simp
  | object => simp
  | callback =>
      obtain ⟨sid, hsid, -⟩ := h.sid (by simp [hkind])
      simp only [Smb2Ace.mk.injEq, reduceCtorEq, false_and, or_self, iff_false, not_and]
      intro _ _ _ _ _ _ _ _ hdata
      have hlen := congrArg List.length hdata
      simp only [hsid, sidPart, Option.elim, List.length_append, length_sidBytes, Smb2Sid.size] at hlen
      omega
  | unknown => simp [Smb2Ace.header]

theorem rereadAces_eq_map {aces : List Smb2Ace} (h : ∀ ace ∈ aces, ace.Agrees) :
    rereadAces aces = aces.map Smb2Ace.normalize ↔ ReadableAces aces := by
  induction aces with
  | nil => simp [rereadAces, ReadableAces]
  | cons ace aces ih =>
      obtain ⟨hace, haces⟩ := List.forall_mem_cons.mp h
      rw [rereadAces, List.map_cons, List.cons.injEq, ih haces, rereadBefore_eq_normalize hace,
        acesBytes_eq_nil haces, ReadableAces]

theorem eight_lt_aclBytes {acl : Smb2Acl} (h : acl.Agrees) : 8 < (aclBytes acl).length ↔ acl.aces ≠ [] := by
  rw [ne_eq, ← acesBytes_eq_nil h.aces, ← List.length_eq_zero_iff, aclBytes, List.length_append,
    length_aclHeader]
  omega

theorem eight_lt_sidBytes (sid : Smb2Sid) : 8 < (sidBytes sid).length ↔ sid.subAuth ≠ [] := by
  rw [length_sidBytes, Smb2Sid.size, ne_eq, ← List.length_eq_zero_iff]
  omega

/-- What is left of the parts, when the decoder looks for more than eight bytes at an offset. -/
theorem reread_eq (sd : Smb2SecurityDescriptor) :
    sd.reread.owner = (if 8 < (sidPart sd.owner).length + (sidPart sd.group).length +
        (sd.dacl.elim [] aclBytes).length then sd.owner else none) ∧
      sd.reread.group = (if 8 < (sidPart sd.group).length + (sd.dacl.elim [] aclBytes).length
        then sd.group else none) ∧
      sd.reread.dacl = if 8 < (sd.dacl.elim [] aclBytes).length then
        sd.dacl.map fun acl => { acl with aces := rereadAces acl.aces } else none := by
  simp only [Smb2SecurityDescriptor.reread, length_secDescBytes]
  refine ⟨if_congr ?_ rfl rfl, if_congr ?_ rfl rfl, if_congr ?_ rfl rfl⟩
  all_goals omega

theorem ite_none_eq_self {α : Type} {p : Prop} [Decidable p] {part : Option α} :
    (if p then part else none) = part ↔ part = none ∨ p := by
  by_cases hp : p <;> simp [hp, eq_comm]

/-- The list is found, with the entries that were written. -/
theorem reread_dacl_eq {sd : Smb2SecurityDescriptor} (h : sd.Agrees) :
    sd.reread.dacl = sd.dacl.map Smb2Acl.normalize ↔
      ∀ acl ∈ sd.dacl, acl.aces ≠ [] ∧ ReadableAces acl.aces := by
  rw [(reread_eq sd).2.2]
  cases hdacl : sd.dacl with
  | none => simp
  | some acl =>
      have hacl := h.dacl acl hdacl
      simp only [Option.elim, eight_lt_aclBytes hacl, Option.map_some, Option.mem_some_iff, forall_eq',
        ← rereadAces_eq_map hacl.aces]
      by_cases hnil : acl.aces = []
      · simp [hnil]
      · simp [hnil, Smb2Acl.normalize]

theorem reread_group_eq {sd : Smb2SecurityDescriptor} (h : sd.Agrees)
    (hdacl : ∀ acl ∈ sd.dacl, acl.aces ≠ []) :
    sd.reread.group = sd.group ↔ (sd.dacl = none → ∀ sid ∈ sd.group, sid.subAuth ≠ []) := by
  rw [(reread_eq sd).2.1, ite_none_eq_self]
  cases hpart : sd.dacl with
  | some acl =>
      have hlt := (eight_lt_aclBytes (h.dacl acl hpart)).mpr (hdacl acl hpart)
      simp only [Option.elim, reduceCtorEq, false_implies, iff_true]
      exact .inr (by omega)
  | none =>
      cases hgroup : sd.group with
      | none => simp
      | some sid => simp [sidPart, ← eight_lt_sidBytes]

theorem reread_owner_eq {sd : Smb2SecurityDescriptor} (h : sd.Agrees)
    (hdacl : ∀ acl ∈ sd.dacl, acl.aces ≠ [])
    (hgroup : sd.dacl = none → ∀ sid ∈ sd.group, sid.subAuth ≠ []) :
    sd.reread.owner = sd.owner ↔
      (sd.dacl = none → sd.group = none → ∀ sid ∈ sd.owner, sid.subAuth ≠ []) := by
  rw [(reread_eq sd).1, ite_none_eq_self]
  cases hpart : sd.dacl with
  | some acl =>
      have hlt := (eight_lt_aclBytes (h.dacl acl hpart)).mpr (hdacl acl hpart)
      simp only [Option.elim, reduceCtorEq, false_implies, iff_true]
      exact .inr (by omega)
  | none =>
      cases hsid : sd.group with
      | some sid =>
          have hlt := (eight_lt_sidBytes sid).mpr (hgroup hpart sid hsid)
          simp only [sidPart, Option.elim, reduceCtorEq, false_implies, implies_true, iff_true]
          exact .inr (by omega)
      | none =>
          cases sd.owner with
          | none => simp
          | some sid => simp [sidPart, ← eight_lt_sidBytes]

theorem roundTrips_iff_readable {sd : Smb2SecurityDescriptor} (h : sd.Agrees) {size : UInt32}
    (hsize : smb2GetSecurityDescriptorSize sd ≤ size) : RoundTrips sd size ↔ Readable sd := by
  have hparts : RoundTrips sd size ↔ sd.reread.owner = sd.owner ∧ sd.reread.group = sd.group ∧
      sd.reread.dacl = sd.dacl.map Smb2Acl.normalize := by
    constructor
    · rintro ⟨bytes, sd', hencode, hdecode, -, howner, hgroup, hdacl⟩
      rw [smb2EncodeSecurityDescriptor_of_le h hsize] at hencode
      cases hencode
      rw [smb2DecodeSecDescInternal_secDescBytes h] at hdecode
      cases hdecode
      exact ⟨howner, hgroup, hdacl⟩
    · intro hparts
      exact ⟨secDescBytes sd, sd.reread, smb2EncodeSecurityDescriptor_of_le h hsize,
        smb2DecodeSecDescInternal_secDescBytes h, rfl, hparts⟩
  rw [hparts, reread_dacl_eq h]
  constructor
  · rintro ⟨howner, hgroup, hdacl⟩
    have hgroup := (reread_group_eq h fun acl hacl => (hdacl acl hacl).1).mp hgroup
    have howner := (reread_owner_eq h (fun acl hacl => (hdacl acl hacl).1) hgroup).mp howner
    exact ⟨hdacl, hgroup, howner⟩
  · intro hreadable
    have hdacl : ∀ acl ∈ sd.dacl, acl.aces ≠ [] := fun acl hacl => (hreadable.dacl acl hacl).1
    exact ⟨(reread_owner_eq h hdacl hreadable.group).mpr hreadable.owner,
      (reread_group_eq h hdacl).mpr hreadable.group, hreadable.dacl⟩

/-- The SID `S-1-5-32-544`. -/
def administrators : Smb2Sid :=
  { revision := 1, idAuth := ⟨[0, 0, 0, 0, 0, 5], rfl⟩, subAuth := [32, 544], count_lt := by decide }

/-- A descriptor whose list grants access to a group and ends with an entry of an unknown type. -/
def grantingDescriptor : Smb2SecurityDescriptor :=
  { revision := 1, control := 0x8004, owner := some administrators, group := some administrators
    dacl := some {
      revision := 2, aclSize := 40, aceCount := 2
      aces := [
        { aceType := 0, aceFlags := 3, aceSize := 24, mask := 0x1F01FF, sid := some administrators },
        { aceType := 0x03, aceSize := 8, rawData := [1, 2, 3, 4] }] } }

theorem grantingDescriptor_agrees : grantingDescriptor.Agrees := by
  refine ⟨rfl, by decide, by decide, ?_⟩
  intro acl hacl
  cases hacl
  refine ⟨by decide, by decide, by decide, ?_⟩
  intro ace hace
  rcases List.mem_pair.mp hace with rfl | rfl
  · exact ⟨by decide, fun _ => ⟨administrators, rfl, rfl⟩⟩
  · exact ⟨by decide, fun h => absurd rfl h⟩

theorem roundTrips_grantingDescriptor :
    grantingDescriptor.Agrees ∧ RoundTrips grantingDescriptor 1024 ∧ Readable grantingDescriptor := by
  have hiff : RoundTrips grantingDescriptor 1024 ↔ Readable grantingDescriptor :=
    roundTrips_iff_readable grantingDescriptor_agrees (by decide)
  have hreadable : Readable grantingDescriptor := by
    refine ⟨?_, fun h => (Option.some_ne_none _ h).elim, fun h => (Option.some_ne_none _ h).elim⟩
    intro acl hacl
    cases hacl
    exact ⟨List.cons_ne_nil _ _, .inl (by decide), .inr (.inr ⟨by decide, rfl⟩), trivial⟩
  exact ⟨grantingDescriptor_agrees, hiff.mpr hreadable, hreadable⟩

/-- A descriptor with an empty list, which denies everything. -/
def denyingDescriptor : Smb2SecurityDescriptor :=
  { revision := 1, control := 0x8004, owner := some administrators
    dacl := some { revision := 2, aclSize := 8, aceCount := 0, aces := [] } }

/-- The empty list is lost: the decoded descriptor has none, which grants everything. -/
theorem not_roundTrips_denyingDescriptor :
    denyingDescriptor.Agrees ∧ smb2GetSecurityDescriptorSize denyingDescriptor ≤ 1024 ∧
      ¬ RoundTrips denyingDescriptor 1024 := by
  have hagrees : denyingDescriptor.Agrees := by
    refine ⟨rfl, by decide, by decide, ?_⟩
    intro acl hacl
    cases hacl
    exact ⟨by decide, by decide, by decide, by simp⟩
  refine ⟨hagrees, by decide, ?_⟩
  rintro ⟨bytes, sd', hencode, hdecode, -, -, -, hdacl⟩
  rw [smb2EncodeSecurityDescriptor_of_le hagrees (by decide)] at hencode
  cases hencode
  rw [smb2DecodeSecDescInternal_secDescBytes hagrees] at hdecode
  cases hdecode
  rw [reread_dacl_eq hagrees] at hdacl
  exact (hdacl _ rfl).1 rfl

end CodeStudy.Samba
