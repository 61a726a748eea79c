import CodeStudy.Samba.Socket.Frame

/-!
# The windows of the variable part

The fixed part of a reply says where its data are: an offset from the beginning of the reply and a
length, both chosen by the server. From them the client computes how many bytes the variable part
has, and once these are read the same offset and length give the window of the data among them. The
offsets are checked against the header only. The sums are numbers of 32 bits: a window whose end
does not fit lies outside the bytes that were read.
-/

namespace CodeStudy.Samba

/-- A range of bytes, from an offset relative to the variable part on. -/
structure ReplyWindow where
  start : Int
  length : Nat

namespace ReplyWindow

/-- Every byte of the window is one of the first `v` bytes. -/
def Inside (window : ReplyWindow) (v : Nat) : Prop :=
  ∀ i : Int, window.start ≤ i → i < window.start + window.length → 0 ≤ i ∧ i < v

theorem inside_of_le {window : ReplyWindow} {v : Nat} (hstart : 0 ≤ window.start)
    (hend : window.start + window.length ≤ v) : window.Inside v := by
  intro i hlo hhi
  omega

theorem inside_of_empty {window : ReplyWindow} (v : Nat) (hempty : window.length = 0) :
    window.Inside v := by
  intro i hlo hhi
  omega

theorem inside_iff {window : ReplyWindow} {v : Nat} (hpos : 0 < window.length) :
    window.Inside v ↔ 0 ≤ window.start ∧ window.start + window.length ≤ v := by
  constructor
  · intro h
    have hfirst := h window.start le_rfl (by omega)
    have hlast := h (window.start + window.length - 1) (by omega) (by omega)
    omega
  · exact fun ⟨hstart, hend⟩ => inside_of_le hstart hend

end ReplyWindow

/-- A difference of two sizes, as a number of 64 bits. -/
def sizeDiff (n m : Nat) : Nat := (UInt64.ofNat n - UInt64.ofNat m).toNat

theorem sizeDiff_of_le {n m : Nat} (h : m ≤ n) (hn : n < 2 ^ 64) : sizeDiff n m = n - m := by
  have hm : (UInt64.ofNat m).toNat = m := toNat_ofNat_uint64 (by omega)
  have hle : UInt64.ofNat m ≤ UInt64.ofNat n := by
    rw [UInt64.le_iff_toNat_le, hm, toNat_ofNat_uint64 hn]
    exact h
  rw [sizeDiff, UInt64.toNat_sub_of_le _ _ hle, hm, toNat_ofNat_uint64 hn]

theorem sizeDiff_of_lt {n m : Nat} (h : n < m) (hm : m < 2 ^ 64) : sizeDiff n m = 2 ^ 64 + n - m := by
  rw [sizeDiff, UInt64.toNat_sub, toNat_ofNat_uint64 hm, toNat_ofNat_uint64 (by omega)]
  omega

/-- A window that reaches from an offset to the end of what was read. -/
theorem inside_rest_iff {start v : Nat} (hstart : start < 2 ^ 63) (hv : v < 2 ^ 63) :
    ReplyWindow.Inside ⟨start, sizeDiff v start⟩ v ↔ start ≤ v := by
  by_cases hle : start ≤ v
  · rw [sizeDiff_of_le hle (by omega)]
    exact ⟨fun _ => hle, fun _ => ReplyWindow.inside_of_le (Int.natCast_nonneg _) (by simp; omega)⟩
  · rw [sizeDiff_of_lt (by omega) (by omega), ReplyWindow.inside_iff (by simp; omega)]
    simp only
    omega

/-- Where the contexts of a NEGOTIATE reply begin, behind the security buffer and padding. -/
def negContextsAt (rep : Smb2NegotiateReply) : UInt32 :=
  let len := rep.securityBufferOffset.toUInt32 - 64 - 64 + rep.securityBufferLength.toUInt32
  if len &&& 0x07 ≠ 0 then len + (8 - (len &&& 0x07)) else len

/-- The windows that decoding the variable part of `v` bytes uses. An offset of 16 bits is computed
with as an `int`, one of 32 bits as an unsigned number. -/
def replyWindows (payload : Payload) (v : Nat) : List ReplyWindow :=
  match payload with
  | .error rep => [⟨0, rep.byteCount.toNat⟩]
  | .negotiate rep =>
      ⟨(rep.securityBufferOffset.toNat : Int) - 64 - 64, rep.securityBufferLength.toNat⟩ ::
        -- no context is looked at when there is none
        if rep.negContextCount = 0 then []
        else [⟨(negContextsAt rep).toNat, sizeDiff v (negContextsAt rep).toNat⟩]
  | .sessionSetup rep =>
      [⟨(rep.securityBufferOffset.toNat : Int) - 64 - 8, rep.securityBufferLength.toNat⟩]
  | .create rep => [⟨(rep.createContextOffset - 64 - 88).toNat, rep.createContextLength.toNat⟩]
  | .read rep => [⟨0, rep.dataLength.toNat⟩]
  | .ioctl rep => [⟨(rep.outputOffset - 64 - 48).toNat, rep.outputCount.toNat⟩]
  | .queryDirectory rep =>
      [⟨(rep.outputBufferOffset.toNat : Int) - 64 - 8, rep.outputBufferLength.toNat⟩]
  | .queryInfo rep =>
      -- the information is decoded from everything behind the offset
      [⟨(rep.outputBufferOffset.toNat : Int) - 64 - 8, rep.outputBufferLength.toNat⟩,
       ⟨(rep.outputBufferOffset.toNat : Int) - 64 - 8, sizeDiff v (rep.outputBufferOffset.toNat - 64 - 8)⟩]
  | .null | .treeConnect _ | .close _ | .write _ => []

/-- An offset of 32 bits without the header and the fixed part. -/
theorem toNat_sub_sub {x a b : UInt32} (h : a.toNat + b.toNat ≤ x.toNat) :
    (x - a - b).toNat = x.toNat - a.toNat - b.toNat := by
  have hfirst : (x - a).toNat = x.toNat - a.toNat :=
    UInt32.toNat_sub_of_le _ _ (UInt32.le_iff_toNat_le.mpr (by omega))
  rw [UInt32.toNat_sub_of_le _ _ (UInt32.le_iff_toNat_le.mpr (by omega)), hfirst]

/-- The bytes a decoded reply points at. -/
def Payload.data : Payload → Option Bytes
  | .error rep => some rep.errorData
  | .negotiate rep => some rep.securityBuffer
  | .sessionSetup rep => some rep.securityBuffer
  | .read rep => some rep.readData
  | .ioctl rep => some rep.outputBuffer
  | .queryDirectory rep => some rep.outputBuffer
  | .queryInfo rep => some rep.outputBuffer
  | .null | .treeConnect _ | .create _ | .close _ | .write _ => none

/-! ### When the windows are inside -/

/-- A reply as it is when its fixed part was read: the header and the fixed part are saved. -/
def replyTo (request : Smb2Pdu) (spl : UInt32) (hdr : Smb2Header) (header fixed : Bytes) : Smb2Pdu :=
  RecvState.save (RecvState.save ({ request with respNBLength := spl }.setResponseHeader hdr) header) fixed

/-- The end of some bytes, rounded up to a multiple of eight. -/
def roundUp8 (n : Nat) : Nat := (n + 7) / 8 * 8

/-- The offset and the length in the fixed part are such that no sum overflows and, for NEGOTIATE,
that security buffer and contexts lie in the frame. -/
def WindowsFit (pdu : Smb2Pdu) (fixed : Bytes) : Prop :=
  pdu.smb2ReplyIsError = true ∨
    match pdu.command with
    | .negotiate =>
        let offset := (smb2GetUint16 fixed 56 0).toNat
        let length := (smb2GetUint16 fixed 58 0).toNat
        (length ≠ 0 → offset + length ≤ pdu.respNBLength.toNat) ∧
          (smb2GetUint16 fixed 6 0 ≠ 0 →
            128 ≤ roundUp8 (offset + length) ∧ roundUp8 (offset + length) ≤ pdu.respNBLength.toNat)
    | .create => (smb2GetUint32 fixed 80 0).toNat + (smb2GetUint32 fixed 84 0).toNat < 2 ^ 32 + 152
    | .ioctl => (smb2GetUint32 fixed 32 0).toNat + (smb2GetUint32 fixed 36 0).toNat < 2 ^ 32 + 112
    | .queryDirectory | .queryInfo =>
        (smb2GetUint16 fixed 2 0).toNat + (smb2GetUint32 fixed 4 0).toNat < 2 ^ 32 + 72
    | _ => True

/-- A sum of an offset and a length that is positive as an `int`. -/
theorem toInt32_mod {n : Nat} (h : 0 < toInt32 (n % 2 ^ 32 : Nat)) :
    toInt32 (n % 2 ^ 32 : Nat) = (n % 2 ^ 32 : Nat) := by
  apply toInt32_of_lt (Int.natCast_nonneg _)
  by_contra hlarge
  exact absurd h (not_lt.mpr (toInt32_neg (not_lt.mp hlarge) (by omega)).le)

/-- A window of some bytes whose end, cut to 32 bits, was taken for the length of the variable part. -/
theorem inside_iff_no_wrap {start length : Nat} (hlength : 0 < length)
    (hv : 0 < toInt32 ((start + length) % 2 ^ 32 : Nat)) :
    ReplyWindow.Inside ⟨start, length⟩ (toInt32 ((start + length) % 2 ^ 32 : Nat)).toNat ↔
      start + length < 2 ^ 32 := by
  rw [toInt32_mod hv, ReplyWindow.inside_iff hlength, Int.toNat_natCast]
  simp only
  omega

section

variable {smb2 : Smb2Context} {pdu : Smb2Pdu} {iov : Bytes} {v : Int}

/-- Every window of the payload is inside the bytes to come. -/
def AllInside (payload : Payload) (v : Int) : Prop :=
  ∀ window ∈ replyWindows payload v.toNat, window.Inside v.toNat

/-- The window of a reply with an offset of 32 bits, behind `k` bytes of the fixed part. -/
theorem inside_uint32_iff {offset length k : UInt32} {base : Nat} (hbase : 64 + k.toNat = base)
    (hle : base ≤ offset.toNat) (hlength : length ≠ 0)
    (hv : 0 < toInt32 (offset - 64 - k + length).toNat) :
    ReplyWindow.Inside ⟨(offset - 64 - k).toNat, length.toNat⟩
        (toInt32 (offset - 64 - k + length).toNat).toNat ↔
      offset.toNat + length.toNat < 2 ^ 32 + base := by
  have hconst : (64 : UInt32).toNat = 64 := rfl
  have hpos : 0 < length.toNat := by
    rw [Nat.pos_iff_ne_zero]
    exact fun hzero => hlength (UInt32.toNat_inj.mp hzero)
  have hstart := toNat_sub_sub (x := offset) (a := 64) (b := k) (by rw [hconst]; omega)
  rw [UInt32.toNat_add] at hv ⊢
  rw [inside_iff_no_wrap hpos hv, hstart, hconst]
  omega

theorem ioctlFixed_inside (h : (ioctlFixed smb2 iov).ret = .ok v) (hv : 0 < v) :
    AllInside (ioctlFixed smb2 iov).payload v ↔
      (smb2GetUint32 iov 32 0).toNat + (smb2GetUint32 iov 36 0).toNat < 2 ^ 32 + 112 := by
  rw [ioctlFixed] at h ⊢
  cases hsize : unexpectedSize "IOCTL reply" 49 iov with
  | some msg =>
      simp only [hsize] at h
      cases h
  | none =>
      simp only [hsize] at h ⊢
      split_ifs at h with hcount hoverlap
      rw [if_neg hcount, if_neg hoverlap]
      have heq := Except.ok.inj h
      subst heq
      simp only [AllInside, replyWindows, List.mem_singleton, forall_eq]
      have hbase : (64 + 48 : UInt32).toNat = 112 := rfl
      rw [UInt32.not_lt, UInt32.le_iff_toNat_le, hbase] at hoverlap
      exact inside_uint32_iff rfl hoverlap hcount hv

theorem createFixed_inside (h : (createFixed smb2 iov).ret = .ok v) (hv : 0 < v) :
    AllInside (createFixed smb2 iov).payload v ↔
      (smb2GetUint32 iov 80 0).toNat + (smb2GetUint32 iov 84 0).toNat < 2 ^ 32 + 152 := by
  rw [createFixed] at h ⊢
  cases hsize : unexpectedSize "Create" 89 iov with
  | some msg =>
      simp only [hsize] at h
      cases h
  | none =>
      simp only [hsize] at h ⊢
      split_ifs at h with hlength hoverlap
      · cases h
        exact absurd hv (lt_irrefl 0)
      rw [if_neg hlength, if_neg hoverlap]
      have heq := Except.ok.inj h
      subst heq
      simp only [AllInside, replyWindows, List.mem_singleton, forall_eq]
      have hbase : (64 + 88 : UInt32).toNat = 152 := rfl
      rw [UInt32.not_lt, UInt32.le_iff_toNat_le, hbase] at hoverlap
      exact inside_uint32_iff rfl hoverlap hlength hv

/-- The window of a reply with an offset of 16 bits, behind the 8 bytes of the fixed part. -/
theorem inside_uint16_iff {offset : UInt16} {length : UInt32} (hle : 72 ≤ offset.toNat)
    (hlength : length ≠ 0) (hv : 0 < toInt32 (offset.toUInt32 - 64 - 8 + length).toNat) :
    ReplyWindow.Inside ⟨(offset.toNat : Int) - 64 - 8, length.toNat⟩
        (toInt32 (offset.toUInt32 - 64 - 8 + length).toNat).toNat ↔
      offset.toNat + length.toNat < 2 ^ 32 + 72 := by
  have hstart : ((offset.toUInt32 - 64 - 8).toNat : Int) = (offset.toNat : Int) - 64 - 8 := by
    have h64 : (64 : UInt32).toNat = 64 := rfl
    have h8 : (8 : UInt32).toNat = 8 := rfl
    rw [toNat_sub_sub (by rw [UInt16.toNat_toUInt32, h64, h8]; exact hle), UInt16.toNat_toUInt32, h64, h8]
    omega
  have hiff := inside_uint32_iff (k := 8) rfl (by rw [UInt16.toNat_toUInt32]; exact hle) hlength hv
  rw [hstart, UInt16.toNat_toUInt32] at hiff
  exact hiff

theorem queryDirectoryFixed_inside (h : (queryDirectoryFixed smb2 iov).ret = .ok v) (hv : 0 < v) :
    AllInside (queryDirectoryFixed smb2 iov).payload v ↔
      (smb2GetUint16 iov 2 0).toNat + (smb2GetUint32 iov 4 0).toNat < 2 ^ 32 + 72 := by
  rw [queryDirectoryFixed] at h ⊢
  cases hsize : unexpectedSize "QueryDir reply" 9 iov with
  | some msg =>
      simp only [hsize] at h
      cases h
  | none =>
      simp only [hsize] at h ⊢
      split_ifs at h with hlength hoverlap
      · cases h
        exact absurd hv (lt_irrefl 0)
      rw [if_neg hlength, if_neg hoverlap]
      have heq := Except.ok.inj h
      subst heq
      simp only [AllInside, replyWindows, List.mem_singleton, forall_eq]
      have hbase : (64 + 8 : UInt16).toNat = 72 := rfl
      rw [UInt16.not_lt, UInt16.le_iff_toNat_le, hbase] at hoverlap
      exact inside_uint16_iff hoverlap hlength hv

theorem queryInfoFixed_inside (h : (queryInfoFixed smb2 iov).ret = .ok v) (hv : 0 < v) :
    AllInside (queryInfoFixed smb2 iov).payload v ↔
      (smb2GetUint16 iov 2 0).toNat + (smb2GetUint32 iov 4 0).toNat < 2 ^ 32 + 72 := by
  rw [queryInfoFixed] at h ⊢
  cases hsize : unexpectedSize "Query Info reply" 9 iov with
  | some msg =>
      simp only [hsize] at h
      cases h
  | none =>
      simp only [hsize] at h ⊢
      split_ifs at h with hlength hoverlap
      rw [if_neg hlength, if_neg hoverlap]
      have heq := Except.ok.inj h
      subst heq
      have hbase : (64 + 8 : UInt16).toNat = 72 := rfl
      rw [UInt16.not_lt, UInt16.le_iff_toNat_le, hbase] at hoverlap
      have hiff := inside_uint16_iff hoverlap hlength hv
      have hlt := toInt32_lt ((smb2GetUint16 iov 2 0).toUInt32 - 64 - 8 + smb2GetUint32 iov 4 0).toNat
      have hoffset := (smb2GetUint16 iov 2 0).toNat_lt
      have hstart : ((smb2GetUint16 iov 2 0).toNat : Int) - 64 - 8 =
          ((smb2GetUint16 iov 2 0).toNat - 64 - 8 : Nat) := by omega
      simp only [AllInside, replyWindows, List.mem_cons, List.not_mem_nil, or_false, forall_eq_or_imp,
        forall_eq]
      rw [hiff]
      -- the second window begins where the first does, which is inside if the first is
      refine and_iff_left_of_imp fun hfits => ?_
      have hinside := hiff.mpr hfits
      rw [ReplyWindow.inside_iff (by
        rw [Nat.pos_iff_ne_zero]
        exact fun hzero => hlength (UInt32.toNat_inj.mp hzero))] at hinside
      rw [hstart] at hinside ⊢
      rw [inside_rest_iff (by omega) (by omega)]
      have hend := hinside.2
      simp only at hend
      omega

theorem sessionSetupFixed_inside (h : (sessionSetupFixed smb2 pdu iov).ret = .ok v) (hv : 0 < v) :
    AllInside (sessionSetupFixed smb2 pdu iov).payload v := by
  rw [sessionSetupFixed] at h ⊢
  cases hsize : unexpectedSize "Session Setup reply" 9 iov with
  | some msg =>
      simp only [hsize] at h
      cases h
  | none =>
      simp only [hsize] at h ⊢
      split_ifs at h with hlength hoverlap
      · cases h
        exact absurd hv (lt_irrefl 0)
      rw [if_neg hlength, if_neg hoverlap]
      have heq := Except.ok.inj h
      have hbase : (64 + 8 : UInt16).toNat = 72 := rfl
      rw [UInt16.not_lt, UInt16.le_iff_toNat_le, hbase] at hoverlap
      simp only [AllInside, replyWindows, List.mem_singleton, forall_eq]
      apply ReplyWindow.inside_of_le
      · simp only
        omega
      · simp only
        omega

/-- A window that is the whole variable part. -/
theorem inside_whole {length : UInt32} (hv : 0 < toInt32 length.toNat) :
    ReplyWindow.Inside ⟨0, length.toNat⟩ (toInt32 length.toNat).toNat := by
  have hmod : (length.toNat : Int) = (length.toNat % 2 ^ 32 : Nat) := by
    rw [Nat.mod_eq_of_lt length.toNat_lt]
  apply ReplyWindow.inside_of_le le_rfl
  rw [hmod] at hv ⊢
  rw [toInt32_mod hv]
  simp only
  omega

theorem readFixed_inside (h : (readFixed smb2 iov).ret = .ok v) (hv : 0 < v) :
    AllInside (readFixed smb2 iov).payload v := by
  rw [readFixed] at h ⊢
  simp only at h ⊢
  split_ifs at h with hsize hlength hoffset
  · cases h
    exact absurd hv (lt_irrefl 0)
  rw [if_neg hsize, if_neg hlength, if_neg hoffset]
  have heq := Except.ok.inj h
  subst heq
  simp only [AllInside, replyWindows, List.mem_singleton, forall_eq]
  exact inside_whole hv

theorem errorFixed_inside (h : (smb2ProcessErrorReplyFixed smb2 iov).ret = .ok v) (hv : 0 < v) :
    AllInside (smb2ProcessErrorReplyFixed smb2 iov).payload v := by
  rw [smb2ProcessErrorReplyFixed] at h ⊢
  cases hsize : unexpectedSize "Error reply" 9 iov with
  | some msg =>
      simp only [hsize] at h
      cases h
  | none =>
      simp only [hsize] at h ⊢
      have heq := Except.ok.inj h
      subst heq
      simp only [AllInside, replyWindows, List.mem_singleton, forall_eq]
      exact inside_whole hv

/-- The contexts begin at the rounded end of the security buffer, in numbers of 32 bits. -/
theorem toNat_negContextsAt (rep : Smb2NegotiateReply) : (negContextsAt rep).toNat =
    (2 ^ 32 + roundUp8 (rep.securityBufferOffset.toNat + rep.securityBufferLength.toNat) - 128) %
      2 ^ 32 := by
  have hoffset := rep.securityBufferOffset.toNat_lt
  have hlength := rep.securityBufferLength.toNat_lt
  have h64 : (64 : UInt32).toNat = 64 := rfl
  have h8 : (8 : UInt32).toNat = 8 := rfl
  have hlen : (rep.securityBufferOffset.toUInt32 - 64 - 64 + rep.securityBufferLength.toUInt32).toNat =
      (2 ^ 32 - 128 + rep.securityBufferOffset.toNat + rep.securityBufferLength.toNat) % 2 ^ 32 := by
    rw [UInt32.toNat_add, UInt32.toNat_sub, UInt32.toNat_sub, h64, UInt16.toNat_toUInt32,
      UInt16.toNat_toUInt32]
    omega
  rw [negContextsAt, roundUp8]
  generalize rep.securityBufferOffset.toUInt32 - 64 - 64 + rep.securityBufferLength.toUInt32 = len at hlen ⊢
  have hlow : (len &&& 0x07).toNat = len.toNat % 8 := by
    rw [UInt32.toNat_and]
    exact Nat.and_two_pow_sub_one_eq_mod _ 3
  have hzero : len &&& 0x07 ≠ 0 ↔ len.toNat % 8 ≠ 0 := by
    rw [ne_eq, ← UInt32.toNat_inj, hlow]
    rfl
  simp only [hzero]
  split_ifs with hpad
  · rw [UInt32.toNat_add, UInt32.toNat_sub, hlow, h8]
    omega
  · omega

theorem length_of_unexpectedSize {what : String} {size : UInt16} (h : unexpectedSize what size iov = none) :
    iov.length = (size &&& 0xfffe).toNat := by
  rw [unexpectedSize] at h
  simp only [ne_eq] at h
  split_ifs at h with hsize
  rw [not_or, not_not, not_not] at hsize
  rw [← hsize.2, hsize.1]

theorem negotiateFixed_inside (htotal : pdu.inVecs.totalSize = 64 + iov.length)
    (h : (negotiateFixed smb2 pdu iov).ret = .ok v) (hv : 0 < v) :
    AllInside (negotiateFixed smb2 pdu iov).payload v ↔
      ((smb2GetUint16 iov 58 0).toNat ≠ 0 →
          (smb2GetUint16 iov 56 0).toNat + (smb2GetUint16 iov 58 0).toNat ≤ pdu.respNBLength.toNat) ∧
        (smb2GetUint16 iov 6 0 ≠ 0 →
          128 ≤ roundUp8 ((smb2GetUint16 iov 56 0).toNat + (smb2GetUint16 iov 58 0).toNat) ∧
          roundUp8 ((smb2GetUint16 iov 56 0).toNat + (smb2GetUint16 iov 58 0).toNat) ≤
            pdu.respNBLength.toNat) := by
  rw [negotiateFixed] at h ⊢
  cases hsize : unexpectedSize "Negotiate reply" 65 iov with
  | some msg =>
      simp only [hsize] at h
      cases h
  | none =>
      have hlength : iov.length = 64 := length_of_unexpectedSize hsize
      simp only [hsize] at h ⊢
      split_ifs at h with hnothing hoverlap
      · cases h
        exact absurd hv (lt_irrefl 0)
      rw [if_neg hnothing, if_neg hoverlap]
      have heq := Except.ok.inj h
      have hresp := pdu.respNBLength.toNat_lt
      -- the bytes to come are what is left of the frame
      have hleft : v = (pdu.respNBLength.toNat : Int) - 128 := by
        rw [toInt32, Int.bmod_def] at heq
        omega
      have hsecurity : ReplyWindow.Inside
          ⟨((smb2GetUint16 iov 56 0).toNat : Int) - 64 - 64, (smb2GetUint16 iov 58 0).toNat⟩ v.toNat ↔
            ((smb2GetUint16 iov 58 0).toNat ≠ 0 → (smb2GetUint16 iov 56 0).toNat +
              (smb2GetUint16 iov 58 0).toNat ≤ pdu.respNBLength.toNat) := by
        by_cases hempty : (smb2GetUint16 iov 58 0).toNat = 0
        · exact ⟨fun _ hne => absurd hempty hne, fun _ => ReplyWindow.inside_of_empty _ hempty⟩
        · have hbehind : 128 ≤ (smb2GetUint16 iov 56 0).toNat := by
            by_contra hbefore
            have hbase : (64 + 64 : UInt16).toNat = 128 := rfl
            refine hoverlap ⟨fun hzero => hempty (by rw [hzero]; rfl), ?_⟩
            rw [UInt16.lt_iff_toNat_lt, hbase]
            omega
          rw [ReplyWindow.inside_iff (Nat.pos_of_ne_zero hempty)]
          simp only
          omega
      have hcontexts (rep : Smb2NegotiateReply) : ReplyWindow.Inside
          ⟨(negContextsAt rep).toNat, sizeDiff v.toNat (negContextsAt rep).toNat⟩ v.toNat ↔
            128 ≤ roundUp8 (rep.securityBufferOffset.toNat + rep.securityBufferLength.toNat) ∧
            roundUp8 (rep.securityBufferOffset.toNat + rep.securityBufferLength.toNat) ≤
              pdu.respNBLength.toNat := by
        have hat := toNat_negContextsAt rep
        have hoffset := rep.securityBufferOffset.toNat_lt
        have hlen := rep.securityBufferLength.toNat_lt
        have hsmall := (negContextsAt rep).toNat_lt
        rw [inside_rest_iff (by omega) (by omega), hat, roundUp8]
        omega
      simp only [AllInside, replyWindows, List.forall_mem_cons, hsecurity]
      refine and_congr_right fun _ => ?_
      split_ifs with hcount
      · simp [hcount]
      · simp only [List.mem_singleton, forall_eq, hcontexts, ne_eq, hcount, not_false_eq_true,
          true_implies]

end

/-- A positive number of bytes to come is the result of the decoder of the fixed part. -/
theorem smb2ReplyProcessFixed_pos {w : World} {pdu : Smb2Pdu} (hv : 0 < (smb2ReplyProcessFixed w pdu).1) :
    (fixedPart w.smb2 pdu (pdu.inVecs.iovs.getLastD [])).ret = .ok (smb2ReplyProcessFixed w pdu).1 ∧
      (smb2ReplyProcessFixed w pdu).2.1.payload =
        (fixedPart w.smb2 pdu (pdu.inVecs.iovs.getLastD [])).payload := by
  rw [smb2ReplyProcessFixed] at hv ⊢
  cases hret : (fixedPart w.smb2 pdu (pdu.inVecs.iovs.getLastD [])).ret with
  | ok ret => simp only [and_self]
  | error msg =>
      simp only [hret] at hv
      exact absurd hv (by decide)

/-- The variable part is decoded from exactly the bytes that were asked for, or the read fails. -/
theorem recvStep_variable (env : Env) {s : RecvState} {pdu : Smb2Pdu}
    (hstate : s.recvState = .recvVariable pdu) (hpos : 0 < s.readLen) (hlt : s.readLen < 2 ^ 31) :
    (∃ ret world, ret < 0 ∧ recvStep env s = .done (.returned ret none s.consumed world)) ∨
      ∃ (s' : RecvState) (bytes : Bytes), (bytes.length : Int) = s.readLen ∧ recvStep env s = s'.onVariable env pdu bytes := by
  obtain ⟨socket, -, ⟨ret, hneg, hdone⟩ | ⟨hread, hle, -, hstep⟩⟩ := recvStep_cases env s
  · exact .inl ⟨ret, _, hneg, hdone⟩
  · refine .inr ⟨s.afterRead (UInt64.ofInt s.readLen) socket,
      s.world.socket.rx.take (UInt64.ofInt s.readLen).toNat, ?_, hstep.trans ?_⟩
    · rw [List.length_take, Nat.min_eq_left hle]
      exact (toNat_readLen hpos.le (by omega) hread).1
    · simp only [RecvState.onBytes, RecvState.afterRead, hstate]

section

variable {w : World} {request : Smb2Pdu} {spl : UInt32} {hdr : Smb2Header} {header fixed : Bytes}

theorem length_of_decodeHeader (h : decodeHeader header = some hdr) : header.length = 64 := by
  rw [decodeHeader] at h
  split_ifs at h with hlength
  exact not_not.mp hlength

/-- The data of a reply are among the bytes that are read for its variable part exactly when the
server's offset and length fit. -/
theorem allInside_iff_windowsFit (hrequest : request.inVecs = {}) (hheader : decodeHeader header = some hdr)
    (hv : 0 < (smb2ReplyProcessFixed w (replyTo request spl hdr header fixed)).1) :
    AllInside (smb2ReplyProcessFixed w (replyTo request spl hdr header fixed)).2.1.payload
        (smb2ReplyProcessFixed w (replyTo request spl hdr header fixed)).1 ↔
      WindowsFit (replyTo request spl hdr header fixed) fixed := by
  obtain ⟨hret, hpayload⟩ := smb2ReplyProcessFixed_pos hv
  have hlast : (replyTo request spl hdr header fixed).inVecs.iovs.getLastD [] = fixed := by
    simp [replyTo, RecvState.save, Smb2IoVectors.smb2AddIovector, List.getLastD_eq_getLast?]
  have htotal : (replyTo request spl hdr header fixed).inVecs.totalSize = 64 + fixed.length := by
    simp only [replyTo, RecvState.save, Smb2Pdu.setResponseHeader, hrequest, Smb2IoVectors.smb2AddIovector,
      length_of_decodeHeader hheader]
  rw [hlast] at hret hpayload
  rw [hpayload, WindowsFit]
  rw [fixedPart] at hret ⊢
  cases herror : (replyTo request spl hdr header fixed).smb2ReplyIsError with
  | true =>
      simp only [herror, if_true] at hret ⊢
      simp only [true_or, iff_true]
      exact errorFixed_inside hret hv
  | false =>
      simp only [herror, Bool.false_eq_true, if_false, false_or] at hret ⊢
      cases hcommand : (replyTo request spl hdr header fixed).command with
      | negotiate =>
          simp only [hcommand] at hret ⊢
          exact negotiateFixed_inside htotal hret hv
      | sessionSetup =>
          simp only [hcommand, iff_true] at hret ⊢
          exact sessionSetupFixed_inside hret hv
      | create =>
          simp only [hcommand] at hret ⊢
          exact createFixed_inside hret hv
      | read =>
          simp only [hcommand, iff_true] at hret ⊢
          exact readFixed_inside hret hv
      | ioctl =>
          simp only [hcommand] at hret ⊢
          exact ioctlFixed_inside hret hv
      | queryDirectory =>
          simp only [hcommand] at hret ⊢
          exact queryDirectoryFixed_inside hret hv
      | queryInfo =>
          simp only [hcommand] at hret ⊢
          exact queryInfoFixed_inside hret hv
      | treeConnect | close | write =>
          simp only [hcommand, treeConnectFixed, closeFixed, writeFixed] at hret
          split at hret
          · cases hret
          · rw [← Except.ok.inj hret] at hv
            exact absurd hv (lt_irrefl 0)
      | logoff | treeDisconnect | flush | echo | setInfo =>
          simp only [hcommand] at hret
          rw [← Except.ok.inj hret] at hv
          exact absurd hv (lt_irrefl 0)

end

/-- A request that waits for its reply. -/
def waitingRequest (command : Smb2Command) : Smb2Pdu := { command, header := {}, appData := 0 }

/-- Sixteen bytes of information, right behind the fixed part. -/
def informationPart : Bytes := leBytes 2 9 ++ leBytes 2 72 ++ leBytes 4 16

theorem allInside_informationPart :
    ∃ hdr, (smb2ReplyProcessFixed (echoWaiting []) (replyTo (waitingRequest .queryInfo) 88 hdr
        (replyHeader .queryInfo NtStatus.success 1 0 0) informationPart)).1 = 16 ∧
      AllInside (smb2ReplyProcessFixed (echoWaiting []) (replyTo (waitingRequest .queryInfo) 88 hdr
        (replyHeader .queryInfo NtStatus.success 1 0 0) informationPart)).2.1.payload 16 := by
  have hany : (decodeHeader (replyHeader .queryInfo NtStatus.success 1 0 0)).any (fun hdr =>
      (smb2ReplyProcessFixed (echoWaiting []) (replyTo (waitingRequest .queryInfo) 88 hdr
        (replyHeader .queryInfo NtStatus.success 1 0 0) informationPart)).1 = 16) = true := by
    decide
  obtain ⟨hdr, hhdr, hret⟩ := (Option.any_eq_true _ _).mp hany
  rw [decide_eq_true_eq] at hret
  refine ⟨hdr, hret, ?_⟩
  have hfits : WindowsFit (replyTo (waitingRequest .queryInfo) 88 hdr
      (replyHeader .queryInfo NtStatus.success 1 0 0) informationPart) informationPart :=
    .inr (show 72 + 16 < 2 ^ 32 + 72 by omega)
  have hinside := (allInside_iff_windowsFit (w := echoWaiting []) rfl hhdr (by rw [hret]; decide)).mpr hfits
  rwa [hret] at hinside

/-- An offset and a length of an IOCTL reply whose sum has more than 32 bits. -/
def wrappingPart : Bytes :=
  leBytes 2 49 ++ leBytes 2 0 ++ leBytes 4 0x00060194 ++ leBytes 16 0 ++ leBytes 4 0 ++ leBytes 4 0 ++
    leBytes 4 0x80000000 ++ leBytes 4 0x80000100 ++ leBytes 4 0 ++ leBytes 4 0

/-- The client reads 144 bytes and takes a window two gigabytes behind them. -/
theorem not_allInside_wrappingPart :
    ∃ hdr, decodeHeader (replyHeader .ioctl NtStatus.success 1 0 0) = some hdr ∧
      (smb2ReplyProcessFixed (echoWaiting []) (replyTo (waitingRequest .ioctl) 256 hdr
        (replyHeader .ioctl NtStatus.success 1 0 0) wrappingPart)).1 = 144 ∧
      ¬ AllInside (smb2ReplyProcessFixed (echoWaiting []) (replyTo (waitingRequest .ioctl) 256 hdr
        (replyHeader .ioctl NtStatus.success 1 0 0) wrappingPart)).2.1.payload 144 := by
  have hany : (decodeHeader (replyHeader .ioctl NtStatus.success 1 0 0)).any (fun hdr =>
      (smb2ReplyProcessFixed (echoWaiting []) (replyTo (waitingRequest .ioctl) 256 hdr
        (replyHeader .ioctl NtStatus.success 1 0 0) wrappingPart)).1 = 144 ∧
      (replyWindows (smb2ReplyProcessFixed (echoWaiting []) (replyTo (waitingRequest .ioctl) 256 hdr
        (replyHeader .ioctl NtStatus.success 1 0 0) wrappingPart)).2.1.payload 144).any (fun window =>
          0 < window.length ∧ 144 < window.start + window.length)) = true := by
    decide
  obtain ⟨hdr, hhdr, hall⟩ := (Option.any_eq_true _ _).mp hany
  rw [decide_eq_true_eq] at hall
  obtain ⟨hret, hwindow⟩ := hall
  obtain ⟨window, hmem, hbeyond⟩ := List.any_eq_true.mp hwindow
  rw [decide_eq_true_eq] at hbeyond
  refine ⟨hdr, hhdr, hret, fun hinside => ?_⟩
  have hle := ((ReplyWindow.inside_iff hbeyond.1).mp (hinside window hmem)).2
  have hv : ((144 : Int).toNat : Int) = 144 := rfl
  rw [hv] at hle
  omega

end CodeStudy.Samba
