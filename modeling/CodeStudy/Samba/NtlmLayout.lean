import CodeStudy.Samba.Fields
import CodeStudy.Samba.Ntlm

/-!
# The layout of the AUTHENTICATE message

The header of an AUTHENTICATE message says of each payload how long it is and where it stands. In
the message the client builds, each of these descriptions is true, whatever the names, the
response and the server's target information are, as long as the message is shorter than 2 ^ 16
bytes. The message is followed as the string of bytes that the growing buffer holds: the header with
open offsets first, then one payload after the other with the patch of its offset.
-/

namespace CodeStudy.Samba

open GrowBuffer

/-! ### What the message should be -/

/-- Where a payload is said to stand. -/
structure PayloadFields where
  len : Nat
  maxLen : Nat
  offset : Nat

/-- The description of a payload that stands at a position of the header. -/
def payloadFields (message : Bytes) (position : Nat) : PayloadFields where
  len := leNat (slice message position 2)
  maxLen := leNat (slice message (position + 2) 2)
  offset := leNat (slice message (position + 4) 4)

/-- The description is that of a payload behind the header. -/
structure PayloadFields.Designates (fields : PayloadFields) (message payload : Bytes) : Prop where
  len_eq : fields.len = payload.length
  maxLen_eq : fields.maxLen = payload.length
  after_header : 64 ≤ fields.offset
  inside : fields.offset + fields.len ≤ message.length
  payload_eq : slice message fields.offset fields.len = payload

/-- Neither region has a byte of the other. -/
def PayloadFields.Disjoint (fields fields' : PayloadFields) : Prop :=
  fields.offset + fields.len ≤ fields'.offset ∨ fields'.offset + fields'.len ≤ fields.offset

/-- An AUTHENTICATE message with these payloads, each with the position of its description. -/
structure WellLaidOut (message : Bytes) (payloads : List (Nat × Bytes)) : Prop where
  signature_eq : slice message 0 12 = ntlmssp ++ leBytes 4 3
  designates : ∀ payload ∈ payloads, (payloadFields message payload.1).Designates message payload.2
  disjoint : (payloads.map fun payload => payloadFields message payload.1).Pairwise PayloadFields.Disjoint
  /-- There is no session key. -/
  sessionKey_eq : slice message 52 8 = List.replicate 8 0

namespace NtlmEnv

variable (env : NtlmEnv)

def namePayload (name : Bytes) : Bytes := (env.utf8ToUcs2 name).elim [] ucs2Bytes

/-- The target information in a CHALLENGE message. -/
def targetInfo (challenge : Bytes) : Bytes :=
  slice challenge (leNat (slice challenge 44 4)) (leNat (slice challenge 40 4) >>> 16)

/-- What the proof in an NTLMv2 response is computed for, besides the server's challenge. -/
def ntTemp (auth : NtlmAuthData) (serverName : Bytes) : Bytes :=
  [0x01, 0x01, 0, 0, 0, 0, 0, 0] ++ leBytes 8 (timevalToWinEpoch env.time) ++ auth.clientChallenge.1 ++
    List.replicate 4 0 ++ serverName ++ List.replicate 4 0

/-- The NTLMv2 response: the proof, and what it is a proof for. -/
def ntResponse (auth : NtlmAuthData) (responseKeyNT : Digest) (challenge : Bytes) : Bytes :=
  let temp := env.ntTemp auth (targetInfo challenge)
  (env.hmacMd5 responseKeyNT.1 (slice challenge 24 8 ++ temp)).1 ++ temp

def lmResponse (auth : NtlmAuthData) (responseKeyNT : Digest) (challenge : Bytes) : Bytes :=
  (env.hmacMd5 responseKeyNT.1 (slice challenge 24 8 ++ auth.clientChallenge.1)).1 ++ auth.clientChallenge.1

/-- The payloads in the order of the message, with the positions of their descriptions. -/
def payloads (auth : NtlmAuthData) (responseKeyNT : Digest) (challenge : Bytes) : List (Nat × Bytes) :=
  [(28, env.namePayload auth.domain), (36, env.namePayload auth.user),
    (44, env.namePayload auth.workstation), (12, env.lmResponse auth responseKeyNT challenge),
    (20, env.ntResponse auth responseKeyNT challenge)]

/-- Nothing that the message is made from is missing: there is memory, the names can be converted
and the CHALLENGE message contains the target information it describes. -/
structure Provided (auth : NtlmAuthData) (challenge : Bytes) : Prop where
  malloc : ∀ b n, (env.malloc b n).isSome
  allocString : ∀ s, env.allocString s
  domain : (utf8Units (cString auth.domain)).isSome
  user : (utf8Units (cString auth.user)).isSome
  workstation : (utf8Units (cString auth.workstation)).isSome
  header : 48 ≤ challenge.length
  targetInfo : leNat (slice challenge 44 4) + leNat (slice challenge 40 4) >>> 16 ≤ challenge.length

end NtlmEnv

/-! ### The header -/

theorem leNat_lengthFields {n : Nat} (hn : n < 2 ^ 16) :
    leNat (slice (lengthFields n) 0 2) = n ∧ leNat (slice (lengthFields n) 2 2) = n := by
  have hor : n <<< 16 ||| n = n * 65536 + n := by
    rw [← Nat.shiftLeft_add_eq_or_of_lt hn, Nat.shiftLeft_eq]
  have hlow : slice (lengthFields n) 0 2 = leBytes 2 (n <<< 16 ||| n) := rfl
  have hhigh : slice (lengthFields n) 2 2 = leBytes 2 ((n <<< 16 ||| n) / 256 / 256) := rfl
  have hdiv : (n * 65536 + n) / 256 / 256 = n := by
    rw [Nat.div_div_eq_div_mul]
    show (n * 65536 + n) / 65536 = n
    omega
  rw [hlow, hhigh, hor, leNat_leBytes, leNat_leBytes, hdiv]
  show (n * 65536 + n) % 65536 = n ∧ n % 65536 = n
  omega

/-- The header with the lengths of the response and of the three names, and open offsets. -/
def openHeader (nt domain user workstation : Nat) : Bytes :=
  [ntlmssp, leBytes 4 3, leBytes 4 0x00180018, leBytes 4 0, lengthFields nt, leBytes 4 0].flatten ++
    [lengthFields domain, leBytes 4 0].flatten ++ [lengthFields user, leBytes 4 0].flatten ++
    [lengthFields workstation, leBytes 4 0].flatten ++
    [leBytes 4 0, leBytes 4 0, leBytes 4 negotiateFlags].flatten

/-- The header once the payloads have been appended: each offset is the length of the message before
its payload. -/
def closedHeader (nt domain user workstation : Nat) : Bytes :=
  let header := openHeader nt domain user workstation
  let header := setField 4 header 32 64
  let header := setField 4 header 40 (64 + domain)
  let header := setField 4 header 48 (64 + domain + user)
  let header := setField 4 header 16 (64 + domain + user + workstation)
  setField 4 header 24 (64 + domain + user + workstation + 24)

section

variable {nt domain user workstation : Nat}

theorem length_openHeader : (openHeader nt domain user workstation).length = 64 := rfl

theorem length_closedHeader : (closedHeader nt domain user workstation).length = 64 := by
  simp only [closedHeader, length_setField, length_openHeader]

/-- A description in a header is that of a message which starts with the header. -/
theorem payloadFields_append {header rest : Bytes} {position : Nat} (h : position + 8 ≤ header.length) :
    payloadFields (header ++ rest) position = payloadFields header position := by
  rw [payloadFields, payloadFields, slice_append_left (by omega), slice_append_left (by omega),
    slice_append_left (by omega)]

/-- What a description with these lengths and this offset says. -/
theorem payloadFields_eq {header : Bytes} {position n offset : Nat} (hn : n < 2 ^ 16)
    (hoffset : offset < 2 ^ 32) (hlength : slice header position 4 = lengthFields n)
    (hposition : slice header (position + 4) 4 = leBytes 4 offset) :
    payloadFields header position = ⟨n, n, offset⟩ := by
  have hlow : slice header position 2 = slice (lengthFields n) 0 2 := by
    rw [← hlength, slice, slice, slice, List.drop_zero, List.take_take]
    rfl
  have hhigh : slice header (position + 2) 2 = slice (lengthFields n) 2 2 := by
    rw [← hlength, slice, slice, slice, List.drop_take, List.drop_drop, List.take_take]
    rfl
  rw [payloadFields, hlow, hhigh, hposition, (leNat_lengthFields hn).1, (leNat_lengthFields hn).2,
    leNat_leBytes_of_lt hoffset]

/-- Every description in the header but the offsets is as it was written first. -/
theorem slice_closedHeader {offset n : Nat}
    (h32 : offset + n ≤ 32 ∨ 36 ≤ offset) (h40 : offset + n ≤ 40 ∨ 44 ≤ offset)
    (h48 : offset + n ≤ 48 ∨ 52 ≤ offset) (h16 : offset + n ≤ 16 ∨ 20 ≤ offset)
    (h24 : offset + n ≤ 24 ∨ 28 ≤ offset) :
    slice (closedHeader nt domain user workstation) offset n =
      slice (openHeader nt domain user workstation) offset n := by
  rw [closedHeader, slice_setField_of_disjoint h24, slice_setField_of_disjoint h16,
    slice_setField_of_disjoint h48, slice_setField_of_disjoint h40, slice_setField_of_disjoint h32]

theorem payloadFields_closedHeader (hfits : 64 + domain + user + workstation + 24 + nt < 2 ^ 16) :
    payloadFields (closedHeader nt domain user workstation) 28 = ⟨domain, domain, 64⟩ ∧
      payloadFields (closedHeader nt domain user workstation) 36 = ⟨user, user, 64 + domain⟩ ∧
      payloadFields (closedHeader nt domain user workstation) 44 =
        ⟨workstation, workstation, 64 + domain + user⟩ ∧
      payloadFields (closedHeader nt domain user workstation) 12 =
        ⟨24, 24, 64 + domain + user + workstation⟩ ∧
      payloadFields (closedHeader nt domain user workstation) 20 =
        ⟨nt, nt, 64 + domain + user + workstation + 24⟩ := by
  refine ⟨?_, ?_, ?_, ?_, ?_⟩
  · apply payloadFields_eq (by omega) (by omega)
    · rw [slice_closedHeader (by omega) (by omega) (by omega) (by omega) (by omega)]
      rfl
    · rw [closedHeader, slice_setField_of_disjoint (by omega), slice_setField_of_disjoint (by omega),
        slice_setField_of_disjoint (by omega), slice_setField_of_disjoint (by omega)]
      apply slice_setField_self
      rw [length_openHeader]
      decide
  · apply payloadFields_eq (by omega) (by omega)
    · rw [slice_closedHeader (by omega) (by omega) (by omega) (by omega) (by omega)]
      rfl
    · rw [closedHeader, slice_setField_of_disjoint (by omega), slice_setField_of_disjoint (by omega),
        slice_setField_of_disjoint (by omega)]
      apply slice_setField_self
      rw [length_setField, length_openHeader]
      decide
  · apply payloadFields_eq (by omega) (by omega)
    · rw [slice_closedHeader (by omega) (by omega) (by omega) (by omega) (by omega)]
      rfl
    · rw [closedHeader, slice_setField_of_disjoint (by omega), slice_setField_of_disjoint (by omega)]
      apply slice_setField_self
      simp only [length_setField, length_openHeader]
      decide
  · apply payloadFields_eq (by omega) (by omega)
    · rw [slice_closedHeader (by omega) (by omega) (by omega) (by omega) (by omega)]
      rfl
    · rw [closedHeader, slice_setField_of_disjoint (by omega)]
      apply slice_setField_self
      simp only [length_setField, length_openHeader]
      decide
  · apply payloadFields_eq (by omega) (by omega)
    · rw [slice_closedHeader (by omega) (by omega) (by omega) (by omega) (by omega)]
      rfl
    · rw [closedHeader]
      apply slice_setField_self
      simp only [length_setField, length_openHeader]
      decide

end

/-! ### The payloads behind the header -/

/-- A message with its header closed, and the payloads. -/
def closedMessage (domain user workstation lm nt : Bytes) : Bytes :=
  closedHeader nt.length domain.length user.length workstation.length ++
    (domain ++ user ++ workstation ++ lm ++ nt)

theorem designates_of_eq {message payload : Bytes} {fields : PayloadFields} (before after : Bytes)
    (hmessage : message = before ++ payload ++ after)
    (hfields : fields = ⟨payload.length, payload.length, before.length⟩) (hbefore : 64 ≤ before.length) :
    fields.Designates message payload := by
  rw [hfields]
  refine ⟨rfl, rfl, hbefore, ?_, ?_⟩
  · show before.length + payload.length ≤ message.length
    rw [hmessage, List.length_append, List.length_append]
    omega
  · show slice message before.length payload.length = payload
    rw [hmessage, slice_append_middle]

theorem wellLaidOut_closedMessage {domain user workstation lm nt : Bytes} (hlm : lm.length = 24)
    (hfits : 64 + domain.length + user.length + workstation.length + 24 + nt.length < 2 ^ 16) :
    WellLaidOut (closedMessage domain user workstation lm nt)
      [(28, domain), (36, user), (44, workstation), (12, lm), (20, nt)] := by
  obtain ⟨hdomain, huser, hworkstation, hlmFields, hnt⟩ := payloadFields_closedHeader hfits
  have hheader : (closedHeader nt.length domain.length user.length workstation.length).length = 64 :=
    length_closedHeader
  have hfields : ∀ position, position + 8 ≤ 64 →
      payloadFields (closedHeader nt.length domain.length user.length workstation.length) position =
        payloadFields (closedMessage domain user workstation lm nt) position :=
    fun position hposition => (payloadFields_append (by omega)).symm
  rw [hfields _ (by omega)] at hdomain huser hworkstation hlmFields hnt
  have hopen : ∀ offset n, offset + n ≤ 12 ∨ offset = 52 ∧ n = 8 →
      slice (closedMessage domain user workstation lm nt) offset n =
        slice (openHeader nt.length domain.length user.length workstation.length) offset n := by
    intro offset n hoffset
    rw [closedMessage, slice_append_left (by omega)]
    exact slice_closedHeader (by omega) (by omega) (by omega) (by omega) (by omega)
  refine ⟨?_, ?_, ?_, ?_⟩
  · rw [hopen 0 12 (by omega)]
    rfl
  · intro payload hpayload
    simp only [List.mem_cons, List.not_mem_nil, or_false] at hpayload
    set header := closedHeader nt.length domain.length user.length workstation.length with hdef
    obtain rfl | rfl | rfl | rfl | rfl := hpayload
    · apply designates_of_eq header (user ++ workstation ++ lm ++ nt) _ _ hheader.ge
      · simp only [closedMessage, List.append_assoc, hdef]
      · rw [hdomain, hheader]
    · apply designates_of_eq (header ++ domain) (workstation ++ lm ++ nt)
      · simp only [closedMessage, List.append_assoc, hdef]
      · simp only [huser, List.length_append, hheader]
      · simp only [List.length_append, hheader, Nat.le_add_right]
    · apply designates_of_eq (header ++ domain ++ user) (lm ++ nt)
      · simp only [closedMessage, List.append_assoc, hdef]
      · simp only [hworkstation, List.length_append, hheader]
      · simp only [List.length_append, hheader, Nat.add_assoc, Nat.le_add_right]
    · apply designates_of_eq (header ++ domain ++ user ++ workstation) nt
      · simp only [closedMessage, List.append_assoc, hdef]
      · simp only [hlmFields, hlm, List.length_append, hheader]
      · simp only [List.length_append, hheader, Nat.add_assoc, Nat.le_add_right]
    · apply designates_of_eq (header ++ domain ++ user ++ workstation ++ lm) []
      · simp only [closedMessage, List.append_assoc, List.append_nil, hdef]
      · simp only [hnt, hlm, List.length_append, hheader]
      · simp only [List.length_append, hheader, Nat.add_assoc, Nat.le_add_right]
  · simp only [List.map_cons, List.map_nil, hdomain, huser, hworkstation, hlmFields, hnt,
      PayloadFields.Disjoint, List.pairwise_cons, List.mem_cons, List.not_mem_nil, or_false,
      forall_eq_or_imp, forall_eq, false_imp_iff, implies_true, List.Pairwise.nil, and_true]
    omega
  · rw [hopen 52 8 (by omega)]
    rfl

/-! ### The program that makes the message -/

section

variable {env : NtlmEnv} {auth : NtlmAuthData}

theorem rewrites_appendPayload {header rest : Bytes} (position : Nat) (hposition : position + 4 ≤ 64)
    (hheader : header.length = 64) (pieces : List Bytes) :
    Rewrites env.growth (header ++ rest) (env.appendPayload position pieces)
      (setField 4 header position (64 + rest.length) ++ (rest ++ pieces.flatten)) := by
  have hinside (n : Nat) : position + (leBytes 4 n).length ≤ (header ++ rest).length := by
    rw [length_leBytes, List.length_append]
    omega
  have hpatched (n : Nat) (hn : n = (header ++ rest).length) :
      memcpy (header ++ rest) position (leBytes 4 n) = setField 4 header position (64 + rest.length) ++ rest := by
    rw [setField_eq (by omega), memcpy_append_left (by rw [length_leBytes]; omega), hn,
      List.length_append, hheader]
  have hne : setField 4 header position (64 + rest.length) ++ rest ≠ [] := by
    apply List.append_ne_nil_of_left_ne_nil
    rw [← List.length_pos_iff, length_setField]
    omega
  rw [← List.append_assoc]
  constructor
  · intro b b' hb hrun
    obtain ⟨b₁, hpatch, hrest⟩ := bind_eq_ok.mp hrun
    have hbytes : leBytes 4 b.len ≠ [] := List.ne_nil_of_length_eq_add_one (length_leBytes 4 b.len)
    have h₁ := hb.patch (hinside _) hbytes hpatch
    rw [hpatched _ (hb.holds_of_patch hbytes hpatch).len_eq] at h₁
    exact h₁.appendBlindly hne hrest
  · intro hmalloc b hb
    obtain ⟨b₁, hpatch, h₁⟩ := hb.patch (hinside b.len)
    rw [hpatched _ hb.len_eq] at h₁
    obtain ⟨b₂, hrest, h₂⟩ := h₁.appendBlindly hmalloc pieces
    refine ⟨b₂, ?_, h₂⟩
    rw [NtlmEnv.appendPayload, hpatch, ok_bind]
    exact hrest

/-- The bytes of a name that is left out or converted. -/
def nameBytes (name : Option (List UInt16)) : Bytes := (name.toList.map ucs2Bytes).flatten

theorem flatten_pieces (name : Option (List UInt16)) :
    (name.toList.map ucs2Bytes).flatten = nameBytes name := rfl

theorem length_nameBytes (name : Option (List UInt16)) : (nameBytes name).length = ucs2Length name := by
  cases name with
  | none => rfl
  | some units =>
      have hsome : nameBytes (some units) = ucs2Bytes units := List.append_nil (ucs2Bytes units)
      rw [hsome, length_ucs2Bytes]
      rfl

theorem writes_authenticateMessage {domain user workstation : Option (List UInt16)} {lmStr nt : Bytes}
    (hdomain : env.ucs2Name auth.domain.isEmpty auth.domain = .ok domain)
    (huser : env.ucs2Name false auth.user = .ok user)
    (hworkstation : env.ucs2Name auth.workstation.isEmpty auth.workstation = .ok workstation)
    (hlm : lmStr.length = 16) :
    Writes env.growth (env.authenticateMessage auth lmStr nt)
      (closedMessage (nameBytes domain) (nameBytes user) (nameBytes workstation)
        (lmStr ++ auth.clientChallenge.1) nt) := by
  simp only [NtlmEnv.authenticateMessage, hdomain, huser, hworkstation, ok_bind]
  have hheader : (openHeader nt.length (ucs2Length domain) (ucs2Length user)
      (ucs2Length workstation)).length = 64 := rfl
  have hne {a b : Bytes} (ha : a ≠ []) : a ++ b ≠ [] := List.append_ne_nil_of_left_ne_nil ha b
  have hfirst : [ntlmssp, leBytes 4 3, leBytes 4 0x00180018, leBytes 4 0, lengthFields nt.length,
      leBytes 4 0].flatten ≠ [] := List.cons_ne_nil _ _
  -- The fields of the header.
  have hopen : Writes env.growth
      (env.encodersUnchecked [ntlmssp, leBytes 4 3, leBytes 4 0x00180018, leBytes 4 0,
        lengthFields nt.length, leBytes 4 0] {}) _ :=
    writes_appendBlindly (by decide) (by decide)
      (by show 4 ≤ 2 * ((8 + 0 + 256) / 256 * 256); decide) _
  have hset {iov : Bytes} {position value : Nat} (h : iov.length = 64) :
      (setField 4 iov position value).length = 64 := by rw [length_setField, h]
  -- The payload of the domain is the first behind the header.
  have hdomainPayload := @rewrites_appendPayload env _ [] 32 (by decide) hheader
    (domain.toList.map ucs2Bytes)
  rw [List.append_nil] at hdomainPayload
  have hmessage := hopen.bind
    ((rewrites_appendBlindly hfirst [lengthFields (ucs2Length domain), leBytes 4 0]).bind
    ((rewrites_appendBlindly (hne hfirst) [lengthFields (ucs2Length user), leBytes 4 0]).bind
    ((rewrites_appendBlindly (hne (hne hfirst)) [lengthFields (ucs2Length workstation), leBytes 4 0]).bind
    ((rewrites_appendBlindly (hne (hne (hne hfirst))) [leBytes 4 0, leBytes 4 0, leBytes 4 negotiateFlags]).bind
    (hdomainPayload.bind
    ((rewrites_appendPayload 40 (by decide) (hset hheader) (user.toList.map ucs2Bytes)).bind
    ((rewrites_appendPayload 48 (by decide) (hset (hset hheader)) (workstation.toList.map ucs2Bytes)).bind
    ((rewrites_appendPayload 16 (by decide) (hset (hset (hset hheader))) [lmStr, auth.clientChallenge.1]).bind
    (rewrites_appendPayload 24 (by decide) (hset (hset (hset (hset hheader)))) [nt])))))))))
  simp only [List.nil_append, List.length_nil, Nat.add_zero, List.flatten_cons, List.flatten_nil,
    List.append_nil, flatten_pieces, List.length_append, length_nameBytes, hlm, auth.clientChallenge.2,
    ← Nat.add_assoc] at hmessage
  rw [closedMessage, closedHeader, length_nameBytes, length_nameBytes, length_nameBytes]
  exact hmessage

theorem of_copy {v : View} {offset n : Nat} {x : Block n} (h : v.copy offset n = .ok x) :
    offset + n ≤ v.buf.length ∧ x.1 = slice v.buf offset n := by
  rw [View.copy] at h
  by_cases hle : offset + n ≤ v.buf.length
  · rw [dif_pos hle, Except.ok.injEq] at h
    exact ⟨hle, by rw [← h, slice]⟩
  · rw [dif_neg hle] at h
    cases h

/-- A name that is left out is empty, and what is appended for it is its conversion all the same. -/
theorem nameBytes_of_ucs2Name {leftOut : Bool} {name : Bytes} {converted : Option (List UInt16)}
    (hleftOut : leftOut = true → name = []) (h : env.ucs2Name leftOut name = .ok converted) :
    nameBytes converted = env.namePayload name := by
  rw [NtlmEnv.ucs2Name] at h
  by_cases hleft : leftOut = true
  · rw [if_pos hleft, Except.ok.injEq] at h
    rw [← h, hleftOut hleft, NtlmEnv.namePayload, NtlmEnv.utf8ToUcs2]
    by_cases halloc : env.allocString [] = true
    · rw [if_pos halloc]
      rfl
    · rw [if_neg halloc]
      rfl
  · rw [if_neg hleft] at h
    cases hunits : env.utf8ToUcs2 name with
    | none =>
        rw [hunits] at h
        cases h
    | some units =>
        rw [hunits, Except.ok.injEq] at h
        rw [← h, NtlmEnv.namePayload, hunits]
        exact List.append_nil _

theorem exists_ucs2Name {name : Bytes} (leftOut : Bool) (halloc : ∀ s, env.allocString s)
    (h : (utf8Units (cString name)).isSome) : ∃ converted, env.ucs2Name leftOut name = .ok converted := by
  obtain ⟨units, hunits⟩ := Option.isSome_iff_exists.mp h
  by_cases hleft : leftOut = true
  · exact ⟨none, if_pos hleft⟩
  · refine ⟨some units, ?_⟩
    rw [NtlmEnv.ucs2Name, if_neg hleft, NtlmEnv.utf8ToUcs2, if_pos (halloc name), hunits]

theorem flatten_tempPieces (serverChallenge serverName : Bytes) :
    (env.tempPieces auth serverChallenge serverName).flatten =
      List.replicate 8 0 ++ serverChallenge ++ env.ntTemp auth serverName := by
  simp only [NtlmEnv.tempPieces, NtlmEnv.ntTemp, List.flatten_cons, List.flatten_nil, List.append_nil,
    List.append_assoc]

/-- The proof replaces the first 16 bytes of what was written for it. -/
theorem exists_patch_proof {b : GrowBuffer} {serverChallenge temp : Bytes} (ntProofStr : Digest)
    (hchallenge : serverChallenge.length = 8)
    (h : Holds b (List.replicate 8 0 ++ serverChallenge ++ temp)) :
    ∃ b', patch 0 ntProofStr.1 b = .ok b' ∧ read b'.buf b'.len = .ok (ntProofStr.1 ++ temp) := by
  have hfirst : (List.replicate 8 0 ++ serverChallenge : Bytes).length = 16 := by
    rw [List.length_append, List.length_replicate, hchallenge]
  have hproof := ntProofStr.2
  have hinside : 0 + ntProofStr.1.length ≤
      (List.replicate 8 0 ++ serverChallenge ++ temp : Bytes).length := by
    rw [List.length_append]
    omega
  obtain ⟨b', hpatch, h'⟩ := h.patch hinside
  refine ⟨b', hpatch, ?_⟩
  have hdrop : (List.replicate 8 0 ++ serverChallenge : Bytes).drop (0 + ntProofStr.1.length) = [] := by
    rw [List.drop_eq_nil_iff]
    omega
  rw [h'.read_eq, memcpy_append_left (by omega), memcpy, List.take_zero, hdrop, List.nil_append,
    List.append_nil]

/-- What `encodeNtlmAuth` does once its response is encoded. -/
theorem encodeNtlmAuth_eq {responseKeyNT : Digest} {b : GrowBuffer}
    (hkey : env.ntowfv2 auth = some responseKeyNT) (hstart : Holds auth.toGrowBuffer [])
    (hheader : 48 ≤ auth.ntlmBuf.length)
    (htarget : leNat (slice auth.ntlmBuf 44 4) + leNat (slice auth.ntlmBuf 40 4) >>> 16 ≤ auth.ntlmBuf.length)
    (hencoders : env.encoders (env.tempPieces auth (slice auth.ntlmBuf 24 8) (NtlmEnv.targetInfo auth.ntlmBuf))
      auth.toGrowBuffer = .ok (true, b)) :
    env.encodeNtlmAuth auth ((View.of auth.ntlmBuf).skip 24) =
      env.authenticateMessage auth
          (env.hmacMd5 responseKeyNT.1 (slice auth.ntlmBuf 24 8 ++ auth.clientChallenge.1)).1
          (env.ntResponse auth responseKeyNT auth.ntlmBuf) >>= fun b =>
        .ok { auth with toGrowBuffer := b, exportedSessionKey :=
          (env.hmacMd5 responseKeyNT.1 (env.hmacMd5 responseKeyNT.1
            (slice auth.ntlmBuf 24 8 ++ env.ntTemp auth (NtlmEnv.targetInfo auth.ntlmBuf))).1).1 } := by
  have hcopy (offset n : Nat) (h : offset + n ≤ auth.ntlmBuf.length) :
      (View.of auth.ntlmBuf).copy offset n = .ok ⟨slice auth.ntlmBuf offset n, length_slice h⟩ := dif_pos h
  have hchallenge : ((View.of auth.ntlmBuf).skip 24).copy 0 8 =
      .ok ⟨slice auth.ntlmBuf 24 8, length_slice (by omega)⟩ := by
    rw [View.copy, dif_pos (by show 0 + 8 ≤ (auth.ntlmBuf.drop 24).length; rw [List.length_drop]; omega)]
    rfl
  have hholds : Holds b (List.replicate 8 0 ++ slice auth.ntlmBuf 24 8 ++
      env.ntTemp auth (NtlmEnv.targetInfo auth.ntlmBuf)) := by
    have h := hstart.of_appendAll hencoders
    rw [List.nil_append, flatten_tempPieces] at h
    exact h
  obtain ⟨b', hpatch, hread⟩ := exists_patch_proof
    (env.hmacMd5 responseKeyNT.1 (slice auth.ntlmBuf 24 8 ++ env.ntTemp auth (NtlmEnv.targetInfo auth.ntlmBuf)))
    (length_slice (by omega)) hholds
  have hdrop : (List.replicate 8 0 ++ slice auth.ntlmBuf 24 8 ++
      env.ntTemp auth (NtlmEnv.targetInfo auth.ntlmBuf)).drop 8 =
        slice auth.ntlmBuf 24 8 ++ env.ntTemp auth (NtlmEnv.targetInfo auth.ntlmBuf) := by
    rw [List.append_assoc]
    rfl
  rw [NtlmEnv.encodeNtlmAuth, hkey]
  simp only [hcopy 20 4 (by omega), hcopy 40 4 (by omega), hcopy 44 4 (by omega), hchallenge,
    hcopy _ _ htarget, ok_bind]
  rw [← NtlmEnv.targetInfo, hencoders]
  simp only [ok_bind, if_true, hholds.read_eq, hdrop, hpatch, hread]
  rfl

/-- A run of `encodeNtlmAuth` that reports success has encoded its response. -/
theorem of_encodeNtlmAuth {auth' : NtlmAuthData}
    (hrun : env.encodeNtlmAuth auth ((View.of auth.ntlmBuf).skip 24) = .ok auth') :
    48 ≤ auth.ntlmBuf.length ∧
      leNat (slice auth.ntlmBuf 44 4) + leNat (slice auth.ntlmBuf 40 4) >>> 16 ≤ auth.ntlmBuf.length ∧
      ∃ b, env.encoders (env.tempPieces auth (slice auth.ntlmBuf 24 8) (NtlmEnv.targetInfo auth.ntlmBuf))
        auth.toGrowBuffer = .ok (true, b) := by
  rw [NtlmEnv.encodeNtlmAuth] at hrun
  cases hkey : env.ntowfv2 auth with
  | none =>
      rw [hkey] at hrun
      cases hrun
  | some responseKeyNT =>
      simp only [hkey, bind_eq_ok] at hrun
      obtain ⟨-, -, len, hlen, position, hposition, challenge, hchallenge, name, hname, ⟨encoded, b⟩,
        hencoders, hrest⟩ := hrun
      have hlenEq : len.1 = slice auth.ntlmBuf 40 4 := (of_copy hlen).2
      have hpositionEq : position.1 = slice auth.ntlmBuf 44 4 := (of_copy hposition).2
      obtain ⟨htarget, hnameEq⟩ := of_copy hname
      have hchallengeEq : challenge.1 = slice auth.ntlmBuf 24 8 := (of_copy hchallenge).2
      have hheader : 44 + 4 ≤ auth.ntlmBuf.length := (of_copy hposition).1
      rw [hlenEq, hpositionEq] at htarget
      refine ⟨hheader, htarget, b, ?_⟩
      have hnameEq' : name.1 = NtlmEnv.targetInfo auth.ntlmBuf := by
        rw [hnameEq, hlenEq, hpositionEq]
        rfl
      rw [hchallengeEq, hnameEq'] at hencoders
      by_cases hencoded : encoded = true
      · rw [hencoded] at hencoders
        exact hencoders
      · simp only [hencoded, Bool.false_eq_true, if_false] at hrest
        cases hrest

/-- The names were converted where the message is made. -/
theorem of_authenticateMessage {lmStr nt : Bytes} {b : GrowBuffer}
    (hrun : env.authenticateMessage auth lmStr nt = .ok b) :
    ∃ domain user workstation, env.ucs2Name auth.domain.isEmpty auth.domain = .ok domain ∧
      env.ucs2Name false auth.user = .ok user ∧
      env.ucs2Name auth.workstation.isEmpty auth.workstation = .ok workstation := by
  simp only [NtlmEnv.authenticateMessage, bind_eq_ok] at hrun
  obtain ⟨-, -, domain, hdomain, -, -, user, huser, -, -, workstation, hworkstation, -⟩ := hrun
  exact ⟨domain, user, workstation, hdomain, huser, hworkstation⟩

/-- The message for an authentication. -/
def messageOf (env : NtlmEnv) (auth : NtlmAuthData) (responseKeyNT : Digest) (challenge : Bytes) : Bytes :=
  closedMessage (env.namePayload auth.domain) (env.namePayload auth.user) (env.namePayload auth.workstation)
    (env.lmResponse auth responseKeyNT challenge) (env.ntResponse auth responseKeyNT challenge)

theorem writes_messageOf {responseKeyNT : Digest} {domain user workstation : Option (List UInt16)}
    (hdomain : env.ucs2Name auth.domain.isEmpty auth.domain = .ok domain)
    (huser : env.ucs2Name false auth.user = .ok user)
    (hworkstation : env.ucs2Name auth.workstation.isEmpty auth.workstation = .ok workstation) :
    Writes env.growth
      (env.authenticateMessage auth
        (env.hmacMd5 responseKeyNT.1 (slice auth.ntlmBuf 24 8 ++ auth.clientChallenge.1)).1
        (env.ntResponse auth responseKeyNT auth.ntlmBuf))
      (messageOf env auth responseKeyNT auth.ntlmBuf) := by
  rw [messageOf, ← nameBytes_of_ucs2Name List.isEmpty_iff.mp hdomain,
    ← nameBytes_of_ucs2Name (fun h => absurd h Bool.false_ne_true) huser,
    ← nameBytes_of_ucs2Name List.isEmpty_iff.mp hworkstation]
  exact writes_authenticateMessage hdomain huser hworkstation (env.hmacMd5 _ _).2

theorem encodeNtlmAuth_holding {auth' : NtlmAuthData} {responseKeyNT : Digest}
    (hkey : env.ntowfv2 auth = some responseKeyNT) (hstart : Holds auth.toGrowBuffer [])
    (hrun : env.encodeNtlmAuth auth ((View.of auth.ntlmBuf).skip 24) = .ok auth') :
    Holding auth'.toGrowBuffer (messageOf env auth responseKeyNT auth.ntlmBuf) := by
  obtain ⟨hheader, htarget, b, hencoders⟩ := of_encodeNtlmAuth hrun
  rw [encodeNtlmAuth_eq hkey hstart hheader htarget hencoders] at hrun
  obtain ⟨b', hmessage, heq⟩ := bind_eq_ok.mp hrun
  obtain ⟨domain, user, workstation, hdomain, huser, hworkstation⟩ := of_authenticateMessage hmessage
  rw [Except.ok.injEq] at heq
  rw [← heq]
  exact (writes_messageOf hdomain huser hworkstation).holding b' hmessage

theorem exists_encodeNtlmAuth {responseKeyNT : Digest} (hkey : env.ntowfv2 auth = some responseKeyNT)
    (hstart : Holds auth.toGrowBuffer []) (h : env.Provided auth auth.ntlmBuf) :
    ∃ auth', env.encodeNtlmAuth auth ((View.of auth.ntlmBuf).skip 24) = .ok auth' ∧
      Holds auth'.toGrowBuffer (messageOf env auth responseKeyNT auth.ntlmBuf) := by
  obtain ⟨b, hencoders, -⟩ := hstart.appendAll (g := env.growth) h.malloc
    (env.tempPieces auth (slice auth.ntlmBuf 24 8) (NtlmEnv.targetInfo auth.ntlmBuf))
  obtain ⟨domain, hdomain⟩ := exists_ucs2Name auth.domain.isEmpty h.allocString h.domain
  obtain ⟨user, huser⟩ := exists_ucs2Name false h.allocString h.user
  obtain ⟨workstation, hworkstation⟩ := exists_ucs2Name auth.workstation.isEmpty h.allocString h.workstation
  obtain ⟨b', hmessage, hholds⟩ :=
    (@writes_messageOf env auth responseKeyNT _ _ _ hdomain huser hworkstation).exists_ok h.malloc
  have heq := encodeNtlmAuth_eq hkey hstart h.header h.targetInfo hencoders
  rw [hmessage, ok_bind] at heq
  exact ⟨_, heq, hholds⟩

end

/-! ### Main result -/

theorem length_messageOf (env : NtlmEnv) (auth : NtlmAuthData) (responseKeyNT : Digest) (challenge : Bytes) :
    (messageOf env auth responseKeyNT challenge).length =
      64 + ((env.payloads auth responseKeyNT challenge).map fun payload => payload.2.length).sum := by
  simp only [messageOf, closedMessage, NtlmEnv.payloads, List.length_append, length_closedHeader,
    List.map_cons, List.map_nil, List.sum_cons, List.sum_nil]
  omega

theorem wellLaidOut_messageOf {env : NtlmEnv} {auth : NtlmAuthData} {responseKeyNT : Digest} {challenge : Bytes}
    (hfits : (messageOf env auth responseKeyNT challenge).length < 2 ^ 16) :
    WellLaidOut (messageOf env auth responseKeyNT challenge) (env.payloads auth responseKeyNT challenge) := by
  have hlm : (env.lmResponse auth responseKeyNT challenge).length = 24 := by
    rw [NtlmEnv.lmResponse, List.length_append, (env.hmacMd5 _ _).2, auth.clientChallenge.2]
  apply wellLaidOut_closedMessage hlm
  simp only [messageOf, closedMessage, List.length_append, length_closedHeader, hlm] at hfits
  omega

/-- The bytes that are sent are those the buffer holds. -/
theorem message_eq {b : GrowBuffer} {content : Bytes} (h : Holds b content) (hfits : content.length < 2 ^ 16) :
    Blob.message { outputBuf := b.buf, outputLen := UInt16.ofNat b.len } = content := by
  have hlen : (UInt16.ofNat b.len).toNat = b.len := by
    rw [UInt16.toNat_ofNat']
    have := h.len_eq
    omega
  rw [Blob.message, hlen]
  exact h.written

theorem NtlmEnv.authenticate_wellLaidOut (env : NtlmEnv) (auth : NtlmAuthData) (challenge : Bytes)
    (responseKeyNT : Digest) (hkey : env.ntowfv2 auth = some responseKeyNT)
    (hfits : 64 + ((env.payloads auth responseKeyNT challenge).map fun payload => payload.2.length).sum < 2 ^ 16) :
    (∀ blob auth', env.ntlmsspGenerateBlob auth (some challenge) = .ok (blob, auth') →
      blob.outputBuf ≠ none → WellLaidOut blob.message (env.payloads auth responseKeyNT challenge)) ∧
    (env.Provided auth challenge → ∃ blob auth',
      env.ntlmsspGenerateBlob auth (some challenge) = .ok (blob, auth') ∧ blob.outputBuf ≠ none) ∧
    (∀ b content, Grown env.growth b content →
      b.len ≤ b.allocated ∧ read b.buf b.len = .ok content) := by
  rw [← length_messageOf] at hfits
  refine ⟨?_, ?_, ?_⟩
  · intro blob auth' hrun hbuilt
    simp only [ntlmsspGenerateBlob, ntlmChallengeMessage, bind_eq_ok, Except.ok.injEq, Prod.mk.injEq] at hrun
    obtain ⟨auth₁, hcopied, auth₂, hencode, hblob, -⟩ := hrun
    by_cases halloc : env.allocString challenge = true
    · rw [if_pos halloc, Except.ok.injEq] at hcopied
      rw [← hcopied] at hencode
      have hholding : Holding auth₂.toGrowBuffer (messageOf env auth responseKeyNT challenge) :=
        @encodeNtlmAuth_holding env { auth with toGrowBuffer := {}, ntlmBuf := challenge } auth₂
          responseKeyNT hkey holds_empty hencode
      obtain hholds | hlost := hholding
      · rw [← hblob, message_eq hholds hfits]
        exact wellLaidOut_messageOf hfits
      · rw [← hblob] at hbuilt
        exact absurd hlost.1 hbuilt
    · rw [if_neg halloc] at hcopied
      cases hcopied
  · intro hprovided
    obtain ⟨auth', hencode, hholds⟩ := @exists_encodeNtlmAuth env
      { auth with toGrowBuffer := {}, ntlmBuf := challenge } responseKeyNT hkey holds_empty
      ⟨hprovided.malloc, hprovided.allocString, hprovided.domain, hprovided.user, hprovided.workstation,
        hprovided.header, hprovided.targetInfo⟩
    have hholds' : Holds auth'.toGrowBuffer (messageOf env auth responseKeyNT challenge) := hholds
    refine ⟨{ outputBuf := auth'.buf, outputLen := UInt16.ofNat auth'.len }, auth', ?_, ?_⟩
    · simp only [ntlmsspGenerateBlob, ntlmChallengeMessage, hprovided.allocString challenge, if_true, ok_bind,
        hencode]
    · apply hholds'.ne_none
      rw [← List.length_pos_iff, length_messageOf]
      omega
  · intro b content hfilled
    exact ⟨hfilled.holds.len_le, hfilled.holds.read_eq⟩

theorem length_zeroHash : (List.replicate 16 (0 : UInt8)).length = 16 := rfl

/-- An environment with enough memory, in which every hash is zero. -/
def zeroNtlmEnv : NtlmEnv where
  malloc _ n := some ⟨List.replicate n 0xee, List.length_replicate⟩
  allocString _ := true
  time := 0
  md4 _ := ⟨List.replicate 16 0, length_zeroHash⟩
  hmacMd5 _ _ := ⟨List.replicate 16 0, length_zeroHash⟩

/-- A user without a domain on the workstation `pc`. -/
def exampleAuth : NtlmAuthData where
  user := [0x61, 0x6e, 0x6e]
  password := [0x78]
  domain := []
  workstation := [0x70, 0x63]
  clientChallenge := ⟨[1, 2, 3, 4, 5, 6, 7, 8], rfl⟩

/-- A CHALLENGE message with four bytes of target information. -/
def exampleChallenge : Bytes :=
  List.replicate 40 0 ++ lengthFields 4 ++ leBytes 4 48 ++ [0, 0, 0, 0]

theorem authenticate_wellLaidOut_example : ∃ blob auth',
    zeroNtlmEnv.ntlmsspGenerateBlob exampleAuth (some exampleChallenge) = .ok (blob, auth') ∧
      WellLaidOut blob.message
        (zeroNtlmEnv.payloads exampleAuth ⟨List.replicate 16 0, rfl⟩ exampleChallenge) := by
  obtain ⟨hlayout, hexists, -⟩ := zeroNtlmEnv.authenticate_wellLaidOut exampleAuth exampleChallenge
    ⟨List.replicate 16 0, rfl⟩ rfl (by decide)
  obtain ⟨blob, auth', hrun, hbuilt⟩ := hexists
    ⟨fun _ _ => rfl, fun _ => rfl, by decide, by decide, by decide, by decide, by decide⟩
  exact ⟨blob, auth', hrun, hlayout blob auth' hrun hbuilt⟩

end CodeStudy.Samba
