import CodeStudy.Base.View
import CodeStudy.Samba.Protocol

/-!
# Negotiate contexts

The reply to a NEGOTIATE ends with a list of contexts, each aligned to eight bytes. The decoders of the
two types that the client knows return the size of the context they decoded, and the loop goes on from
there, counted from the beginning of the list and not from the context. So it finds the second context
behind a known first one, and nothing by itself after that.
-/

namespace CodeStudy.Samba

def smb2PreauthIntegrityCapabilities : UInt16 := 0x0001
def smb2EncryptionCapabilities : UInt16 := 0x0002

/-! ### Decoding -/

/-- What variables and memory hold that nothing was written to. -/
structure Unset where
  hashAlgorithmCount : UInt16
  serverSaltSize : UInt16
  cipherCount : UInt16
  element : UInt16

/-- The elements of an array, read one after the other. -/
def readElements (iov : View) (unset : UInt16) : (offset count : Nat) → Except Fault (List UInt16)
  | _, 0 => .ok []
  | offset, count + 1 => do
      let first ← iov.get 2 offset unset.toNat
      let rest ← readElements iov unset (offset + 2) count
      .ok (UInt16.ofNat first :: rest)

/-- The size of the context and its first algorithm, or the message that there is no memory. The array
of no algorithms has no first one. -/
def decodePreauthIntegContext (alloc : Bool) (unset : Unset) (iov : View) :
    Except Fault (Except String (Nat × UInt16)) := do
  let _contextType ← iov.get 2 0 0
  let _dataLength ← iov.get 2 2 0
  let hashAlgorithmCount ← iov.get 2 8 unset.hashAlgorithmCount.toNat
  let serverSaltSize ← iov.get 2 10 unset.serverSaltSize.toNat
  if alloc = false then
    .ok (.error "decodePreauthIntegContext:Failed to allocate buffer for allHashAlgorithms")
  else do
    let allHashAlgorithms ← readElements iov unset.element 12 hashAlgorithmCount
    match allHashAlgorithms with
    | [] => .error .undefined
    | first :: _ => .ok (.ok (12 + 2 * hashAlgorithmCount + serverSaltSize, first))

/-- The size of the context and its first cipher, likewise. -/
def decodeEncryptionContext (alloc : Bool) (unset : Unset) (iov : View) :
    Except Fault (Except String (Nat × UInt16)) := do
  let _contextType ← iov.get 2 0 0
  let _dataLength ← iov.get 2 2 0
  let cipherCount ← iov.get 2 8 unset.cipherCount.toNat
  if alloc = false then .ok (.error "decodeEncryptionContext:Failed to allocate buffer for Ciphers")
  else do
    let ciphers ← readElements iov unset.element 10 cipherCount
    match ciphers with
    | [] => .error .undefined
    | first :: _ => .ok (.ok (10 + 2 * cipherCount, first))

/-- The variables of the loop, and what it sets in the context of the client. -/
structure ContextsState where
  len : UInt32 := 0
  ctxType : UInt16 := 0
  hashAlgorithm : UInt16
  cipherId : UInt16
  errMsg : Option String := none

/-- Skip the padding. -/
def alignContext (len : UInt32) : UInt32 :=
  if len &&& 0x07 ≠ 0 then len + (8 - (len &&& 0x07)) else len

/-- One turn of the loop. The result of a decoder is assigned to `len`, where -1 is not negative. -/
def contextStep (alloc : Bool) (unset : Unset) (iov : View) (s : ContextsState) : Except Fault ContextsState := do
  let tmpiov := iov.skip s.len.toNat
  let ctxType ← tmpiov.get 2 0 s.ctxType.toNat
  let s := { s with ctxType := .ofNat ctxType }
  if s.ctxType = smb2PreauthIntegrityCapabilities then
    match ← decodePreauthIntegContext alloc unset tmpiov with
    | .error msg => .ok { s with len := alignContext 0xffffffff, errMsg := some msg }
    | .ok (size, first) => .ok { s with len := alignContext (.ofNat size), hashAlgorithm := first }
  else if s.ctxType = smb2EncryptionCapabilities then
    match ← decodeEncryptionContext alloc unset tmpiov with
    | .error msg => .ok { s with len := alignContext 0xffffffff, errMsg := some msg }
    | .ok (size, first) => .ok { s with len := alignContext (.ofNat size), cipherId := first }
  else .ok { s with len := alignContext s.len }

def contextsLoop (alloc : Nat → Bool) (unset : Unset) (iov : View) :
    (i count : Nat) → ContextsState → Except Fault ContextsState
  | _, 0, s => .ok s
  | i, count + 1, s => do
      let s ← contextStep (alloc i) unset iov s
      contextsLoop alloc unset iov (i + 1) count s

/-- The result is never `false`. -/
def decodeNegotiateContexts (alloc : Nat → Bool) (unset : Unset) (iov : View) (negContextCount : Nat)
    (s : ContextsState) : Except Fault (Bool × ContextsState) := do
  let s ← contextsLoop alloc unset iov 0 negContextCount s
  .ok (true, s)

/-! ### Lists of contexts -/

/-- The types that the client decodes. -/
def KnownType (contextType : UInt16) : Prop :=
  contextType = smb2PreauthIntegrityCapabilities ∨ contextType = smb2EncryptionCapabilities

instance (contextType : UInt16) : Decidable (KnownType contextType) := inferInstanceAs (Decidable (_ ∨ _))

/-- A context as a server means it. -/
inductive NegotiateContext where
  | preauth (algorithms : List UInt16) (salt : Bytes)
  | encryption (ciphers : List UInt16)
  | other (contextType : UInt16) (data : Bytes)

namespace NegotiateContext

variable (c : NegotiateContext)

def contextType : UInt16 :=
  match c with
  | preauth _ _ => smb2PreauthIntegrityCapabilities
  | encryption _ => smb2EncryptionCapabilities
  | other contextType _ => contextType

def elements (l : List UInt16) : Bytes := l.flatMap fun x => leBytes 2 x.toNat

def data : Bytes :=
  match c with
  | preauth algorithms salt =>
      leBytes 2 algorithms.length ++ (leBytes 2 salt.length ++ (elements algorithms ++ salt))
  | encryption ciphers => leBytes 2 ciphers.length ++ elements ciphers
  | other _ data => data

def Known : Prop := KnownType c.contextType

/-- The data have a length of 16 bits, lists are not empty, and a type is what it is called. -/
def WellFormed : Prop :=
  c.data.length < 2 ^ 16 ∧
    match c with
    | preauth algorithms _ => algorithms ≠ []
    | encryption ciphers => ciphers ≠ []
    | other _ _ => ¬ c.Known

instance : Decidable c.Known := inferInstanceAs (Decidable (KnownType _))

/-- The first element of a context, if it is one of the type. -/
def first (contextType : UInt16) : Option UInt16 :=
  match c with
  | preauth algorithms _ => if contextType = smb2PreauthIntegrityCapabilities then algorithms.head? else none
  | encryption ciphers => if contextType = smb2EncryptionCapabilities then ciphers.head? else none
  | other _ _ => none

theorem length_elements (l : List UInt16) : (elements l).length = 2 * l.length := by
  rw [elements, List.length_flatMap]
  simp only [length_leBytes, List.map_const', List.sum_replicate_nat]
  exact Nat.mul_comm _ _

end NegotiateContext

/-- A context in a list, with the padding that aligns the next one to eight bytes. -/
structure LaidContext where
  context : NegotiateContext
  reserved : Block 4
  padding : Bytes
  wellFormed : context.WellFormed
  aligned : padding.length = (8 - context.data.length % 8) % 8

namespace LaidContext

variable (c : LaidContext)

def bytes : Bytes :=
  leBytes 2 c.context.contextType.toNat ++ (leBytes 2 c.context.data.length ++ (c.reserved.1 ++ c.context.data))

/-- The distance to the next context. -/
def span : Nat := 8 + c.context.data.length + c.padding.length

theorem length_bytes : c.bytes.length = 8 + c.context.data.length := by
  rw [bytes, List.length_append, List.length_append, List.length_append, length_leBytes, length_leBytes, c.reserved.2]
  omega

theorem span_mod : c.span % 8 = 0 := by
  have haligned := c.aligned
  rw [span]
  omega

theorem span_le : 8 ≤ c.span ∧ c.span < 2 ^ 17 := by
  have hlength := c.wellFormed.1
  have haligned := c.aligned
  rw [span]
  omega

end LaidContext

/-- The bytes of a list, with what follows the last context. -/
def encodeContexts : List LaidContext → Bytes → Bytes
  | [], rest => rest
  | [last], rest => last.bytes ++ rest
  | c :: next :: contexts, rest => c.bytes ++ (c.padding ++ encodeContexts (next :: contexts) rest)

/-! ### One context -/

theorem readElements_of_sound {iov : View} (h : iov.Sound) (unset : UInt16) (offset count : Nat) :
    ∃ l, readElements iov unset offset count = .ok l := by
  induction count generalizing offset with
  | zero => exact ⟨[], rfl⟩
  | succ count ih =>
      obtain ⟨first, hfirst⟩ := h.get 2 offset unset.toNat
      obtain ⟨rest, hrest⟩ := ih (offset + 2)
      rw [readElements, hfirst, ok_bind, hrest]
      exact ⟨_, rfl⟩

/-- The first element of a list that is not empty. -/
theorem readElements_eq {iov : View} (h : iov.Sound) {unset first : UInt16} {offset : Nat}
    (hfirst : iov.get 2 offset unset.toNat = .ok first.toNat) {l : List UInt16} (hl : l.head? = some first) :
    ∃ rest, readElements iov unset offset l.length = .ok (first :: rest) := by
  cases l with
  | nil => cases hl
  | cons x l =>
      obtain ⟨rest, hrest⟩ := readElements_of_sound h unset (offset + 2) l.length
      refine ⟨rest, ?_⟩
      rw [List.length_cons, readElements, hfirst, ok_bind, hrest, ok_bind, UInt16.ofNat_toNat]

theorem alignContext_of_aligned {len : UInt32} (h : len.toNat % 8 = 0) : alignContext len = len := by
  have hmask : len &&& 0x07 = 0 := by
    rw [← UInt32.toNat_inj, UInt32.toNat_and]
    show len.toNat &&& 7 = 0
    rw [show 7 = 2 ^ 3 - 1 from rfl, Nat.and_two_pow_sub_one_eq_mod]
    exact h
  rw [alignContext, if_neg (not_not.mpr hmask)]

namespace LaidContext

variable (c : LaidContext)

/-- The size of a context, with its padding. -/
theorem alignContext_size : alignContext (.ofNat (8 + c.context.data.length)) = .ofNat c.span := by
  have hlength := c.wellFormed.1
  have haligned := c.aligned
  have hnat : (UInt32.ofNat (8 + c.context.data.length)).toNat = 8 + c.context.data.length :=
    toNat_ofNat_uint32 (by omega)
  have hmask : (UInt32.ofNat (8 + c.context.data.length) &&& 0x07).toNat = c.context.data.length % 8 := by
    rw [UInt32.toNat_and, hnat]
    show (8 + c.context.data.length) &&& 7 = _
    rw [show 7 = 2 ^ 3 - 1 from rfl, Nat.and_two_pow_sub_one_eq_mod]
    omega
  have hspan : (UInt32.ofNat c.span).toNat = c.span := toNat_ofNat_uint32 (by have := c.span_le; omega)
  by_cases hzero : c.context.data.length % 8 = 0
  · rw [alignContext_of_aligned (by rw [hnat]; omega), span, haligned, hzero]
    rfl
  · have hne : UInt32.ofNat (8 + c.context.data.length) &&& 0x07 ≠ 0 := by
      intro h
      rw [h] at hmask
      exact hzero hmask.symm
    have hle : (UInt32.ofNat (8 + c.context.data.length) &&& 0x07) ≤ 8 := by
      rw [UInt32.le_iff_toNat_le, hmask]
      show _ ≤ 8
      omega
    have height : (8 : UInt32).toNat = 8 := rfl
    rw [alignContext, if_pos hne, ← UInt32.toNat_inj, UInt32.toNat_add, UInt32.toNat_sub_of_le _ _ hle, hmask, hnat,
      hspan, height, span]
    omega

/-- What the loop makes of a context it finds. -/
def set (s : ContextsState) : ContextsState :=
  let s := { s with ctxType := c.context.contextType }
  match c.context with
  | .preauth algorithms _ => { s with len := .ofNat c.span, hashAlgorithm := algorithms.headD 0 }
  | .encryption ciphers => { s with len := .ofNat c.span, cipherId := ciphers.headD 0 }
  | .other _ _ => s

section

variable {iov : View} {unset : Unset}

/-- The data of a pre-authentication context, in a view where they are behind eight other bytes. -/
theorem decodePreauthIntegContext_eq (hsound : iov.Sound) {algorithms : List UInt16} {salt rest : Bytes}
    (hne : algorithms ≠ []) (hlength : (NegotiateContext.preauth algorithms salt).data.length < 2 ^ 16)
    (hdata : ∀ offset value, iov.get 2 (8 + offset) value =
      (View.of ((NegotiateContext.preauth algorithms salt).data ++ rest)).get 2 offset value) :
    decodePreauthIntegContext true unset iov =
      .ok (.ok (8 + (NegotiateContext.preauth algorithms salt).data.length, algorithms.headD 0)) := by
  obtain ⟨contextType, htype⟩ := hsound.get 2 0 0
  obtain ⟨dataLength, hdataLength⟩ := hsound.get 2 2 0
  have hsize : (NegotiateContext.preauth algorithms salt).data.length = 4 + 2 * algorithms.length + salt.length := by
    simp only [NegotiateContext.data, List.length_append, length_leBytes, NegotiateContext.length_elements]
    omega
  have hcount (value : Nat) : iov.get 2 8 value = .ok algorithms.length := by
    rw [show 8 = 8 + 0 from rfl, hdata, NegotiateContext.data, List.append_assoc]
    exact View.get_leBytes_append (show algorithms.length < 2 ^ 16 by omega) _ _
  have hsalt (value : Nat) : iov.get 2 10 value = .ok salt.length := by
    rw [show 10 = 8 + 2 from rfl, hdata]
    simp (disch := simp) only [NegotiateContext.data, List.append_assoc, View.get_append_right, length_leBytes,
      Nat.reduceSub]
    exact View.get_leBytes_append (show salt.length < 2 ^ 16 by omega) _ _
  obtain ⟨first, tail, rfl⟩ := List.exists_cons_of_ne_nil hne
  have hfirst (value : Nat) : iov.get 2 12 value = .ok first.toNat := by
    rw [show 12 = 8 + 4 from rfl, hdata]
    simp (disch := simp) only [NegotiateContext.data, NegotiateContext.elements, List.flatMap_cons, List.append_assoc,
      View.get_append_right, length_leBytes, Nat.reduceSub]
    exact View.get_leBytes_append first.toNat_lt _ _
  obtain ⟨others, helements⟩ := @readElements_eq iov hsound unset.element first 12 (hfirst _) (first :: tail) rfl
  rw [decodePreauthIntegContext, htype, hdataLength, hcount, hsalt]
  simp only [ok_bind, Bool.true_eq_false, if_false, helements, hsize, List.headD_cons]
  congr 3
  omega

/-- The data of an encryption context, likewise. -/
theorem decodeEncryptionContext_eq (hsound : iov.Sound) {ciphers : List UInt16} {rest : Bytes} (hne : ciphers ≠ [])
    (hlength : (NegotiateContext.encryption ciphers).data.length < 2 ^ 16)
    (hdata : ∀ offset value, iov.get 2 (8 + offset) value =
      (View.of ((NegotiateContext.encryption ciphers).data ++ rest)).get 2 offset value) :
    decodeEncryptionContext true unset iov =
      .ok (.ok (8 + (NegotiateContext.encryption ciphers).data.length, ciphers.headD 0)) := by
  obtain ⟨contextType, htype⟩ := hsound.get 2 0 0
  obtain ⟨dataLength, hdataLength⟩ := hsound.get 2 2 0
  have hsize : (NegotiateContext.encryption ciphers).data.length = 2 + 2 * ciphers.length := by
    rw [NegotiateContext.data, List.length_append, length_leBytes, NegotiateContext.length_elements]
  have hcount (value : Nat) : iov.get 2 8 value = .ok ciphers.length := by
    rw [show 8 = 8 + 0 from rfl, hdata, NegotiateContext.data, List.append_assoc]
    exact View.get_leBytes_append (show ciphers.length < 2 ^ 16 by omega) _ _
  obtain ⟨first, tail, rfl⟩ := List.exists_cons_of_ne_nil hne
  have hfirst (value : Nat) : iov.get 2 10 value = .ok first.toNat := by
    rw [show 10 = 8 + 2 from rfl, hdata]
    simp (disch := simp) only [NegotiateContext.data, NegotiateContext.elements, List.flatMap_cons, List.append_assoc,
      View.get_append_right, length_leBytes, Nat.reduceSub]
    exact View.get_leBytes_append first.toNat_lt _ _
  obtain ⟨others, helements⟩ := @readElements_eq iov hsound unset.element first 10 (hfirst _) (first :: tail) rfl
  rw [decodeEncryptionContext, htype, hdataLength, hcount]
  simp only [ok_bind, Bool.true_eq_false, if_false, helements, hsize, List.headD_cons]
  congr 3
  omega

end

/-- A loop that comes to a context. -/
theorem contextStep_bytes {alloc : Bool} (halloc : alloc = true) (unset : Unset) {pre rest : Bytes} {s : ContextsState}
    (hplace : s.len.toNat = pre.length) (haligned : pre.length % 8 = 0) :
    contextStep alloc unset (.of (pre ++ (c.bytes ++ rest))) s = .ok (c.set s) := by
  have hskip : (View.of (pre ++ (c.bytes ++ rest))).skip s.len.toNat = View.of (c.bytes ++ rest) :=
    View.of_skip_append pre _ hplace.symm
  have hlength := c.wellFormed.1
  have hreserved := c.reserved.2
  have htype (value : Nat) : (View.of (c.bytes ++ rest)).get 2 0 value = .ok c.context.contextType.toNat := by
    rw [bytes, List.append_assoc]
    exact View.get_leBytes_append c.context.contextType.toNat_lt _ _
  have hdata (offset value : Nat) : (View.of (c.bytes ++ rest)).get 2 (8 + offset) value =
      (View.of (c.context.data ++ rest)).get 2 offset value := by
    have hpre : (leBytes 2 c.context.contextType.toNat ++ (leBytes 2 c.context.data.length ++ c.reserved.1)).length = 8 := by
      rw [List.length_append, List.length_append, length_leBytes, length_leBytes, hreserved]
    have hsplit : c.bytes ++ rest = (leBytes 2 c.context.contextType.toNat ++ (leBytes 2 c.context.data.length ++
        c.reserved.1)) ++ (c.context.data ++ rest) := by
      simp only [bytes, List.append_assoc]
    rw [hsplit, View.get_append_right (by omega), hpre, Nat.add_sub_cancel_left]
  have hsize := c.alignContext_size
  have hwf := c.wellFormed.2
  have hlength := c.wellFormed.1
  have hsound := View.sound_of (c.bytes ++ rest)
  rw [contextStep, hskip, htype, ok_bind, halloc, set]
  simp only [UInt16.ofNat_toNat]
  cases hcontext : c.context with
  | preauth algorithms salt =>
      rw [hcontext] at hwf hlength hsize hdata
      have htype₁ : (NegotiateContext.preauth algorithms salt).contextType = smb2PreauthIntegrityCapabilities := rfl
      rw [if_pos htype₁, decodePreauthIntegContext_eq hsound hwf hlength hdata, ok_bind]
      simp only [hsize]
  | encryption ciphers =>
      rw [hcontext] at hwf hlength hsize hdata
      have htype₂ : (NegotiateContext.encryption ciphers).contextType = smb2EncryptionCapabilities := rfl
      have hother : ¬ (NegotiateContext.encryption ciphers).contextType = smb2PreauthIntegrityCapabilities := by
        rw [htype₂]
        decide
      rw [if_neg hother, if_pos htype₂, decodeEncryptionContext_eq hsound hwf hlength hdata, ok_bind]
      simp only [hsize]
  | other contextType data =>
      rw [hcontext] at hwf
      have hunknown := not_or.mp hwf
      rw [if_neg hunknown.1, if_neg hunknown.2, alignContext_of_aligned (by rw [hplace]; exact haligned)]

end LaidContext

/-! ### What a list announces -/

/-- The first element of the context of a type. -/
def announced (contexts : List LaidContext) (contextType : UInt16) : Option UInt16 :=
  contexts.findSome? fun c => c.context.first contextType

/-- The decoder succeeds and sets the first algorithm and the first cipher of the list, and neither where
the list has none. -/
def DecodesContexts (contexts : List LaidContext) (rest : Bytes) : Prop :=
  ∀ unset hashAlgorithm cipherId, ∃ s,
    decodeNegotiateContexts (fun _ => true) unset (.of (encodeContexts contexts rest)) contexts.length
        { hashAlgorithm, cipherId } = .ok (true, s) ∧
      s.hashAlgorithm = (announced contexts smb2PreauthIntegrityCapabilities).getD hashAlgorithm ∧
      s.cipherId = (announced contexts smb2EncryptionCapabilities).getD cipherId

/-- There is one context of each known type at most. -/
def OneOfEach (contexts : List LaidContext) : Prop :=
  contexts.Pairwise fun a b => a.context.Known → a.context.contextType ≠ b.context.contextType

/-- No context of a known type comes after one of another type. -/
def KnownFirst (contexts : List LaidContext) : Prop :=
  contexts.Pairwise fun a b => b.context.Known → a.context.Known

/-- The type that the bytes at an offset spell. -/
def typeAt (b : Bytes) (offset : Nat) : UInt16 := .ofNat (leNat ((b.drop offset).take 2))

/-- The loop takes bytes inside one of the first two contexts for a third one. -/
def Stray (contexts : List LaidContext) (rest : Bytes) : Prop :=
  ∃ c₀ c₁ c₂ others, contexts = c₀ :: c₁ :: c₂ :: others ∧ c₀.context.Known ∧ c₁.context.Known ∧
    c₀.span ≠ c₁.span ∧ KnownType (typeAt (encodeContexts contexts rest) c₁.span)

/-- A list that is not empty announces its first element under its own type only. -/
theorem ite_head?_eq_none_iff {l : List UInt16} (hl : l ≠ []) (p : Prop) [Decidable p] :
    (if p then l.head? else none) = none ↔ ¬ p := by
  by_cases hp : p
  · rw [if_pos hp, List.head?_eq_none_iff]
    exact iff_of_false hl (not_not.mpr hp)
  · rw [if_neg hp]
    exact iff_of_true rfl hp

namespace LaidContext

variable (c : LaidContext)

theorem first_eq_none_iff {contextType : UInt16} (h : KnownType contextType) :
    c.context.first contextType = none ↔ c.context.contextType ≠ contextType := by
  have hwf := c.wellFormed.2
  cases hcontext : c.context with
  | preauth algorithms salt =>
      rw [hcontext] at hwf
      exact (ite_head?_eq_none_iff hwf _).trans (not_congr eq_comm)
  | encryption ciphers =>
      rw [hcontext] at hwf
      exact (ite_head?_eq_none_iff hwf _).trans (not_congr eq_comm)
  | other otherType data =>
      rw [hcontext] at hwf
      refine iff_of_true rfl fun heq => hwf ?_
      rw [NegotiateContext.Known, heq]
      exact h

theorem ids_set (s : ContextsState) :
    (c.set s).hashAlgorithm = (c.context.first smb2PreauthIntegrityCapabilities).getD s.hashAlgorithm ∧
      (c.set s).cipherId = (c.context.first smb2EncryptionCapabilities).getD s.cipherId := by
  have hwf := c.wellFormed.2
  rw [set]
  cases hcontext : c.context with
  | preauth algorithms salt =>
      rw [hcontext] at hwf
      obtain ⟨first, tail, rfl⟩ := List.exists_cons_of_ne_nil hwf
      exact ⟨rfl, rfl⟩
  | encryption ciphers =>
      rw [hcontext] at hwf
      obtain ⟨first, tail, rfl⟩ := List.exists_cons_of_ne_nil hwf
      exact ⟨rfl, rfl⟩
  | other otherType data => exact ⟨rfl, rfl⟩

theorem len_set_of_known (h : c.context.Known) (s : ContextsState) : (c.set s).len = .ofNat c.span := by
  have hwf := c.wellFormed.2
  rw [set]
  cases hcontext : c.context with
  | preauth algorithms salt => rfl
  | encryption ciphers => rfl
  | other otherType data =>
      rw [hcontext] at hwf h
      exact absurd h hwf

/-- Finding a context a second time changes nothing. -/
theorem set_set (s : ContextsState) : c.set (c.set s) = c.set s := by
  rw [set, set]
  cases hcontext : c.context with
  | preauth algorithms salt => rfl
  | encryption ciphers => rfl
  | other otherType data => rfl

end LaidContext

theorem announced_eq_none_iff {contexts : List LaidContext} {contextType : UInt16} (h : KnownType contextType) :
    announced contexts contextType = none ↔ ∀ c ∈ contexts, c.context.contextType ≠ contextType := by
  rw [announced, List.findSome?_eq_none_iff]
  exact forall₂_congr fun c _ => c.first_eq_none_iff h

theorem announced_cons (c : LaidContext) (contexts : List LaidContext) (contextType : UInt16) :
    announced (c :: contexts) contextType = (c.context.first contextType).or (announced contexts contextType) := by
  rw [announced, List.findSome?_cons]
  cases c.context.first contextType with
  | none => rfl
  | some first => rfl

theorem announced_singleton (c : LaidContext) (contextType : UInt16) :
    announced [c] contextType = c.context.first contextType := by
  rw [announced, List.findSome?_singleton]

/-- Without contexts of a known type a list announces nothing. -/
theorem announced_none_iff {contexts : List LaidContext} :
    (∀ contextType, KnownType contextType → announced contexts contextType = none) ↔
      ∀ c ∈ contexts, ¬ c.context.Known := by
  constructor
  · intro h c hc hknown
    exact (announced_eq_none_iff hknown).mp (h _ hknown) c hc rfl
  · intro h contextType hknown
    refine (announced_eq_none_iff hknown).mpr fun c hc heq => h c hc ?_
    rw [NegotiateContext.Known, heq]
    exact hknown

/-! ### The loop -/

section

variable {alloc : Nat → Bool} {unset : Unset} {b : Bytes} {s : ContextsState}

/-- At a type it does not know the loop stays where it is. -/
theorem contextsLoop_idle (haligned : s.len.toNat % 8 = 0) (hread : s.len.toNat + 2 ≤ b.length)
    (hunknown : ¬ KnownType (typeAt b s.len.toNat)) (i count : Nat) :
    ∃ s', contextsLoop alloc unset (.of b) i count s = .ok s' ∧ s'.hashAlgorithm = s.hashAlgorithm ∧
      s'.cipherId = s.cipherId := by
  induction count generalizing s i with
  | zero => exact ⟨s, rfl, rfl, rfl⟩
  | succ count ih =>
      have hskip : (View.of b).skip s.len.toNat = View.of (b.drop s.len.toNat) := by
        have hsplit := View.of_skip_append (b.take s.len.toNat) (b.drop s.len.toNat)
          (List.length_take_of_le (show s.len.toNat ≤ b.length by omega))
        rwa [List.take_append_drop] at hsplit
      have htype : (View.of (b.drop s.len.toNat)).get 2 0 s.ctxType.toNat =
          .ok (leNat (((b.drop s.len.toNat).drop 0).take 2)) :=
        View.get_of (by rw [List.length_drop]; omega) _
      have hnot : ¬ UInt16.ofNat (leNat ((b.drop s.len.toNat).take 2)) = smb2PreauthIntegrityCapabilities ∧
          ¬ UInt16.ofNat (leNat ((b.drop s.len.toNat).take 2)) = smb2EncryptionCapabilities := not_or.mp hunknown
      have hstep : contextStep (alloc i) unset (.of b) s =
          .ok { s with ctxType := typeAt b s.len.toNat } := by
        rw [contextStep, hskip, htype, ok_bind]
        simp only [List.drop_zero]
        rw [if_neg hnot.1, if_neg hnot.2, alignContext_of_aligned haligned]
        rfl
      rw [contextsLoop, hstep, ok_bind]
      exact @ih { s with ctxType := typeAt b s.len.toNat } haligned hread hunknown (i + 1)

/-- A turn that changes nothing is repeated. -/
theorem contextsLoop_again (hstep : ∀ i, contextStep (alloc i) unset (.of b) s = .ok s) (i count : Nat) :
    contextsLoop alloc unset (.of b) i count s = .ok s := by
  induction count generalizing i with
  | zero => rfl
  | succ count ih => rw [contextsLoop, hstep, ok_bind, ih]

end

/-- Where a context begins, its type stands. -/
theorem typeAt_bytes (pre rest : Bytes) (c : LaidContext) :
    typeAt (pre ++ (c.bytes ++ rest)) pre.length = c.context.contextType := by
  have htype : (c.bytes ++ rest).take 2 = leBytes 2 c.context.contextType.toNat := by
    rw [LaidContext.bytes, List.append_assoc, List.take_left' (length_leBytes 2 _)]
  rw [typeAt, List.drop_left, htype, leNat_leBytes_of_lt c.context.contextType.toNat_lt, UInt16.ofNat_toNat]

/-- What follows a context in its list. -/
def behind (c : LaidContext) (contexts : List LaidContext) (rest : Bytes) : Bytes :=
  match contexts with
  | [] => rest
  | _ :: _ => c.padding ++ encodeContexts contexts rest

theorem encodeContexts_cons (c : LaidContext) (contexts : List LaidContext) (rest : Bytes) :
    encodeContexts (c :: contexts) rest = c.bytes ++ behind c contexts rest := by
  cases contexts with
  | nil => rfl
  | cons c' contexts => rfl

/-- The second context of a list, behind the first one and its padding. -/
theorem encodeContexts_cons_cons (c c' : LaidContext) (contexts : List LaidContext) (rest : Bytes) :
    encodeContexts (c :: c' :: contexts) rest =
      c.bytes ++ c.padding ++ (c'.bytes ++ behind c' contexts rest) := by
  rw [encodeContexts, encodeContexts_cons, List.append_assoc]

theorem length_bytes_padding (c : LaidContext) : (c.bytes ++ c.padding).length = c.span := by
  rw [List.length_append, c.length_bytes, LaidContext.span]

/-- The loop ends with the first elements of the contexts that it found, the last one first. -/
def Finds (contexts : List LaidContext) (rest : Bytes) (found : List LaidContext) : Prop :=
  ∀ unset hashAlgorithm cipherId, ∃ s,
    decodeNegotiateContexts (fun _ => true) unset (.of (encodeContexts contexts rest)) contexts.length
        { hashAlgorithm, cipherId } = .ok (true, s) ∧
      s.hashAlgorithm = (announced found smb2PreauthIntegrityCapabilities).getD hashAlgorithm ∧
      s.cipherId = (announced found smb2EncryptionCapabilities).getD cipherId

theorem decodeNegotiateContexts_of_loop {unset : Unset} {iov : View} {count : Nat} {s s' : ContextsState}
    (h : contextsLoop (fun _ => true) unset iov 0 count s = .ok s') :
    decodeNegotiateContexts (fun _ => true) unset iov count s = .ok (true, s') := by
  rw [decodeNegotiateContexts, h]
  rfl

/-- Behind a context of another type nothing is found. -/
theorem finds_of_other_first {c : LaidContext} (hc : ¬ c.context.Known) (contexts : List LaidContext) (rest : Bytes) :
    Finds (c :: contexts) rest [] := by
  intro unset hashAlgorithm cipherId
  have hencode := encodeContexts_cons c contexts rest
  have htype : ¬ KnownType (typeAt (encodeContexts (c :: contexts) rest) 0) := by
    have hfirst : typeAt (c.bytes ++ behind c contexts rest) 0 = c.context.contextType := typeAt_bytes [] _ c
    rw [hencode, hfirst]
    exact hc
  have hread : 0 + 2 ≤ (encodeContexts (c :: contexts) rest).length := by
    rw [hencode, List.length_append, c.length_bytes]
    omega
  obtain ⟨s, hs, hhash, hcipher⟩ := @contextsLoop_idle (fun _ => true) unset (encodeContexts (c :: contexts) rest)
    { hashAlgorithm, cipherId } rfl hread htype 0 (c :: contexts).length
  exact ⟨s, decodeNegotiateContexts_of_loop hs, hhash, hcipher⟩

/-- The first turn. -/
theorem contextStep_first (unset : Unset) (c : LaidContext) (contexts : List LaidContext) (rest : Bytes)
    (hashAlgorithm cipherId : UInt16) :
    contextStep true unset (.of (encodeContexts (c :: contexts) rest)) { hashAlgorithm, cipherId } =
      .ok (c.set { hashAlgorithm, cipherId }) := by
  have hstep := @LaidContext.contextStep_bytes c true rfl unset [] (behind c contexts rest)
    { hashAlgorithm, cipherId } rfl rfl
  rw [encodeContexts_cons]
  exact hstep

theorem finds_of_single {c : LaidContext} (rest : Bytes) : Finds [c] rest [c] := by
  intro unset hashAlgorithm cipherId
  refine ⟨c.set { hashAlgorithm, cipherId }, decodeNegotiateContexts_of_loop ?_, ?_, ?_⟩
  · rw [List.length_singleton, contextsLoop, contextStep_first]
    rfl
  · rw [(c.ids_set _).1, announced_singleton]
  · rw [(c.ids_set _).2, announced_singleton]

/-- The place of the second context. -/
theorem toNat_len_set {c : LaidContext} (hc : c.context.Known) (s : ContextsState) : (c.set s).len.toNat = c.span := by
  have hle := c.span_le
  rw [c.len_set_of_known hc, toNat_ofNat_uint32 (by omega)]

/-- Behind a context of another type at the second place nothing is found. -/
theorem finds_of_other_second {c c' : LaidContext} (hc : c.context.Known) (hc' : ¬ c'.context.Known)
    (contexts : List LaidContext) (rest : Bytes) : Finds (c :: c' :: contexts) rest [c] := by
  intro unset hashAlgorithm cipherId
  have hencode := encodeContexts_cons_cons c c' contexts rest
  have hplace := toNat_len_set hc { hashAlgorithm, cipherId }
  have htype : ¬ KnownType (typeAt (encodeContexts (c :: c' :: contexts) rest)
      (c.set { hashAlgorithm, cipherId }).len.toNat) := by
    rw [hplace, hencode, ← length_bytes_padding, typeAt_bytes]
    exact hc'
  have hread : (c.set { hashAlgorithm, cipherId }).len.toNat + 2 ≤ (encodeContexts (c :: c' :: contexts) rest).length := by
    rw [hplace, hencode, List.length_append, length_bytes_padding, List.length_append, c'.length_bytes]
    omega
  obtain ⟨s, hs, hhash, hcipher⟩ := @contextsLoop_idle (fun _ => true) unset
    (encodeContexts (c :: c' :: contexts) rest) (c.set { hashAlgorithm, cipherId })
    (by rw [hplace]; exact c.span_mod) hread htype 1 (c' :: contexts).length
  refine ⟨s, decodeNegotiateContexts_of_loop ?_, ?_, ?_⟩
  · rw [List.length_cons, contextsLoop, contextStep_first, ok_bind]
    exact hs
  · rw [hhash, (c.ids_set _).1, announced_singleton]
  · rw [hcipher, (c.ids_set _).2, announced_singleton]

/-- Two contexts of known types at the beginning are found, and nothing else when no bytes inside them are
taken for a context. -/
theorem finds_of_known_second {c c' : LaidContext} (hc : c.context.Known) (hc' : c'.context.Known)
    {contexts : List LaidContext} {rest : Bytes} (hstray : ¬ Stray (c :: c' :: contexts) rest) :
    Finds (c :: c' :: contexts) rest [c', c] := by
  intro unset hashAlgorithm cipherId
  have hencode := encodeContexts_cons_cons c c' contexts rest
  have hplace := toNat_len_set hc { hashAlgorithm, cipherId }
  have hplace' := toNat_len_set hc' (c.set { hashAlgorithm, cipherId })
  have hsecond {s : ContextsState} (hs : s.len.toNat = c.span) :
      contextStep true unset (.of (encodeContexts (c :: c' :: contexts) rest)) s = .ok (c'.set s) := by
    rw [hencode]
    exact c'.contextStep_bytes rfl unset (by rw [length_bytes_padding, hs])
      (by rw [length_bytes_padding]; exact c.span_mod)
  obtain ⟨s, hs, hhash, hcipher⟩ : ∃ s, contextsLoop (fun _ => true) unset
      (.of (encodeContexts (c :: c' :: contexts) rest)) 2 contexts.length
        (c'.set (c.set { hashAlgorithm, cipherId })) = .ok s ∧
      s.hashAlgorithm = (c'.set (c.set { hashAlgorithm, cipherId })).hashAlgorithm ∧
      s.cipherId = (c'.set (c.set { hashAlgorithm, cipherId })).cipherId := by
    cases contexts with
    | nil => exact ⟨_, rfl, rfl, rfl⟩
    | cons c'' contexts =>
        by_cases hspan : c.span = c'.span
        · -- the loop comes back to the second context
          refine ⟨_, contextsLoop_again (fun i => ?_) 2 _, rfl, rfl⟩
          rw [hsecond (by rw [hplace', hspan]), c'.set_set]
        · have htype : ¬ KnownType (typeAt (encodeContexts (c :: c' :: c'' :: contexts) rest) c'.span) :=
            fun h => hstray ⟨c, c', c'', contexts, rfl, hc, hc', hspan, h⟩
          have hread : c'.span + 2 ≤ (encodeContexts (c :: c' :: c'' :: contexts) rest).length := by
            have hle := c.span_le
            have hlength : (c'.bytes ++ c'.padding).length = c'.span := length_bytes_padding c'
            rw [List.length_append] at hlength
            rw [hencode, List.length_append, length_bytes_padding, behind, List.length_append, List.length_append]
            omega
          exact contextsLoop_idle (by rw [hplace']; exact c'.span_mod) (by rw [hplace']; exact hread)
            (by rw [hplace']; exact htype) 2 _
  have hids := c.ids_set { hashAlgorithm, cipherId }
  have hids' := c'.ids_set (c.set { hashAlgorithm, cipherId })
  have hannounced (contextType : UInt16) : announced [c', c] contextType =
      (c'.context.first contextType).or (c.context.first contextType) := by
    rw [announced_cons, announced_singleton]
  refine ⟨s, decodeNegotiateContexts_of_loop ?_, ?_, ?_⟩
  · rw [List.length_cons, List.length_cons, contextsLoop, contextStep_first, ok_bind, contextsLoop,
      hsecond hplace, ok_bind]
    exact hs
  · rw [hhash, hids'.1, hids.1, hannounced, Option.getD_or]
  · rw [hcipher, hids'.2, hids.2, hannounced, Option.getD_or]

/-! ### What the loop finds, and what it should find -/

/-- Values that are set alike, whatever they were before. -/
theorem eq_of_getD {x y : Option UInt16} (h : ∀ default, x.getD default = y.getD default) : x = y := by
  have hne (n : UInt16) : n + 1 ≠ n := by
    intro heq
    have hnat : (n.toNat + 1) % 2 ^ 16 = n.toNat := by
      rw [← UInt16.toNat_inj, UInt16.toNat_add] at heq
      exact heq
    have hlt : n.toNat < 2 ^ 16 := n.toNat_lt
    omega
  cases x with
  | none =>
      cases y with
      | none => rfl
      | some n => exact absurd (h (n + 1)) (hne n)
  | some m =>
      cases y with
      | none => exact absurd (h (m + 1)).symm (hne m)
      | some n => rw [show m = n from h 0]

theorem decodesContexts_iff_of_finds {contexts found : List LaidContext} {rest : Bytes} (h : Finds contexts rest found) :
    DecodesContexts contexts rest ↔
      ∀ contextType, KnownType contextType → announced found contextType = announced contexts contextType := by
  constructor
  · intro hdecodes
    have hsame (hashAlgorithm cipherId : UInt16) :
        (announced found smb2PreauthIntegrityCapabilities).getD hashAlgorithm =
            (announced contexts smb2PreauthIntegrityCapabilities).getD hashAlgorithm ∧
          (announced found smb2EncryptionCapabilities).getD cipherId =
            (announced contexts smb2EncryptionCapabilities).getD cipherId := by
      obtain ⟨s, hs, hhash, hcipher⟩ := h ⟨0, 0, 0, 0⟩ hashAlgorithm cipherId
      obtain ⟨s', hs', hhash', hcipher'⟩ := hdecodes ⟨0, 0, 0, 0⟩ hashAlgorithm cipherId
      rw [hs, Except.ok.injEq, Prod.mk.injEq] at hs'
      rw [← hhash, ← hcipher, ← hhash', ← hcipher', hs'.2]
      exact ⟨rfl, rfl⟩
    rintro contextType (rfl | rfl)
    · exact eq_of_getD fun hashAlgorithm => (hsame hashAlgorithm 0).1
    · exact eq_of_getD fun cipherId => (hsame 0 cipherId).2
  · intro hsame unset hashAlgorithm cipherId
    obtain ⟨s, hs, hhash, hcipher⟩ := h unset hashAlgorithm cipherId
    refine ⟨s, hs, ?_, ?_⟩
    · rw [hhash, hsame _ (.inl rfl)]
    · rw [hcipher, hsame _ (.inr rfl)]

theorem knownFirst_of_not_known {contexts : List LaidContext} (h : ∀ c ∈ contexts, ¬ c.context.Known) :
    KnownFirst contexts :=
  List.pairwise_of_forall_mem_list fun _ _ c' hc' hknown => absurd hknown (h c' hc')

/-- Behind a context of another type there must be none of a known type. -/
theorem knownFirst_cons_iff {c : LaidContext} (hc : ¬ c.context.Known) {contexts : List LaidContext} :
    KnownFirst (c :: contexts) ↔ ∀ c' ∈ contexts, ¬ c'.context.Known := by
  rw [KnownFirst, List.pairwise_cons]
  constructor
  · intro h c' hc' hknown
    exact hc (h.1 c' hc' hknown)
  · intro h
    exact ⟨fun c' hc' hknown => absurd hknown (h c' hc'), knownFirst_of_not_known h⟩

/-- With one context of each known type, two of them leave none for the others. -/
theorem not_known_of_oneOfEach {c c' : LaidContext} (hc : c.context.Known) (hc' : c'.context.Known)
    {contexts : List LaidContext} (hone : OneOfEach (c :: c' :: contexts)) :
    c.context.contextType ≠ c'.context.contextType ∧ ∀ c'' ∈ contexts, ¬ c''.context.Known := by
  obtain ⟨hfirst, hrest⟩ := List.pairwise_cons.mp hone
  obtain ⟨hsecond, -⟩ := List.pairwise_cons.mp hrest
  have hne := hfirst c' List.mem_cons_self hc
  refine ⟨hne, fun c'' hmem hknown => ?_⟩
  have hne₁ := hfirst c'' (List.mem_cons_of_mem _ hmem) hc
  have hne₂ := hsecond c'' hmem hc'
  -- three different ones of two types
  obtain hc | hc := hc <;> obtain hc' | hc' := hc' <;> obtain hknown | hknown := hknown <;>
    simp only [hc, hc', hknown, ne_eq, not_true_eq_false] at hne hne₁ hne₂

/-- The contexts behind a first one of a known type, when the second one is of another type. -/
theorem announced_second_iff {c c' : LaidContext} (hc : c.context.Known) (hc' : ¬ c'.context.Known)
    {contexts : List LaidContext} (hone : OneOfEach (c :: c' :: contexts)) :
    (∀ contextType, KnownType contextType → announced [c] contextType = announced (c :: c' :: contexts) contextType) ↔
      ∀ c'' ∈ contexts, ¬ c''.context.Known := by
  have hfirst := (List.pairwise_cons.mp hone).1
  have hsplit {contextType : UInt16} (hknown : KnownType contextType) : announced (c :: c' :: contexts) contextType =
      (c.context.first contextType).or (announced contexts contextType) := by
    have hother : c'.context.contextType ≠ contextType := by
      rintro rfl
      exact hc' hknown
    rw [announced_cons, announced_cons, (c'.first_eq_none_iff hknown).mpr hother, Option.none_or]
  rw [← announced_none_iff]
  constructor
  · intro h contextType hknown
    by_cases heq : c.context.contextType = contextType
    · rw [announced_eq_none_iff hknown, ← heq]
      exact fun c'' hmem => (hfirst c'' (List.mem_cons_of_mem _ hmem) hc).symm
    · have hsame := h contextType hknown
      rw [announced_singleton, hsplit hknown, (c.first_eq_none_iff hknown).mpr heq, Option.none_or] at hsame
      exact hsame.symm
  · intro h contextType hknown
    rw [announced_singleton, hsplit hknown, h contextType hknown, Option.or_none]

/-- Where no bytes inside one of the first two contexts are taken for a third, the order decides. -/
theorem decodesContexts_iff_of_not_stray {contexts : List LaidContext} {rest : Bytes} (hone : OneOfEach contexts)
    (hstray : ¬ Stray contexts rest) : DecodesContexts contexts rest ↔ KnownFirst contexts := by
  cases contexts with
  | nil =>
      have hfinds : Finds [] rest [] := fun unset hashAlgorithm cipherId => ⟨_, rfl, rfl, rfl⟩
      rw [decodesContexts_iff_of_finds hfinds]
      exact iff_of_true (fun _ _ => rfl) .nil
  | cons c contexts =>
      by_cases hc : c.context.Known
      · cases contexts with
        | nil =>
            rw [decodesContexts_iff_of_finds (finds_of_single rest)]
            exact iff_of_true (fun _ _ => rfl) (List.pairwise_singleton _ _)
        | cons c' contexts =>
            by_cases hc' : c'.context.Known
            · obtain ⟨hne, hothers⟩ := not_known_of_oneOfEach hc hc' hone
              rw [decodesContexts_iff_of_finds (finds_of_known_second hc hc' hstray)]
              refine iff_of_true (fun contextType hknown => ?_) ?_
              · rw [announced_cons, announced_singleton, announced_cons, announced_cons,
                  announced_none_iff.mpr hothers _ hknown, Option.or_none]
                by_cases hfirst : c.context.contextType = contextType
                · have hnone : c'.context.first contextType = none :=
                    (c'.first_eq_none_iff hknown).mpr fun heq => hne (hfirst.trans heq.symm)
                  rw [hnone, Option.none_or, Option.or_none]
                · rw [(c.first_eq_none_iff hknown).mpr hfirst, Option.none_or, Option.or_none]
              · exact List.pairwise_cons.mpr ⟨fun _ _ _ => hc, List.pairwise_cons.mpr ⟨fun _ _ _ => hc',
                  knownFirst_of_not_known hothers⟩⟩
            · rw [decodesContexts_iff_of_finds (finds_of_other_second hc hc' contexts rest),
                announced_second_iff hc hc' hone, ← knownFirst_cons_iff hc']
              constructor
              · exact fun h => List.pairwise_cons.mpr ⟨fun _ _ _ => hc, h⟩
              · exact fun h => (List.pairwise_cons.mp h).2
      · have hnone {contextType : UInt16} (hknown : KnownType contextType) : c.context.first contextType = none := by
          refine (c.first_eq_none_iff hknown).mpr ?_
          rintro rfl
          exact hc hknown
        rw [decodesContexts_iff_of_finds (finds_of_other_first hc contexts rest), knownFirst_cons_iff hc,
          ← announced_none_iff]
        refine forall₂_congr fun contextType hknown => ?_
        rw [announced_cons, hnone hknown, Option.none_or]
        exact eq_comm

/-- A list that leads the loop astray begins with both contexts of known types. -/
theorem knownFirst_of_stray {contexts : List LaidContext} {rest : Bytes} (hone : OneOfEach contexts)
    (hstray : Stray contexts rest) : KnownFirst contexts := by
  obtain ⟨c, c', c'', others, rfl, hc, hc', -, -⟩ := hstray
  obtain ⟨-, hothers⟩ := not_known_of_oneOfEach hc hc' hone
  exact List.pairwise_cons.mpr ⟨fun _ _ _ => hc, List.pairwise_cons.mpr ⟨fun _ _ _ => hc',
    knownFirst_of_not_known hothers⟩⟩

/-- For every list of contexts, whatever follows it: the decoder finds what the list announces when the
contexts of known types come before the others and no bytes inside one of the first two are taken for a
third. In any other order it does not. -/
theorem decodesContexts_knownFirst {contexts : List LaidContext} {rest : Bytes} (hone : OneOfEach contexts) :
    (KnownFirst contexts ∧ ¬ Stray contexts rest → DecodesContexts contexts rest) ∧
      (¬ KnownFirst contexts → ¬ DecodesContexts contexts rest) := by
  constructor
  · rintro ⟨hfirst, hstray⟩
    exact (decodesContexts_iff_of_not_stray hone hstray).mpr hfirst
  · intro hfirst hdecodes
    have hstray : ¬ Stray contexts rest := fun h => hfirst (knownFirst_of_stray hone h)
    exact hfirst ((decodesContexts_iff_of_not_stray hone hstray).mp hdecodes)

/-! ### Some lists -/

/-- SHA-512, with a salt in which the end of an encryption context can be read. -/
def sha512Context : LaidContext where
  context := .preauth [1] [0, 0, 2, 0, 0, 0, 0, 0, 0, 0, 1, 0, 0x99, 0]
  reserved := ⟨[0, 0, 0, 0], rfl⟩
  padding := [0, 0, 0, 0]
  wellFormed := ⟨by decide, by decide⟩
  aligned := rfl

/-- AES-128-GCM. -/
def gcmContext : LaidContext where
  context := .encryption [2]
  reserved := ⟨[0, 0, 0, 0], rfl⟩
  padding := [0, 0, 0, 0]
  wellFormed := ⟨by decide, by decide⟩
  aligned := rfl

/-- SMB2_COMPRESSION_CAPABILITIES, which the client does not decode. -/
def compressionContext : LaidContext where
  context := .other 3 []
  reserved := ⟨[0, 0, 0, 0], rfl⟩
  padding := []
  wellFormed := ⟨by decide, by decide⟩
  aligned := rfl

theorem decodesContexts_sha512_gcm : DecodesContexts [sha512Context, gcmContext] [] := by
  have hone : OneOfEach [sha512Context, gcmContext] :=
    List.pairwise_pair.mpr fun _ => by decide
  have hfirst : KnownFirst [sha512Context, gcmContext] := List.pairwise_pair.mpr fun _ => .inl rfl
  refine (decodesContexts_knownFirst hone).1 ⟨hfirst, ?_⟩
  rintro ⟨c₀, c₁, c₂, others, heq, -⟩
  exact absurd (congrArg List.length heq) (by simp)

/-- What a run ends with, if the decoder finds what the list announces. -/
theorem DecodesContexts.run {contexts : List LaidContext} {rest : Bytes} (h : DecodesContexts contexts rest) :
    (decodeNegotiateContexts (fun _ => true) ⟨0, 0, 0, 0⟩ (.of (encodeContexts contexts rest)) contexts.length
        { hashAlgorithm := 0, cipherId := 0 }).map (fun r => (r.2.hashAlgorithm, r.2.cipherId)) =
      .ok ((announced contexts smb2PreauthIntegrityCapabilities).getD 0,
        (announced contexts smb2EncryptionCapabilities).getD 0) := by
  obtain ⟨s, hs, hhash, hcipher⟩ := h ⟨0, 0, 0, 0⟩ 0 0
  rw [hs, ← hhash, ← hcipher]
  rfl

/-- Behind a context of another type the algorithm is not found; in front of one a cipher is read from the
salt. -/
theorem not_decodesContexts_compression :
    ¬ DecodesContexts [compressionContext, sha512Context] [] ∧
      ¬ DecodesContexts [sha512Context, gcmContext, compressionContext] [] :=
  ⟨fun h => absurd h.run (by decide), fun h => absurd h.run (by decide)⟩

end CodeStudy.Samba
