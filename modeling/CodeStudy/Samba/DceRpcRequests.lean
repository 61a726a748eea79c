import CodeStudy.Base.Store
import CodeStudy.Samba.Offsets
import CodeStudy.Samba.Utf8

/-!
# The requests of the remote procedures

The bodies of three remote procedure calls are written piece by piece into a buffer of the caller. Only
the string in them is compared with the space that is left; what stands in front of it and behind it is
written in any case. A name is given to the server in a string value: twice its length, and its units.
-/

namespace CodeStudy.Samba

/-! ### The writers -/

/-- The length of a string value, in an unsigned number of 32 bits. -/
def stringValueLen (string : Bytes) (terminateNull : Bool) : Nat :=
  (if terminateNull then string.length + 1 else string.length) % 2 ^ 32

/-- The size of a string value. -/
def stringValueSize (string : Bytes) (terminateNull : Bool) : Nat :=
  add32 12 (2 * stringValueLen string terminateNull)

/-- Write a string value, and say how much space it is to have. The terminator gets its space only. -/
def dcerpcInitStringValue (alloc : Bool) (string : Bytes) (terminateNull : Bool) (block : Bytes)
    (buf bufLen : Nat) : Except Fault (Bytes × Nat) := do
  let len := stringValueLen string terminateNull
  let sizeRequired := stringValueSize string terminateNull
  let name ← utf8ToUcs2 alloc (cString string)
  match name with
  | none => .error (.failed (-1) "dcerpc_init_stringValue: failed to convert server name to ucs2")
  | some name =>
      if bufLen < sizeRequired then .error (.failed (-1) "dcerpc_init_stringValue: buffer too small")
      else do
        let block ← store block buf (leBytes 4 len ++ leBytes 4 0 ++ leBytes 4 len)
        let block ← store block (buf + 12) (ucs2Bytes name)
        .ok (block, sizeRequired)

def dcerpcInitServerName (alloc : Bool) (refid : Nat) (name block : Bytes) (bufLen : Nat) :
    Except Fault (Bytes × Nat) := do
  let block ← store block 0 (leBytes 4 refid)
  let (block, sizeName) ← dcerpcInitStringValue alloc name true block 4 (sub32 bufLen 4)
  .ok (block, add32 4 sizeName)

def srvsvcCreateNetrShareEnumRequest (alloc : Bool) (serverName : Bytes) (shinfoType : UInt32)
    (resumeHandle : UInt64) (block : Bytes) (bufferLen : Nat) : Except Fault (Bytes × Nat) := do
  let (block, sizeUsed) ← dcerpcInitServerName alloc 0x0026e53c serverName block bufferLen
  let offset := align4 sizeUsed
  let block ← store block offset (leBytes 4 shinfoType.toNat ++ leBytes 4 shinfoType.toNat ++
    leBytes 4 0x01fbf3e8 ++ leBytes 4 0 ++ leBytes 4 0)
  let offset := add32 offset 20
  let block ← store block offset (leBytes 4 0xffffffff)
  let offset := add32 offset 4
  let block ← store block offset (leBytes 4 (resumeHandle.toNat % 2 ^ 32))
  .ok (block, add32 offset 4)

def lsarpcCreateOpenPolicy2Req (alloc : Bool) (serverName : Bytes) (accessMask : UInt32) (block : Bytes)
    (bufferLen : Nat) : Except Fault (Bytes × Nat) := do
  let (block, sizeUsed) ← dcerpcInitServerName alloc 0x01414938 serverName block bufferLen
  let offset := align4 sizeUsed
  let block ← store block offset (List.replicate 24 0)
  let block ← store block offset (leBytes 4 24)
  let offset := add32 offset 24
  let block ← store block offset (leBytes 4 accessMask.toNat)
  .ok (block, add32 offset 4)

structure PolicyHandle where
  contextType : UInt32
  uuidA : UInt32
  uuidB : UInt16
  uuidC : UInt16
  uuidD : Block 8

/-- A handle as it is sent. -/
def PolicyHandle.bytes (handle : PolicyHandle) : Bytes :=
  leBytes 4 handle.contextType.toNat ++ leBytes 4 handle.uuidA.toNat ++ leBytes 2 handle.uuidB.toNat ++
    leBytes 2 handle.uuidC.toNat ++ handle.uuidD.1

/-- Domain and user are put together twice: as text in an array of 1024 bytes, for the two sizes, and as a
string for the string value. -/
def lsarpcCreateLookUpNamesReq (alloc : Bool) (handle : PolicyHandle) (user domain block : Bytes)
    (bufferLen : Nat) : Except Fault (Bytes × Nat) := do
  let name ← store (List.replicate 1024 0) 0 (cString domain ++ [0x5c] ++ cString user ++ [0])
  let nameString := domain ++ [0x5c] ++ user
  let nameSize := 2 * (cString name).length % 2 ^ 16
  let block ← store block 0 handle.bytes
  let block ← store block 20 (leBytes 4 1)
  let block ← store block 24 (leBytes 4 1)
  let block ← store block 28 (leBytes 2 nameSize)
  let block ← store block 30 (leBytes 2 nameSize)
  let block ← store block 32 (leBytes 4 0x0141afb8)
  let (block, nameLen) ← dcerpcInitStringValue alloc nameString false block 36 (sub32 bufferLen 36)
  let offset := align4 (add32 36 nameLen)
  let block ← store block offset (leBytes 4 0)
  let offset := add32 offset 4
  let block ← store block offset (leBytes 4 0)
  let offset := add32 offset 4
  let block ← store block offset (leBytes 2 1)
  let offset := align4 (add32 offset 2)
  let block ← store block offset (leBytes 4 0)
  .ok (block, add32 offset 4)

/-- The calls whose requests are written so. -/
inductive DceRpcRequest where
  | netrShareEnum (serverName : Bytes) (shinfoType : UInt32) (resumeHandle : UInt64)
  | openPolicy2 (serverName : Bytes) (accessMask : UInt32)
  | lookUpNames (handle : PolicyHandle) (user domain : Bytes)

/-- Write a request into a buffer, which has the length it is said to have. -/
def DceRpcRequest.create (alloc : Bool) (buffer : SizedBuffer 32) : DceRpcRequest → Except Fault (Bytes × Nat)
  | netrShareEnum serverName shinfoType resumeHandle =>
      srvsvcCreateNetrShareEnumRequest alloc serverName shinfoType resumeHandle buffer.bytes buffer.size
  | openPolicy2 serverName accessMask =>
      lsarpcCreateOpenPolicy2Req alloc serverName accessMask buffer.bytes buffer.size
  | lookUpNames handle user domain =>
      lsarpcCreateLookUpNamesReq alloc handle user domain buffer.bytes buffer.size

/-! ### Writes inside a buffer -/

/-- Nothing was written outside a buffer, and the size that is reported is at most its length. -/
def Inside (length : Nat) (result : Except Fault (Bytes × Nat)) : Prop :=
  result ≠ .error .undefined ∧ ∀ block used, result = .ok (block, used) → used ≤ length

/-- The string can be converted, and where the value of it would fit, so does what is behind it. -/
def StringValueFits (alloc : Bool) (string : Bytes) (terminateNull : Bool) (before : Nat) (rest : Nat → Prop)
    (length : Nat) : Prop :=
  utf8ToUcs2 alloc (cString string) ≠ .error .undefined ∧
    ∀ units, utf8ToUcs2 alloc (cString string) = .ok (some units) →
      before + stringValueSize string terminateNull ≤ length →
        before + 12 + 2 * units.length ≤ length ∧
          rest (align4 (before + stringValueSize string terminateNull))

/-- What is behind the string in the request for a SID. The padding in front of its last field is computed
in 32 bits, like every offset. -/
def LookUpTailFits (length offset : Nat) : Prop := offset + 10 ≤ length ∧ add32 offset 12 + 4 ≤ length

/-- The fixed parts of a request lie in a buffer of so many bytes. -/
def DceRpcRequest.Fits (alloc : Bool) (length : Nat) : DceRpcRequest → Prop
  | netrShareEnum serverName _ _ =>
      4 ≤ length ∧ StringValueFits alloc serverName true 4 (fun offset => offset + 28 ≤ length) length
  | openPolicy2 serverName _ =>
      4 ≤ length ∧ StringValueFits alloc serverName true 4 (fun offset => offset + 28 ≤ length) length
  | lookUpNames _ user domain =>
      (cString domain).length + (cString user).length + 2 ≤ 1024 ∧ 36 ≤ length ∧
        StringValueFits alloc (domain ++ [0x5c] ++ user) false 36 (LookUpTailFits length) length

section

variable {alloc : Bool} {length : Nat} {block : Bytes}

theorem inside_error_iff {fault : Fault} : Inside length (.error fault) ↔ fault ≠ .undefined := by
  constructor
  · intro h hfault
    exact h.1 (by rw [hfault])
  · intro h
    refine ⟨?_, fun _ _ hok => by cases hok⟩
    intro herror
    exact h (Except.error.inj herror)

theorem inside_failed (ret : Int) (msg : String) : Inside length (.error (.failed ret msg)) :=
  inside_error_iff.mpr (by rintro ⟨⟩)

theorem inside_ok_iff {used : Nat} : Inside length (.ok (block, used)) ↔ used ≤ length := by
  constructor
  · intro h
    exact h.2 _ _ rfl
  · intro h
    refine ⟨by rintro ⟨⟩, ?_⟩
    rintro _ _ ⟨⟩
    exact h

/-- A write, and what comes after it in a buffer of the same size. -/
theorem inside_store_iff {position : Nat} {bytes : Bytes} {next : Bytes → Except Fault (Bytes × Nat)} {P : Prop}
    (hblock : block.length = length)
    (hnext : position + bytes.length ≤ length → ∀ block', block'.length = length → (Inside length (next block') ↔ P)) :
    Inside length (store block position bytes >>= next) ↔ position + bytes.length ≤ length ∧ P := by
  by_cases hle : position + bytes.length ≤ block.length
  · have hmemcpy : (memcpy block position bytes).length = length := by rw [length_memcpy hle, hblock]
    rw [store_of_le hle, ok_bind, hnext (by omega) _ hmemcpy, ← hblock, and_iff_right hle]
  · rw [store_of_lt (not_le.mp hle)]
    refine iff_of_false (fun h => h.1 rfl) ?_
    omega

variable {next : Bytes × Nat → Except Fault (Bytes × Nat)} {rest : Nat → Prop}

/-- A string value in the rest of a buffer, and what comes after it. -/
theorem inside_initStringValue_iff {string : Bytes} {terminateNull : Bool} {before : Nat}
    (hblock : block.length = length) (hlength : length < 2 ^ 32) (hbefore : before ≤ length)
    (hnext : before + stringValueSize string terminateNull ≤ length → ∀ block', block'.length = length →
      (Inside length (next (block', stringValueSize string terminateNull)) ↔
        rest (align4 (before + stringValueSize string terminateNull)))) :
    Inside length (dcerpcInitStringValue alloc string terminateNull block before (sub32 length before) >>= next) ↔
      StringValueFits alloc string terminateNull before rest length := by
  rw [dcerpcInitStringValue, StringValueFits, sub32_eq hbefore hlength]
  cases hname : utf8ToUcs2 alloc (cString string) with
  | error fault =>
      show Inside length (.error fault) ↔ _
      rw [inside_error_iff]
      constructor
      · intro h
        exact ⟨fun herror => h (Except.error.inj herror), fun _ hok => by cases hok⟩
      · intro h hfault
        exact h.1 (by rw [hfault])
  | ok name =>
      cases name with
      | none => exact iff_of_true (inside_failed _ _) ⟨by rintro ⟨⟩, fun _ hok => by cases hok⟩
      | some units =>
          have hhead (n : Nat) : (leBytes 4 n ++ leBytes 4 0 ++ leBytes 4 n).length = 12 := by
            simp only [List.length_append, length_leBytes]
          have hunits := length_ucs2Bytes units
          simp only [ok_bind]
          by_cases hsmall : length - before < stringValueSize string terminateNull
          · rw [if_pos hsmall]
            refine iff_of_true (inside_failed _ _) ⟨by rintro ⟨⟩, ?_⟩
            intro _ _ hle
            omega
          · have hfits : before + stringValueSize string terminateNull ≤ length := by omega
            rw [if_neg hsmall]
            simp only [bind_assoc, ok_bind]
            rw [inside_store_iff hblock fun _ block' hblock' => inside_store_iff hblock' fun _ => hnext hfits,
              hhead, hunits]
            constructor
            · rintro ⟨-, hle, hrest⟩
              refine ⟨by rintro ⟨⟩, ?_⟩
              rintro _ ⟨⟩ -
              exact ⟨by omega, hrest⟩
            · rintro ⟨-, h⟩
              obtain ⟨hle, hrest⟩ := h units rfl hfits
              exact ⟨by omega, by omega, hrest⟩

theorem inside_initServerName_iff {refid : Nat} {name : Bytes} (hblock : block.length = length)
    (hlength : length < 2 ^ 32)
    (hnext : 4 + stringValueSize name true ≤ length → ∀ block', block'.length = length →
      (Inside length (next (block', 4 + stringValueSize name true)) ↔
        rest (align4 (4 + stringValueSize name true)))) :
    Inside length (dcerpcInitServerName alloc refid name block length >>= next) ↔
      4 ≤ length ∧ StringValueFits alloc name true 4 rest length := by
  rw [dcerpcInitServerName]
  simp only [bind_assoc, ok_bind]
  refine inside_store_iff hblock fun hfour block' hblock' => ?_
  refine inside_initStringValue_iff hblock' hlength (by simpa using hfour) fun hfits block'' hblock'' => ?_
  rw [add32_eq (by omega)]
  exact hnext hfits block'' hblock''

theorem srvsvcCreateNetrShareEnumRequest_inside_iff {serverName : Bytes} {shinfoType : UInt32}
    {resumeHandle : UInt64} (hblock : block.length = length) (hlength : length < 2 ^ 32) :
    Inside length (srvsvcCreateNetrShareEnumRequest alloc serverName shinfoType resumeHandle block length) ↔
      4 ≤ length ∧ StringValueFits alloc serverName true 4 (fun offset => offset + 28 ≤ length) length := by
  rw [srvsvcCreateNetrShareEnumRequest]
  refine inside_initServerName_iff hblock hlength fun hfits block₁ hblock₁ => ?_
  rw [inside_store_iff hblock₁ fun _ block₂ hblock₂ => inside_store_iff hblock₂ fun _ block₃ hblock₃ =>
    inside_store_iff hblock₃ fun _ _ _ => inside_ok_iff]
  simp only [List.length_append, length_leBytes, add32]
  omega

theorem lsarpcCreateOpenPolicy2Req_inside_iff {serverName : Bytes} {accessMask : UInt32}
    (hblock : block.length = length) (hlength : length < 2 ^ 32) :
    Inside length (lsarpcCreateOpenPolicy2Req alloc serverName accessMask block length) ↔
      4 ≤ length ∧ StringValueFits alloc serverName true 4 (fun offset => offset + 28 ≤ length) length := by
  rw [lsarpcCreateOpenPolicy2Req]
  refine inside_initServerName_iff hblock hlength fun hfits block₁ hblock₁ => ?_
  rw [inside_store_iff hblock₁ fun _ block₂ hblock₂ => inside_store_iff hblock₂ fun _ block₃ hblock₃ =>
    inside_store_iff hblock₃ fun _ _ _ => inside_ok_iff]
  simp only [List.length_replicate, length_leBytes, add32]
  omega

/-- The offsets behind the string, as the code computes them. -/
theorem lookUpTailFits_iff {offset : Nat} (haligned : offset % 4 = 0) (hlength : length < 2 ^ 32) :
    (offset + 4 ≤ length ∧ add32 offset 4 + 4 ≤ length ∧ add32 (add32 offset 4) 4 + 2 ≤ length ∧
      align4 (add32 (add32 (add32 offset 4) 4) 2) + 4 ≤ length ∧
        add32 (align4 (add32 (add32 (add32 offset 4) 4) 2)) 4 ≤ length) ↔ LookUpTailFits length offset := by
  by_cases hentries : offset + 4 ≤ length
  · have hsids : add32 offset 4 = offset + 4 := add32_eq (by omega)
    rw [hsids, LookUpTailFits]
    by_cases hsidsPtr : offset + 8 ≤ length
    · have hlevel : add32 (offset + 4) 4 = offset + 8 := add32_eq (by omega)
      rw [hlevel]
      by_cases hpadding : offset + 10 ≤ length
      · have hend : add32 (offset + 8) 2 = offset + 10 := add32_eq (by omega)
        have hcount : align4 (offset + 10) = add32 offset 12 := by
          have hmod : (offset + 10) % 4 = 2 := by omega
          rw [align4, if_pos (by omega), hmod, add32, add32]
        have hused : add32 offset 12 + 4 ≤ length → add32 (add32 offset 12) 4 ≤ length := fun hle => by
          rw [add32_eq (by omega)]
          exact hle
        rw [hend, hcount]
        constructor
        · rintro ⟨-, -, -, hle, -⟩
          exact ⟨hpadding, hle⟩
        · rintro ⟨-, hle⟩
          exact ⟨hentries, by omega, by omega, hle, hused hle⟩
      · exact iff_of_false (fun h => hpadding h.2.2.1) fun h => hpadding h.1
    · refine iff_of_false (fun h => hsidsPtr h.2.1) fun h => hsidsPtr ?_
      have := h.1
      omega
  · refine iff_of_false (fun h => hentries h.1) fun h => hentries ?_
    have := h.1
    omega

theorem PolicyHandle.length_bytes (handle : PolicyHandle) : handle.bytes.length = 20 := by
  simp only [bytes, List.length_append, length_leBytes, handle.uuidD.2]

theorem lsarpcCreateLookUpNamesReq_inside_iff {handle : PolicyHandle} {user domain : Bytes}
    (hblock : block.length = length) (hlength : length < 2 ^ 32) :
    Inside length (lsarpcCreateLookUpNamesReq alloc handle user domain block length) ↔
      (cString domain).length + (cString user).length + 2 ≤ 1024 ∧ 36 ≤ length ∧
        StringValueFits alloc (domain ++ [0x5c] ++ user) false 36 (LookUpTailFits length) length := by
  rw [lsarpcCreateLookUpNamesReq]
  have hname : (cString domain ++ [0x5c] ++ cString user ++ [0]).length =
      (cString domain).length + (cString user).length + 2 := by
    simp only [List.length_append, List.length_singleton]
    omega
  by_cases hscratch : (cString domain).length + (cString user).length + 2 ≤ 1024
  · rw [store_of_le (by rw [hname, List.length_replicate, Nat.zero_add]; exact hscratch), ok_bind,
      and_iff_right hscratch]
    refine (inside_store_iff hblock fun _ _ h₁ => inside_store_iff h₁ fun _ _ h₂ => inside_store_iff h₂ fun _ _ h₃ =>
      inside_store_iff h₃ fun _ _ h₄ => inside_store_iff h₄ fun _ _ h₅ => inside_store_iff h₅ fun hroom block₆ h₆ =>
        @inside_initStringValue_iff alloc length block₆ _ (LookUpTailFits length) _ _ 36 h₆ hlength hroom
          fun hfits block₇ h₇ => ?_).trans ?_
    · have hend : add32 36 (stringValueSize (domain ++ [0x5c] ++ user) false) =
          36 + stringValueSize (domain ++ [0x5c] ++ user) false := add32_eq (by omega)
      simp only [hend]
      rw [inside_store_iff h₇ fun _ _ h₈ => inside_store_iff h₈ fun _ _ h₉ =>
        inside_store_iff h₉ fun _ _ h₁₀ => inside_store_iff h₁₀ fun _ _ _ => inside_ok_iff]
      have haligned := align4_aligned (hfits.trans_lt hlength)
      simp only [length_leBytes]
      exact lookUpTailFits_iff haligned.1 hlength
    · simp only [handle.length_bytes, length_leBytes]
      constructor
      · rintro ⟨-, -, -, -, -, hroom, hfits⟩
        exact ⟨hroom, hfits⟩
      · rintro ⟨hroom, hfits⟩
        exact ⟨by omega, by omega, by omega, by omega, by omega, hroom, hfits⟩
  · rw [store_of_lt (by rw [hname, List.length_replicate]; omega)]
    exact iff_of_false (fun h => h.1 rfl) fun h => hscratch h.1

end

/-- A request is written inside its buffer exactly if what is not compared with the space fits as well. -/
theorem DceRpcRequest.inside_iff_fits (alloc : Bool) (request : DceRpcRequest) (buffer : SizedBuffer 32) :
    Inside buffer.size (request.create alloc buffer) ↔ request.Fits alloc buffer.size := by
  cases request with
  | netrShareEnum serverName shinfoType resumeHandle =>
      exact srvsvcCreateNetrShareEnumRequest_inside_iff rfl buffer.fits
  | openPolicy2 serverName accessMask => exact lsarpcCreateOpenPolicy2Req_inside_iff rfl buffer.fits
  | lookUpNames handle user domain => exact lsarpcCreateLookUpNamesReq_inside_iff rfl buffer.fits

/-- A name that just fits leaves no space for what is behind it, and a long domain none in the array. -/
theorem not_inside_fullBuffer :
    let buffer : SizedBuffer 32 := ⟨List.replicate 20 0, by decide⟩
    ¬ Inside buffer.size ((DceRpcRequest.netrShareEnum [0x61] 1 0).create true buffer) ∧
      ¬ Inside buffer.size ((DceRpcRequest.openPolicy2 [0x61] 0x800).create true buffer) ∧
        ∀ handle, ¬ Inside buffer.size
          ((DceRpcRequest.lookUpNames handle [] (List.replicate 1023 0x61)).create true buffer) := by
  intro buffer
  have hsize : buffer.bytes.length = 20 := rfl
  have hname : utf8ToUcs2 true (cString [0x61]) = .ok (some [0x61]) := utf8ToUcs2_ascii (by simp [cString]) (by decide)
  have hserver : ¬ StringValueFits true [0x61] true 4 (fun offset => offset + 28 ≤ 20) 20 := fun h =>
    absurd (h.2 _ hname (by decide)).2 (by decide)
  have hdomain : (cString (List.replicate 1023 0x61)).length = 1023 := by
    rw [cString, List.takeWhile_replicate, if_pos (by decide), List.length_replicate]
  refine ⟨fun h => ?_, fun h => ?_, fun handle h => ?_⟩
  · exact hserver ((srvsvcCreateNetrShareEnumRequest_inside_iff hsize (by decide)).mp h).2
  · exact hserver ((lsarpcCreateOpenPolicy2Req_inside_iff hsize (by decide)).mp h).2
  · have hscratch := ((lsarpcCreateLookUpNamesReq_inside_iff hsize (by decide)).mp h).1
    rw [hdomain] at hscratch
    omega

end CodeStudy.Samba
