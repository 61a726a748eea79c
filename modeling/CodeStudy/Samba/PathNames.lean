import CodeStudy.Samba.RequestLayout
import CodeStudy.Samba.Utf8

/-!
# The names in CREATE and RENAME requests

The application separates the names of a path with a slash, the server with a backslash. CREATE
converts the name once it is in its io vector. RENAME has the same loop, but runs it before the name
has an io vector of its own: what is converted are units of the fixed part that happen to be a slash.
-/

namespace CodeStudy.Samba

/-- A field by its width and its place, and what it holds. -/
structure FieldValue where
  width : Nat
  place : Nat
  value : Nat

def FieldValue.In (iov : Bytes) (f : FieldValue) : Prop := getField f.width iov f.place = some f.value

/-- The bytes that a path has on the wire. -/
def serverPath (units : List UInt16) : Bytes := ucs2Bytes (units.map serverSeparator)

/-- A request with a path. -/
inductive PathRequest where
  | create (req : Smb2CreateRequest)
  | rename (replaceIfExist : UInt8) (fileName : Bytes) (additionalInformation : UInt32) (fileId : Smb2FileId)

/-- The environment with the conversion of the library in it. -/
def convertingUtf8 (env : Env) : Env :=
  { env with utf8ToUcs2 := fun utf8 => (utf8ToUcs2 true utf8).toOption.join }

namespace PathRequest

def path : PathRequest → Bytes
  | create req => cString req.name
  | rename _ fileName _ _ => cString fileName

def encode (env : Env) : PathRequest → Encoded
  | create req => req.encode env
  | rename replaceIfExist fileName additionalInformation fileId =>
      Smb2SetInfoRequest.encode env { input := .rename replaceIfExist fileName, additionalInformation, fileId }

/-- What the fixed part is to hold, with the size of the name. -/
def fields (units : List UInt16) : PathRequest → List FieldValue
  | create req =>
      [⟨2, 46, 2 * units.length⟩, ⟨2, 0, 57⟩, ⟨1, 2, req.securityFlags.toNat⟩,
       ⟨1, 3, req.requestedOplockLevel.toNat⟩, ⟨4, 4, req.impersonationLevel.toNat⟩,
       ⟨8, 8, req.smbCreateFlags.toNat⟩, ⟨4, 24, req.desiredAccess.toNat⟩, ⟨4, 28, req.fileAttributes.toNat⟩,
       ⟨4, 32, req.shareAccess.toNat⟩, ⟨4, 36, req.createDisposition.toNat⟩, ⟨4, 40, req.createOptions.toNat⟩,
       ⟨2, 44, 64 + 56⟩, ⟨4, 52, req.createContextLength.toNat⟩]
  | rename _ _ additionalInformation fileId =>
      [⟨2, 0, 33⟩, ⟨1, 2, 1⟩, ⟨1, 3, 0x0a⟩, ⟨2, 8, 64 + 32⟩, ⟨4, 12, additionalInformation.toNat⟩,
       ⟨8, 16, fileId.persistentId.toNat⟩, ⟨8, 24, fileId.volatileId.toNat⟩, ⟨4, 4, 20 + 2 * units.length⟩]

/-- What stands in front of a new name. -/
def dataFields (units : List UInt16) : PathRequest → List FieldValue
  | create _ => []
  | rename replaceIfExist _ _ _ => [⟨1, 0, replaceIfExist.toNat⟩, ⟨8, 8, 0⟩, ⟨4, 16, 2 * units.length⟩]

def nameOffset : PathRequest → Nat
  | create _ => 0
  | rename .. => 20

/-- The request has its fields as they are, and the path with the separators of the server. -/
def CarriesPath (req : PathRequest) (units : List UInt16) (body : List Bytes) : Prop :=
  ∃ fixed data, body = [fixed, data] ∧ (∀ f ∈ req.fields units, f.In fixed) ∧
    (∀ f ∈ req.dataFields units, f.In data) ∧
    slice data req.nameOffset (2 * units.length) = serverPath units

/-- The fields that the loop of a RENAME can come to. -/
def fieldBytes (additionalInformation : UInt32) (fileId : Smb2FileId) : Bytes :=
  leBytes 4 additionalInformation.toNat ++ leBytes 8 fileId.persistentId.toNat ++
    leBytes 8 fileId.volatileId.toNat

/-- Neither the new name of a RENAME nor a unit of its fields that the loop comes to is a slash. The
size of the name of a CREATE is no more than its field can hold. -/
def Undamaged (units : List UInt16) : PathRequest → Prop
  | create _ => units.length < 2 ^ 15
  | rename _ _ additionalInformation fileId =>
      0x2f ∉ units ∧ ∀ i < units.length - 6,
        getField 2 (fieldBytes additionalInformation fileId) (2 * i) ≠ some 0x2f

end PathRequest

/-! ### Writing and reading fields -/

/-- The fields are written one after the other. -/
def writeFields (fields : List FieldValue) (iov : Bytes) : Bytes :=
  fields.foldl (fun iov f => setField f.width iov f.place f.value) iov

theorem length_writeFields (fields : List FieldValue) (iov : Bytes) :
    (writeFields fields iov).length = iov.length := by
  induction fields generalizing iov with
  | nil => rfl
  | cons f fields ih => exact (ih _).trans (length_setField ..)

def FieldValue.Disjoint (f g : FieldValue) : Prop := f.place + f.width ≤ g.place ∨ g.place + g.width ≤ f.place

theorem getField_writeFields_of_disjoint {fields : List FieldValue} {f : FieldValue}
    (h : ∀ g ∈ fields, f.Disjoint g) (iov : Bytes) :
    getField f.width (writeFields fields iov) f.place = getField f.width iov f.place := by
  induction fields generalizing iov with
  | nil => rfl
  | cons g fields ih =>
      have hg : f.Disjoint g := h g (List.mem_cons_self ..)
      have hrest := ih (fun g' hg' => h g' (List.mem_cons_of_mem _ hg')) (setField g.width iov g.place g.value)
      exact hrest.trans (getField_setField_of_disjoint hg)

/-- Fields that do not overlap hold what was written to them. -/
theorem in_writeFields {fields : List FieldValue} {iov : Bytes} (hpairwise : fields.Pairwise FieldValue.Disjoint)
    (hfits : ∀ f ∈ fields, f.place + f.width ≤ iov.length ∧ f.value < 256 ^ f.width) :
    ∀ f ∈ fields, f.In (writeFields fields iov) := by
  induction fields generalizing iov with
  | nil => nofun
  | cons f fields ih =>
      obtain ⟨hdisjoint, hpairwise⟩ := List.pairwise_cons.mp hpairwise
      obtain ⟨⟨hplace, hvalue⟩, hfits⟩ := List.forall_mem_cons.mp hfits
      refine List.forall_mem_cons.mpr ⟨?_, ih hpairwise ?_⟩
      · refine (getField_writeFields_of_disjoint hdisjoint _).trans ?_
        rw [getField_setField hplace, Nat.mod_eq_of_lt hvalue]
      · intro g hg
        rw [length_setField]
        exact hfits g hg

/-- The bytes of a field. -/
theorem FieldValue.In.slice_eq {iov : Bytes} {f : FieldValue} (h : f.In iov) :
    slice iov f.place f.width = leBytes f.width f.value := by
  rw [FieldValue.In, getField] at h
  split_ifs at h with hlt
  have hlength : (slice iov f.place f.width).length = f.width := length_slice (by omega)
  have hvalue : leNat (slice iov f.place f.width) = f.value := Option.some.inj h
  have hbytes := leBytes_leNat (slice iov f.place f.width)
  rw [hlength, hvalue] at hbytes
  exact hbytes.symm

/-! ### The loop over the fixed part -/

theorem getField_convertSeparator_self {iov : Bytes} {offset value : Nat} (h : getField 2 iov offset = some value) :
    getField 2 (convertSeparator iov offset) offset = some (if value = 0x2f then 0x5c else value) := by
  by_cases hvalue : value = 0x2f
  · have hplace : offset + 2 ≤ iov.length := by
      rw [getField] at h
      split_ifs at h
      omega
    rw [convertSeparator, if_pos (by rw [h, hvalue]), if_pos hvalue]
    exact getField_smb2SetUint16 hplace 0x005c
  · have hno : getField 2 iov offset ≠ some 0x2f := by
      rw [h]
      exact fun heq => hvalue (Option.some.inj heq)
    rw [convertSeparator, if_neg hno, if_neg hvalue, h]

/-- Units before the first that is a slash, and those behind the last one the loop comes to, stay. -/
theorem getField_loop (iov : Bytes) (units i : Nat) {value : Nat} (h : getField 2 iov (2 * i) = some value) :
    getField 2 ((List.range units).foldl (fun iov i => convertSeparator iov (2 * i)) iov) (2 * i) =
      some (if i < units ∧ value = 0x2f then 0x5c else value) := by
  induction units with
  | zero => simpa using h
  | succ units ih =>
      rw [List.range_succ, List.foldl_append, List.foldl_cons, List.foldl_nil]
      by_cases hi : units = i
      · subst hi
        rw [if_neg (by omega)] at ih
        rw [getField_convertSeparator_self ih]
        simp
      · have hother : ∀ iov' : Bytes, getField 2 (convertSeparator iov' (2 * units)) (2 * i) = getField 2 iov' (2 * i) := by
          intro iov'
          rw [convertSeparator]
          split_ifs
          · rw [smb2SetUint16, getField_setField_of_disjoint (by omega)]
          · rfl
        rw [hother, ih]
        simp only [show i < units + 1 ↔ i < units by omega]

/-- Nothing is converted where no unit is a slash. -/
theorem loop_eq_self {iov : Bytes} {units : Nat} (h : ∀ i < units, getField 2 iov (2 * i) ≠ some 0x2f) :
    (List.range units).foldl (fun iov i => convertSeparator iov (2 * i)) iov = iov := by
  induction units with
  | zero => rfl
  | succ units ih =>
      rw [List.range_succ, List.foldl_append, List.foldl_cons, List.foldl_nil, ih fun i hi => h i (by omega),
        convertSeparator, if_neg (h units (Nat.lt_succ_self _))]

namespace PathRequest

variable (replaceIfExist : UInt8) (fileName : Bytes) (additionalInformation : UInt32) (fileId : Smb2FileId)

/-- The SET_INFO request that a RENAME is. -/
def setInfo : Smb2SetInfoRequest where
  input := .rename replaceIfExist fileName
  additionalInformation := additionalInformation
  fileId := fileId

/-- The fields of the fixed part, and the reserved bytes between them. -/
def writtenFields : List FieldValue :=
  [⟨2, 0, 33⟩, ⟨1, 2, 1⟩, ⟨1, 3, 0x0a⟩, ⟨2, 8, 64 + 32⟩, ⟨4, 12, additionalInformation.toNat⟩,
   ⟨8, 16, fileId.persistentId.toNat⟩, ⟨8, 24, fileId.volatileId.toNat⟩]

theorem fixed_eq_writeFields : (setInfo replaceIfExist fileName additionalInformation fileId).fixed =
    writeFields (writtenFields additionalInformation fileId) (List.replicate 32 0) := by
  simp [setInfo, Smb2SetInfoRequest.fixed, SetInfoData.infoType, SetInfoData.fileInfoClass, writeFields,
    writtenFields, smb2SetUint8, smb2SetUint16, smb2SetUint32, smb2SetUint64]

theorem in_fixed : ∀ f ∈ writtenFields additionalInformation fileId,
    f.In (setInfo replaceIfExist fileName additionalInformation fileId).fixed := by
  rw [fixed_eq_writeFields]
  have hadditional := additionalInformation.toNat_lt
  have hpersistent := fileId.persistentId.toNat_lt
  have hvolatile := fileId.volatileId.toNat_lt
  refine in_writeFields ?_ ?_
  · simp [writtenFields, FieldValue.Disjoint]
  · simp [writtenFields]
    omega

theorem length_fixed_setInfo :
    (setInfo replaceIfExist fileName additionalInformation fileId).fixed.length = 32 := by
  rw [fixed_eq_writeFields, length_writeFields, List.length_replicate]

/-- The bytes between the written fields are zero. -/
theorem in_fixed_of_disjoint {f : FieldValue} (hvalue : f.value = 0) (hplace : f.place + f.width ≤ 32)
    (hdisjoint : ∀ g ∈ writtenFields additionalInformation fileId, f.Disjoint g) :
    f.In (setInfo replaceIfExist fileName additionalInformation fileId).fixed := by
  rw [FieldValue.In, fixed_eq_writeFields, getField_writeFields_of_disjoint hdisjoint, hvalue]
  exact getField_replicate hplace

/-- Three fields that stand next to each other. -/
theorem slice_fieldBytes {iov : Bytes} (hadditional : FieldValue.In iov ⟨4, 12, additionalInformation.toNat⟩)
    (hpersistent : FieldValue.In iov ⟨8, 16, fileId.persistentId.toNat⟩)
    (hvolatile : FieldValue.In iov ⟨8, 24, fileId.volatileId.toNat⟩) :
    slice iov 12 20 = fieldBytes additionalInformation fileId := by
  rw [slice_add iov 12 4 16, slice_add iov 16 8 8, fieldBytes, List.append_assoc]
  exact congrArg₂ (· ++ ·) hadditional.slice_eq (congrArg₂ (· ++ ·) hpersistent.slice_eq hvolatile.slice_eq)

theorem fixed_setInfo : (setInfo replaceIfExist fileName additionalInformation fileId).fixed =
    [33, 0, 1, 0x0a, 0, 0, 0, 0, 96, 0, 0, 0] ++ fieldBytes additionalInformation fileId := by
  set iov := (setInfo replaceIfExist fileName additionalInformation fileId).fixed with hiov
  have hin := in_fixed replaceIfExist fileName additionalInformation fileId
  rw [← hiov] at hin
  simp only [writtenFields, List.forall_mem_cons] at hin
  obtain ⟨hsize, htype, hclass, hoffset, hadditional, hpersistent, hvolatile, -⟩ := hin
  have hlengthField : FieldValue.In iov ⟨4, 4, 0⟩ :=
    in_fixed_of_disjoint _ _ _ _ rfl (by decide) (by simp [writtenFields, FieldValue.Disjoint])
  have hreserved : FieldValue.In iov ⟨2, 10, 0⟩ :=
    in_fixed_of_disjoint _ _ _ _ rfl (by decide) (by simp [writtenFields, FieldValue.Disjoint])
  have hwhole : iov = slice iov 0 (12 + 20) := by
    rw [slice, List.drop_zero, List.take_of_length_le (length_fixed_setInfo ..).le]
  have hhead : slice iov 0 12 = [33, 0, 1, 0x0a, 0, 0, 0, 0, 96, 0, 0, 0] := by
    rw [slice_add iov 0 2 10, slice_add iov 2 1 9, slice_add iov 3 1 8, slice_add iov 4 4 4, slice_add iov 8 2 2]
    exact congrArg₂ (· ++ ·) hsize.slice_eq (congrArg₂ (· ++ ·) htype.slice_eq (congrArg₂ (· ++ ·) hclass.slice_eq
      (congrArg₂ (· ++ ·) hlengthField.slice_eq (congrArg₂ (· ++ ·) hoffset.slice_eq hreserved.slice_eq))))
  rw [hwhole, slice_add, hhead]
  exact congrArg _ (slice_fieldBytes _ _ hadditional hpersistent hvolatile)

/-- The units of the fixed part in front of the fields are no slashes. -/
theorem getField_fixed_ne {units : Nat}
    (h : ∀ i < units - 6, getField 2 (fieldBytes additionalInformation fileId) (2 * i) ≠ some 0x2f) :
    ∀ i < units, getField 2 (setInfo replaceIfExist fileName additionalInformation fileId).fixed (2 * i) ≠
      some 0x2f := by
  intro i hi
  rw [fixed_setInfo]
  by_cases hhead : i < 6
  · rw [getField_append_left (by simp only [List.length_cons, List.length_nil]; omega)]
    have hconst : ∀ i < 6, getField 2 [33, 0, 1, 0x0a, 0, 0, 0, 0, 96, 0, 0, 0] (2 * i) ≠ some 0x2f := by decide
    exact hconst i hhead
  · obtain ⟨k, rfl⟩ := Nat.exists_eq_add_of_le (Nat.not_lt.mp hhead)
    have hplace : 2 * (6 + k) = ([33, 0, 1, 0x0a, 0, 0, 0, 0, 96, 0, 0, 0] : Bytes).length + 2 * k := by
      simp only [List.length_cons, List.length_nil]
      omega
    rw [hplace, getField_append_right]
    exact h k (by omega)

/-- A unit of the fields that the loop comes to and converts is not what it is to be. -/
theorem not_in_of_separator {units i : Nat} (hi : i < units - 6)
    (hseparator : getField 2 (fieldBytes additionalInformation fileId) (2 * i) = some 0x2f) (length : UInt32) :
    slice (smb2SetUint32 ((setInfo replaceIfExist fileName additionalInformation fileId).renameFixed units) 4 length)
      12 20 ≠ fieldBytes additionalInformation fileId := by
  set iov := (setInfo replaceIfExist fileName additionalInformation fileId).renameFixed units with hiov
  intro hslice
  have hbounds : 2 * i + 2 ≤ 20 := by
    have hlength : (fieldBytes additionalInformation fileId).length = 20 := by
      simp only [fieldBytes, List.length_append, length_leBytes]
    rw [getField, hlength] at hseparator
    split_ifs at hseparator
    omega
  have hplace : 2 * (6 + i) = ([33, 0, 1, 0x0a, 0, 0, 0, 0, 96, 0, 0, 0] : Bytes).length + 2 * i := by
    simp only [List.length_cons, List.length_nil]
    omega
  have hbefore : getField 2 (setInfo replaceIfExist fileName additionalInformation fileId).fixed (2 * (6 + i)) =
      some 0x2f := by
    rw [fixed_setInfo, hplace, getField_append_right, hseparator]
  have hafter : getField 2 (smb2SetUint32 iov 4 length) (12 + 2 * i) = some 0x5c := by
    rw [smb2SetUint32, getField_setField_of_disjoint (by omega), hiov, Smb2SetInfoRequest.renameFixed]
    have hloop := getField_loop _ units (6 + i) hbefore
    rw [if_pos ⟨by omega, rfl⟩] at hloop
    rw [show 12 + 2 * i = 2 * (6 + i) by omega]
    exact hloop
  have hkept : getField 2 (fieldBytes additionalInformation fileId) (2 * i) =
      getField 2 (smb2SetUint32 iov 4 length) (12 + 2 * i) := by
    have hlength : (smb2SetUint32 iov 4 length).length = 32 := by
      rw [length_smb2SetUint32]
      exact (Smb2SetInfoRequest.fixedPart_renameFixed _ _).length
    rw [← hslice, getField_eq (by rw [length_slice (by omega)]; omega), slice_slice hbounds,
      getField_eq (by omega)]
  rw [hkept, hafter] at hseparator
  exact absurd (Option.some.inj hseparator) (by decide)

end PathRequest

/-! ### The requests -/

theorem ucs2Bytes_injective {units units' : List UInt16} (h : ucs2Bytes units = ucs2Bytes units') : units = units' := by
  have hunits := congrArg ucs2Units h
  rw [ucs2Units_ucs2Bytes, ucs2Units_ucs2Bytes] at hunits
  exact hunits

/-- A path without slashes is as the server is to have it. -/
theorem serverPath_eq_iff (units : List UInt16) : ucs2Bytes units = serverPath units ↔ 0x2f ∉ units := by
  rw [serverPath]
  constructor
  · intro h hmem
    have hconverted : (0x2f : UInt16) ∈ units.map serverSeparator := by
      rw [← ucs2Bytes_injective h]
      exact hmem
    obtain ⟨unit, -, hunit⟩ := List.mem_map.mp hconverted
    rw [serverSeparator] at hunit
    split_ifs at hunit with hslash
    · exact absurd hunit (by decide)
    · exact hslash hunit
  · intro h
    have hmap : units.map serverSeparator = units.map id := by
      refine List.map_congr_left fun unit hunit => if_neg ?_
      rintro rfl
      exact h hunit
    rw [hmap, List.map_id]

namespace PathRequest

section

variable {units : List UInt16} {env : Env} {body : List Bytes}

/-- The data of a RENAME have their fields and the name as it was converted. -/
theorem in_encodeRename (replaceIfExist : UInt8) (fileName : Bytes) (additionalInformation : UInt32)
    (fileId : Smb2FileId) (hsize : 20 + 2 * units.length < 2 ^ 31) :
    (∀ f ∈ (rename replaceIfExist fileName additionalInformation fileId).dataFields units,
      f.In (encodeRename replaceIfExist units)) ∧
      slice (encodeRename replaceIfExist units) 20 (2 * units.length) = ucs2Bytes units := by
  have hbytes : (ucs2Bytes units).length = 2 * units.length := by rw [length_ucs2Bytes, Nat.mul_comm]
  set head := writeFields [⟨1, 0, replaceIfExist.toNat⟩, ⟨8, 8, 0⟩, ⟨4, 16, 2 * units.length⟩]
    (List.replicate (20 + 2 * units.length) 0) with hhead
  have hlength : head.length = 20 + 2 * units.length := by rw [hhead, length_writeFields, List.length_replicate]
  have hencode : encodeRename replaceIfExist units = memcpy head 20 (ucs2Bytes units) := by
    rw [encodeRename, hhead]
    simp only [writeFields, List.foldl_cons, List.foldl_nil, smb2SetUint8, smb2SetUint32, smb2SetUint64,
      toNat_ofNat_uint32 (show 2 * units.length < 2 ^ 32 by omega)]
    rfl
  have hin := @in_writeFields [⟨1, 0, replaceIfExist.toNat⟩, ⟨8, 8, 0⟩, ⟨4, 16, 2 * units.length⟩]
    (List.replicate (20 + 2 * units.length) 0) (by simp [FieldValue.Disjoint]) (by
      have hreplace := replaceIfExist.toNat_lt
      simp only [List.forall_mem_cons, List.length_replicate]
      refine ⟨⟨by omega, by omega⟩, ⟨by omega, by omega⟩, ⟨by omega, by omega⟩, List.forall_mem_nil _⟩)
  rw [hencode]
  constructor
  · intro f hf
    have hplace : f.place + f.width ≤ 20 := by
      simp only [dataFields, List.mem_cons, List.not_mem_nil, or_false] at hf
      rcases hf with rfl | rfl | rfl <;> simp
    have hcopied : slice (memcpy head 20 (ucs2Bytes units)) f.place f.width = slice head f.place f.width :=
      slice_memcpy_of_disjoint (by omega) (Or.inl hplace)
    have hfield := hin f hf
    rw [FieldValue.In, getField_eq (by rw [length_memcpy (by omega)]; omega), hcopied]
    rw [FieldValue.In, getField_eq (by rw [← hhead]; omega)] at hfield
    exact hfield
  · have hself := @slice_memcpy_self head (ucs2Bytes units) 20 (by omega)
    rw [hbytes] at hself
    exact hself

/-- The fields of a RENAME are as they are to be where the loop converts none of their units. -/
theorem in_renameFixed_iff (replaceIfExist : UInt8) (fileName : Bytes) (additionalInformation : UInt32)
    (fileId : Smb2FileId) (hsize : 20 + 2 * units.length < 2 ^ 31) :
    (∀ f ∈ (rename replaceIfExist fileName additionalInformation fileId).fields units,
      f.In (smb2SetUint32 ((setInfo replaceIfExist fileName additionalInformation fileId).renameFixed
        units.length) 4 (UInt32.ofNat (20 + 2 * units.length)))) ↔
      ∀ i < units.length - 6, getField 2 (fieldBytes additionalInformation fileId) (2 * i) ≠ some 0x2f := by
  constructor
  · intro hin i hi hseparator
    refine not_in_of_separator replaceIfExist fileName additionalInformation fileId hi hseparator
      (UInt32.ofNat (20 + 2 * units.length)) (slice_fieldBytes _ _ ?_ ?_ ?_)
    · exact hin _ (by simp [fields])
    · exact hin _ (by simp [fields])
    · exact hin _ (by simp [fields])
  · intro h
    have hloop := loop_eq_self (getField_fixed_ne replaceIfExist fileName additionalInformation fileId h)
    rw [Smb2SetInfoRequest.renameFixed, hloop, fixed_eq_writeFields]
    have hwritten (iov : Bytes) : smb2SetUint32 (writeFields (writtenFields additionalInformation fileId) iov) 4
        (UInt32.ofNat (20 + 2 * units.length)) =
        writeFields ((rename replaceIfExist fileName additionalInformation fileId).fields units) iov := by
      simp only [smb2SetUint32, toNat_ofNat_uint32 (show 20 + 2 * units.length < 2 ^ 32 by omega), writeFields,
        writtenFields, fields, List.foldl_cons, List.foldl_nil]
    have hadditional := additionalInformation.toNat_lt
    have hpersistent := fileId.persistentId.toNat_lt
    have hvolatile := fileId.volatileId.toNat_lt
    rw [hwritten]
    refine in_writeFields ?_ ?_
    · simp [fields, FieldValue.Disjoint]
    · simp only [fields, List.forall_mem_cons, List.length_replicate]
      refine ⟨⟨by omega, by omega⟩, ⟨by omega, by omega⟩, ⟨by omega, by omega⟩, ⟨by omega, by omega⟩,
        ⟨by omega, by omega⟩, ⟨by omega, by omega⟩, ⟨by omega, by omega⟩, ⟨by omega, by omega⟩, List.forall_mem_nil _⟩

theorem carriesPath_rename_iff {replaceIfExist : UInt8} {fileName : Bytes} {additionalInformation : UInt32}
    {fileId : Smb2FileId} (hunits : env.utf8ToUcs2 (cString fileName) = some units)
    (hbody : (rename replaceIfExist fileName additionalInformation fileId).encode env = .body body) :
    (rename replaceIfExist fileName additionalInformation fileId).CarriesPath units body ↔
      (rename replaceIfExist fileName additionalInformation fileId).Undamaged units := by
  rw [encode, Smb2SetInfoRequest.encode] at hbody
  simp only [hunits] at hbody
  split_ifs at hbody with halloc
  have hsize : 20 + 2 * units.length < 2 ^ 31 := Nat.not_le.mp halloc
  obtain ⟨hdata, hname⟩ := in_encodeRename replaceIfExist fileName additionalInformation fileId hsize
  have hfixed := in_renameFixed_iff replaceIfExist fileName additionalInformation fileId hsize
  cases hbody
  rw [Undamaged, ← hfixed, ← serverPath_eq_iff]
  constructor
  · rintro ⟨fixed, data, hpair, hin, -, hslice⟩
    cases hpair
    exact ⟨hname.symm.trans hslice, hin⟩
  · rintro ⟨hpath, hin⟩
    exact ⟨_, _, rfl, hin, hdata, hname.trans hpath⟩

/-- The fields of a CREATE are as they are to be when the size of the name fits. -/
theorem in_create_iff (req : Smb2CreateRequest) :
    (∀ f ∈ (create req).fields units, f.In (req.fixed (UInt16.ofNat (2 * units.length)))) ↔
      units.length < 2 ^ 15 := by
  set size := UInt16.ofNat (2 * units.length) with hsize
  have htoNat : size.toNat = 2 * units.length % 2 ^ 16 := UInt16.toNat_ofNat'
  have hwritten : req.fixed size = writeFields (⟨2, 46, size.toNat⟩ :: ((create req).fields units).tail)
      (List.replicate 56 0) := by
    simp [Smb2CreateRequest.fixed, fields, writeFields, smb2SetUint8, smb2SetUint16, smb2SetUint32, smb2SetUint64]
  have hin := @in_writeFields (⟨2, 46, size.toNat⟩ :: ((create req).fields units).tail) (List.replicate 56 0)
    (by simp [fields, FieldValue.Disjoint]) (by
      have hflags := req.securityFlags.toNat_lt
      have hoplock := req.requestedOplockLevel.toNat_lt
      have himpersonation := req.impersonationLevel.toNat_lt
      have hcreateFlags := req.smbCreateFlags.toNat_lt
      have haccess := req.desiredAccess.toNat_lt
      have hattributes := req.fileAttributes.toNat_lt
      have hshare := req.shareAccess.toNat_lt
      have hdisposition := req.createDisposition.toNat_lt
      have hoptions := req.createOptions.toNat_lt
      have hcontext := req.createContextLength.toNat_lt
      simp [fields]
      omega)
  rw [← hwritten, List.forall_mem_cons] at hin
  constructor
  · intro h
    have hlength := h ⟨2, 46, 2 * units.length⟩ (List.mem_cons_self ..)
    have heq : size.toNat = 2 * units.length := Option.some.inj (hin.1.symm.trans hlength)
    omega
  · intro h
    have heq : size.toNat = 2 * units.length := by omega
    rw [heq] at hin
    exact List.forall_mem_cons.mpr hin

theorem carriesPath_create_iff {req : Smb2CreateRequest} (hunits : sentName env req.name = units)
    (hbody : (create req).encode env = .body body) :
    (create req).CarriesPath units body ↔ (create req).Undamaged units := by
  rw [encode] at hbody
  obtain ⟨-, filler, hencode⟩ := Smb2CreateRequest.encode_of_not_refused (by rw [hbody]; nofun)
  rw [hbody, hunits] at hencode
  cases hencode
  rw [Undamaged, ← @in_create_iff units req]
  constructor
  · rintro ⟨fixed, data, hpair, hin, -, -⟩
    rw [(List.cons.inj hpair).1]
    exact hin
  · intro hin
    have hlength : (serverPath units).length = 2 * units.length := by
      rw [serverPath, length_ucs2Bytes, List.length_map, Nat.mul_comm]
    refine ⟨_, _, rfl, hin, nofun, ?_⟩
    rw [nameOffset, slice, List.drop_zero, ← hlength]
    exact List.take_left

end

theorem convertingUtf8_eq {env : Env} {utf8 : Bytes} {units : List UInt16}
    (h : utf8ToUcs2 true utf8 = .ok (some units)) : (convertingUtf8 env).utf8ToUcs2 utf8 = some units := by
  show (utf8ToUcs2 true utf8).toOption.join = some units
  rw [h]
  rfl

/-- A request for a path that can be converted carries it, with its own fields, when it is undamaged and
only then. -/
theorem carriesPath_iff (env : Env) (req : PathRequest) {units : List UInt16} {body : List Bytes}
    (hunits : utf8ToUcs2 true req.path = .ok (some units))
    (hbody : req.encode (convertingUtf8 env) = .body body) : req.CarriesPath units body ↔ req.Undamaged units := by
  have hconverts : (convertingUtf8 env).utf8ToUcs2 req.path = some units := convertingUtf8_eq hunits
  cases req with
  | rename replaceIfExist fileName additionalInformation fileId => exact carriesPath_rename_iff hconverts hbody
  | create req =>
      refine carriesPath_create_iff ?_ hbody
      rw [sentName, show cString req.name = (create req).path from rfl]
      split_ifs with hempty
      · have hnone := @utf8ToUcs2_ascii [] (List.forall_mem_nil _) (by decide)
        rw [hempty, hnone] at hunits
        cases hunits
        rfl
      · rw [hconverts, Option.getD_some]

/-- A RENAME to a short name that is its own string of units. -/
theorem encode_rename {fileName : Bytes} {units : List UInt16} (fileId : Smb2FileId)
    (hunits : utf8ToUcs2 true (cString fileName) = .ok (some units)) (hshort : units.length < 10) :
    (rename 0 fileName 0 fileId).encode (convertingUtf8 plainEnv) =
      .body [smb2SetUint32 ((setInfo 0 fileName 0 fileId).renameFixed units.length) 4
        (UInt32.ofNat (20 + 2 * units.length)), encodeRename 0 units] := by
  have halloc : ¬ cannotAllocate 20 units.length := by
    rw [cannotAllocate]
    omega
  rw [encode, Smb2SetInfoRequest.encode]
  simp only [convertingUtf8_eq hunits, if_neg halloc]
  rfl

/-- A file is renamed to `ab`. -/
theorem carriesPath_rename : ∃ body, (rename 0 [0x61, 0x62] 0 ⟨1, 2⟩).encode (convertingUtf8 plainEnv) =
    .body body ∧ (rename 0 [0x61, 0x62] 0 ⟨1, 2⟩).CarriesPath [0x61, 0x62] body := by
  have hunits : utf8ToUcs2 true (cString [0x61, 0x62]) = .ok (some [0x61, 0x62]) :=
    utf8ToUcs2_ascii (by simp [cString]) (by decide)
  have hbody := encode_rename ⟨1, 2⟩ hunits (by decide)
  exact ⟨_, hbody, (carriesPath_iff plainEnv (rename 0 [0x61, 0x62] 0 ⟨1, 2⟩) hunits hbody).mpr
    ⟨by decide, by simp⟩⟩

/-- The name `a/b` keeps its slash, and a name of nine letters changes a file id that has a slash in it. -/
theorem not_carriesPath_rename :
    (∃ body, (rename 0 [0x61, 0x2f, 0x62] 0 ⟨1, 2⟩).encode (convertingUtf8 plainEnv) = .body body ∧
      ¬ (rename 0 [0x61, 0x2f, 0x62] 0 ⟨1, 2⟩).CarriesPath [0x61, 0x2f, 0x62] body) ∧
    ∃ body, (rename 0 (List.replicate 9 0x61) 0 ⟨0x2f, 0⟩).encode (convertingUtf8 plainEnv) = .body body ∧
      ¬ (rename 0 (List.replicate 9 0x61) 0 ⟨0x2f, 0⟩).CarriesPath (List.replicate 9 0x61) body := by
  constructor
  · have hunits : utf8ToUcs2 true (cString [0x61, 0x2f, 0x62]) = .ok (some [0x61, 0x2f, 0x62]) :=
      utf8ToUcs2_ascii (by simp [cString]) (by decide)
    have hbody := encode_rename ⟨1, 2⟩ hunits (by decide)
    refine ⟨_, hbody, fun h => ?_⟩
    have hundamaged := (carriesPath_rename_iff (convertingUtf8_eq hunits) hbody).mp h
    exact hundamaged.1 (by decide)
  · have hunits : utf8ToUcs2 true (cString (List.replicate 9 0x61)) = .ok (some (List.replicate 9 0x61)) :=
      utf8ToUcs2_ascii (by simp [cString]) (by decide)
    have hbody := encode_rename ⟨0x2f, 0⟩ hunits (by decide)
    refine ⟨_, hbody, fun h => ?_⟩
    have hundamaged := (carriesPath_rename_iff (convertingUtf8_eq hunits) hbody).mp h
    exact hundamaged.2 2 (by decide) (by decide)

end PathRequest

end CodeStudy.Samba
