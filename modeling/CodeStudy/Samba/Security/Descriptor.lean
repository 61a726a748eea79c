import CodeStudy.Base.View
import CodeStudy.Samba.Protocol

/-!
# Security descriptors

The self-relative form of a security descriptor: a header with offsets, the owner and the group as
SIDs, and an access control list of entries with four layouts. The decoder and the encoder follow
the program: the decoder walks through the buffer with a length of its own, the encoder writes into
a buffer of a given size and reports how much it wrote.

A null pointer for a SID where the type of an entry needs one, a read behind the buffer and a write
behind it are undefined.
-/

namespace CodeStudy.Samba

/-! ### Data -/

structure Smb2Sid where
  revision : UInt8
  idAuth : { b : Bytes // b.length = 6 }
  subAuth : List UInt32
  /-- The count of sub-authorities is a byte. -/
  count_lt : subAuth.length < 256
  deriving DecidableEq

abbrev ObjectType := { b : Bytes // b.length = 16 }

def ObjectType.zero : ObjectType := ⟨List.replicate 16 0, rfl⟩

/-- An access control entry. Which fields are valid depends on its type. -/
structure Smb2Ace where
  aceType : UInt8 := 0
  aceFlags : UInt8 := 0
  aceSize : UInt16 := 0
  mask : UInt32 := 0
  flags : UInt32 := 0
  sid : Option Smb2Sid := none
  objectType : ObjectType := .zero
  inheritedObjectType : ObjectType := .zero
  adData : Bytes := []
  rawData : Bytes := []
  deriving DecidableEq

structure Smb2Acl where
  revision : UInt8
  aclSize : UInt16
  aceCount : UInt16
  aces : List Smb2Ace
  deriving DecidableEq

structure Smb2SecurityDescriptor where
  revision : UInt8
  control : UInt16
  owner : Option Smb2Sid := none
  group : Option Smb2Sid := none
  dacl : Option Smb2Acl := none
  deriving DecidableEq

/-- The layouts of entries. -/
inductive AceKind where
  | basic | object | callback | unknown
  deriving DecidableEq

/-- The layout that belongs to the type of an entry. -/
def aceKind (aceType : UInt8) : AceKind :=
  if aceType ∈ [0x00, 0x01, 0x02, 0x11, 0x13] then .basic
  else if aceType ∈ [0x05, 0x06, 0x07] then .object
  else if aceType ∈ [0x09, 0x10, 0x12] then .callback
  else .unknown

/-! ### Decoding -/

def decodeSid (v : View) : Except Fault Smb2Sid :=
  if v.len < 8 then .error (.failed (-1) "decode_sid: SID must be at least 8 bytes")
  else do
    let revision ← v.get 1 0 0
    if revision ≠ 1 then
      .error (.failed (-1) ("decode_sid: can not decode sid with revision " ++ toString revision))
    else do
      let subAuthCount ← v.get 1 1 0
      if v.len < 8 + UInt8.toNat (UInt8.ofNat subAuthCount) * 4 then
        .error (.failed (-1) "decode_sid: SID is bigger than the buffer")
      else do
        let idAuth ← v.copy 2 6
        let subAuth ← v.words 8 (UInt8.ofNat subAuthCount).toNat
        .ok {
          revision := UInt8.ofNat revision
          idAuth
          subAuth := subAuth.1
          count_lt := by rw [subAuth.2]; exact UInt8.toNat_lt _ }

/-- The text before the message of a SID that could not be decoded. -/
def aceSidText (aceType : UInt8) : String :=
  "decode_ace: Failed to decode sid. ace_type " ++ hex aceType.toNat ++ " - "

/-- The rest of the length, copied into memory of its own. A negative size cannot be allocated. -/
def copyRest (v : View) (msg : String) : Except Fault Bytes :=
  if toInt32 v.len < 0 then .error (.failed (-1) msg)
  else do
    let bytes ← v.copy 0 v.len
    .ok bytes.1

/-- Decode what follows the header of an entry, by its type. -/
def decodeAceContent (ace : Smb2Ace) (v : View) : Except Fault Smb2Ace :=
  match aceKind ace.aceType with
  | .basic => do
      let mask ← v.get 4 0 0
      if v.len < 4 then .error (.failed (-1) "decode_ace: not enough data for ace data.")
      else do
        let sid ← Fault.annotate (aceSidText ace.aceType) (decodeSid (v.skip 4))
        .ok { ace with mask := UInt32.ofNat mask, sid := some sid }
  | .object =>
      if v.len < 40 then .error (.failed (-1) "decode_ace: not enough data for ace data.")
      else do
        let mask ← v.get 4 0 0
        let flags ← (v.skip 4).get 4 0 0
        let objectType ← ((v.skip 4).skip 4).copy 0 16
        let inheritedObjectType ← (((v.skip 4).skip 4).skip 16).copy 0 16
        let sid ← Fault.annotate (aceSidText ace.aceType)
          (decodeSid ((((v.skip 4).skip 4).skip 16).skip 16))
        .ok { ace with
          mask := UInt32.ofNat mask
          flags := UInt32.ofNat flags
          objectType
          inheritedObjectType
          sid := some sid }
  | .callback => do
      let mask ← v.get 4 0 0
      if v.len < 4 then .error (.failed (-1) "decode_ace: not enough data for ace data.")
      else do
        let sid ← Fault.annotate (aceSidText ace.aceType) (decodeSid (v.skip 4))
        -- the view was passed to the SID decoder by value, so it still points at the SID
        let adData ← copyRest (v.skip 4) "decode_ace: Failed to allocate ad_data"
        .ok { ace with mask := UInt32.ofNat mask, sid := some sid, adData }
  | .unknown => do
      let rawData ← copyRest v "decode_ace: Failed to allocate raw_data"
      .ok { ace with rawData }

def decodeAce (v : View) : Except Fault Smb2Ace :=
  if v.len < 4 then .error (.failed (-1) "decode_ace: not enough data for ace header")
  else do
    let aceType ← v.get 1 0 0
    let aceFlags ← v.get 1 1 0
    let aceSize ← v.get 2 2 0
    let ace : Smb2Ace :=
      { aceType := UInt8.ofNat aceType
        aceFlags := UInt8.ofNat aceFlags
        aceSize := UInt16.ofNat aceSize }
    if ace.aceSize.toNat < 4 then .error (.failed (-1) "decode_ace: not enough data for ace data")
    else if v.len < ace.aceSize.toNat then
      .error (.failed (-1) "decode_ace: not enough data for ace data")
    else decodeAceContent ace (v.skip 4)

/-- Decode entries one after the other, each where the size of the one before it says. -/
def decodeAces : (index count : Nat) → View → Except Fault (List Smb2Ace)
  | _, 0, _ => .ok []
  | index, count + 1, v => do
      let ace ← Fault.annotate ("decode_acl: Failed to decode ace # " ++ toString index ++ ": ")
        (decodeAce v)
      if ace.aceSize.toNat > v.len then .error (.failed (-1) "decode_acl: not enough data for ace")
      else do
        let aces ← decodeAces (index + 1) count (v.skip ace.aceSize.toNat)
        .ok (ace :: aces)

def decodeAcl (v : View) : Except Fault Smb2Acl :=
  if v.len < 8 then .error (.failed (-1) "decode_acl: not enough data for acl header")
  else do
    let revision ← v.get 1 0 0
    let aclSize ← v.get 2 2 0
    let aceCount ← v.get 2 4 0
    if revision ≠ 2 ∧ revision ≠ 4 then
      .error (.failed (-1) ("decode_acl: can not decode acl with revision " ++ toString revision))
    else if (v.cut aclSize).len < aclSize then
      .error (.failed (-1) "decode_acl: not enough data for acl")
    else do
      let aces ← decodeAces 0 aceCount ((v.cut aclSize).skip 8)
      .ok {
        revision := UInt8.ofNat revision
        aclSize := UInt16.ofNat aclSize
        aceCount := UInt16.ofNat aceCount
        aces }

/-- The part of a descriptor that an offset of its header points at, when the decoder takes it. The
sum is a 32-bit number. -/
def partAt (b : Bytes) (offset : UInt32) : Option View :=
  if 0 < offset ∧ (offset + 8).toNat < b.length then some ((View.of b).skip offset.toNat) else none

/-- Decode a part that may be missing. -/
def decodePart {α : Type} (text : String) (decode : View → Except Fault α) :
    Option View → Except Fault (Option α)
  | none => .ok none
  | some v => do
      let part ← Fault.annotate text (decode v)
      .ok (some part)

def smb2DecodeSecDescInternal (b : Bytes) : Except Fault Smb2SecurityDescriptor :=
  if b.length < 20 then
    .error (.failed (-1) ("smb2DecodeSecDescInternal: Invalid buffer length for security descriptor " ++
      toString b.length))
  else do
    let v : View := ⟨b, 20⟩
    let revision ← v.get 1 0 0
    if revision ≠ 1 then
      .error (.failed (-1) ("smb2DecodeSecDescInternal: can't decode security descriptor with revision " ++
        toString revision))
    else do
      let control ← v.get 2 2 0
      let offsetOwner ← v.get 4 4 0
      let offsetGroup ← v.get 4 8 0
      let offsetDacl ← v.get 4 16 0
      let owner ← decodePart "smb2DecodeSecDescInternal: Failed to decode owner sid: " decodeSid
        (partAt b (UInt32.ofNat offsetOwner))
      let group ← decodePart "smb2DecodeSecDescInternal: Failed to decode group sid: " decodeSid
        (partAt b (UInt32.ofNat offsetGroup))
      let dacl ← decodePart "smb2DecodeSecDescInternal: Failed to decode dacl: " decodeAcl
        (partAt b (UInt32.ofNat offsetDacl))
      .ok { revision := UInt8.ofNat revision, control := UInt16.ofNat control, owner, group, dacl }

/-! ### Encoding -/

/-- Write bytes where some room is left. -/
def emit (room : Nat) (bytes : Bytes) : Except Fault Bytes :=
  if bytes.length ≤ room then .ok bytes else .error .undefined

def Smb2Sid.size (sid : Smb2Sid) : Nat := 8 + sid.subAuth.length * 4

def sidBytes (sid : Smb2Sid) : Bytes :=
  [sid.revision, UInt8.ofNat sid.subAuth.length] ++ sid.idAuth.1 ++
    sid.subAuth.flatMap fun word => leBytes 4 word.toNat

def encodeSid (sid : Smb2Sid) (bufferLen : UInt32) (room : Nat) : Except Fault Bytes :=
  if bufferLen.toNat < sid.size then
    .error (.failed (-1) "encode_sid: not enough memory to encode SID")
  else emit room (sidBytes sid)

/-- The SID of an entry whose type needs one. -/
def encodeAceSid (ace : Smb2Ace) (text : String) (bufferLen : UInt32) (room : Nat) : Except Fault Bytes :=
  match ace.sid with
  | none => .error .undefined
  | some sid =>
      Fault.annotate ("encode_ace: Failed to encode SID/ACE type " ++ hex ace.aceType.toNat ++ text)
        (encodeSid sid bufferLen room)

def aceHeader (ace : Smb2Ace) : Bytes := [ace.aceType, ace.aceFlags] ++ leBytes 2 ace.aceSize.toNat

/-- The mask that follows the header of an entry. -/
def aceMasked (ace : Smb2Ace) : Bytes := aceHeader ace ++ leBytes 4 ace.mask.toNat

/-- What precedes the SID of an entry about objects. -/
def aceObject (ace : Smb2Ace) : Bytes :=
  aceMasked ace ++ leBytes 4 ace.flags.toNat ++ ace.objectType.1 ++ ace.inheritedObjectType.1

def encodeAce (ace : Smb2Ace) (bufferLen : UInt32) (room : Nat) : Except Fault Bytes :=
  if bufferLen.toNat < ace.aceSize.toNat then
    .error (.failed (-1) "encode_ace: Not enough buffer to encode ACE")
  else
    match aceKind ace.aceType with
    | .basic => do
        let head ← emit room (aceMasked ace)
        let sid ← encodeAceSid ace ": " (bufferLen - 8) (room - 8)
        .ok (head ++ sid)
    | .object => do
        let head ← emit room (aceObject ace)
        let sid ← encodeAceSid ace " : " (bufferLen - 44) (room - 44)
        .ok (head ++ sid)
    | .callback => do
        let head ← emit room (aceMasked ace)
        let sid ← encodeAceSid ace " : " (bufferLen - 8) (room - 8)
        let adData ← emit (room - 8 - sid.length) ace.adData
        .ok (head ++ sid ++ adData)
    | .unknown => do
        let head ← emit room (aceHeader ace)
        let rawData ← emit (room - 4) ace.rawData
        .ok (head ++ rawData)

/-- Encode entries one after the other, each where the one before it ended. -/
def encodeAces : List Smb2Ace → (bufferLen : UInt32) → (room : Nat) → Except Fault Bytes
  | [], _, _ => .ok []
  | ace :: aces, bufferLen, room => do
      let first ← Fault.annotate "encode_acl: Failed to encode ACE : " (encodeAce ace bufferLen room)
      let rest ← encodeAces aces (bufferLen - UInt32.ofNat first.length) (room - first.length)
      .ok (first ++ rest)

/-- Add up the sizes of the entries, which must not exceed the size of the list. -/
def sumAceSizes (limit : UInt16) : List Smb2Ace → UInt32 → Except Fault UInt32
  | [], aclSize => .ok aclSize
  | ace :: aces, aclSize =>
      let aclSize := aclSize + ace.aceSize.toUInt32
      if aclSize < ace.aceSize.toUInt32 then .error (.failed (-1) "encode_acl: ACL overflow detected")
      else if aclSize > limit.toUInt32 then .error (.failed (-1) "encode_acl: Invalid ACL")
      else sumAceSizes limit aces aclSize

def aclHeader (acl : Smb2Acl) : Bytes :=
  [acl.revision, 0] ++ leBytes 2 acl.aclSize.toNat ++ leBytes 2 acl.aceCount.toNat ++ [0, 0]

def encodeAcl (acl : Smb2Acl) (bufferLen : UInt32) (room : Nat) : Except Fault Bytes := do
  let aclSize ← sumAceSizes acl.aclSize acl.aces 8
  if bufferLen < aclSize then
    .error (.failed (-1) "encode_acl: Not enough memory to encode ACL")
  else do
    let head ← emit room (aclHeader acl)
    let aces ← encodeAces acl.aces (bufferLen - 8) (room - 8)
    .ok (head ++ aces)

def smb2GetAclSize (acl : Smb2Acl) : UInt32 :=
  acl.aces.foldl (fun size ace => size + ace.aceSize.toUInt32) 8

def smb2GetSecurityDescriptorSize (sd : Smb2SecurityDescriptor) : UInt32 :=
  20 + (sd.owner.elim 0 fun sid => UInt32.ofNat sid.size) +
    (sd.group.elim 0 fun sid => UInt32.ofNat sid.size) + sd.dacl.elim 0 smb2GetAclSize

/-- Encode a part that may be missing. -/
def encodePart {α : Type} (text : String) (encode : α → UInt32 → Nat → Except Fault Bytes)
    (part : Option α) (bufferLen : UInt32) (room : Nat) : Except Fault Bytes :=
  match part with
  | none => .ok []
  | some part => Fault.annotate text (encode part bufferLen room)

/-- Where a part stands, 0 when it is missing. -/
def partOffset {α : Type} (part : Option α) (offset : Nat) : Nat := if part.isSome then offset else 0

/-- The header, with the offsets of the parts that are there. -/
def secDescHeader (sd : Smb2SecurityDescriptor) (owner group : Bytes) : Bytes :=
  [sd.revision, 0] ++ leBytes 2 sd.control.toNat ++
    leBytes 4 (partOffset sd.owner 20) ++
    leBytes 4 (partOffset sd.group (20 + owner.length)) ++
    leBytes 4 0 ++
    leBytes 4 (partOffset sd.dacl (20 + owner.length + group.length))

/-- The bytes written at the beginning of a buffer of the given size. -/
def smb2EncodeSecurityDescriptor (sd : Smb2SecurityDescriptor) (size : UInt32) : Except Fault Bytes :=
  if size < smb2GetSecurityDescriptorSize sd then
    .error (.failed (-9)
      "smb2EncodeSecurityDescriptor: Buffer too small to encode security descriptor")
  else if size.toNat < 20 then .error .undefined
  else do
    let owner ← encodePart "smb2EncodeSecurityDescriptor: Failed to encode owner SID : " encodeSid
      sd.owner (size - 20) (size.toNat - 20)
    let offset := 20 + owner.length
    let group ← encodePart "smb2EncodeSecurityDescriptor: Failed to encode group SID : " encodeSid
      sd.group (size - UInt32.ofNat offset) (size.toNat - offset)
    let offset := offset + group.length
    let dacl ← encodePart "smb2EncodeSecurityDescriptor: Failed to encode DACL : " encodeAcl
      sd.dacl (size - UInt32.ofNat offset) (size.toNat - offset)
    .ok (secDescHeader sd owner group ++ owner ++ group ++ dacl)

/-- Encode into a buffer that is doubled while it is too small. The size is a 32-bit number: once it
has become 0 the loop does not end. -/
def encodeGrowing (sd : Smb2SecurityDescriptor) : (doublings : Nat) → UInt32 → Except Fault Bytes
  | 0, _ => .error .undefined
  | doublings + 1, size =>
      match smb2EncodeSecurityDescriptor sd size with
      | .error (.failed (-9) _) => encodeGrowing sd doublings (size * 2)
      | result => result

/-- What `smb2_get_security` makes of the descriptor it was sent. -/
def smb2GetSecurity (sd : Smb2SecurityDescriptor) : Except Fault Bytes := encodeGrowing sd 23 1024

end CodeStudy.Samba
