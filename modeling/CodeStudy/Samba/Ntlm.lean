import CodeStudy.Base.GrowBuffer
import CodeStudy.Samba.FileRequests
import CodeStudy.Samba.Ucs2

/-!
# NTLM authentication

The client answers the server's NEGOTIATE with an NTLM NEGOTIATE message, and the CHALLENGE message
that comes back with an AUTHENTICATE message. An AUTHENTICATE message is a header of 64 bytes and
the payloads behind it; the header says of every payload how long it is and where it starts. The
header is written first with the offsets left open, and each offset is patched when its payload
is appended.
-/

namespace CodeStudy.Samba

open GrowBuffer

/-! ### Data -/

abbrev Digest := Block 16

structure NtlmAuthData extends GrowBuffer where
  ntlmBuf : Bytes := []
  user : Bytes
  password : Bytes
  domain : Bytes
  workstation : Bytes
  clientChallenge : Block 8
  exportedSessionKey : Bytes := List.replicate 16 0

/-- What the provider finds around it: memory, the clock and two hash functions. -/
structure NtlmEnv where
  malloc : GrowBuffer → (n : Nat) → Option (Block n)
  /-- Whether there is memory for a copy or a conversion of a string. -/
  allocString : Bytes → Bool
  /-- The seconds since 1970. -/
  time : Nat
  md4 : Bytes → Digest
  hmacMd5 : Bytes → Bytes → Digest

structure Blob where
  outputBuf : Option Bytes
  outputLen : UInt16

/-- The bytes that are sent. -/
def Blob.message (blob : Blob) : Bytes := (blob.outputBuf.getD []).take blob.outputLen.toNat

def timevalToWinEpoch (sec : Nat) : Nat := sec * 10000000 + 116444736000000000

def toUpper (c : UInt8) : UInt8 := if 0x61 ≤ c ∧ c ≤ 0x7a then c - 0x20 else c

/-- `NTLMSSP` with its terminator. -/
def ntlmssp : Bytes := [0x4e, 0x54, 0x4c, 0x4d, 0x53, 0x53, 0x50, 0]

def negotiateFlags : Nat := 0x80000000 ||| 0x20000000 ||| 0x00080000 ||| 0x200 ||| 0x4 ||| 0x2 ||| 0x1

def negotiateMessage : Bytes :=
  ntlmssp ++ leBytes 4 1 ++ leBytes 4 negotiateFlags ++ List.replicate 16 0

/-- A length and a maximum length that are the same. -/
def lengthFields (n : Nat) : Bytes := leBytes 4 (n <<< 16 ||| n)

/-- The length of a name in bytes. -/
def ucs2Length (name : Option (List UInt16)) : Nat := (name.getD []).length * 2

/-- A failure the caller learns about. The buffer is not used any more then. -/
def refused : Fault := .failed (-1) ""

namespace NtlmEnv

variable (env : NtlmEnv)

/-- The units of a string up to its terminator. -/
def utf8ToUcs2 (utf8 : Bytes) : Option (List UInt16) :=
  if env.allocString utf8 then utf8Units (cString utf8) else none

def ntowfv1 (password : Bytes) : Option Digest :=
  (env.utf8ToUcs2 password).map fun units => env.md4 (ucs2Bytes units)

def ntowfv2 (auth : NtlmAuthData) : Option Digest :=
  (env.ntowfv1 auth.password).bind fun ntlmHash =>
    let userdomain := (cString auth.user).map toUpper ++ cString auth.domain
    (env.utf8ToUcs2 userdomain).map fun units => env.hmacMd5 ntlmHash.1 (ucs2Bytes units)

/-! ### The encoder -/

/-- The low eight bits of the size are cleared before it is doubled. -/
def growth : Growth where
  malloc := env.malloc
  next size allocated := 2 * ((size + allocated + 256) / 256 * 256)
  le_next size allocated := by omega

def encoder (buffer : Bytes) (b : GrowBuffer) : Except Fault (Bool × GrowBuffer) := append env.growth buffer b

/-- Calls of `encoder`, each checked. -/
def encoders (pieces : List Bytes) (b : GrowBuffer) : Except Fault (Bool × GrowBuffer) :=
  appendAll env.growth pieces b

/-- Calls of `encoder` whose results nobody looks at. -/
def encodersUnchecked (pieces : List Bytes) (b : GrowBuffer) : Except Fault GrowBuffer :=
  appendBlindly env.growth pieces b

/-! ### Messages -/

/-- What follows the proof in an NTLMv2 response, with eight bytes and the server's challenge in the
place of the proof. -/
def tempPieces (auth : NtlmAuthData) (serverChallenge serverName : Bytes) : List Bytes :=
  [List.replicate 8 0, serverChallenge, [0x01, 0x01, 0, 0, 0, 0, 0, 0],
    leBytes 8 (timevalToWinEpoch env.time), auth.clientChallenge.1, List.replicate 4 0, serverName,
    List.replicate 4 0]

/-- The null pointer for a name that is left out. -/
def ucs2Name (leftOut : Bool) (name : Bytes) : Except Fault (Option (List UInt16)) :=
  if leftOut then .ok none
  else
    match env.utf8ToUcs2 name with
    | none => .error refused
    | some units => .ok (some units)

/-- Patch an offset with the place where the payload starts, and append the payload. -/
def appendPayload (position : Nat) (pieces : List Bytes) (b : GrowBuffer) : Except Fault GrowBuffer :=
  patch position (leBytes 4 b.len) b >>= env.encodersUnchecked pieces

/-- Generate AUTHENTICATE_MESSAGE. -/
def authenticateMessage (auth : NtlmAuthData) (lmStr ntChallengeResponse : Bytes) : Except Fault GrowBuffer := do
  let b ← env.encodersUnchecked
    [ntlmssp, leBytes 4 3, leBytes 4 0x00180018, leBytes 4 0,
      lengthFields ntChallengeResponse.length, leBytes 4 0] {}
  let domain ← env.ucs2Name auth.domain.isEmpty auth.domain
  let b ← env.encodersUnchecked [lengthFields (ucs2Length domain), leBytes 4 0] b
  let user ← env.ucs2Name false auth.user
  let b ← env.encodersUnchecked [lengthFields (ucs2Length user), leBytes 4 0] b
  let workstation ← env.ucs2Name auth.workstation.isEmpty auth.workstation
  let b ← env.encodersUnchecked [lengthFields (ucs2Length workstation), leBytes 4 0] b
  let b ← env.encodersUnchecked [leBytes 4 0, leBytes 4 0, leBytes 4 negotiateFlags] b
  let b ← env.appendPayload 32 (domain.toList.map ucs2Bytes) b
  let b ← env.appendPayload 40 (user.toList.map ucs2Bytes) b
  let b ← env.appendPayload 48 (workstation.toList.map ucs2Bytes) b
  let b ← env.appendPayload 16 [lmStr, auth.clientChallenge.1] b
  env.appendPayload 24 [ntChallengeResponse] b

def encodeNtlmAuth (auth : NtlmAuthData) (serverChallenge : View) : Except Fault NtlmAuthData :=
  match env.ntowfv2 auth with
  | none => .error refused
  | some responseKeyNT => do
      let ntlm := View.of auth.ntlmBuf
      let _ ← ntlm.copy 20 4
      let serverNameLen ← ntlm.copy 40 4
      let serverNameBuf ← ntlm.copy 44 4
      let challenge ← serverChallenge.copy 0 8
      let serverName ← ntlm.copy (leNat serverNameBuf.1) (leNat serverNameLen.1 >>> 16)
      let (encoded, b) ← env.encoders (env.tempPieces auth challenge.1 serverName.1) auth.toGrowBuffer
      if encoded then
        let temp ← read b.buf b.len
        let ntProofStr := env.hmacMd5 responseKeyNT.1 (temp.drop 8)
        let b ← patch 0 ntProofStr.1 b
        let ntChallengeResponse ← read b.buf b.len
        let keyExch := env.hmacMd5 responseKeyNT.1 ntProofStr.1
        let lmStr := env.hmacMd5 responseKeyNT.1 (challenge.1 ++ auth.clientChallenge.1)
        let b ← env.authenticateMessage auth lmStr.1 ntChallengeResponse
        .ok { auth with toGrowBuffer := b, exportedSessionKey := keyExch.1 }
      else .error refused

/-- Keep a copy of the server's CHALLENGE message. -/
def ntlmChallengeMessage (auth : NtlmAuthData) (buf : Bytes) : Except Fault NtlmAuthData :=
  if env.allocString buf then .ok { auth with ntlmBuf := buf } else .error refused

def ntlmsspGenerateBlob (auth : NtlmAuthData) (input : Option Bytes) : Except Fault (Blob × NtlmAuthData) := do
  let auth := { auth with toGrowBuffer := {} }
  let auth ←
    match input with
    | none => do
        let b ← env.encodersUnchecked [negotiateMessage] auth.toGrowBuffer
        .ok { auth with toGrowBuffer := b }
    | some challenge => do
        let auth ← env.ntlmChallengeMessage auth challenge
        env.encodeNtlmAuth auth ((View.of challenge).skip 24)
  .ok ({ outputBuf := auth.buf, outputLen := UInt16.ofNat auth.len }, auth)

end NtlmEnv

end CodeStudy.Samba
