import CodeStudy.Samba.NtlmLayout

/-!
# What is read of a CHALLENGE message

The client reads the fixed fields of a CHALLENGE message, the last of which ends at byte 48, and the
target information where two of these fields say it is. It compares none of this with the length of
the message. What it reports about the answer is its length, as a number of 16 bits.
-/

namespace CodeStudy.Samba

open GrowBuffer

namespace NtlmEnv

variable {env : NtlmEnv} {auth : NtlmAuthData}

/-- Memory never runs out. -/
structure HasMemory (env : NtlmEnv) : Prop where
  malloc : ∀ b n, (env.malloc b n).isSome
  allocString : ∀ s, env.allocString s

/-- The names can be converted. -/
def NamesConvert (auth : NtlmAuthData) : Prop :=
  (utf8Units (cString auth.domain)).isSome ∧ (utf8Units (cString auth.user)).isSome ∧
    (utf8Units (cString auth.workstation)).isSome

/-- The fields that are read and the target information lie in the message. -/
def Readable (challenge : Bytes) : Prop :=
  48 ≤ challenge.length ∧
    leNat (slice challenge 44 4) + leNat (slice challenge 40 4) >>> 16 ≤ challenge.length

/-- The length of the answer: its header, the responses with the target information, and the names. -/
def answerLength (env : NtlmEnv) (auth : NtlmAuthData) (challenge : Bytes) : Nat :=
  136 + leNat (slice challenge 40 4) >>> 16 + (env.namePayload auth.domain).length +
    (env.namePayload auth.user).length + (env.namePayload auth.workstation).length

/-- A call that reads only bytes of its message, and reports the length of what it built. -/
structure ReadsMessage (run : Except Fault (Blob × NtlmAuthData)) : Prop where
  defined : run ≠ .error .undefined
  outputLen_eq : ∀ blob auth', run = .ok (blob, auth') → blob.outputLen.toNat = auth'.len

/-! ### The runs -/

theorem length_messageOf_eq (hkey : Digest) {challenge : Bytes} (h : Readable challenge) :
    (messageOf env auth hkey challenge).length = env.answerLength auth challenge := by
  have hinfo : (targetInfo challenge).length = leNat (slice challenge 40 4) >>> 16 := length_slice h.2
  have htime : (leBytes 8 (timevalToWinEpoch env.time)).length = 8 := length_leBytes 8 _
  have hdigest (key content : Bytes) : (env.hmacMd5 key content).1.length = 16 := (env.hmacMd5 key content).2
  simp only [length_messageOf, payloads, List.map_cons, List.map_nil, List.sum_cons, List.sum_nil, lmResponse,
    ntResponse, ntTemp, List.length_append, hinfo, htime, hdigest, auth.clientChallenge.2, List.length_replicate,
    List.length_cons, List.length_nil, answerLength]
  omega

theorem copy_cases (v : View) (offset n : Nat) :
    (offset + n ≤ v.buf.length ∧ ∃ x, v.copy offset n = .ok x ∧ x.1 = slice v.buf offset n) ∨
      v.copy offset n = .error .undefined := by
  by_cases h : offset + n ≤ v.buf.length
  · exact .inl ⟨h, _, dif_pos h, rfl⟩
  · exact .inr (dif_neg h)

/-- A read behind the end of the message. -/
theorem encodeNtlmAuth_undefined {responseKeyNT : Digest} (hkey : env.ntowfv2 auth = some responseKeyNT)
    (h : ¬ Readable auth.ntlmBuf) :
    env.encodeNtlmAuth auth ((View.of auth.ntlmBuf).skip 24) = .error .undefined := by
  simp only [encodeNtlmAuth, hkey]
  obtain ⟨-, flags, hflags, -⟩ | hflags := copy_cases (View.of auth.ntlmBuf) 20 4
  · obtain ⟨-, len, hlen, hlenEq⟩ | hlen := copy_cases (View.of auth.ntlmBuf) 40 4
    · obtain ⟨hheader, position, hposition, hpositionEq⟩ | hposition := copy_cases (View.of auth.ntlmBuf) 44 4
      · obtain ⟨-, challenge, hchallenge, -⟩ | hchallenge :=
          copy_cases ((View.of auth.ntlmBuf).skip 24) 0 8
        · obtain ⟨htarget, -⟩ | hname :=
            copy_cases (View.of auth.ntlmBuf) (leNat position.1) (leNat len.1 >>> 16)
          · rw [hpositionEq, hlenEq] at htarget
            exact absurd ⟨hheader, htarget⟩ h
          · simp only [hflags, hlen, hposition, hchallenge, ok_bind, hname]
            rfl
        · simp only [hflags, hlen, hposition, hchallenge, ok_bind]
          rfl
      · simp only [hflags, hlen, hposition, ok_bind]
        rfl
    · simp only [hflags, hlen, ok_bind]
      rfl
  · simp only [hflags]
    rfl

theorem ucs2Name_refused {leftOut : Bool} {name : Bytes} (hleftOut : leftOut = true → name = [])
    (h : ¬ (utf8Units (cString name)).isSome) : env.ucs2Name leftOut name = .error refused := by
  by_cases hleft : leftOut = true
  · rw [hleftOut hleft] at h
    exact absurd rfl h
  · rw [ucs2Name, if_neg hleft, utf8ToUcs2, Option.not_isSome_iff_eq_none.mp h, ite_self]

theorem authenticateMessage_refused (hmemory : env.HasMemory) (h : ¬ NamesConvert auth) (lmStr nt : Bytes) :
    env.authenticateMessage auth lmStr nt = .error refused := by
  have hunchecked (pieces : List Bytes) {b : GrowBuffer} {content : Bytes} (hb : Holds b content) :
      ∃ b', env.encodersUnchecked pieces b = .ok b' ∧ Holds b' (content ++ pieces.flatten) :=
    hb.appendBlindly hmemory.malloc pieces
  obtain ⟨b₁, h₁, hb₁⟩ := hunchecked [ntlmssp, leBytes 4 3, leBytes 4 0x00180018, leBytes 4 0,
    lengthFields nt.length, leBytes 4 0] holds_empty
  by_cases hdomain : (utf8Units (cString auth.domain)).isSome
  · obtain ⟨domain, hdomain'⟩ := exists_ucs2Name auth.domain.isEmpty hmemory.allocString hdomain
    obtain ⟨b₂, h₂, hb₂⟩ := hunchecked [lengthFields (ucs2Length domain), leBytes 4 0] hb₁
    by_cases huser : (utf8Units (cString auth.user)).isSome
    · obtain ⟨user, huser'⟩ := exists_ucs2Name false hmemory.allocString huser
      obtain ⟨b₃, h₃, -⟩ := hunchecked [lengthFields (ucs2Length user), leBytes 4 0] hb₂
      have hworkstation : env.ucs2Name auth.workstation.isEmpty auth.workstation = .error refused :=
        ucs2Name_refused List.isEmpty_iff.mp fun hworkstation => h ⟨hdomain, huser, hworkstation⟩
      simp only [authenticateMessage, h₁, hdomain', h₂, huser', h₃, hworkstation, ok_bind]
      rfl
    · have huser' : env.ucs2Name false auth.user = .error refused :=
        ucs2Name_refused (fun h => absurd h Bool.false_ne_true) huser
      simp only [authenticateMessage, h₁, hdomain', h₂, huser', ok_bind]
      rfl
  · have hdomain' : env.ucs2Name auth.domain.isEmpty auth.domain = .error refused :=
      ucs2Name_refused List.isEmpty_iff.mp hdomain
    simp only [authenticateMessage, h₁, hdomain', ok_bind]
    rfl

/-- The provider when it starts on a message. -/
def received (auth : NtlmAuthData) (challenge : Bytes) : NtlmAuthData :=
  { auth with toGrowBuffer := {}, ntlmBuf := challenge }

theorem ntlmsspGenerateBlob_eq (hmemory : env.HasMemory) (auth : NtlmAuthData) (challenge : Bytes) :
    env.ntlmsspGenerateBlob auth (some challenge) =
      env.encodeNtlmAuth (received auth challenge) ((View.of challenge).skip 24) >>= fun auth =>
        .ok ({ outputBuf := auth.buf, outputLen := UInt16.ofNat auth.len }, auth) := by
  simp only [ntlmsspGenerateBlob, ntlmChallengeMessage, hmemory.allocString challenge, if_true, ok_bind, received]

theorem encodeNtlmAuth_refused (hmemory : env.HasMemory) {challenge : Bytes} (hread : Readable challenge)
    (hnames : ¬ NamesConvert auth) :
    env.encodeNtlmAuth (received auth challenge) ((View.of challenge).skip 24) = .error refused := by
  cases hkey : env.ntowfv2 (received auth challenge) with
  | none => simp only [encodeNtlmAuth, hkey]
  | some responseKeyNT =>
      have hnames' : ¬ NamesConvert (received auth challenge) := hnames
      obtain ⟨b, hencoders, -⟩ := holds_empty.appendAll (g := env.growth) hmemory.malloc
        (env.tempPieces (received auth challenge) (slice challenge 24 8) (targetInfo challenge))
      have heq := encodeNtlmAuth_eq hkey holds_empty hread.1 hread.2 hencoders
      rw [authenticateMessage_refused hmemory hnames'] at heq
      exact heq

/-! ### Main result -/

/-- The message is read inside its bounds and the length of the answer is reported right exactly when
the fields and the target information lie in the message and the answer is shorter than 2 ^ 16 bytes.
Where a password or a name cannot be converted, the call ends before the one or the other. -/
theorem readsMessage_iff (env : NtlmEnv) (hmemory : env.HasMemory) (auth : NtlmAuthData) (challenge : Bytes) :
    ReadsMessage (env.ntlmsspGenerateBlob auth (some challenge)) ↔
      env.ntowfv2 auth = none ∨
        Readable challenge ∧ (NamesConvert auth → env.answerLength auth challenge < 2 ^ 16) := by
  have hrefused : ReadsMessage (.error refused) := ⟨by simp [refused], by simp⟩
  rw [ntlmsspGenerateBlob_eq hmemory]
  cases hkey : env.ntowfv2 auth with
  | none =>
      have hkey' : env.ntowfv2 (received auth challenge) = none := hkey
      have hrun : env.encodeNtlmAuth (received auth challenge) ((View.of challenge).skip 24) = .error refused := by
        simp only [encodeNtlmAuth, hkey']
      rw [hrun]
      exact iff_of_true hrefused (.inl rfl)
  | some responseKeyNT =>
      have hkey' : env.ntowfv2 (received auth challenge) = some responseKeyNT := hkey
      simp only [reduceCtorEq, false_or]
      by_cases hread : Readable challenge
      · by_cases hnames : NamesConvert auth
        · have hprovided : env.Provided (received auth challenge) challenge :=
            ⟨hmemory.malloc, hmemory.allocString, hnames.1, hnames.2.1, hnames.2.2, hread.1, hread.2⟩
          obtain ⟨auth', hrun, hholds⟩ := exists_encodeNtlmAuth hkey' holds_empty hprovided
          have hrun' : env.encodeNtlmAuth (received auth challenge) ((View.of challenge).skip 24) = .ok auth' := hrun
          have hlength : auth'.len = env.answerLength auth challenge :=
            hholds.len_eq.trans (length_messageOf_eq responseKeyNT hread)
          rw [hrun', ok_bind, ← hlength]
          constructor
          · intro h
            have hreported : (UInt16.ofNat auth'.len).toNat = auth'.len := h.outputLen_eq _ _ rfl
            exact ⟨hread, fun _ => hreported ▸ (UInt16.ofNat auth'.len).toNat_lt⟩
          · rintro ⟨-, hlt⟩
            refine ⟨by simp, fun blob auth'' h => ?_⟩
            rw [Except.ok.injEq, Prod.mk.injEq] at h
            rw [← h.1, ← h.2]
            exact toNat_ofNat_uint16 (hlt hnames)
        · rw [encodeNtlmAuth_refused hmemory hread hnames]
          exact iff_of_true hrefused ⟨hread, fun h => absurd h hnames⟩
      · have hrun : env.encodeNtlmAuth (received auth challenge) ((View.of challenge).skip 24) =
            .error .undefined := encodeNtlmAuth_undefined hkey' hread
        rw [hrun]
        refine iff_of_false (fun h => h.defined rfl) (fun h => hread h.1)

/-- A CHALLENGE message with its target information, and an answer of a few hundred bytes. -/
theorem readsMessage_example : ReadsMessage (zeroNtlmEnv.ntlmsspGenerateBlob exampleAuth (some exampleChallenge)) :=
  (readsMessage_iff zeroNtlmEnv ⟨fun _ _ => rfl, fun _ => rfl⟩ exampleAuth exampleChallenge).mpr
    (.inr ⟨⟨by decide, by decide⟩, fun _ => by decide +kernel⟩)

/-- Eight bytes, of which the program reads bytes 20 to 48. -/
theorem not_readsMessage_shortMessage :
    ¬ ReadsMessage (zeroNtlmEnv.ntlmsspGenerateBlob exampleAuth (some ntlmssp)) := by
  intro h
  have hrun : zeroNtlmEnv.ntlmsspGenerateBlob exampleAuth (some ntlmssp) = .error .undefined := rfl
  exact h.defined hrun

end NtlmEnv

end CodeStudy.Samba
