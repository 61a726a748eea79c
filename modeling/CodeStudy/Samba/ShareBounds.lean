import CodeStudy.Samba.ShareEnum

/-!
# Parsing shares inside a buffer

The number of shares and the length of each string come from the server. The parser of a response does not
compare them with the length of the buffer, and its offsets move on in 32 bits. The status of a response
is its last four bytes, whether it has four or not.
-/

namespace CodeStudy.Samba

def srvsvcGetNetrShareEnumStatus (buffer : Bytes) (bufLen : Nat) : Except Fault Nat :=
  readU32 buffer (sub32 bufLen 4)

/-- Neither of the functions reads outside the buffer. -/
structure SharesReadInside (buffer : Bytes) : Prop where
  status : srvsvcGetNetrShareEnumStatus buffer buffer.length ≠ .error .undefined
  response : ∀ shares, parseNetrShareEnumResponse .unbounded buffer buffer.length shares ≠ .error .undefined

/-! ### What the buffer has to have -/

/-- The length of the string at an offset, in units. -/
def stringLength (payload : Bytes) (offset : Nat) : Nat := leNat (slice payload (align4 offset + 8) 4)

def stringEnd (payload : Bytes) (offset : Nat) : Nat :=
  add32 (add32 (align4 offset) 12) (2 * stringLength payload offset)

/-- The header of the string at an offset is in the buffer, and so are its units, if there are at least
so many. A count that is negative as an `int` stands for none. -/
def StringFits (payload : Bytes) (offset least : Nat) : Prop :=
  align4 offset + 12 ≤ payload.length ∧
    (least ≤ stringLength payload offset → stringLength payload offset < 2 ^ 31 →
      align4 offset + 12 + 2 * stringLength payload offset ≤ payload.length)

/-- Where the path of a share is. -/
def pathOffset (payload : Bytes) (offset : Nat) : Nat := stringEnd payload (stringEnd payload offset)

/-- Where its password is, if it has one. -/
def passwordOffset (payload : Bytes) (offset : Nat) : Nat := align4 (stringEnd payload (pathOffset payload offset))

def ShareFits (level : ShareLevel) (info payload : Bytes) (offset : Nat) : Prop :=
  StringFits payload offset 0 ∧ StringFits payload (stringEnd payload offset) 2 ∧
    match level with
    | .one => True
    | .two => StringFits payload (pathOffset payload offset) 2 ∧
        (word info 7 ≠ 0 → StringFits payload (passwordOffset payload offset) 2)

def shareEnd (level : ShareLevel) (info payload : Bytes) (offset : Nat) : Nat :=
  match level with
  | .one => pathOffset payload offset
  | .two => if word info 7 ≠ 0 then stringEnd payload (passwordOffset payload offset) else passwordOffset payload offset

/-- The fixed parts and the strings of so many shares, and what is behind them. -/
def SharesFit (level : ShareLevel) (buffer payload : Bytes) (trailer : Nat → Nat → Prop) :
    (count bufferOffset payloadOffset : Nat) → Prop
  | 0, bufferOffset, payloadOffset => trailer bufferOffset payloadOffset
  | count + 1, bufferOffset, payloadOffset =>
      bufferOffset + level.infoSize ≤ buffer.length ∧
        ShareFits level (slice buffer bufferOffset level.infoSize) payload payloadOffset ∧
          SharesFit level buffer payload trailer count (add32 bufferOffset level.infoSize)
            (shareEnd level (slice buffer bufferOffset level.infoSize) payload payloadOffset)

/-- There is a status, and if there is a header, all that it announces. -/
structure ResponseFits (buffer : Bytes) : Prop where
  status : 4 ≤ buffer.length
  shares : 20 ≤ buffer.length → ∀ level : ShareLevel, word buffer 0 = level.number →
    SharesFit level (buffer.drop 24) ((buffer.drop 24).drop (word buffer 3 * level.infoSize))
      (fun bufferOffset payloadOffset => align4 (add32 bufferOffset (add32 24 payloadOffset)) + 8 ≤ buffer.length)
      (word buffer 3) 0 0

/-! ### Strings and shares -/

theorem definedWhere_readU32 (b : Bytes) (offset : Nat) :
    DefinedWhere (readU32 b offset) (offset + 4 ≤ b.length) fun n => n = leNat (slice b offset 4) := by
  refine ((definedWhere_copy b offset 4).bind fun _ bytes hbytes => DefinedWhere.ok ?_).congr (iff_of_eq (and_true _))
  rw [hbytes]

section

variable {payload : Bytes}

theorem definedWhere_ucs2ToUtf8At (offset length : Nat) (hlength : length < 2 ^ 32) (hoffset : offset ≤ payload.length) :
    DefinedWhere (ucs2ToUtf8At .unbounded payload offset length) (length < 2 ^ 31 → offset + 2 * length ≤ payload.length)
      fun _ => True := by
  refine ((definedWhere_copy payload offset _).bind fun _ _ _ => DefinedWhere.ok trivial).congr ?_
  rw [and_true]
  by_cases hneg : length < 2 ^ 31
  · rw [toInt32_of_lt (by omega) (by omega), Int.toNat_natCast, imp_iff_right hneg]
  · have hnone : (toInt32 (length : Int)).toNat = 0 := by
      have := toInt32_neg (x := (length : Int)) (by omega) (by omega)
      omega
    rw [hnone]
    exact iff_of_true hoffset fun h => absurd h hneg

theorem definedWhere_parseString (hlt : payload.length < 2 ^ 32) (offset least : Nat) :
    DefinedWhere (parseString .unbounded payload offset least) (StringFits payload offset least)
      fun s => s.2 = stringEnd payload offset := by
  have hlength (header : { b : Bytes // b.length = 12 }) (hheader : header.1 = slice payload (align4 offset) 12) :
      word header.1 2 = stringLength payload offset := by
    rw [word, hheader, slice_slice (by decide), stringLength]
  have hsmall : stringLength payload offset < 2 ^ 32 := @leNat_slice_lt payload 4 _
  refine ((definedWhere_copy payload (align4 offset) 12).bind fun hle header hheader => ?_).congr Iff.rfl
  simp only [hlength header hheader]
  by_cases hleast : stringLength payload offset < least
  · rw [if_pos hleast]
    refine (DefinedWhere.ok ?_).congr (iff_of_true trivial fun h => absurd h (by omega))
    rfl
  · have hhere : add32 (align4 offset) 12 = align4 offset + 12 := add32_eq (by omega)
    rw [if_neg hleast, hhere]
    refine ((definedWhere_ucs2ToUtf8At _ _ hsmall hle).bind fun _ text _ => DefinedWhere.ok ?_).congr ?_
    · rw [stringEnd, hhere]
    · rw [and_true]
      exact ⟨fun h _ => h, fun h => h (not_lt.mp hleast)⟩

theorem definedWhere_parseShare (hlt : payload.length < 2 ^ 32) (level : ShareLevel) (info : Bytes) (offset : Nat) :
    DefinedWhere (parseShare .unbounded level info payload offset) (ShareFits level info payload offset)
      fun s => s.2 = shareEnd level info payload offset := by
  rw [parseShare]
  refine ((definedWhere_parseString hlt offset 0).bind fun _ (name, remarkOffset) hname => ?_).congr Iff.rfl
  obtain rfl : remarkOffset = stringEnd payload offset := hname
  refine (definedWhere_parseString hlt _ 2).bind fun _ (remark, pathOffset') hremark => ?_
  obtain rfl : pathOffset' = pathOffset payload offset := hremark
  cases level with
  | one => exact DefinedWhere.ok rfl
  | two =>
      refine (definedWhere_parseString hlt _ 2).bind fun _ (path, passwordOffset') hpath => ?_
      obtain rfl : passwordOffset' = stringEnd payload (pathOffset payload offset) := hpath
      by_cases hnull : word info 7 ≠ 0
      · simp only [if_pos hnull]
        refine ((definedWhere_parseString hlt _ 2).bind fun _ (password, end') hpassword => DefinedWhere.ok ?_).congr ?_
        · rw [and_true, imp_iff_right hnull]
          rfl
        · show end' = if word info 7 ≠ 0 then _ else _
          rw [if_pos hnull]
          exact hpassword
      · simp only [if_neg hnull, ok_bind]
        refine (DefinedWhere.ok ?_).congr (iff_of_true trivial fun h => absurd h hnull)
        show _ = if word info 7 ≠ 0 then _ else _
        rw [if_neg hnull]
        rfl

/-- So many shares, and what comes after them. -/
theorem definedWhere_parseShares {level : ShareLevel} {buffer : Bytes} {trailer : Nat → Nat → Prop} {α : Type}
    {next : List Smb2ShareInfo × Nat × Nat → Except Fault α} (hlt : payload.length < 2 ^ 32)
    (hnext : ∀ sharelist bufferOffset payloadOffset,
      DefinedWhere (next (sharelist, bufferOffset, payloadOffset)) (trailer bufferOffset payloadOffset) fun _ => True)
    (count bufferOffset payloadOffset : Nat) (sharelist : List Smb2ShareInfo) :
    DefinedWhere (parseShares .unbounded level buffer payload count bufferOffset payloadOffset sharelist >>= next)
      (SharesFit level buffer payload trailer count bufferOffset payloadOffset) fun _ => True := by
  induction count generalizing bufferOffset payloadOffset sharelist with
  | zero => exact hnext _ _ _
  | succ count ih =>
      rw [parseShares]
      simp only [bind_assoc]
      refine ((definedWhere_copy buffer bufferOffset level.infoSize).bind fun _ info hinfo => ?_).congr Iff.rfl
      rw [← hinfo]
      refine (definedWhere_parseShare hlt level info.1 payloadOffset).bind fun _ (share, shareEnd') hshare => ?_
      obtain rfl : shareEnd' = shareEnd level info.1 payload payloadOffset := hshare
      exact ih _ _ _

end

/-! ### The whole response -/

theorem definedWhere_parseNetrShareEnumBuffer (level : ShareLevel) (buffer : SizedBuffer 32) (shareCount : Nat)
    (shares : Smb2Shares) :
    DefinedWhere (parseNetrShareEnumBuffer .unbounded level buffer.bytes buffer.size 24 shareCount shares)
      (SharesFit level (buffer.bytes.drop 24) ((buffer.bytes.drop 24).drop (shareCount * level.infoSize))
        (fun bufferOffset payloadOffset => align4 (add32 bufferOffset (add32 24 payloadOffset)) + 8 ≤ buffer.bytes.length)
        shareCount 0 0) fun _ => True := by
  have hfits := buffer.fits
  rw [parseNetrShareEnumBuffer]
  refine definedWhere_parseShares ?_ (fun sharelist bufferOffset payloadOffset => ?_) shareCount 0 0 shares.sharelist
  · rw [List.length_drop, List.length_drop]
    omega
  · simp only
    generalize align4 (add32 bufferOffset (add32 24 payloadOffset)) = offset
    refine (?_ : DefinedWhere _ (offset + 4 ≤ buffer.bytes.length ∧ offset + 4 + 4 ≤ buffer.bytes.length) _).congr
      (by omega)
    refine (definedWhere_readU32 _ _).bind fun htotal totalEntries _ => ?_
    have hhandlePtr : add32 offset 4 = offset + 4 := add32_eq (by omega)
    simp only [hhandlePtr]
    refine ((definedWhere_readU32 _ _).bind fun hptr resumeHandlePtr _ => ?_).congr (iff_of_eq (and_true _))
    have hleft : sub32 buffer.size (offset + 4) = buffer.bytes.length - (offset + 4) :=
      @sub32_eq buffer.bytes.length (offset + 4) (by omega) hfits
    rw [hleft]
    by_cases hhandle : buffer.bytes.length - (offset + 4) = 8
    · -- the handle is the last field
      rw [if_pos hhandle, add32_eq (by omega)]
      exact ((definedWhere_readU32 _ _).bind fun _ _ _ => DefinedWhere.ok trivial).congr
        (iff_of_true ⟨by omega, trivial⟩ trivial)
    · rw [if_neg hhandle]
      exact DefinedWhere.ok trivial

/-- No read leaves the buffer exactly if it has a status and all that the response announces. -/
theorem sharesReadInside_iff (buffer : SizedBuffer 32) : SharesReadInside buffer.bytes ↔ ResponseFits buffer.bytes := by
  have hfits := buffer.fits
  have hstatus : srvsvcGetNetrShareEnumStatus buffer.bytes buffer.bytes.length ≠ .error .undefined ↔
      4 ≤ buffer.bytes.length := by
    rw [srvsvcGetNetrShareEnumStatus, (definedWhere_readU32 _ _).ne_undefined_iff, sub32]
    omega
  have hheader (hle : 20 ≤ buffer.bytes.length) (shares : Smb2Shares) :
      parseNetrShareEnumResponse .unbounded buffer.bytes buffer.bytes.length shares =
        if word buffer.bytes 0 = 1 then
          parseNetrShareEnumBuffer .unbounded .one buffer.bytes buffer.size 24 (word buffer.bytes 3) shares
        else if word buffer.bytes 0 = 2 then
          parseNetrShareEnumBuffer .unbounded .two buffer.bytes buffer.size 24 (word buffer.bytes 3) shares
        else .error (.failed (-1) "srvsvc_parse_NetrShareEnumResponse: unsupported share info type") := by
    have hword (i : Nat) (hi : 4 * i + 4 ≤ 20) : word (slice buffer.bytes 0 20) i = word buffer.bytes i := by
      rw [word, word, slice_slice hi, Nat.zero_add]
    have hcopy : (View.of buffer.bytes).copy 0 20 = .ok ⟨slice buffer.bytes 0 20, length_slice hle⟩ :=
      dif_pos (show 0 + 20 ≤ buffer.bytes.length by omega)
    rw [parseNetrShareEnumResponse, if_neg (by omega), hcopy, ok_bind, hword 0 (by decide), hword 3 (by decide)]
    rfl
  constructor
  · intro h
    refine ⟨hstatus.mp h.status, fun hle level hword => ?_⟩
    have hresponse := h.response {}
    rw [hheader hle] at hresponse
    cases level with
    | one =>
        rw [hword, if_pos (show ShareLevel.one.number = 1 from rfl)] at hresponse
        exact (definedWhere_parseNetrShareEnumBuffer .one buffer _ _).ne_undefined_iff.mp hresponse
    | two =>
        rw [hword, if_neg (show ShareLevel.two.number ≠ 1 by decide),
          if_pos (show ShareLevel.two.number = 2 from rfl)] at hresponse
        exact (definedWhere_parseNetrShareEnumBuffer .two buffer _ _).ne_undefined_iff.mp hresponse
  · intro h
    refine ⟨hstatus.mpr h.status, fun shares => ?_⟩
    by_cases hle : 20 ≤ buffer.bytes.length
    · rw [hheader hle]
      split_ifs with hone htwo
      · exact (definedWhere_parseNetrShareEnumBuffer .one buffer _ _).ne_undefined_iff.mpr (h.shares hle .one hone)
      · exact (definedWhere_parseNetrShareEnumBuffer .two buffer _ _).ne_undefined_iff.mpr (h.shares hle .two htwo)
      · rintro ⟨⟩
    · rw [parseNetrShareEnumResponse, if_pos (by omega)]
      rintro ⟨⟩

/-- The header of a response that announces a share, and nothing behind it. -/
def announcedShare : Bytes :=
  leBytes 4 1 ++ leBytes 4 1 ++ leBytes 4 0x20000 ++ leBytes 4 1 ++ leBytes 4 0x20004 ++ leBytes 4 1

theorem not_sharesReadInside_announcedShare : ¬ SharesReadInside [] ∧ ¬ SharesReadInside announcedShare :=
  ⟨fun h => h.status rfl, fun h => h.response {} rfl⟩

end CodeStudy.Samba
