import CodeStudy.Samba.ShareResponse

/-!
# The texts of shares

The conversion of a string counts the bytes of the text in an `int`. A response of less than four gigabytes
can have a string with more of them; every other response comes back as the server marshalled it.
-/

namespace CodeStudy.Samba

/-- The parser succeeds and gives the shares that the server marshalled, behind the ones there are. -/
def SharesArrive (r : ServerResponse) : Prop :=
  ∀ shares, parseNetrShareEnumResponse .counted r.stub (r.stub.length - 4) shares = .ok (r.reported shares)

/-- The shares of a response arrive exactly if the sizes of their texts can be counted. -/
theorem sharesArrive_iff {r : ServerResponse} (hcomplete : r.Complete) (hlt : r.stub.length < 2 ^ 32) :
    SharesArrive r ↔ r.TextsFit .counted := by
  have hparse (shares : Smb2Shares) :=
    (@parseNetrShareEnumResponse_marshalled .counted r hcomplete hlt shares).eq_ok_iff
  exact ⟨fun h => (hparse {}).mp (h {}), fun h shares => (hparse shares).mpr h⟩

theorem firstReferent_ne_zero : (0x20000 : UInt32) ≠ 0 := by decide

theorem noUnits_ne_zero : ∀ unit ∈ ([] : List UInt16), unit ≠ 0 := nofun

/-- A string in a place of its own. -/
def pointTo (units : List UInt16) (h : ∀ unit ∈ units, unit ≠ 0) : Option NdrPointer :=
  some ⟨0x20000, firstReferent_ne_zero, ⟨UInt32.ofNat (units.length + 1), 0, units, h⟩⟩

/-- A response with one share of level two, without a password. -/
def publicShare : ServerResponse where
  level := .two
  referent := 0x20000
  arrayReferent := 0x20004
  maxCount := 1
  shares := some [{
    name := pointTo [0x61] (by simp)
    shareType := 0
    remark := pointTo [] noUnits_ne_zero
    maxUses := 4
    path := pointTo [0x43, 0x3a] (by simp) }]
  totalEntries := 1
  resumeHandlePtr := 0x20008
  resumeHandle := some 1

theorem sharesArrive_publicShare : SharesArrive publicShare := by
  have hcomplete : publicShare.Complete :=
    ⟨rfl, List.forall_mem_singleton.mpr ⟨rfl, rfl, fun _ => rfl⟩⟩
  refine (sharesArrive_iff hcomplete (by decide +kernel)).mpr (List.forall_mem_singleton.mpr ⟨?_, ?_, ?_, ?_⟩)
  · rintro _ ⟨⟩
    show (ucs2ToUtf8 [0x61, 0]).length + 1 < 2 ^ 31
    decide
  · rintro _ ⟨⟩
    show (ucs2ToUtf8 [0]).length + 1 < 2 ^ 31
    decide
  · rintro _ ⟨⟩
    show (ucs2ToUtf8 [0x43, 0x3a, 0]).length + 1 < 2 ^ 31
    decide
  · rintro _ ⟨⟩

/-! ### A long name -/

theorem notMem_replicate (n : Nat) : ∀ unit ∈ List.replicate n (0x800 : UInt16), unit ≠ 0 := by
  intro unit hunit
  rw [List.eq_of_mem_replicate hunit]
  decide

/-- A response with one share of level one, whose name has so many units of three bytes each. -/
def longName (n : Nat) : ServerResponse where
  level := .one
  referent := 0x20000
  arrayReferent := 0x20004
  maxCount := 1
  shares := some [{
    name := pointTo (List.replicate n 0x800) (notMem_replicate n)
    shareType := 0
    remark := pointTo [] noUnits_ne_zero }]
  totalEntries := 1
  resumeHandlePtr := 0
  resumeHandle := none

theorem length_stub_longName (n : Nat) : (longName n).stub.length ≤ 2 * n + 96 := by
  have hname : (pointee (pointTo (List.replicate n 0x800) (notMem_replicate n))).length ≤ 2 * n + 17 := by
    show (padded (NdrString.bytes ⟨_, 0, List.replicate n 0x800, notMem_replicate n⟩)).length ≤ 2 * n + 17
    rw [length_padded, length_bytes, List.length_replicate]
    omega
  have hremark : (pointee (pointTo [] (List.forall_mem_nil _))).length = 16 := by decide
  have hstrings : (longName n).array.length = 4 + 12 +
      (pointee (pointTo (List.replicate n 0x800) (notMem_replicate n)) ++ pointee (pointTo [] (List.forall_mem_nil _)) ++ []).length := by
    rw [ServerResponse.array]
    show (leBytes 4 _ ++ [_].flatMap _ ++ [_].flatMap _).length = _
    rw [List.length_append, List.length_append, length_flatMap_info]
    rfl
  rw [List.length_append, List.length_append, List.length_nil] at hstrings
  rw [ServerResponse.stub, List.length_append, List.length_append, List.length_append]
  have hhead : (longName n).head.length = 20 := rfl
  have htail : (longName n).tail.length = 8 := rfl
  rw [hhead, htail, length_leBytes]
  omega

theorem length_text_replicate (n : Nat) : (ucs2ToUtf8 (List.replicate n 0x800)).length = 3 * n := by
  induction n with
  | zero => rfl
  | succ n ih =>
      have hcons : ucs2ToUtf8 (List.replicate (n + 1) 0x800) = unitUtf8 0x800 ++ ucs2ToUtf8 (List.replicate n 0x800) := rfl
      have hunit : (unitUtf8 0x800).length = 3 := by decide
      rw [hcons, List.length_append, ih, hunit]
      omega

theorem complete_longName (n : Nat) : (longName n).Complete :=
  ⟨rfl, List.forall_mem_singleton.mpr ⟨rfl, rfl, fun h => by cases h⟩⟩

theorem of_sharesArrive_longName {n : Nat} (hlt : (longName n).stub.length < 2 ^ 32) (h : SharesArrive (longName n)) :
    3 * n + 2 < 2 ^ 31 := by
  have htexts := (@parseNetrShareEnumResponse_marshalled .counted _ (complete_longName n) hlt {}).eq_ok_iff.mp (h {})
  obtain ⟨hname, -⟩ := htexts _ (List.mem_singleton_self _)
  have hfits : (ucs2ToUtf8 (List.replicate n 0x800 ++ [0])).length + 1 < 2 ^ 31 := hname _ rfl
  have htext : ucs2ToUtf8 (List.replicate n 0x800 ++ [0]) = ucs2ToUtf8 (List.replicate n 0x800) ++ [0] :=
    List.flatMap_append
  rw [htext, List.length_append, length_text_replicate, List.length_singleton] at hfits
  omega

/-- The name is in a response of about two gigabytes, and its text has three. -/
theorem not_sharesArrive_longName :
    (longName (2 ^ 30)).Complete ∧ (longName (2 ^ 30)).stub.length < 2 ^ 32 ∧ ¬ SharesArrive (longName (2 ^ 30)) := by
  have hlt : (longName (2 ^ 30)).stub.length < 2 ^ 32 := by
    have hle := length_stub_longName (2 ^ 30)
    omega
  refine ⟨complete_longName _, hlt, fun h => ?_⟩
  have hcount := of_sharesArrive_longName hlt h
  omega

end CodeStudy.Samba
