import CodeStudy.Base.Slice
import CodeStudy.Samba.EntryChain

/-!
# Entries at the end of a buffer

The loops over chains compare where an entry starts with the length of the buffer. The names and values
in an entry have lengths of their own. The decoder of directory entries compares its one in 32 bits, where
it can wrap, and the two others do not compare theirs at all. The fixed fields are read through functions
that know the length of the buffer, so what can lead out of it are the copies.
-/

namespace CodeStudy.Samba

/-! ### The copies -/

/-- The name of a directory entry is copied from the buffer, if its length passes the check. -/
def DirentCopies (nameLen : UInt32) (vec : View) : Prop :=
  ∀ n, vec.get 4 60 nameLen.toNat = .ok n → (80 + UInt32.ofNat n).toNat ≤ vec.len →
    ∃ name, vec.copy 80 (n / 2 * 2) = .ok name

/-- The name and the value of an attribute are copied from the buffer, if there is memory for them. -/
def ExtendedInfoCopies (alloc : EntryAlloc → Bool) (info : Smb2FileFullEaInfo) (vec : View) : Prop :=
  ∀ nameLength valueLength, vec.get 1 5 info.eaNameLength.toNat = .ok nameLength →
    vec.get 2 6 info.eaValueLength.toNat = .ok valueLength → alloc .name = true → alloc .value = true →
      (∃ name, vec.copy 8 nameLength = .ok name) ∧ ∃ value, vec.copy (8 + nameLength) valueLength = .ok value

/-- The name of a stream is converted from the buffer, and what is copied of it fits the node. -/
def StreamInfoCopies (alloc : Bool) (vec : View) : Prop :=
  ∀ n, vec.get 4 4 0 = .ok n →
    (∃ name, vec.copy 24 (n / 2 * 2) = .ok name) ∧ (alloc = true → n / 2 ≤ streamNameSize)

/-- Whatever the variables hold and whatever can be allocated, at every entry that the loop comes to. -/
def AtEveryEntry {ι σ ρ : Type} (vec : Bytes) (step : ι → UInt32 × σ → Step (UInt32 × σ) ρ)
    (copies : ι → σ → View → Prop) : Prop :=
  ∀ i s₀ n offset s, Step.after (step i) n (0, s₀) = some (offset, s) → offset.toNat < vec.length →
    copies i s (.of (vec.drop offset.toNat))

def DirentsStayInside (vec : Bytes) : Prop :=
  AtEveryEntry vec (fun i : EntryMemory × UInt32 => direntStep i.1 i.2 vec) fun i _ => DirentCopies i.2

def ExtendedInfoStaysInside (vec : Bytes) : Prop :=
  AtEveryEntry vec (fun alloc => extendedInfoStep alloc vec) fun alloc s =>
    ExtendedInfoCopies (fun site => alloc site s.nodes.length) s.fullEaInfo

def StreamInfoStaysInside (vec : Bytes) : Prop :=
  AtEveryEntry vec (fun alloc => streamInfoStep alloc vec) fun alloc nodes =>
    StreamInfoCopies (alloc .name nodes.length)

/-! ### The lengths in an entry -/

/-- The bytes from an entry on that the links lead to. -/
def EntryAt (link : UInt32 → Option UInt32) (vec b : Bytes) : Prop :=
  ∃ distances, Step.Links link 0 distances ∧ distances.sum.toNat < vec.length ∧ b = vec.drop distances.sum.toNat

/-- The length of a name is in the buffer, and the name is unless the check refuses its length. -/
def DirentFits (b : Bytes) : Prop :=
  64 ≤ b.length ∧
    (2 ^ 32 ≤ 80 + leNat (slice b 60 4) → 80 + leNat (slice b 60 4) ≤ 2 ^ 32 + b.length →
      80 + leNat (slice b 60 4) / 2 * 2 ≤ b.length)

def ExtendedInfoFits (b : Bytes) : Prop :=
  8 ≤ b.length ∧ 8 + leNat (slice b 5 1) + leNat (slice b 6 2) ≤ b.length

def StreamInfoFits (b : Bytes) : Prop :=
  24 ≤ b.length ∧ 24 + leNat (slice b 4 4) / 2 * 2 ≤ b.length ∧ leNat (slice b 4 4) / 2 ≤ streamNameSize

instance (b : Bytes) : Decidable (DirentFits b) := inferInstanceAs (Decidable (_ ∧ _))
instance (b : Bytes) : Decidable (ExtendedInfoFits b) := inferInstanceAs (Decidable (_ ∧ _))
instance (b : Bytes) : Decidable (StreamInfoFits b) := inferInstanceAs (Decidable (_ ∧ _))

/-! ### One entry -/

section

variable {b : Bytes}

theorem copy_of_iff {offset n : Nat} : (∃ bytes, (View.of b).copy offset n = .ok bytes) ↔ offset + n ≤ b.length := by
  constructor
  · rintro ⟨bytes, h⟩
    exact View.le_of_copy h
  · exact fun h => (View.sound_of b).copy h

theorem get_of_inside {width offset : Nat} (h : offset + width ≤ b.length) (value n : Nat) :
    (View.of b).get width offset value = .ok n ↔ leNat (slice b offset width) = n := by
  rw [View.get_of h, Except.ok.injEq, slice]

theorem get_of_outside {width offset : Nat} (h : b.length < offset + width) (value : Nat) :
    (View.of b).get width offset value = .ok value := by
  have hlong : offset + width > (View.of b).len := h
  rw [View.get, if_pos hlong]

/-- The sum of the check, which has 32 bits. -/
theorem toNat_nameEnd {n : Nat} (h : n < 2 ^ 32) :
    (80 + UInt32.ofNat n).toNat = if 2 ^ 32 ≤ 80 + n then 80 + n - 2 ^ 32 else 80 + n := by
  rw [UInt32.toNat_add, toNat_ofNat_uint32 h]
  have heighty : (80 : UInt32).toNat = 80 := rfl
  rw [heighty]
  split_ifs <;> omega

/-- The variable for the length of the name may hold anything when the entry is too short for it. -/
theorem direntCopies_iff : (∀ nameLen, DirentCopies nameLen (.of b)) ↔ DirentFits b := by
  constructor
  · intro h
    have hlength : 64 ≤ b.length := by
      by_contra hshort
      have hcopied := copy_of_iff.mp (h (0 - 80) _ (get_of_outside (by omega) _) (Nat.zero_le _))
      omega
    refine ⟨hlength, fun hwrap hpass => ?_⟩
    have hn := @leNat_slice_lt b 4 60
    refine copy_of_iff.mp (h 0 _ ((get_of_inside hlength _ _).mpr rfl) ?_)
    rw [toNat_nameEnd hn, if_pos hwrap, View.len_of]
    omega
  · rintro ⟨hlength, hfits⟩ nameLen n hn hpass
    rw [get_of_inside hlength] at hn
    have hlt := @leNat_slice_lt b 4 60
    rw [← hn, toNat_nameEnd hlt, View.len_of] at hpass
    rw [copy_of_iff, ← hn]
    split_ifs at hpass with hwrap
    · exact hfits hwrap (by omega)
    · omega

theorem extendedInfoCopies_iff {info : Smb2FileFullEaInfo} :
    ExtendedInfoCopies (fun _ => true) info (.of b) ↔ ExtendedInfoFits b := by
  constructor
  · intro h
    have hlength : 8 ≤ b.length := by
      obtain ⟨nameLength, hname⟩ := (View.sound_of b).get 1 5 info.eaNameLength.toNat
      obtain ⟨valueLength, hvalue⟩ := (View.sound_of b).get 2 6 info.eaValueLength.toNat
      have hcopied := copy_of_iff.mp (h nameLength valueLength hname hvalue rfl rfl).1
      omega
    obtain ⟨-, hvalue⟩ := h _ _ ((get_of_inside (by omega) _ _).mpr rfl) ((get_of_inside hlength _ _).mpr rfl) rfl rfl
    exact ⟨hlength, copy_of_iff.mp hvalue⟩
  · rintro ⟨hlength, hfits⟩ nameLength valueLength hname hvalue - -
    rw [get_of_inside (by omega)] at hname
    rw [get_of_inside hlength] at hvalue
    rw [copy_of_iff, copy_of_iff, ← hname, ← hvalue]
    omega

theorem streamInfoCopies_iff : StreamInfoCopies true (.of b) ↔ StreamInfoFits b := by
  constructor
  · intro h
    have hlength : 24 ≤ b.length := by
      obtain ⟨n, hn⟩ := (View.sound_of b).get 4 4 0
      have hcopied := copy_of_iff.mp (h n hn).1
      omega
    obtain ⟨hname, hnode⟩ := h _ ((get_of_inside (by omega) _ _).mpr rfl)
    exact ⟨hlength, copy_of_iff.mp hname, hnode rfl⟩
  · rintro ⟨hlength, hfits, hnode⟩ n hn
    rw [get_of_inside (by omega)] at hn
    rw [copy_of_iff, ← hn]
    exact ⟨hfits, fun _ => hnode⟩

end

/-! ### Copies that leave the buffer

They are where the behaviour of the decoders is not defined.
-/

section

variable {b : Bytes}

end

/-! ### The whole loop -/

section

variable {σ ι : Type} {vec : Bytes} {malformed : String} {decode : ι → View → σ → σ × Except Fault UInt32}

/-- Decoders that take an entry the same way follow the same links. -/
theorem links_of_links {i i' : ι} (hlocal : EntryDecodesLocally decode i) {s s' : σ} {offset : UInt32}
    {distances : List UInt32} (h : Step.Links (entryLink vec (decode i') s') offset distances) :
    Step.Links (entryLink vec (decode i) s) offset distances := by
  induction distances generalizing offset with
  | nil => trivial
  | cons d distances ih =>
      obtain ⟨hd, hne, hrest⟩ := h
      refine ⟨?_, hne, ih hrest⟩
      rw [entryLink] at hd ⊢
      split_ifs at hd ⊢ with hend
      exact toOption_eq_some.mpr (hlocal i' _ s' d (toOption_eq_some.mp hd) s)

/-- The entries that a loop comes to are those the links lead to. -/
theorem entryAt_of_after {i i' : ι} (hlocal : EntryDecodesLocally decode i) {s₀ s₁ s : σ} {n : Nat} {offset : UInt32}
    (h : Step.after (entryStep vec malformed (decode i')) n (0, s₀) = some (offset, s))
    (hinside : offset.toNat < vec.length) : EntryAt (entryLink vec (decode i) s₁) vec (vec.drop offset.toNat) := by
  have hfollows : Step.Follows (entryStep vec malformed (decode i')) (entryLink vec (decode i) s₁) :=
    follows_entryStep hlocal i'
  obtain ⟨distances, -, hlinks, hoffset⟩ := hfollows.links_of_after h
  rw [zero_add] at hoffset
  rw [hoffset] at hinside ⊢
  exact ⟨distances, hlinks, hinside, rfl⟩

theorem exists_after_of_entryAt {i i' : ι} (hlocal : EntryDecodesLocally decode i) {s' : σ} {b : Bytes}
    (h : EntryAt (entryLink vec (decode i') s') vec b) (s₀ : σ) : ∃ n offset s,
      Step.after (entryStep vec malformed (decode i)) n (0, s₀) = some (offset, s) ∧ offset.toNat < vec.length ∧
        b = vec.drop offset.toNat := by
  obtain ⟨distances, hlinks, hinside, rfl⟩ := h
  have hfollows : Step.FollowsAll (entryStep vec malformed (decode i)) (entryLink vec (decode i) s') :=
    followsAll_entryStep hlocal
  obtain ⟨s, hafter⟩ := hfollows.after_of_links (links_of_links hlocal hlinks) s₀
  rw [zero_add] at hafter
  exact ⟨_, _, s, hafter, hinside, rfl⟩

end

/-- The three decoders read only inside a buffer, and the decoder of streams writes only inside its nodes, if
and only if the lengths in every entry they come to fit what is left of the buffer, and the node. -/
theorem staysInside_iff (vec : Bytes) :
    (DirentsStayInside vec ↔ ∀ b, EntryAt (direntLink vec) vec b → DirentFits b) ∧
    (ExtendedInfoStaysInside vec ↔ ∀ b, EntryAt (extendedInfoLink vec) vec b → ExtendedInfoFits b) ∧
    (StreamInfoStaysInside vec ↔ ∀ b, EntryAt (streamInfoLink vec) vec b → StreamInfoFits b) := by
  refine ⟨⟨fun h b hentry => ?_, fun h i s₀ n offset s hafter hinside => ?_⟩,
    ⟨fun h b hentry => ?_, fun h alloc s₀ n offset s hafter hinside => ?_⟩,
    ⟨fun h b hentry => ?_, fun h alloc s₀ n offset s hafter hinside => ?_⟩⟩
  · refine direntCopies_iff.mp fun nameLen => ?_
    obtain ⟨n, offset, s, hafter, hinside, rfl⟩ :=
      @exists_after_of_entryAt _ _ vec "Malformed query directory reply." _ _ (plentiful, 0)
        (entryDecodesLocally_dirent nameLen) _ _ hentry ⟨{}, []⟩
    exact h (plentiful, nameLen) _ n offset s hafter hinside
  · exact direntCopies_iff.mpr (h _ (entryAt_of_after (entryDecodesLocally_dirent 0) hafter hinside)) i.2
  · obtain ⟨n, offset, s, hafter, hinside, rfl⟩ :=
      @exists_after_of_entryAt _ _ vec "smb2_decode_file_extended_info:Malformed query reply" _ _ plentiful
        entryDecodesLocally_extendedInfo _ _ hentry ⟨{}, []⟩
    exact extendedInfoCopies_iff.mp (h plentiful _ n offset s hafter hinside)
  · have hcopies := @extendedInfoCopies_iff _ s.fullEaInfo |>.mpr
      (h _ (entryAt_of_after entryDecodesLocally_extendedInfo hafter hinside))
    rintro nameLength valueLength hname hvalue - -
    exact hcopies nameLength valueLength hname hvalue rfl rfl
  · obtain ⟨n, offset, s, hafter, hinside, rfl⟩ :=
      @exists_after_of_entryAt _ _ vec "smb2_decode_file_stream_info:Malformed query reply" _ _ plentiful
        entryDecodesLocally_streamInfo _ _ hentry []
    exact streamInfoCopies_iff.mp (h plentiful _ n offset s hafter hinside)
  · have hcopies := streamInfoCopies_iff.mpr (h _ (entryAt_of_after entryDecodesLocally_streamInfo hafter hinside))
    intro n' hn
    exact ⟨(hcopies n' hn).1, fun _ => (hcopies n' hn).2 rfl⟩

/-- A directory entry whose name is said to have 2^32 - 80 bytes. -/
def wrappingDirent : Bytes := List.replicate 60 0 ++ leBytes 4 (2 ^ 32 - 80) ++ List.replicate 16 0

/-- The check adds 80 to the length and gets 0; an attribute and a stream that say they are longer than the
buffer are copied without a check. -/
theorem not_staysInside_wrappingDirent : ¬ DirentsStayInside wrappingDirent ∧
    ¬ ExtendedInfoStaysInside [0, 0, 0, 0, 0, 1, 0, 0] ∧ ¬ StreamInfoStaysInside (List.replicate 4 0 ++ leBytes 4 2 ++ List.replicate 16 0) := by
  refine ⟨fun h => ?_, fun h => ?_, fun h => ?_⟩
  · have hcopies := h (plentiful, 0) ⟨{}, []⟩ 0 0 ⟨{}, []⟩ rfl (by decide)
    have hcopied := copy_of_iff.mp (hcopies (2 ^ 32 - 80) (by decide) (by decide))
    exact absurd hcopied (by decide)
  · have hcopies := h plentiful ⟨{}, []⟩ 0 0 ⟨{}, []⟩ rfl (by decide)
    have hcopied := copy_of_iff.mp (hcopies 1 0 (by decide) (by decide) rfl rfl).1
    exact absurd hcopied (by decide)
  · have hcopies := h plentiful [] 0 0 [] rfl (by decide)
    have hcopied := copy_of_iff.mp (hcopies 2 (by decide)).1
    exact absurd hcopied (by decide)

end CodeStudy.Samba
