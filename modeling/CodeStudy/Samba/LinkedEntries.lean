import CodeStudy.Samba.EntryChain

/-!
# Entries that are linked

What a server makes of a list of entries: each is followed by the next one, and begins with the distance
to it. A loop over such a chain decodes the entries in their order, if every single one can be decoded in
front of whatever follows it.
-/

namespace CodeStudy.Samba

/-- The bytes of a chain, of entries that are encoded with the distance to the next one. -/
def linkEntries {α : Type} (encode : α → Nat → Bytes) : List α → Bytes
  | [] => []
  | [last] => encode last 0
  | a :: next :: chain => encode a (encode a 0).length ++ linkEntries encode (next :: chain)

section

variable {α β σ : Type} {encode : α → Nat → Bytes} {decode : View → σ → σ × Except Fault UInt32} {malformed : String}
  {out : σ → List β} {item : α → β}

/-- The distance to the next entry has a field of fixed size. -/
def FixedDistance (encode : α → Nat → Bytes) : Prop :=
  ∀ a n, (encode a n).length = (encode a 0).length ∧ 0 < (encode a 0).length

theorem length_le_linkEntries (hfixed : FixedDistance encode) {chain : List α} {a : α} (ha : a ∈ chain) :
    (encode a 0).length ≤ (linkEntries encode chain).length := by
  induction chain with
  | nil => cases ha
  | cons b chain ih =>
      cases chain with
      | nil =>
          rw [List.mem_singleton] at ha
          rw [ha]
          exact le_rfl
      | cons b' chain =>
          rw [linkEntries, List.length_append, (hfixed b _).1]
          obtain rfl | ha := List.mem_cons.mp ha
          · exact Nat.le_add_right _ _
          · exact (ih ha).trans (Nat.le_add_left _ _)

/-- An entry is decoded in front of whatever follows it: the loop goes on with the distance, and with one
item more. -/
def DecodesTo (encode : α → Nat → Bytes) (decode : View → σ → σ × Except Fault UInt32) (out : σ → List β)
    (item : α → β) (a : α) : Prop :=
  ∀ (next : UInt32) (rest : Bytes) (s : σ), ∃ s', decode (.of (encode a next.toNat ++ rest)) s = (s', .ok next) ∧
    out s' = out s ++ [item a]

theorem entryStep_linked {a : α} (hdecode : DecodesTo encode decode out item a) {pre rest : Bytes} {next : UInt32}
    (hpos : 0 < (encode a next.toNat).length) (hsize : (pre ++ (encode a next.toNat ++ rest)).length < 2 ^ 32) (s : σ) :
    ∃ s', out s' = out s ++ [item a] ∧
      entryStep (pre ++ (encode a next.toNat ++ rest)) malformed decode (UInt32.ofNat pre.length, s) =
        if next = 0 then .done (.ok (), s') else .next (UInt32.ofNat pre.length + next, s') := by
  rw [List.length_append, List.length_append] at hsize
  have hoffset : (UInt32.ofNat pre.length).toNat = pre.length := toNat_ofNat_uint32 (by omega)
  have hinside : ¬ (pre ++ (encode a next.toNat ++ rest)).length ≤ pre.length := by
    rw [List.length_append, List.length_append]
    omega
  obtain ⟨s', hs', hout⟩ := hdecode next rest s
  refine ⟨s', hout, ?_⟩
  rw [entryStep, hoffset, if_neg hinside, List.drop_left, hs']

/-- The loop over a chain that stands at the end of the buffer. -/
theorem iterate_entryStep_linked (hfixed : FixedDistance encode) {chain : List α} (hne : chain ≠ [])
    (hdecode : ∀ a ∈ chain, DecodesTo encode decode out item a) {pre : Bytes}
    (hsize : (pre ++ linkEntries encode chain).length < 2 ^ 32) {fuel : Nat} (hfuel : chain.length ≤ fuel) (s : σ) :
    ∃ s', out s' = out s ++ chain.map item ∧
      Step.iterate (entryStep (pre ++ linkEntries encode chain) malformed decode) fuel (UInt32.ofNat pre.length, s) =
        some (.ok (), s') := by
  induction chain generalizing pre s fuel with
  | nil => exact absurd rfl hne
  | cons a chain ih =>
      obtain ⟨fuel, rfl⟩ : ∃ n, fuel = n + 1 := ⟨fuel - 1, by rw [List.length_cons] at hfuel; omega⟩
      obtain ⟨ha, hrest⟩ := List.forall_mem_cons.mp hdecode
      have hpos := (hfixed a 0).2
      rw [Step.iterate]
      cases chain with
      | nil =>
          have hlast : linkEntries encode [a] = encode a (0 : UInt32).toNat ++ [] := (List.append_nil _).symm
          rw [hlast] at hsize ⊢
          obtain ⟨s', hout, hstep⟩ := @entryStep_linked _ _ _ _ _ malformed _ _ _ ha pre [] 0 hpos hsize s
          rw [hstep, if_pos rfl]
          exact ⟨s', hout, rfl⟩
      | cons b chain =>
          have hsplit : linkEntries encode (a :: b :: chain) =
              encode a (encode a 0).length ++ linkEntries encode (b :: chain) := rfl
          have hlength := (hfixed a (encode a 0).length).1
          have hnext : (UInt32.ofNat (encode a 0).length).toNat = (encode a 0).length := by
            refine toNat_ofNat_uint32 ?_
            rw [hsplit, List.length_append, List.length_append] at hsize
            omega
          have hmore : UInt32.ofNat (encode a 0).length ≠ 0 := by
            intro hzero
            rw [← hnext, hzero] at hpos
            exact absurd hpos (by decide)
          have hoffset : UInt32.ofNat pre.length + UInt32.ofNat (encode a 0).length =
              UInt32.ofNat (pre ++ encode a (encode a 0).length).length := by
            rw [List.length_append, hlength, UInt32.ofNat_add]
          rw [hsplit] at hsize ⊢
          have hentry := @entryStep_linked _ _ _ _ _ malformed _ _ _ ha pre (linkEntries encode (b :: chain))
            (UInt32.ofNat (encode a 0).length)
          rw [hnext, hlength] at hentry
          obtain ⟨s₁, hout₁, hstep⟩ := hentry hpos hsize s
          rw [hstep, if_neg hmore, hoffset]
          rw [← List.append_assoc] at hsize ⊢
          obtain ⟨s', hout', hloop⟩ := ih (List.cons_ne_nil _ _) hrest hsize (Nat.le_of_succ_le_succ hfuel) s₁
          refine ⟨s', ?_, hloop⟩
          rw [hout', hout₁, List.append_assoc]
          rfl

end

end CodeStudy.Samba
