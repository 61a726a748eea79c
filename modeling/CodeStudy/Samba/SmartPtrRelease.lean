import CodeStudy.Samba.SmartPtr

/-!
# What a release does

A release goes down the links of what it deletes, and on the way each `SmartPtr` that has let go still has its
`m_data`. The invariant is about the others: they are what the counts count.
-/

namespace CodeStudy.Samba.SmartPtr

variable {s t : Heap} {S : Finset Holder} {h g : Holder} {a c : Addr}

namespace Heap

/-- The holders of an object that have not let go. -/
def keepers (s : Heap) (S : Finset Holder) (c : Addr) : Finset Holder :=
  s.holdersOf c \ S

theorem mem_holdersOf : g ∈ s.holdersOf c ↔ g ∈ s.holders ∧ s.data g = some c := by
  simp [holdersOf]

theorem mem_keepers : g ∈ s.keepers S c ↔ g ∈ s.holders ∧ s.data g = some c ∧ g ∉ S := by
  simp [keepers, mem_holdersOf, and_assoc]

@[simp]
theorem keepers_empty : s.keepers ∅ = s.holdersOf := by
  funext c
  simp [keepers]

theorem keepers_insert : s.keepers (insert h S) c = (s.keepers S c).erase h := by
  simp [keepers, Finset.sdiff_insert]

theorem keepers_insert_of_ne (hdata : s.data h ≠ some c) :
    s.keepers (insert h S) c = s.keepers S c := by
  rw [keepers_insert, Finset.erase_eq_of_notMem]
  intro hmem
  exact hdata (mem_keepers.1 hmem).2.1

/-- The state while the holders in `S` have let go, but have not been written. -/
structure Inv (s : Heap) (S : Finset Holder) : Prop where
  bound : ∀ c, s.objects c ≠ none → c < s.next
  once : s.deleted.Nodup
  gone : ∀ c, c ∈ s.deleted ↔ c < s.next ∧ s.objects c = none
  count : ∀ c, s.objects c ≠ none → s.refcount c = Int32.ofNat (s.keepers S c).card
  small : ∀ c, (s.keepers S c).card < 2 ^ 31
  alive : ∀ c, (s.keepers S c).Nonempty → s.objects c ≠ none
  owner : ∀ a i, .member a i ∈ s.holders → ∃ m, s.objects a = some m ∧ i < m
  full : ∀ a m i, s.objects a = some m → (s.keepers S a).Nonempty → i < m → .member a i ∈ s.holders

/-- How many objects are held. -/
def busy (s : Heap) (S : Finset Holder) : Nat :=
  ((Finset.range s.next).filter fun c => (s.keepers S c).Nonempty).card

theorem busy_le : s.busy S ≤ s.next := by
  simpa [busy] using (Finset.range s.next).card_filter_le fun c => (s.keepers S c).Nonempty

/-! ### Letting go -/

theorem Inv.letGo (inv : s.Inv S) (hdata : s.data h = some a) (hkeep : h ∈ s.keepers S a) :
    (s.setRefCount a (s.refcount a - 1)).Inv (insert h S) := by
  have hkeepers : ∀ c, (s.setRefCount a (s.refcount a - 1)).keepers (insert h S) c =
      (s.keepers S c).erase h := fun c => keepers_insert
  refine ⟨inv.bound, inv.once, inv.gone, ?_, ?_, ?_, inv.owner, ?_⟩
  · intro c hc
    rw [hkeepers]
    by_cases hca : c = a
    · subst hca
      have hcard := Finset.card_pos.2 ⟨h, hkeep⟩
      rw [Finset.card_erase_of_mem hkeep, Int32.ofNat_sub _ _ hcard, ← inv.count c hc]
      simp [setRefCount]
    · have hmem : h ∉ s.keepers S c := by
        intro hmem
        have heq := hdata.symm.trans (mem_keepers.1 hmem).2.1
        exact hca (Option.some.inj heq).symm
      rw [Finset.erase_eq_of_notMem hmem, ← inv.count c hc]
      simp [setRefCount, hca]
  · intro c
    rw [hkeepers]
    exact (Finset.card_le_card (Finset.erase_subset _ _)).trans_lt (inv.small c)
  · intro c hc
    rw [hkeepers] at hc
    exact inv.alive c (hc.mono (Finset.erase_subset _ _))
  · intro b m i hb hc
    rw [hkeepers] at hc
    exact inv.full b m i hb (hc.mono (Finset.erase_subset _ _))

theorem ofNat_eq_zero_iff {n : Nat} (hn : n < 2 ^ 31) : Int32.ofNat n = 0 ↔ n = 0 := by
  constructor
  · intro hzero
    have hint := Int32.toInt_ofNat_of_lt hn
    rw [hzero] at hint
    simpa using hint.symm
  · rintro rfl
    rfl

/-- The new count is zero when `h` was the only holder. -/
theorem Inv.sole_iff (inv : s.Inv S) (hdata : s.data h = some a) (hkeep : h ∈ s.keepers S a) :
    s.refcount a - 1 = 0 ↔ s.keepers S a = {h} := by
  have hgo := inv.letGo hdata hkeep
  have hcount := hgo.count a (inv.alive a ⟨h, hkeep⟩)
  have hnew : (s.setRefCount a (s.refcount a - 1)).refcount a = s.refcount a - 1 := by
    simp [setRefCount]
  have hkeepers : (s.setRefCount a (s.refcount a - 1)).keepers (insert h S) a =
      (s.keepers S a).erase h := keepers_insert
  rw [← hnew, hcount, ofNat_eq_zero_iff (hgo.small a), hkeepers, Finset.card_eq_zero,
    Finset.erase_eq_empty_iff]
  constructor
  · rintro (hnone | hsole)
    · simp [hnone] at hkeep
    · exact hsole
  · exact Or.inr

end Heap

/-! ### What goes -/

/-- What `t` has left of `s` when `h` lets go. -/
structure Shrinks (s : Heap) (S : Finset Holder) (h : Holder) (t : Heap) : Prop where
  next : t.next = s.next
  held : t.held = s.held
  subset : t.holders ⊆ s.holders
  data : ∀ g ∈ t.holders, g ≠ h → t.data g = s.data g
  lost : ∀ g ∈ s.holders, g ∉ t.holders → ∃ b i, g = .member b i ∧ Doomed (s.keepers S) h b
  objects : ∀ c, t.objects c = s.objects c ∨ t.objects c = none ∧ Doomed (s.keepers S) h c

/-- No object loses all its holders and stays. -/
structure Released (s : Heap) (S : Finset Holder) (h : Holder) (t : Heap) : Prop extends Shrinks s S h t where
  inv : t.Inv (insert h S)
  kept : ∀ c, t.objects c ≠ none → (s.keepers S c).Nonempty → (t.keepers (insert h S) c).Nonempty

/-- The objects of the holders that let go stay. -/
structure Releasable (s : Heap) (S : Finset Holder) (h : Holder) : Prop where
  inv : s.Inv S
  mem : h ∈ s.holders
  fresh : h ∉ S
  safe : ∀ b i, .member b i ∈ insert h S → ¬ Doomed (s.keepers S) h b

theorem Doomed.nonempty {holdersOf : Addr → Finset Holder} (hd : Doomed holdersOf h c) : (holdersOf c).Nonempty := by
  cases hd with
  | intro held => exact held

theorem Doomed.of_sole (hsole : s.keepers S a = {h}) : Doomed (s.keepers S) h a := by
  refine .intro ⟨h, by simp [hsole]⟩ ?_ ?_
  · intro n hn
    simpa [hsole] using hn
  · intro b i hb hne
    exact absurd (by simpa [hsole] using hb) hne

namespace Shrinks

theorem keepers_subset (hs : Shrinks s S h t) (c : Addr) : t.keepers (insert h S) c ⊆ s.keepers S c := by
  intro g hg
  obtain ⟨hmem, hdata, hout⟩ := Heap.mem_keepers.1 hg
  simp only [Finset.mem_insert, not_or] at hout
  rw [hs.data g hmem hout.1] at hdata
  exact Heap.mem_keepers.2 ⟨hs.subset hmem, hdata, hout.2⟩

/-- A holder stays unless it lets go or its object goes. -/
theorem keepers_cases (hs : Shrinks s S h t) (hg : g ∈ s.keepers S c) :
    g ∈ t.keepers (insert h S) c ∨ g = h ∨ ∃ b i, g = .member b i ∧ Doomed (s.keepers S) h b := by
  obtain ⟨hmem, hdata, hout⟩ := Heap.mem_keepers.1 hg
  by_cases hh : g = h
  · exact .inr (.inl hh)
  · by_cases ht : g ∈ t.holders
    · refine .inl (Heap.mem_keepers.2 ⟨ht, ?_, ?_⟩)
      · rw [hs.data g ht hh, hdata]
      · simp [hh, hout]
    · exact .inr (.inr (hs.lost g hmem ht))

/-- What goes with a member of an object that goes, goes. -/
theorem doomed (hs : Shrinks s S h t) (ha : Doomed (s.keepers S) h a) {i : Nat}
    (hd : Doomed (t.keepers (insert h S)) (.member a i) c) : Doomed (s.keepers S) h c := by
  induction hd with
  | @intro c held vars members ih =>
    refine .intro (held.mono (hs.keepers_subset c)) ?_ ?_
    · intro n hn
      obtain hstay | rfl | ⟨b, j, hb, -⟩ := hs.keepers_cases hn
      · exact absurd (vars n hstay) (by simp)
      · rfl
      · cases hb
    · intro b j hb hne
      obtain hstay | rfl | ⟨b', j', hb', hd⟩ := hs.keepers_cases hb
      · by_cases hi : Holder.member b j = .member a i
        · cases hi
          exact ha
        · exact ih b j hstay hi
      · exact absurd rfl hne
      · cases hb'
        exact hd

theorem mem_holders (hs : Shrinks s S h t) (hmem : g ∈ s.holders)
    (hsafe : ∀ b i, g = .member b i → ¬ Doomed (s.keepers S) h b) : g ∈ t.holders := by
  by_contra hout
  obtain ⟨b, i, hb, hd⟩ := hs.lost g hmem hout
  exact hsafe b i hb hd

theorem objects_of_not_doomed (hs : Shrinks s S h t) (hd : ¬ Doomed (s.keepers S) h c) :
    t.objects c = s.objects c := by
  obtain heq | ⟨-, hdoomed⟩ := hs.objects c
  · exact heq
  · exact absurd hdoomed hd

end Shrinks

/-- What goes is deleted. -/
theorem Released.deleted (hr : Released s S h t) (hd : Doomed (s.keepers S) h c) : t.objects c = none := by
  induction hd with
  | @intro c held vars members ih =>
    by_contra halive
    obtain ⟨g, hg⟩ := hr.kept c halive held
    have hs := hr.keepers_subset c hg
    obtain ⟨hmem, -, hout⟩ := Heap.mem_keepers.1 hg
    simp only [Finset.mem_insert, not_or] at hout
    cases g with
    | var n => exact hout.1 (vars n hs)
    | member b i =>
      obtain ⟨m, hm, -⟩ := hr.inv.owner b i hmem
      rw [ih b i hs hout.1] at hm
      cases hm

/-! ### The members of what goes -/

/-- The state when `h` has let go of `a`, and `k` members are still to be destroyed. -/
structure Destroying (s : Heap) (S : Finset Holder) (h : Holder) (a : Addr) (k : Nat) (t : Heap) : Prop
    extends Shrinks s S h t where
  inv : t.Inv (insert h S)
  kept : ∀ c ≠ a, t.objects c ≠ none → (s.keepers S c).Nonempty → (t.keepers (insert h S) c).Nonempty
  stays : t.objects a = s.objects a
  members : ∀ i, .member a i ∈ t.holders ↔ i < k
  sole : s.keepers S a = {h}

variable {k : Nat}

namespace Destroying

theorem unkept (hd : Destroying s S h a k t) : t.keepers (insert h S) a = ∅ := by
  apply Finset.eq_empty_of_forall_notMem
  intro g hg
  have hs := hd.keepers_subset a hg
  rw [hd.sole, Finset.mem_singleton] at hs
  exact (Heap.mem_keepers.1 hg).2.2 (by simp [hs])

theorem not_doomed (hd : Destroying s S h a k t) : ¬ Doomed (t.keepers (insert h S)) g a := by
  intro hdoomed
  have hne := hdoomed.nonempty
  simp [hd.unkept] at hne

/-- Fewer objects are held. -/
theorem busy_lt (hd : Destroying s S h a k t) (halive : s.objects a ≠ none) (inv : s.Inv S) :
    t.busy (insert h S) < s.busy S := by
  apply Finset.card_lt_card
  rw [Finset.ssubset_iff_of_subset]
  · refine ⟨a, ?_, ?_⟩
    · simp [inv.bound a halive, hd.sole]
    · simp [hd.unkept]
  · intro c hc
    simp only [Finset.mem_filter, Finset.mem_range, hd.next] at hc ⊢
    exact ⟨hc.1, hc.2.mono (hd.keepers_subset c)⟩

theorem releasable (hd : Destroying s S h a (k + 1) t) (hr : Releasable s S h) :
    Releasable t (insert h S) (.member a k) := by
  have ha := Doomed.of_sole hd.sole
  have hsafe : ∀ b i, .member b i ∈ insert h S → ¬ Doomed (t.keepers (insert h S)) (.member a k) b := by
    intro b i hb hdoomed
    exact hr.safe b i hb (hd.toShrinks.doomed ha hdoomed)
  refine ⟨hd.inv, (hd.members k).2 (Nat.lt_succ_self k), ?_, ?_⟩
  · intro hmem
    exact hr.safe a k hmem ha
  · intro b i hb
    obtain heq | hb := Finset.mem_insert.1 hb
    · cases heq
      exact hd.not_doomed
    · exact hsafe b i hb

end Destroying

/-- What `t` has left of `s`, when `t` is gone on from and a member of `a` is dropped. -/
theorem Shrinks.step {u : Heap} (hs : Shrinks s S h t) (ha : Doomed (s.keepers S) h a)
    (hu : Shrinks t (insert h S) (.member a k) u) : Shrinks s S h (u.removeHolder (.member a k)) := by
  refine ⟨hu.next.trans hs.next, hu.held.trans hs.held, ?_, ?_, ?_, ?_⟩
  · exact ((Finset.erase_subset _ _).trans hu.subset).trans hs.subset
  · intro g hg hgh
    obtain ⟨hne, hg⟩ := Finset.mem_erase.1 hg
    exact (hu.data g hg hne).trans (hs.data g (hu.subset hg) hgh)
  · intro g hg hout
    by_cases heq : g = .member a k
    · exact ⟨a, k, heq, ha⟩
    · have hgone : g ∉ u.holders := fun hmem => hout (Finset.mem_erase.2 ⟨heq, hmem⟩)
      by_cases ht : g ∈ t.holders
      · obtain ⟨b, i, hb, hd⟩ := hu.lost g ht hgone
        exact ⟨b, i, hb, hs.doomed ha hd⟩
      · exact hs.lost g hg ht
  · intro c
    obtain heq | ⟨hnone, hd⟩ := hu.objects c
    · rw [show (u.removeHolder (.member a k)).objects c = u.objects c from rfl, heq]
      exact hs.objects c
    · exact .inr ⟨hnone, hs.doomed ha hd⟩

namespace Heap

theorem keepers_removeHolder : (s.removeHolder h).keepers S c = s.keepers (insert h S) c := by
  ext g
  simp only [mem_keepers, removeHolder, Finset.mem_erase, Finset.mem_insert, not_or]
  tauto

/-- A holder that has let go can be removed, unless its object is held. -/
theorem Inv.removeHolder (inv : s.Inv (insert h S))
    (howner : ∀ b i, h = .member b i → s.keepers (insert h S) b = ∅) : (s.removeHolder h).Inv S := by
  refine ⟨inv.bound, inv.once, inv.gone, ?_, ?_, ?_, ?_, ?_⟩
  · intro c hc
    rw [keepers_removeHolder]
    exact inv.count c hc
  · intro c
    rw [keepers_removeHolder]
    exact inv.small c
  · intro c hc
    rw [keepers_removeHolder] at hc
    exact inv.alive c hc
  · intro b i hb
    exact inv.owner b i (Finset.mem_of_mem_erase hb)
  · intro b m i hb hc hi
    rw [keepers_removeHolder] at hc
    refine Finset.mem_erase.2 ⟨?_, inv.full b m i hb hc hi⟩
    intro heq
    simp [howner b i heq.symm] at hc

/-- An object that is not held can be freed when its members are gone. -/
theorem Inv.free (inv : s.Inv S) (halive : s.objects a ≠ none) (hnone : s.keepers S a = ∅)
    (hmembers : ∀ i, .member a i ∉ s.holders) : (s.free a).Inv S := by
  have hobjects : ∀ c, c ≠ a → (s.free a).objects c = s.objects c := fun c hc => by simp [Heap.free, hc]
  have hself : (s.free a).objects a = none := by simp [Heap.free]
  have hne : ∀ c, (s.free a).objects c ≠ none → c ≠ a := by
    rintro c hc rfl
    exact hc hself
  refine ⟨?_, ?_, ?_, ?_, inv.small, ?_, ?_, ?_⟩
  · intro c hc
    rw [hobjects c (hne c hc)] at hc
    exact inv.bound c hc
  · have hout : a ∉ s.deleted := fun hmem => halive ((inv.gone a).1 hmem).2
    apply List.nodup_append.2
    refine ⟨inv.once, List.nodup_singleton a, ?_⟩
    intro b hb c hc heq
    rw [List.mem_singleton.1 hc] at heq
    exact hout (heq ▸ hb)
  · intro c
    rw [show (s.free a).deleted = s.deleted ++ [a] from rfl, show (s.free a).next = s.next from rfl,
      List.mem_append, List.mem_singleton, inv.gone]
    by_cases hc : c = a
    · subst hc
      simp [hself, inv.bound c halive]
    · simp [hobjects c hc, hc]
  · intro c hc
    have hca := hne c hc
    rw [hobjects c hca] at hc
    exact inv.count c hc
  · intro c hc
    have hca : c ≠ a := by
      rintro rfl
      exact hc.ne_empty hnone
    rw [hobjects c hca]
    exact inv.alive c hc
  · intro b i hb
    have hba : b ≠ a := by
      rintro rfl
      exact hmembers i hb
    rw [hobjects b hba]
    exact inv.owner b i hb
  · intro b m i hb hc hi
    have hba : b ≠ a := by
      rintro rfl
      exact hc.ne_empty hnone
    rw [hobjects b hba] at hb
    exact inv.full b m i hb hc hi

/-- What has let go may be written. -/
theorem keepers_update {data : Option Addr} (hmem : h ∈ S) :
    ({ s with data := Function.update s.data h data } : Heap).keepers S c = s.keepers S c := by
  ext g
  simp only [mem_keepers]
  by_cases hg : g = h
  · subst hg
    simp [hmem]
  · simp [hg]

theorem Inv.update {data : Option Addr} (inv : s.Inv S) (hmem : h ∈ S) :
    ({ s with data := Function.update s.data h data } : Heap).Inv S := by
  refine ⟨inv.bound, inv.once, inv.gone, ?_, ?_, ?_, inv.owner, ?_⟩
  · intro c hc
    rw [keepers_update hmem]
    exact inv.count c hc
  · intro c
    rw [keepers_update hmem]
    exact inv.small c
  · intro c hc
    rw [keepers_update hmem] at hc
    exact inv.alive c hc
  · intro b m i hb hc hi
    rw [keepers_update hmem] at hc
    exact inv.full b m i hb hc hi

end Heap

theorem Destroying.step {u : Heap} (hd : Destroying s S h a (k + 1) t)
    (hu : Released t (insert h S) (.member a k) u) :
    Destroying s S h a k (u.removeHolder (.member a k)) := by
  have ha := Doomed.of_sole hd.sole
  have hnone : u.keepers (insert (.member a k) (insert h S)) a = ∅ := by
    rw [← Finset.subset_empty, ← hd.unkept]
    exact hu.keepers_subset a
  refine ⟨hd.toShrinks.step ha hu.toShrinks, ?_, ?_, ?_, ?_, hd.sole⟩
  · apply hu.inv.removeHolder
    intro b i hb
    cases hb
    exact hnone
  · intro c hc halive hkeep
    rw [Heap.keepers_removeHolder]
    apply hu.kept c halive
    have hobj : t.objects c ≠ none := by
      obtain heq | ⟨hgone, -⟩ := hu.objects c
      · rwa [← heq]
      · exact absurd hgone halive
    exact hd.kept c hc hobj hkeep
  · exact (hu.objects_of_not_doomed hd.not_doomed).trans hd.stays
  · intro i
    rw [show (u.removeHolder (.member a k)).holders = u.holders.erase (.member a k) from rfl, Finset.mem_erase]
    constructor
    · rintro ⟨hne, hmem⟩
      have hlt := (hd.members i).1 (hu.subset hmem)
      have hik : i ≠ k := by
        rintro rfl
        exact hne rfl
      omega
    · intro hi
      refine ⟨by simp; omega, ?_⟩
      apply hu.mem_holders ((hd.members i).2 (by omega))
      intro b j hb
      cases hb
      exact hd.not_doomed

theorem destroyMembers_spec {release : Holder → Heap → Option Heap} (hr : Releasable s S h)
    (hrelease : ∀ t g, t.busy (insert h S) < s.busy S → Releasable t (insert h S) g →
      ∃ u, release g t = some u ∧ Released t (insert h S) g u)
    (halive : s.objects a ≠ none) (hd : Destroying s S h a k t) :
    ∃ u, destroyMembers release a k t = some u ∧ Destroying s S h a 0 u := by
  induction k generalizing t with
  | zero => exact ⟨t, rfl, hd⟩
  | succ k ih =>
    obtain ⟨u, hrun, hu⟩ := hrelease t (.member a k) (hd.busy_lt halive hr.inv) (hd.releasable hr)
    obtain ⟨v, hrest, hv⟩ := ih (hd.step hu)
    exact ⟨v, by simp [destroyMembers, hrun, hrest], hv⟩

/-- The last of the members is gone, and the object after them. -/
theorem Destroying.released (halive : s.objects a ≠ none) (hd : Destroying s S h a 0 t) :
    Released s S h { t.free a with data := Function.update t.data h none } := by
  have ha := Doomed.of_sole hd.sole
  have hobj : t.objects a ≠ none := by
    rw [hd.stays]
    exact halive
  have hmembers : ∀ i, .member a i ∉ t.holders := by
    intro i hmem
    exact absurd ((hd.members i).1 hmem) (Nat.not_lt_zero i)
  have hself : (t.free a).objects a = none := by simp [Heap.free]
  have hother : ∀ c, c ≠ a → (t.free a).objects c = t.objects c := fun c hc => by simp [Heap.free, hc]
  have hmem : h ∈ insert h S := Finset.mem_insert_self h S
  refine ⟨⟨hd.next, hd.held, hd.subset, ?_, hd.lost, ?_⟩, ?_, ?_⟩
  · intro g hg hgh
    simpa [hgh, Heap.free] using hd.data g hg hgh
  · intro c
    by_cases hc : c = a
    · subst hc
      exact .inr ⟨hself, ha⟩
    · show (t.free a).objects c = _ ∨ (t.free a).objects c = none ∧ _
      rw [hother c hc]
      exact hd.objects c
  · exact (hd.inv.free hobj hd.unkept hmembers).update hmem
  · intro c hc hkeep
    have hca : c ≠ a := by
      rintro rfl
      exact hc hself
    have hkeepers : ({ t.free a with data := Function.update t.data h none } : Heap).keepers (insert h S) c =
        (t.free a).keepers (insert h S) c := Heap.keepers_update hmem
    rw [hkeepers]
    apply hd.kept c hca ?_ hkeep
    rw [← hother c hca]
    exact hc

/-! ### The whole release -/

theorem Heap.Inv.insert_of_none (inv : s.Inv S) (hdata : s.data h = none) : s.Inv (insert h S) := by
  have hkeepers : ∀ c, s.keepers (insert h S) c = s.keepers S c := by
    intro c
    apply Heap.keepers_insert_of_ne
    simp [hdata]
  refine ⟨inv.bound, inv.once, inv.gone, ?_, ?_, ?_, inv.owner, ?_⟩ <;> simp only [hkeepers]
  · exact inv.count
  · exact inv.small
  · exact inv.alive
  · exact inv.full

/-- The state right after the count of `a` went down. -/
theorem Shrinks.letGo {count : Int32} : Shrinks s S h (s.setRefCount a count) :=
  ⟨rfl, rfl, subset_rfl, fun _ _ _ => rfl, fun _ hg hout => absurd hg hout, fun _ => .inl rfl⟩

theorem keepers_letGo {count : Int32} :
    (s.setRefCount a count).keepers (insert h S) c = (s.keepers S c).erase h :=
  Heap.keepers_insert

theorem Releasable.mem_keepers (hr : Releasable s S h) (hdata : s.data h = some a) : h ∈ s.keepers S a :=
  Heap.mem_keepers.2 ⟨hr.mem, hdata, hr.fresh⟩

theorem keepers_letGo_nonempty {count : Int32} (hdata : s.data h = some a) (hca : c ≠ a)
    (hkeep : (s.keepers S c).Nonempty) : ((s.setRefCount a count).keepers (insert h S) c).Nonempty := by
  have hout : h ∉ s.keepers S c := by
    intro hmem
    have heq := hdata.symm.trans (Heap.mem_keepers.1 hmem).2.1
    exact hca (Option.some.inj heq).symm
  rwa [keepers_letGo, Finset.erase_eq_of_notMem hout]

/-- Others hold the object too. -/
theorem Releasable.released (hr : Releasable s S h) (hdata : s.data h = some a)
    (hsole : s.keepers S a ≠ {h}) : Released s S h (s.setRefCount a (s.refcount a - 1)) := by
  have hkeep := hr.mem_keepers hdata
  refine ⟨.letGo, hr.inv.letGo hdata hkeep, ?_⟩
  intro c _ hc
  by_cases hca : c = a
  · subst hca
    rw [keepers_letGo, Finset.nonempty_iff_ne_empty, ne_eq, Finset.erase_eq_empty_iff, not_or]
    exact ⟨hc.ne_empty, hsole⟩
  · exact keepers_letGo_nonempty hdata hca hc

theorem Releasable.destroying (hr : Releasable s S h) (hdata : s.data h = some a)
    (hsole : s.keepers S a = {h}) {m : Nat} (hm : s.objects a = some m) :
    Destroying s S h a m (s.setRefCount a (s.refcount a - 1)) := by
  have hkeep := hr.mem_keepers hdata
  refine ⟨.letGo, hr.inv.letGo hdata hkeep, ?_, rfl, ?_, hsole⟩
  · intro c hca _ hc
    exact keepers_letGo_nonempty hdata hca hc
  · intro i
    constructor
    · intro hmem
      obtain ⟨m', hm', hi⟩ := hr.inv.owner a i hmem
      rw [hm] at hm'
      cases hm'
      exact hi
    · exact hr.inv.full a m i hm ⟨h, hkeep⟩

/-- With fuel for the objects that are held, a release goes through. -/
theorem pReleaseWithin_spec {fuel : Nat} (hr : Releasable s S h) (hfuel : s.busy S < fuel) :
    ∃ t, pReleaseWithin fuel h s = some t ∧ Released s S h t := by
  induction fuel generalizing s S h with
  | zero => exact absurd hfuel (Nat.not_lt_zero _)
  | succ fuel ih =>
    cases hdata : s.data h with
    | none =>
      refine ⟨s, by simp [pReleaseWithin, Heap.read, hr.mem, hdata], ?_⟩
      refine ⟨⟨rfl, rfl, subset_rfl, fun _ _ _ => rfl, fun _ hg hout => absurd hg hout, fun _ => .inl rfl⟩,
        hr.inv.insert_of_none hdata, ?_⟩
      intro c _ hc
      rwa [Heap.keepers_insert_of_ne (by simp [hdata])]
    | some a =>
      have hkeep := hr.mem_keepers hdata
      have halive := hr.inv.alive a ⟨h, hkeep⟩
      obtain ⟨m, hm⟩ := Option.ne_none_iff_exists'.1 halive
      by_cases hsole : s.keepers S a = {h}
      · have hzero := (hr.inv.sole_iff hdata hkeep).2 hsole
        obtain ⟨t, hrun, hd⟩ := destroyMembers_spec hr
          (fun t g hlt hg => ih hg (by omega)) halive (hr.destroying hdata hsole hm)
        have hmem : h ∈ t.holders := by
          apply hd.mem_holders hr.mem
          rintro b i rfl
          exact hr.safe b i (Finset.mem_insert_self _ _)
        have hobj : (s.setRefCount a 0).objects a = some m := hm
        have hwrite : (t.free a).write h none =
            some { t.free a with data := Function.update t.data h none } := by
          simp [Heap.write, Heap.free, hmem]
        refine ⟨_, ?_, hd.released halive⟩
        rw [hzero] at hrun
        simp [pReleaseWithin, Heap.read, hr.mem, hdata, decRefCount, hm, hzero, deallocate, hobj, hrun, hwrite]
      · refine ⟨_, ?_, hr.released hdata hsole⟩
        have hcount : s.refcount a - 1 ≠ 0 := fun hzero => hsole ((hr.inv.sole_iff hdata hkeep).1 hzero)
        simp [pReleaseWithin, Heap.read, hr.mem, hdata, decRefCount, hm, hcount]

theorem pRelease_spec (hr : Releasable s S h) : ∃ t, pRelease h s = some t ∧ Released s S h t :=
  pReleaseWithin_spec hr (Nat.lt_succ_of_le Heap.busy_le)

end CodeStudy.Samba.SmartPtr
