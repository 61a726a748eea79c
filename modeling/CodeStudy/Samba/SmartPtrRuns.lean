import CodeStudy.Samba.SmartPtrRelease

/-!
# Runs of smart pointers

Between operations no holder has let go, the links have no cycle, and an object that was held is there as long as it
has a holder. An assignment keeps this when what is assigned is still there after the release.
-/

namespace CodeStudy.Samba.SmartPtr

open Relation

/-- A new link makes a cycle only if its end already led to its start. -/
theorem transGen_or_through {α : Type} {r : α → α → Prop} {b c x y : α} (hbc : ¬ ReflTransGen r c b)
    (h : TransGen (fun x y => r x y ∨ x = b ∧ y = c) x y) :
    TransGen r x y ∨ ReflTransGen r x b ∧ ReflTransGen r c y := by
  induction h with
  | single hxy =>
    obtain hr | ⟨rfl, rfl⟩ := hxy
    · exact .inl (.single hr)
    · exact .inr ⟨.refl, .refl⟩
  | tail _ hyz ih =>
    obtain hr | ⟨rfl, rfl⟩ := hyz
    · obtain hxy | ⟨hxb, hcy⟩ := ih
      · exact .inl (hxy.tail hr)
      · exact .inr ⟨hxb, hcy.tail hr⟩
    · obtain hxb | ⟨hxb, -⟩ := ih
      · exact .inr ⟨hxb.to_reflTransGen, .refl⟩
      · exact .inr ⟨hxb, .refl⟩

variable {s t u : Heap} {S T : Finset Holder} {h g : Holder} {a c : Addr} {data : Option Addr}

/-- What holds of the program's pointers while those in `S` have let go. -/
structure Good (s : Heap) (S : Finset Holder) : Prop where
  inv : s.Inv S
  whole : ∀ a m i, s.objects a = some m → i < m → .member a i ∈ s.holders
  acyclic : ∀ a, ¬ TransGen (Links (s.keepers S)) a a
  recorded : ∀ c, (s.keepers S c).Nonempty → c ∈ s.held
  known : ∀ c ∈ s.held, c < s.next
  kept : ∀ c ∈ s.held, s.objects c ≠ none → (s.keepers S c).Nonempty
  deleted : ∀ c ∈ s.deleted, c ∈ s.held

theorem Good.accurate (hg : Good s ∅) : s.Accurate := by
  have hkeepers : s.keepers ∅ = s.holdersOf := Heap.keepers_empty
  refine ⟨?_, ?_, ?_, hg.inv.gone, hg.inv.once⟩
  · intro c hc
    rw [hg.inv.count c hc, Int32.toInt_ofNat_of_lt (hg.inv.small c), hkeepers]
  · intro c hc
    rw [← hkeepers] at hc
    exact hg.inv.alive c hc
  · intro c
    rw [← hkeepers]
    constructor
    · intro hdel
      refine ⟨hg.deleted c hdel, ?_⟩
      by_contra hne
      exact hg.inv.alive c (Finset.nonempty_iff_ne_empty.2 hne) ((hg.inv.gone c).1 hdel).2
    · rintro ⟨hheld, hnone⟩
      refine (hg.inv.gone c).2 ⟨hg.known c hheld, ?_⟩
      by_contra halive
      exact (hg.kept c hheld halive).ne_empty hnone

/-- The start is good: there is nothing. -/
theorem good_empty : Good {} ∅ := by
  have hnone : ∀ c, (({} : Heap).keepers ∅ c) = ∅ := fun c => by simp [Heap.holdersOf]
  have hacyclic : ∀ a, ¬ TransGen (Links (({} : Heap).keepers ∅)) a a := by
    intro a hcycle
    obtain ⟨b, ⟨i, hi⟩, -⟩ := TransGen.head'_iff.1 hcycle
    simp [hnone] at hi
  refine ⟨⟨?_, ?_, ?_, ?_, ?_, ?_, ?_, ?_⟩, ?_, hacyclic, ?_, ?_, ?_, ?_⟩
  all_goals simp [hnone]

/-! ### Release -/

/-- What goes is reached from what `h` holds. -/
theorem Doomed.reached {holdersOf : Addr → Finset Holder} (hd : Doomed holdersOf h c) :
    ∃ a, h ∈ holdersOf a ∧ ReflTransGen (Links holdersOf) a c := by
  induction hd with
  | @intro c held vars members ih =>
    obtain ⟨g, hg⟩ := held
    by_cases hgh : g = h
    · exact ⟨c, hgh ▸ hg, .refl⟩
    · cases g with
      | var n => exact absurd (vars n hg) hgh
      | member b i =>
        obtain ⟨a, ha, hab⟩ := ih b i hg hgh
        exact ⟨a, ha, hab.tail ⟨i, hg⟩⟩

theorem Good.releasable (hg : Good s ∅) (hmem : h ∈ s.holders) : Releasable s ∅ h := by
  refine ⟨hg.inv, hmem, Finset.notMem_empty h, ?_⟩
  intro b i hb hd
  obtain heq | hb := Finset.mem_insert.1 hb
  · obtain ⟨a, ha, hab⟩ := hd.reached
    exact hg.acyclic b (TransGen.head' ⟨i, heq ▸ ha⟩ hab)
  · exact absurd hb (Finset.notMem_empty _)

theorem Shrinks.links (hs : Shrinks s S h t) {x y : Addr} (hl : Links (t.keepers (insert h S)) x y) :
    Links (s.keepers S) x y := by
  obtain ⟨i, hi⟩ := hl
  exact ⟨i, hs.keepers_subset y hi⟩

theorem Good.released (hg : Good s ∅) (hr : Released s ∅ h t) : Good t {h} := by
  have hsame : ∀ c, t.objects c ≠ none → t.objects c = s.objects c := by
    intro c hc
    obtain heq | ⟨hnone, -⟩ := hr.objects c
    · exact heq
    · exact absurd hnone hc
  refine ⟨hr.inv, ?_, ?_, ?_, ?_, ?_, ?_⟩
  · intro a m i hm hi
    have halive : t.objects a ≠ none := by simp [hm]
    refine hr.mem_holders (hg.whole a m i (hsame a halive ▸ hm) hi) ?_
    intro b j hb hd
    cases hb
    exact halive (hr.deleted hd)
  · intro a hcycle
    exact hg.acyclic a (TransGen.mono (fun _ _ => hr.links) a a hcycle)
  · intro c hc
    rw [hr.held]
    exact hg.recorded c (hc.mono (hr.keepers_subset c))
  · intro c hc
    rw [hr.next]
    exact hg.known c (hr.held ▸ hc)
  · intro c hc halive
    apply hr.kept c halive
    exact hg.kept c (hr.held ▸ hc) (hsame c halive ▸ halive)
  · intro c hc
    rw [hr.held]
    obtain ⟨hlt, hnone⟩ := (hr.inv.gone c).1 hc
    obtain heq | ⟨-, hd⟩ := hr.objects c
    · exact hg.deleted c ((hg.inv.gone c).2 ⟨hr.next ▸ hlt, heq ▸ hnone⟩)
    · exact hg.recorded c hd.nonempty

theorem Good.release (hg : Good s ∅) (hmem : h ∈ s.holders) :
    ∃ t, pRelease h s = some t ∧ Released s ∅ h t ∧ h ∈ t.holders := by
  have hr := hg.releasable hmem
  obtain ⟨t, hrun, ht⟩ := pRelease_spec hr
  refine ⟨t, hrun, ht, ht.mem_holders hmem ?_⟩
  rintro b i rfl
  exact hr.safe b i (Finset.mem_insert_self _ _)

/-! ### What follows a release -/

/-- Only what keeps an object matters. -/
theorem Good.congr (hg : Good s S) (hkeepers : ∀ c, t.keepers T c = s.keepers S c)
    (hobjects : t.objects = s.objects) (hrefcount : t.refcount = s.refcount) (hnext : t.next = s.next)
    (hdeleted : t.deleted = s.deleted) (hheld : t.held = s.held)
    (hmembers : ∀ a i, .member a i ∈ t.holders ↔ .member a i ∈ s.holders) : Good t T := by
  have heq : t.keepers T = s.keepers S := funext hkeepers
  refine ⟨⟨?_, ?_, ?_, ?_, ?_, ?_, ?_, ?_⟩, ?_, ?_, ?_, ?_, ?_, ?_⟩ <;>
    simp only [heq, hobjects, hrefcount, hnext, hdeleted, hheld, hmembers]
  · exact hg.inv.bound
  · exact hg.inv.once
  · exact hg.inv.gone
  · exact hg.inv.count
  · exact hg.inv.small
  · exact hg.inv.alive
  · exact hg.inv.owner
  · exact hg.inv.full
  · exact hg.whole
  · exact hg.acyclic
  · exact hg.recorded
  · exact hg.known
  · exact hg.kept
  · exact hg.deleted

theorem keepers_update_none :
    ({ s with data := Function.update s.data h none } : Heap).keepers ∅ c = s.keepers {h} c := by
  ext g
  by_cases hg : g = h
  · subst hg
    simp [Heap.mem_keepers, Heap.mem_holdersOf]
  · simp [Heap.mem_keepers, Heap.mem_holdersOf, hg]

theorem Good.writeNone (hg : Good s {h}) : Good { s with data := Function.update s.data h none } ∅ :=
  hg.congr (fun _ => keepers_update_none) rfl rfl rfl rfl rfl fun _ _ => Iff.rfl

theorem Good.removeHolder {n : Nat} (hg : Good s {.var n}) : Good (s.removeHolder (.var n)) ∅ := by
  refine hg.congr (fun _ => Heap.keepers_removeHolder) rfl rfl rfl rfl rfl ?_
  intro a i
  simp [Heap.removeHolder]

theorem holdersOf_addHolder (hnew : h ∉ s.holders) : (s.addHolder h).holdersOf = s.holdersOf := by
  funext c
  ext g
  by_cases hg : g = h
  · subst hg
    simp [Heap.mem_holdersOf, Heap.addHolder, hnew]
  · simp [Heap.mem_holdersOf, Heap.addHolder, hg]

theorem Good.addHolder {n : Nat} (hg : Good s ∅) (hnew : .var n ∉ s.holders) :
    Good (s.addHolder (.var n)) ∅ := by
  refine hg.congr (fun c => ?_) rfl rfl rfl rfl rfl ?_
  · rw [Heap.keepers_empty, Heap.keepers_empty, holdersOf_addHolder hnew]
  · intro a i
    simp [Heap.addHolder]

/-! ### A new holder -/

/-- `h` holds `c` from now on. -/
def Heap.take (s : Heap) (h : Holder) (c : Addr) : Heap :=
  (({ s with data := Function.update s.data h (some c) } : Heap).setRefCount c (s.refcount c + 1)).addHeld c

theorem holdersOf_take_self (hmem : h ∈ s.holders) :
    (s.take h c).holdersOf c = insert h (s.keepers {h} c) := by
  ext g
  by_cases hg : g = h
  · subst hg
    simp [Heap.mem_holdersOf, Heap.take, Heap.setRefCount, Heap.addHeld, hmem]
  · simp [Heap.mem_holdersOf, Heap.mem_keepers, Heap.take, Heap.setRefCount, Heap.addHeld, hg]

theorem holdersOf_take_of_ne (hac : a ≠ c) : (s.take h c).holdersOf a = s.keepers {h} a := by
  ext g
  by_cases hg : g = h
  · subst hg
    simp [Heap.mem_holdersOf, Heap.mem_keepers, Heap.take, Heap.setRefCount, Heap.addHeld, hac.symm]
  · simp [Heap.mem_holdersOf, Heap.mem_keepers, Heap.take, Heap.setRefCount, Heap.addHeld, hg]

theorem card_holdersOf_take (hmem : h ∈ s.holders) :
    ((s.take h c).holdersOf c).card = (s.keepers {h} c).card + 1 := by
  rw [holdersOf_take_self hmem, Finset.card_insert_of_notMem]
  simp [Heap.mem_keepers]

theorem refcount_take_self : (s.take h c).refcount c = s.refcount c + 1 := by
  simp [Heap.take, Heap.setRefCount, Heap.addHeld]

theorem refcount_take_of_ne (hac : a ≠ c) : (s.take h c).refcount a = s.refcount a := by
  simp [Heap.take, Heap.setRefCount, Heap.addHeld, hac]

theorem keepers_subset_take (hmem : h ∈ s.holders) : s.keepers {h} a ⊆ (s.take h c).holdersOf a := by
  by_cases hac : a = c
  · subst hac
    rw [holdersOf_take_self hmem]
    exact Finset.subset_insert _ _
  · rw [holdersOf_take_of_ne hac]

theorem links_take {x y : Addr} (hmem : h ∈ s.holders) (hl : Links (s.take h c).holdersOf x y) :
    Links (s.keepers {h}) x y ∨ (∃ i, h = .member x i) ∧ y = c := by
  obtain ⟨i, hi⟩ := hl
  by_cases hyc : y = c
  · subst hyc
    rw [holdersOf_take_self hmem] at hi
    obtain heq | hi := Finset.mem_insert.1 hi
    · exact .inr ⟨⟨i, heq.symm⟩, rfl⟩
    · exact .inl ⟨i, hi⟩
  · rw [holdersOf_take_of_ne hyc] at hi
    exact .inl ⟨i, hi⟩

/-- The object that `h` is in is not reached from `c`. -/
theorem acyclic_take (hacyclic : ∀ a, ¬ TransGen (Links (s.keepers {h})) a a) (hmem : h ∈ s.holders)
    (hcycle : ∀ b i, h = .member b i → ¬ ReflTransGen (Links (s.keepers {h})) c b) (x : Addr) :
    ¬ TransGen (Links (s.take h c).holdersOf) x x := by
  intro hx
  cases h with
  | var n =>
    apply hacyclic x
    refine TransGen.mono ?_ x x hx
    intro a b hl
    obtain hl | ⟨⟨i, hi⟩, -⟩ := links_take hmem hl
    · exact hl
    · cases hi
  | member b i =>
    have hbc := hcycle b i rfl
    have hthrough : TransGen
        (fun p q => Links (s.keepers {.member b i}) p q ∨ p = b ∧ q = c) x x := by
      refine TransGen.mono ?_ x x hx
      intro p q hl
      obtain hl | ⟨⟨j, hj⟩, hq⟩ := links_take hmem hl
      · exact .inl hl
      · cases hj
        exact .inr ⟨rfl, hq⟩
    obtain hxx | ⟨hxb, hcx⟩ := transGen_or_through hbc hthrough
    · exact hacyclic x hxx
    · exact hbc (hcx.trans hxb)

theorem Good.take (hg : Good s {h}) (hmem : h ∈ s.holders) (halive : s.objects c ≠ none)
    (hroom : (s.keepers {h} c).card + 1 < 2 ^ 31)
    (hcycle : ∀ b i, h = .member b i → ¬ ReflTransGen (Links (s.keepers {h})) c b) : Good (s.take h c) ∅ := by
  have hobjects : (s.take h c).objects = s.objects := rfl
  have hsub : ∀ a, s.keepers {h} a ⊆ (s.take h c).holdersOf a := fun a => keepers_subset_take hmem
  refine ⟨⟨hg.inv.bound, hg.inv.once, hg.inv.gone, ?_, ?_, ?_, hg.inv.owner, ?_⟩, hg.whole, ?_, ?_, ?_, ?_, ?_⟩ <;>
    try simp only [Heap.keepers_empty, hobjects]
  · intro a ha
    by_cases hac : a = c
    · subst hac
      rw [refcount_take_self, card_holdersOf_take hmem, Int32.ofNat_add, hg.inv.count a ha]
      rfl
    · rw [refcount_take_of_ne hac, holdersOf_take_of_ne hac, hg.inv.count a ha]
  · intro a
    by_cases hac : a = c
    · subst hac
      rwa [card_holdersOf_take hmem]
    · rw [holdersOf_take_of_ne hac]
      exact hg.inv.small a
  · intro a ha
    by_cases hac : a = c
    · subst hac
      exact halive
    · rw [holdersOf_take_of_ne hac] at ha
      exact hg.inv.alive a ha
  · intro a m i hm _ hi
    exact hg.whole a m i hm hi
  · exact acyclic_take hg.acyclic hmem hcycle
  · intro a ha
    by_cases hac : a = c
    · subst hac
      exact Finset.mem_insert_self _ _
    · rw [holdersOf_take_of_ne hac] at ha
      exact Finset.mem_insert_of_mem (hg.recorded a ha)
  · intro a ha
    obtain rfl | ha := Finset.mem_insert.1 ha
    · exact hg.inv.bound a halive
    · exact hg.known a ha
  · intro a ha hobj
    by_cases hac : a = c
    · subst hac
      rw [holdersOf_take_self hmem]
      exact Finset.insert_nonempty _ _
    · obtain rfl | ha := Finset.mem_insert.1 ha
      · exact absurd rfl hac
      · exact (hg.kept a ha hobj).mono (hsub a)
  · intro a ha
    exact Finset.mem_insert_of_mem (hg.deleted a ha)

/-- One holder too many makes the count negative. -/
theorem room_of_accurate (hg : Good s {h}) (hmem : h ∈ s.holders) (halive : s.objects c ≠ none)
    (hacc : (s.take h c).Accurate) : (s.keepers {h} c).card + 1 < 2 ^ 31 := by
  have hsmall := hg.inv.small c
  have hcount := hacc.refcount c halive
  rw [refcount_take_self, card_holdersOf_take hmem, hg.inv.count c halive] at hcount
  by_contra hfull
  have hcard : (s.keepers {h} c).card = 2 ^ 31 - 1 := by omega
  rw [hcard] at hcount
  exact absurd hcount (by decide)

/-! ### A new object -/

theorem Good.objects_next (hg : Good s ∅) : s.objects s.next = none := by
  by_contra halive
  exact (hg.inv.bound _ halive).ne rfl

theorem Good.not_mem_next (hg : Good s ∅) (i : Nat) : .member s.next i ∉ s.holders := by
  intro hmem
  obtain ⟨m, hm, -⟩ := hg.inv.owner _ i hmem
  simp [hg.objects_next] at hm

theorem mem_membersOf {m : Nat} : g ∈ Heap.membersOf a m ↔ ∃ i < m, g = .member a i := by
  simp [Heap.membersOf, eq_comm]

theorem Good.holdersOf_create (hg : Good s ∅) (m : Nat) : (s.create m).holdersOf = s.holdersOf := by
  funext c
  ext g
  by_cases hnew : g ∈ Heap.membersOf s.next m
  · obtain ⟨i, -, rfl⟩ := mem_membersOf.1 hnew
    simp [Heap.mem_holdersOf, Heap.create, hnew, hg.not_mem_next i]
  · simp [Heap.mem_holdersOf, Heap.create, hnew]

theorem Good.create (hg : Good s ∅) (m : Nat) : Good (s.create m) ∅ := by
  have hkeepers : (s.create m).keepers ∅ = s.keepers ∅ := by
    rw [Heap.keepers_empty, Heap.keepers_empty, hg.holdersOf_create]
  have hself : (s.create m).objects s.next = some m := by simp [Heap.create]
  have hother : ∀ c, c ≠ s.next → (s.create m).objects c = s.objects c := fun c hc => by simp [Heap.create, hc]
  have hnone : s.keepers ∅ s.next = ∅ := by
    by_contra hne
    exact hg.inv.alive _ (Finset.nonempty_iff_ne_empty.2 hne) hg.objects_next
  have hne : ∀ c, (s.keepers ∅ c).Nonempty → c ≠ s.next := by
    rintro c hc rfl
    exact hc.ne_empty hnone
  have hwhole : ∀ a m' i, (s.create m).objects a = some m' → i < m' →
      .member a i ∈ (s.create m).holders := by
    intro a m' i hm hi
    by_cases ha : a = s.next
    · subst ha
      rw [hself] at hm
      cases hm
      exact Finset.mem_union_right _ (mem_membersOf.2 ⟨i, hi, rfl⟩)
    · rw [hother a ha] at hm
      exact Finset.mem_union_left _ (hg.whole a m' i hm hi)
  refine ⟨⟨?_, hg.inv.once, ?_, ?_, ?_, ?_, ?_, ?_⟩, hwhole, ?_, ?_, ?_, ?_, hg.deleted⟩ <;>
    try simp only [hkeepers]
  · intro c hc
    by_cases hcn : c = s.next
    · exact hcn ▸ Nat.lt_succ_self _
    · rw [hother c hcn] at hc
      exact Nat.lt_succ_of_lt (hg.inv.bound c hc)
  · intro c
    by_cases hcn : c = s.next
    · subst hcn
      have hout : s.next ∉ (s.create m).deleted := fun hmem => ((hg.inv.gone _).1 hmem).1.ne rfl
      simpa [hself] using hout
    · have hlt : c < s.next + 1 ↔ c < s.next := by
        rw [Nat.lt_succ_iff_lt_or_eq, or_iff_left hcn]
      rw [hother c hcn]
      exact (hg.inv.gone c).trans (and_congr_left fun _ => hlt.symm)
  · intro c hc
    by_cases hcn : c = s.next
    · subst hcn
      rw [hnone]
      simp [Heap.create]
    · rw [hother c hcn] at hc
      rw [← hg.inv.count c hc]
      simp [Heap.create, hcn]
  · exact hg.inv.small
  · intro c hc
    rw [hother c (hne c hc)]
    exact hg.inv.alive c hc
  · intro a i hmem
    obtain hold | hnew := Finset.mem_union.1 hmem
    · obtain ⟨m', hm, hi⟩ := hg.inv.owner a i hold
      have ha : a ≠ s.next := by
        rintro rfl
        simp [hg.objects_next] at hm
      exact ⟨m', (hother a ha).trans hm, hi⟩
    · obtain ⟨j, hj, heq⟩ := mem_membersOf.1 hnew
      cases heq
      exact ⟨m, hself, hj⟩
  · intro a m' i hm _ hi
    exact hwhole a m' i hm hi
  · exact hg.acyclic
  · exact hg.recorded
  · intro c hc
    exact Nat.lt_succ_of_lt (hg.known c hc)
  · intro c hc halive
    rw [hother c (hg.known c hc).ne] at halive
    exact hg.kept c hc halive

/-! ### One operation -/

/-- A holder of `s` is there after the release if its object is. -/
theorem Released.mem_iff (hr : Released s ∅ h t) (hmem : g ∈ s.holders) :
    g ∈ t.holders ↔ ¬ s.OwnerDoomed h g := by
  constructor
  · rintro hstays ⟨b, i, rfl, hd⟩
    obtain ⟨m, hm, -⟩ := hr.inv.owner b i hstays
    rw [hr.deleted (Heap.keepers_empty ▸ hd)] at hm
    cases hm
  · intro hsafe
    apply hr.mem_holders hmem
    rintro b i rfl hd
    exact hsafe ⟨b, i, rfl, Heap.keepers_empty ▸ hd⟩

theorem Released.objects_iff (hr : Released s ∅ h t) (halive : s.objects c ≠ none) :
    t.objects c ≠ none ↔ ¬ Doomed s.holdersOf h c := by
  rw [← Heap.keepers_empty]
  constructor
  · intro hobj hd
    exact hobj (hr.deleted hd)
  · intro hd
    rwa [hr.objects_of_not_doomed hd]

theorem Released.staying_eq (hr : Released s ∅ h t) : s.staying h c = ↑(t.keepers {h} c) := by
  ext g
  simp only [Heap.staying, Set.mem_ofPred_eq, Finset.mem_coe]
  constructor
  · rintro ⟨hmem, hne, hsafe⟩
    rw [← Heap.keepers_empty] at hmem
    obtain hstays | heq | ⟨b, i, hb, hd⟩ := hr.keepers_cases hmem
    · exact hstays
    · exact absurd heq hne
    · exact absurd ⟨b, i, hb, Heap.keepers_empty ▸ hd⟩ hsafe
  · intro hmem
    have hs := hr.keepers_subset c hmem
    rw [Heap.keepers_empty] at hs
    obtain ⟨hstays, -, hout⟩ := Heap.mem_keepers.1 hmem
    have hold := (Heap.mem_holdersOf.1 hs).1
    exact ⟨hs, fun heq => hout (by simp [heq]), (hr.mem_iff hold).1 hstays⟩

theorem Released.hasRoom_iff (hr : Released s ∅ h t) :
    s.HasRoom h c ↔ (t.keepers {h} c).card + 1 < 2 ^ 31 := by
  rw [Heap.HasRoom, hr.staying_eq, Set.ncard_coe_finset]

theorem writeNone_incRefCount (hmem : h ∈ t.holders) :
    ((t.write h none).bind fun u => incRefCount u h) =
      some { t with data := Function.update t.data h none } := by
  simp [Heap.write, hmem, incRefCount]

theorem write_incRefCount (hmem : h ∈ t.holders) (halive : t.objects c ≠ none) :
    ((t.write h (some c)).bind fun u => incRefCount u h) = some (t.take h c) := by
  obtain ⟨m, hm⟩ := Option.ne_none_iff_exists'.1 halive
  simp [Heap.write, hmem, incRefCount, hm, Heap.take]

theorem write_incRefCount_none (hnone : t.objects c = none) :
    ((t.write h (some c)).bind fun u => incRefCount u h) = none := by
  by_cases hmem : h ∈ t.holders <;> simp [Heap.write, hmem, incRefCount, hnone]

/-- The end of an assignment: what is assigned must be there, and one more must be counted. -/
theorem Good.assigned (hg : Good t {h}) (hmem : h ∈ t.holders)
    (hcycle : ∀ c, data = some c → ∀ b i, h = .member b i → ¬ ReflTransGen (Links (t.keepers {h})) c b) :
    ((∀ c, data = some c → t.objects c ≠ none ∧ (t.keepers {h} c).card + 1 < 2 ^ 31) →
      ∃ u, ((t.write h data).bind fun u => incRefCount u h) = some u ∧ Good u ∅) ∧
    (∀ u, ((t.write h data).bind fun u => incRefCount u h) = some u → u.Accurate →
      ∀ c, data = some c → t.objects c ≠ none ∧ (t.keepers {h} c).card + 1 < 2 ^ 31) := by
  cases data with
  | none =>
    refine ⟨fun _ => ⟨_, writeNone_incRefCount hmem, hg.writeNone⟩, ?_⟩
    intro u _ _ c hc
    cases hc
  | some c =>
    constructor
    · intro hroom
      obtain ⟨halive, hcard⟩ := hroom c rfl
      exact ⟨_, write_incRefCount hmem halive, hg.take hmem halive hcard (hcycle c rfl)⟩
    · rintro u hrun hacc c' heq
      cases heq
      have halive : t.objects c ≠ none := by
        intro hnone
        rw [write_incRefCount_none hnone] at hrun
        cases hrun
      rw [write_incRefCount hmem halive] at hrun
      cases hrun
      exact ⟨halive, room_of_accurate hg hmem halive hacc⟩

/-- An orderly operation is done and leaves a good state, and one that is done and leaves a right one is orderly. -/
structure Sound (s : Heap) (op : Op) : Prop where
  good : s.Orderly op → ∃ t, step s op = some t ∧ Good t ∅
  orderly : ∀ t, step s op = some t → t.Accurate → s.Orderly op

theorem not_reflTransGen_of_released (hr : Released s ∅ h t) (hcycle : ¬ s.ClosesCycle h c) :
    ∀ b i, h = .member b i → ¬ ReflTransGen (Links (t.keepers {h})) c b := by
  intro b i hb hreach
  refine hcycle ⟨b, i, hb, ?_⟩
  rw [← Heap.keepers_empty]
  exact ReflTransGen.mono (fun _ _ => hr.links) c b hreach

theorem sound_assignPtr (hg : Good s ∅) (hallowed : s.Allowed (.assignPtr h data)) :
    Sound s (.assignPtr h data) := by
  obtain ⟨hmem, hptr⟩ := hallowed
  by_cases hsame : s.data h = data
  · have hstep : step s (.assignPtr h data) = some s := by
      simp [step, pAssignPtr, Heap.read, hmem, hsame]
    exact ⟨fun _ => ⟨s, hstep, hg⟩, fun _ _ _ hne => absurd hsame hne⟩
  · obtain ⟨t, hrun, hr, hstays⟩ := hg.release hmem
    have hstep : step s (.assignPtr h data) = (t.write h data).bind fun u => incRefCount u h := by
      simp [step, pAssignPtr, Heap.read, hmem, hsame, hrun, Option.bind_eq_bind]
    have hcycle := fun c hc => not_reflTransGen_of_released hr (hptr c hc).2
    obtain ⟨hgood, hright⟩ := (hg.released hr).assigned hstays hcycle
    constructor
    · intro horderly
      rw [hstep]
      apply hgood
      intro c hc
      obtain ⟨hsafe, hroom⟩ := horderly hsame c hc
      exact ⟨(hr.objects_iff (hptr c hc).1).2 hsafe, hr.hasRoom_iff.1 hroom⟩
    · intro u hu hacc _ c hc
      rw [hstep] at hu
      obtain ⟨halive, hroom⟩ := hright u hu hacc c hc
      exact ⟨(hr.objects_iff (hptr c hc).1).1 halive, hr.hasRoom_iff.2 hroom⟩

theorem sound_assign {obj : Holder} (hg : Good s ∅) (hallowed : s.Allowed (.assign h obj)) :
    Sound s (.assign h obj) := by
  obtain ⟨hmem, hobj, hptr⟩ := hallowed
  by_cases hsame : s.data h = s.data obj
  · have hstep : step s (.assign h obj) = some s := by
      simp [step, pAssign, Heap.read, hmem, hobj, hsame]
    exact ⟨fun _ => ⟨s, hstep, hg⟩, fun _ _ _ hne => absurd hsame hne⟩
  · obtain ⟨t, hrun, hr, hstays⟩ := hg.release hmem
    have hne : obj ≠ h := by
      rintro rfl
      exact hsame rfl
    by_cases hsafe : s.OwnerDoomed h obj
    · -- The source is read after it was freed.
      have hout : obj ∉ t.holders := fun hin => (hr.mem_iff hobj).1 hin hsafe
      have hstep : step s (.assign h obj) = none := by
        simp [step, pAssign, Heap.read, hmem, hobj, hsame, hrun, hout]
      constructor
      · intro horderly
        exact absurd hsafe (horderly hsame).1
      · intro u hu
        rw [hstep] at hu
        cases hu
    · have hin := (hr.mem_iff hobj).2 hsafe
      have hdata : t.data obj = s.data obj := hr.data obj hin hne
      have hstep : step s (.assign h obj) = (t.write h (s.data obj)).bind fun u => incRefCount u h := by
        simp [step, pAssign, Heap.read, hmem, hobj, hsame, hrun, hin, hdata, Option.bind_eq_bind]
      have hcycle := fun c hc => not_reflTransGen_of_released hr (hptr c hc)
      obtain ⟨hgood, hright⟩ := (hg.released hr).assigned hstays hcycle
      constructor
      · intro horderly
        rw [hstep]
        apply hgood
        intro c hc
        refine ⟨(hg.released hr).inv.alive c ⟨obj, ?_⟩, hr.hasRoom_iff.1 ((horderly hsame).2 c hc)⟩
        exact Heap.mem_keepers.2 ⟨hin, hdata.trans hc, by simp [hne]⟩
      · intro u hu hacc _
        rw [hstep] at hu
        exact ⟨hsafe, fun c hc => hr.hasRoom_iff.2 (hright u hu hacc c hc).2⟩

theorem sound_clear (hg : Good s ∅) (hmem : h ∈ s.holders) : Sound s (.clear h) := by
  obtain ⟨t, hrun, hr, hstays⟩ := hg.release hmem
  refine ⟨fun _ => ⟨_, ?_, (hg.released hr).writeNone⟩, fun _ _ _ => trivial⟩
  simp [step, clear, hrun, Heap.write, hstays]

theorem sound_destroy {n : Nat} (hg : Good s ∅) (hmem : .var n ∈ s.holders) : Sound s (.destroy n) := by
  obtain ⟨t, hrun, hr, -⟩ := hg.release hmem
  refine ⟨fun _ => ⟨_, ?_, (hg.released hr).removeHolder⟩, fun _ _ _ => trivial⟩
  simp [step, hrun]

theorem hasRoom_addHolder (hnew : h ∉ s.holders) : (s.addHolder h).HasRoom h c ↔ s.HasRoom h c := by
  simp only [Heap.HasRoom, Heap.staying, Heap.OwnerDoomed, holdersOf_addHolder hnew]

theorem data_addHolder : (s.addHolder h).data h = none := by
  simp [Heap.addHolder]

/-- An empty `SmartPtr` keeps nothing. -/
theorem not_doomed_of_data (hdata : s.data h = none) : ¬ Doomed s.holdersOf h c := by
  intro hd
  obtain ⟨a, ha, -⟩ := hd.reached
  simp [Heap.mem_holdersOf, hdata] at ha

theorem data_addHolder_of_mem (hnew : h ∉ s.holders) (hmem : g ∈ s.holders) : (s.addHolder h).data g = s.data g := by
  have hne : g ≠ h := by
    rintro rfl
    exact hnew hmem
  simp [Heap.addHolder, hne]

theorem not_closesCycle_var {n : Nat} : ¬ s.ClosesCycle (.var n) c := by
  rintro ⟨a, i, heq, -⟩
  cases heq

theorem sound_constructPtr {n : Nat} (hg : Good s ∅) (hallowed : s.Allowed (.constructPtr n data)) :
    Sound s (.constructPtr n data) := by
  obtain ⟨hnew, hptr⟩ := hallowed
  have hsound : Sound (s.addHolder (.var n)) (.assignPtr (.var n) data) :=
    sound_assignPtr (hg.addHolder hnew)
      ⟨Finset.mem_insert_self _ _, fun c hc => ⟨hptr c hc, not_closesCycle_var⟩⟩
  constructor
  · intro horderly
    exact hsound.good fun _ c hc => ⟨not_doomed_of_data data_addHolder, (hasRoom_addHolder hnew).2 (horderly c hc)⟩
  · intro t ht hacc c hc
    have hne : (s.addHolder (.var n)).data (.var n) ≠ data := by simp [data_addHolder, hc]
    exact (hasRoom_addHolder hnew).1 (hsound.orderly t ht hacc hne c hc).2

theorem sound_constructCopy {n : Nat} {obj : Holder} (hg : Good s ∅)
    (hallowed : s.Allowed (.constructCopy n obj)) : Sound s (.constructCopy n obj) := by
  obtain ⟨hnew, hobj⟩ := hallowed
  have hdata := data_addHolder_of_mem hnew hobj
  have hsound : Sound (s.addHolder (.var n)) (.assign (.var n) obj) :=
    sound_assign (hg.addHolder hnew)
      ⟨Finset.mem_insert_self _ _, Finset.mem_insert_of_mem hobj, fun _ _ => not_closesCycle_var⟩
  constructor
  · intro horderly
    refine hsound.good fun _ => ⟨?_, fun c hc => (hasRoom_addHolder hnew).2 (horderly c (hdata ▸ hc))⟩
    rintro ⟨b, i, -, hd⟩
    exact not_doomed_of_data data_addHolder hd
  · intro t ht hacc c hc
    have hne : (s.addHolder (.var n)).data (.var n) ≠ (s.addHolder (.var n)).data obj := by
      simp [data_addHolder, hdata, hc]
    exact (hasRoom_addHolder hnew).1 ((hsound.orderly t ht hacc hne).2 c (hdata.trans hc))

theorem Good.sound {op : Op} (hg : Good s ∅) (hallowed : s.Allowed op) : Sound s op := by
  cases op with
  | create m => exact ⟨fun _ => ⟨_, rfl, hg.create m⟩, fun _ _ _ => trivial⟩
  | construct n => exact ⟨fun _ => ⟨_, rfl, hg.addHolder hallowed⟩, fun _ _ _ => trivial⟩
  | constructPtr n ptr => exact sound_constructPtr hg hallowed
  | constructCopy n obj => exact sound_constructCopy hg hallowed
  | assignPtr h ptr => exact sound_assignPtr hg hallowed
  | assign h obj => exact sound_assign hg hallowed
  | clear h => exact sound_clear hg hallowed
  | destroy n => exact sound_destroy hg hallowed

/-! ### Whole runs -/

theorem Good.accurateRun_iff {ops : List Op} (hg : Good s ∅) (hallowed : AllowedRun s ops) :
    AccurateRun s ops ↔ OrderlyRun s ops := by
  induction ops generalizing s with
  | nil => exact ⟨fun _ => trivial, fun _ => hg.accurate⟩
  | cons op ops ih =>
    have hsound := hg.sound hallowed.1
    constructor
    · rintro ⟨-, t, ht, hrest⟩
      have hacc : t.Accurate := by
        cases ops with
        | nil => exact hrest
        | cons => exact hrest.1
      have horderly := hsound.orderly t ht hacc
      obtain ⟨u, hu, hgood⟩ := hsound.good horderly
      obtain rfl := Option.some.inj (hu.symm.trans ht)
      refine ⟨horderly, ?_⟩
      intro v hv
      obtain rfl := Option.some.inj (hv.symm.trans ht)
      exact (ih hgood (hallowed.2 _ ht)).1 hrest
    · rintro ⟨horderly, hrest⟩
      obtain ⟨t, ht, hgood⟩ := hsound.good horderly
      exact ⟨hg.accurate, t, ht, (ih hgood (hallowed.2 t ht)).2 (hrest t ht)⟩

/-- The counts stay right, and each object is deleted once and when it should be, exactly when no assignment reads what
its release frees and no object gets more holders than can be counted. -/
theorem accurateRun_iff_orderlyRun {ops : List Op} (hallowed : AllowedRun {} ops) :
    AccurateRun {} ops ↔ OrderlyRun {} ops :=
  good_empty.accurateRun_iff hallowed

theorem AllowedRun.cons {op : Op} {ops : List Op} (hallowed : s.Allowed op) (hstep : step s op = some t)
    (hrest : AllowedRun t ops) : AllowedRun s (op :: ops) := by
  refine ⟨hallowed, ?_⟩
  intro u hu
  obtain rfl := Option.some.inj (hu.symm.trans hstep)
  exact hrest

theorem OrderlyRun.cons {op : Op} {ops : List Op} (horderly : s.Orderly op) (hstep : step s op = some t)
    (hrest : OrderlyRun t ops) : OrderlyRun s (op :: ops) := by
  refine ⟨horderly, ?_⟩
  intro u hu
  obtain rfl := Option.some.inj (hu.symm.trans hstep)
  exact hrest

theorem not_closesCycle_of_leaf (hleaf : ∀ b i, .member c i ∉ s.holdersOf b) (hne : ∀ i, h ≠ .member c i) :
    ¬ s.ClosesCycle h c := by
  rintro ⟨a, i, rfl, hreach⟩
  obtain rfl | ⟨b, ⟨j, hj⟩, -⟩ := hreach.cases_head
  · exact hne i rfl
  · exact hleaf b j hj

theorem hasRoom_of_card (hcard : (s.holdersOf c).card + 1 < 2 ^ 31) : s.HasRoom h c := by
  have hsub : s.staying h c ⊆ s.holdersOf c := fun g hg => hg.1
  have hle := Set.ncard_le_ncard hsub (s.holdersOf c).finite_toSet
  rw [Set.ncard_coe_finset] at hle
  exact (Nat.add_le_add_right hle 1).trans_lt hcard

/-- Two nodes are linked, and a variable holds the first. -/
def twoNodes : List Op :=
  [.create 1, .constructPtr 0 (some 0), .create 0, .assignPtr (.member 0 0) (some 1)]

theorem allowedRun_twoNodes {ops : List Op} (ht : run {} twoNodes = some t) (hrest : AllowedRun t ops) :
    AllowedRun {} (twoNodes ++ ops) := by
  cases ht
  refine .cons trivial rfl ?_
  refine .cons ⟨by decide, ?_⟩ rfl ?_
  · rintro c ⟨⟩
    decide
  refine .cons trivial rfl ?_
  refine .cons ⟨by decide, ?_⟩ rfl hrest
  rintro c ⟨⟩
  refine ⟨by decide, not_closesCycle_of_leaf ?_ (by simp)⟩
  intro b i hmem
  have hold := (Heap.mem_holdersOf.1 hmem).1
  simp [Heap.create, Heap.addHolder, Heap.setRefCount, Heap.addHeld, Heap.membersOf] at hold

/-- With the second node held too, the variable can go on to it. -/
theorem accurateRun_next : AccurateRun {} (twoNodes ++ [.constructCopy 1 (.member 0 0), .assign (.var 0) (.var 1),
    .destroy 1, .clear (.var 0)]) := by
  refine (accurateRun_iff_orderlyRun ?_).2 ?_
  · refine allowedRun_twoNodes rfl ?_
    refine .cons ⟨by decide, by decide⟩ rfl ?_
    refine .cons ⟨by decide, by decide, fun _ _ => not_closesCycle_var⟩ rfl ?_
    refine .cons (show Holder.var 1 ∈ Heap.holders _ by decide) rfl ?_
    exact ⟨show Holder.var 0 ∈ Heap.holders _ by decide, fun _ _ => trivial⟩
  · refine .cons trivial rfl ?_
    refine .cons ?_ rfl ?_
    · rintro c ⟨⟩
      exact hasRoom_of_card (by decide)
    refine .cons trivial rfl ?_
    refine .cons ?_ rfl ?_
    · rintro - c ⟨⟩
      exact ⟨not_doomed_of_data rfl, hasRoom_of_card (by decide)⟩
    refine .cons ?_ rfl ?_
    · rintro c ⟨⟩
      exact hasRoom_of_card (by decide)
    refine .cons ?_ rfl ?_
    · rintro -
      refine ⟨?_, ?_⟩
      · rintro ⟨b, i, ⟨⟩, -⟩
      · rintro c ⟨⟩
        exact hasRoom_of_card (by decide)
    refine .cons trivial rfl ?_
    exact .cons trivial rfl trivial

theorem AccurateRun.run_ne_none {ops : List Op} (hacc : AccurateRun s ops) : run s ops ≠ none := by
  induction ops generalizing s with
  | nil => simp [run]
  | cons op ops ih =>
    obtain ⟨-, t, ht, hrest⟩ := hacc
    simp [run, ht, ih hrest]

/-- Without, the first node is freed before its link is read. -/
theorem not_accurateRun_next : AllowedRun {} (twoNodes ++ [.assign (.var 0) (.member 0 0)]) ∧
    ¬ AccurateRun {} (twoNodes ++ [.assign (.var 0) (.member 0 0)]) := by
  constructor
  · refine allowedRun_twoNodes rfl ?_
    exact ⟨⟨by decide, by decide, fun _ _ => not_closesCycle_var⟩, fun _ _ => trivial⟩
  · intro hacc
    exact hacc.run_ne_none (by decide)

end CodeStudy.Samba.SmartPtr
