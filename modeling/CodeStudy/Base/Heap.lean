import Mathlib.Data.List.Perm.Basic
import Mathlib.Order.Lattice
import Mathlib.Order.Nat

/-!
# Heaps in arrays

The algorithms of a binary heap with the least key in front, as `std::push_heap` and `std::pop_heap` are written: a
value is carried past a hole, which goes up until the value fits, or down to a leaf and then up. The order is kept for
all pairs that do not touch the hole, and the elements are those of the array with the value in the hole.
-/

namespace CodeStudy

namespace Heap

variable {α β : Type} [LinearOrder β] (key : α → β)

def parent (i : Nat) : Nat := (i - 1) / 2

/-- Carry a hole up to where a value fits. -/
@[semireducible] def pushHeap (l : List α) (hole : Nat) (value : α) : List α :=
  if hole = 0 then l.set hole value
  else
    match l[parent hole]? with
    | none => l.set hole value
    | some above =>
        if key value < key above then pushHeap (l.set hole above) (parent hole) value else l.set hole value
termination_by hole
decreasing_by unfold parent; omega

/-- Carry a hole down to a leaf, and from there up. -/
@[semireducible] def adjustHeap (l : List α) (hole : Nat) (value : α) : List α :=
  if hole < (l.length - 1) / 2 then
    match l[2 * hole + 2]?, l[2 * hole + 1]? with
    | some right, some left =>
        if key left < key right then adjustHeap (l.set hole left) (2 * hole + 1) value
        else adjustHeap (l.set hole right) (2 * hole + 2) value
    | _, _ => l.set hole value
  else if l.length % 2 = 0 ∧ hole = (l.length - 2) / 2 then
    match l[2 * hole + 1]? with
    | some left => pushHeap key (l.set hole left) (2 * hole + 1) value
    | none => l.set hole value
  else pushHeap key l hole value
termination_by l.length - hole
decreasing_by all_goals (rw [List.length_set]; omega)

/-- `push_back` and `push_heap`. -/
def push (l : List α) (value : α) : List α := pushHeap key (l ++ [value]) l.length value

/-- `pop_heap` and `pop_back`. -/
def pop (l : List α) : List α :=
  match l.getLast? with
  | none => []
  | some last => if l.length = 1 then [] else adjustHeap key l.dropLast 0 last

/-- No element comes before the one above it. -/
def Ordered (l : List α) : Prop :=
  ∀ i above below, 0 < i → l[parent i]? = some above → l[i]? = some below → key above ≤ key below

/-- The order with a hole: among the elements that are not in it, and between those above and below it. -/
structure OrderedExcept (l : List α) (hole : Nat) : Prop where
  lt : hole < l.length
  except : ∀ i above below, 0 < i → i ≠ hole → parent i ≠ hole → l[parent i]? = some above → l[i]? = some below →
    key above ≤ key below
  around : 0 < hole → ∀ i above below, 0 < i → parent i = hole → l[parent hole]? = some above → l[i]? = some below →
    key above ≤ key below

/-- No element below a hole comes before a value. -/
def FitsAbove (l : List α) (hole : Nat) (value : α) : Prop :=
  ∀ i below, 0 < i → parent i = hole → l[i]? = some below → key value ≤ key below

variable {key}

theorem parent_lt {i : Nat} (h : 0 < i) : parent i < i := by
  unfold parent
  omega

theorem getElem?_set_of_lt {l : List α} {hole : Nat} (h : hole < l.length) (value : α) (i : Nat) :
    (l.set hole value)[i]? = if hole = i then some value else l[i]? := by
  rw [List.getElem?_set, if_pos h]

namespace OrderedExcept

variable {l : List α} {hole : Nat} (h : OrderedExcept key l hole)

include h

/-- The element above the hole is put into it. -/
theorem moveUp (hhole : 0 < hole) {above : α} (habove : l[parent hole]? = some above) :
    OrderedExcept key (l.set hole above) (parent hole) := by
  have hlt := parent_lt hhole
  refine ⟨by rw [List.length_set]; exact hlt.trans h.lt, fun i a b hi hne hparent ha hb => ?_,
    fun hpos i a b hi hparent ha hb => ?_⟩
  · have hih : hole ≠ i := by
      rintro rfl
      exact hparent rfl
    rw [getElem?_set_of_lt h.lt, if_neg hih] at hb
    rw [getElem?_set_of_lt h.lt] at ha
    split_ifs at ha with hbelow
    · cases ha
      exact h.around hhole i _ _ hi hbelow.symm habove hb
    · exact h.except i _ _ hi hih.symm (Ne.symm hbelow) ha hb
  · have hgrand : hole ≠ parent (parent hole) := ((parent_lt hpos).trans hlt).ne'
    rw [getElem?_set_of_lt h.lt, if_neg hgrand] at ha
    have hfirst := h.except (parent hole) a above hpos hlt.ne hgrand.symm ha habove
    rw [getElem?_set_of_lt h.lt] at hb
    split_ifs at hb with hih
    · cases hb
      exact hfirst
    · refine hfirst.trans (h.except i _ _ hi (Ne.symm hih) ?_ (hparent ▸ habove) hb)
      rw [hparent]
      exact hlt.ne

theorem fitsAbove_moveUp {value : α} (hhole : 0 < hole) {above : α}
    (habove : l[parent hole]? = some above) (hvalue : key value < key above) :
    FitsAbove key (l.set hole above) (parent hole) value := by
  intro i b hi hparent hb
  rw [getElem?_set_of_lt h.lt] at hb
  split_ifs at hb with hih
  · cases hb
    exact hvalue.le
  · refine hvalue.le.trans (h.except i _ _ hi (Ne.symm hih) ?_ (hparent ▸ habove) hb)
    rw [hparent]
    exact (parent_lt hhole).ne

/-- The first of the elements below the hole is put into it. -/
theorem moveDown {child : Nat} {below : α} (hchild : 0 < child) (hparent : parent child = hole)
    (hbelow : l[child]? = some below) (hleast : FitsAbove key l hole below) :
    OrderedExcept key (l.set hole below) child := by
  have hlt : hole < child := hparent ▸ parent_lt hchild
  refine ⟨by rw [List.length_set]; exact (List.getElem?_eq_some_iff.mp hbelow).1, fun i a b hi hne hup ha hb => ?_,
    fun _ i a b hi hup ha hb => ?_⟩
  · rw [getElem?_set_of_lt h.lt] at ha hb
    split_ifs at hb with hih
    · cases hb
      subst hih
      rw [if_neg (parent_lt hi).ne'] at ha
      exact h.around hi child _ _ hchild hparent ha hbelow
    · split_ifs at ha with hmid
      · cases ha
        exact hleast i b hi hmid.symm hb
      · exact h.except i _ _ hi (Ne.symm hih) (Ne.symm hmid) ha hb
  · have hih : hole ≠ i := by
      rintro rfl
      have := parent_lt hi
      omega
    rw [hparent, getElem?_set_of_lt h.lt, if_pos rfl] at ha
    rw [getElem?_set_of_lt h.lt, if_neg hih] at hb
    cases ha
    refine h.except i _ _ hi (Ne.symm hih) ?_ (hup ▸ hbelow) hb
    rw [hup]
    exact hlt.ne'

/-- A value that fits between what is above and what is below the hole is put into it. -/
theorem fill {value : α} (hfits : FitsAbove key l hole value)
    (habove : ∀ above, 0 < hole → l[parent hole]? = some above → key above ≤ key value) :
    Ordered key (l.set hole value) := by
  intro i a b hi ha hb
  rw [getElem?_set_of_lt h.lt] at ha hb
  split_ifs at hb with hih
  · cases hb
    subst hih
    rw [if_neg (parent_lt hi).ne'] at ha
    exact habove a hi ha
  · split_ifs at ha with hmid
    · cases ha
      exact hfits i b hi hmid.symm hb
    · exact h.except i _ _ hi (Ne.symm hih) (Ne.symm hmid) ha hb

end OrderedExcept

/-! ### The elements -/

/-- An element changes its place with the value in the hole. -/
theorem set_set_perm_set {l : List α} {hole other : Nat} (hhole : hole < l.length) {a : α} (ha : l[other]? = some a)
    (hne : hole ≠ other) (value : α) : ((l.set hole a).set other value).Perm (l.set hole value) := by
  obtain ⟨hother, rfl⟩ := List.getElem?_eq_some_iff.mp ha
  have hswap := @List.set_set_perm _ (l.set hole value) hole other (by rwa [List.length_set]) (by rwa [List.length_set])
  rwa [List.getElem_set_self, List.getElem_set_ne hne, List.set_set] at hswap

/-! ### The loops -/

theorem pushHeap_spec {l : List α} {hole : Nat} (value : α) (h : OrderedExcept key l hole)
    (hfits : FitsAbove key l hole value) :
    Ordered key (pushHeap key l hole value) ∧ (pushHeap key l hole value).Perm (l.set hole value) := by
  fun_induction pushHeap key l hole value with
  | case1 l => exact ⟨h.fill hfits fun _ hpos => absurd hpos (lt_irrefl 0), .refl _⟩
  | case2 l hole hpos hnone => exact ⟨h.fill hfits fun _ _ habove => (by cases hnone.symm.trans habove), .refl _⟩
  | case3 l hole hpos above habove hbefore ih =>
      have hhole := Nat.pos_of_ne_zero hpos
      obtain ⟨hordered, hperm⟩ := ih (h.moveUp hhole habove) (h.fitsAbove_moveUp hhole habove hbefore)
      exact ⟨hordered, hperm.trans (set_set_perm_set h.lt habove (parent_lt hhole).ne' value)⟩
  | case4 l hole hpos above habove hbefore =>
      refine ⟨h.fill hfits fun above' _ habove' => ?_, .refl _⟩
      cases habove.symm.trans habove'
      exact not_lt.mp hbefore

/-- At a leaf there is nothing that a value could come behind. -/
theorem fitsAbove_leaf {l : List α} {hole : Nat} (hleaf : l.length ≤ 2 * hole + 1) (value : α) :
    FitsAbove key l hole value := by
  intro i below hi hparent hbelow
  have hlt := (List.getElem?_eq_some_iff.mp hbelow).1
  unfold parent at hparent
  omega

/-- The first of two elements below a hole. -/
theorem fitsAbove_of_children {l : List α} {hole : Nat} {value : α}
    (hleft : ∀ left, l[2 * hole + 1]? = some left → key value ≤ key left)
    (hright : ∀ right, l[2 * hole + 2]? = some right → key value ≤ key right) : FitsAbove key l hole value := by
  intro i below hi hparent hbelow
  have hchild : i = 2 * hole + 1 ∨ i = 2 * hole + 2 := by
    unfold parent at hparent
    omega
  rcases hchild with rfl | rfl
  · exact hleft below hbelow
  · exact hright below hbelow

theorem adjustHeap_spec {l : List α} {hole : Nat} (value : α) (h : OrderedExcept key l hole) :
    Ordered key (adjustHeap key l hole value) ∧ (adjustHeap key l hole value).Perm (l.set hole value) := by
  fun_induction adjustHeap key l hole value with
  | case1 l hole hinner right left hleft hright hfirst ih =>
      have hparent : parent (2 * hole + 1) = hole := by unfold parent; omega
      have hleast : FitsAbove key l hole left := by
        refine fitsAbove_of_children (fun left' hleft' => ?_) fun right' hright' => ?_
        · cases hleft.symm.trans hleft'
          exact le_rfl
        · cases hright.symm.trans hright'
          exact hfirst.le
      obtain ⟨hordered, hperm⟩ := ih (h.moveDown (by omega) hparent hleft hleast)
      exact ⟨hordered, hperm.trans (set_set_perm_set h.lt hleft (by omega) value)⟩
  | case2 l hole hinner right left hleft hright hfirst ih =>
      have hparent : parent (2 * hole + 2) = hole := by unfold parent; omega
      have hleast : FitsAbove key l hole right := by
        refine fitsAbove_of_children (fun left' hleft' => ?_) fun right' hright' => ?_
        · cases hleft.symm.trans hleft'
          exact not_lt.mp hfirst
        · cases hright.symm.trans hright'
          exact le_rfl
      obtain ⟨hordered, hperm⟩ := ih (h.moveDown (by omega) hparent hright hleast)
      exact ⟨hordered, hperm.trans (set_set_perm_set h.lt hright (by omega) value)⟩
  | case3 l hole hinner hmissing =>
      obtain ⟨left, hl⟩ : ∃ left, l[2 * hole + 1]? = some left := ⟨_, List.getElem?_eq_getElem (by omega)⟩
      obtain ⟨right, hr⟩ : ∃ right, l[2 * hole + 2]? = some right := ⟨_, List.getElem?_eq_getElem (by omega)⟩
      exact absurd hl (hmissing _ _ hr)
  | case4 l hole hinner hlast left hleft =>
      have hparent : parent (2 * hole + 1) = hole := by unfold parent; omega
      have hlt := h.lt
      have hleast : FitsAbove key l hole left := by
        refine fitsAbove_of_children (fun left' hleft' => ?_) fun right hright => ?_
        · cases hleft.symm.trans hleft'
          exact le_rfl
        · have := (List.getElem?_eq_some_iff.mp hright).1
          omega
      obtain ⟨hordered, hperm⟩ := pushHeap_spec value (h.moveDown (by omega) hparent hleft hleast)
        (fitsAbove_leaf (by rw [List.length_set]; omega) value)
      exact ⟨hordered, hperm.trans (set_set_perm_set h.lt hleft (by omega) value)⟩
  | case5 l hole hinner hlast hnone =>
      have hlt := h.lt
      rw [List.getElem?_eq_none_iff] at hnone
      omega
  | case6 l hole hinner hlast =>
      have hlt := h.lt
      exact pushHeap_spec value h (fitsAbove_leaf (by omega) value)

/-! ### The heap -/

/-- The least key is in front. -/
theorem Ordered.le_of_mem {first : α} {rest : List α} (h : Ordered key (first :: rest)) :
    ∀ a ∈ first :: rest, key first ≤ key a := by
  have hall (i : Nat) : ∀ a, (first :: rest)[i]? = some a → key first ≤ key a := by
    induction i using Nat.strong_induction_on with
    | _ i ih =>
        intro a ha
        by_cases hzero : i = 0
        · subst hzero
          cases ha
          exact le_rfl
        · have hi := Nat.pos_of_ne_zero hzero
          have hlt := parent_lt hi
          have hin := hlt.trans (List.getElem?_eq_some_iff.mp ha).1
          obtain ⟨above, habove⟩ : ∃ above, (first :: rest)[parent i]? = some above :=
            ⟨_, List.getElem?_eq_getElem hin⟩
          exact (ih _ hlt _ habove).trans (h i _ _ hi habove ha)
  intro a ha
  obtain ⟨i, hi⟩ := List.mem_iff_getElem?.mp ha
  exact hall i a hi

theorem ordered_nil : Ordered key [] := by
  intro i above below _ habove
  cases habove

/-- An array with a hole in the place of its first or of a new last element. -/
theorem Ordered.of_prefix {l l' : List α} (h : Ordered key l) {hole : Nat} (hlt : hole < l'.length)
    (hsame : ∀ i a, i ≠ hole → l'[i]? = some a → l[i]? = some a)
    (haround : ∀ i, 0 < i → i < l'.length → 0 < hole → parent i ≠ hole) : OrderedExcept key l' hole := by
  refine ⟨hlt, fun i a b hi hne hparent ha hb => ?_, fun hpos i a b hi hparent _ hb => ?_⟩
  · exact h i a b hi (hsame _ _ hparent ha) (hsame _ _ hne hb)
  · exact absurd hparent (haround i hi (List.getElem?_eq_some_iff.mp hb).1 hpos)

theorem push_spec {l : List α} (h : Ordered key l) (value : α) :
    Ordered key (push key l value) ∧ (push key l value).Perm (value :: l) := by
  have hexcept : OrderedExcept key (l ++ [value]) l.length := by
    refine h.of_prefix (by simp) (fun i a hne ha => ?_) fun i hi hlt _ => ?_
    · have hlt := (List.getElem?_eq_some_iff.mp ha).1
      rw [List.length_append, List.length_singleton] at hlt
      rwa [List.getElem?_append_left (by omega)] at ha
    · rw [List.length_append, List.length_singleton] at hlt
      have := parent_lt hi
      omega
  obtain ⟨hordered, hperm⟩ := pushHeap_spec value hexcept (fitsAbove_leaf (by simp; omega) value)
  refine ⟨hordered, hperm.trans ?_⟩
  rw [List.set_append_right _ _ le_rfl, Nat.sub_self]
  exact List.perm_append_singleton value l

theorem pop_spec {first : α} {rest : List α} (h : Ordered key (first :: rest)) :
    Ordered key (pop key (first :: rest)) ∧ (pop key (first :: rest)).Perm rest := by
  rcases List.eq_nil_or_concat rest with rfl | ⟨rest, last, rfl⟩
  · exact ⟨ordered_nil, .refl _⟩
  rw [List.concat_eq_append] at h ⊢
  have hexcept : OrderedExcept key (first :: rest) 0 := by
    refine h.of_prefix (Nat.zero_lt_succ _) (fun i a _ ha => ?_) fun i _ _ hpos => absurd hpos (lt_irrefl 0)
    have hlt := (List.getElem?_eq_some_iff.mp ha).1
    rwa [← List.cons_append, List.getElem?_append_left hlt]
  have hpop : pop key (first :: (rest ++ [last])) = adjustHeap key (first :: rest) 0 last := by
    rw [pop, ← List.cons_append, List.getLast?_concat, List.dropLast_concat]
    simp
  obtain ⟨hordered, hperm⟩ := adjustHeap_spec last hexcept
  rw [hpop]
  exact ⟨hordered, hperm.trans (List.perm_append_singleton last rest).symm⟩

end Heap

/-- What is relied on of a priority queue in an array with its front first, whatever becomes of equal keys. -/
structure HeapAlgorithm {α β : Type} [LinearOrder β] (key : α → β) where
  push : List α → α → List α
  pop : List α → List α
  Valid : List α → Prop
  valid_nil : Valid []
  valid_push : ∀ l a, Valid l → Valid (push l a)
  push_perm : ∀ l a, Valid l → (push l a).Perm (a :: l)
  valid_pop : ∀ first rest, Valid (first :: rest) → Valid (pop (first :: rest))
  pop_perm : ∀ first rest, Valid (first :: rest) → (pop (first :: rest)).Perm rest
  front_le : ∀ first rest, Valid (first :: rest) → ∀ a ∈ rest, key first ≤ key a

/-- The binary heap. -/
def Heap.binary {α β : Type} [LinearOrder β] (key : α → β) : HeapAlgorithm key where
  push := Heap.push key
  pop := Heap.pop key
  Valid := Heap.Ordered key
  valid_nil := Heap.ordered_nil
  valid_push _ value h := (Heap.push_spec h value).1
  push_perm _ value h := (Heap.push_spec h value).2
  valid_pop _ _ h := (Heap.pop_spec h).1
  pop_perm _ _ h := (Heap.pop_spec h).2
  front_le _ _ h a ha := h.le_of_mem a (List.mem_cons_of_mem _ ha)

end CodeStudy
