import Mathlib.Data.List.Nodup
import Mathlib.Data.List.Perm.Basic
import Mathlib.Logic.Function.Basic

/-!
# The lists of a signal's slots

A signal keeps its slots in groups, in ascending order of the group ids, and every slot knows its place in the list
of its group. A slot is removed by putting the last one of the list into its place.
-/

namespace CodeStudy.Sigslot

abbrev SlotId := Nat

abbrev ObjectId := Nat

structure Group where
  gid : Int32
  slts : List SlotId

structure Slot where
  index : Nat := 0
  group : Int32
  connected : Bool := true
  blocked : Bool := false
  /-- The object that the slot has a weak pointer to. -/
  object : Option ObjectId

abbrev Slots := SlotId → Slot

def Slots.setIndex (slots : Slots) (s : SlotId) (index : Nat) : Slots :=
  Function.update slots s { slots s with index }

/-- `std::swap(slts[i], slts.back())` -/
def swapBack (slts : List SlotId) (i : Nat) : List SlotId :=
  match slts[i]?, slts.getLast? with
  | some s, some last => (slts.set i last).set (slts.length - 1) s
  | _, _ => slts

/-- The slot that takes the place is told so, and what is last then is removed. -/
def removeAt (slts : List SlotId) (slots : Slots) (i : Nat) : List SlotId × Slots :=
  ((swapBack slts i).dropLast,
    match (swapBack slts i)[i]? with
    | some s => slots.setIndex s i
    | none => slots)

def addSlot (groups : List Group) (slots : Slots) (s : SlotId) : List Group × Slots :=
  match groups with
  | [] => ([⟨(slots s).group, [s]⟩], slots.setIndex s 0)
  | group :: groups =>
      if group.gid < (slots s).group then
        (group :: (addSlot groups slots s).1, (addSlot groups slots s).2)
      else if group.gid ≠ (slots s).group then
        (⟨(slots s).group, [s]⟩ :: group :: groups, slots.setIndex s 0)
      else
        ({ group with slts := group.slts ++ [s] } :: groups, slots.setIndex s group.slts.length)

/-- Only the group of the slot is looked at, and only a slot that is in its place is removed. -/
def clean (groups : List Group) (slots : Slots) (state : SlotId) : List Group × Slots :=
  match groups with
  | [] => ([], slots)
  | group :: groups =>
      if group.gid = (slots state).group then
        if group.slts[(slots state).index]? = some state then
          ({ group with slts := (removeAt group.slts slots (slots state).index).1 } :: groups,
            (removeAt group.slts slots (slots state).index).2)
        else (group :: groups, slots)
      else (group :: (clean groups slots state).1, (clean groups slots state).2)

theorem length_swapBack (slts : List SlotId) (i : Nat) : (swapBack slts i).length = slts.length := by
  unfold swapBack
  split
  · simp
  · rfl

theorem length_removeAt (slts : List SlotId) (slots : Slots) (i : Nat) :
    (removeAt slts slots i).1.length = slts.length - 1 := by
  simp [removeAt, length_swapBack]

/-- The slots of a group for which `cond` holds, and how many they are. A place is looked at again after a removal. -/
def removeIf (cond : SlotId → Bool) (slts : List SlotId) (slots : Slots) (i count : Nat) :
    List SlotId × Slots × Nat :=
  if hi : i < slts.length then
    if cond slts[i] then removeIf cond (removeAt slts slots i).1 (removeAt slts slots i).2 i (count + 1)
    else removeIf cond slts slots (i + 1) count
  else (slts, slots, count)
termination_by slts.length - i
decreasing_by
  · rw [length_removeAt]
    omega
  · omega

def disconnectIf (cond : SlotId → Bool) (groups : List Group) (slots : Slots) (count : Nat) :
    List Group × Slots × Nat :=
  match groups with
  | [] => ([], slots, count)
  | group :: groups =>
      let removed := removeIf cond group.slts slots 0 count
      let rest := disconnectIf cond groups removed.2.1 removed.2.2
      ({ group with slts := removed.1 } :: rest.1, rest.2)

/-- The group stays, without slots. -/
def disconnectGroup (groups : List Group) (gid : Int32) : List Group × Nat :=
  match groups with
  | [] => ([], 0)
  | group :: groups =>
      if group.gid = gid then ({ group with slts := [] } :: groups, group.slts.length)
      else (group :: (disconnectGroup groups gid).1, (disconnectGroup groups gid).2)

/-- In the order of an emission. -/
def listed (groups : List Group) : List SlotId :=
  groups.flatMap Group.slts

/-- Every slot knows its group and its place in it. -/
structure Group.Ok (slots : Slots) (group : Group) : Prop where
  index : ∀ i s, group.slts[i]? = some s → (slots s).index = i
  gid : ∀ s ∈ group.slts, (slots s).group = group.gid

structure Placed (groups : List Group) (slots : Slots) : Prop where
  ordered : groups.Pairwise fun group later => group.gid < later.gid
  ok : ∀ group ∈ groups, group.Ok slots

/-- Slots of a list have another index, and nothing else is different. -/
structure Reindexed (slts : List SlotId) (slots slots' : Slots) : Prop where
  others : ∀ s ∉ slts, slots' s = slots s
  same : ∀ s, slots' s = { slots s with index := (slots' s).index }

variable {groups : List Group} {group : Group} {slots slots' slots'' : Slots} {slts slts' : List SlotId}
  {s t : SlotId} {i : Nat}

namespace Reindexed

theorem refl (slts : List SlotId) (slots : Slots) : Reindexed slts slots slots :=
  ⟨fun _ _ => rfl, fun _ => rfl⟩

theorem trans (h : Reindexed slts slots slots') (h' : Reindexed slts slots' slots'') :
    Reindexed slts slots slots'' := by
  refine ⟨?_, ?_⟩
  · intro s hs
    rw [h'.others s hs, h.others s hs]
  · intro s
    rw [h'.same s, h.same s]

theorem mono (h : Reindexed slts slots slots') (hsub : ∀ s ∈ slts, s ∈ slts') : Reindexed slts' slots slots' := by
  refine ⟨?_, h.same⟩
  intro s hs
  apply h.others
  intro hmem
  exact hs (hsub s hmem)

theorem setIndex (hs : s ∈ slts) (slots : Slots) (i : Nat) : Reindexed slts slots (slots.setIndex s i) := by
  refine ⟨?_, ?_⟩
  · intro t ht
    have hne : t ≠ s := fun heq => ht (heq ▸ hs)
    rw [Slots.setIndex, Function.update_of_ne hne]
  · intro t
    by_cases hts : t = s
    · rw [hts, Slots.setIndex, Function.update_self]
    · rw [Slots.setIndex, Function.update_of_ne hts]

theorem gid (h : Reindexed slts slots slots') (s : SlotId) : (slots' s).group = (slots s).group := by
  rw [h.same s]

theorem connected (h : Reindexed slts slots slots') (s : SlotId) : (slots' s).connected = (slots s).connected := by
  rw [h.same s]

theorem blocked (h : Reindexed slts slots slots') (s : SlotId) : (slots' s).blocked = (slots s).blocked := by
  rw [h.same s]

theorem object (h : Reindexed slts slots slots') (s : SlotId) : (slots' s).object = (slots s).object := by
  rw [h.same s]

end Reindexed

theorem Group.Ok.of_eq (hok : group.Ok slots) (heq : ∀ s ∈ group.slts, slots' s = slots s) : group.Ok slots' := by
  refine ⟨?_, ?_⟩
  · intro i s hs
    rw [heq s (List.mem_of_getElem? hs)]
    exact hok.index i s hs
  · intro s hs
    rw [heq s hs]
    exact hok.gid s hs

theorem Group.Ok.nodup (hok : group.Ok slots) : group.slts.Nodup := by
  rw [List.nodup_iff_getElem?_ne_getElem?]
  intro i j hij hj heq
  have hget : group.slts[j]? = some group.slts[j] := List.getElem?_eq_getElem hj
  have hi := hok.index i _ (heq.trans hget)
  have hj := hok.index j _ hget
  omega

/-! ### A slot is removed -/

theorem exists_last (hi : slts[i]? = some s) : ∃ last, slts.getLast? = some last ∧ slts[slts.length - 1]? = some last := by
  have hlt := (List.getElem?_eq_some_iff.1 hi).1
  refine ⟨slts[slts.length - 1], ?_, List.getElem?_eq_getElem _⟩
  rw [List.getLast?_eq_getElem?, List.getElem?_eq_getElem]

theorem getElem?_swapBack (hi : slts[i]? = some s) (j : Nat) :
    (swapBack slts i)[j]? =
      if j = slts.length - 1 then some s else if j = i then slts[slts.length - 1]? else slts[j]? := by
  obtain ⟨hlt, hs⟩ := List.getElem?_eq_some_iff.1 hi
  obtain ⟨last, hlast, hget⟩ := exists_last hi
  simp only [swapBack, hi, hlast, hget]
  split_ifs with hend hji
  · rw [hend, List.getElem?_set_self]
    rw [List.length_set]
    omega
  · rw [List.getElem?_set_ne (Ne.symm hend), hji, List.getElem?_set_self hlt]
  · rw [List.getElem?_set_ne (Ne.symm hend), List.getElem?_set_ne (Ne.symm hji)]

theorem swapBack_perm (hi : slts[i]? = some s) : (swapBack slts i).Perm slts := by
  obtain ⟨hlt, hs⟩ := List.getElem?_eq_some_iff.1 hi
  obtain ⟨last, hlast, hget⟩ := exists_last hi
  obtain ⟨hbound, hlast'⟩ := List.getElem?_eq_some_iff.1 hget
  simp only [swapBack, hi, hlast]
  rw [← hs, ← hlast']
  exact List.set_set_perm hlt hbound

/-- What is left, and the slot that went. -/
theorem removeAt_perm (hi : slts[i]? = some s) (slots : Slots) : (s :: (removeAt slts slots i).1).Perm slts := by
  obtain ⟨hlt, hs⟩ := List.getElem?_eq_some_iff.1 hi
  have hconcat : (swapBack slts i).dropLast ++ [s] = swapBack slts i := by
    have hne : swapBack slts i ≠ [] := by
      intro hnil
      have hlen := length_swapBack slts i
      rw [hnil, List.length_nil] at hlen
      omega
    have hback : (swapBack slts i).getLast hne = s := by
      have hend := getElem?_swapBack hi (slts.length - 1)
      rw [if_pos rfl, ← length_swapBack slts i, ← List.getLast?_eq_getElem?, List.getLast?_eq_some_getLast hne,
        Option.some.injEq] at hend
      exact hend
    rw [← hback]
    exact List.dropLast_concat_getLast hne
  calc (s :: (removeAt slts slots i).1).Perm ((swapBack slts i).dropLast ++ [s]) :=
        (List.perm_append_singleton s _).symm
    _ = swapBack slts i := hconcat
    List.Perm _ slts := swapBack_perm hi

/-- The slot in the place of the other knows its new place, and the others have not moved. -/
theorem Group.Ok.removeAt (hok : group.Ok slots) (hi : group.slts[i]? = some s) :
    ({ group with slts := (removeAt group.slts slots i).1 } : Group).Ok (removeAt group.slts slots i).2 ∧
      Reindexed group.slts slots (removeAt group.slts slots i).2 := by
  obtain ⟨hlt, -⟩ := List.getElem?_eq_some_iff.1 hi
  obtain ⟨moved, hmoved⟩ : ∃ moved, (swapBack group.slts i)[i]? = some moved := by
    refine ⟨_, List.getElem?_eq_getElem ?_⟩
    rwa [length_swapBack]
  have hslots : (CodeStudy.Sigslot.removeAt group.slts slots i).2 = slots.setIndex moved i := by
    simp only [CodeStudy.Sigslot.removeAt, hmoved]
  have hmem : ∀ t ∈ (CodeStudy.Sigslot.removeAt group.slts slots i).1, t ∈ group.slts := fun t ht =>
    (removeAt_perm hi slots).subset (List.mem_cons_of_mem s ht)
  have hold : moved ∈ group.slts := by
    rw [getElem?_swapBack hi] at hmoved
    split_ifs at hmoved with hend hself
    · cases hmoved
      exact List.mem_of_getElem? hi
    · exact List.mem_of_getElem? hmoved
    · exact absurd rfl hself
  have hreindexed := Reindexed.setIndex hold slots i
  rw [hslots]
  refine ⟨⟨?_, ?_⟩, hreindexed⟩
  · intro j t ht
    have hshort : j < group.slts.length - 1 := by
      rw [← length_removeAt group.slts slots i]
      exact (List.getElem?_eq_some_iff.1 ht).1
    have hplace : (swapBack group.slts i)[j]? = some t := by
      rw [← ht, CodeStudy.Sigslot.removeAt, List.getElem?_dropLast, if_pos]
      rwa [length_swapBack]
    by_cases hji : j = i
    · subst hji
      rw [hmoved, Option.some.injEq] at hplace
      rw [← hplace, Slots.setIndex, Function.update_self]
    · have hne : t ≠ moved := by
        intro heq
        have hnodup := (swapBack_perm hi).nodup_iff.2 hok.nodup
        apply hji
        apply (List.getElem?_inj (List.getElem?_eq_some_iff.1 hplace).1 hnodup).1
        rw [hplace, hmoved, heq]
      rw [Slots.setIndex, Function.update_of_ne hne]
      apply hok.index
      rwa [getElem?_swapBack hi, if_neg (Nat.ne_of_lt hshort), if_neg hji] at hplace
  · intro t ht
    rw [hreindexed.gid t]
    exact hok.gid t (hmem t ht)

/-! ### The operations -/

theorem Placed.tail (h : Placed (group :: groups) slots) : Placed groups slots :=
  ⟨(List.pairwise_cons.1 h.ordered).2, fun other hother => h.ok other (List.mem_cons_of_mem _ hother)⟩

theorem Placed.head (h : Placed (group :: groups) slots) : group.Ok slots :=
  h.ok group List.mem_cons_self

theorem Placed.head_lt (h : Placed (group :: groups) slots) : ∀ other ∈ groups, group.gid < other.gid :=
  (List.pairwise_cons.1 h.ordered).1

theorem mem_listed : s ∈ listed groups ↔ ∃ group ∈ groups, s ∈ group.slts := by
  simp [listed]

theorem listed_cons : listed (group :: groups) = group.slts ++ listed groups := by
  simp [listed]

/-- The slots of the later groups have other group ids. -/
theorem Placed.disjoint (h : Placed (group :: groups) slots) : ∀ s ∈ listed groups, (slots s).group ≠ group.gid := by
  intro s hs
  obtain ⟨other, hother, hmem⟩ := mem_listed.1 hs
  rw [(h.ok other (List.mem_cons_of_mem _ hother)).gid s hmem]
  intro heq
  exact Int32.lt_irrefl (heq ▸ h.head_lt other hother)

theorem Placed.nodup (h : Placed groups slots) : (listed groups).Nodup := by
  induction groups with
  | nil => exact List.nodup_nil
  | cons group groups ih =>
    rw [listed_cons, List.nodup_append]
    refine ⟨h.head.nodup, ih h.tail, ?_⟩
    intro s hs t ht heq
    subst heq
    exact h.disjoint s ht (h.head.gid s hs)

/-- Groups with other slots under the same ids. -/
theorem Placed.cons {groups' : List Group} (h : Placed (group :: groups) slots)
    (hgids : groups'.map Group.gid = groups.map Group.gid) {slts : List SlotId}
    (hhead : ({ group with slts } : Group).Ok slots') (htail : Placed groups' slots') :
    Placed ({ group with slts } :: groups') slots' := by
  refine ⟨List.pairwise_cons.2 ⟨?_, htail.ordered⟩, ?_⟩
  · intro other hother
    have hmem : other.gid ∈ groups.map Group.gid := hgids ▸ List.mem_map_of_mem hother
    obtain ⟨before, hbefore, heq⟩ := List.mem_map.1 hmem
    exact heq ▸ h.head_lt before hbefore
  · intro other hother
    rcases List.mem_cons.1 hother with rfl | hother
    · exact hhead
    · exact htail.ok other hother

theorem Placed.of_agree (h : Placed groups slots)
    (hagree : ∀ s ∈ listed groups, (slots' s).index = (slots s).index ∧ (slots' s).group = (slots s).group) :
    Placed groups slots' := by
  refine ⟨h.ordered, ?_⟩
  intro group hgroup
  have hlisted : ∀ s ∈ group.slts, s ∈ listed groups := fun s hs => mem_listed.2 ⟨group, hgroup, hs⟩
  refine ⟨?_, ?_⟩
  · intro i s hs
    rw [(hagree s (hlisted s (List.mem_of_getElem? hs))).1]
    exact (h.ok group hgroup).index i s hs
  · intro s hs
    rw [(hagree s (hlisted s hs)).2]
    exact (h.ok group hgroup).gid s hs

/-- Slots that are not in a list have not been moved by what was done to its slots. -/
theorem Placed.of_reindexed (h : Placed groups slots) (hslots : Reindexed slts slots slots')
    (hout : ∀ s ∈ listed groups, s ∉ slts) : Placed groups slots' := by
  apply h.of_agree
  intro s hs
  rw [hslots.others s (hout s hs)]
  exact ⟨rfl, rfl⟩

/-- What a removal leaves: the slots that were not removed, each in its place. -/
structure Removed (groups : List Group) (slots : Slots) (removed : SlotId → Bool) (groups' : List Group)
    (slots' : Slots) : Prop where
  gids : groups'.map Group.gid = groups.map Group.gid
  placed : Placed groups' slots'
  left : (listed groups').Perm ((listed groups).filter fun s => !removed s)
  slots : Reindexed (listed groups) slots slots'

theorem perm_filter_of_cons_perm (hperm : (s :: slts').Perm slts) (hnodup : slts.Nodup) :
    slts'.Perm (slts.filter fun t => !(t == s)) := by
  have herase : (slts.erase s).Perm slts' := by
    simpa using (hperm.erase s).symm
  rw [hnodup.erase_eq_filter] at herase
  exact herase.symm

theorem filter_ne_eq_self (hs : s ∉ slts) : (slts.filter fun t => !(t == s)) = slts := by
  rw [List.filter_eq_self]
  intro t ht
  have hne : t ≠ s := fun heq => hs (heq ▸ ht)
  simp [hne]

/-- A slot that is listed is in its place, and goes. -/
theorem Placed.clean (h : Placed groups slots) (state : SlotId) :
    Removed groups slots (· == state) (clean groups slots state).1 (clean groups slots state).2 := by
  induction groups with
  | nil => exact ⟨rfl, h, List.Perm.refl _, Reindexed.refl _ _⟩
  | cons group groups ih =>
    have hrest := ih h.tail
    have hothers : group.gid = (slots state).group → state ∉ listed groups :=
      fun hgid hmem => h.disjoint state hmem hgid.symm
    unfold CodeStudy.Sigslot.clean
    split_ifs with hgid hplace
    · obtain ⟨hok, hslots⟩ := h.head.removeAt hplace
      have hout : ∀ s ∈ listed groups, s ∉ group.slts :=
        fun s hs hmem => h.disjoint s hs (h.head.gid s hmem)
      refine ⟨rfl, h.cons rfl hok (h.tail.of_reindexed hslots hout), ?_, hslots.mono ?_⟩
      · rw [listed_cons, listed_cons, List.filter_append, filter_ne_eq_self (hothers hgid)]
        exact (perm_filter_of_cons_perm (removeAt_perm hplace slots) h.head.nodup).append_right _
      · intro s hs
        exact listed_cons ▸ List.mem_append_left _ hs
    · have hout : state ∉ group.slts := by
        intro hmem
        obtain ⟨i, hi⟩ := List.mem_iff_getElem?.1 hmem
        exact hplace (h.head.index i state hi ▸ hi)
      refine ⟨rfl, h, ?_, Reindexed.refl _ _⟩
      rw [listed_cons, List.filter_append, filter_ne_eq_self hout, filter_ne_eq_self (hothers hgid)]
    · have hout : state ∉ group.slts := fun hmem => hgid (h.head.gid state hmem).symm
      have hhead : group.Ok (CodeStudy.Sigslot.clean groups slots state).2 := by
        apply h.head.of_eq
        intro s hs
        apply hrest.slots.others
        intro hmem
        exact h.disjoint s hmem (h.head.gid s hs)
      refine ⟨by simp [hrest.gids], h.cons hrest.gids hhead hrest.placed, ?_, hrest.slots.mono ?_⟩
      · rw [listed_cons, listed_cons, List.filter_append, filter_ne_eq_self hout]
        exact hrest.left.append_left _
      · intro s hs
        exact listed_cons ▸ List.mem_append_right _ hs

/-- The places before the one that was filled are as they were. -/
theorem getElem?_removeAt_of_lt (hi : slts[i]? = some s) (slots : Slots) {j : Nat} (hji : j < i) :
    (removeAt slts slots i).1[j]? = slts[j]? := by
  have hlt := (List.getElem?_eq_some_iff.1 hi).1
  have hend : j ≠ slts.length - 1 := by omega
  have hshort : j < (swapBack slts i).length - 1 := by
    rw [length_swapBack]
    omega
  rw [removeAt, List.getElem?_dropLast, if_pos hshort, getElem?_swapBack hi, if_neg hend, if_neg (Nat.ne_of_lt hji)]

/-- The places before `i` have been looked at. -/
theorem Group.Ok.removeIf {cond : SlotId → Bool} {gid : Int32} (hok : ({ gid, slts } : Group).Ok slots)
    (count : Nat) (hkept : ∀ j < i, ∀ s, slts[j]? = some s → cond s = false) :
    ({ gid, slts := (removeIf cond slts slots i count).1 } : Group).Ok (removeIf cond slts slots i count).2.1 ∧
      Reindexed slts slots (removeIf cond slts slots i count).2.1 ∧
      (removeIf cond slts slots i count).1.Perm (slts.filter fun s => !cond s) ∧
      (removeIf cond slts slots i count).2.2 = count + slts.countP cond := by
  induction slts, slots, i, count using removeIf.induct cond with
  | case1 slts slots i count hi hcond ih =>
    have hget : slts[i]? = some slts[i] := List.getElem?_eq_getElem hi
    have hperm := removeAt_perm hget slots
    obtain ⟨hok', hslots⟩ := hok.removeAt hget
    have hkept' : ∀ j < i, ∀ s, (CodeStudy.Sigslot.removeAt slts slots i).1[j]? = some s → cond s = false := by
      intro j hj s hs
      exact hkept j hj s (getElem?_removeAt_of_lt hget slots hj ▸ hs)
    obtain ⟨hok'', hslots', hleft, hcount⟩ := ih hok' hkept'
    rw [CodeStudy.Sigslot.removeIf, dif_pos hi, if_pos hcond]
    refine ⟨hok'', hslots.trans (hslots'.mono fun s hs => hperm.subset (List.mem_cons_of_mem _ hs)), ?_, ?_⟩
    · have hfilter := hperm.filter fun s => !cond s
      rw [List.filter_cons_of_neg (by simp [hcond])] at hfilter
      exact hleft.trans hfilter
    · rw [hcount, ← hperm.countP_eq, List.countP_cons_of_pos hcond]
      omega
  | case2 slts slots i count hi hcond ih =>
    have hkept' : ∀ j < i + 1, ∀ s, slts[j]? = some s → cond s = false := by
      intro j hj s hs
      by_cases hji : j = i
      · subst hji
        rw [List.getElem?_eq_getElem hi, Option.some.injEq] at hs
        exact hs ▸ Bool.eq_false_iff.2 hcond
      · exact hkept j (by omega) s hs
    rw [CodeStudy.Sigslot.removeIf, dif_pos hi, if_neg hcond]
    exact ih hok hkept'
  | case3 slts slots i count hi =>
    have hall : ∀ s ∈ slts, cond s = false := by
      intro s hs
      obtain ⟨j, hj⟩ := List.mem_iff_getElem?.1 hs
      have hlt := (List.getElem?_eq_some_iff.1 hj).1
      exact hkept j (by omega) s hj
    rw [CodeStudy.Sigslot.removeIf, dif_neg hi]
    refine ⟨hok, Reindexed.refl _ _, ?_, ?_⟩
    · rw [List.filter_eq_self.2]
      intro s hs
      simp [hall s hs]
    · rw [List.countP_eq_zero.2, Nat.add_zero]
      intro s hs
      simp [hall s hs]

theorem Removed.append {removed : SlotId → Bool} {groups' : List Group} (h : Placed (group :: groups) slots)
    (hhead : ({ group with slts } : Group).Ok slots') (hslots : Reindexed group.slts slots slots')
    (hleft : slts.Perm (group.slts.filter fun s => !removed s)) (hrest : Removed groups slots' removed groups' slots'') :
    Removed (group :: groups) slots removed ({ group with slts } :: groups') slots'' := by
  have hsub : ∀ s ∈ slts, s ∈ group.slts := fun s hs => (List.mem_filter.1 (hleft.subset hs)).1
  have hhead' : ({ group with slts } : Group).Ok slots'' := by
    apply hhead.of_eq
    intro s hs
    apply hrest.slots.others
    intro hmem
    exact h.disjoint s hmem (h.head.gid s (hsub s hs))
  refine ⟨by simp [hrest.gids], h.cons hrest.gids hhead' hrest.placed, ?_, ?_⟩
  · rw [listed_cons, listed_cons, List.filter_append]
    exact hleft.append hrest.left
  · apply (hslots.mono _).trans (hrest.slots.mono _)
    · intro s hs
      exact listed_cons ▸ List.mem_append_left _ hs
    · intro s hs
      exact listed_cons ▸ List.mem_append_right _ hs

/-- All the slots for which the condition holds, and no others; they are counted. -/
theorem Placed.disconnectIf (h : Placed groups slots) (cond : SlotId → Bool) (count : Nat) :
    Removed groups slots cond (disconnectIf cond groups slots count).1 (disconnectIf cond groups slots count).2.1 ∧
      (disconnectIf cond groups slots count).2.2 = count + (listed groups).countP cond := by
  induction groups generalizing slots count with
  | nil => exact ⟨⟨rfl, h, List.Perm.refl _, Reindexed.refl _ _⟩, by simp [CodeStudy.Sigslot.disconnectIf, listed]⟩
  | cons group groups ih =>
    have hnone : ∀ j < 0, ∀ s, group.slts[j]? = some s → cond s = false :=
      fun j hj => absurd hj (Nat.not_lt_zero j)
    obtain ⟨hhead, hslots, hleft, hcount⟩ := h.head.removeIf count hnone
    have hout : ∀ s ∈ listed groups, s ∉ group.slts :=
      fun s hs hmem => h.disjoint s hs (h.head.gid s hmem)
    obtain ⟨hrest, hcount'⟩ := ih (h.tail.of_reindexed hslots hout) (removeIf cond group.slts slots 0 count).2.2
    refine ⟨Removed.append h hhead hslots hleft hrest, ?_⟩
    rw [listed_cons, List.countP_append, ← Nat.add_assoc, ← hcount]
    exact hcount'

/-- The slots of a group go, and are counted. -/
theorem Placed.disconnectGroup (h : Placed groups slots) (gid : Int32) :
    Removed groups slots (fun s => (slots s).group == gid) (disconnectGroup groups gid).1 slots ∧
      (disconnectGroup groups gid).2 = (listed groups).countP fun s => (slots s).group == gid := by
  induction groups with
  | nil => exact ⟨⟨rfl, h, List.Perm.refl _, Reindexed.refl _ _⟩, rfl⟩
  | cons group groups ih =>
    unfold CodeStudy.Sigslot.disconnectGroup
    split_ifs with hgid
    · have hall : ∀ s ∈ group.slts, ((slots s).group == gid) = true := by
        intro s hs
        simp [h.head.gid s hs, hgid]
      have hnone : ∀ s ∈ listed groups, ((slots s).group == gid) = false := by
        intro s hs
        simpa [hgid] using h.disjoint s hs
      refine ⟨Removed.append h ⟨by simp, by simp⟩ (Reindexed.refl _ _) ?_
        ⟨rfl, h.tail, ?_, Reindexed.refl _ _⟩, ?_⟩
      · rw [List.filter_eq_nil_iff.2]
        intro s hs
        simp [hall s hs]
      · rw [List.filter_eq_self.2]
        intro s hs
        simp [hnone s hs]
      · rw [listed_cons, List.countP_append, List.countP_eq_length.2 hall, List.countP_eq_zero.2]
        · rfl
        · intro s hs
          simp [hnone s hs]
    · obtain ⟨hrest, hcount⟩ := ih h.tail
      have hnone : ∀ s ∈ group.slts, ((slots s).group == gid) = false := by
        intro s hs
        simpa [h.head.gid s hs] using hgid
      refine ⟨Removed.append h h.head (Reindexed.refl _ _) ?_ hrest, ?_⟩
      · rw [List.filter_eq_self.2]
        intro s hs
        simp [hnone s hs]
      · rw [hcount, listed_cons, List.countP_append, Nat.right_eq_add, List.countP_eq_zero]
        intro s hs
        simp [hnone s hs]

theorem setIndex_group (slots : Slots) (s : SlotId) (i : Nat) (t : SlotId) :
    (slots.setIndex s i t).group = (slots t).group := by
  by_cases hts : t = s
  · rw [hts, Slots.setIndex, Function.update_self]
  · rw [Slots.setIndex, Function.update_of_ne hts]

theorem ok_single (slots : Slots) (s : SlotId) :
    ({ gid := (slots s).group, slts := [s] } : Group).Ok (slots.setIndex s 0) := by
  refine ⟨?_, ?_⟩
  · intro i t ht
    cases i with
    | zero =>
      cases ht
      rw [Slots.setIndex, Function.update_self]
    | succ i => simp at ht
  · intro t ht
    rw [setIndex_group, List.mem_singleton.1 ht]

theorem Group.Ok.push (hok : group.Ok slots) (hgid : group.gid = (slots s).group) (hnew : s ∉ group.slts) :
    ({ group with slts := group.slts ++ [s] } : Group).Ok (slots.setIndex s group.slts.length) := by
  refine ⟨?_, ?_⟩
  · intro i t ht
    rw [List.getElem?_append] at ht
    split_ifs at ht with hi
    · have hne : t ≠ s := fun heq => hnew (heq ▸ List.mem_of_getElem? ht)
      rw [Slots.setIndex, Function.update_of_ne hne]
      exact hok.index i t ht
    · have hlast : i = group.slts.length ∧ t = s := by
        have hlt := (List.getElem?_eq_some_iff.1 ht).1
        rw [List.length_singleton] at hlt
        have hzero : i - group.slts.length = 0 := by omega
        rw [hzero] at ht
        cases ht
        exact ⟨by omega, rfl⟩
      rw [hlast.1, hlast.2, Slots.setIndex, Function.update_self]
  · intro t ht
    rw [setIndex_group]
    rcases List.mem_append.1 ht with ht | ht
    · exact hok.gid t ht
    · rw [List.mem_singleton.1 ht]
      exact hgid.symm

theorem addSlot_gids (groups : List Group) (slots : Slots) (s : SlotId) :
    ∀ group ∈ (addSlot groups slots s).1, group.gid = (slots s).group ∨ ∃ old ∈ groups, group.gid = old.gid := by
  induction groups with
  | nil =>
    intro group hgroup
    rw [List.mem_singleton.1 hgroup]
    exact Or.inl rfl
  | cons group groups ih =>
    intro found hfound
    unfold addSlot at hfound
    split_ifs at hfound with hlt hne
    · rcases List.mem_cons.1 hfound with rfl | hfound
      · exact Or.inr ⟨_, List.mem_cons_self, rfl⟩
      · rcases ih found hfound with heq | ⟨old, hold, heq⟩
        · exact Or.inl heq
        · exact Or.inr ⟨old, List.mem_cons_of_mem _ hold, heq⟩
    · rcases List.mem_cons.1 hfound with rfl | hfound
      · exact Or.inl rfl
      · exact Or.inr ⟨found, hfound, rfl⟩
    · rcases List.mem_cons.1 hfound with rfl | hfound
      · exact Or.inr ⟨group, List.mem_cons_self, rfl⟩
      · exact Or.inr ⟨found, List.mem_cons_of_mem _ hfound, rfl⟩

/-- A new slot comes after the others of its group. -/
theorem Placed.addSlot (h : Placed groups slots) (hnew : s ∉ listed groups) :
    Placed (addSlot groups slots s).1 (addSlot groups slots s).2 ∧
      (listed (addSlot groups slots s).1).Perm (s :: listed groups) ∧
      Reindexed [s] slots (addSlot groups slots s).2 := by
  have hself : s ∈ [s] := List.mem_singleton.2 rfl
  induction groups with
  | nil =>
    refine ⟨⟨List.pairwise_singleton .., ?_⟩, List.Perm.refl _, Reindexed.setIndex hself slots 0⟩
    intro group hgroup
    rw [List.mem_singleton.1 hgroup]
    exact ok_single slots s
  | cons group groups ih =>
    rw [listed_cons, List.mem_append, not_or] at hnew
    obtain ⟨hhead, htail⟩ := hnew
    obtain ⟨hplaced, hperm, hslots⟩ := ih h.tail htail
    have hother : ∀ {slots'}, Reindexed [s] slots slots' → ∀ t, t ≠ s → slots' t = slots t :=
      fun hslots t ht => hslots.others t (fun hmem => ht (List.mem_singleton.1 hmem))
    have hhead' : ∀ {slots'}, Reindexed [s] slots slots' → group.Ok slots' := by
      intro slots' hslots
      apply h.head.of_eq
      intro t ht
      exact hother hslots t (fun heq => hhead (heq ▸ ht))
    unfold CodeStudy.Sigslot.addSlot
    split_ifs with hlt hne
    · refine ⟨⟨List.pairwise_cons.2 ⟨?_, hplaced.ordered⟩, ?_⟩, ?_, hslots⟩
      · intro found hfound
        rcases addSlot_gids groups slots s found hfound with heq | ⟨old, hold, heq⟩
        · exact heq ▸ hlt
        · exact heq ▸ h.head_lt old hold
      · intro found hfound
        rcases List.mem_cons.1 hfound with rfl | hfound
        · exact hhead' hslots
        · exact hplaced.ok found hfound
      · rw [listed_cons, listed_cons]
        exact (hperm.append_left _).trans List.perm_middle
    · have hslots' := Reindexed.setIndex hself slots 0
      have hfirst : (slots s).group < group.gid := (Int32.lt_or_lt_of_ne hne).resolve_left hlt
      refine ⟨⟨List.pairwise_cons.2 ⟨?_, h.ordered⟩, ?_⟩, ?_, hslots'⟩
      · intro found hfound
        rcases List.mem_cons.1 hfound with rfl | hfound
        · exact hfirst
        · exact Int32.lt_trans hfirst (h.head_lt found hfound)
      · intro found hfound
        rcases List.mem_cons.1 hfound with rfl | hfound
        · exact ok_single slots s
        · rcases List.mem_cons.1 hfound with rfl | hfound
          · exact hhead' hslots'
          · exact (h.tail.of_reindexed hslots' fun t ht hmem => htail (List.mem_singleton.1 hmem ▸ ht)).ok found hfound
      · rw [listed_cons, listed_cons]
        exact List.Perm.refl _
    · have hslots' := Reindexed.setIndex hself slots group.slts.length
      have hgid : group.gid = (slots s).group := not_not.1 hne
      have htail' := h.tail.of_reindexed hslots' fun t ht hmem => htail (List.mem_singleton.1 hmem ▸ ht)
      refine ⟨h.cons rfl (h.head.push hgid hhead) htail', ?_, hslots'⟩
      rw [listed_cons, listed_cons, List.append_assoc]
      exact List.perm_middle

/-- Nothing is listed at first. -/
theorem placed_nil (slots : Slots) : Placed [] slots :=
  ⟨List.Pairwise.nil, by simp⟩

/-- The slots of a list in the order of an emission are those of the first group first. -/
theorem Placed.ascending (h : Placed groups slots) :
    (listed groups).Pairwise fun s t => (slots s).group ≤ (slots t).group := by
  induction groups with
  | nil => exact List.Pairwise.nil
  | cons group groups ih =>
    rw [listed_cons, List.pairwise_append]
    refine ⟨?_, ih h.tail, ?_⟩
    · rw [List.pairwise_iff_forall_sublist]
      intro s t hsub
      rw [h.head.gid s (hsub.subset (by simp)), h.head.gid t (hsub.subset (by simp))]
      exact Int32.le_refl _
    · intro s hs t ht
      obtain ⟨other, hother, hmem⟩ := mem_listed.1 ht
      rw [h.head.gid s hs, (h.ok other (List.mem_cons_of_mem _ hother)).gid t hmem]
      exact Int32.le_of_lt (h.head_lt other hother)

end CodeStudy.Sigslot
