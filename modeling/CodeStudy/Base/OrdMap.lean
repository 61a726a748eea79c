import Mathlib.Algebra.GroupWithZero.Nat
import Mathlib.Order.Lattice
import Mathlib.Data.List.Basic
import Mathlib.Algebra.BigOperators.Group.List.Basic

/-!
# Ordered maps

A map kept as its entries in increasing order of keys, the way a balanced tree presents itself to a
program that inserts, erases, looks up and walks the entries from the first to the last. The order
is a field of the structure, so every map has one entry a key, and an entry is in the map exactly
when its key looks it up.

The weight of a map is the sum of a measure over its values. Inserting adds at most the measure of
the new value, erasing an entry takes off exactly the measure of the old one.
-/

namespace CodeStudy

structure OrdMap (κ α : Type) [LinearOrder κ] where
  entries : List (κ × α)
  sorted : entries.Pairwise fun a b => a.1 < b.1

namespace OrdMap

variable {κ α : Type} [LinearOrder κ]

def empty : OrdMap κ α := ⟨[], List.Pairwise.nil⟩

instance : EmptyCollection (OrdMap κ α) := ⟨empty⟩

/-- Walk past the smaller keys, then replace the entry of the key or put a new one before the rest. -/
def insertEntry (key : κ) (value : α) : List (κ × α) → List (κ × α)
  | [] => [(key, value)]
  | entry :: rest =>
      if entry.1 < key then entry :: insertEntry key value rest
      else if entry.1 = key then (key, value) :: rest
      else (key, value) :: entry :: rest

def lookupEntry (query : κ) : List (κ × α) → Option α
  | [] => none
  | entry :: rest => if entry.1 = query then some entry.2 else lookupEntry query rest

theorem mem_insertEntry {key : κ} {value : α} {l : List (κ × α)} {e : κ × α}
    (he : e ∈ insertEntry key value l) : e = (key, value) ∨ e ∈ l := by
  induction l with
  | nil => exact Or.inl (by simpa [insertEntry] using he)
  | cons entry rest ih =>
      unfold insertEntry at he
      split_ifs at he
      · rcases List.mem_cons.mp he with rfl | he
        · exact Or.inr List.mem_cons_self
        · exact (ih he).imp id (List.mem_cons_of_mem _)
      · rcases List.mem_cons.mp he with rfl | he
        · exact Or.inl rfl
        · exact Or.inr (List.mem_cons_of_mem _ he)
      · rcases List.mem_cons.mp he with rfl | he
        · exact Or.inl rfl
        · exact Or.inr he

/-- A new key takes no other entry's place. -/
theorem mem_insertEntry_of_lookupEntry {key : κ} {value : α} {l : List (κ × α)} (h : lookupEntry key l = none)
    (e : κ × α) : e ∈ insertEntry key value l ↔ e = (key, value) ∨ e ∈ l := by
  induction l with
  | nil => simp [insertEntry]
  | cons entry rest ih =>
      rw [lookupEntry] at h
      split_ifs at h with hkey
      unfold insertEntry
      rw [if_neg hkey]
      split_ifs with hlt
      · rw [List.mem_cons, ih h, List.mem_cons]
        exact or_left_comm
      · exact List.mem_cons

theorem mem_of_lookupEntry {query : κ} {value : α} {l : List (κ × α)} (h : lookupEntry query l = some value) :
    (query, value) ∈ l := by
  induction l with
  | nil => cases h
  | cons entry rest ih =>
      rw [lookupEntry] at h
      split_ifs at h with hkey
      · obtain rfl := Option.some.inj h
        exact hkey ▸ List.mem_cons_self
      · exact List.mem_cons_of_mem _ (ih h)

theorem insertEntry_sorted (key : κ) (value : α) {l : List (κ × α)}
    (hl : l.Pairwise fun a b => a.1 < b.1) :
    (insertEntry key value l).Pairwise fun a b => a.1 < b.1 := by
  induction l with
  | nil => simp [insertEntry]
  | cons entry rest ih =>
      obtain ⟨hfirst, hrest⟩ := List.pairwise_cons.mp hl
      unfold insertEntry
      split_ifs with hlt heq
      · refine List.pairwise_cons.mpr ⟨fun e he => ?_, ih hrest⟩
        rcases mem_insertEntry he with rfl | he
        · exact hlt
        · exact hfirst e he
      · exact List.pairwise_cons.mpr ⟨fun e he => heq ▸ hfirst e he, hrest⟩
      · have hgt : key < entry.1 := lt_of_le_of_ne (not_lt.mp hlt) (Ne.symm heq)
        refine List.pairwise_cons.mpr ⟨fun e he => ?_, hl⟩
        rcases List.mem_cons.mp he with rfl | he
        · exact hgt
        · exact hgt.trans (hfirst e he)

def insert (m : OrdMap κ α) (key : κ) (value : α) : OrdMap κ α :=
  ⟨insertEntry key value m.entries, insertEntry_sorted key value m.sorted⟩

def erase (m : OrdMap κ α) (key : κ) : OrdMap κ α :=
  ⟨m.entries.filter fun e => e.1 ≠ key, m.sorted.filter _⟩

def lookup (m : OrdMap κ α) (key : κ) : Option α := lookupEntry key m.entries

def values (m : OrdMap κ α) : List α := m.entries.map Prod.snd

theorem ext_entries {m n : OrdMap κ α} (h : m.entries = n.entries) : m = n := by
  cases m
  cases n
  congr

/-! ### Lookup -/

@[simp] theorem lookup_empty (key : κ) : (∅ : OrdMap κ α).lookup key = none := rfl

theorem entries_empty : (∅ : OrdMap κ α).entries = [] := rfl

theorem lookup_insertEntry (key : κ) (value : α) (l : List (κ × α)) (query : κ) :
    lookupEntry query (insertEntry key value l) =
      if query = key then some value else lookupEntry query l := by
  induction l with
  | nil => simp [insertEntry, lookupEntry, eq_comm]
  | cons entry rest ih =>
      unfold insertEntry
      by_cases hlt : entry.1 < key
      · rw [if_pos hlt, lookupEntry, lookupEntry, ih]
        split_ifs with hentry hq
        · exact absurd (hentry.trans hq) hlt.ne
        all_goals rfl
      · rw [if_neg hlt]
        by_cases hq : query = key
        · split_ifs <;> simp [lookupEntry, hq]
        · split_ifs with hkey
          · rw [lookupEntry, lookupEntry, if_neg (Ne.symm hq), hkey, if_neg (Ne.symm hq)]
          · rw [lookupEntry, if_neg (Ne.symm hq)]

theorem lookup_insert (m : OrdMap κ α) (key : κ) (value : α) (query : κ) :
    (m.insert key value).lookup query = if query = key then some value else m.lookup query :=
  lookup_insertEntry key value m.entries query

@[simp] theorem lookup_insert_self (m : OrdMap κ α) (key : κ) (value : α) :
    (m.insert key value).lookup key = some value := by
  simp [lookup_insert]

private theorem lookup_filter (key query : κ) (l : List (κ × α)) :
    lookupEntry query (l.filter fun e => e.1 ≠ key) =
      if query = key then none else lookupEntry query l := by
  induction l with
  | nil => simp [lookupEntry]
  | cons entry rest ih =>
      by_cases hk : entry.1 = key
      · rw [List.filter_cons_of_neg (by simpa using hk), ih]
        split_ifs with hq
        · rfl
        · rw [lookupEntry, if_neg (fun he => hq (he.symm.trans hk))]
      · rw [List.filter_cons_of_pos (by simpa using hk), lookupEntry, ih]
        by_cases hq : entry.1 = query
        · rw [if_pos hq, if_neg (fun he => hk (hq.trans he)), lookupEntry, if_pos hq]
        · rw [if_neg hq, lookupEntry, if_neg hq]

theorem lookup_erase (m : OrdMap κ α) (key query : κ) :
    (m.erase key).lookup query = if query = key then none else m.lookup query :=
  lookup_filter key query m.entries

theorem mem_entries_iff (m : OrdMap κ α) (key : κ) (value : α) :
    (key, value) ∈ m.entries ↔ m.lookup key = some value := by
  obtain ⟨l, hl⟩ := m
  simp only [lookup]
  induction l with
  | nil => simp [lookupEntry]
  | cons entry rest ih =>
      obtain ⟨hfirst, hrest⟩ := List.pairwise_cons.mp hl
      rw [List.mem_cons, lookupEntry, ih hrest]
      by_cases hk : entry.1 = key
      · have hnot : lookupEntry key rest ≠ some value := fun h =>
          lt_irrefl _ (hk ▸ hfirst _ ((ih hrest).mpr h))
        rw [if_pos hk, or_iff_left hnot, Option.some.injEq, Prod.ext_iff]
        exact ⟨fun h => h.2.symm, fun h => ⟨hk.symm, h.symm⟩⟩
      · have hne : (key, value) ≠ entry := fun h => hk (h ▸ rfl)
        simp only [hne, false_or, if_neg hk]

theorem eq_empty_iff (m : OrdMap κ α) : m = ∅ ↔ ∀ key, m.lookup key = none := by
  refine ⟨fun h key => by rw [h, lookup_empty], fun h => ext_entries ?_⟩
  refine List.eq_nil_iff_forall_not_mem.mpr fun entry hentry => ?_
  have hlookup := (m.mem_entries_iff entry.1 entry.2).mp hentry
  rw [h] at hlookup
  exact Option.some_ne_none _ hlookup.symm

/-! ### Walking from the first entry -/

theorem entries_erase_head {m : OrdMap κ α} {entry : κ × α} {rest : List (κ × α)}
    (h : m.entries = entry :: rest) : (m.erase entry.1).entries = rest := by
  have hsorted := m.sorted
  rw [h] at hsorted
  have hkeep : rest.filter (fun e => e.1 ≠ entry.1) = rest := by
    apply List.filter_eq_self.mpr
    intro e he
    simpa using ((List.pairwise_cons.mp hsorted).1 e he).ne'
  show m.entries.filter (fun e => e.1 ≠ entry.1) = rest
  rw [h, List.filter_cons_of_neg (by simp), hkeep]

theorem entries_insert_least {m : OrdMap κ α} {key : κ} (h : ∀ e ∈ m.entries, key < e.1)
    (value : α) : (m.insert key value).entries = (key, value) :: m.entries := by
  show insertEntry key value m.entries = (key, value) :: m.entries
  cases hentries : m.entries with
  | nil => rfl
  | cons entry rest =>
      have hlt : key < entry.1 := h entry (by rw [hentries]; exact List.mem_cons_self)
      rw [insertEntry, if_neg hlt.not_gt, if_neg hlt.ne']

theorem entries_insert_of_empty {m : OrdMap κ α} (h : m.entries = []) (key : κ) (value : α) :
    (m.insert key value).entries = [(key, value)] := by
  rw [entries_insert_least (by simp [h]), h]

/-- A lookup in a map of one entry finds that entry. -/
theorem lookup_of_single {m : OrdMap κ α} {entry : κ × α} {key : κ} {value : α} (h : m.entries = [entry])
    (hlookup : m.lookup key = some value) : entry = (key, value) ∧ (m.erase key).entries = [] := by
  have hmem := (m.mem_entries_iff key value).mpr hlookup
  rw [h, List.mem_singleton] at hmem
  refine ⟨hmem.symm, ?_⟩
  rw [← hmem] at h
  exact entries_erase_head h

theorem not_lookup_of_empty {m : OrdMap κ α} {key : κ} {value : α} (h : m.entries = []) :
    m.lookup key ≠ some value := by
  intro hlookup
  have hmem := (m.mem_entries_iff key value).mpr hlookup
  rw [h] at hmem
  cases hmem

/-- The entries before a given one are those with smaller keys. -/
theorem mem_left_iff_lt {m : OrdMap κ α} {left later : List (κ × α)} {middle : κ × α}
    (h : m.entries = left ++ middle :: later) {entry : κ × α} (hentry : entry ∈ m.entries) :
    entry ∈ left ↔ entry.1 < middle.1 := by
  have hsorted := m.sorted
  rw [h] at hsorted hentry
  obtain ⟨-, hright, hleft⟩ := List.pairwise_append.mp hsorted
  constructor
  · exact fun hmem => hleft entry hmem middle List.mem_cons_self
  · intro hlt
    rcases List.mem_append.mp hentry with hmem | hmem
    · exact hmem
    · rcases List.mem_cons.mp hmem with rfl | hmem
      · exact absurd hlt (lt_irrefl _)
      · exact absurd hlt ((List.pairwise_cons.mp hright).1 entry hmem).not_gt

/-! ### The values as a whole -/

private theorem perm_insertEntry {key : κ} {l : List (κ × α)} (h : lookupEntry key l = none) (value : α) :
    ((insertEntry key value l).map Prod.snd).Perm (value :: l.map Prod.snd) := by
  induction l with
  | nil => exact .refl _
  | cons entry rest ih =>
      unfold lookupEntry at h
      split_ifs at h with hkey
      unfold insertEntry
      split_ifs
      · exact ((ih h).cons entry.2).trans (.swap value entry.2 _)
      · exact .refl _

/-- A value under a new key comes in addition to the others. -/
theorem perm_values_insert {m : OrdMap κ α} {key : κ} (h : m.lookup key = none) (value : α) :
    (m.insert key value).values.Perm (value :: m.values) :=
  perm_insertEntry h value

/-- An entry that is erased is the only one that goes. -/
theorem perm_values_erase {m : OrdMap κ α} {key : κ} {value : α} (h : m.lookup key = some value) :
    m.values.Perm (value :: (m.erase key).values) := by
  obtain ⟨l, hl⟩ := m
  simp only [lookup, values, erase] at h ⊢
  induction l with
  | nil => cases h
  | cons entry rest ih =>
      obtain ⟨hfirst, hrest⟩ := List.pairwise_cons.mp hl
      unfold lookupEntry at h
      split_ifs at h with hkey
      · have hkeep : rest.filter (fun e => e.1 ≠ key) = rest := by
          refine List.filter_eq_self.mpr fun e he => ?_
          simpa [hkey] using (hfirst e he).ne'
        rw [List.filter_cons_of_neg (by simpa using hkey), hkeep, List.map_cons, Option.some.inj h]
      · rw [List.filter_cons_of_pos (by simpa using hkey), List.map_cons, List.map_cons]
        exact ((ih hrest h).cons entry.2).trans (.swap value entry.2 _)

/-! ### Weight -/

/-- The sum of a measure over the values of the map. -/
def weight (m : OrdMap κ α) (f : α → Nat) : Nat := (m.values.map f).sum

private theorem weight_insertEntry_le (key : κ) (value : α) (f : α → Nat) (l : List (κ × α)) :
    (((insertEntry key value l).map Prod.snd).map f).sum ≤ ((l.map Prod.snd).map f).sum + f value := by
  induction l with
  | nil => simp [insertEntry]
  | cons entry rest ih =>
      unfold insertEntry
      split_ifs
      · simp only [List.map_cons, List.sum_cons]
        omega
      · simp only [List.map_cons, List.sum_cons]
        omega
      · simp only [List.map_cons, List.sum_cons]
        omega

theorem weight_insert_le (m : OrdMap κ α) (key : κ) (value : α) (f : α → Nat) :
    (m.insert key value).weight f ≤ m.weight f + f value :=
  weight_insertEntry_le key value f m.entries

theorem weight_erase (m : OrdMap κ α) {key : κ} {value : α} (f : α → Nat)
    (h : m.lookup key = some value) : (m.erase key).weight f + f value = m.weight f := by
  obtain ⟨l, hl⟩ := m
  simp only [weight, values, erase, lookup] at h ⊢
  induction l with
  | nil => simp [lookupEntry] at h
  | cons entry rest ih =>
      obtain ⟨k, v⟩ := entry
      obtain ⟨hfirst, hrest⟩ := List.pairwise_cons.mp hl
      by_cases hk : k = key
      · subst hk
        have hv : v = value := by simpa [lookupEntry] using h
        have hkeep : rest.filter (fun e => e.1 ≠ k) = rest := by
          refine List.filter_eq_self.mpr fun e he => ?_
          simpa using (hfirst e he).ne'
        subst hv
        rw [List.filter_cons_of_neg (by simp), hkeep]
        simp [Nat.add_comm]
      · have ih := ih hrest (by simpa [lookupEntry, hk] using h)
        rw [List.filter_cons_of_pos (by simpa using hk)]
        simp only [List.map_cons, List.sum_cons]
        omega

end OrdMap

end CodeStudy
