import CodeStudy.Base.SharedStore
import Mathlib.Data.Finset.Card

/-!
# Copying on write

The objects of the class `copy_on_write` share payloads that count them. A write through one that is not alone makes
a payload of its own first, and a payload is deleted with the last of its objects.
-/

namespace CodeStudy.Sigslot

variable {H T : Type} [DecidableEq H]

structure Payload (T : Type) where
  count : Nat
  value : T

structure CopyOnWrite (H T : Type) where
  payloads : Nat → Option (Payload T) := fun _ => none
  next : Nat := 0
  live : Finset H := ∅
  /-- The payload of every handle. -/
  data : H → Nat := fun _ => 0

namespace CopyOnWrite

/-- A new value with one handle. -/
def new (s : CopyOnWrite H T) (h : H) (value : T) : CopyOnWrite H T :=
  { payloads := Function.update s.payloads s.next (some ⟨1, value⟩)
    next := s.next + 1
    live := insert h s.live
    data := Function.update s.data h s.next }

def read (s : CopyOnWrite H T) (h : H) : Option T :=
  if h ∈ s.live then (s.payloads (s.data h)).map Payload.value else none

/-- One handle less; the last one frees the payload. -/
def release (s : CopyOnWrite H T) (a : Nat) : Option (CopyOnWrite H T) :=
  match s.payloads a with
  | none => none
  | some payload =>
      let rest := if payload.count - 1 = 0 then none else some { payload with count := payload.count - 1 }
      some { s with payloads := Function.update s.payloads a rest }

def copy (s : CopyOnWrite H T) (h h' : H) : Option (CopyOnWrite H T) :=
  if h ∈ s.live ∧ h' ∉ s.live then
    match s.payloads (s.data h) with
    | none => none
    | some payload =>
        some { s with
          payloads := Function.update s.payloads (s.data h) (some { payload with count := payload.count + 1 })
          live := insert h' s.live
          data := Function.update s.data h' (s.data h) }
  else none

def drop (s : CopyOnWrite H T) (h : H) : Option (CopyOnWrite H T) :=
  if h ∈ s.live then (s.release (s.data h)).map fun s => { s with live := s.live.erase h } else none

/-- The count that decides may go down while the copy is made, so a copy may be made for nothing. -/
def write (copied : Bool) (s : CopyOnWrite H T) (h : H) (value : T) : Option (CopyOnWrite H T) :=
  if h ∈ s.live then
    match s.payloads (s.data h) with
    | none => none
    | some payload =>
        if copied then (s.release (s.data h)).map fun s => s.new h value
        else if payload.count = 1 then
          some { s with payloads := Function.update s.payloads (s.data h) (some { payload with value }) }
        else none
  else none

def store : SharedStore (CopyOnWrite H T) H T where
  read := read
  write := write
  copy := copy
  drop := drop

/-- The handles of a payload. -/
def users (s : CopyOnWrite H T) (a : Nat) : Finset H :=
  s.live.filter fun h => s.data h = a

/-- A payload is there as long as it has handles, and counts them. -/
structure Ok (s : CopyOnWrite H T) : Prop where
  count : ∀ a payload, s.payloads a = some payload → payload.count = (s.users a).card
  freed : ∀ a, s.payloads a = none ↔ s.users a = ∅
  bound : ∀ a, s.payloads a ≠ none → a < s.next

variable {s t : CopyOnWrite H T} {h h' k : H} {a : Nat} {value : T}

omit [DecidableEq H] in
theorem mem_users : h ∈ s.users a ↔ h ∈ s.live ∧ s.data h = a := by
  simp [users]

omit [DecidableEq H] in
theorem Ok.payload_of_mem (hok : s.Ok) (hmem : h ∈ s.live) : ∃ payload, s.payloads (s.data h) = some payload := by
  apply Option.ne_none_iff_exists'.1
  intro hnone
  have hempty := (hok.freed _).1 hnone
  simpa [hempty] using mem_users.2 ⟨hmem, rfl⟩

theorem Ok.read_isSome_iff (hok : s.Ok) : (s.read h).isSome ↔ h ∈ s.live := by
  constructor
  · intro hread
    by_contra hout
    simp [read, hout] at hread
  · intro hmem
    obtain ⟨payload, hpayload⟩ := hok.payload_of_mem hmem
    simp [read, hmem, hpayload]

omit [DecidableEq H] in
theorem Ok.users_next (hok : s.Ok) : s.users s.next = ∅ := by
  rw [← hok.freed]
  by_contra halive
  exact (hok.bound _ halive).ne rfl

/-! ### One handle less -/

/-- The payload without `h`, of which `h` was a handle. -/
theorem Ok.release (hok : s.Ok) (hmem : h ∈ s.live) : ∃ t, s.release (s.data h) = some t ∧
    t.next = s.next ∧ t.live = s.live ∧ t.data = s.data ∧
    (∀ a, a ≠ s.data h → t.payloads a = s.payloads a) ∧
    (t.payloads (s.data h) = none ↔ (s.users (s.data h)).erase h = ∅) ∧
    (∀ payload, t.payloads (s.data h) = some payload →
      payload.count = ((s.users (s.data h)).erase h).card ∧
      (s.payloads (s.data h)).map Payload.value = some payload.value) := by
  obtain ⟨payload, hpayload⟩ := hok.payload_of_mem hmem
  have huser : h ∈ s.users (s.data h) := mem_users.2 ⟨hmem, rfl⟩
  have hcard := Finset.card_erase_of_mem huser
  have hcount := hok.count _ _ hpayload
  refine ⟨{ s with
    payloads := Function.update s.payloads (s.data h)
      (if payload.count - 1 = 0 then none else some { payload with count := payload.count - 1 }) },
    by simp only [CopyOnWrite.release, hpayload], rfl, rfl, rfl, ?_, ?_, ?_⟩
  · intro a ha
    exact Function.update_of_ne ha ..
  · rw [← Finset.card_eq_zero, hcard, ← hcount]
    by_cases hzero : payload.count - 1 = 0
    · simp [hzero]
    · simp [hzero]
  · intro rest hrest
    simp only [Function.update_self] at hrest
    split_ifs at hrest with hzero
    cases hrest
    rw [hcard, hcount, hpayload]
    exact ⟨rfl, rfl⟩

/-! ### The operations -/

theorem Ok.drop (hok : s.Ok) (hmem : h ∈ s.live) : ∃ t, s.drop h = some t ∧ t.Ok ∧
    t.read h = none ∧ ∀ k ≠ h, t.read k = s.read k := by
  obtain ⟨t, hrun, hnext, hlive, hdata, hother, hnone, hsome⟩ := hok.release hmem
  have husers : ∀ a, ({ t with live := t.live.erase h } : CopyOnWrite H T).users a = (s.users a).erase h := by
    intro a
    ext k
    simp only [mem_users, hlive, hdata, Finset.mem_erase]
    tauto
  have herase : ∀ a, a ≠ s.data h → (s.users a).erase h = s.users a := by
    intro a ha
    apply Finset.erase_eq_of_notMem
    intro huser
    exact ha (mem_users.1 huser).2.symm
  refine ⟨{ t with live := t.live.erase h }, by simp only [CopyOnWrite.drop, if_pos hmem, hrun, Option.map_some],
    ⟨?_, ?_, ?_⟩, ?_, ?_⟩
  · intro a payload hpayload
    rw [husers]
    by_cases ha : a = s.data h
    · subst ha
      exact (hsome payload hpayload).1
    · rw [herase a ha]
      exact hok.count a payload ((hother a ha).symm.trans hpayload)
  · intro a
    rw [husers]
    by_cases ha : a = s.data h
    · subst ha
      exact hnone
    · rw [herase a ha, ← hok.freed a, ← hother a ha]
  · intro a ha
    show a < t.next
    rw [hnext]
    apply hok.bound
    intro hgone
    by_cases heq : a = s.data h
    · subst heq
      obtain ⟨payload, hpayload⟩ := hok.payload_of_mem hmem
      simp [hpayload] at hgone
    · exact ha ((hother a heq).trans hgone)
  · simp [read]
  · intro k hk
    by_cases hkmem : k ∈ s.live
    · simp only [read, hlive, hdata, Finset.mem_erase, ne_eq, hk, not_false_eq_true, hkmem, and_self, if_true]
      by_cases heq : s.data k = s.data h
      · have hkeep : k ∈ (s.users (s.data h)).erase h := Finset.mem_erase.2 ⟨hk, mem_users.2 ⟨hkmem, heq⟩⟩
        have halive : t.payloads (s.data h) ≠ none := by
          intro hgone
          simp [hnone.1 hgone] at hkeep
        obtain ⟨payload, hpayload⟩ := Option.ne_none_iff_exists'.1 halive
        rw [heq, hpayload, (hsome payload hpayload).2, Option.map_some]
      · rw [hother _ heq]
    · simp [read, hlive, hkmem]

theorem Ok.copy (hok : s.Ok) (hmem : h ∈ s.live) (hnew : h' ∉ s.live) : ∃ t, s.copy h h' = some t ∧ t.Ok ∧
    t.read h' = s.read h ∧ ∀ k ≠ h', t.read k = s.read k := by
  obtain ⟨payload, hpayload⟩ := hok.payload_of_mem hmem
  set t : CopyOnWrite H T := { s with
    payloads := Function.update s.payloads (s.data h) (some { payload with count := payload.count + 1 })
    live := insert h' s.live
    data := Function.update s.data h' (s.data h) } with ht
  have hself : t.users (s.data h) = insert h' (s.users (s.data h)) := by
    ext k
    by_cases hk : k = h'
    · simp [mem_users, ht, hk]
    · simp [mem_users, ht, hk]
  have hother : ∀ a, a ≠ s.data h → t.users a = s.users a := by
    intro a ha
    ext k
    by_cases hk : k = h'
    · simp [mem_users, ht, hk, hnew, ha.symm]
    · simp [mem_users, ht, hk]
  have hout : h' ∉ s.users (s.data h) := fun huser => hnew (mem_users.1 huser).1
  have hpayloads : ∀ a, a ≠ s.data h → t.payloads a = s.payloads a := fun a ha => Function.update_of_ne ha ..
  have hown : t.payloads (s.data h) = some { payload with count := payload.count + 1 } := Function.update_self ..
  have hvalue : ∀ a, (t.payloads a).map Payload.value = (s.payloads a).map Payload.value := by
    intro a
    by_cases ha : a = s.data h
    · subst ha
      rw [hown, hpayload]
      rfl
    · rw [hpayloads a ha]
  refine ⟨t, by simp only [CopyOnWrite.copy, hmem, hnew, not_false_eq_true, and_self, if_true, hpayload, ht],
    ⟨?_, ?_, ?_⟩, ?_, ?_⟩
  · intro a found hfound
    by_cases ha : a = s.data h
    · subst ha
      rw [hown] at hfound
      cases hfound
      rw [hself, Finset.card_insert_of_notMem hout, hok.count _ _ hpayload]
    · rw [hother a ha]
      exact hok.count a found ((hpayloads a ha).symm.trans hfound)
  · intro a
    by_cases ha : a = s.data h
    · subst ha
      simp [hown, hself]
    · rw [hother a ha, hpayloads a ha]
      exact hok.freed a
  · intro a ha
    apply hok.bound
    intro hgone
    by_cases heq : a = s.data h
    · subst heq
      simp [hpayload] at hgone
    · exact ha ((hpayloads a heq).trans hgone)
  · have hmem' : h' ∈ t.live := Finset.mem_insert_self h' s.live
    have hdata : t.data h' = s.data h := Function.update_self ..
    rw [read, if_pos hmem', hdata, hvalue, read, if_pos hmem]
  · intro k hk
    have hlive : k ∈ t.live ↔ k ∈ s.live := by simp [ht, hk]
    have hdata : t.data k = s.data k := Function.update_of_ne hk ..
    simp only [read, hlive, hdata, hvalue]

/-- In place, when the payload has no other handle. -/
theorem Ok.writeAlone (hok : s.Ok) (hmem : h ∈ s.live) {payload : Payload T}
    (hpayload : s.payloads (s.data h) = some payload) (halone : payload.count = 1) :
    ({ s with payloads := Function.update s.payloads (s.data h) (some { payload with value }) } : CopyOnWrite H T).Ok ∧
      ({ s with payloads := Function.update s.payloads (s.data h) (some { payload with value }) } :
        CopyOnWrite H T).read h = some value ∧
      ∀ k ≠ h, ({ s with payloads := Function.update s.payloads (s.data h) (some { payload with value }) } :
        CopyOnWrite H T).read k = s.read k := by
  have husers : s.users (s.data h) = {h} := by
    have hcard := hok.count _ _ hpayload
    rw [halone] at hcard
    obtain ⟨k, hk⟩ := Finset.card_eq_one.1 hcard.symm
    have huser : h ∈ s.users (s.data h) := mem_users.2 ⟨hmem, rfl⟩
    rw [hk, Finset.mem_singleton] at huser
    rw [hk, huser]
  refine ⟨⟨?_, ?_, ?_⟩, ?_, ?_⟩
  · intro a found hfound
    show found.count = (s.users a).card
    by_cases ha : a = s.data h
    · subst ha
      simp only [Function.update_self, Option.some.injEq] at hfound
      rw [← hfound, ← hok.count _ _ hpayload]
    · exact hok.count a found (by simpa [ha] using hfound)
  · intro a
    show _ ↔ s.users a = ∅
    by_cases ha : a = s.data h
    · subst ha
      simp [husers]
    · simpa [ha] using hok.freed a
  · intro a ha
    apply hok.bound
    intro hgone
    by_cases heq : a = s.data h
    · subst heq
      simp [hpayload] at hgone
    · exact ha (by simpa [heq] using hgone)
  · simp [read, hmem]
  · intro k hk
    by_cases hkmem : k ∈ s.live
    · have hne : s.data k ≠ s.data h := by
        intro heq
        have huser : k ∈ s.users (s.data h) := mem_users.2 ⟨hkmem, heq⟩
        rw [husers, Finset.mem_singleton] at huser
        exact hk huser
      simp [read, hkmem, hne]
    · simp [read, hkmem]

/-- In a payload of its own, after the old one lost the handle. -/
theorem Ok.writeCopy (hok : s.Ok) (hmem : h ∈ s.live) : ∃ t, s.write true h value = some t ∧ t.Ok ∧
    t.read h = some value ∧ ∀ k ≠ h, t.read k = s.read k := by
  obtain ⟨payload, hpayload⟩ := hok.payload_of_mem hmem
  obtain ⟨u, hrun, hu, hdropped, hothers⟩ := hok.drop hmem
  obtain ⟨t, hrelease, hlive⟩ : ∃ t, s.release (s.data h) = some t ∧ u = { t with live := t.live.erase h } := by
    simp only [CopyOnWrite.drop, if_pos hmem, Option.map_eq_some_iff] at hrun
    obtain ⟨t, ht, heq⟩ := hrun
    exact ⟨t, ht, heq.symm⟩
  subst hlive
  have hnext : t.payloads t.next = none := (hu.freed _).2 hu.users_next
  have hnew : ∀ a, a ≠ t.next → (t.new h value).users a = ({ t with live := t.live.erase h } : CopyOnWrite H T).users a := by
    intro a ha
    ext k
    by_cases hk : k = h
    · simp [mem_users, new, hk, ha.symm]
    · simp [mem_users, new, hk]
  have hself : (t.new h value).users t.next = {h} := by
    ext k
    by_cases hk : k = h
    · simp [mem_users, new, hk]
    · have hout : k ∉ ({ t with live := t.live.erase h } : CopyOnWrite H T).users t.next := by
        have hempty : ({ t with live := t.live.erase h } : CopyOnWrite H T).users t.next = ∅ := hu.users_next
        simp [hempty]
      simpa [mem_users, new, hk] using hout
  have hpayloads : ∀ a, a ≠ t.next → (t.new h value).payloads a = t.payloads a := fun a ha => Function.update_of_ne ha ..
  have hfresh : (t.new h value).payloads t.next = some ⟨1, value⟩ := Function.update_self ..
  refine ⟨t.new h value, by simp [CopyOnWrite.write, hmem, hpayload, hrelease], ⟨?_, ?_, ?_⟩, ?_, ?_⟩
  · intro a found hfound
    by_cases ha : a = t.next
    · subst ha
      rw [hfresh] at hfound
      cases hfound
      rw [hself, Finset.card_singleton]
    · rw [hnew a ha]
      exact hu.count a found ((hpayloads a ha).symm.trans hfound)
  · intro a
    by_cases ha : a = t.next
    · subst ha
      simp [hfresh, hself]
    · rw [hnew a ha, hpayloads a ha]
      exact hu.freed a
  · intro a ha
    by_cases heq : a = t.next
    · exact heq ▸ Nat.lt_succ_self _
    · rw [hpayloads a heq] at ha
      exact Nat.lt_succ_of_lt (hu.bound a ha)
  · simp [read, new]
  · intro k hk
    rw [← hothers k hk]
    by_cases hkmem : k ∈ t.live
    · have hne : t.data k ≠ t.next := by
        intro heq
        have huser : k ∈ ({ t with live := t.live.erase h } : CopyOnWrite H T).users t.next :=
          mem_users.2 ⟨Finset.mem_erase.2 ⟨hk, hkmem⟩, heq⟩
        have hempty : ({ t with live := t.live.erase h } : CopyOnWrite H T).users t.next = ∅ := hu.users_next
        simp [hempty] at huser
      simp [read, new, hk, hkmem, hne]
    · simp [read, new, hk, hkmem]

theorem store_lawful : (store : SharedStore (CopyOnWrite H T) H T).Lawful Ok := by
  refine ⟨?_, ?_, ?_, ?_, ?_, ?_⟩
  · intro choice s h value t hok hwrite
    have hwrite : s.write choice h value = some t := hwrite
    have hmem : h ∈ s.live := by
      by_contra hout
      simp [CopyOnWrite.write, hout] at hwrite
    have hsome : (s.read h).isSome := hok.read_isSome_iff.2 hmem
    cases choice with
    | true =>
      obtain ⟨u, hrun, hoku, hread⟩ := hok.writeCopy hmem
      rw [hrun, Option.some.injEq] at hwrite
      exact hwrite ▸ ⟨hoku, hsome, hread⟩
    | false =>
      obtain ⟨payload, hpayload⟩ := hok.payload_of_mem hmem
      by_cases halone : payload.count = 1
      · obtain ⟨hoku, hread⟩ := hok.writeAlone hmem hpayload halone
        simp only [CopyOnWrite.write, hmem, hpayload, halone, if_true, Bool.false_eq_true, if_false,
          Option.some.injEq] at hwrite
        rw [halone] at hoku hread
        exact hwrite ▸ ⟨hoku, hsome, hread⟩
      · simp [CopyOnWrite.write, hmem, hpayload, halone] at hwrite
  · intro s h h' t hok hcopy
    have hcopy : s.copy h h' = some t := hcopy
    have hmem : h ∈ s.live ∧ h' ∉ s.live := by
      by_contra hout
      simp [CopyOnWrite.copy, hout] at hcopy
    have hsome : (s.read h).isSome := hok.read_isSome_iff.2 hmem.1
    have hnone : s.read h' = none := by simp [read, hmem.2]
    obtain ⟨u, hrun, hoku, hread⟩ := hok.copy hmem.1 hmem.2
    rw [hrun, Option.some.injEq] at hcopy
    exact hcopy ▸ ⟨hoku, ⟨hsome, hnone⟩, hread⟩
  · intro s h t hok hdrop
    have hdrop : s.drop h = some t := hdrop
    have hmem : h ∈ s.live := by
      by_contra hout
      simp [CopyOnWrite.drop, hout] at hdrop
    have hsome : (s.read h).isSome := hok.read_isSome_iff.2 hmem
    obtain ⟨u, hrun, hoku, hread⟩ := hok.drop hmem
    rw [hrun, Option.some.injEq] at hdrop
    exact hdrop ▸ ⟨hoku, hsome, hread⟩
  · intro s h hok hread value
    obtain ⟨t, hrun, -⟩ := hok.writeCopy (hok.read_isSome_iff.1 hread)
    exact ⟨true, Option.isSome_of_eq_some hrun⟩
  · intro s h h' hok hread hnone
    have hout : h' ∉ s.live := by
      intro hmem
      have hsome := hok.read_isSome_iff.2 hmem
      have hnone : s.read h' = none := hnone
      simp [hnone] at hsome
    obtain ⟨t, hrun, -⟩ := hok.copy (hok.read_isSome_iff.1 hread) hout
    exact Option.isSome_of_eq_some hrun
  · intro s h hok hread
    obtain ⟨t, hrun, -⟩ := hok.drop (hok.read_isSome_iff.1 hread)
    exact Option.isSome_of_eq_some hrun

/-- A default-constructed object. -/
def start (h : H) (value : T) : CopyOnWrite H T :=
  ({} : CopyOnWrite H T).new h value

theorem start_ok (h : H) (value : T) : (start h value).Ok := by
  have hself : (start h value).users 0 = {h} := by
    ext k
    by_cases hk : k = h <;> simp [mem_users, start, new, hk]
  have hother : ∀ a, a ≠ 0 → (start h value).users a = ∅ := by
    intro a ha
    ext k
    simp only [mem_users, start, new, Finset.notMem_empty, iff_false, not_and]
    intro hk
    simp only [insert_empty_eq, Finset.mem_singleton] at hk
    simpa [hk] using ha.symm
  refine ⟨?_, ?_, ?_⟩
  · intro a payload hpayload
    by_cases ha : a = 0
    · subst ha
      simp only [start, new, Function.update_self, Option.some.injEq] at hpayload
      rw [hself, ← hpayload, Finset.card_singleton]
    · simp [start, new, ha] at hpayload
  · intro a
    by_cases ha : a = 0
    · subst ha
      rw [hself]
      simp [start, new]
    · rw [hother a ha]
      simp [start, new, ha]
  · intro a ha
    by_cases hzero : a = 0
    · exact hzero ▸ Nat.zero_lt_one
    · simp [start, new, hzero] at ha

theorem read_start (h : H) (value : T) : (start h value).read = fun k => if k = h then some value else none := by
  funext k
  by_cases hk : k = h
  · simp [read, start, new, hk]
  · simp [read, start, new, hk]

/-- Whatever is copied, written and dropped, an object reads as if it had a value of its own, and a payload counts its
objects and is there as long as it has one. -/
theorem run_ownValues {h : H} {value : T} {ops : List (SharedStore.Op H T)} {t : CopyOnWrite H T}
    (hrun : store.run (start h value) ops = some t) :
    ownValues.run (fun k => if k = h then some value else none) ops = some t.read ∧
      (∀ k ∈ t.live, ∃ payload, t.payloads (t.data k) = some payload) ∧
      ∀ a, (t.payloads a).map Payload.count =
        if (t.users a).card = 0 then none else some (t.users a).card := by
  obtain ⟨hok, hread⟩ := store_lawful.run_read (start_ok h value) hrun
  rw [← read_start]
  refine ⟨hread, fun k hk => hok.payload_of_mem hk, ?_⟩
  intro a
  split_ifs with hcard
  · rw [(hok.freed a).2 (Finset.card_eq_zero.1 hcard), Option.map_none]
  · have halive : t.payloads a ≠ none := fun hnone => hcard (Finset.card_eq_zero.2 ((hok.freed a).1 hnone))
    obtain ⟨payload, hpayload⟩ := Option.ne_none_iff_exists'.1 halive
    rw [hpayload, Option.map_some, hok.count a payload hpayload]

/-- A second object is made, and the first written while they share a payload. -/
theorem run_ownValues_twoObjects : ∃ t : CopyOnWrite Bool Nat,
    store.run (start true 0) [.copy true false, .write true true 5, .drop false] = some t ∧
      ownValues.run (fun k => if k = true then some 0 else none) [.copy true false, .write true true 5, .drop false] =
        some t.read :=
  ⟨_, rfl, (run_ownValues rfl).1⟩

end CopyOnWrite

end CodeStudy.Sigslot
