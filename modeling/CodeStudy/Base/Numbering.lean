import Mathlib.Algebra.GroupWithZero.Nat
import Mathlib.Data.List.Basic

/-!
# Consecutive numbers

Items that take their numbers from a counter: each gets the counter's value and moves it on by its
span. The ranges of numbers follow each other without gaps, so no two of them meet.
-/

namespace CodeStudy

section

variable {α : Type} (number span : α → Nat)

/-- The numbers taken by some items. -/
def spanSum (items : List α) : Nat := (items.map span).sum

/-- The items have consecutive numbers from `first` on. -/
def Numbered : Nat → List α → Prop
  | _, [] => True
  | first, item :: items => number item = first ∧ Numbered (first + span item) items

end

section

variable {α : Type} {number span : α → Nat}

instance decidableNumbered : ∀ (first : Nat) (items : List α), Decidable (Numbered number span first items)
  | _, [] => isTrue trivial
  | first, item :: items =>
      have := decidableNumbered (first + span item) items
      inferInstanceAs (Decidable (number item = first ∧ Numbered number span (first + span item) items))

@[simp] theorem spanSum_nil : spanSum span ([] : List α) = 0 := rfl

@[simp] theorem spanSum_cons (item : α) (items : List α) :
    spanSum span (item :: items) = span item + spanSum span items := List.sum_cons

@[simp] theorem spanSum_append (items more : List α) :
    spanSum span (items ++ more) = spanSum span items + spanSum span more := by
  rw [spanSum, List.map_append, List.sum_append, spanSum, spanSum]

theorem numbered_append {first : Nat} {items more : List α} :
    Numbered number span first (items ++ more) ↔
      Numbered number span first items ∧ Numbered number span (first + spanSum span items) more := by
  induction items generalizing first with
  | nil => simp [Numbered]
  | cons item items ih => rw [List.cons_append, Numbered, Numbered, ih, spanSum_cons, and_assoc,
      Nat.add_assoc]

/-- The range of every item lies between the first number and the counter at the end. -/
theorem Numbered.bounds {first : Nat} {items : List α} (h : Numbered number span first items) :
    ∀ item ∈ items, first ≤ number item ∧ number item + span item ≤ first + spanSum span items := by
  induction items generalizing first with
  | nil => simp
  | cons item items ih =>
      obtain ⟨hitem, hitems⟩ := h
      rw [List.forall_mem_cons, spanSum_cons]
      refine ⟨by omega, fun other hother => ?_⟩
      have hbounds := ih hitems other hother
      omega

/-- The range of each item ends before those of the later ones begin. -/
theorem Numbered.pairwise {first : Nat} {items : List α} (h : Numbered number span first items) :
    items.Pairwise fun a b => number a + span a ≤ number b := by
  induction items generalizing first with
  | nil => exact List.Pairwise.nil
  | cons item items ih =>
      obtain ⟨hitem, hitems⟩ := h
      refine List.pairwise_cons.mpr ⟨fun other hother => ?_, ih hitems⟩
      have hbounds := hitems.bounds other hother
      omega

/-- Items with a common number are the same, when every item takes at least one. -/
theorem Numbered.inj {first : Nat} {items : List α} (hspan : ∀ item, 0 < span item)
    (h : Numbered number span first items) {a b : α} (ha : a ∈ items) (hb : b ∈ items)
    (hab : number a = number b) : a = b := by
  induction items generalizing first with
  | nil => cases ha
  | cons item items ih =>
      obtain ⟨hitem, hitems⟩ := h
      have hlater : ∀ other ∈ items, number item < number other := by
        intro other hother
        have hpos := hspan item
        have hbounds := hitems.bounds other hother
        omega
      rcases List.mem_cons.mp ha with ha | ha <;> rcases List.mem_cons.mp hb with hb | hb
      · rw [ha, hb]
      · exact absurd (ha ▸ hab) (Nat.ne_of_lt (hlater b hb))
      · exact absurd (hb ▸ hab) (Nat.ne_of_gt (hlater a ha))
      · exact ih hitems ha hb

end

end CodeStudy
