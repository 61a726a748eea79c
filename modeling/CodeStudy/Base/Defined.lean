import CodeStudy.Base.Slice
import CodeStudy.Base.View

/-!
# Where a computation is defined

Code that reads without looking at the length of its buffer has a result exactly under a condition on the
buffer. The rules here put the conditions of the steps of such a computation together, and the conditions of
one that is always defined but may give up. Code of both kinds is described by what it has to meet: to be
defined, and to give a result with a property if it gives one.
-/

namespace CodeStudy

/-- There is a result, with a property, exactly under a condition. -/
def DefinedWhere {α : Type} (x : Except Fault α) (condition : Prop) (post : α → Prop) : Prop :=
  (condition ∧ ∃ a, x = .ok a ∧ post a) ∨ (¬ condition ∧ x = .error .undefined)

namespace DefinedWhere

variable {α β : Type} {x : Except Fault α} {condition condition' : Prop} {post : α → Prop}

theorem ne_undefined_iff (h : DefinedWhere x condition post) : x ≠ .error .undefined ↔ condition := by
  rcases h with ⟨hcondition, a, rfl, -⟩ | ⟨hcondition, rfl⟩
  · exact iff_of_true (by rintro ⟨⟩) hcondition
  · exact iff_of_false (fun h => h rfl) hcondition

/-- Where the result is known, it is the result under the condition. -/
theorem eq_ok_iff {a : α} (h : DefinedWhere x condition fun b => b = a) : x = .ok a ↔ condition := by
  rcases h with ⟨hcondition, b, rfl, rfl⟩ | ⟨hcondition, rfl⟩
  · exact iff_of_true rfl hcondition
  · exact iff_of_false (by rintro ⟨⟩) hcondition

theorem ok {a : α} (h : post a) : DefinedWhere (.ok a) True post := Or.inl ⟨trivial, a, rfl, h⟩

/-- The condition of a step and the one of what follows it. -/
theorem bind {f : α → Except Fault β} {post' : β → Prop} (h : DefinedWhere x condition post)
    (hnext : condition → ∀ a, post a → DefinedWhere (f a) condition' post') :
    DefinedWhere (x >>= f) (condition ∧ condition') post' := by
  rcases h with ⟨hcondition, a, rfl, ha⟩ | ⟨hcondition, rfl⟩
  · rcases hnext hcondition a ha with ⟨hcondition', hresult⟩ | ⟨hcondition', hresult⟩
    · exact Or.inl ⟨⟨hcondition, hcondition'⟩, hresult⟩
    · exact Or.inr ⟨fun h => hcondition' h.2, hresult⟩
  · exact Or.inr ⟨fun h => hcondition h.1, rfl⟩

theorem congr (h : DefinedWhere x condition post) (hiff : condition ↔ condition') : DefinedWhere x condition' post := by
  rw [DefinedWhere, ← hiff]
  exact h

end DefinedWhere

/-- A copy has what stands in the buffer. -/
theorem definedWhere_copy (b : Bytes) (offset n : Nat) :
    DefinedWhere ((View.of b).copy offset n) (offset + n ≤ b.length) fun bytes => bytes.1 = slice b offset n := by
  rw [View.copy]
  by_cases hle : offset + n ≤ (View.of b).buf.length
  · rw [dif_pos hle]
    exact Or.inl ⟨hle, _, rfl, rfl⟩
  · rw [dif_neg hle]
    exact Or.inr ⟨hle, rfl⟩

/-! ### What a computation has to meet -/

/-- The computation is defined, and what it gives has a property. It may fail. -/
structure Meets {α : Type} (x : Except Fault α) (post : α → Prop) : Prop where
  defined : x ≠ .error .undefined
  result : ∀ a, x = .ok a → post a

section

variable {α β : Type} {x : Except Fault α} {f g : α → Except Fault β} {post : β → Prop}

theorem meets_ok {b : β} : Meets (.ok b) post ↔ post b := by
  constructor
  · exact fun h => h.result b rfl
  · intro h
    refine ⟨by rintro ⟨⟩, ?_⟩
    rintro _ ⟨⟩
    exact h

theorem meets_failed (ret : Int) (msg : String) : Meets (.error (.failed ret msg)) post :=
  ⟨by rintro ⟨⟩, by rintro _ ⟨⟩⟩

theorem not_meets_undefined : ¬ Meets (.error .undefined) post := fun h => h.defined rfl

/-- A step has to meet what the steps after it need. -/
theorem meets_bind : Meets (x >>= f) post ↔ Meets x fun a => Meets (f a) post := by
  rcases x with (⟨ret, msg⟩ | _) | a
  · exact iff_of_true (meets_failed ret msg) (meets_failed ret msg)
  · exact iff_of_false not_meets_undefined not_meets_undefined
  · rw [ok_bind]
    exact (@meets_ok α (fun a => Meets (f a) post) a).symm

theorem Meets.mono {post post' : α → Prop} (h : Meets x post) (himp : ∀ a, x = .ok a → post a → post' a) :
    Meets x post' :=
  ⟨h.defined, fun a ha => himp a ha (h.result a ha)⟩

/-- Another continuation after the same step. -/
theorem Meets.bind_mono (h : Meets (x >>= f) post) (himp : ∀ a, Meets (f a) post → Meets (g a) post) :
    Meets (x >>= g) post :=
  meets_bind.mpr ((meets_bind.mp h).mono fun a _ => himp a)

/-- A step that is defined exactly under a condition, and a continuation that the property of its result decides. -/
theorem DefinedWhere.meets_bind {condition condition' : Prop} {property : α → Prop}
    (h : DefinedWhere x condition property) (hnext : condition → ∀ a, property a → (Meets (f a) post ↔ condition')) :
    Meets (x >>= f) post ↔ condition ∧ condition' := by
  rcases h with ⟨hcondition, a, rfl, ha⟩ | ⟨hcondition, rfl⟩
  · rw [and_iff_right hcondition]
    exact hnext hcondition a ha
  · exact iff_of_false not_meets_undefined fun h => hcondition h.1

end

/-! ### Where a computation does not give up -/

/-- There is a result, with a property, exactly under a condition; else the computation gives up. -/
def SucceedsWhere {α : Type} (x : Except Fault α) (condition : Prop) (post : α → Prop) : Prop :=
  (condition ∧ ∃ a, x = .ok a ∧ post a) ∨ (¬ condition ∧ ∃ ret msg, x = .error (.failed ret msg))

namespace SucceedsWhere

variable {α β : Type} {x : Except Fault α} {condition condition' : Prop} {post : α → Prop}

theorem ok {a : α} (h : post a) : SucceedsWhere (.ok a) True post := Or.inl ⟨trivial, a, rfl, h⟩

theorem failed {ret : Int} {msg : String} (h : ¬ condition) :
    SucceedsWhere (.error (.failed ret msg)) condition post :=
  Or.inr ⟨h, ret, msg, rfl⟩

theorem congr (h : SucceedsWhere x condition post) (hiff : condition ↔ condition') : SucceedsWhere x condition' post := by
  rw [SucceedsWhere, ← hiff]
  exact h

/-- The condition of a step and the one of what follows it. -/
theorem bind {f : α → Except Fault β} {post' : β → Prop} (h : SucceedsWhere x condition post)
    (hnext : condition → ∀ a, post a → SucceedsWhere (f a) condition' post') :
    SucceedsWhere (x >>= f) (condition ∧ condition') post' := by
  rcases h with ⟨hcondition, a, rfl, ha⟩ | ⟨hcondition, ret, msg, rfl⟩
  · rcases hnext hcondition a ha with ⟨hcondition', hresult⟩ | ⟨hcondition', hresult⟩
    · exact Or.inl ⟨⟨hcondition, hcondition'⟩, hresult⟩
    · exact Or.inr ⟨fun h => hcondition' h.2, hresult⟩
  · exact Or.inr ⟨fun h => hcondition h.1, ret, msg, rfl⟩

theorem mono {post' : α → Prop} (h : SucceedsWhere x condition post) (himp : condition → ∀ a, post a → post' a) :
    SucceedsWhere x condition post' := by
  rcases h with ⟨hcondition, a, ha, hpost⟩ | h
  · exact Or.inl ⟨hcondition, a, ha, himp hcondition a hpost⟩
  · exact Or.inr h

theorem meets (h : SucceedsWhere x condition post) : Meets x post := by
  rcases h with ⟨-, a, rfl, ha⟩ | ⟨-, ret, msg, rfl⟩
  · exact meets_ok.mpr ha
  · exact meets_failed ret msg

/-- Where the result is known, it is the result under the condition. -/
theorem eq_ok {a : α} (h : SucceedsWhere x condition fun b => b = a) (hcondition : condition) : x = .ok a := by
  rcases h with ⟨-, b, rfl, rfl⟩ | ⟨hnot, -⟩
  · rfl
  · exact absurd hcondition hnot

end SucceedsWhere

end CodeStudy
