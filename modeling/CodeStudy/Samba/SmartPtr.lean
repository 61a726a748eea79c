import Mathlib.Data.Finset.Image
import Mathlib.Data.Set.Card
import Mathlib.Logic.Function.Basic
import Mathlib.Logic.Relation

/-!
# Smart pointers

A `SmartPtr` is a variable or a member of an object, and the object it holds counts it. What reads or writes a
`SmartPtr` or an object that does not exist has no result. An address is not used again, so it is known of every
object whether it was deleted.
-/

namespace CodeStudy.Samba.SmartPtr

abbrev Addr := Nat

/-- A `SmartPtr`, on its own or in an object. -/
inductive Holder where
  | var (n : Nat)
  | member (owner : Addr) (i : Nat)
  deriving DecidableEq, Repr

structure Heap where
  holders : Finset Holder := ∅
  /-- The `m_data` of every `SmartPtr`. -/
  data : Holder → Option Addr := fun _ => none
  refcount : Addr → Int32 := fun _ => 0
  /-- For every object that exists, how many `SmartPtr`s it has. -/
  objects : Addr → Option Nat := fun _ => none
  next : Addr := 0
  deleted : List Addr := []
  /-- The objects that were ever held. -/
  held : Finset Addr := ∅

namespace Heap

def read (s : Heap) (h : Holder) : Option (Option Addr) :=
  if h ∈ s.holders then some (s.data h) else none

def write (s : Heap) (h : Holder) (data : Option Addr) : Option Heap :=
  if h ∈ s.holders then some { s with data := Function.update s.data h data } else none

/-- A new `SmartPtr()`. -/
def addHolder (s : Heap) (h : Holder) : Heap :=
  { s with holders := insert h s.holders, data := Function.update s.data h none }

def removeHolder (s : Heap) (h : Holder) : Heap :=
  { s with holders := s.holders.erase h }

def setRefCount (s : Heap) (a : Addr) (count : Int32) : Heap :=
  { s with refcount := Function.update s.refcount a count }

def addHeld (s : Heap) (a : Addr) : Heap :=
  { s with held := insert a s.held }

def free (s : Heap) (a : Addr) : Heap :=
  { s with objects := Function.update s.objects a none, deleted := s.deleted ++ [a] }

def membersOf (a : Addr) (members : Nat) : Finset Holder :=
  (Finset.range members).image (Holder.member a)

/-- A new object, with a count of 0. -/
def create (s : Heap) (members : Nat) : Heap :=
  { s with
    holders := s.holders ∪ membersOf s.next members
    data := fun h => if h ∈ membersOf s.next members then none else s.data h
    refcount := Function.update s.refcount s.next 0
    objects := Function.update s.objects s.next (some members)
    next := s.next + 1 }

end Heap

def incRefCount (s : Heap) (h : Holder) : Option Heap :=
  match s.data h with
  | none => some s
  | some a =>
      if (s.objects a).isSome then some ((s.setRefCount a (s.refcount a + 1)).addHeld a) else none

/-- It returns the new count, or -1. -/
def decRefCount (s : Heap) (h : Holder) : Option (Int32 × Heap) :=
  match s.data h with
  | none => some (-1, s)
  | some a =>
      if (s.objects a).isSome then some (s.refcount a - 1, s.setRefCount a (s.refcount a - 1)) else none

/-- The destructors of the first members of an object, from the last on. -/
def destroyMembers (release : Holder → Heap → Option Heap) (a : Addr) : Nat → Heap → Option Heap
  | 0, s => some s
  | i + 1, s => do
      let s ← release (.member a i) s
      destroyMembers release a i (s.removeHolder (.member a i))

/-- `delete`. -/
def deallocate (release : Holder → Heap → Option Heap) (a : Addr) (s : Heap) : Option Heap := do
  let members ← s.objects a
  let s ← destroyMembers release a members s
  some (s.free a)

/-- The calls are nested at most `fuel` deep. -/
def pReleaseWithin : Nat → Holder → Heap → Option Heap
  | 0, _, _ => none
  | fuel + 1, h, s => do
      match ← s.read h with
      | none => some s
      | some a =>
          let (count, s) ← decRefCount s h
          if count = 0 then
            let s ← deallocate (pReleaseWithin fuel) a s
            s.write h none
          else some s

/-- A call for every object, and one, are enough. -/
def pRelease (h : Holder) (s : Heap) : Option Heap :=
  pReleaseWithin (s.next + 1) h s

/-- `p_assign` of a raw pointer. -/
def pAssignPtr (s : Heap) (h : Holder) (ptr : Option Addr) : Option Heap := do
  if (← s.read h) = ptr then some s
  else
    let s ← pRelease h s
    let s ← s.write h ptr
    incRefCount s h

/-- `p_assign` of a `SmartPtr`. -/
def pAssign (s : Heap) (h obj : Holder) : Option Heap := do
  if (← s.read h) = (← s.read obj) then some s
  else
    let s ← pRelease h s
    let s ← s.write h (← s.read obj)
    incRefCount s h

def clear (s : Heap) (h : Holder) : Option Heap := do
  let s ← pRelease h s
  s.write h none

inductive Op where
  /-- `new` of an object with some members. -/
  | create (members : Nat)
  /-- `SmartPtr()`. -/
  | construct (n : Nat)
  /-- `SmartPtr(ptr)`. -/
  | constructPtr (n : Nat) (ptr : Option Addr)
  /-- `SmartPtr(obj)`. -/
  | constructCopy (n : Nat) (obj : Holder)
  | assignPtr (h : Holder) (ptr : Option Addr)
  | assign (h obj : Holder)
  | clear (h : Holder)
  /-- `~SmartPtr()`. -/
  | destroy (n : Nat)
  deriving DecidableEq, Repr

def step (s : Heap) : Op → Option Heap
  | .create members => some (s.create members)
  | .construct n => some (s.addHolder (.var n))
  | .constructPtr n ptr => pAssignPtr (s.addHolder (.var n)) (.var n) ptr
  | .constructCopy n obj => pAssign (s.addHolder (.var n)) (.var n) obj
  | .assignPtr h ptr => pAssignPtr s h ptr
  | .assign h obj => pAssign s h obj
  | .clear h => clear s h
  | .destroy n => (pRelease (.var n) s).map fun s => s.removeHolder (.var n)

def run (s : Heap) : List Op → Option Heap
  | [] => some s
  | op :: ops => (step s op).bind fun s => run s ops

/-! ### What is said of it -/

/-- The object at `a` holds the one at `c`. -/
def Links (holdersOf : Addr → Finset Holder) (a c : Addr) : Prop :=
  ∃ i, .member a i ∈ holdersOf c

namespace Heap

def holdersOf (s : Heap) (c : Addr) : Finset Holder :=
  s.holders.filter fun g => s.data g = some c

/-- An assignment of `c` to `h` makes an object reach itself. -/
def ClosesCycle (s : Heap) (h : Holder) (c : Addr) : Prop :=
  ∃ a i, h = .member a i ∧ Relation.ReflTransGen (Links s.holdersOf) c a

/-- The counts are right, nothing that is held was deleted, and what was held before is deleted once. -/
structure Accurate (s : Heap) : Prop where
  refcount : ∀ c, s.objects c ≠ none → (s.refcount c).toInt = (s.holdersOf c).card
  held : ∀ c, (s.holdersOf c).Nonempty → s.objects c ≠ none
  deleted : ∀ c, c ∈ s.deleted ↔ c ∈ s.held ∧ s.holdersOf c = ∅
  gone : ∀ c, c ∈ s.deleted ↔ c < s.next ∧ s.objects c = none
  once : s.deleted.Nodup

end Heap

/-- The objects that only `h` keeps: each of their holders is `h` or a member of such an object. -/
inductive Doomed (holdersOf : Addr → Finset Holder) (h : Holder) : Addr → Prop where
  | intro {c : Addr} (held : (holdersOf c).Nonempty) (vars : ∀ n, .var n ∈ holdersOf c → .var n = h)
      (members : ∀ b i, .member b i ∈ holdersOf c → .member b i ≠ h → Doomed holdersOf h b) :
      Doomed holdersOf h c

namespace Heap

def OwnerDoomed (s : Heap) (h g : Holder) : Prop :=
  ∃ b i, g = .member b i ∧ Doomed s.holdersOf h b

/-- The holders that an object keeps when `h` lets go. -/
def staying (s : Heap) (h : Holder) (c : Addr) : Set Holder :=
  {g | g ∈ s.holdersOf c ∧ g ≠ h ∧ ¬ s.OwnerDoomed h g}

/-- One more holder can be counted. -/
def HasRoom (s : Heap) (h : Holder) (c : Addr) : Prop :=
  (s.staying h c).ncard + 1 < 2 ^ 31

/-- What the program may ask for: it names what exists and links no cycle. -/
def Allowed (s : Heap) : Op → Prop
  | .create _ => True
  | .construct n => .var n ∉ s.holders
  | .constructPtr n ptr => .var n ∉ s.holders ∧ ∀ c, ptr = some c → s.objects c ≠ none
  | .constructCopy n obj => .var n ∉ s.holders ∧ obj ∈ s.holders
  | .assignPtr h ptr => h ∈ s.holders ∧ ∀ c, ptr = some c → s.objects c ≠ none ∧ ¬ s.ClosesCycle h c
  | .assign h obj => h ∈ s.holders ∧ obj ∈ s.holders ∧ ∀ c, s.data obj = some c → ¬ s.ClosesCycle h c
  | .clear h => h ∈ s.holders
  | .destroy n => .var n ∈ s.holders

/-- What is assigned does not go with what is let go of, and can be counted. -/
def Orderly (s : Heap) : Op → Prop
  | .constructPtr n ptr => ∀ c, ptr = some c → s.HasRoom (.var n) c
  | .constructCopy n obj => ∀ c, s.data obj = some c → s.HasRoom (.var n) c
  | .assignPtr h ptr =>
      s.data h ≠ ptr → ∀ c, ptr = some c → ¬ Doomed s.holdersOf h c ∧ s.HasRoom h c
  | .assign h obj =>
      s.data h ≠ s.data obj → ¬ s.OwnerDoomed h obj ∧ ∀ c, s.data obj = some c → s.HasRoom h c
  | _ => True

end Heap

/-- Every operation is one that the program may ask for. -/
def AllowedRun (s : Heap) : List Op → Prop
  | [] => True
  | op :: ops => s.Allowed op ∧ ∀ t, step s op = some t → AllowedRun t ops

def OrderlyRun (s : Heap) : List Op → Prop
  | [] => True
  | op :: ops => s.Orderly op ∧ ∀ t, step s op = some t → OrderlyRun t ops

/-- The run goes through, and every state of it is accurate. -/
def AccurateRun (s : Heap) : List Op → Prop
  | [] => s.Accurate
  | op :: ops => s.Accurate ∧ ∃ t, step s op = some t ∧ AccurateRun t ops

end CodeStudy.Samba.SmartPtr
