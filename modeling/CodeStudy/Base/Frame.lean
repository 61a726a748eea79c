import CodeStudy.Base.Bytes
import Mathlib.Tactic

/-!
# Length-prefixed frames

A message on a byte stream is its length in four bytes, most significant first,
and then its bytes. A sender that writes longer messages than four bytes can
count truncates the length, as a conversion to a 32-bit integer does.
-/

namespace CodeStudy

/-- The four bytes in front of a message. -/
def lengthPrefix (m : Bytes) : Bytes := beBytes 4 m.length

def frame (m : Bytes) : Bytes := lengthPrefix m ++ m

/-- The first whole frame of a stream, if there is one, and what follows it. -/
def takeFrame (s : Bytes) : Option (Bytes × Bytes) :=
  if 4 + beNat (s.take 4) ≤ s.length then
    some ((s.drop 4).take (beNat (s.take 4)), s.drop (4 + beNat (s.take 4)))
  else none

@[simp] theorem length_lengthPrefix (m : Bytes) : (lengthPrefix m).length = 4 := length_beBytes 4 _

theorem beNat_lengthPrefix {m : Bytes} (h : m.length < 2 ^ 32) :
    beNat (lengthPrefix m) = m.length := by
  rw [beNat, lengthPrefix, beBytes, List.reverse_reverse]
  exact leNat_leBytes_of_lt (by omega)

theorem takeFrame_frame_append {m : Bytes} (h : m.length < 2 ^ 32) (rest : Bytes) :
    takeFrame (frame m ++ rest) = some (m, rest) := by
  have htake : (frame m ++ rest).take 4 = lengthPrefix m := by
    rw [frame, List.append_assoc, List.take_left' (length_lengthPrefix m)]
  have hdrop : (frame m ++ rest).drop 4 = m ++ rest := by
    rw [frame, List.append_assoc, List.drop_left' (length_lengthPrefix m)]
  have hlength : (frame m ++ rest).length = 4 + m.length + rest.length := by
    simp [frame, Nat.add_assoc]
  unfold takeFrame
  rw [htake, beNat_lengthPrefix h, hlength, if_pos (by omega), ← List.drop_drop, hdrop]
  simp

theorem takeFrame_nil : takeFrame [] = none := rfl

/-- A frame that is there stays there when more arrives. -/
theorem takeFrame_append {s m rest : Bytes} (h : takeFrame s = some (m, rest)) (more : Bytes) :
    takeFrame (s ++ more) = some (m, rest ++ more) := by
  unfold takeFrame at h ⊢
  by_cases hle : 4 + beNat (s.take 4) ≤ s.length
  · rw [if_pos hle] at h
    obtain ⟨rfl, rfl⟩ := Prod.mk.inj (Option.some.inj h)
    have htake : (s ++ more).take 4 = s.take 4 := List.take_append_of_le_length (by omega)
    rw [htake, if_pos (by rw [List.length_append]; omega), List.drop_append_of_le_length (by omega),
      List.drop_append_of_le_length hle,
      List.take_append_of_le_length (by rw [List.length_drop]; omega)]
  · rw [if_neg hle] at h
    exact absurd h (by simp)

theorem length_of_takeFrame {s m rest : Bytes} (h : takeFrame s = some (m, rest)) :
    rest.length < s.length := by
  unfold takeFrame at h
  by_cases hle : 4 + beNat (s.take 4) ≤ s.length
  · rw [if_pos hle] at h
    obtain ⟨rfl, rfl⟩ := Prod.mk.inj (Option.some.inj h)
    rw [List.length_drop]
    omega
  · rw [if_neg hle] at h
    exact absurd h (by simp)

/-- A stream read as nothing but whole frames. -/
def parseFrames (s : Bytes) : Option (List Bytes) :=
  if s = [] then some []
  else
    match _h : takeFrame s with
    | none => none
    | some (m, rest) => (parseFrames rest).map (m :: ·)
termination_by s.length
decreasing_by exact length_of_takeFrame _h

theorem parseFrames_nil : parseFrames [] = some [] := by
  rw [parseFrames, if_pos rfl]

theorem parseFrames_of_takeFrame {s m rest : Bytes} (h : takeFrame s = some (m, rest)) :
    parseFrames s = (parseFrames rest).map (m :: ·) := by
  have hne : s ≠ [] := by
    rintro rfl
    exact absurd (takeFrame_nil.symm.trans h) (by simp)
  rw [parseFrames, if_neg hne]
  split
  · rename_i hnone
    exact absurd (hnone.symm.trans h) (by simp)
  · rename_i hsome
    obtain ⟨rfl, rfl⟩ := Prod.mk.inj (Option.some.inj (hsome.symm.trans h))
    rfl

theorem parseFrames_of_takeFrame_none {s : Bytes} (hne : s ≠ []) (h : takeFrame s = none) :
    parseFrames s = none := by
  rw [parseFrames, if_neg hne]
  split
  · rfl
  · rename_i hsome
    exact absurd (h.symm.trans hsome) (by simp)

/-- Frames written one after the other are read back one after the other. -/
theorem parseFrames_flatMap (ms : List Bytes) (h : ∀ m ∈ ms, m.length < 2 ^ 32) :
    parseFrames (ms.flatMap frame) = some ms := by
  induction ms with
  | nil => exact parseFrames_nil
  | cons m ms ih =>
    rw [List.flatMap_cons, parseFrames_of_takeFrame
      (takeFrame_frame_append (h m List.mem_cons_self) _),
      ih fun m' hm' => h m' (List.mem_cons_of_mem m hm')]
    rfl

end CodeStudy
