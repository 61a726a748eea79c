import CodeStudy.Base.Bytes

/-!
# Views of memory

A program that walks through a buffer holds a pointer and a length of an unsigned type. The length
is what the program believes: when a subtraction went below zero it is enormous, and a read behind
the end of the block is undefined. A view keeps both, the bytes from the pointer to the end of the
block and the length.
-/

namespace CodeStudy

/-- Why a computation on bytes stopped: it reported a failure, or its behaviour is undefined. -/
inductive Fault where
  | failed (ret : Int) (msg : String)
  | undefined
  deriving DecidableEq

/-- Put a text before the message of a failure. -/
def Fault.annotate {α : Type} (text : String) : Except Fault α → Except Fault α
  | .error (.failed ret msg) => .error (.failed ret (text ++ msg))
  | other => other

theorem bind_eq_ok {ε α β : Type} {x : Except ε α} {f : α → Except ε β} {b : β} :
    x >>= f = .ok b ↔ ∃ a, x = .ok a ∧ f a = .ok b := by
  cases x with
  | error e =>
      constructor
      · intro h
        cases h
      · rintro ⟨a, h, -⟩
        cases h
  | ok a =>
      constructor
      · exact fun h => ⟨a, rfl, h⟩
      · rintro ⟨a, h, h'⟩
        cases h
        exact h'

@[simp] theorem ok_bind {ε α β : Type} (a : α) (f : α → Except ε β) :
    (Except.ok a >>= f) = f a := rfl

theorem Fault.annotate_eq_ok {α : Type} {text : String} {x : Except Fault α} {a : α} :
    Fault.annotate text x = .ok a ↔ x = .ok a := by
  unfold annotate
  split <;> simp

structure View where
  buf : Bytes
  len : Nat

namespace View

/-- A whole block. -/
def of (b : Bytes) : View := ⟨b, b.length⟩

@[simp] theorem len_of (b : Bytes) : (of b).len = b.length := rfl

/-- Move the pointer on. The length is an unsigned number of 64 bits. -/
def skip (v : View) (n : Nat) : View :=
  ⟨v.buf.drop n, if n ≤ v.len then v.len - n else v.len + 2 ^ 64 - n⟩

/-- A view whose length is at most a given one. -/
def cut (v : View) (size : Nat) : View := if v.len > size then ⟨v.buf, size⟩ else v

/-- Copy bytes without looking at the length. -/
def copy (v : View) (offset n : Nat) : Except Fault { b : Bytes // b.length = n } :=
  if h : offset + n ≤ v.buf.length then
    .ok ⟨(v.buf.drop offset).take n, by rw [List.length_take, List.length_drop]; omega⟩
  else .error .undefined

/-- The little-endian field at an offset; outside the length the caller's variable keeps its value. -/
def get (v : View) (width offset value : Nat) : Except Fault Nat :=
  if offset + width > v.len then .ok value
  else do
    let bytes ← v.copy offset width
    .ok (leNat bytes.1)

/-- Little-endian fields of four bytes, one after the other. -/
def words (v : View) (offset : Nat) : (count : Nat) → Except Fault { l : List UInt32 // l.length = count }
  | 0 => .ok ⟨[], rfl⟩
  | count + 1 => do
      let first ← v.get 4 offset 0
      let rest ← v.words (offset + 4) count
      .ok ⟨UInt32.ofNat first :: rest.1, by rw [List.length_cons, rest.2]⟩

/-! ### Reading what stands somewhere in a buffer -/

theorem buf_skip {v : View} {pre post : Bytes} (hbuf : v.buf = pre ++ post) {n : Nat}
    (hn : pre.length = n) : (v.skip n).buf = post := by
  show v.buf.drop n = post
  rw [hbuf, ← hn, List.drop_left]

theorem len_skip {v : View} {n : Nat} (hn : n ≤ v.len) : (v.skip n).len = v.len - n := if_pos hn

theorem of_skip_append (pre post : Bytes) {n : Nat} (hn : pre.length = n) :
    (of (pre ++ post)).skip n = of post := by
  have hlen : (of (pre ++ post)).len = n + post.length := by rw [of, List.length_append, hn]
  rw [skip, if_pos (by omega), hlen, Nat.add_sub_cancel_left]
  show (⟨(pre ++ post).drop n, post.length⟩ : View) = of post
  rw [← hn, List.drop_left]
  rfl

section

variable {v : View} (pre b post : Bytes) {offset : Nat}

theorem copy_eq (hbuf : v.buf = pre ++ b ++ post) (hoffset : pre.length = offset) {n : Nat}
    (hn : b.length = n) : v.copy offset n = .ok ⟨b, hn⟩ := by
  subst hoffset hn
  have hle : pre.length + b.length ≤ v.buf.length := by simp [hbuf]
  rw [copy, dif_pos hle]
  congr 2
  rw [hbuf, List.append_assoc, List.drop_left, List.take_left]

theorem get_eq (hbuf : v.buf = pre ++ b ++ post) (hoffset : pre.length = offset) {width : Nat}
    (hwidth : b.length = width) (hlen : offset + width ≤ v.len) (value : Nat) :
    v.get width offset value = .ok (leNat b) := by
  rw [get, if_neg (not_lt.mpr hlen), copy_eq pre b post hbuf hoffset hwidth]
  rfl

/-- A field that was written with its own width. -/
theorem get_leBytes {width n : Nat} (hbuf : v.buf = pre ++ leBytes width n ++ post)
    (hoffset : pre.length = offset) (hn : n < 256 ^ width) (hlen : offset + width ≤ v.len)
    (value : Nat) : v.get width offset value = .ok n := by
  rw [get_eq pre _ post hbuf hoffset (length_leBytes width n) hlen, leNat_leBytes_of_lt hn]

end

/-- A field behind the first of two buffers. -/
theorem get_append_right {pre b : Bytes} {width offset : Nat} (h : pre.length ≤ offset) (value : Nat) :
    (of (pre ++ b)).get width offset value = (of b).get width (offset - pre.length) value := by
  have hlen : (of (pre ++ b)).len = pre.length + b.length := by rw [len_of, List.length_append]
  have hdrop : (pre ++ b).drop offset = b.drop (offset - pre.length) := by
    rw [List.drop_append, List.drop_eq_nil_of_le h, List.nil_append]
  by_cases hshort : offset + width > pre.length + b.length
  · rw [get, get, if_pos (by rw [hlen]; exact hshort), if_pos (by rw [len_of]; omega)]
  · have hle : offset + width ≤ (of (pre ++ b)).buf.length := by
      show offset + width ≤ (pre ++ b).length
      rw [List.length_append]
      omega
    have hle' : offset - pre.length + width ≤ (of b).buf.length := by
      show offset - pre.length + width ≤ b.length
      omega
    have hshort' : ¬ offset - pre.length + width > (of b).len := not_lt.mpr hle'
    rw [get, get, if_neg (by rw [hlen]; exact hshort), if_neg hshort', copy, copy, dif_pos hle, dif_pos hle']
    show Except.ok (leNat (((pre ++ b).drop offset).take width)) = Except.ok (leNat ((b.drop _).take width))
    rw [hdrop]

/-- A field at the beginning that was written with its own width. -/
theorem get_leBytes_append {width n : Nat} (hn : n < 256 ^ width) (rest : Bytes) (value : Nat) :
    (of (leBytes width n ++ rest)).get width 0 value = .ok n := by
  refine get_leBytes [] rest rfl rfl hn ?_ value
  rw [len_of, List.length_append, length_leBytes, List.length_nil]
  omega

theorem get_uint32 (x : UInt32) (rest : Bytes) (value : Nat) : (of (leBytes 4 x.toNat ++ rest)).get 4 0 value = .ok x.toNat :=
  get_leBytes_append x.toNat_lt rest value

theorem get_uint64 (x : UInt64) (rest : Bytes) (value : Nat) : (of (leBytes 8 x.toNat ++ rest)).get 8 0 value = .ok x.toNat :=
  get_leBytes_append x.toNat_lt rest value

theorem words_eq {v : View} (l : List UInt32) {pre post : Bytes} {offset : Nat}
    (hbuf : v.buf = pre ++ (l.flatMap fun word => leBytes 4 word.toNat) ++ post)
    (hoffset : pre.length = offset) {count : Nat} (hcount : l.length = count)
    (hlen : offset + count * 4 ≤ v.len) : v.words offset count = .ok ⟨l, hcount⟩ := by
  subst hcount
  induction l generalizing pre offset with
  | nil => rfl
  | cons word l ih =>
      rw [List.flatMap_cons] at hbuf
      rw [List.length_cons] at hlen
      have hfirst : v.get 4 offset 0 = .ok word.toNat :=
        get_leBytes pre _ (by rw [hbuf, List.append_assoc, List.append_assoc, ← List.append_assoc])
          hoffset word.toNat_lt (by omega) 0
      have hrest : v.words (offset + 4) l.length = .ok ⟨l, rfl⟩ := by
        have hlen' : (pre ++ leBytes 4 word.toNat).length = offset + 4 := by
          rw [List.length_append, hoffset, length_leBytes]
        refine ih ?_ hlen' (by omega)
        rw [hbuf]
        simp only [List.append_assoc]
      show v.words offset (l.length + 1) = _
      rw [words, hfirst, ok_bind, hrest, ok_bind]
      simp only [UInt32.ofNat_toNat]

/-! ### What a successful read says about the buffer -/

section

variable {v : View} {offset : Nat}

theorem drop_copy {n : Nat} {b : { b : Bytes // b.length = n }} (h : v.copy offset n = .ok b) :
    v.buf.drop offset = b.1 ++ v.buf.drop (offset + n) := by
  rw [copy] at h
  split_ifs at h
  cases h
  rw [← List.drop_drop, List.take_append_drop]

theorem drop_get {width value n : Nat} (h : v.get width offset value = .ok n)
    (hlen : offset + width ≤ v.len) :
    v.buf.drop offset = leBytes width n ++ v.buf.drop (offset + width) ∧ n < 256 ^ width := by
  rw [get, if_neg (not_lt.mpr hlen)] at h
  obtain ⟨bytes, hcopy, h⟩ := bind_eq_ok.mp h
  cases h
  have hbytes := leBytes_leNat bytes.1
  have hlt := leNat_lt bytes.1
  rw [bytes.2] at hbytes hlt
  rw [drop_copy hcopy, hbytes]
  exact ⟨rfl, hlt⟩

theorem eq_leNat_of_get {width value n : Nat} (h : v.get width offset value = .ok n)
    (hlen : offset + width ≤ v.len) : n = leNat ((v.buf.drop offset).take width) := by
  obtain ⟨hdrop, hlt⟩ := drop_get h hlen
  rw [hdrop, List.take_left' (length_leBytes width n), leNat_leBytes_of_lt hlt]

theorem drop_words {count : Nat} {l : { l : List UInt32 // l.length = count }}
    (h : v.words offset count = .ok l) (hlen : offset + count * 4 ≤ v.len) :
    v.buf.drop offset = (l.1.flatMap fun word => leBytes 4 word.toNat) ++ v.buf.drop (offset + count * 4) := by
  induction count generalizing offset with
  | zero =>
      cases h
      rw [Nat.zero_mul]
      rfl
  | succ count ih =>
      obtain ⟨first, hfirst, h⟩ := bind_eq_ok.mp h
      obtain ⟨rest, hrest, h⟩ := bind_eq_ok.mp h
      cases h
      obtain ⟨hdrop, hlt⟩ := drop_get hfirst (by omega)
      rw [hdrop, ih hrest (by omega), List.flatMap_cons, toNat_ofNat_uint32 hlt, List.append_assoc]
      congr 3
      omega

end

/-- What is copied lies in the block. -/
theorem le_of_copy {v : View} {offset n : Nat} {b : { b : Bytes // b.length = n }} (h : v.copy offset n = .ok b) :
    offset + n ≤ v.buf.length := by
  rw [copy] at h
  split_ifs at h with hle
  exact hle

/-- A field inside a whole block is read from it, whatever the caller's variable held. -/
theorem get_of {b : Bytes} {width offset : Nat} (hlen : offset + width ≤ b.length) (value : Nat) :
    (of b).get width offset value = .ok (leNat ((b.drop offset).take width)) := by
  have hshort : ¬ offset + width > (of b).len := not_lt.mpr hlen
  have hfits : offset + width ≤ (of b).buf.length := hlen
  rw [get, if_neg hshort, copy, dif_pos hfits]
  rfl

/-! ### Views that are true -/

/-- The length is one that the block has. -/
def Sound (v : View) : Prop := v.len ≤ v.buf.length

section

variable {v : View} {n : Nat}

theorem sound_of (b : Bytes) : (of b).Sound := le_refl b.length

theorem Sound.skip (h : v.Sound) (hn : n ≤ v.len) : (v.skip n).Sound := by
  have hlen := len_skip hn
  rw [Sound] at h
  rw [Sound, hlen]
  show v.len - n ≤ (v.buf.drop n).length
  rw [List.length_drop]
  exact Nat.sub_le_sub_right h n

theorem Sound.cut (h : v.Sound) (size : Nat) : (v.cut size).Sound := by
  rw [Sound] at h
  rw [View.cut]
  split_ifs with hsize
  · exact (Nat.le_of_lt hsize).trans h
  · exact h

/-- A pointer that moves on by more than the length leaves an enormous length behind. -/
theorem not_sound_skip (hn : v.len < n) (hbuf : v.buf.length < 2 ^ 64) (hlt : n < 2 ^ 64) :
    ¬ (v.skip n).Sound := by
  have hlen : (v.skip n).len = v.len + 2 ^ 64 - n := if_neg (not_le.mpr hn)
  rw [Sound, hlen]
  show ¬ v.len + 2 ^ 64 - n ≤ (v.buf.drop n).length
  rw [List.length_drop]
  omega

theorem Sound.copy (h : v.Sound) {offset : Nat} (hn : offset + n ≤ v.len) :
    ∃ b, v.copy offset n = .ok b := by
  rw [Sound] at h
  rw [View.copy, dif_pos (hn.trans h)]
  exact ⟨_, rfl⟩

theorem Sound.get (h : v.Sound) (width offset value : Nat) : ∃ n, v.get width offset value = .ok n := by
  rw [View.get]
  split_ifs with hshort
  · exact ⟨value, rfl⟩
  · obtain ⟨b, hcopy⟩ := h.copy (not_lt.mp hshort)
    rw [hcopy]
    exact ⟨leNat b.1, rfl⟩

theorem Sound.get_byte (h : v.Sound) {offset : Nat} (hlt : offset < v.len) (value : Nat) :
    v.get 1 offset value = .ok (v.buf.getD offset 0).toNat := by
  have hbuf : offset < v.buf.length := lt_of_lt_of_le hlt h
  have hsplit : v.buf = v.buf.take offset ++ [v.buf.getD offset 0] ++ v.buf.drop (offset + 1) := by
    rw [List.getD_eq_getElem?_getD, List.getElem?_eq_getElem hbuf, Option.getD_some, List.append_assoc,
      List.singleton_append, List.getElem_cons_drop, List.take_append_drop]
  have hlen : (v.buf.take offset).length = offset := by rw [List.length_take, Nat.min_eq_left hbuf.le]
  rw [@get_eq v _ [v.buf.getD offset 0] _ _ hsplit hlen 1 rfl (by omega)]
  rfl

theorem Sound.words (h : v.Sound) (offset count : Nat) : ∃ l, v.words offset count = .ok l := by
  induction count generalizing offset with
  | zero => exact ⟨_, rfl⟩
  | succ count ih =>
      obtain ⟨first, hfirst⟩ := h.get 4 offset 0
      obtain ⟨rest, hrest⟩ := ih (offset + 4)
      rw [View.words, hfirst, ok_bind, hrest]
      exact ⟨_, rfl⟩

end

end View

end CodeStudy
