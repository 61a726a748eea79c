import CodeStudy.Base.Slice
import CodeStudy.Base.View

/-!
# A buffer that grows

A program collects a message in a block of memory. It copies each piece behind the last one, and
where the next piece does not fit it first moves to a larger block. What the buffer means is the
string of the bytes written so far: a piece is appended to that string, and a patch overwrites bytes
that are in it. A failed allocation loses the block; a program that goes on after it writes through
a null pointer, or never finds its bytes again.
-/

namespace CodeStudy

structure GrowBuffer where
  /-- The block, `none` for the null pointer. -/
  buf : Option Bytes := none
  len : Nat := 0
  allocated : Nat := 0

/-- Where larger blocks come from. -/
structure Growth where
  /-- A fresh block with whatever it contains, `none` when there is no memory. -/
  malloc : GrowBuffer → (n : Nat) → Option (Block n)
  /-- The size of the next block, from the size of the piece and that of the old block. -/
  next : Nat → Nat → Nat
  le_next : ∀ size allocated, size + allocated ≤ next size allocated

namespace GrowBuffer

/-! ### Operations -/

/-- Copy bytes to a place behind a pointer. To copy nothing, no memory is needed. -/
def write (buf : Option Bytes) (position : Nat) (bytes : Bytes) : Except Fault (Option Bytes) :=
  match buf with
  | none => if bytes = [] then .ok none else .error .undefined
  | some block =>
      if position + bytes.length ≤ block.length then .ok (some (memcpy block position bytes))
      else .error .undefined

/-- The first bytes behind a pointer. -/
def read (buf : Option Bytes) (n : Nat) : Except Fault Bytes :=
  match buf with
  | none => if n = 0 then .ok [] else .error .undefined
  | some block => if n ≤ block.length then .ok (block.take n) else .error .undefined

/-- Move to a larger block if a piece of this size does not fit; `false` when there is none. -/
def reserve (g : Growth) (size : Nat) (b : GrowBuffer) : Except Fault (Bool × GrowBuffer) :=
  if size + b.len > b.allocated then
    let allocated := g.next size b.allocated
    match g.malloc b allocated with
    | none => .ok (false, { b with buf := none, allocated })
    | some block => do
        let old ← read b.buf b.len
        let buf ← write (some block.1) 0 old
        .ok (true, { b with buf, allocated })
  else .ok (true, b)

/-- Copy a piece behind the last one. -/
def append (g : Growth) (bytes : Bytes) (b : GrowBuffer) : Except Fault (Bool × GrowBuffer) := do
  let (found, b) ← reserve g bytes.length b
  if found then
    let buf ← write b.buf b.len bytes
    .ok (true, { b with buf, len := b.len + bytes.length })
  else .ok (false, b)

/-- Copy bytes over earlier ones. -/
def patch (position : Nat) (bytes : Bytes) (b : GrowBuffer) : Except Fault GrowBuffer := do
  let buf ← write b.buf position bytes
  .ok { b with buf }

/-- Copy pieces one after the other and stop at the first that finds no memory. -/
def appendAll (g : Growth) : List Bytes → GrowBuffer → Except Fault (Bool × GrowBuffer)
  | [], b => .ok (true, b)
  | bytes :: pieces, b => do
      let (found, b) ← append g bytes b
      if found then appendAll g pieces b else .ok (false, b)

/-- Copy pieces one after the other without a look at what became of them. -/
def appendBlindly (g : Growth) : List Bytes → GrowBuffer → Except Fault GrowBuffer
  | [], b => .ok b
  | bytes :: pieces, b => do
      let (_, b) ← append g bytes b
      appendBlindly g pieces b

/-! ### What a buffer holds -/

/-- The bytes written so far. -/
structure Holds (b : GrowBuffer) (content : Bytes) : Prop where
  length_block : (b.buf.getD []).length = b.allocated
  len_eq : b.len = content.length
  len_le : b.len ≤ b.allocated
  written : (b.buf.getD []).take b.len = content

/-- The bytes written so far are gone. -/
def Lost (b : GrowBuffer) : Prop := b.buf = none ∧ 0 < b.len

theorem holds_empty : Holds {} [] := ⟨rfl, rfl, Nat.le_refl 0, rfl⟩

variable {g : Growth} {b b' : GrowBuffer} {content bytes : Bytes} {position : Nat}

theorem Holds.ne_none (h : Holds b content) (hcontent : content ≠ []) : b.buf ≠ none := by
  intro hnone
  have hwritten := h.written
  rw [hnone, Option.getD_none, List.take_nil] at hwritten
  exact hcontent hwritten.symm

theorem Holds.read_eq (h : Holds b content) : read b.buf b.len = .ok content := by
  have hlength := h.length_block
  have hwritten := h.written
  have hle := h.len_le
  cases hbuf : b.buf with
  | none =>
      rw [hbuf] at hlength hwritten
      have hzero : b.len = 0 := by
        rw [Option.getD_none, List.length_nil] at hlength
        omega
      rw [read, if_pos hzero, ← hwritten, Option.getD_none, List.take_nil]
  | some block =>
      rw [hbuf] at hlength hwritten
      have hfits : b.len ≤ block.length := by
        rw [Option.getD_some] at hlength
        omega
      rw [read, if_pos hfits, ← hwritten, Option.getD_some]

/-- A write behind the last byte. -/
theorem Holds.write_end (h : Holds b content) (hroom : bytes.length + b.len ≤ b.allocated) :
    ∃ buf, write b.buf b.len bytes = .ok buf ∧
      Holds { b with buf, len := b.len + bytes.length } (content ++ bytes) := by
  have hlength := h.length_block
  have hwritten := h.written
  cases hbuf : b.buf with
  | none =>
      rw [hbuf] at hlength hwritten
      have hnil : bytes = [] := by
        rw [Option.getD_none, List.length_nil] at hlength
        rw [← List.length_eq_zero_iff]
        omega
      rw [Option.getD_none, List.take_nil] at hwritten
      refine ⟨none, by rw [write, if_pos hnil], ?_⟩
      rw [hnil, ← hwritten]
      refine ⟨hlength, ?_, ?_, by rw [Option.getD_none, List.take_nil]; rfl⟩
      · have hlen := h.len_eq
        rw [← hwritten] at hlen
        exact hlen
      · exact h.len_le
  | some block =>
      rw [hbuf, Option.getD_some] at hlength hwritten
      have hfits : b.len + bytes.length ≤ block.length := by omega
      refine ⟨some (memcpy block b.len bytes), by rw [write, if_pos hfits], ?_⟩
      refine ⟨?_, ?_, ?_, ?_⟩
      · show (memcpy block b.len bytes).length = b.allocated
        rw [length_memcpy hfits, hlength]
      · show b.len + bytes.length = (content ++ bytes).length
        rw [List.length_append, h.len_eq]
      · show b.len + bytes.length ≤ b.allocated
        omega
      · show (memcpy block b.len bytes).take (b.len + bytes.length) = content ++ bytes
        rw [take_memcpy hfits, hwritten]

/-- Reserving keeps what was written, or there is no memory and nothing is left. -/
theorem Holds.reserve (h : Holds b content) (size : Nat) :
    (∃ b', reserve g size b = .ok (true, b') ∧ Holds b' content ∧ size + b'.len ≤ b'.allocated) ∨
      (reserve g size b = .ok (false, { b with buf := none, allocated := g.next size b.allocated }) ∧
        g.malloc b (g.next size b.allocated) = none) := by
  have hlen := h.len_le
  by_cases hfull : size + b.len > b.allocated
  · have hnext := g.le_next size b.allocated
    cases hblock : g.malloc b (g.next size b.allocated) with
    | none =>
        right
        refine ⟨?_, rfl⟩
        rw [GrowBuffer.reserve, if_pos hfull]
        simp only [hblock]
    | some block =>
        left
        have hlength := block.2
        have hcontent := h.len_eq
        have hfits : 0 + content.length ≤ block.1.length := by omega
        have hwrite : write (some block.1) 0 content = .ok (some (memcpy block.1 0 content)) := by
          rw [write, if_pos hfits]
        refine ⟨{ b with buf := some (memcpy block.1 0 content), allocated := g.next size b.allocated },
          ?_, ?_, ?_⟩
        · rw [GrowBuffer.reserve, if_pos hfull]
          simp only [hblock, h.read_eq, ok_bind, hwrite]
        · refine ⟨?_, hcontent, ?_, ?_⟩
          · show (memcpy block.1 0 content).length = g.next size b.allocated
            rw [length_memcpy hfits, hlength]
          · show b.len ≤ g.next size b.allocated
            omega
          · show (memcpy block.1 0 content).take b.len = content
            have htake := take_memcpy hfits
            rw [Nat.zero_add, List.take_zero, List.nil_append] at htake
            rw [hcontent]
            exact htake
        · show size + b.len ≤ g.next size b.allocated
          omega
  · left
    exact ⟨b, by rw [GrowBuffer.reserve, if_neg hfull], h, by omega⟩

/-- Appending a piece appends it, or there is no memory and nothing is left. -/
theorem Holds.append_cases (h : Holds b content) (bytes : Bytes) :
    (∃ b', append g bytes b = .ok (true, b') ∧ Holds b' (content ++ bytes)) ∨
      (append g bytes b =
          .ok (false, { b with buf := none, allocated := g.next bytes.length b.allocated }) ∧
        g.malloc b (g.next bytes.length b.allocated) = none) := by
  obtain ⟨b₁, hreserve, h₁, hroom⟩ | ⟨hreserve, hmalloc⟩ := h.reserve (g := g) bytes.length
  · left
    obtain ⟨buf, hwrite, hholds⟩ := h₁.write_end hroom
    refine ⟨_, ?_, hholds⟩
    rw [GrowBuffer.append, hreserve, ok_bind]
    simp only [if_true, hwrite, ok_bind]
  · right
    refine ⟨?_, hmalloc⟩
    rw [GrowBuffer.append, hreserve, ok_bind]
    simp only [Bool.false_eq_true, if_false]

/-- A write over earlier bytes. -/
theorem Holds.patch (h : Holds b content) (hinside : position + bytes.length ≤ content.length) :
    ∃ b', patch position bytes b = .ok b' ∧ Holds b' (memcpy content position bytes) := by
  have hlength := h.length_block
  have hwritten := h.written
  have hlen := h.len_eq
  have hle := h.len_le
  cases hbuf : b.buf with
  | none =>
      have hcontent : content = [] := by
        rw [← hwritten, hbuf, Option.getD_none, List.take_nil]
      rw [hcontent, List.length_nil] at hinside
      have hbytes : bytes = [] := List.length_eq_zero_iff.mp (by omega)
      have hposition : position = 0 := by omega
      refine ⟨b, ?_, ?_⟩
      · rw [GrowBuffer.patch, hbuf, write, if_pos hbytes, ok_bind, ← hbuf]
      · rw [hbytes, hposition, hcontent]
        rw [hcontent] at h
        exact h
  | some block =>
      rw [hbuf, Option.getD_some] at hlength hwritten
      have hfits : position + bytes.length ≤ block.length := by omega
      refine ⟨{ b with buf := some (memcpy block position bytes) }, ?_, ?_⟩
      · rw [GrowBuffer.patch, hbuf, write, if_pos hfits, ok_bind]
      · refine ⟨?_, ?_, hle, ?_⟩
        · show (memcpy block position bytes).length = b.allocated
          rw [length_memcpy hfits, hlength]
        · show b.len = (memcpy content position bytes).length
          rw [length_memcpy hinside, hlen]
        · show (memcpy block position bytes).take b.len = memcpy content position bytes
          ext i : 1
          rw [List.getElem?_take, getElem?_memcpy hfits, getElem?_memcpy hinside, ← hwritten,
            List.getElem?_take]
          by_cases hi : i < b.len
          · rw [if_pos hi, if_pos hi]
          · rw [if_neg hi, if_neg (by omega), if_neg hi]

/-! ### Every sequence of operations -/

/-- A buffer that was filled by pieces and patches, and what they wrote. -/
inductive Grown (g : Growth) : GrowBuffer → Bytes → Prop
  | empty : Grown g {} []
  | append {b b' : GrowBuffer} {content : Bytes} (bytes : Bytes) : Grown g b content →
      GrowBuffer.append g bytes b = .ok (true, b') → Grown g b' (content ++ bytes)
  | patch {b b' : GrowBuffer} {content : Bytes} (position : Nat) (bytes : Bytes) : Grown g b content →
      position + bytes.length ≤ content.length → GrowBuffer.patch position bytes b = .ok b' →
      Grown g b' (memcpy content position bytes)

theorem Grown.holds (h : Grown g b content) : Holds b content := by
  induction h with
  | empty => exact holds_empty
  | append bytes _ hrun ih =>
      obtain ⟨b₁, heq, h₁⟩ | ⟨heq, -⟩ := ih.append_cases (g := g) bytes
      · rw [heq, Except.ok.injEq, Prod.mk.injEq] at hrun
        rw [← hrun.2]
        exact h₁
      · rw [heq, Except.ok.injEq, Prod.mk.injEq] at hrun
        exact absurd hrun.1 Bool.false_ne_true
  | patch position bytes _ hinside hrun ih =>
      obtain ⟨b₁, heq, h₁⟩ := ih.patch hinside
      rw [heq, Except.ok.injEq] at hrun
      rw [← hrun]
      exact h₁

/-! ### Runs in which there is memory -/

theorem Holds.append (h : Holds b content) (hmalloc : ∀ b n, (g.malloc b n).isSome) (bytes : Bytes) :
    ∃ b', append g bytes b = .ok (true, b') ∧ Holds b' (content ++ bytes) := by
  obtain happend | ⟨-, hnone⟩ := h.append_cases (g := g) bytes
  · exact happend
  · have hsome := hmalloc b (g.next bytes.length b.allocated)
    rw [hnone] at hsome
    exact absurd hsome Bool.false_ne_true

theorem Holds.appendAll (h : Holds b content) (hmalloc : ∀ b n, (g.malloc b n).isSome)
    (pieces : List Bytes) :
    ∃ b', appendAll g pieces b = .ok (true, b') ∧ Holds b' (content ++ pieces.flatten) := by
  induction pieces generalizing b content with
  | nil => exact ⟨b, rfl, by rw [List.flatten_nil, List.append_nil]; exact h⟩
  | cons bytes pieces ih =>
      obtain ⟨b₁, happend, h₁⟩ := h.append hmalloc bytes
      obtain ⟨b₂, hrest, h₂⟩ := ih h₁
      refine ⟨b₂, ?_, ?_⟩
      · rw [GrowBuffer.appendAll, happend, ok_bind]
        simp only [if_true, hrest]
      · rw [List.flatten_cons, ← List.append_assoc]
        exact h₂

theorem Holds.appendBlindly (h : Holds b content) (hmalloc : ∀ b n, (g.malloc b n).isSome)
    (pieces : List Bytes) :
    ∃ b', appendBlindly g pieces b = .ok b' ∧ Holds b' (content ++ pieces.flatten) := by
  induction pieces generalizing b content with
  | nil => exact ⟨b, rfl, by rw [List.flatten_nil, List.append_nil]; exact h⟩
  | cons bytes pieces ih =>
      obtain ⟨b₁, happend, h₁⟩ := h.append hmalloc bytes
      obtain ⟨b₂, hrest, h₂⟩ := ih h₁
      refine ⟨b₂, ?_, ?_⟩
      · rw [GrowBuffer.appendBlindly, happend, ok_bind]
        exact hrest
      · rw [List.flatten_cons, ← List.append_assoc]
        exact h₂

/-! ### Runs in which memory may run out -/

/-- The calls that report success appended their pieces. -/
theorem Holds.of_appendAll (h : Holds b content) {pieces : List Bytes}
    (hrun : GrowBuffer.appendAll g pieces b = .ok (true, b')) : Holds b' (content ++ pieces.flatten) := by
  induction pieces generalizing b content with
  | nil =>
      rw [GrowBuffer.appendAll, Except.ok.injEq, Prod.mk.injEq] at hrun
      rw [List.flatten_nil, List.append_nil, ← hrun.2]
      exact h
  | cons bytes pieces ih =>
      rw [GrowBuffer.appendAll, bind_eq_ok] at hrun
      obtain ⟨⟨found, b₁⟩, happend, hrest⟩ := hrun
      obtain ⟨b₂, heq, h₂⟩ | ⟨heq, -⟩ := h.append_cases (g := g) bytes
      · rw [heq, Except.ok.injEq, Prod.mk.injEq] at happend
        rw [← happend.1, ← happend.2] at hrest
        rw [List.flatten_cons, ← List.append_assoc]
        exact ih h₂ hrest
      · rw [heq, Except.ok.injEq, Prod.mk.injEq] at happend
        rw [← happend.1] at hrest
        simp only [Bool.false_eq_true, if_false, Except.ok.injEq, Prod.mk.injEq, false_and] at hrest

theorem write_none (hbytes : bytes ≠ []) : write none position bytes = .error .undefined := by
  rw [write, if_neg hbytes]

theorem Lost.append (h : Lost b) {found : Bool} (hrun : append g bytes b = .ok (found, b')) : Lost b' := by
  obtain ⟨hbuf, hlen⟩ := h
  rw [GrowBuffer.append, bind_eq_ok] at hrun
  obtain ⟨⟨reserved, b₁⟩, hreserve, hrest⟩ := hrun
  have hlost : b₁.buf = none ∧ 0 < b₁.len := by
    rw [GrowBuffer.reserve] at hreserve
    by_cases hfull : bytes.length + b.len > b.allocated
    · rw [if_pos hfull] at hreserve
      cases hblock : g.malloc b (g.next bytes.length b.allocated) with
      | none =>
          simp only [hblock, Except.ok.injEq, Prod.mk.injEq] at hreserve
          rw [← hreserve.2]
          exact ⟨rfl, hlen⟩
      | some block =>
          have hread : read b.buf b.len = .error .undefined := by
            rw [hbuf, read, if_neg (by omega)]
          simp only [hblock, hread] at hreserve
          cases hreserve
    · rw [if_neg hfull, Except.ok.injEq, Prod.mk.injEq] at hreserve
      rw [← hreserve.2]
      exact ⟨hbuf, hlen⟩
  by_cases hreserved : reserved = true
  · simp only [hreserved, if_true, bind_eq_ok, hlost.1] at hrest
    obtain ⟨buf, hwrite, heq⟩ := hrest
    by_cases hbytes : bytes = []
    · rw [write, if_pos hbytes, Except.ok.injEq] at hwrite
      rw [Except.ok.injEq, Prod.mk.injEq] at heq
      rw [← heq.2, ← hwrite]
      exact ⟨rfl, Nat.add_pos_left hlost.2 _⟩
    · rw [write_none hbytes] at hwrite
      cases hwrite
  · simp only [hreserved, Bool.false_eq_true, if_false, Except.ok.injEq, Prod.mk.injEq] at hrest
    rw [← hrest.2]
    exact hlost

/-- The bytes written so far are there, or are gone. -/
def Holding (b : GrowBuffer) (content : Bytes) : Prop := Holds b content ∨ Lost b

theorem Holding.appendBlindly (h : Holding b content) (hcontent : content ≠ []) {pieces : List Bytes}
    (hrun : GrowBuffer.appendBlindly g pieces b = .ok b') : Holding b' (content ++ pieces.flatten) := by
  induction pieces generalizing b content with
  | nil =>
      rw [GrowBuffer.appendBlindly, Except.ok.injEq] at hrun
      rw [List.flatten_nil, List.append_nil, ← hrun]
      exact h
  | cons bytes pieces ih =>
      rw [GrowBuffer.appendBlindly, bind_eq_ok] at hrun
      obtain ⟨⟨found, b₁⟩, happend, hrest⟩ := hrun
      rw [List.flatten_cons, ← List.append_assoc]
      apply ih _ (List.append_ne_nil_of_left_ne_nil hcontent bytes) hrest
      obtain hholds | hlost := h
      · obtain ⟨b₂, heq, h₂⟩ | ⟨heq, -⟩ := hholds.append_cases (g := g) bytes
        · rw [heq, Except.ok.injEq, Prod.mk.injEq] at happend
          rw [← happend.2]
          exact .inl h₂
        · rw [heq, Except.ok.injEq, Prod.mk.injEq] at happend
          rw [← happend.2]
          refine .inr ⟨rfl, ?_⟩
          show 0 < b.len
          rw [hholds.len_eq]
          exact List.length_pos_of_ne_nil hcontent
      · exact .inr (hlost.append happend)

/-- The first pieces of a buffer: if the first finds no memory, the second goes through the null
pointer. -/
theorem holding_of_appendBlindly {first second : Bytes} (hfirst : first ≠ []) (hsecond : second ≠ [])
    (hfits : second.length ≤ g.next first.length 0) {pieces : List Bytes}
    (hrun : GrowBuffer.appendBlindly g (first :: second :: pieces) {} = .ok b') :
    Holding b' (first ++ (second ++ pieces.flatten)) := by
  rw [GrowBuffer.appendBlindly, bind_eq_ok] at hrun
  obtain ⟨⟨found, b₁⟩, happend, hrest⟩ := hrun
  obtain ⟨b₂, heq, h₂⟩ | ⟨heq, -⟩ := holds_empty.append_cases (g := g) first
  · rw [heq, Except.ok.injEq, Prod.mk.injEq] at happend
    rw [← happend.2] at hrest
    exact Holding.appendBlindly (.inl h₂) hfirst hrest
  · rw [heq, Except.ok.injEq, Prod.mk.injEq] at happend
    have hrest' : GrowBuffer.appendBlindly g (second :: pieces)
        { buf := none, allocated := g.next first.length 0 } = .ok b' := by
      rw [happend.2]
      exact hrest
    rw [GrowBuffer.appendBlindly, bind_eq_ok] at hrest'
    obtain ⟨⟨found', b₃⟩, happend', -⟩ := hrest'
    have hroom : ¬ second.length + 0 > g.next first.length 0 := by omega
    rw [GrowBuffer.append, GrowBuffer.reserve, if_neg hroom, ok_bind] at happend'
    simp only [if_true, write_none hsecond] at happend'
    cases happend'

/-- A patch of lost bytes goes through the null pointer. -/
theorem Holding.holds_of_patch (h : Holding b content) (hbytes : bytes ≠ [])
    (hrun : GrowBuffer.patch position bytes b = .ok b') : Holds b content := by
  obtain hholds | ⟨hbuf, -⟩ := h
  · exact hholds
  · rw [GrowBuffer.patch, hbuf, write_none hbytes] at hrun
    cases hrun

theorem Holding.patch (h : Holding b content) (hinside : position + bytes.length ≤ content.length)
    (hbytes : bytes ≠ []) (hrun : GrowBuffer.patch position bytes b = .ok b') :
    Holding b' (memcpy content position bytes) := by
  obtain ⟨b₂, heq, h₂⟩ := (h.holds_of_patch hbytes hrun).patch hinside
  rw [heq, Except.ok.injEq] at hrun
  rw [← hrun]
  exact .inl h₂

/-! ### Programs that fill a buffer -/

/-- A program that makes a buffer with this content, unless the memory for it runs out. -/
structure Writes (g : Growth) (program : Except Fault GrowBuffer) (content : Bytes) : Prop where
  holding : ∀ b', program = .ok b' → Holding b' content
  exists_ok : (∀ b n, (g.malloc b n).isSome) → ∃ b', program = .ok b' ∧ Holds b' content

/-- A program that makes one content into another one. -/
structure Rewrites (g : Growth) (content : Bytes) (program : GrowBuffer → Except Fault GrowBuffer)
    (content' : Bytes) : Prop where
  holding : ∀ b b', Holding b content → program b = .ok b' → Holding b' content'
  exists_ok : (∀ b n, (g.malloc b n).isSome) → ∀ b, Holds b content →
    ∃ b', program b = .ok b' ∧ Holds b' content'

variable {content' content'' : Bytes} {program : Except Fault GrowBuffer}
  {next next' : GrowBuffer → Except Fault GrowBuffer}

theorem Writes.bind (h : Writes g program content) (hnext : Rewrites g content next content') :
    Writes g (program >>= next) content' := by
  constructor
  · intro b' hrun
    obtain ⟨b, hprogram, hrest⟩ := bind_eq_ok.mp hrun
    exact hnext.holding b b' (h.holding b hprogram) hrest
  · intro hmalloc
    obtain ⟨b, hprogram, hholds⟩ := h.exists_ok hmalloc
    rw [hprogram, ok_bind]
    exact hnext.exists_ok hmalloc b hholds

theorem Rewrites.bind (h : Rewrites g content next content') (hnext : Rewrites g content' next' content'') :
    Rewrites g content (fun b => next b >>= next') content'' := by
  constructor
  · intro b b'' hb hrun
    obtain ⟨b', hprogram, hrest⟩ := bind_eq_ok.mp hrun
    exact hnext.holding b' b'' (h.holding b b' hb hprogram) hrest
  · intro hmalloc b hb
    obtain ⟨b', hprogram, hholds⟩ := h.exists_ok hmalloc b hb
    rw [hprogram, ok_bind]
    exact hnext.exists_ok hmalloc b' hholds

theorem rewrites_appendBlindly (hcontent : content ≠ []) (pieces : List Bytes) :
    Rewrites g content (GrowBuffer.appendBlindly g pieces) (content ++ pieces.flatten) :=
  ⟨fun _ _ hb hrun => hb.appendBlindly hcontent hrun,
    fun hmalloc _ hb => hb.appendBlindly hmalloc pieces⟩

theorem writes_appendBlindly {first second : Bytes} (hfirst : first ≠ []) (hsecond : second ≠ [])
    (hfits : second.length ≤ g.next first.length 0) (pieces : List Bytes) :
    Writes g (GrowBuffer.appendBlindly g (first :: second :: pieces) {})
      (first :: second :: pieces).flatten :=
  ⟨fun _ hrun => holding_of_appendBlindly hfirst hsecond hfits hrun,
    fun hmalloc => holds_empty.appendBlindly hmalloc (first :: second :: pieces)⟩

end GrowBuffer

end CodeStudy
