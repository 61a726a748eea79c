import Mathlib.Data.List.Induction
import Mathlib.Algebra.Order.Group.Int

/-!
# The area of a screen shot

The area is kept as two opposite corners and an offset. A drag of an edge writes both corners anew on every move
of the mouse, from the rectangle that they spanned before. Coordinates are those of pixels on the screen, where
the sums and differences of a few of them always fit an `int`.
-/

namespace CodeStudy.ScreenShot

/-! ### Points and rectangles -/

@[ext]
structure QPoint where
  x : Int
  y : Int
  deriving DecidableEq, Repr

namespace QPoint

instance : Add QPoint := ⟨fun p q => ⟨p.x + q.x, p.y + q.y⟩⟩

instance : Sub QPoint := ⟨fun p q => ⟨p.x - q.x, p.y - q.y⟩⟩

@[simp] theorem add_x (p q : QPoint) : (p + q).x = p.x + q.x := rfl

@[simp] theorem add_y (p q : QPoint) : (p + q).y = p.y + q.y := rfl

@[simp] theorem sub_x (p q : QPoint) : (p - q).x = p.x - q.x := rfl

@[simp] theorem sub_y (p q : QPoint) : (p - q).y = p.y - q.y := rfl

end QPoint

/-- The first and the last column and row of pixels that belong to a rectangle. -/
@[ext]
structure QRect where
  left : Int
  top : Int
  right : Int
  bottom : Int
  deriving DecidableEq, Repr

namespace QRect

def ofSize (x y w h : Int) : QRect := ⟨x, y, x + w - 1, y + h - 1⟩

def topLeft (rect : QRect) : QPoint := ⟨rect.left, rect.top⟩

def bottomRight (rect : QRect) : QPoint := ⟨rect.right, rect.bottom⟩

def width (rect : QRect) : Int := rect.right - rect.left + 1

def height (rect : QRect) : Int := rect.bottom - rect.top + 1

def contains (rect : QRect) (pos : QPoint) : Bool :=
  rect.left ≤ pos.x ∧ pos.x ≤ rect.right ∧ rect.top ≤ pos.y ∧ pos.y ≤ rect.bottom

end QRect

def qAbs (n : Int) : Int := if n ≥ 0 then n else -n

/-! ### The area -/

inductive AreaType where
  | initSelectArea | resizeSelectArea | moveSelectArea
  deriving DecidableEq, Repr

inductive Border where
  | none | left | top | right | bottom
  deriving DecidableEq, Repr

structure SelectShotArea where
  isInitPressed : Bool := false
  isResizePressed : Bool := false
  isMovePressed : Bool := false
  initPressed : QPoint := ⟨0, 0⟩
  initMove : QPoint := ⟨0, 0⟩
  movePressedPos : QPoint := ⟨0, 0⟩
  moveOffset : QPoint := ⟨0, 0⟩
  type : AreaType := .initSelectArea
  /-- Not set before the first press. -/
  border : Border
  deriving DecidableEq, Repr

namespace SelectShotArea

def rt (area : SelectShotArea) : QRect :=
  let p1 := area.initPressed + area.moveOffset
  let p2 := area.initMove + area.moveOffset
  .ofSize (min p1.x p2.x) (min p1.y p2.y) (qAbs (p1.x - p2.x)) (qAbs (p1.y - p2.y))

def judgeBorder (area : SelectShotArea) (pos : QPoint) : Border :=
  let rect := area.rt
  if qAbs (pos.x - rect.left) < 8 ∧ pos.y > rect.top ∧ pos.y < rect.bottom then .left
  else if qAbs (pos.x - rect.right) < 8 ∧ pos.y > rect.top ∧ pos.y < rect.bottom then .right
  else if qAbs (pos.y - rect.top) < 8 ∧ pos.x > rect.left ∧ pos.x < rect.right then .top
  else if qAbs (pos.y - rect.bottom) < 8 ∧ pos.x > rect.left ∧ pos.x < rect.right then .bottom
  else .none

def isInArea (area : SelectShotArea) (pos : QPoint) : Bool := area.rt.contains pos

def mousePressed (area : SelectShotArea) (pos : QPoint) : SelectShotArea :=
  let area := { area with border := area.judgeBorder pos }
  if area.border ≠ .none then { area with type := .resizeSelectArea, isResizePressed := true }
  else if area.isInArea pos then
    { area with type := .moveSelectArea, isMovePressed := true, movePressedPos := pos }
  else if area.type = .initSelectArea then { area with isInitPressed := true, initMove := pos, initPressed := pos }
  else area

def mouseRelease (area : SelectShotArea) : SelectShotArea :=
  let area := { area with isResizePressed := false, isInitPressed := false }
  if area.isMovePressed then
    { area with
      isMovePressed := false
      initPressed := area.initPressed + area.moveOffset
      initMove := area.initMove + area.moveOffset
      moveOffset := ⟨0, 0⟩ }
  else area

def mouseMove (area : SelectShotArea) (pos : QPoint) : SelectShotArea :=
  if area.isInitPressed then { area with initMove := pos }
  else if area.isMovePressed then { area with moveOffset := pos - area.movePressedPos }
  else if area.isResizePressed then
    let tl := area.rt.topLeft
    let br := area.rt.bottomRight
    let (tl, br) : QPoint × QPoint :=
      match area.border with
      | .left => (⟨pos.x, tl.y⟩, br)
      | .right => (tl, ⟨pos.x, br.y⟩)
      | .top => (⟨tl.x, pos.y⟩, br)
      | .bottom => (tl, ⟨br.x, pos.y⟩)
      | .none => (tl, br)
    { area with initPressed := tl, initMove := br + ⟨1, 1⟩ }
  else area

/-- The mouse moves from position to position. -/
def mouseMoves (area : SelectShotArea) (positions : List QPoint) : SelectShotArea := positions.foldl mouseMove area

end SelectShotArea

/-! ### What a drag should do -/

/-- The lines between pixels that a rectangle stands between from left to right. -/
def QRect.columns (rect : QRect) : Int × Int := (rect.left, rect.right + 1)

/-- The lines between pixels that a rectangle stands between from top to bottom. -/
def QRect.rows (rect : QRect) : Int × Int := (rect.top, rect.bottom + 1)

namespace Border

/-- The lines of a rectangle that an edge is parallel to. -/
def along (border : Border) (rect : QRect) : Int × Int :=
  match border with
  | .left | .right => rect.columns
  | .top | .bottom | .none => rect.rows

/-- The lines of a rectangle that an edge ends at. -/
def across (border : Border) (rect : QRect) : Int × Int :=
  match border with
  | .left | .right => rect.rows
  | .top | .bottom | .none => rect.columns

/-- The line that an edge is dragged to. The pixel of the mouse stays inside. -/
def line (border : Border) (pos : QPoint) : Int :=
  match border with
  | .left => pos.x
  | .right => pos.x + 1
  | .top | .none => pos.y
  | .bottom => pos.y + 1

/-- The line of the edge on the other side. -/
def opposite (border : Border) (rect : QRect) : Int :=
  match border with
  | .left => rect.right + 1
  | .right => rect.left
  | .top | .none => rect.bottom + 1
  | .bottom => rect.top

/-- An edge that is dragged towards the opposite one comes to the first line before it comes to the second. -/
def Before (border : Border) (line line' : Int) : Prop :=
  match border with
  | .left | .top | .none => line < line'
  | .right | .bottom => line' < line

/-- An edge that is dragged to the mouse is dragged over a line. -/
def Crosses (border : Border) (anchor : Int) (pos : QPoint) : Prop := border.Before anchor (border.line pos)

/-- A rectangle stands between the opposite edge of an old one and the mouse, and is as it was the other way. -/
structure Spans (border : Border) (old : QRect) (pos : QPoint) (rect : QRect) : Prop where
  along : border.along rect = (min (border.opposite old) (border.line pos), max (border.opposite old) (border.line pos))
  across : border.across rect = border.across old

end Border

namespace Border

theorem before_irrefl (border : Border) (line : Int) : ¬ border.Before line line := by
  cases border <;> exact lt_irrefl line

/-- The opposite edge stays where it is unless the mouse crosses it, and then it goes with the mouse. -/
theorem Spans.opposite {border : Border} {old rect : QRect} {pos : QPoint} (h : border.Spans old pos rect)
    (hne : border ≠ .none) {anchor : Int} (hbefore : ¬ border.Before (border.opposite old) anchor) :
    ¬ border.Before (border.opposite rect) anchor ∧
      (border.opposite rect = anchor ↔ border.opposite old = anchor ∧ ¬ border.Crosses anchor pos) := by
  have halong := h.along
  cases border with
  | none => exact absurd rfl hne
  | left | right | top | bottom =>
      simp only [Before, Crosses, Border.along, QRect.columns, QRect.rows, Border.opposite, line, Prod.mk.injEq] at *
      omega

end Border

namespace SelectShotArea

/-- No button is pressed. -/
structure Idle (area : SelectShotArea) : Prop where
  isInitPressed : area.isInitPressed = false
  isResizePressed : area.isResizePressed = false
  isMovePressed : area.isMovePressed = false
  moveOffset : area.moveOffset = ⟨0, 0⟩

/-- An edge is being dragged. -/
structure Resizing (area : SelectShotArea) (border : Border) : Prop where
  isInitPressed : area.isInitPressed = false
  isResizePressed : area.isResizePressed = true
  isMovePressed : area.isMovePressed = false
  moveOffset : area.moveOffset = ⟨0, 0⟩
  border_eq : area.border = border
  ne_none : border ≠ .none

theorem columns_rt (area : SelectShotArea) : area.rt.columns =
    (min area.initPressed.x area.initMove.x + area.moveOffset.x, max area.initPressed.x area.initMove.x + area.moveOffset.x) := by
  simp only [rt, QRect.columns, QRect.ofSize, QPoint.add_x, qAbs, Prod.mk.injEq]
  omega

theorem rows_rt (area : SelectShotArea) : area.rt.rows =
    (min area.initPressed.y area.initMove.y + area.moveOffset.y, max area.initPressed.y area.initMove.y + area.moveOffset.y) := by
  simp only [rt, QRect.rows, QRect.ofSize, QPoint.add_y, qAbs, Prod.mk.injEq]
  omega

/-! ### Dragging an edge -/

/-- The corners that a move of a dragged edge writes. -/
def dragged (border : Border) (rect : QRect) (pos : QPoint) : QPoint × QPoint :=
  match border with
  | .left => (⟨pos.x, rect.top⟩, ⟨rect.right + 1, rect.bottom + 1⟩)
  | .right => (⟨rect.left, rect.top⟩, ⟨pos.x + 1, rect.bottom + 1⟩)
  | .top => (⟨rect.left, pos.y⟩, ⟨rect.right + 1, rect.bottom + 1⟩)
  | .bottom => (⟨rect.left, rect.top⟩, ⟨rect.right + 1, pos.y + 1⟩)
  | .none => (⟨rect.left, rect.top⟩, ⟨rect.right + 1, rect.bottom + 1⟩)

theorem Resizing.mouseMove_eq {area : SelectShotArea} {border : Border} (h : area.Resizing border) (pos : QPoint) :
    area.mouseMove pos =
      { area with initPressed := (dragged border area.rt pos).1, initMove := (dragged border area.rt pos).2 } := by
  rw [SelectShotArea.mouseMove, if_neg (by simp [h.isInitPressed]), if_neg (by simp [h.isMovePressed]),
    if_pos h.isResizePressed, h.border_eq]
  cases border <;> rfl

/-- A move puts the dragged edge where the mouse is, opposite to the edge as it was before the move. -/
theorem Resizing.mouseMove {area : SelectShotArea} {border : Border} (h : area.Resizing border) (pos : QPoint) :
    (area.mouseMove pos).Resizing border ∧ border.Spans area.rt pos (area.mouseMove pos).rt := by
  have hstep := h.mouseMove_eq pos
  refine ⟨?_, ?_⟩
  · rw [hstep]
    exact ⟨h.isInitPressed, h.isResizePressed, h.isMovePressed, h.moveOffset, h.border_eq, h.ne_none⟩
  · have hcolumns := (area.mouseMove pos).columns_rt
    have hrows := (area.mouseMove pos).rows_rt
    have hleft := Prod.mk.inj area.columns_rt
    have htop := Prod.mk.inj area.rows_rt
    have hoffset : (area.mouseMove pos).moveOffset = ⟨0, 0⟩ := by rw [hstep, h.moveOffset]
    rw [hoffset, hstep] at hcolumns hrows
    rw [hstep]
    generalize area.rt = rect at *
    cases border with
    | none => exact absurd rfl h.ne_none
    | left =>
        refine ⟨hcolumns.trans ?_, hrows.trans ?_⟩
        · simp [dragged, Border.opposite, Border.line, min_comm, max_comm]
        · simp [dragged, Border.across, QRect.rows]
          omega
    | right =>
        refine ⟨hcolumns.trans ?_, hrows.trans ?_⟩
        · simp [dragged, Border.opposite, Border.line]
        · simp [dragged, Border.across, QRect.rows]
          omega
    | top =>
        refine ⟨hrows.trans ?_, hcolumns.trans ?_⟩
        · simp [dragged, Border.opposite, Border.line, min_comm, max_comm]
        · simp [dragged, Border.across, QRect.columns]
          omega
    | bottom =>
        refine ⟨hrows.trans ?_, hcolumns.trans ?_⟩
        · simp [dragged, Border.opposite, Border.line]
        · simp [dragged, Border.across, QRect.columns]
          omega

/-- The opposite edge never comes back to where a drag began once it has left it. -/
theorem Resizing.mouseMoves {area : SelectShotArea} {border : Border} (h : area.Resizing border) (positions : List QPoint) :
    (area.mouseMoves positions).Resizing border ∧
      border.across (area.mouseMoves positions).rt = border.across area.rt ∧
      ¬ border.Before (border.opposite (area.mouseMoves positions).rt) (border.opposite area.rt) ∧
      (border.opposite (area.mouseMoves positions).rt = border.opposite area.rt ↔
        ∀ pos ∈ positions, ¬ border.Crosses (border.opposite area.rt) pos) := by
  induction positions using List.reverseRecOn with
  | nil => exact ⟨h, rfl, border.before_irrefl _, iff_of_true rfl nofun⟩
  | append_singleton positions pos ih =>
      obtain ⟨hresizing, hacross, hbefore, hiff⟩ := ih
      obtain ⟨hnext, hspans⟩ := hresizing.mouseMove pos
      have hmoves : area.mouseMoves (positions ++ [pos]) = (area.mouseMoves positions).mouseMove pos := by
        rw [SelectShotArea.mouseMoves, List.foldl_append]
        rfl
      obtain ⟨hbefore', hiff'⟩ := hspans.opposite h.ne_none hbefore
      rw [hmoves]
      refine ⟨hnext, hspans.across.trans hacross, hbefore', hiff'.trans ?_⟩
      rw [hiff, List.forall_mem_append, List.forall_mem_singleton]

/-- The corners are at most one pixel outside a square around the origin. -/
def Within (bound : Int) (area : SelectShotArea) : Prop :=
  ∀ c ∈ [area.initPressed.x, area.initPressed.y, area.initMove.x, area.initMove.y], -bound ≤ c ∧ c ≤ bound + 1

/-- A drag of an edge does not leave a square that the area and the mouse are in, so no coordinate leaves the
range of its type. -/
theorem Resizing.within {area : SelectShotArea} {border : Border} (h : area.Resizing border) {bound : Int}
    (hwithin : area.Within bound) {positions : List QPoint}
    (hpositions : ∀ pos ∈ positions, (-bound ≤ pos.x ∧ pos.x ≤ bound) ∧ -bound ≤ pos.y ∧ pos.y ≤ bound) :
    (area.mouseMoves positions).Within bound := by
  induction positions using List.reverseRecOn with
  | nil => exact hwithin
  | append_singleton positions pos ih =>
      rw [List.forall_mem_append, List.forall_mem_singleton] at hpositions
      obtain ⟨hpositions, hpos⟩ := hpositions
      have hbefore := ih hpositions
      have hresizing := (h.mouseMoves positions).1
      have hmoves : area.mouseMoves (positions ++ [pos]) = (area.mouseMoves positions).mouseMove pos := by
        rw [SelectShotArea.mouseMoves, List.foldl_append]
        rfl
      have hcolumns := (area.mouseMoves positions).columns_rt
      have hrows := (area.mouseMoves positions).rows_rt
      rw [hresizing.moveOffset] at hcolumns hrows
      rw [hmoves, hresizing.mouseMove_eq]
      generalize (area.mouseMoves positions).rt = rect at *
      simp only [Within, List.forall_mem_cons, List.not_mem_nil, false_imp_iff, forall_const, QRect.columns, QRect.rows,
        Prod.mk.injEq] at *
      cases border with
      | none => exact absurd rfl h.ne_none
      | left | right | top | bottom =>
          simp only [dragged, and_true]
          omega

/-! ### Moving the area -/

/-- The whole area is being moved. -/
structure Moving (area : SelectShotArea) : Prop where
  isInitPressed : area.isInitPressed = false
  isMovePressed : area.isMovePressed = true

/-- The offset is that of the last position. -/
theorem Moving.mouseMoves_eq {area : SelectShotArea} (h : area.Moving) (positions : List QPoint) :
    area.mouseMoves positions =
      { area with moveOffset := (positions.getLast?.map (· - area.movePressedPos)).getD area.moveOffset } := by
  induction positions using List.reverseRecOn with
  | nil => rfl
  | append_singleton positions pos ih =>
      have hmoves : area.mouseMoves (positions ++ [pos]) = (area.mouseMoves positions).mouseMove pos := by
        rw [SelectShotArea.mouseMoves, List.foldl_append]
        rfl
      rw [hmoves, ih, mouseMove, List.getLast?_concat]
      simp only [h.isInitPressed, h.isMovePressed, Bool.false_eq_true, if_false, if_true]
      rfl

/-- An offset moves the rectangle. -/
theorem rt_moveOffset (area : SelectShotArea) (offset : QPoint) :
    { area with moveOffset := offset }.rt.topLeft = { area with moveOffset := ⟨0, 0⟩ }.rt.topLeft + offset ∧
      { area with moveOffset := offset }.rt.width = { area with moveOffset := ⟨0, 0⟩ }.rt.width ∧
      { area with moveOffset := offset }.rt.height = { area with moveOffset := ⟨0, 0⟩ }.rt.height := by
  simp only [rt, QRect.topLeft, QRect.width, QRect.height, QRect.ofSize, QPoint.add_x, QPoint.add_y, QPoint.ext_iff, qAbs]
  omega

/-- A release keeps the rectangle. -/
theorem rt_mouseRelease {area : SelectShotArea} (h : area.isMovePressed = true) : area.mouseRelease.rt = area.rt := by
  rw [mouseRelease]
  simp only [h, if_true]
  simp only [rt, QPoint.add_x, QPoint.add_y, add_zero]

/-! ### A drag -/

/-- What happens to the area during a drag, after every move of the mouse. -/
structure FollowsMouse (area : SelectShotArea) (press : QPoint) (moves : List QPoint) : Prop where
  resize : area.judgeBorder press ≠ .none → ∀ before pos, before ++ [pos] <+: moves →
    (area.judgeBorder press).Spans area.rt pos ((area.mousePressed press).mouseMoves (before ++ [pos])).rt
  move : area.judgeBorder press = .none → area.isInArea press → ∀ before, before <+: moves →
    let moved := (area.mousePressed press).mouseMoves before
    moved.rt.topLeft = area.rt.topLeft + ((press :: before).getLast (List.cons_ne_nil _ _) - press) ∧
      moved.rt.width = area.rt.width ∧ moved.rt.height = area.rt.height ∧ moved.mouseRelease.rt = moved.rt

/-- An area at rest. -/
abbrev IdleArea : Type := { area : SelectShotArea // area.Idle }

theorem Idle.resizing {area : SelectShotArea} (h : area.Idle) {press : QPoint} (hborder : area.judgeBorder press ≠ .none) :
    (area.mousePressed press).Resizing (area.judgeBorder press) ∧ (area.mousePressed press).rt = area.rt := by
  have hpress : area.mousePressed press =
      { area with border := area.judgeBorder press, type := .resizeSelectArea, isResizePressed := true } := if_pos hborder
  rw [hpress]
  exact ⟨⟨h.isInitPressed, rfl, h.isMovePressed, h.moveOffset, rfl, hborder⟩, rfl⟩

theorem moving {area : SelectShotArea} {press : QPoint} (hborder : area.judgeBorder press = .none)
    (hinside : area.isInArea press) : area.mousePressed press =
      { area with border := .none, type := .moveSelectArea, isMovePressed := true, movePressedPos := press } := by
  rw [mousePressed, hborder]
  simp only [ne_eq, not_true_eq_false, if_false]
  exact if_pos hinside

/-- The offset from the press to where the mouse is now. -/
theorem getD_getLast?_sub (press : QPoint) (positions : List QPoint) :
    (positions.getLast?.map (· - press)).getD ⟨0, 0⟩ = (press :: positions).getLast (List.cons_ne_nil _ _) - press := by
  rcases List.eq_nil_or_concat positions with rfl | ⟨before, pos, rfl⟩
  · ext
    · exact (sub_self press.x).symm
    · exact (sub_self press.y).symm
  · rw [List.concat_eq_append, List.getLast?_concat, List.getLast_cons (by simp), List.getLast_concat]
    rfl

theorem Idle.moves {area : SelectShotArea} (h : area.Idle) {press : QPoint} (hborder : area.judgeBorder press = .none)
    (hinside : area.isInArea press) (positions : List QPoint) :
    ((area.mousePressed press).mouseMoves positions).rt.topLeft =
        area.rt.topLeft + ((press :: positions).getLast (List.cons_ne_nil _ _) - press) ∧
      ((area.mousePressed press).mouseMoves positions).rt.width = area.rt.width ∧
      ((area.mousePressed press).mouseMoves positions).rt.height = area.rt.height ∧
      ((area.mousePressed press).mouseMoves positions).mouseRelease.rt =
        ((area.mousePressed press).mouseMoves positions).rt := by
  have hmoving : (area.mousePressed press).Moving := by
    rw [moving hborder hinside]
    exact ⟨h.isInitPressed, rfl⟩
  have hmoved : (area.mousePressed press).mouseMoves positions = { area with
      border := .none
      type := .moveSelectArea
      isMovePressed := true
      movePressedPos := press
      moveOffset := (press :: positions).getLast (List.cons_ne_nil _ _) - press } := by
    rw [hmoving.mouseMoves_eq, moving hborder hinside]
    simp only [h.moveOffset, getD_getLast?_sub]
  rw [hmoved, rt_mouseRelease rfl]
  obtain ⟨htopLeft, hwidth, hheight⟩ :=
    area.rt_moveOffset ((press :: positions).getLast (List.cons_ne_nil _ _) - press)
  have hrest : { area with moveOffset := ⟨0, 0⟩ } = area := by rw [← h.moveOffset]
  rw [hrest] at htopLeft hwidth hheight
  exact ⟨htopLeft, hwidth, hheight, rfl⟩

/-- After a move that follows others the dragged edge is where the mouse is and the opposite edge where it was, if
and only if the others did not cross it. -/
theorem Idle.spans_iff {area : SelectShotArea} (h : area.Idle) {press : QPoint} (hborder : area.judgeBorder press ≠ .none)
    (before : List QPoint) (pos : QPoint) :
    (area.judgeBorder press).Spans area.rt pos ((area.mousePressed press).mouseMoves (before ++ [pos])).rt ↔
      ∀ p ∈ before, ¬ (area.judgeBorder press).Crosses ((area.judgeBorder press).opposite area.rt) p := by
  obtain ⟨hresizing, hrt⟩ := h.resizing hborder
  obtain ⟨hbefore, hacross, -, hiff⟩ := hresizing.mouseMoves before
  have hspans := (hbefore.mouseMove pos).2
  have hmoves : (area.mousePressed press).mouseMoves (before ++ [pos]) =
      ((area.mousePressed press).mouseMoves before).mouseMove pos := by
    rw [SelectShotArea.mouseMoves, List.foldl_append]
    rfl
  rw [hrt] at hacross hiff
  rw [hmoves, ← hiff]
  constructor
  · intro hold
    have halong := Prod.mk.inj (hspans.along.symm.trans hold.along)
    omega
  · intro hopposite
    refine ⟨?_, hspans.across.trans hacross⟩
    rw [hspans.along, hopposite]

/-- The area follows the mouse if and only if it is not an edge that is dragged, or no position but the last is
behind the opposite edge as it was at the press. -/
theorem followsMouse_iff (area : IdleArea) (press : QPoint) (moves : List QPoint) :
    area.1.FollowsMouse press moves ↔ (area.1.judgeBorder press ≠ .none → ∀ pos ∈ moves.dropLast,
      ¬ (area.1.judgeBorder press).Crosses ((area.1.judgeBorder press).opposite area.1.rt) pos) := by
  obtain ⟨area, hidle⟩ := area
  by_cases hborder : area.judgeBorder press = .none
  · refine iff_of_true ⟨fun hne => absurd hborder hne, fun _ hinside before _ => ?_⟩ fun hne => absurd hborder hne
    exact hidle.moves hborder hinside before
  rw [forall_prop_of_true hborder]
  constructor
  · intro h
    rcases List.eq_nil_or_concat moves with rfl | ⟨before, pos, rfl⟩
    · exact nofun
    · rw [List.concat_eq_append] at h
      rw [List.concat_eq_append, List.dropLast_concat]
      exact (hidle.spans_iff hborder before pos).mp (h.resize hborder before pos List.prefix_rfl)
  · intro h
    refine ⟨fun _ before pos hprefix => (hidle.spans_iff hborder before pos).mpr fun p hp => h p ?_,
      fun hnone => absurd hnone hborder⟩
    obtain ⟨rest, rfl⟩ := hprefix
    cases rest with
    | nil =>
        rw [List.append_nil, List.dropLast_concat]
        exact hp
    | cons q rest =>
        rw [List.dropLast_append_of_ne_nil (List.cons_ne_nil _ _)]
        exact List.mem_append_left _ (List.mem_append_left _ hp)

/-- A square that was selected before, a hundred pixels wide. -/
def selected : SelectShotArea :=
  { initMove := ⟨100, 100⟩, type := .resizeSelectArea, border := .none }

/-- The left edge is dragged over the right one and a bit back: the area begins at the mouse and ends where the
mouse turned. -/
theorem not_followsMouse_turn :
    ((selected.mousePressed ⟨0, 50⟩).mouseMoves [⟨150, 50⟩, ⟨120, 50⟩]).rt = ⟨120, 0, 149, 99⟩ ∧
      selected.Idle ∧ ¬ selected.FollowsMouse ⟨0, 50⟩ [⟨150, 50⟩, ⟨120, 50⟩] := by
  refine ⟨by decide, ⟨rfl, rfl, rfl, rfl⟩, fun h => ?_⟩
  have hspans := h.resize (by decide) [⟨150, 50⟩] ⟨120, 50⟩ List.prefix_rfl
  exact absurd hspans.along (by decide)

/-! ### Between the drags -/

/-- An offset is there only while the area is being moved. -/
def OffsetOfMove (area : SelectShotArea) : Prop := area.isMovePressed = false → area.moveOffset = ⟨0, 0⟩

theorem OffsetOfMove.mousePressed {area : SelectShotArea} (h : area.OffsetOfMove) (pos : QPoint) :
    (area.mousePressed pos).OffsetOfMove := by
  rw [SelectShotArea.mousePressed]
  simp only
  split_ifs
  · exact h
  · exact nofun
  · exact h
  · exact h

theorem OffsetOfMove.mouseMove {area : SelectShotArea} (h : area.OffsetOfMove) (pos : QPoint) :
    (area.mouseMove pos).OffsetOfMove := by
  rw [SelectShotArea.mouseMove]
  split_ifs with _ hmove
  · exact h
  · exact fun hfalse => absurd (hmove.symm.trans hfalse) (by decide)
  · exact h
  · exact h

/-- An area is at rest when it is made. -/
theorem idle_new (border : Border) : Idle { border } := ⟨rfl, rfl, rfl, rfl⟩

/-- An area is at rest again after a drag. -/
theorem Idle.drag {area : SelectShotArea} (h : area.Idle) (press : QPoint) (moves : List QPoint) :
    ((area.mousePressed press).mouseMoves moves).mouseRelease.Idle := by
  have hoffset : ((area.mousePressed press).mouseMoves moves).OffsetOfMove := by
    rw [mouseMoves]
    refine List.foldlRecOn moves _ (OffsetOfMove.mousePressed (fun _ => h.moveOffset) press) fun area harea pos _ => ?_
    exact harea.mouseMove pos
  rw [mouseRelease]
  simp only
  split_ifs with hmove
  · exact ⟨rfl, rfl, rfl, rfl⟩
  · exact ⟨rfl, rfl, Bool.not_eq_true _ ▸ hmove, hoffset (Bool.not_eq_true _ ▸ hmove)⟩

end SelectShotArea

end CodeStudy.ScreenShot
