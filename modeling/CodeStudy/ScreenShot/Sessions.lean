import CodeStudy.ScreenShot.SelectShotArea
import Mathlib.Algebra.Order.Group.Unbundled.Abs

/-!
# Selecting an area, drag by drag

For its user the area is a rectangle, and a drag does one of three things to it: it pulls an edge, moves the whole, or
draws a new rectangle, which it does only until the first drag of another kind. The corners, the offset and the flags
that the code keeps do not show.
-/

namespace CodeStudy.ScreenShot

/-! ### The selection as its user sees it -/

/-- The pixels between two points, which are corners of pixels. -/
def QRect.between (p q : QPoint) : QRect := ⟨min p.x q.x, min p.y q.y, max p.x q.x - 1, max p.y q.y - 1⟩

def QRect.translate (rect : QRect) (offset : QPoint) : QRect :=
  ⟨rect.left + offset.x, rect.top + offset.y, rect.right + offset.x, rect.bottom + offset.y⟩

/-- What a press takes hold of. -/
inductive Grip where
  | edge (border : Border)
  | inside
  | outside
  deriving DecidableEq

/-- An edge is eight pixels wide to either side and ends before the corners; where two of them meet the vertical one is
taken. -/
def QRect.grip (rect : QRect) (pos : QPoint) : Grip :=
  if |pos.x - rect.left| < 8 ∧ rect.top < pos.y ∧ pos.y < rect.bottom then .edge .left
  else if |pos.x - rect.right| < 8 ∧ rect.top < pos.y ∧ pos.y < rect.bottom then .edge .right
  else if |pos.y - rect.top| < 8 ∧ rect.left < pos.x ∧ pos.x < rect.right then .edge .top
  else if |pos.y - rect.bottom| < 8 ∧ rect.left < pos.x ∧ pos.x < rect.right then .edge .bottom
  else if rect.left ≤ pos.x ∧ pos.x ≤ rect.right ∧ rect.top ≤ pos.y ∧ pos.y ≤ rect.bottom then .inside
  else .outside

/-- The rectangle with one edge where the mouse is. -/
def QRect.pull (border : Border) (rect : QRect) (pos : QPoint) : QRect :=
  match border with
  | .left => .between ⟨pos.x, rect.top⟩ ⟨rect.right + 1, rect.bottom + 1⟩
  | .right => .between ⟨rect.left, rect.top⟩ ⟨pos.x + 1, rect.bottom + 1⟩
  | .top => .between ⟨rect.left, pos.y⟩ ⟨rect.right + 1, rect.bottom + 1⟩
  | .bottom => .between ⟨rect.left, rect.top⟩ ⟨rect.right + 1, pos.y + 1⟩
  | .none => rect

structure Selection where
  rect : QRect
  /-- An edge was pulled, or the whole was moved. -/
  adjusted : Bool
  deriving DecidableEq

namespace Selection

/-- No pixels yet. -/
def start : Selection := ⟨.between ⟨0, 0⟩ ⟨0, 0⟩, false⟩

/-- From a press to where the mouse is now. -/
def drag (sel : Selection) (press : QPoint) (moves : List QPoint) : Selection :=
  match sel.rect.grip press with
  | .edge border => ⟨moves.foldl (QRect.pull border) sel.rect, true⟩
  | .inside => ⟨sel.rect.translate (moves.getLastD press - press), true⟩
  | .outside => if sel.adjusted then sel else ⟨.between press (moves.getLastD press), false⟩

end Selection

namespace SelectShotArea

/-! ### The rectangle of an area -/

theorem rt_eq (area : SelectShotArea) :
    area.rt = .between (area.initPressed + area.moveOffset) (area.initMove + area.moveOffset) := by
  simp only [rt, QRect.ofSize, QRect.between, QPoint.add_x, QPoint.add_y, qAbs, QRect.mk.injEq, true_and]
  constructor
  · omega
  · omega

theorem qAbs_eq (n : Int) : qAbs n = |n| := by
  rw [qAbs]
  split_ifs with hn
  · exact (abs_of_nonneg hn).symm
  · exact (abs_of_neg (not_le.mp hn)).symm

/-- The press is judged by the rectangle alone. -/
theorem grip_rt (area : SelectShotArea) (pos : QPoint) :
    area.rt.grip pos =
      if area.judgeBorder pos ≠ .none then .edge (area.judgeBorder pos)
      else if area.isInArea pos then .inside else .outside := by
  rw [isInArea, QRect.contains, judgeBorder, QRect.grip]
  generalize area.rt = rect
  simp only [qAbs_eq, gt_iff_lt]
  by_cases hleft : |pos.x - rect.left| < 8 ∧ rect.top < pos.y ∧ pos.y < rect.bottom
  · simp only [if_pos hleft, ne_eq, reduceCtorEq, not_false_eq_true, if_true]
  by_cases hright : |pos.x - rect.right| < 8 ∧ rect.top < pos.y ∧ pos.y < rect.bottom
  · simp only [if_neg hleft, if_pos hright, ne_eq, reduceCtorEq, not_false_eq_true, if_true]
  by_cases htop : |pos.y - rect.top| < 8 ∧ rect.left < pos.x ∧ pos.x < rect.right
  · simp only [if_neg hleft, if_neg hright, if_pos htop, ne_eq, reduceCtorEq, not_false_eq_true, if_true]
  by_cases hbottom : |pos.y - rect.bottom| < 8 ∧ rect.left < pos.x ∧ pos.x < rect.right
  · simp only [if_neg hleft, if_neg hright, if_neg htop, if_pos hbottom, ne_eq, reduceCtorEq, not_false_eq_true,
      if_true]
  · simp only [if_neg hleft, if_neg hright, if_neg htop, if_neg hbottom, ne_eq, not_true_eq_false, if_false,
      decide_eq_true_eq]

/-! ### One drag -/

/-- The drag of a selection, with what is seen of the area. -/
structure Shows (area : SelectShotArea) (sel : Selection) : Prop where
  idle : area.Idle
  rect : area.rt = sel.rect
  adjusted : sel.adjusted = true ↔ area.type ≠ .initSelectArea

theorem type_mouseMove (area : SelectShotArea) (pos : QPoint) : (area.mouseMove pos).type = area.type := by
  rw [mouseMove]
  split_ifs <;> rfl

theorem type_mouseMoves (area : SelectShotArea) (positions : List QPoint) :
    (area.mouseMoves positions).type = area.type := by
  induction positions generalizing area with
  | nil => rfl
  | cons pos positions ih => exact (ih (area.mouseMove pos)).trans (area.type_mouseMove pos)

theorem type_mouseRelease (area : SelectShotArea) : area.mouseRelease.type = area.type := by
  simp only [mouseRelease]
  split_ifs <;> rfl

theorem Resizing.rt_mouseMove {area : SelectShotArea} {border : Border} (h : area.Resizing border) (pos : QPoint) :
    (area.mouseMove pos).rt = area.rt.pull border pos := by
  rw [h.mouseMove_eq, rt_eq]
  simp only [h.moveOffset]
  cases border with
  | none => exact absurd rfl h.ne_none
  | left | right | top | bottom => simp [dragged, QRect.pull, QRect.between]

theorem Resizing.rt_mouseMoves {area : SelectShotArea} {border : Border} (h : area.Resizing border)
    (positions : List QPoint) : (area.mouseMoves positions).rt = positions.foldl (QRect.pull border) area.rt := by
  induction positions generalizing area with
  | nil => rfl
  | cons pos positions ih =>
    obtain ⟨hnext, -⟩ := h.mouseMove pos
    rw [List.foldl_cons, ← h.rt_mouseMove pos]
    exact ih hnext

theorem getLastD_sub (press : QPoint) (moves : List QPoint) :
    moves.getLastD press - press = (press :: moves).getLast (List.cons_ne_nil _ _) - press := by
  rw [List.getLast_eq_getLastD]

theorem Idle.rt_inside {area : SelectShotArea} (h : area.Idle) {press : QPoint} (hborder : area.judgeBorder press = .none)
    (hinside : area.isInArea press) (moves : List QPoint) :
    ((area.mousePressed press).mouseMoves moves).rt = area.rt.translate (moves.getLastD press - press) := by
  obtain ⟨htopLeft, hwidth, hheight, -⟩ := h.moves hborder hinside moves
  rw [← getLastD_sub] at htopLeft
  simp only [QRect.topLeft, QRect.width, QRect.height, QPoint.ext_iff, QPoint.add_x, QPoint.add_y] at htopLeft hwidth hheight
  ext
  · exact htopLeft.1
  · exact htopLeft.2
  · simp only [QRect.translate]
    omega
  · simp only [QRect.translate]
    omega

/-- A new rectangle is drawn. -/
theorem mouseMoves_init {area : SelectShotArea} (h : area.isInitPressed = true) (moves : List QPoint) :
    area.mouseMoves moves = { area with initMove := moves.getLastD area.initMove } := by
  induction moves generalizing area with
  | nil => rfl
  | cons pos moves ih =>
    have hmove : area.mouseMove pos = { area with initMove := pos } := if_pos h
    have hstep : area.mouseMoves (pos :: moves) = (area.mouseMove pos).mouseMoves moves := rfl
    rw [hstep, hmove, List.getLastD_cons]
    exact ih h

/-- Without a button the mouse does nothing. -/
theorem Idle.mouseMoves {area : SelectShotArea} (h : area.Idle) (moves : List QPoint) : area.mouseMoves moves = area := by
  induction moves with
  | nil => rfl
  | cons pos moves ih =>
    have hmove : area.mouseMove pos = area := by
      rw [mouseMove, if_neg (by simp [h.isInitPressed]), if_neg (by simp [h.isMovePressed]),
        if_neg (by simp [h.isResizePressed])]
    have hstep : area.mouseMoves (pos :: moves) = (area.mouseMove pos).mouseMoves moves := rfl
    rw [hstep, hmove, ih]

/-- A release does not change what is seen. -/
theorem rt_mouseRelease_eq (area : SelectShotArea) : area.mouseRelease.rt = area.rt := by
  by_cases hmove : area.isMovePressed = true
  · exact rt_mouseRelease hmove
  · simp only [mouseRelease, if_neg hmove]
    rfl

theorem mousePressed_outside {area : SelectShotArea} {press : QPoint} (hborder : area.judgeBorder press = .none)
    (houtside : area.isInArea press = false) : area.mousePressed press =
      if area.type = .initSelectArea then
        { area with border := .none, isInitPressed := true, initMove := press, initPressed := press }
      else { area with border := .none } := by
  have houtside' : ({ area with border := .none } : SelectShotArea).isInArea press = false := houtside
  rw [mousePressed, hborder]
  simp only [ne_eq, not_true_eq_false, if_false, houtside', Bool.false_eq_true]

namespace Shows

variable {area : SelectShotArea} {sel : Selection}

theorem drag (h : area.Shows sel) (press : QPoint) (moves : List QPoint) :
    ((area.mousePressed press).mouseMoves moves).rt = (sel.drag press moves).rect ∧
      ((sel.drag press moves).adjusted = true ↔
        ((area.mousePressed press).mouseMoves moves).type ≠ .initSelectArea) := by
  have hgrip := area.grip_rt press
  rw [h.rect] at hgrip
  rw [type_mouseMoves, Selection.drag]
  by_cases hborder : area.judgeBorder press = .none
  · by_cases hinside : area.isInArea press
    · rw [if_neg (by simp [hborder]), if_pos hinside] at hgrip
      simp only [hgrip]
      rw [h.idle.rt_inside hborder hinside, h.rect, moving hborder hinside]
      simp
    · rw [if_neg (by simp [hborder]), if_neg hinside] at hgrip
      simp only [hgrip]
      rw [mousePressed_outside hborder (Bool.eq_false_iff.mpr hinside)]
      by_cases htype : area.type = .initSelectArea
      · have hfresh : ¬ sel.adjusted = true := fun hadjusted => h.adjusted.mp hadjusted htype
        rw [if_pos htype, if_neg hfresh, mouseMoves_init rfl, rt_eq]
        refine ⟨?_, by simp [htype]⟩
        simp [h.idle.moveOffset, QRect.between]
      · have hidle : ({ area with border := .none } : SelectShotArea).Idle :=
          ⟨h.idle.isInitPressed, h.idle.isResizePressed, h.idle.isMovePressed, h.idle.moveOffset⟩
        rw [if_neg htype, if_pos (h.adjusted.mpr htype), hidle.mouseMoves]
        exact ⟨h.rect, h.adjusted⟩
  · rw [if_pos hborder] at hgrip
    simp only [hgrip]
    obtain ⟨hresizing, hrt⟩ := h.idle.resizing hborder
    rw [hresizing.rt_mouseMoves, hrt, h.rect]
    have hpress : (area.mousePressed press).type = .resizeSelectArea := by
      rw [mousePressed]
      simp only [if_pos hborder]
    simp [hpress]

/-- A drag from its press to its release. -/
theorem released (h : area.Shows sel) (press : QPoint) (moves : List QPoint) :
    ((area.mousePressed press).mouseMoves moves).mouseRelease.Shows (sel.drag press moves) := by
  obtain ⟨hrect, hadjusted⟩ := h.drag press moves
  refine ⟨h.idle.drag press moves, ?_, ?_⟩
  · rw [rt_mouseRelease_eq, hrect]
  · rw [type_mouseRelease]
    exact hadjusted

end Shows

/-! ### Sessions -/

/-- Each drag with its press, its moves and its release. -/
def session (area : SelectShotArea) (drags : List (QPoint × List QPoint)) : SelectShotArea :=
  drags.foldl (fun area drag => ((area.mousePressed drag.1).mouseMoves drag.2).mouseRelease) area

theorem shows_start (border : Border) : Shows { border } .start := by
  refine ⟨idle_new border, ?_, ?_⟩
  · rw [rt_eq]
    rfl
  · simp [Selection.start]

theorem Shows.session {area : SelectShotArea} {sel : Selection} (h : area.Shows sel)
    (drags : List (QPoint × List QPoint)) :
    (area.session drags).Shows (drags.foldl (fun sel drag => sel.drag drag.1 drag.2) sel) := by
  induction drags generalizing area sel with
  | nil => exact h
  | cons drag drags ih => exact ih (h.released drag.1 drag.2)

/-- After any drags and in the midst of a further one, the area shows the rectangle of the selection. -/
theorem rt_session (border : Border) (drags : List (QPoint × List QPoint)) (press : QPoint) (moves : List QPoint) :
    let area := SelectShotArea.session { border } drags
    let sel := drags.foldl (fun sel drag => sel.drag drag.1 drag.2) Selection.start
    area.rt = sel.rect ∧ ((area.mousePressed press).mouseMoves moves).rt = (sel.drag press moves).rect := by
  have hshows := (shows_start border).session drags
  exact ⟨hshows.rect, (hshows.drag press moves).1⟩

end SelectShotArea

end CodeStudy.ScreenShot
