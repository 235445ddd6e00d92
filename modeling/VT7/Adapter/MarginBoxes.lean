import Mathlib.Algebra.Order.Group.Int
import VT7.Adapter.CursorMoves

/-!
# The margins and where a movement ends

A movement to an absolute position ends inside the margins that the cursor is inside of, and inside the line.
`landing_iff` says when a position is reached.
-/

namespace VT7.Adapter

/-- The margins of a page, inside the page. -/
@[ext]
structure MarginBox (size : PageSize) where
  top : ℤ
  bottom : ℤ
  left : ℤ
  right : ℤ
  top_nonneg : 0 ≤ top
  top_le : top ≤ bottom
  bottom_lt : bottom < size.height
  left_nonneg : 0 ≤ left
  left_le : left ≤ right
  right_lt : right < size.width

namespace MarginBox

variable {size : PageSize} (box : MarginBox size) (originMode : Bool) (lineWidth : ℤ → ℤ) (cursor : Types.Point)

/-- The row in the page that a movement to an absolute row ends in. -/
def landingRow (row : ℤ) : ℤ :=
  let row := max 0 (min ((if originMode then box.top else 0) + row) (size.height - 1))
  if originMode then CursorDispatch.rowInMargins box.top box.bottom box.left box.right cursor row else row

/-- The column, for the row that the movement ends in. -/
def landingColumn (row col : ℤ) : ℤ :=
  let col := max 0 (min ((if originMode then box.left else 0) + col) (size.width - 1))
  let col := if originMode then CursorDispatch.colInMargins box.top box.bottom box.left box.right cursor row col else col
  min col (lineWidth row - 1)

/-- The position that a movement to an absolute row and column ends at. -/
def landing (row col : ℤ) : Types.Point :=
  let row := box.landingRow originMode cursor row
  ⟨box.landingColumn originMode lineWidth cursor row col, row⟩

/-- A movement back to the position ends there: it is in its line, and in origin mode the margins that the movement stays
inside have the position inside. -/
structure Reachable (position : Types.Point) : Prop where
  top_le : 0 ≤ position.y
  lt_bottom : position.y < size.height
  lt_width : position.x < lineWidth position.y
  nonneg : 0 ≤ position.x ∨ position.x = lineWidth position.y - 1
  rows : originMode → box.left ≤ cursor.x → cursor.x ≤ box.right →
    (box.top ≤ cursor.y → box.top ≤ position.y) ∧ (cursor.y ≤ box.bottom → position.y ≤ box.bottom)
  columns : originMode → box.top ≤ position.y → position.y ≤ box.bottom →
    (box.left ≤ cursor.x → box.left ≤ position.x ∨ position.x = lineWidth position.y - 1) ∧
      (cursor.x ≤ box.right → position.x ≤ box.right)

variable {box originMode lineWidth cursor} {position : Types.Point}

theorem landingRow_iff : box.landingRow originMode cursor (position.y - if originMode then box.top else 0) = position.y ↔
    0 ≤ position.y ∧ position.y < size.height ∧
      (originMode = true → box.left ≤ cursor.x → cursor.x ≤ box.right →
        (box.top ≤ cursor.y → box.top ≤ position.y) ∧ (cursor.y ≤ box.bottom → position.y ≤ box.bottom)) := by
  have hheight := size.height_pos
  have htop := box.top_nonneg
  have hle := box.top_le
  have hbottom := box.bottom_lt
  unfold landingRow
  rw [add_sub_cancel]
  cases originMode with
  | false =>
    simp only [Bool.false_eq_true, if_false, false_implies, and_true]
    omega
  | true =>
    simp only [if_true, true_implies]
    unfold CursorDispatch.rowInMargins
    dsimp only
    split_ifs <;> omega

theorem landingColumn_iff (hwidth : lineWidth position.y ≤ size.width) :
    box.landingColumn originMode lineWidth cursor position.y (position.x - if originMode then box.left else 0) =
      position.x ↔
    position.x < lineWidth position.y ∧ (0 ≤ position.x ∨ position.x = lineWidth position.y - 1) ∧
      (originMode = true → box.top ≤ position.y → position.y ≤ box.bottom →
        (box.left ≤ cursor.x → box.left ≤ position.x ∨ position.x = lineWidth position.y - 1) ∧
          (cursor.x ≤ box.right → position.x ≤ box.right)) := by
  have hpos := size.width_pos
  have hleft := box.left_nonneg
  have hle := box.left_le
  have hright := box.right_lt
  unfold landingColumn
  rw [add_sub_cancel]
  cases originMode with
  | false =>
    simp only [Bool.false_eq_true, if_false, false_implies, and_true]
    omega
  | true =>
    simp only [if_true, true_implies]
    unfold CursorDispatch.colInMargins
    dsimp only
    split_ifs <;> omega

/-- **A movement back ends at the position** exactly if it can be reached. -/
theorem landing_iff (hwidth : lineWidth position.y ≤ size.width) :
    box.landing originMode lineWidth cursor (position.y - if originMode then box.top else 0)
      (position.x - if originMode then box.left else 0) = position ↔
    box.Reachable originMode lineWidth cursor position := by
  have hrow := @landingRow_iff size box originMode cursor position
  have hcolumn := @landingColumn_iff size box originMode lineWidth cursor position hwidth
  constructor
  · intro h
    have hy : box.landingRow originMode cursor (position.y - if originMode then box.top else 0) = position.y :=
      congrArg Types.Point.y h
    have hx := congrArg Types.Point.x h
    unfold landing at hx
    dsimp only at hx
    rw [hy] at hx
    obtain ⟨htop, hbottom, hrows⟩ := hrow.mp hy
    obtain ⟨hlt, hnonneg, hcolumns⟩ := hcolumn.mp hx
    exact ⟨htop, hbottom, hlt, hnonneg, hrows, hcolumns⟩
  · intro h
    unfold landing
    dsimp only
    rw [hrow.mpr ⟨h.top_le, h.lt_bottom, h.rows⟩, hcolumn.mpr ⟨h.lt_width, h.nonneg, h.columns⟩]

end MarginBox

/-! ### The margins of a page -/

namespace ScrollMargins

variable {α : Type} (m : ScrollMargins) (size : PageSize)

theorem verticalMargins_mem :
    ((m.resetVertical ⟨0, size.height, size.width⟩).verticalMargins ⟨0, size.height, size.width⟩ false).1 ≤
        ((m.resetVertical ⟨0, size.height, size.width⟩).verticalMargins ⟨0, size.height, size.width⟩ false).2 ∧
      ((m.resetVertical ⟨0, size.height, size.width⟩).verticalMargins ⟨0, size.height, size.width⟩ false).2 <
        size.height := by
  have hheight := size.height_pos
  unfold resetVertical verticalMargins PageFrame.height
  by_cases hreset : (m.top : ℤ) ≥ ((size.height : ℤ) - (0 : ℕ)) - 1
  · rw [if_pos hreset]
    simp
    omega
  · rw [if_neg hreset]
    dsimp only
    split_ifs <;> omega

theorem horizontalMargins_mem :
    ((m.resetHorizontal size.width).horizontalMargins size.width).1 ≤
        ((m.resetHorizontal size.width).horizontalMargins size.width).2 ∧
      ((m.resetHorizontal size.width).horizontalMargins size.width).2 < size.width := by
  have hwidth := size.width_pos
  unfold resetHorizontal horizontalMargins
  by_cases hreset : (m.left : ℤ) ≥ (size.width : ℤ) - 1
  · rw [if_pos hreset]
    simp
    omega
  · rw [if_neg hreset]
    dsimp only
    split_ifs <;> omega

/-- The margins as the page has them. -/
def box : MarginBox size where
  top := ((m.resetVertical ⟨0, size.height, size.width⟩).verticalMargins ⟨0, size.height, size.width⟩ false).1
  bottom := ((m.resetVertical ⟨0, size.height, size.width⟩).verticalMargins ⟨0, size.height, size.width⟩ false).2
  left := ((m.resetHorizontal size.width).horizontalMargins size.width).1
  right := ((m.resetHorizontal size.width).horizontalMargins size.width).2
  top_nonneg := Int.natCast_nonneg _
  top_le := (verticalMargins_mem m size).1
  bottom_lt := (verticalMargins_mem m size).2
  left_nonneg := Int.natCast_nonneg _
  left_le := (horizontalMargins_mem m size).1
  right_lt := (horizontalMargins_mem m size).2

variable {m size}

/-- Margins that leave columns out have two columns at least. -/
theorem box_left_lt (h : 0 < (m.box size).left ∨ (m.box size).right < size.width - 1) :
    (m.box size).left < (m.box size).right := by
  have hwidth := size.width_pos
  revert h
  show 0 < (((m.resetHorizontal size.width).horizontalMargins size.width).1 : ℤ) ∨
    ((m.resetHorizontal size.width).horizontalMargins size.width).2 < size.width - 1 →
    (((m.resetHorizontal size.width).horizontalMargins size.width).1 : ℤ) <
      ((m.resetHorizontal size.width).horizontalMargins size.width).2
  unfold resetHorizontal horizontalMargins
  by_cases hreset : (m.left : ℤ) ≥ (size.width : ℤ) - 1
  · rw [if_pos hreset]
    simp
  · rw [if_neg hreset]
    dsimp only
    split_ifs <;> omega

theorem resetVertical_parts (page : PageFrame) : (m.resetVertical page).left = m.left ∧
    (m.resetVertical page).right = m.right := by
  unfold resetVertical
  split_ifs <;> exact ⟨rfl, rfl⟩

theorem horizontalMargins_resetVertical (page : PageFrame) (pageWidth : ℕ) :
    ((m.resetVertical page).resetHorizontal pageWidth).horizontalMargins pageWidth =
      (m.resetHorizontal pageWidth).horizontalMargins pageWidth := by
  rw [resetHorizontal_resetVertical]
  unfold horizontalMargins
  rw [(resetVertical_parts page).1, (resetVertical_parts page).2]

theorem getHorizontalMargins_resetVertical (page : PageFrame) (pageWidth : ℕ) :
    ((m.resetVertical page).getHorizontalMargins pageWidth).2 =
      (m.resetHorizontal pageWidth).horizontalMargins pageWidth := horizontalMargins_resetVertical page pageWidth

theorem verticalMargins_resetHorizontal' (page : PageFrame) (pageWidth : ℕ) (absolute : Bool) :
    ((m.resetHorizontal pageWidth).resetVertical page).verticalMargins page absolute =
      (m.resetVertical page).verticalMargins page absolute := by
  rw [← resetHorizontal_resetVertical, verticalMargins_resetHorizontal]

/-- Reading the margins does not change where they are. -/
theorem box_resetVertical : (m.resetVertical ⟨0, size.height, size.width⟩).box size = m.box size := by
  ext
  · simp only [box, resetVertical_idem]
  · simp only [box, resetVertical_idem]
  · simp only [box, horizontalMargins_resetVertical]
  · simp only [box, horizontalMargins_resetVertical]

theorem box_resetHorizontal : (m.resetHorizontal size.width).box size = m.box size := by
  ext
  · simp only [box, verticalMargins_resetHorizontal']
  · simp only [box, verticalMargins_resetHorizontal']
  · simp only [box, resetHorizontal_idem]
  · simp only [box, resetHorizontal_idem]

theorem frame_height (page : Page α) :
    (CursorDispatch.frame size page).height = (⟨0, size.height, size.width⟩ : PageFrame).height := by
  unfold CursorDispatch.frame PageFrame.height
  push_cast
  omega

theorem resetVertical_frame (page : Page α) : m.resetVertical (CursorDispatch.frame size page) =
    m.resetVertical ⟨0, size.height, size.width⟩ := by
  unfold resetVertical
  rw [frame_height]

theorem getVerticalMargins_relative (page : Page α) :
    ((m.getVerticalMargins (CursorDispatch.frame size page) false).2.1 : ℤ) = (m.box size).top := by
  unfold getVerticalMargins box verticalMargins
  rw [resetVertical_frame, frame_height]
  rfl

theorem getVerticalMargins_absolute (page : Page α) :
    ((m.getVerticalMargins (CursorDispatch.frame size page) true).2.1 : ℤ) = (m.box size).top + page.top ∧
      (m.getVerticalMargins (CursorDispatch.frame size page) true).2.2 = (m.box size).bottom + page.top := by
  unfold getVerticalMargins box verticalMargins
  rw [resetVertical_frame, frame_height]
  exact ⟨Nat.cast_add _ _, rfl⟩

end ScrollMargins

end VT7.Adapter
