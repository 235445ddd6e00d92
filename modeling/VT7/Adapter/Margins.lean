import Mathlib.Data.Int.Notation
import Mathlib.Data.Nat.Notation
import Mathlib.Tactic.SplitIfs

/-!
# Scrolling margins

The margins of a page as the dispatch functions read them.  Reading them resets margins that are out of range.
-/

namespace VT7.Adapter

/-- `_scrollMargins`; the first and the last line or column, both zero where there are no margins. -/
structure ScrollMargins where
  left : ℕ
  top : ℕ
  right : ℕ
  bottom : ℕ
deriving DecidableEq

/-- What a page says about its place: the first line, the line behind the last one and the width. -/
structure PageFrame where
  top : ℕ
  bottom : ℕ
  width : ℕ
deriving DecidableEq

namespace PageFrame

def height (page : PageFrame) : ℤ := page.bottom - page.top

end PageFrame

namespace ScrollMargins

variable (m : ScrollMargins) (page : PageFrame) (pageWidth : ℕ)

/-- The first part of `_GetVerticalMargins`: if the top is out of range, the margins are reset. -/
def resetVertical : ScrollMargins := if m.top ≥ page.height - 1 then { m with top := 0, bottom := 0 } else m

/-- The first part of `_GetHorizontalMargins`. -/
def resetHorizontal : ScrollMargins := if m.left ≥ (pageWidth : ℤ) - 1 then { m with left := 0, right := 0 } else m

def verticalMargins (absolute : Bool) : ℕ × ℤ :=
  let marginsSet := m.top < m.bottom
  let topMargin := if marginsSet then m.top else 0
  let bottomMargin : ℤ := if marginsSet then m.bottom else page.height - 1
  let bottomMargin := min bottomMargin (page.height - 1)
  if absolute then (topMargin + page.top, bottomMargin + page.top) else (topMargin, bottomMargin)

def horizontalMargins : ℕ × ℤ :=
  let marginsSet := m.left < m.right
  let leftMargin := if marginsSet then m.left else 0
  let rightMargin : ℤ := if marginsSet then m.right else (pageWidth : ℤ) - 1
  (leftMargin, min rightMargin ((pageWidth : ℤ) - 1))

/-- `_GetVerticalMargins`: what `_scrollMargins` becomes, and the first and the last line inside the margins. -/
def getVerticalMargins (absolute : Bool) : ScrollMargins × ℕ × ℤ :=
  let m := m.resetVertical page
  (m, m.verticalMargins page absolute)

/-- `_GetHorizontalMargins`. -/
def getHorizontalMargins : ScrollMargins × ℕ × ℤ :=
  let m := m.resetHorizontal pageWidth
  (m, m.horizontalMargins pageWidth)

@[simp] theorem resetVertical_idem : (m.resetVertical page).resetVertical page = m.resetVertical page := by
  unfold resetVertical
  split_ifs <;> simp_all

@[simp] theorem resetHorizontal_idem :
    (m.resetHorizontal pageWidth).resetHorizontal pageWidth = m.resetHorizontal pageWidth := by
  unfold resetHorizontal
  split_ifs <;> simp_all

/-- Lines and columns are reset apart from each other. -/
theorem resetHorizontal_resetVertical :
    (m.resetVertical page).resetHorizontal pageWidth = (m.resetHorizontal pageWidth).resetVertical page := by
  unfold resetVertical resetHorizontal
  split_ifs <;> simp_all

@[simp] theorem verticalMargins_resetHorizontal (absolute : Bool) :
    (m.resetHorizontal pageWidth).verticalMargins page absolute = m.verticalMargins page absolute := by
  unfold resetHorizontal
  split_ifs <;> rfl

theorem horizontalMargins_right_le : (m.horizontalMargins pageWidth).2 ≤ (pageWidth : ℤ) - 1 := Int.min_le_right _ _

theorem neg_one_le_horizontalMargins_right : -1 ≤ (m.horizontalMargins pageWidth).2 := by
  unfold horizontalMargins
  dsimp only
  split_ifs <;> omega

/-- Margins that are left after the reset begin inside the line. -/
theorem getHorizontalMargins_left_le : (m.getHorizontalMargins pageWidth).2.1 ≤ pageWidth := by
  unfold getHorizontalMargins horizontalMargins resetHorizontal
  dsimp only
  by_cases hreset : m.left ≥ (pageWidth : ℤ) - 1
  · rw [if_pos hreset]
    simp
  · rw [if_neg hreset]
    split_ifs <;> omega

end ScrollMargins

end VT7.Adapter
