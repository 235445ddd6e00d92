import VT7.Adapter.MarginBoxes

/-!
# Rectangular areas of a page

The areas that the rectangular operations work on, and operations that replace rows of a page.
-/

namespace VT7.Types.Rect

/-- The rectangle, moved down. -/
def below (r : Rect) (top : ℤ) : Rect := ⟨r.left, r.top + top, r.right, r.bottom + top⟩

end VT7.Types.Rect

namespace VT7.Adapter

open VT7.Buffer
open VT7.Types (Rect)

variable {α : Type} {size : PageSize}

/-- `_CalculateRectArea`, and what becomes of `_scrollMargins`. -/
def calculateRectArea (scrollMargins : ScrollMargins) (originMode : Bool) (page : PageFrame) (top left bottom right : ℤ) :
    ScrollMargins × Rect :=
  let pageWidth := page.width
  let pageHeight := page.height
  let (scrollMargins, topMargin, bottomMargin) := scrollMargins.getVerticalMargins page false
  let (scrollMargins, leftMargin, rightMargin) := scrollMargins.getHorizontalMargins pageWidth
  let yOffset : ℤ := if originMode then topMargin else 0
  let yMaximum := if originMode then bottomMargin + 1 else pageHeight
  let xOffset : ℤ := if originMode then leftMargin else 0
  let xMaximum := if originMode then rightMargin + 1 else pageWidth
  let fillLeft := left + xOffset
  let fillTop := top + yOffset
  let fillRight := if right ≠ 0 then right + xOffset else xMaximum
  let fillBottom := if bottom ≠ 0 then bottom + yOffset else yMaximum
  let fillLeft := min fillLeft xMaximum - 1
  let fillRight := min fillRight xMaximum - 1
  let fillTop := min fillTop yMaximum - 1
  let fillBottom := min fillBottom yMaximum - 1
  -- A `til::rect` leaves out what is inside an `inclusive_rect`.
  (scrollMargins, ⟨fillLeft, fillTop + page.top, fillRight + 1, fillBottom + page.top + 1⟩)

/-! ### Areas in a page -/

namespace MarginBox

variable (box : MarginBox size) (originMode : Bool)

/-- What lines are counted from, and where they end. -/
def yOffset : ℤ := if originMode then box.top else 0
def yMaximum : ℤ := if originMode then box.bottom + 1 else size.height

/-- What columns are counted from, and where they end. -/
def xOffset : ℤ := if originMode then box.left else 0
def xMaximum : ℤ := if originMode then box.right + 1 else size.width

theorem yLimits : 0 ≤ box.yOffset originMode ∧ box.yOffset originMode < box.yMaximum originMode ∧
    box.yMaximum originMode ≤ size.height := by
  have h := box.top_nonneg
  have h' := box.top_le
  have h'' := box.bottom_lt
  have hheight := size.height_pos
  unfold yOffset yMaximum
  split_ifs <;> omega

theorem xLimits : 0 ≤ box.xOffset originMode ∧ box.xOffset originMode < box.xMaximum originMode ∧
    box.xMaximum originMode ≤ size.width := by
  have h := box.left_nonneg
  have h' := box.left_le
  have h'' := box.right_lt
  have hwidth := size.width_pos
  unfold xOffset xMaximum
  split_ifs <;> omega

/-- The area with these borders, in the coordinates of the page. -/
def area (top left bottom right : ℤ) : Rect where
  left := min (left + box.xOffset originMode) (box.xMaximum originMode) - 1
  top := min (top + box.yOffset originMode) (box.yMaximum originMode) - 1
  right := if right ≠ 0 then min (right + box.xOffset originMode) (box.xMaximum originMode) else box.xMaximum originMode
  bottom := if bottom ≠ 0 then min (bottom + box.yOffset originMode) (box.yMaximum originMode)
    else box.yMaximum originMode

/-- The area begins in the page and ends in it. -/
theorem area_inside {top left : ℤ} (htop : 1 ≤ top) (hleft : 1 ≤ left) (bottom right : ℤ) :
    0 ≤ (box.area originMode top left bottom right).top ∧ 0 ≤ (box.area originMode top left bottom right).left ∧
      (box.area originMode top left bottom right).bottom ≤ size.height ∧
      (box.area originMode top left bottom right).right ≤ size.width := by
  have hy := box.yLimits originMode
  have hx := box.xLimits originMode
  refine ⟨?_, ?_, ?_, ?_⟩
  · unfold area
    dsimp only
    omega
  · unfold area
    dsimp only
    omega
  · unfold area
    dsimp only
    split_ifs <;> omega
  · unfold area
    dsimp only
    split_ifs <;> omega

end MarginBox

/-- The margins after both have been read. -/
def ScrollMargins.read (m : ScrollMargins) (size : PageSize) : ScrollMargins :=
  (m.resetVertical ⟨0, size.height, size.width⟩).resetHorizontal size.width

lemma ScrollMargins.box_read (m : ScrollMargins) (size : PageSize) : (m.read size).box size = m.box size := by
  unfold ScrollMargins.read
  rw [ScrollMargins.box_resetHorizontal, ScrollMargins.box_resetVertical]

theorem calculateRectArea_eq (m : ScrollMargins) (originMode : Bool) (page : Page α)
    (hwidth : page.buffer.text.width = size.width) (top left bottom right : ℤ) :
    calculateRectArea m originMode (CursorDispatch.frame size page) top left bottom right =
      (m.read size, ((m.box size).area originMode top left bottom right).below page.top) := by
  have hv := ScrollMargins.verticalMargins_mem m size
  have hh := ScrollMargins.horizontalMargins_mem m size
  have hvertical : m.getVerticalMargins (CursorDispatch.frame size page) false =
      (m.resetVertical ⟨0, size.height, size.width⟩,
        (m.resetVertical ⟨0, size.height, size.width⟩).verticalMargins ⟨0, size.height, size.width⟩ false) := by
    unfold ScrollMargins.getVerticalMargins ScrollMargins.verticalMargins
    rw [ScrollMargins.resetVertical_frame, ScrollMargins.frame_height]
    rfl
  have hheight : (CursorDispatch.frame size page).height = size.height := by
    rw [ScrollMargins.frame_height]
    simp [PageFrame.height]
  have hhorizontal : (m.resetVertical ⟨0, size.height, size.width⟩).getHorizontalMargins size.width =
      (m.read size, (m.resetHorizontal size.width).horizontalMargins size.width) :=
    Prod.ext rfl (ScrollMargins.getHorizontalMargins_resetVertical _ _)
  have hpage : (CursorDispatch.frame size page).width = size.width := hwidth
  have htop : (CursorDispatch.frame size page).top = page.top := rfl
  unfold calculateRectArea
  rw [hvertical]
  dsimp only
  rw [hpage, hheight, htop, hhorizontal]
  refine Prod.ext rfl ?_
  unfold Types.Rect.below MarginBox.area MarginBox.yOffset MarginBox.yMaximum MarginBox.xOffset MarginBox.xMaximum
    ScrollMargins.box
  dsimp only
  congr 1
  · split_ifs <;> omega
  · split_ifs <;> omega

/-! ### The rows of a page -/

/-- The rows are replaced, in place. -/
def PageBuffer.withRows (b : PageBuffer α) (rows : ℕ → Row α) : PageBuffer α := { b with text := { b.text with rows } }

namespace PageManager

variable (defaultAttributes : α) {m : PageManager α size}

/-- The rows of the buffer of a page are replaced. -/
def writeRows (m : PageManager α size) (pageNumber : ℤ) (rows : ℕ → Row α) : PageManager α size :=
  if m.isMainBuffer && clampPage pageNumber ≠ m.visiblePageNumber then
    m.setBacking (clampPage pageNumber) ((m.get defaultAttributes pageNumber).buffer.withRows rows)
  else m.setScreen (m.screen.buffer.withRows rows) rfl

/-- What a write of rows does. -/
structure RowsWritten (m m' : PageManager α size) (pageNumber : ℤ) (rows : ℕ → Row α) : Prop where
  sound : m'.Sound
  isMainBuffer : m'.isMainBuffer = m.isMainBuffer
  activePageNumber : m'.activePageNumber = m.activePageNumber
  visiblePageNumber : m'.visiblePageNumber = m.visiblePageNumber
  page : m'.get defaultAttributes pageNumber =
    { m.get defaultAttributes pageNumber with buffer := (m.get defaultAttributes pageNumber).buffer.withRows rows }
  others : m.isMainBuffer = true → ∀ p, clampPage p ≠ clampPage pageNumber →
    m'.get defaultAttributes p = m.get defaultAttributes p

/-- The page is on the screen, or in a buffer of its own. -/
theorem Sound.get_cases (h : m.Sound) (p : ℤ) :
    (m.isMainBuffer = false ∧ m.get defaultAttributes p = ⟨m.screen.buffer, m.screen.top, 1⟩) ∨
      (m.Inv ∧ clampPage p = m.visiblePageNumber ∧
        m.get defaultAttributes p = ⟨m.screen.buffer, m.screen.top, clampPage p⟩) ∨
      (m.Inv ∧ clampPage p ≠ m.visiblePageNumber ∧
        m.get defaultAttributes p = ⟨m.backing defaultAttributes (clampPage p), 0, clampPage p⟩) := by
  cases hmain : m.isMainBuffer with
  | false => exact .inl ⟨rfl, get_alternate hmain p⟩
  | true =>
    have hi := h.inv hmain
    by_cases hshown : clampPage p = m.visiblePageNumber
    · exact .inr (.inl ⟨hi, hshown, by rw [← get_clampPage]; exact get_visible hi hshown⟩)
    · exact .inr (.inr ⟨hi, hshown, by rw [← get_clampPage]; exact get_background hi (isPage_clampPage p) hshown⟩)

theorem Sound.get_width (h : m.Sound) (p : ℤ) : (m.get defaultAttributes p).buffer.text.width = size.width := by
  rcases h.get_cases defaultAttributes p with ⟨-, hpage⟩ | ⟨-, -, hpage⟩ | ⟨hi, -, hpage⟩
  · rw [hpage]
    exact h.width
  · rw [hpage]
    exact h.width
  · rw [hpage]
    exact (PageBuffer.hasSize_iff.mp (hi.sized.backing defaultAttributes _)).1

theorem Sound.get_inside (h : m.Sound) (p : ℤ) :
    (m.get defaultAttributes p).top + size.height ≤ (m.get defaultAttributes p).buffer.text.height := by
  rcases h.get_cases defaultAttributes p with ⟨-, hpage⟩ | ⟨-, -, hpage⟩ | ⟨hi, -, hpage⟩
  · rw [hpage]
    exact m.screen.inside
  · rw [hpage]
    exact m.screen.inside
  · rw [hpage]
    exact (Nat.zero_add _).trans_le (PageBuffer.hasSize_iff.mp (hi.sized.backing defaultAttributes _)).2.ge

theorem Sound.writeRows (h : m.Sound) (pageNumber : ℤ) (rows : ℕ → Row α) :
    RowsWritten defaultAttributes m (m.writeRows defaultAttributes pageNumber rows) pageNumber rows := by
  rcases h.get_cases defaultAttributes pageNumber with ⟨hmain, hpage⟩ | ⟨hi, hshown, hpage⟩ | ⟨hi, hshown, hpage⟩
  · have hwritten : m.writeRows defaultAttributes pageNumber rows = m.setScreen (m.screen.buffer.withRows rows) rfl := by
      unfold PageManager.writeRows
      rw [hmain]
      rfl
    rw [hwritten]
    refine ⟨⟨fun hmain' => absurd (hmain'.symm.trans hmain) (by decide), h.width⟩, rfl, rfl, rfl, ?_,
      fun hmain' => absurd (hmain'.symm.trans hmain) (by decide)⟩
    have hmain' : (m.setScreen (m.screen.buffer.withRows rows) rfl).isMainBuffer = false := hmain
    rw [hpage, get_alternate hmain']
    rfl
  · have hwritten : m.writeRows defaultAttributes pageNumber rows = m.setScreen (m.screen.buffer.withRows rows) rfl := by
      unfold PageManager.writeRows
      rw [if_neg (by simp [hshown])]
    have hi' : (m.setScreen (m.screen.buffer.withRows rows) rfl).Inv := ⟨hi.main, hi.active, hi.visible, hi.sized⟩
    rw [hwritten]
    refine ⟨⟨fun _ => hi', h.width⟩, rfl, rfl, rfl, ?_, fun _ p hp => ?_⟩
    · rw [hpage, ← get_clampPage]
      exact get_visible hi' hshown
    · have hne : clampPage p ≠ m.visiblePageNumber := hshown ▸ hp
      rw [← get_clampPage, ← get_clampPage m, get_background hi' (isPage_clampPage p) hne,
        get_background hi (isPage_clampPage p) hne]
      rfl
  · have hwritten : m.writeRows defaultAttributes pageNumber rows = m.setBacking (clampPage pageNumber)
        ((m.get defaultAttributes pageNumber).buffer.withRows rows) := by
      unfold PageManager.writeRows
      rw [hi.main, if_pos (by simpa using hshown)]
    have hsize : ((m.get defaultAttributes pageNumber).buffer.withRows rows).hasSize size = true := by
      rw [hpage]
      exact hi.sized.backing defaultAttributes _
    have hi' : (m.setBacking (clampPage pageNumber)
        ((m.get defaultAttributes pageNumber).buffer.withRows rows)).Inv :=
      ⟨hi.main, hi.active, hi.visible, hi.sized.setBacking _ hsize⟩
    rw [hwritten]
    refine ⟨⟨fun _ => hi', h.width⟩, rfl, rfl, rfl, ?_, fun _ p hp => ?_⟩
    · rw [← get_clampPage (PageManager.setBacking _ _ _), get_background hi' (isPage_clampPage pageNumber) hshown,
        backing_setBacking_self _ hsize, hpage]
    · rw [← get_clampPage (PageManager.setBacking _ _ _) p, ← get_clampPage m p]
      by_cases hvisible : clampPage p = m.visiblePageNumber
      · rw [get_visible hi' hvisible, get_visible hi hvisible]
        rfl
      · rw [get_background hi' (isPage_clampPage p) hvisible, get_background hi (isPage_clampPage p) hvisible,
          backing_setBacking_of_ne (isPage_clampPage _) (isPage_clampPage p) hp]

end PageManager

/-- What `AdaptDispatch` needs for the rectangular operations. -/
structure AreaDispatch (α : Type) (size : PageSize) where
  pages : PageManager α size
  scrollMargins : ScrollMargins
  /-- `Mode::Origin`. -/
  originMode : Bool
  /-- `Mode::RectangularChangeExtent`. -/
  rectangularChangeExtent : Bool

end VT7.Adapter
