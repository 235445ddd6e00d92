import VT7.Adapter.Margins
import VT7.Adapter.Pages
import VT7.Buffer.Words

/-!
# Cursor movements

`CursorSaveState` keeps the position relative to the page, and in origin mode relative to the margins.
`CursorRestoreState` goes back to it with a cursor movement, which the margins may end early.  What a movement does depends
on where the cursor is before it.

The designated character sets, which are saved and restored too, are left out.
-/

namespace VT7.Buffer.TextBuffer

variable {α : Type} (b : TextBuffer α)

def getLineWidth (row : ℤ) : ℤ := ((b.width >>> if b.isDoubleWidthLine row then 1 else 0 : ℕ) : ℤ)

def clampPositionWithinLine (position : Types.Point) : Types.Point :=
  let rightmostColumn := b.getLineWidth position.y - 1
  ⟨min position.x rightmostColumn, position.y⟩

end VT7.Buffer.TextBuffer

namespace VT7.Adapter

open VT7.Buffer

structure Offset where
  value : ℤ
  isAbsolute : Bool

namespace Offset

/-- The VT origin is at 1,1. -/
def absolute (value : ℤ) : Offset := ⟨value - 1, true⟩

end Offset

structure CursorState (α : Type) where
  row : ℤ
  column : ℤ
  page : ℤ
  isDelayedEOLWrap : Bool
  isOriginModeRelative : Bool
  attributes : α

/-- `SetPosition` and `SetAttributes`. -/
def PageBuffer.withCursor {α : Type} (b : PageBuffer α) (position : Types.Point) (attributes : α) : PageBuffer α :=
  { b with
    text := { b.text with cursorX := position.x, cursorY := position.y }
    currentAttributes := attributes }

namespace PageManager

variable {α : Type} {size : PageSize}

/-- What the operations rely on, in the main buffer and outside of it. -/
structure Sound (m : PageManager α size) : Prop where
  inv : m.isMainBuffer = true → m.Inv
  width : m.screen.buffer.text.width = size.width

variable (defaultAttributes : α)

/-- The cursor and the attributes of the active page are set. -/
def writeActive (m : PageManager α size) (position : Types.Point) (attributes : α) : PageManager α size :=
  if m.isMainBuffer && m.activePageNumber ≠ m.visiblePageNumber then
    m.setBacking m.activePageNumber ((m.activePage defaultAttributes).buffer.withCursor position attributes)
  else m.setScreen (m.screen.buffer.withCursor position attributes) rfl

end PageManager

/-- What `AdaptDispatch` keeps of the cursor; the saved state is the one of the buffer in use. -/
structure CursorDispatch (α : Type) (size : PageSize) where
  pages : PageManager α size
  scrollMargins : ScrollMargins
  /-- `Mode::Origin`. -/
  originMode : Bool
  /-- `Mode::PageCursorCoupling`. -/
  pageCursorCoupling : Bool
  /-- Whether the cursor of the active page delays a wrap. -/
  delayEOLWrap : Bool
  savedCursorState : CursorState α

namespace CursorDispatch

variable {α : Type} {size : PageSize} (defaultAttributes : α) (d : CursorDispatch α size)

def activePage : Page α := d.pages.activePage defaultAttributes

/-- What a page says about its place. -/
def frame (size : PageSize) (page : Page α) : PageFrame := ⟨page.top, page.top + size.height, page.buffer.text.width⟩

/-- The row, kept inside the margins that the cursor is inside of. -/
def rowInMargins (topMargin bottomMargin leftMargin rightMargin : ℤ) (cursorPosition : Types.Point) (row : ℤ) : ℤ :=
  if cursorPosition.x ≥ leftMargin ∧ cursorPosition.x ≤ rightMargin then
    let row := if cursorPosition.y ≥ topMargin then max row topMargin else row
    if cursorPosition.y ≤ bottomMargin then min row bottomMargin else row
  else row

/-- The column, for the row that has been found. -/
def colInMargins (topMargin bottomMargin leftMargin rightMargin : ℤ) (cursorPosition : Types.Point) (row col : ℤ) : ℤ :=
  if row ≥ topMargin ∧ row ≤ bottomMargin then
    let col := if cursorPosition.x ≥ leftMargin then max col leftMargin else col
    if cursorPosition.x ≤ rightMargin then min col rightMargin else col
  else col

/-- `_CursorMovePosition`. -/
def cursorMovePosition (rowOffset colOffset : Offset) (clampInMargins : Bool) : CursorDispatch α size :=
  let page := d.activePage defaultAttributes
  let pageFrame := frame size page
  let pageWidth := page.buffer.text.width
  let cursorPosition : Types.Point := ⟨page.buffer.text.cursorX, page.buffer.text.cursorY⟩
  let (scrollMargins, topMargin, bottomMargin) := d.scrollMargins.getVerticalMargins pageFrame true
  let (scrollMargins, leftMargin, rightMargin) := scrollMargins.getHorizontalMargins pageWidth
  let row : ℤ :=
    if rowOffset.isAbsolute then if d.originMode then topMargin else page.top else cursorPosition.y
  let col : ℤ := if colOffset.isAbsolute then if d.originMode then leftMargin else 0 else cursorPosition.x
  let row := max (page.top : ℤ) (min (row + rowOffset.value) (pageFrame.bottom - 1))
  let col := max 0 (min (col + colOffset.value) (pageWidth - 1))
  let inMargins := clampInMargins || d.originMode
  let row := if inMargins then rowInMargins topMargin bottomMargin leftMargin rightMargin cursorPosition row else row
  let col := if inMargins then colInMargins topMargin bottomMargin leftMargin rightMargin cursorPosition row col else col
  let position := page.buffer.text.clampPositionWithinLine ⟨col, row⟩
  { d with
    pages := d.pages.writeActive defaultAttributes position page.attributes
    scrollMargins
    delayEOLWrap := false }

def cursorPosition (line column : ℤ) : CursorDispatch α size :=
  d.cursorMovePosition defaultAttributes (.absolute line) (.absolute column) false

def pagePositionAbsolute (page : ℤ) : CursorDispatch α size :=
  { d with pages := d.pages.moveTo defaultAttributes page d.pageCursorCoupling }

def cursorSaveState : CursorDispatch α size :=
  let page := d.activePage defaultAttributes
  let cursorPosition : Types.Point := ⟨page.buffer.text.cursorX, page.buffer.text.cursorY - page.top⟩
  let (scrollMargins, cursorPosition) :=
    if d.originMode then
      let (scrollMargins, leftMargin, _) := d.scrollMargins.getHorizontalMargins page.buffer.text.width
      let (scrollMargins, topMargin, _) := scrollMargins.getVerticalMargins (frame size page) false
      (scrollMargins, (⟨cursorPosition.x - leftMargin, cursorPosition.y - topMargin⟩ : Types.Point))
    else (d.scrollMargins, cursorPosition)
  { d with
    scrollMargins
    savedCursorState :=
      { row := cursorPosition.y + 1
        column := cursorPosition.x + 1
        page := page.number
        isDelayedEOLWrap := d.delayEOLWrap
        isOriginModeRelative := d.originMode
        attributes := page.attributes } }

def cursorRestoreState : CursorDispatch α size :=
  let savedCursorState := d.savedCursorState
  let d := { d with originMode := savedCursorState.isOriginModeRelative }
  let d := d.pagePositionAbsolute defaultAttributes savedCursorState.page
  let d := d.cursorPosition defaultAttributes savedCursorState.row savedCursorState.column
  let d := if savedCursorState.isDelayedEOLWrap then { d with delayEOLWrap := true } else d
  let text := (d.activePage defaultAttributes).buffer.text
  { d with pages := d.pages.writeActive defaultAttributes ⟨text.cursorX, text.cursorY⟩ savedCursorState.attributes }

end CursorDispatch

/-! ### The active page -/

namespace PageManager

open PageBuffer

variable {α : Type} {size : PageSize} {defaultAttributes : α} {m : PageManager α size}

/-- The active page is on the screen, or in a buffer of its own. -/
theorem Sound.activePage_cases (h : m.Sound) :
    (m.isMainBuffer = false ∧ m.activePage defaultAttributes = ⟨m.screen.buffer, m.screen.top, 1⟩) ∨
      (m.Inv ∧ m.activePageNumber = m.visiblePageNumber ∧
        m.activePage defaultAttributes = ⟨m.screen.buffer, m.screen.top, m.activePageNumber⟩) ∨
      (m.Inv ∧ m.activePageNumber ≠ m.visiblePageNumber ∧
        m.activePage defaultAttributes = ⟨m.backing defaultAttributes m.activePageNumber, 0, m.activePageNumber⟩) := by
  cases hmain : m.isMainBuffer with
  | false =>
    refine .inl ⟨rfl, ?_⟩
    unfold activePage get
    rw [hmain]
    rfl
  | true =>
    have hi := h.inv hmain
    by_cases hshown : m.activePageNumber = m.visiblePageNumber
    · exact .inr (.inl ⟨hi, hshown, get_visible hi hshown⟩)
    · exact .inr (.inr ⟨hi, hshown, get_background hi hi.active hshown⟩)

theorem Sound.activePage_width (h : m.Sound) : (m.activePage defaultAttributes).buffer.text.width = size.width := by
  rcases h.activePage_cases with ⟨-, hpage⟩ | ⟨-, -, hpage⟩ | ⟨hi, -, hpage⟩
  · rw [hpage]
    exact h.width
  · rw [hpage]
    exact h.width
  · rw [hpage]
    exact (hasSize_iff.mp (hi.sized.backing defaultAttributes _)).1

theorem Sound.activePage_inside (h : m.Sound) : (m.activePage defaultAttributes).top + size.height ≤
    (m.activePage defaultAttributes).buffer.text.height := by
  rcases h.activePage_cases with ⟨-, hpage⟩ | ⟨-, -, hpage⟩ | ⟨hi, -, hpage⟩
  · rw [hpage]
    exact m.screen.inside
  · rw [hpage]
    exact m.screen.inside
  · rw [hpage]
    exact (Nat.zero_add _).trans_le (hasSize_iff.mp (hi.sized.backing defaultAttributes _)).2.ge

/-- What a write of the cursor and the attributes does. -/
structure Written (defaultAttributes : α) (m m' : PageManager α size) (position : Types.Point) (attributes : α) : Prop where
  sound : m'.Sound
  isMainBuffer : m'.isMainBuffer = m.isMainBuffer
  page : m'.activePage defaultAttributes =
    { m.activePage defaultAttributes with
      buffer := (m.activePage defaultAttributes).buffer.withCursor position attributes }

theorem Sound.writeActive (h : m.Sound) (position : Types.Point) (attributes : α) :
    Written defaultAttributes m (m.writeActive defaultAttributes position attributes) position attributes := by
  rcases h.activePage_cases with ⟨hmain, hpage⟩ | ⟨hi, hshown, hpage⟩ | ⟨hi, hshown, hpage⟩
  · have hwritten : m.writeActive defaultAttributes position attributes =
        m.setScreen (m.screen.buffer.withCursor position attributes) rfl := by
      unfold PageManager.writeActive
      rw [hmain]
      rfl
    have hsound : (m.setScreen (m.screen.buffer.withCursor position attributes) rfl).Sound :=
      ⟨fun hmain' => absurd (hmain'.symm.trans hmain) (by decide), h.width⟩
    have hpage' : (m.setScreen (m.screen.buffer.withCursor position attributes) rfl).activePage defaultAttributes =
        ⟨m.screen.buffer.withCursor position attributes, m.screen.top, 1⟩ := by
      rcases hsound.activePage_cases with ⟨-, hpage'⟩ | ⟨hi, -⟩ | ⟨hi, -⟩
      · exact hpage'
      · exact absurd (hi.main.symm.trans hmain) (by decide)
      · exact absurd (hi.main.symm.trans hmain) (by decide)
    rw [hwritten]
    exact ⟨hsound, rfl, by rw [hpage', hpage]⟩
  · have hwritten : m.writeActive defaultAttributes position attributes =
        m.setScreen (m.screen.buffer.withCursor position attributes) rfl := by
      unfold PageManager.writeActive
      rw [hi.main, hshown, if_neg (by simp)]
    have hi' : (m.setScreen (m.screen.buffer.withCursor position attributes) rfl).Inv :=
      ⟨hi.main, hi.active, hi.visible, hi.sized⟩
    have hpage' : (m.setScreen (m.screen.buffer.withCursor position attributes) rfl).activePage defaultAttributes =
        ⟨m.screen.buffer.withCursor position attributes, m.screen.top, m.activePageNumber⟩ := get_visible hi' hshown
    rw [hwritten]
    exact ⟨⟨fun _ => hi', h.width⟩, rfl, by rw [hpage', hpage]⟩
  · have hwritten : m.writeActive defaultAttributes position attributes = m.setBacking m.activePageNumber
        ((m.activePage defaultAttributes).buffer.withCursor position attributes) := by
      unfold PageManager.writeActive
      rw [hi.main, if_pos (by simpa using hshown)]
    have hsize : ((m.activePage defaultAttributes).buffer.withCursor position attributes).hasSize size = true := by
      rw [hpage]
      exact hi.sized.backing defaultAttributes _
    have hi' : (m.setBacking m.activePageNumber
        ((m.activePage defaultAttributes).buffer.withCursor position attributes)).Inv :=
      ⟨hi.main, hi.active, hi.visible, hi.sized.setBacking _ hsize⟩
    have hpage' : (m.setBacking m.activePageNumber ((m.activePage defaultAttributes).buffer.withCursor position
        attributes)).activePage defaultAttributes =
          ⟨(m.activePage defaultAttributes).buffer.withCursor position attributes, 0, m.activePageNumber⟩ := by
      refine (get_background hi' hi.active hshown).trans ?_
      rw [backing_setBacking_self _ hsize]
    rw [hwritten]
    exact ⟨⟨fun _ => hi', h.width⟩, rfl, by rw [hpage', hpage]⟩

theorem get_clampPage (m : PageManager α size) (p : ℤ) :
    m.get defaultAttributes (clampPage p) = m.get defaultAttributes p := by
  unfold get
  rw [clampPage_of_isPage (isPage_clampPage p)]

theorem get_alternate (hmain : m.isMainBuffer = false) (p : ℤ) :
    m.get defaultAttributes p = ⟨m.screen.buffer, m.screen.top, 1⟩ := by
  unfold get
  rw [hmain]
  rfl

/-- The rows of all pages stay as they are. -/
theorem Sound.writeActive_row (h : m.Sound) (position : Types.Point) (attributes : α) (p : ℤ) (y : ℕ) :
    ((m.writeActive defaultAttributes position attributes).get defaultAttributes p).row y =
      (m.get defaultAttributes p).row y := by
  have hwritten := @Sound.writeActive _ _ defaultAttributes _ h position attributes
  cases hmain : m.isMainBuffer with
  | false =>
    rw [get_alternate hmain, get_alternate (hwritten.isMainBuffer.trans hmain)]
    unfold PageManager.writeActive
    rw [hmain]
    rfl
  | true =>
    have hi := h.inv hmain
    have hi' := hwritten.sound.inv (hwritten.isMainBuffer.trans hmain)
    have hp := isPage_clampPage p
    rw [← get_clampPage, ← get_clampPage m]
    by_cases hactive : m.activePageNumber = m.visiblePageNumber
    · have hscreen : m.writeActive defaultAttributes position attributes =
          m.setScreen (m.screen.buffer.withCursor position attributes) rfl := if_neg (by simp [hactive])
      rw [hscreen] at hi' ⊢
      by_cases hshown : clampPage p = m.visiblePageNumber
      · rw [get_visible hi' hshown, get_visible hi hshown]
        rfl
      · rw [get_background hi' hp hshown, get_background hi hp hshown]
        rfl
    · have hbacking : m.writeActive defaultAttributes position attributes = m.setBacking m.activePageNumber
          ((m.activePage defaultAttributes).buffer.withCursor position attributes) := if_pos (by simp [hactive, hmain])
      have hpage : m.activePage defaultAttributes = _ := get_background hi hi.active hactive
      rw [hbacking, hpage] at hi' ⊢
      by_cases hshown : clampPage p = m.visiblePageNumber
      · rw [get_visible hi' hshown, get_visible hi hshown]
        rfl
      · rw [get_background hi' hp hshown, get_background hi hp hshown]
        by_cases hwrites : clampPage p = m.activePageNumber
        · rw [hwrites, backing_setBacking_self]
          · rfl
          · exact hi.sized.backing defaultAttributes _
        · rw [backing_setBacking_of_ne hi.active hp hwrites]

theorem Sound.writeActive_of_eq (h : m.Sound) {position position' : Types.Point} (heq : position = position')
    (attributes : α) :
    Written defaultAttributes m (m.writeActive defaultAttributes position attributes) position' attributes :=
  heq ▸ h.writeActive position attributes

theorem carry_width (wasVisible isVisible : Bool) (newPageNumber : ℤ) :
    (m.carry defaultAttributes wasVisible isVisible newPageNumber).screen.buffer.text.width =
      m.screen.buffer.text.width := by
  cases wasVisible with
  | true => cases isVisible <;> rfl
  | false =>
    cases isVisible with
    | true => rfl
    | false =>
      unfold carry
      dsimp only
      split_ifs <;> rfl

theorem moveTo_width (pageNumber : ℤ) (makeVisible : Bool) :
    (m.moveTo defaultAttributes pageNumber makeVisible).screen.buffer.text.width = m.screen.buffer.text.width := by
  unfold PageManager.moveTo
  split
  · rfl
  · refine (carry_width _ _ _).trans ?_
    split
    · exact (copyRows_frame _ _ _ _ _).width
    · rfl

/-- The place of the active page. -/
theorem Sound.activePage_number (h : m.Sound) :
    (m.activePage defaultAttributes).number = if m.isMainBuffer then m.activePageNumber else 1 := by
  rcases h.activePage_cases with ⟨hmain, hpage⟩ | ⟨hi, -, hpage⟩ | ⟨hi, -, hpage⟩
  · rw [hpage, hmain]
    rfl
  · rw [hpage, hi.main]
    rfl
  · rw [hpage, hi.main]
    rfl

theorem Sound.clampPage_number (h : m.Sound) :
    (if m.isMainBuffer then clampPage (m.activePage defaultAttributes).number else 1) =
      (m.activePage defaultAttributes).number := by
  rw [h.activePage_number]
  cases hmain : m.isMainBuffer with
  | false => rfl
  | true => exact clampPage_of_isPage (h.inv hmain).active

/-- The page with the number of the active page. -/
theorem Sound.get_number (h : m.Sound) : m.get defaultAttributes (m.activePage defaultAttributes).number =
    m.activePage defaultAttributes := by
  rw [h.activePage_number]
  cases hmain : m.isMainBuffer with
  | false =>
    unfold activePage
    rw [get_alternate hmain, get_alternate hmain]
  | true => rfl

/-- **Moving to a page** takes the cursor and the attributes along, and leaves the rows of the page. -/
structure Arrived (defaultAttributes : α) (m m' : PageManager α size) (pageNumber : ℤ) : Prop where
  sound : m'.Sound
  isMainBuffer : m'.isMainBuffer = m.isMainBuffer
  number : (m'.activePage defaultAttributes).number = if m.isMainBuffer then clampPage pageNumber else 1
  position : (m'.activePage defaultAttributes).position = (m.activePage defaultAttributes).position
  row : ∀ y < size.height, (m'.activePage defaultAttributes).row y = (m.get defaultAttributes pageNumber).row y

theorem Sound.moveTo (h : m.Sound) (pageNumber : ℤ) (makeVisible : Bool) :
    Arrived defaultAttributes m (m.moveTo defaultAttributes pageNumber makeVisible) pageNumber := by
  cases hmain : m.isMainBuffer with
  | false =>
    have hstays : m.moveTo defaultAttributes pageNumber makeVisible = m := by
      unfold PageManager.moveTo
      rw [hmain]
      rfl
    have hget : m.get defaultAttributes pageNumber = m.activePage defaultAttributes := by
      unfold activePage
      rw [get_alternate hmain, get_alternate hmain]
    rw [hstays]
    refine ⟨h, rfl, ?_, rfl, fun y _ => by rw [hget]⟩
    rw [h.activePage_number, hmain]
    rfl
  | true =>
    have hi := h.inv hmain
    have hmoved := @moveTo_moved _ _ defaultAttributes _ hi pageNumber makeVisible
    have hsound : (m.moveTo defaultAttributes pageNumber makeVisible).Sound :=
      ⟨fun _ => hmoved.inv, (moveTo_width _ _).trans h.width⟩
    have hactive : (m.moveTo defaultAttributes pageNumber makeVisible).activePageNumber = clampPage pageNumber := by
      unfold PageManager.moveTo
      rw [hmain]
      rfl
    refine ⟨hsound, hmoved.inv.main.trans hmain.symm, ?_, hmoved.position, fun y hy => ?_⟩
    · rw [hsound.activePage_number, hmoved.inv.main, hactive, hmain]
    · unfold activePage
      rw [hactive, hmoved.rows _ (isPage_clampPage pageNumber) y hy, get_clampPage]

end PageManager

end VT7.Adapter
