import Mathlib.Data.Int.Notation
import Mathlib.Data.Nat.ModEq
import Mathlib.Logic.Function.Basic
import VT7.Buffer.Row

/-!
# The text buffer and its reflow

A `TextBuffer` is a ring of rows.  `Reflow` copies the rows of an old buffer into a new one of another
size: the columns of a row go to the write position `(newX, newY)`, a full row is wrapped, and `newY`
counts on past the height of the new buffer, so rows are reused from the top.

All rows of a buffer are constructed; the source does so when a row is first used.  Images, hyperlinks
and the looks of the cursor are left out.  The copy loop takes a number of iterations it may use for one
row.
-/

namespace VT7.Buffer

structure Point where
  x : ℕ
  y : ℕ
deriving DecidableEq

/-- The rows a `Viewport` covers; both are included. -/
structure Viewport where
  top : ℕ
  bottom : ℕ

structure PositionInformation where
  mutableViewportTop : ℤ
  visibleViewportTop : ℤ

structure TextBuffer (α : Type) where
  /-- The rows by their place in memory; the places from `height` on are not used. -/
  rows : ℕ → Row α
  width : ℕ
  height : ℕ
  firstRow : ℕ
  initialAttributes : α
  cursorX : ℤ
  cursorY : ℤ

variable {α : Type}

namespace TextBuffer

/-- The constructor. -/
def create (width height : ℕ) (defaultAttributes : α) : TextBuffer α where
  rows := fun _ => Row.create (max width 1) defaultAttributes
  width := max width 1
  height := max height 1
  firstRow := 0
  initialAttributes := defaultAttributes
  cursorX := 0
  cursorY := 0

variable (b : TextBuffer α)

def rowOffset (y : ℕ) : ℕ := (b.firstRow + y) % b.height

/-- `GetRowByOffset`. -/
def getRow (y : ℕ) : Row α := b.rows (b.rowOffset y)

/-- A change of the row `GetMutableRowByOffset` gives. -/
def setRow (y : ℕ) (row : Row α) : TextBuffer α :=
  { b with rows := Function.update b.rows (b.rowOffset y) row }

lemma getRow_setRow_self (y : ℕ) (row : Row α) : (b.setRow y row).getRow y = row := by
  unfold getRow setRow rowOffset
  exact Function.update_self _ _ _

lemma getRow_setRow_of_ne {b : TextBuffer α} {y z : ℕ} (hy : y < b.height) (hz : z < b.height) (hne : z ≠ y)
    (row : Row α) : (b.setRow y row).getRow z = b.getRow z := by
  unfold getRow setRow rowOffset
  refine Function.update_of_ne (fun hsame => hne ?_) _ _
  have hmod : z ≡ y [MOD b.height] := Nat.ModEq.add_left_cancel' b.firstRow hsame
  exact Nat.ModEq.eq_of_lt_of_lt hmod hz hy

/-- The search of `GetLastNonSpaceCharacter` upwards from row `y`. -/
def lastRowWithTextFrom (top : ℕ) : ℕ → ℕ
  | 0 => 0
  | y + 1 =>
    if (b.getRow (y + 1)).measureRight = 0 ∧ top < y + 1 then lastRowWithTextFrom top y else y + 1

/-- The row of `GetLastNonSpaceCharacter`. -/
def getLastNonSpaceCharacterY (viewOptional : Option Viewport) : ℕ :=
  let viewport := viewOptional.getD ⟨0, b.height - 1⟩
  b.lastRowWithTextFrom viewport.top (min viewport.bottom (b.height - 1))

end TextBuffer

/-- What `Reflow` reads of its arguments. -/
structure ReflowInput (α : Type) where
  oldBuffer : TextBuffer α
  lastCharacterViewport : Option Viewport := none

/-- The variables of `Reflow`.  A limit `none` is `CoordTypeMax`. -/
structure ReflowState (α : Type) where
  newBuffer : TextBuffer α
  newX : ℕ
  newY : ℕ
  newYLimit : Option ℕ
  newCursorPos : Point
  positionInfo : Option PositionInformation
  mutableViewportTop : Option ℤ
  visibleViewportTop : Option ℤ

namespace ReflowInput

variable (c : ReflowInput α)

/-- The cursor of the old buffer, clamped to it. -/
def oldCursorPos : Point where
  x := (max 0 (min c.oldBuffer.cursorX (c.oldBuffer.width - 1))).toNat
  y := (max 0 (min c.oldBuffer.cursorY (c.oldBuffer.height - 1))).toNat

def oldHeight : ℕ :=
  max (c.oldBuffer.getLastNonSpaceCharacterY c.lastCharacterViewport) c.oldCursorPos.y + 1

def oldRow (oldY : ℕ) : Row α := c.oldBuffer.getRow oldY

/-- `oldRowLimit`. -/
def oldRowLimit (oldY : ℕ) : ℕ :=
  if oldY = c.oldCursorPos.y then max (c.oldRow oldY).measureRight (c.oldCursorPos.x + 1)
  else (c.oldRow oldY).measureRight

end ReflowInput

namespace ReflowState

variable (s : ReflowState α)

/-- The row at the write position. -/
def newRow : Row α := s.newBuffer.getRow s.newY

def setNewRow (row : Row α) : ReflowState α := { s with newBuffer := s.newBuffer.setRow s.newY row }

/-- `newY < newYLimit`. -/
def belowLimit : Bool := s.newYLimit.all (s.newY < ·)

def newline : ReflowState α := { s with newX := 0, newY := s.newY + 1 }

/-- The row of a viewport's top, at the first old row that is not above it. -/
def trackViewports (oldY : ℕ) : ReflowState α :=
  let s := if s.mutableViewportTop.any (· ≤ (oldY : ℤ)) then
      { s with
        positionInfo := s.positionInfo.map fun info => { info with mutableViewportTop := s.newY }
        mutableViewportTop := none }
    else s
  if s.visibleViewportTop.any (· ≤ (oldY : ℤ)) then
    { s with
      positionInfo := s.positionInfo.map fun info => { info with visibleViewportTop := s.newY }
      visibleViewportTop := none }
  else s

/-- The write position at the start of a row: a row with a line rendition does not go on in a begun one. -/
def atRowStart : ReflowState α := if s.newX ≠ 0 then s.newline else s

/-- What follows the copy of a row with a line rendition. -/
def placeRendition (c : ReflowInput α) (oldY : ℕ) (row : Row α) : ReflowState α :=
  let s := s.setNewRow row
  let s := if oldY = c.oldCursorPos.y then
      { s with newCursorPos := ⟨row.adjustToGlyphStart c.oldCursorPos.x, s.newY⟩ }
    else s
  let s := s.trackViewports oldY
  { s with newY := s.newY + 1 }

/-- A row with a line rendition of its own: it is cut to the new width. -/
def copyRendition (c : ReflowInput α) (oldY : ℕ) : Except BufferError (ReflowState α) := do
  let s := s.atRowStart
  let newRow := if s.newBuffer.height ≤ s.newY then s.newRow.reset s.newBuffer.initialAttributes else s.newRow
  let row ← newRow.copyFrom (c.oldRow oldY)
  .ok (s.placeRendition c oldY (row.setWrapForced false))

/-- The line wrap at the head of the copy loop. -/
def wrap : ReflowState α :=
  if s.newBuffer.width ≤ s.newX then (s.setNewRow (s.newRow.setWrapForced true)).newline else s

/-- The row at the write position is about to be used again. -/
def reuses : Bool := s.newBuffer.height ≤ s.newY && s.newX == 0

/-- The row at the write position, emptied when it is used again. -/
def recycle : ReflowState α :=
  if s.reuses then s.setNewRow (s.newRow.reset s.newBuffer.initialAttributes) else s

/-- One chunk of an old row, from its column `oldX` on. -/
def copyChunk (c : ReflowInput α) (oldY oldX : ℕ) : Except BufferError (ReflowState α × ℕ) := do
  let oldRow := c.oldRow oldY
  let (row, state) ← s.newRow.copyTextFrom
    { source := oldRow
      columnBegin := s.newX
      sourceColumnBegin := oldX
      sourceColumnLimit := c.oldRowLimit oldY }
  let row := { row with
    attr := resizeTrailingExtent (row.attr.take s.newX ++ oldRow.attr.drop oldX) s.newBuffer.width }
  let s := s.setNewRow row
  let s := if oldY = c.oldCursorPos.y ∧ oldX ≤ c.oldCursorPos.x then
      { s with
        newCursorPos := ⟨row.adjustToGlyphStart (c.oldCursorPos.x - oldX + s.newX), s.newY⟩
        newYLimit := some (s.newY + s.newBuffer.height) }
    else s
  let s := s.trackViewports oldY
  .ok ({ s with newX := state.columnEnd }, state.sourceColumnEnd)

/-- The copy loop of one old row. -/
def copyLoop (c : ReflowInput α) (oldY : ℕ) :
    ℕ → ReflowState α → ℕ → Except BufferError (ReflowState α)
  | 0, _, _ => .error .unfinished
  | iterations + 1, s, oldX => do
    let s := s.wrap
    if s.reuses && !s.belowLimit then
      .ok s
    else
      let (s, oldX) ← s.recycle.copyChunk c oldY oldX
      if oldX < c.oldRowLimit oldY then copyLoop c oldY iterations s oldX else .ok s

/-- One old row. -/
def copyRow (c : ReflowInput α) (iterations oldY : ℕ) : Except BufferError (ReflowState α) := do
  let oldRow := c.oldRow oldY
  if oldRow.lineRendition ≠ .singleWidth then
    s.copyRendition c oldY
  else
    let s := if oldRow.promptData.isSome then
        s.setNewRow { s.newRow with promptData := oldRow.promptData }
      else s
    let s ← copyLoop c oldY iterations s 0
    .ok (if oldRow.wrapForced then s else s.newline)

/-- The old rows from `oldY` on, `rest` of them; the second result is the row behind the last that was
copied. -/
def copyRows (c : ReflowInput α) (iterations : ℕ) :
    ℕ → ReflowState α → ℕ → Except BufferError (ReflowState α × ℕ)
  | 0, s, oldY => .ok (s, oldY)
  | rest + 1, s, oldY =>
    if s.belowLimit then do
      let s ← s.copyRow c iterations oldY
      copyRows c iterations rest s (oldY + 1)
    else .ok (s, oldY)

/-- The attributes of the rows below the text, `rest` of them at most. -/
def copyAttributes (c : ReflowInput α) : ℕ → ReflowState α → ℕ → ReflowState α
  | 0, s, _ => s
  | rest + 1, s, oldY =>
    if s.newY < s.newBuffer.height then
      let attr := resizeTrailingExtent (c.oldRow oldY).attr s.newBuffer.width
      copyAttributes c rest { s.setNewRow { s.newRow with attr } with newY := s.newY + 1 } (oldY + 1)
    else s

/-- The first row and the cursor of the new buffer. -/
def settle : ReflowState α :=
  if s.newBuffer.height < s.newY then
    let firstRow := s.newY % s.newBuffer.height
    { s with
      newBuffer := { s.newBuffer with firstRow }
      newCursorPos :=
        { s.newCursorPos with
          y := (s.newCursorPos.y + s.newBuffer.height - firstRow) % s.newBuffer.height } }
  else s

end ReflowState

/-- `TextBuffer::Reflow`: the new buffer and the rows of the viewports in it. -/
def reflow (iterations : ℕ) (c : ReflowInput α) (newBuffer : TextBuffer α)
    (positionInfo : Option PositionInformation) :
    Except BufferError (TextBuffer α × Option PositionInformation) := do
  let s : ReflowState α :=
    { newBuffer
      newX := 0
      newY := 0
      newYLimit := none
      newCursorPos := ⟨0, 0⟩
      positionInfo
      mutableViewportTop := positionInfo.map (·.mutableViewportTop)
      visibleViewportTop := positionInfo.map (·.visibleViewportTop) }
  let (s, oldY) ← ReflowState.copyRows c iterations c.oldHeight s 0
  let s := if s.newX ≠ 0 then s.newline else s
  let s : ReflowState α := (ReflowState.copyAttributes c (c.oldBuffer.height - oldY) s oldY).settle
  .ok ({ s.newBuffer with cursorX := s.newCursorPos.x, cursorY := s.newCursorPos.y }, s.positionInfo)

end VT7.Buffer
