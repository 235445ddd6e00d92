import VT7.Buffer.Areas

/-!
# Scrolling a rectangle

`_ScrollRectVertically` and `_ScrollRectHorizontally` move the content of a rectangle.  Whole rows are copied as rows,
everything else goes cell by cell: a half of a wide character is written as the whole character, whose other half may
lie outside of the rectangle.

The attributes for the revealed cells are a parameter (`_GetEraseAttributes`), as is the clustering of `FillRect`.
-/

namespace VT7.Adapter

open VT7.Buffer
open VT7.Lib.Cells
open VT7.Types (Rect)

variable {α : Type} [DecidableEq α]

/-- The loop of `_ScrollRectVertically`. -/
def copyCells (srcView dstView : Types.Viewport) (walkDirection : ℤ) :
    ℕ → (srcPos dstPos : Types.Point) → TextBuffer α → Except WriteCellsError (TextBuffer α)
  | 0, _, _, _ => .error (.buffer .unfinished)
  | iterations + 1, srcPos, dstPos, textBuffer => do
    let current ← textBuffer.getCellDataAt srcPos
    let textBuffer ← textBuffer.writeLine [current] dstPos none none
    let (srcPos, _) := srcView.walkInBounds srcPos walkDirection
    let (dstPos, inBounds) := dstView.walkInBounds dstPos walkDirection
    if inBounds then copyCells srcView dstView walkDirection iterations srcPos dstPos textBuffer else .ok textBuffer

/-- The loop of `_ScrollRectHorizontally`; `next` is the cell that has been read. -/
def moveCells (source target : Types.Viewport) (walkDirection : ℤ) :
    ℕ → (sourcePos targetPos : Types.Point) → (next : OutputCellView α) → TextBuffer α →
      Except WriteCellsError (TextBuffer α)
  | 0, _, _, _, _ => .error (.buffer .unfinished)
  | iterations + 1, sourcePos, targetPos, next, textBuffer => do
    let current := next
    let (sourcePos, _) := source.walkInBounds sourcePos walkDirection
    let next ← textBuffer.getCellDataAt sourcePos
    let textBuffer ← textBuffer.writeLine [current] targetPos none none
    let (targetPos, inBounds) := target.walkInBounds targetPos walkDirection
    if inBounds then moveCells source target walkDirection iterations sourcePos targetPos next textBuffer
    else .ok textBuffer

/-- What `_ScrollRectVertically` does with the content that stays in the rectangle.  The width of a page is the one of its
buffer. -/
def moveLines (textBuffer : TextBuffer α) (scrollRect : Rect) (delta : ℤ) : Except WriteCellsError (TextBuffer α) :=
  let absoluteDelta := min |delta| scrollRect.height
  if absoluteDelta < scrollRect.height then
    let top := if 0 < delta then scrollRect.top else scrollRect.top + absoluteDelta
    let width := scrollRect.width
    let height := scrollRect.height - absoluteDelta
    let actualDelta := if 0 < delta then absoluteDelta else -absoluteDelta
    if width = textBuffer.width then (textBuffer.scrollRows top height actualDelta).mapError .buffer
    else
      let srcView := Types.Viewport.fromDimensions ⟨scrollRect.left, top⟩ width height
      let dstView := Types.Viewport.fromDimensions ⟨scrollRect.left, top + actualDelta⟩ width height
      let walkDirection := Types.Viewport.determineWalkDirection srcView dstView
      copyCells srcView dstView walkDirection (width * height).toNat (srcView.getWalkOrigin walkDirection)
        (dstView.getWalkOrigin walkDirection) textBuffer
  else .ok textBuffer

/-- `_ScrollRectVertically`. -/
def scrollRectVertically (cwd : Clustering) (eraseAttributes : α) (textBuffer : TextBuffer α) (scrollRect : Rect)
    (delta : ℤ) : Except WriteCellsError (TextBuffer α) := do
  let absoluteDelta := min |delta| scrollRect.height
  let textBuffer ← moveLines textBuffer scrollRect delta
  let eraseTop := if 0 < delta then scrollRect.top else scrollRect.bottom - absoluteDelta
  let eraseRect : Rect := { scrollRect with top := eraseTop, bottom := eraseTop + absoluteDelta }
  let textBuffer ← (textBuffer.fillRect cwd eraseRect [space] eraseAttributes).mapError .buffer
  .ok (textBuffer.resetLineRenditionRange eraseRect.top eraseRect.bottom)

/-- What `_ScrollRectHorizontally` does with the content that stays in the rectangle. -/
def moveColumns (textBuffer : TextBuffer α) (scrollRect : Rect) (delta : ℤ) : Except WriteCellsError (TextBuffer α) :=
  let absoluteDelta := min |delta| scrollRect.width
  if absoluteDelta < scrollRect.width then do
    let left := if 0 < delta then scrollRect.left else scrollRect.left + absoluteDelta
    let width := scrollRect.width - absoluteDelta
    let height := scrollRect.height
    let actualDelta := if 0 < delta then absoluteDelta else -absoluteDelta
    let source := Types.Viewport.fromDimensions ⟨left, scrollRect.top⟩ width height
    let target := source.offset ⟨actualDelta, 0⟩
    let walkDirection := Types.Viewport.determineWalkDirection source target
    let sourcePos := source.getWalkOrigin walkDirection
    let targetPos := target.getWalkOrigin walkDirection
    let next ← textBuffer.getCellDataAt sourcePos
    moveCells source target walkDirection (width * height).toNat sourcePos targetPos next textBuffer
  else .ok textBuffer

/-- `_ScrollRectHorizontally`. -/
def scrollRectHorizontally (cwd : Clustering) (eraseAttributes : α) (textBuffer : TextBuffer α) (scrollRect : Rect)
    (delta : ℤ) : Except WriteCellsError (TextBuffer α) := do
  let absoluteDelta := min |delta| scrollRect.width
  let textBuffer ← moveColumns textBuffer scrollRect delta
  let eraseLeft := if 0 < delta then scrollRect.left else scrollRect.right - absoluteDelta
  let eraseRect : Rect := { scrollRect with left := eraseLeft, right := eraseLeft + absoluteDelta }
  (textBuffer.fillRect cwd eraseRect [space] eraseAttributes).mapError .buffer

end VT7.Adapter
