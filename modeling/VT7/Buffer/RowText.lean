import VT7.Buffer.Glyphs

/-!
# Writing text into a row

`ReplaceText` lays out a text from a column on: a fast path for ASCII, one character in every column, and
grapheme clusters from the first other character on.  A text that begins with such a character may join the
glyph before it.  `ReplaceCharacters` writes one glyph, and `WriteCells` the cells of an iterator.

How `GraphemeNext` cuts a text is a parameter (`Clustering`).
-/

namespace VT7.Buffer

/-- What `GraphemeNext` answers: the length and the width of a cluster. -/
structure Clustering where
  /-- The cluster of a text at a position, for a state that was made at `start`. -/
  next : (chars : List UInt16) → (start position : ℕ) → ℕ × ℕ
  /-- What of a text goes on with the last cluster of the text before it, and the width of both. -/
  join : (charsPrev chars : List UInt16) → ℕ × ℕ
  next_pos : ∀ chars start position, position < chars.length → 1 ≤ (next chars start position).1
  next_le : ∀ chars start position, position < chars.length →
    position + (next chars start position).1 ≤ chars.length
  next_width : ∀ chars start position, (next chars start position).2 ≤ 2
  join_le : ∀ charsPrev chars, (join charsPrev chars).1 ≤ chars.length
  join_width : ∀ charsPrev chars, (join charsPrev chars).2 ≤ 2

/-- A `RowWriteState` as the caller fills it in. -/
structure RowWriteState where
  text : List UInt16
  columnBegin : ℕ := 0
  columnLimit : ℕ := coordTypeMax

/-- What `ReplaceText` leaves in the state. -/
structure RowWriteResult where
  text : List UInt16
  columnEnd : ℕ
  columnBeginDirty : ℕ
  columnEndDirty : ℕ

inductive DbcsAttribute
  | single
  | leading
  | trailing
deriving DecidableEq

inductive TextAttributeBehavior
  | stored
  | current
  | storedOnly
deriving DecidableEq

/-- What an `OutputCellIterator` stands on. -/
structure OutputCellView (α : Type) where
  chars : List UInt16
  dbcsAttr : DbcsAttribute
  textAttr : α
  textAttrBehavior : TextAttributeBehavior
  /-- `Position` of the iterator. -/
  position : ℕ

/-- What stops `WriteCells`. -/
inductive WriteCellsError
  | invalidArgument
  | buffer (error : BufferError)

variable {α : Type}

namespace WriteHelper

variable (h : WriteHelper α)

/-- A glyph at `colEnd`: the offset of its text, and the same with the flag up to `colEndNew`. -/
def put (ch colEndNew : ℕ) : WriteHelper α :=
  { h with
    row :=
      { h.row with
        charOffsets := overwrite h.row.charOffsets h.colEnd
          (u16 ch :: List.replicate (colEndNew - (h.colEnd + 1)) (u16 (ch ||| charOffsetsTrailer))) }
    colEnd := max (h.colEnd + 1) colEndNew }

def replaceCharacters (width : ℕ) : WriteHelper α :=
  let colEndNew := u16 (h.colEnd + width)
  if h.colLimit < colEndNew then { h with colEndDirty := h.colLimit }
  else
    let h := h.put h.chBeg colEndNew
    { h with colEndDirty := h.colEnd, charsConsumed := h.chars.length }

/-- The loop over grapheme clusters, from the position `it` of the text on.  `ch` of the source is
`chBeg + it`. -/
def replaceClusters (cwd : Clustering) (start : ℕ) : ℕ → ℕ → WriteHelper α → WriteHelper α
  | 0, it, h => { h with colEndDirty := h.colEnd, charsConsumed := it }
  | iterations + 1, it, h =>
    if it < h.chars.length then
      let state := cwd.next h.chars start it
      let colEndNew := u16 (h.colEnd + max 1 state.2)
      if h.colLimit < colEndNew then { h with colEndDirty := h.colLimit, charsConsumed := it }
      else replaceClusters cwd start iterations (it + state.1) (h.put (h.chBeg + it) colEndNew)
    else { h with colEndDirty := h.colEnd, charsConsumed := it }

/-- `_replaceTextUnicode`. -/
def replaceTextUnicode (cwd : Clustering) (it : ℕ) : WriteHelper α :=
  if it = 0 then
    let colPrev := stepBack h.row.charOffsets (h.colBeg - 1)
    let chPrev := h.row.uncheckedCharOffset colPrev
    let charsPrev := (h.row.chars.drop chPrev).take (h.chBeg - chPrev)
    let state := cwd.join charsPrev h.chars
    if 0 < state.1 then
      let h := { h with colBegDirty := colPrev, colEnd := colPrev }
      let colEndNew := u16 (h.colEnd + max 1 state.2)
      if h.colLimit < colEndNew then { h with colEndDirty := h.colLimit, charsConsumed := 0 }
      else replaceClusters cwd state.1 h.chars.length state.1 (h.put chPrev colEndNew)
    else replaceClusters cwd 0 h.chars.length 0 h
  else replaceClusters cwd (it - 1) h.chars.length (it - 1) { h with colEnd := h.colEnd - 1 }

/-- The ASCII characters at the front of the text, as far as there are columns for them. -/
def asciiFront : List UInt16 := (h.chars.take (h.colLimit - h.colBeg)).takeWhile (· < 0x80)

def replaceText (cwd : Clustering) : WriteHelper α :=
  let it := h.asciiFront.length
  let h :=
    { h with
      row := { h.row with charOffsets := overwrite h.row.charOffsets h.colEnd (iota it h.chBeg) }
      colEnd := h.colEnd + it }
  if it < min h.chars.length (h.colLimit - h.colBeg) then h.replaceTextUnicode cwd it
  else { h with colEndDirty := h.colEnd, charsConsumed := it }

end WriteHelper

namespace Row

variable (r : Row α)

/-- `ReplaceText`.  When it throws, its handler resets the row and throws again. -/
def replaceText (cwd : Clustering) (state : RowWriteState) : Except BufferError (Row α × RowWriteResult) :=
  let h := WriteHelper.create r state.columnBegin state.columnLimit state.text
  if !h.isValid then
    .ok (r,
      { text := state.text
        columnEnd := h.colBeg
        columnBeginDirty := h.colBeg
        columnEndDirty := h.colBeg })
  else do
    let h ← (h.replaceText cwd).finish
    let text := state.text.drop h.charsConsumed
    .ok (h.row,
      { text
        columnEnd := if text.isEmpty then h.colEnd else h.colLimit
        columnBeginDirty := h.colBegDirty
        columnEndDirty := h.colEndDirty })

/-- `ReplaceCharacters`.  When it throws, its handler resets the row and throws again. -/
def replaceCharacters (columnBegin width : ℕ) (chars : List UInt16) : Except BufferError (Row α) :=
  let h := WriteHelper.create r columnBegin r.columnCount chars
  if !h.isValid then .ok r
  else do
    let h ← (h.replaceCharacters width).finish
    .ok h.row

def clearCell (column : ℕ) : Except BufferError (Row α) := r.replaceCharacters column 1 [space]

/-- The text of one cell, written at `currentIndex`; the second result says whether the iterator moves on. -/
def writeCell (cell : OutputCellView α) (currentIndex finalColumnInRow : ℕ) : Except BufferError (Row α × Bool) :=
  match cell.dbcsAttr with
  | .leading =>
    if currentIndex = finalColumnInRow then do
      let r ← r.clearCell currentIndex
      .ok ({ r with doubleBytePadded := true }, false)
    else do
      let r ← r.replaceCharacters currentIndex 2 cell.chars
      .ok (r, true)
  | .trailing =>
    if currentIndex = 0 then do
      let r ← r.clearCell currentIndex
      .ok (r, true)
    else if cell.position = 0 then do
      let r ← r.replaceCharacters (currentIndex - 1) 2 cell.chars
      .ok (r, true)
    else .ok (r, true)
  | .single => do
    let r ← r.replaceCharacters currentIndex 1 cell.chars
    .ok (r, true)

/-- `_attr.replace`, column by column. -/
def replaceAttr (start stop : ℕ) (attr : α) : Row α :=
  { r with attr := overwrite r.attr start (List.replicate (stop - start) attr) }

/-- The loop of `WriteCells`, over the cells of the iterator. -/
def writeCellsLoop [DecidableEq α] (wrap : Option Bool) (finalColumnInRow : ℕ) :
    List (OutputCellView α) → (currentColor : α) → (colorUses colorStarts currentIndex : ℕ) → Row α →
      Except BufferError (Row α)
  | [], currentColor, colorUses, colorStarts, currentIndex, r =>
    .ok (if colorUses = 0 then r else r.replaceAttr colorStarts currentIndex currentColor)
  | cell :: rest, currentColor, colorUses, colorStarts, currentIndex, r =>
    if finalColumnInRow < currentIndex then
      .ok (if colorUses = 0 then r else r.replaceAttr colorStarts currentIndex currentColor)
    else
      let same : Bool := currentColor = cell.textAttr
      let keep : Bool := cell.textAttrBehavior = .current
      let r := if keep || same then r else r.replaceAttr colorStarts currentIndex currentColor
      let colorUses := if keep then colorUses else if same then colorUses + 1 else 1
      let colorStarts := if keep || same then colorStarts else currentIndex
      let currentColor := if keep || same then currentColor else cell.textAttr
      if cell.textAttrBehavior = .storedOnly then
        writeCellsLoop wrap finalColumnInRow rest currentColor colorUses colorStarts (currentIndex + 1) r
      else do
        let (r, moved) ← r.writeCell cell currentIndex finalColumnInRow
        let r := if currentIndex = finalColumnInRow then { r with wrapForced := wrap.getD r.wrapForced } else r
        if moved then
          writeCellsLoop wrap finalColumnInRow rest currentColor colorUses colorStarts (currentIndex + 1) r
        else
          -- The iterator stays; this was the last column.
          .ok (if colorUses = 0 then r else r.replaceAttr colorStarts (currentIndex + 1) currentColor)

/-- `WriteCells`. -/
def writeCells [DecidableEq α] (cells : List (OutputCellView α)) (columnBegin : ℕ) (wrap : Option Bool)
    (limitRight : Option ℕ) : Except WriteCellsError (Row α) :=
  if r.columnCount ≤ columnBegin ∨ r.columnCount ≤ limitRight.getD 0 then .error .invalidArgument
  else
    match cells with
    | [] => .ok r
    | cell :: _ =>
      match writeCellsLoop wrap (limitRight.getD (r.columnCount - 1)) cells cell.textAttr 0 columnBegin columnBegin r with
      | .ok r => .ok r
      | .error e => .error (.buffer e)

/-- `GlyphAt`. -/
def glyphAt (column : ℕ) : List UInt16 :=
  let col := r.clampedColumn column
  let first := r.uncheckedCharOffset col
  let last := r.uncheckedCharOffset (stepForward r.charOffsets (col + 1))
  (r.chars.drop first).take (last - first)

end Row

end VT7.Buffer
