import Mathlib.Data.List.Basic

/-!
# A row of the text buffer

A `ROW` holds its text as UTF-16 units in `_chars` and, for every column, the offset of the column's
glyph in `_charOffsets`; the top bit of an offset marks a column behind the first one of a wide glyph.
One more offset is the length of the text.  `_chars` may be longer than the text.

An offset is a 16-bit number: it is written modulo `2 ^ 16`.  The attributes are a list with one entry for
every column, which is what the run lengths of `_attr` stand for.
-/

namespace VT7.Buffer

inductive LineRendition
  | singleWidth
  | doubleWidth
  | doubleHeightTop
  | doubleHeightBottom
deriving DecidableEq

inductive MarkCategory
  | default
  | error
  | warning
  | success
  | prompt
deriving DecidableEq

structure ScrollbarData where
  category : MarkCategory
  color : Option UInt32
  exitCode : Option UInt32
deriving DecidableEq

/-- What stops an operation of the buffer before it returns. -/
inductive BufferError
  /-- `gsl::narrow` has thrown. -/
  | narrowing
  /-- A run list was given a range that ends before it begins. -/
  | outOfRange
  /-- The given number of iterations was not enough. -/
  | unfinished
deriving DecidableEq

def space : UInt16 := 0x20

def coordTypeMax : ℕ := 0x7fffffff

/-- The conversion to `uint16_t`. -/
def u16 (n : ℕ) : ℕ := n % 0x10000

/-- Writing `xs` over the elements from index `i` on. -/
def overwrite {β : Type} (l : List β) (i : ℕ) (xs : List β) : List β :=
  l.take i ++ xs ++ l.drop (i + xs.length)

/-- `iota_n`. -/
def iota (n first : ℕ) : List ℕ := (List.range n).map fun i => u16 (first + i)

/-- `resize_trailing_extent` of the attributes. -/
def resizeTrailingExtent {α : Type} (attr : List α) (size : ℕ) : List α :=
  match attr.getLast? with
  | none => []
  | some last => attr.take size ++ List.replicate (size - attr.length) last

/-! ### Offsets -/

def charOffsetsTrailer : ℕ := 0x8000
def charOffsetsMask : ℕ := 0x7fff

/-- The flag `CharOffsetsTrailer` of an offset. -/
def isTrailer (offset : ℕ) : Bool := offset.testBit 15

/-- The loop that steps back over trailers. -/
def stepBack (offsets : List ℕ) : ℕ → ℕ
  | 0 => 0
  | column + 1 => if isTrailer (offsets.getD (column + 1) 0) then stepBack offsets column else column + 1

/-- The loop that steps forward over trailers. -/
def stepForward (offsets : List ℕ) (column : ℕ) : ℕ :=
  column + ((offsets.drop column).takeWhile isTrailer).length

/-- One offset of `_copyOffsets`. -/
def copyOffset (offset ch : ℕ) : ℕ :=
  u16 ((ch &&& charOffsetsMask) + offset) ||| (ch &&& charOffsetsTrailer)

/-! ### The row -/

structure Row (α : Type) where
  /-- `_chars`, as long as its capacity. -/
  chars : List UInt16
  charOffsets : List ℕ
  attr : List α
  columnCount : ℕ
  lineRendition : LineRendition
  wrapForced : Bool
  doubleBytePadded : Bool
  promptData : Option ScrollbarData

/-- A `RowCopyTextFromState` as the caller fills it in.  `sourceIsThis` says that the source is the row
that is written to. -/
structure RowCopyTextFromState (α : Type) where
  source : Row α
  columnBegin : ℕ := 0
  columnLimit : ℕ := coordTypeMax
  sourceColumnBegin : ℕ := 0
  sourceColumnLimit : ℕ := coordTypeMax
  sourceIsThis : Bool := false

/-- What `CopyTextFrom` leaves in the state. -/
structure RowCopyTextFromResult where
  columnEnd : ℕ
  columnBeginDirty : ℕ
  columnEndDirty : ℕ
  sourceColumnEnd : ℕ

/-- `ROW::WriteHelper`. -/
structure WriteHelper (α : Type) where
  row : Row α
  chars : List UInt16
  colBeg : ℕ
  colLimit : ℕ
  colEnd : ℕ
  colBegDirty : ℕ
  colEndDirty : ℕ
  chBeg : ℕ
  chBegDirty : ℕ
  leadingSpaces : ℕ
  charsConsumed : ℕ

variable {α : Type}

namespace Row

variable (r : Row α)

def clampedColumn (column : ℕ) : ℕ := min column (r.columnCount - 1)
def clampedColumnInclusive (column : ℕ) : ℕ := min column r.columnCount

/-- `_charSize`. -/
def charSize : ℕ := r.charOffsets.getD r.columnCount 0

def uncheckedCharOffset (column : ℕ) : ℕ := r.charOffsets.getD column 0 &&& charOffsetsMask

def adjustBackward (column : ℕ) : ℕ := stepBack r.charOffsets column
def adjustForward (column : ℕ) : ℕ := stepForward r.charOffsets column

def adjustToGlyphStart (column : ℕ) : ℕ := r.adjustBackward (r.clampedColumn column)

def getReadableColumnCount : ℕ :=
  if r.lineRendition = .singleWidth then r.columnCount - r.doubleBytePadded.toNat
  else (r.columnCount - 2 * r.doubleBytePadded.toNat) / 2

def getText : List UInt16 := r.chars.take (r.uncheckedCharOffset r.getReadableColumnCount)

/-- The source's number may be negative where a glyph has more spaces than columns; every caller takes
such a number like 0. -/
def getLastNonSpaceColumn : ℕ :=
  r.getReadableColumnCount - (r.getText.reverse.takeWhile (· == space)).length

def measureRight : ℕ :=
  if r.wrapForced then r.columnCount - r.doubleBytePadded.toNat else r.getLastNonSpaceColumn

def setWrapForced (wrap : Bool) : Row α := { r with wrapForced := wrap }

/-- `Reset`, with `_init`. -/
def reset (attr : α) : Row α where
  chars := List.replicate r.columnCount space
  charOffsets := iota (r.columnCount + 1) 0
  attr := List.replicate r.columnCount attr
  columnCount := r.columnCount
  lineRendition := .singleWidth
  wrapForced := false
  doubleBytePadded := false
  promptData := none

/-- The constructor. -/
def create (rowWidth : ℕ) (fillAttribute : α) : Row α where
  chars := List.replicate rowWidth space
  charOffsets := iota (rowWidth + 1) 0
  attr := List.replicate rowWidth fillAttribute
  columnCount := rowWidth
  lineRendition := .singleWidth
  wrapForced := false
  doubleBytePadded := false
  promptData := none

/-- `_resizeChars`.  What `make_unique_for_overwrite` leaves unspecified is 0. -/
def resizeChars (colEndDirty chBegDirty chEndDirty chEndDirtyOld : ℕ) : Except BufferError (Row α) :=
  let currentLength := r.charSize
  let newLength := currentLength + chEndDirty - chEndDirtyOld
  let moved := (r.chars.drop chEndDirtyOld).take (currentLength - chEndDirtyOld)
  let charOffsets := r.charOffsets.take colEndDirty ++
    (r.charOffsets.drop colEndDirty).map fun it => u16 (it + chEndDirty + 0x10000 - chEndDirtyOld)
  if newLength ≤ r.chars.length then
    .ok { r with chars := overwrite r.chars chEndDirty moved, charOffsets }
  else
    let minCapacity := min 0xffff (r.chars.length + r.chars.length / 2)
    let newCapacity := max newLength minCapacity
    if 0xffff < newCapacity then .error .narrowing
    else
      let chars := overwrite (List.replicate newCapacity 0) 0 (r.chars.take chBegDirty)
      .ok { r with chars := overwrite chars chEndDirty moved, charOffsets }

end Row

namespace WriteHelper

/-- The constructor. -/
def create (row : Row α) (columnBegin columnLimit : ℕ) (chars : List UInt16) : WriteHelper α :=
  let colBeg := row.clampedColumnInclusive columnBegin
  let chBegDirty := row.uncheckedCharOffset colBeg
  let colBegDirty := row.adjustBackward colBeg
  { row
    chars
    colBeg
    colLimit := row.clampedColumnInclusive columnLimit
    colEnd := colBeg
    colBegDirty
    colEndDirty := 0
    chBeg := u16 (chBegDirty + (colBeg - colBegDirty))
    chBegDirty
    leadingSpaces := colBeg - colBegDirty
    charsConsumed := 0 }

variable (h : WriteHelper α)

def isValid : Bool := h.colBeg < h.colLimit && !h.chars.isEmpty

def copyTextFrom (charOffsets : List ℕ) : WriteHelper α :=
  let colEndDirtyInput := min (h.colLimit - h.colBeg) (charOffsets.length - 1)
  let colEndInput := stepBack charOffsets colEndDirtyInput
  let baseOffset := charOffsets.getD 0 0
  let endOffset := charOffsets.getD colEndInput 0
  let inToOutOffset := u16 (h.chBeg + 0x10000 - baseOffset)
  let copied := (charOffsets.take colEndInput).map (copyOffset inToOutOffset)
  { h with
    row := { h.row with charOffsets := overwrite h.row.charOffsets h.colEnd copied }
    colEnd := h.colEnd + colEndInput
    colEndDirty := u16 (h.colBeg + colEndDirtyInput)
    charsConsumed := endOffset - baseOffset }

/-- What `Finish` writes once the text behind the written range is in its place. -/
def fillIn (row : Row α) (colEndDirty trailingSpaces : ℕ) : Row α :=
  let chars := overwrite row.chars h.chBeg (h.chars.take h.charsConsumed)
  let chars := overwrite chars h.chBegDirty (List.replicate h.leadingSpaces space)
  let offsets := overwrite row.charOffsets h.colBegDirty (iota h.leadingSpaces h.chBegDirty)
  { row with
    chars := overwrite chars (h.chBeg + h.charsConsumed) (List.replicate trailingSpaces space)
    charOffsets := overwrite offsets h.colEnd (iota trailingSpaces (u16 (h.chBeg + h.charsConsumed)))
    doubleBytePadded :=
      if colEndDirty = row.columnCount then h.colEnd < row.columnCount else row.doubleBytePadded }

def finish : Except BufferError (WriteHelper α) := do
  let colEndDirty := h.row.adjustForward h.colEndDirty
  let trailingSpaces := colEndDirty - h.colEnd
  let chEndDirtyOld := h.row.uncheckedCharOffset colEndDirty
  let chEndDirty := h.chBegDirty + h.charsConsumed + h.leadingSpaces + trailingSpaces
  let row ← (if chEndDirty ≠ chEndDirtyOld then
      h.row.resizeChars colEndDirty h.chBegDirty chEndDirty chEndDirtyOld
    else .ok h.row : Except BufferError (Row α))
  .ok { h with row := h.fillIn row colEndDirty trailingSpaces, colEndDirty }

end WriteHelper

namespace Row

variable (r : Row α)

/-- `CopyTextFrom`.  When it throws, its handler resets the row and throws again. -/
def copyTextFrom (state : RowCopyTextFromState α) :
    Except BufferError (Row α × RowCopyTextFromResult) := do
  let source := state.source
  let sourceColBeg := source.clampedColumnInclusive state.sourceColumnBegin
  let sourceColLimit := source.clampedColumnInclusive state.sourceColumnLimit
  let charOffsets :=
    if sourceColBeg < sourceColLimit then
      (source.charOffsets.drop sourceColBeg).take (sourceColLimit - sourceColBeg + 1)
    else []
  let beg := charOffsets.headD 0 &&& charOffsetsMask
  let last := charOffsets.getLastD 0 &&& charOffsetsMask
  let chars := if sourceColBeg < sourceColLimit then (source.chars.drop beg).take (last - beg) else []
  let h := WriteHelper.create r state.columnBegin state.columnLimit chars
  if !h.isValid || state.sourceIsThis || charOffsets.length < 2 || isTrailer (charOffsets.headD 0) then
    .ok (r,
      { columnEnd := h.colBeg
        columnBeginDirty := h.colBeg
        columnEndDirty := h.colBeg
        sourceColumnEnd := source.columnCount })
  else
    let h ← (h.copyTextFrom charOffsets).finish
    .ok (h.row,
      { columnEnd := if h.charsConsumed = chars.length then h.colEnd else h.colLimit
        columnBeginDirty := h.colBegDirty
        columnEndDirty := h.colEndDirty
        sourceColumnEnd := sourceColBeg + h.colEnd - h.colBeg })

/-- `CopyFrom`, of another row. -/
def copyFrom (source : Row α) : Except BufferError (Row α) := do
  let r := { r with lineRendition := source.lineRendition, wrapForced := source.wrapForced }
  let (r, _) ← r.copyTextFrom { source, sourceColumnLimit := source.getReadableColumnCount }
  .ok { r with attr := resizeTrailingExtent source.attr r.columnCount }

end Row

end VT7.Buffer
