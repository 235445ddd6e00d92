import Mathlib.Logic.Function.Basic
import VT7.Parser.StateMachine

/-!
# The font buffer of DECDLD

Sixel data is drawn into the lines of a character in `_buffer`.  While the dimensions of the font are not known, the
characters have the maximum size; at the end of such an upload they are packed and centred, and later uploads of the
same font draw in the packed form.

`_buffer` is a function of the line; its leftmost pixel is the highest bit.  The members that are called pending are
together in `pending`, and the current ones in `attributes`.  A step that throws has no result; it has changed nothing
before.
-/

namespace VT7.Adapter

open VT7.Parser

/-- What decides whether an upload adds to a font. -/
structure FontAttributes where
  cellMatrix : ℕ
  cellHeight : ℕ
  fontSet : ℕ
  fontUsage : ℕ
  charsetSize : ℕ
  charsetId : UInt64
deriving DecidableEq

/-- A store through `_currentCharBuffer`, with the character and the cell height at that time. -/
structure FontStore where
  currentChar : ℕ
  fullHeight : ℕ
  line : ℕ

structure FontBuffer where
  attributes : FontAttributes
  pending : FontAttributes
  sizeDeclaredAsMatrix : Bool
  declaredWidth : ℕ
  declaredHeight : ℕ
  usedWidth : ℕ
  usedHeight : ℕ
  fullWidth : ℕ
  fullHeight : ℕ
  textWidth : ℕ
  textOffset : ℕ
  textCenteringHint : ℤ
  linesPerPage : ℕ
  columnsPerPage : ℕ
  isTextFont : Bool
  charsetIdInitialized : Bool
  charsetIdBuilder : VTIDBuilder
  startChar : ℕ
  lastChar : ℕ
  currentChar : ℕ
  buffer : ℕ → BitVec 16
  /-- `_currentCharBuffer`, as a line of the buffer. -/
  currentCharBuffer : ℕ
  bufferCleared : Bool
  sixelColumn : ℕ
  sixelRow : ℕ
  stores : List FontStore

def maxWidth : ℕ := 16
def maxHeight : ℕ := 32
def maxChars : ℕ := 96

/-- The lines of `_buffer`. -/
def fontLines : ℕ := maxHeight * maxChars

/-- `DrcsCellMatrix::Invalid`. -/
def invalidCellMatrix : ℕ := 1

namespace FontBuffer

variable (f : FontBuffer)

/-! ### Parameters -/

/-- `SetEraseControl`. -/
def setEraseControl (eraseControl : ℕ) : FontBuffer × Bool :=
  match eraseControl with
  | 0 | 2 => ({ f with attributes := { f.attributes with cellMatrix := invalidCellMatrix } }, true)
  | 1 => (f, true)
  | _ => (f, false)

/-- The constructor; the members it does not set have any value. -/
def create (uninitialized : FontBuffer) : FontBuffer := ({ uninitialized with stores := [] }.setEraseControl 2).1

/-- The font set in `SetAttributes`. -/
def setFontSet (fontSet : ℕ) : FontBuffer × Bool :=
  match fontSet with
  | 0 | 1 => ({ f with columnsPerPage := 80, linesPerPage := 24 }, true)
  | 11 => ({ f with columnsPerPage := 80, linesPerPage := 36 }, true)
  | 21 => ({ f with columnsPerPage := 80, linesPerPage := 48 }, true)
  | 2 => ({ f with columnsPerPage := 132, linesPerPage := 24 }, true)
  | 12 => ({ f with columnsPerPage := 132, linesPerPage := 36 }, true)
  | 22 => ({ f with columnsPerPage := 132, linesPerPage := 48 }, true)
  | _ => (f, false)

/-- The font usage in `SetAttributes`. -/
def setFontUsage (fontUsage : ℕ) : FontBuffer × Bool :=
  match fontUsage with
  | 0 | 1 => ({ f with isTextFont := true }, true)
  | 2 => ({ f with isTextFont := false }, true)
  | _ => (f, false)

/-- The cell matrix in `SetAttributes`. -/
def setCellMatrix (cellMatrix : ℕ) (cellHeight : Option ℕ) : FontBuffer × Bool :=
  let declare (width : ℕ) : FontBuffer :=
    { f with sizeDeclaredAsMatrix := true, declaredWidth := width, declaredHeight := 10 }
  match cellMatrix with
  | 1 => (f, false)
  | 2 => (declare 5, f.isTextFont)
  | 3 => (declare 6, f.isTextFont || f.columnsPerPage == 132)
  | 4 => (declare 7, f.isTextFont)
  | _ =>
    let f := { f with
      sizeDeclaredAsMatrix := false
      declaredWidth := cellMatrix
      declaredHeight := cellHeight.getD 0 }
    (f, f.declaredWidth ≤ maxWidth && f.declaredHeight ≤ maxHeight)

def setAttributes (cellMatrix : ℕ) (cellHeight : Option ℕ) (fontSet fontUsage : ℕ) : FontBuffer × Bool :=
  let (f, valid) := f.setFontSet fontSet
  let (f, valid) := if valid then f.setFontUsage fontUsage else (f, false)
  let (f, valid) := if valid then f.setCellMatrix cellMatrix cellHeight else (f, false)
  ({ f with
      pending := { f.pending with cellMatrix, cellHeight := cellHeight.getD 0, fontSet, fontUsage }
      usedWidth := 0
      usedHeight := 0 }, valid)

def setStartChar (startChar : Option ℕ) (charsetSize : ℕ) : FontBuffer × Bool :=
  let start (char : ℕ) : FontBuffer :=
    { f with
      startChar := char
      currentChar := char
      pending := { f.pending with charsetSize }
      charsetIdInitialized := false
      charsetIdBuilder := {} }
  match charsetSize with
  | 0 => (start (startChar.getD 1), true)
  | 1 => (start (startChar.getD 0), true)
  | _ => (f, false)

/-! ### Sixel data -/

/-- A store to a line of the buffer. -/
def store (line : ℕ) (value : BitVec 16) : FontBuffer :=
  { f with
    buffer := Function.update f.buffer line value
    stores := ⟨f.currentChar, f.fullHeight, line⟩ :: f.stores }

/-- A loop that changes `count` lines from `_currentCharBuffer` on. -/
def storeLines (count : ℕ) (value : ℕ → BitVec 16 → BitVec 16) : FontBuffer :=
  (List.range count).foldl
    (fun f i => f.store (f.currentCharBuffer + i) (value i (f.buffer (f.currentCharBuffer + i)))) f

/-- `_prepareNextCharacter`. -/
def prepareNextCharacter : FontBuffer :=
  let f := { f with
    lastChar := f.currentChar
    currentCharBuffer := f.currentChar * f.fullHeight
    sixelColumn := 0
    sixelRow := 0 }
  if !f.bufferCleared ∧ f.currentChar < maxChars then f.storeLines f.fullHeight fun _ _ => 0 else f

/-- `_prepareCharacterBuffer`. -/
def prepareCharacterBuffer : FontBuffer :=
  if f.attributes ≠ f.pending then
    { f with
      attributes := f.pending
      fullWidth := maxWidth
      fullHeight := maxHeight
      textWidth := maxWidth
      textOffset := 0
      buffer := fun _ => 0
      bufferCleared := true }.prepareNextCharacter
  else { f with bufferCleared := false }.prepareNextCharacter

/-- `_buildCharsetId`. -/
def buildCharsetId (ch : UInt16) : FontBuffer :=
  if 0x20 ≤ ch ∧ ch ≤ 0x2f then { f with charsetIdBuilder := f.charsetIdBuilder.addIntermediate ch }
  else if 0x30 ≤ ch ∧ ch ≤ 0x7e then
    { f with
      pending := { f.pending with charsetId := f.charsetIdBuilder.finalize ch }
      charsetIdInitialized := true }.prepareCharacterBuffer
  else f

/-- `_addSixelValue`; a sixel goes down six lines, or to the end of the cell. -/
def addSixelValue (value : ℕ) : FontBuffer :=
  let drawn :=
    if f.currentChar < maxChars ∧ f.sixelColumn < f.textWidth then
      let outputColumnBit := 0x8000#16 >>> (f.sixelColumn + f.textOffset)
      f.storeLines (min 6 (f.fullHeight - f.sixelRow)) fun i line =>
        line ||| if value.testBit i then outputColumnBit else 0
    else f
  { drawn with sixelColumn := drawn.sixelColumn + 1 }

/-- `_endOfSixelLine`. -/
def endOfSixelLine : Option FontBuffer :=
  if fontLines ≤ f.currentCharBuffer ∨ maxHeight ≤ f.sixelRow then none
  else
    some { f with
      currentCharBuffer := f.currentCharBuffer + 6
      sixelRow := f.sixelRow + 6
      usedWidth := max f.usedWidth f.sixelColumn
      usedHeight := max f.usedHeight (f.sixelRow + 6)
      sixelColumn := 0 }

/-- `_endOfCharacter`. -/
def endOfCharacter : Option FontBuffer :=
  f.endOfSixelLine.map fun f => { f with currentChar := f.currentChar + 1 }.prepareNextCharacter

/-- A sixel: the characters `?` to `~`. -/
def isSixel (ch : UInt16) : Bool := 0x3f ≤ ch && ch ≤ 0x7e

def lineEnd : UInt16 := 0x2f
def characterEnd : UInt16 := 0x3b

/-- `AddSixelData`. -/
def addSixelData (ch : UInt16) : Option FontBuffer :=
  if !f.charsetIdInitialized then some (f.buildCharsetId ch)
  else if isSixel ch then some (f.addSixelValue (ch - 0x3f).toNat)
  else if ch = lineEnd then f.endOfSixelLine
  else if ch = characterEnd then f.endOfCharacter
  else some f

/-! ### The end of an upload -/

/-- `inRange` of `_calculateDimensions`. -/
def inRange (cellWidth cellHeight : ℕ) : Bool :=
  let sixelHeight := (cellHeight + 5) / 6 * 6
  (if f.declaredHeight ≠ 0 then f.declaredHeight ≤ cellHeight else f.usedHeight ≤ sixelHeight) &&
    (if f.declaredWidth ≠ 0 then f.declaredWidth ≤ cellWidth else f.usedWidth ≤ cellWidth)

/-- `_calculateDimensions`: full width, full height and text width. -/
def calculateDimensions : ℕ × ℕ × ℕ :=
  if f.sizeDeclaredAsMatrix then
    if f.columnsPerPage = 132 ∧ f.declaredWidth ≤ 6 then (6, 10, 0) else (10, 10, 8)
  else if f.declaredWidth ≠ 0 ∧ f.declaredHeight ≠ 0 ∧ !f.isTextFont then (f.declaredWidth, f.declaredHeight, 0)
  else
    let textWidth := if f.isTextFont then f.declaredWidth else 0
    if f.linesPerPage ≠ 24 then
      (if f.columnsPerPage = 132 then 6 else 10, if f.linesPerPage = 48 then 8 else 10, textWidth)
    else
      let noDeclaredSize : Bool := f.declaredWidth = 0 && f.declaredHeight = 0
      if f.columnsPerPage = 80 then
        if f.inRange 8 10 && noDeclaredSize then (10, 10, 8)
        else if f.inRange 15 12 then (15, 12, textWidth)
        else if f.inRange 10 16 then (10, 16, textWidth)
        else if f.inRange 10 20 then (10, 20, textWidth)
        else if f.inRange 12 30 then (12, 30, textWidth)
        else (maxWidth, maxHeight, textWidth)
      else
        if f.inRange 6 10 && noDeclaredSize then (6, 10, 0)
        else if f.inRange 9 12 then (9, 12, textWidth)
        else if f.inRange 6 16 then (6, 16, textWidth)
        else if f.inRange 6 20 then (6, 20, textWidth)
        else if f.inRange 7 30 then (7, 30, textWidth)
        else (maxWidth, maxHeight, textWidth)

/-- One step of the loop of `_packAndCenterBitPatterns`, on the buffer and `dstLine`. -/
def packLine (fullHeight : ℕ) (pack : BitVec 16 → BitVec 16) (s : (ℕ → BitVec 16) × ℕ) (srcLine : ℕ) :
    (ℕ → BitVec 16) × ℕ :=
  if srcLine % maxHeight < fullHeight then (Function.update s.1 s.2 (pack (s.1 srcLine)), s.2 + 1) else s

/-- The loop. -/
def packLines (fullHeight : ℕ) (pack : BitVec 16 → BitVec 16) (buffer : ℕ → BitVec 16) : ℕ → BitVec 16 :=
  ((List.range fontLines).foldl (packLine fullHeight pack) (buffer, 0)).1

/-- `_packAndCenterBitPatterns`. -/
def packAndCenterBitPatterns : FontBuffer :=
  let textWidth := min (if f.textWidth ≠ 0 then f.textWidth else f.fullWidth) f.fullWidth
  let textOffset := (f.fullWidth - textWidth) / 2
  let textClippingMask := ~~~(0xffff#16 >>> textWidth)
  { f with
    textWidth
    textOffset
    textCenteringHint :=
      if f.declaredWidth ≠ 0 then (f.fullWidth : ℤ) - ((f.declaredWidth : ℤ) + textOffset * 2) else 0
    buffer := packLines f.fullHeight (fun line => (line &&& textClippingMask) >>> textOffset) f.buffer }

def inputBitPattern : List (BitVec 16) :=
  [0, 0, 0, 0, 0, 0, 0b001111111110000, 0b011111111111000, 0b111000000011100, 0b111000000011100, 0b111000000000000,
    0b111000000000000, 0b111100000000000, 0b011111000000000, 0b000011110000000, 0b000001110000000, 0b000001110000000,
    0b000001110000000, 0b000001110000000, 0, 0b000001110000000, 0b000001110000000, 0b000001110000000]

def widthMasks : List ℕ :=
  [0, 1, 3, 32771, 8457, 9481, 9545, 9673, 42441, 26061, 58829, 28141, 60909, 63453, 63485, 65533, 65535]

def heightMasks : List ℕ :=
  [0, 1, 3, 7, 15, 1613952, 10002560, 10002816, 10068352, 10068353, 26845569, 26847617, 26847619, 26864003, 28961155,
    28961219, 28961731, 62516163, 62516167, 129625031, 129625039, 129756111, 263973839, 263974863, 268169167,
    536604623, 536608719, 536608735, 536870879, 1073741791, 2147483615, 2147483647, 4294967295]

/-- The pixels of a scanline of the error glyph that the width keeps, from the left. -/
def errorScanline (widthMask : ℕ) (inputScanline : BitVec 16) : BitVec 16 :=
  (List.range maxWidth).reverse.foldl
    (fun line x => if widthMask.testBit x then line <<< 1 ||| (if inputScanline.getLsbD x then 1 else 0) else line) 0

/-- `_generateErrorGlyph`. -/
def generateErrorGlyph : List (BitVec 16) :=
  ((List.range maxHeight).filter fun y => (heightMasks.getD f.fullHeight 0).testBit y).map fun y =>
    errorScanline (widthMasks.getD f.fullWidth 0) (inputBitPattern.getD y 0) <<< (maxWidth - f.fullWidth)

/-- `copy_n` of the error glyph over a character. -/
def copyErrorGlyph (errorPattern : List (BitVec 16)) (fullHeight : ℕ) (buffer : ℕ → BitVec 16) (ch : ℕ) :
    ℕ → BitVec 16 :=
  (List.range fullHeight).foldl
    (fun buffer i => Function.update buffer (ch * fullHeight + i) (errorPattern.getD i 0)) buffer

/-- `_fillUnusedCharacters`. -/
def fillUnusedCharacters : FontBuffer :=
  let errorPattern := f.generateErrorGlyph
  { f with
    buffer := (List.range maxChars).foldl
      (fun buffer ch =>
        if ch < f.startChar ∨ f.lastChar < ch then copyErrorGlyph errorPattern f.fullHeight buffer ch else buffer)
      f.buffer }

/-- `FinalizeSixelData`, with what it returns. -/
def finalizeSixelData : Option (FontBuffer × Bool) :=
  if !f.charsetIdInitialized then some (f, false)
  else
    f.endOfSixelLine.map fun f =>
      if f.bufferCleared then
        let (fullWidth, fullHeight, textWidth) := f.calculateDimensions
        ({ f with fullWidth, fullHeight, textWidth }.packAndCenterBitPatterns.fillUnusedCharacters, true)
      else (f, true)

/-- `GetBitPattern`. -/
def getBitPattern : List (BitVec 16) := (List.range (maxChars * f.fullHeight)).map f.buffer

end FontBuffer

end VT7.Adapter
