import VT7.Buffer.Areas
import VT7.Lib.Run
import VT7.Types.ExclusiveWalks

/-!
# Moving by glyphs

Two pairs of functions move a position by a glyph, with an end behind the last line and with an end behind each line.
A position is followed by its number; where the halves of wide glyphs are decides what a move does.
-/

namespace VT7.Buffer

open VT7.Lib.Cells
open VT7.Types.Viewport

variable {α : Type}

/-! ### The functions -/

/-- `TextBufferCellIterator`, as far as moving it goes. -/
structure CellIterator where
  pos : Types.Point
  bounds : Types.Viewport
  exceeded : Bool

namespace CellIterator

variable (it : CellIterator)

/-- `operator bool`. -/
def valid : Bool := !it.exceeded && it.bounds.isInBounds it.pos

/-- `operator++`. -/
def next : CellIterator :=
  let (newX, newY, exceeded) :=
    if it.pos.x = it.bounds.right then
      if it.pos.y + 1 > it.bounds.bottom then (it.bounds.left, it.bounds.top, true)
      else (it.bounds.left, it.pos.y + 1, it.exceeded)
    else (it.pos.x + 1, it.pos.y, false)
  if exceeded then { it with exceeded } else { it with pos := ⟨newX, newY⟩, exceeded }

end CellIterator

namespace TextBuffer

variable (b : TextBuffer α)

/-- `GetCellDataAt`, where the iterator is kept. -/
def getCellIterator (pos : Types.Point) : Except WriteCellsError CellIterator :=
  if !b.getSize.isInBounds pos then .error .invalidArgument else .ok ⟨pos, b.getSize, false⟩

/-- `DbcsAttr` of the cell at a position. -/
def dbcsAt (pos : Types.Point) : DbcsAttribute := (b.getRowByOffset pos.y).dbcsAttrAt pos.x.toNat

/-- What `pos` becomes, and what is returned. -/
def moveToNextGlyph (pos : Types.Point) (allowExclusiveEnd : Bool) (limitOptional : Option Types.Point) :
    Except WriteCellsError (Types.Point × Bool) :=
  let bufferSize := b.getSize
  let limit := limitOptional.getD bufferSize.endExclusive
  let distanceToLimit := bufferSize.compareInBounds pos limit
  if distanceToLimit ≥ 0 then .ok (limit, false)
  else if !allowExclusiveEnd && distanceToLimit = -1 then .ok (pos, false)
  else do
    let iter ← b.getCellIterator pos
    let iter := iter.next
    let success := iter.valid
    let iter := if success && b.dbcsAt iter.pos = .trailing then iter.next else iter
    return (iter.pos, success)

def moveToNextGlyph2 (pos : Types.Point) (limitOptional : Option Types.Point) : Except WriteCellsError (Types.Point × Bool) :=
  let bufferSize := b.getSize
  let limit := limitOptional.getD bufferSize.bottomInclusiveRightExclusive
  if pos.notBefore limit then .ok (limit, false)
  else
    let (pos, success) := bufferSize.walkInExclusiveBounds pos 1
    if success && bufferSize.isInBounds pos then do
      let cell ← b.getCellDataAt pos
      if cell.dbcsAttr = .trailing then return ((bufferSize.walkInExclusiveBounds pos 1).1, success)
      else return (pos, success)
    else .ok (pos, success)

def moveToPreviousGlyph (pos : Types.Point) (limitOptional : Option Types.Point) : Except WriteCellsError (Types.Point × Bool) :=
  let bufferSize := b.getSize
  let limit := limitOptional.getD bufferSize.endExclusive
  if bufferSize.compareInBounds pos limit > 0 then .ok (limit, true)
  else
    let (resultPos, success) := bufferSize.walkToEnd pos (-1)
    if resultPos ≠ bufferSize.endExclusive then do
      let cell ← b.getCellDataAt resultPos
      if cell.dbcsAttr = .leading then return ((bufferSize.walkToEnd resultPos (-1)).1, success)
      else return (resultPos, success)
    else .ok (resultPos, success)

def moveToPreviousGlyph2 (pos : Types.Point) (limitOptional : Option Types.Point) : Except WriteCellsError (Types.Point × Bool) :=
  let bufferSize := b.getSize
  let limit := limitOptional.getD bufferSize.bottomInclusiveRightExclusive
  if pos.notBefore limit then .ok (limit, false)
  else
    let (pos, success) := bufferSize.walkInExclusiveBounds pos (-1)
    if success && bufferSize.isInBounds pos then do
      let cell ← b.getCellDataAt pos
      if cell.dbcsAttr = .trailing then return ((bufferSize.walkInExclusiveBounds pos (-1)).1, success)
      else return (pos, success)
    else .ok (pos, success)

end TextBuffer

/-! ### Cells by number -/

/-- A buffer whose rows hold glyphs. -/
structure GlyphBuffer (α : Type) where
  buffer : TextBuffer α
  width_pos : 0 < buffer.width
  height_pos : 0 < buffer.height
  rows : ∀ y < buffer.height, ∃ gs, (buffer.getRow y).Holds gs ∧ (buffer.getRow y).columnCount = buffer.width

namespace GlyphBuffer

variable (b : GlyphBuffer α)

def w : ℕ := b.buffer.width
def h : ℕ := b.buffer.height

/-- The position with a number. -/
def pos (n : ℕ) : Types.Point := position 0 0 b.w n

/-- The half at a column of a line. -/
def half (x y : ℕ) : Half := (b.buffer.dbcsAt ⟨x, y⟩).half

/-- The half at the position with a number. -/
def halfAt (n : ℕ) : Half := b.half (n % b.w) (n / b.w)

variable {b} {x y n : ℕ}

theorem w_pos : 0 < b.w := b.width_pos
theorem h_pos : 0 < b.h := b.height_pos
theorem size_pos : 0 < b.w * b.h := Nat.mul_pos w_pos h_pos

theorem div_lt (hn : n < b.w * b.h) : n / b.w < b.h := Nat.div_lt_of_lt_mul hn

theorem mod_lt (n : ℕ) : n % b.w < b.w := Nat.mod_lt n w_pos

/-- The cells of a line. -/
theorem exists_fits (hy : y < b.h) : ∃ c : ℕ → GlyphCell, Fits b.w c ∧ ∀ x < b.w, b.half x y = (c x).half := by
  obtain ⟨gs, hholds, hcolumns⟩ := b.rows y hy
  have hfits := fits_stripOf gs
  rw [hholds.columns, hcolumns] at hfits
  refine ⟨stripOf gs, hfits, fun x hx => ?_⟩
  have hcell := hholds.cell_eq (show x < (b.buffer.getRow y).columnCount by rw [hcolumns]; exact hx)
  have hrow : b.buffer.getRowByOffset (y : ℤ) = b.buffer.getRow y := by
    unfold TextBuffer.getRowByOffset
    rw [Int.emod_eq_of_lt (by omega) (by exact_mod_cast hy), Int.toNat_natCast]
  unfold half TextBuffer.dbcsAt
  rw [← hcell, hrow]
  rfl

theorem half_leading_iff (hx : x + 1 < b.w) (hy : y < b.h) : b.half x y = .leading ↔ b.half (x + 1) y = .trailing := by
  obtain ⟨c, hfits, hhalf⟩ := exists_fits hy
  rw [hhalf x (by omega), hhalf (x + 1) hx]
  exact (hfits.paired x).1

theorem half_last (hx : x + 1 = b.w) (hy : y < b.h) : b.half x y ≠ .leading := by
  obtain ⟨c, hfits, hhalf⟩ := exists_fits hy
  rw [hhalf x (by omega)]
  exact hfits.last hx

theorem half_first (hy : y < b.h) : b.half 0 y ≠ .trailing := by
  obtain ⟨c, hfits, hhalf⟩ := exists_fits hy
  rw [hhalf 0 w_pos]
  exact hfits.first

theorem halfAt_leading_iff (hn : n < b.w * b.h) :
    b.halfAt n = .leading ↔ n + 1 < b.w * b.h ∧ b.halfAt (n + 1) = .trailing := by
  have hy := div_lt hn
  unfold halfAt
  rcases succ_div_mod (w_pos (b := b)) n with ⟨hlt, hmod, hdiv⟩ | ⟨heq, hmod, hdiv⟩
  · rw [hmod, hdiv, half_leading_iff hlt hy]
    refine ⟨fun h => ⟨?_, h⟩, fun h => h.2⟩
    have hmul : b.w * (n / b.w + 1) ≤ b.w * b.h := Nat.mul_le_mul_left _ hy
    have hsplit := Nat.div_add_mod n b.w
    rw [Nat.mul_add, Nat.mul_one] at hmul
    omega
  · rw [hmod, hdiv]
    refine iff_of_false (half_last heq hy) fun h => half_first ?_ h.2
    rw [← hdiv]
    exact div_lt h.1

theorem halfAt_zero : b.halfAt 0 ≠ .trailing := by
  unfold halfAt
  rw [Nat.zero_mod, Nat.zero_div]
  exact half_first h_pos

theorem pos_eq (n : ℕ) : b.pos n = ⟨(n % b.w : ℕ), (n / b.w : ℕ)⟩ := by
  have := position_natCast 0 0 b.w n
  rwa [Nat.zero_add, Nat.zero_add] at this

theorem half_pos (n : ℕ) : (b.buffer.dbcsAt (b.pos n)).half = b.halfAt n := by
  rw [pos_eq]
  rfl

theorem getSize_eq : b.buffer.getSize = fromDimensions ⟨0, 0⟩ b.w b.h := rfl

theorem isInBounds_pos (hn : n < b.w * b.h) : b.buffer.getSize.isInBounds (b.pos n) = true := by
  have hx := mod_lt (b := b) n
  have hy := div_lt hn
  rw [pos_eq, getSize_eq]
  generalize n % b.w = x at *
  generalize n / b.w = y at *
  unfold fromDimensions Types.Viewport.isInBounds
  simp only [Bool.and_eq_true, decide_eq_true_eq]
  omega

theorem getCellDataAt_pos (hn : n < b.w * b.h) :
    ∃ cell, b.buffer.getCellDataAt (b.pos n) = .ok cell ∧ cell.dbcsAttr.half = b.halfAt n := by
  rw [← half_pos n]
  refine ⟨_, by
    unfold TextBuffer.getCellDataAt
    rw [isInBounds_pos hn]
    rfl, rfl⟩

theorem endExclusive_eq : b.buffer.getSize.endExclusive = b.pos (b.w * b.h) := by
  rw [pos_eq, getSize_eq, Nat.mul_mod_right, Nat.mul_div_cancel_left _ w_pos]
  unfold endExclusive fromDimensions
  dsimp only
  congr 1
  omega

theorem compareInBounds_pos (n m : ℕ) : b.buffer.getSize.compareInBounds (b.pos n) (b.pos m) = (n : ℤ) - m := by
  have hn : (b.w : ℤ) * (n / b.w : ℕ) + (n % b.w : ℕ) = n := by exact_mod_cast Nat.div_add_mod n b.w
  have hm : (b.w : ℤ) * (m / b.w : ℕ) + (m % b.w : ℕ) = m := by exact_mod_cast Nat.div_add_mod m b.w
  rw [pos_eq, pos_eq, getSize_eq]
  unfold compareInBounds fromDimensions
  dsimp only
  have hwidth : (0 : ℤ) + b.w - 1 + 1 - 0 = b.w := by omega
  rw [hwidth, Int.sub_mul, Int.mul_comm _ (b.w : ℤ), Int.mul_comm _ (b.w : ℤ)]
  omega

/-- Coordinates and their number. -/
theorem pos_of (hx : x < b.w) : b.pos (b.w * y + x) = ⟨x, y⟩ := by
  rw [pos_eq, Nat.mul_add_mod, Nat.mod_eq_of_lt hx, Nat.mul_add_div w_pos, Nat.div_eq_of_lt hx, Nat.add_zero]

theorem halfAt_of (hx : x < b.w) : b.halfAt (b.w * y + x) = b.half x y := by
  unfold halfAt
  rw [Nat.mul_add_mod, Nat.mod_eq_of_lt hx, Nat.mul_add_div w_pos, Nat.div_eq_of_lt hx, Nat.add_zero]

theorem number_lt (hx : x < b.w) (hy : y < b.h) : b.w * y + x < b.w * b.h := by
  have hmul : b.w * (y + 1) ≤ b.w * b.h := Nat.mul_le_mul_left _ hy
  rw [Nat.mul_add, Nat.mul_one] at hmul
  omega

theorem walkToEnd_pos (n : ℕ) : b.buffer.getSize.walkToEnd (b.pos n) (-1) =
    (b.pos (min (n - 1) (b.w * b.h)), decide (0 < n ∧ n ≤ b.w * b.h + 1)) := by
  have hcast : ((b.w * b.h : ℕ) : ℤ) = (b.w : ℤ) * b.h := Nat.cast_mul _ _
  rw [getSize_eq, pos, walkToEnd_position (by exact_mod_cast w_pos) (by exact_mod_cast h_pos), ← hcast, pos]
  congr 1
  · congr 1
    omega
  · rw [decide_eq_decide]
    omega

/-! ### With an end behind the last line -/

section Iterator

theorem next_iterator_right (hx : x + 1 < b.w) : (⟨⟨x, y⟩, b.buffer.getSize, false⟩ : CellIterator).next =
    ⟨⟨(x + 1 : ℕ), y⟩, b.buffer.getSize, false⟩ := by
  have hright : ¬ ((x : ℤ) = b.buffer.getSize.right) := by
    rw [getSize_eq]
    unfold fromDimensions
    dsimp only
    omega
  unfold CellIterator.next
  simp only [if_neg hright]
  rfl

theorem next_iterator_line (hx : x + 1 = b.w) (hy : y + 1 < b.h) :
    (⟨⟨x, y⟩, b.buffer.getSize, false⟩ : CellIterator).next = ⟨⟨(0 : ℕ), (y + 1 : ℕ)⟩, b.buffer.getSize, false⟩ := by
  have hright : (x : ℤ) = b.buffer.getSize.right := by
    rw [getSize_eq]
    unfold fromDimensions
    dsimp only
    omega
  have hbottom : ¬ (y : ℤ) + 1 > b.buffer.getSize.bottom := by
    rw [getSize_eq]
    unfold fromDimensions
    dsimp only
    omega
  unfold CellIterator.next
  simp only [if_pos hright, if_neg hbottom]
  rfl

theorem next_iterator_last (hx : x + 1 = b.w) (hy : y + 1 = b.h) :
    (⟨⟨x, y⟩, b.buffer.getSize, false⟩ : CellIterator).next = ⟨⟨x, y⟩, b.buffer.getSize, true⟩ := by
  have hright : (x : ℤ) = b.buffer.getSize.right := by
    rw [getSize_eq]
    unfold fromDimensions
    dsimp only
    omega
  have hbottom : (y : ℤ) + 1 > b.buffer.getSize.bottom := by
    rw [getSize_eq]
    unfold fromDimensions
    dsimp only
    omega
  unfold CellIterator.next
  simp only [if_pos hright, if_pos hbottom]
  rfl

/-- The number of the last position. -/
theorem succ_size_iff (hn : n < b.w * b.h) :
    n + 1 = b.w * b.h ↔ n % b.w + 1 = b.w ∧ n / b.w + 1 = b.h := by
  have hx := mod_lt (b := b) n
  have hy := div_lt hn
  have hsplit := Nat.div_add_mod n b.w
  constructor
  · intro h
    have hsucc := succ_div_mod (w_pos (b := b)) n
    rw [h, Nat.mul_mod_right, Nat.mul_div_cancel_left _ w_pos] at hsucc
    omega
  · rintro ⟨hmod, hdiv⟩
    have hmul : b.w * b.h = b.w * (n / b.w) + b.w := by rw [← hdiv, Nat.mul_add, Nat.mul_one]
    omega

theorem next_iterator (hn : n < b.w * b.h) : (⟨b.pos n, b.buffer.getSize, false⟩ : CellIterator).next =
    if n + 1 < b.w * b.h then ⟨b.pos (n + 1), b.buffer.getSize, false⟩ else ⟨b.pos n, b.buffer.getSize, true⟩ := by
  have hlast := succ_size_iff hn
  have hy := div_lt hn
  rw [pos_eq, pos_eq]
  rcases succ_div_mod (w_pos (b := b)) n with ⟨hlt, hmod, hdiv⟩ | ⟨heq, hmod, hdiv⟩
  · rw [next_iterator_right hlt, hmod, hdiv, if_pos (by omega)]
  · rw [hmod, hdiv]
    rcases Nat.lt_or_eq_of_le (Nat.succ_le_of_lt hy) with hnext | hend
    · rw [next_iterator_line heq hnext, if_pos (by omega)]
    · rw [next_iterator_last heq hend, if_neg (by omega)]

end Iterator

/-- Where `MoveToNextGlyph` goes from a position before the end. -/
def nextNumber (b : GlyphBuffer α) (n : ℕ) : ℕ :=
  if n + 1 < b.w * b.h then
    if b.halfAt (n + 1) = .trailing then if n + 2 < b.w * b.h then n + 2 else n + 1 else n + 1
  else n

/-- Where `MoveToPreviousGlyph` goes. -/
def previousNumber (b : GlyphBuffer α) (n : ℕ) : ℕ := if b.halfAt (n - 1) = .leading then n - 1 - 1 else n - 1

theorem half_eq_trailing {a : DbcsAttribute} : a = .trailing ↔ a.half = .trailing := by cases a <;> decide

theorem half_eq_leading {a : DbcsAttribute} : a = .leading ↔ a.half = .leading := by cases a <;> decide

theorem moveToNextGlyph_pos (hn : n < b.w * b.h) (allowExclusiveEnd : Bool) :
    ∃ success, b.buffer.moveToNextGlyph (b.pos n) allowExclusiveEnd none = .ok (b.pos (b.nextNumber n), success) := by
  unfold TextBuffer.moveToNextGlyph
  dsimp only [Option.getD_none]
  rw [endExclusive_eq, compareInBounds_pos, if_neg (by omega)]
  by_cases hrefused : (!allowExclusiveEnd && decide ((n : ℤ) - (b.w * b.h : ℕ) = -1)) = true
  · rw [if_pos hrefused]
    simp only [Bool.and_eq_true, decide_eq_true_eq] at hrefused
    have hnumber : b.nextNumber n = n := if_neg (by omega)
    exact ⟨false, by rw [hnumber]⟩
  · rw [if_neg hrefused]
    have hiterator : b.buffer.getCellIterator (b.pos n) = .ok ⟨b.pos n, b.buffer.getSize, false⟩ := by
      unfold TextBuffer.getCellIterator
      rw [isInBounds_pos hn]
      rfl
    rw [hiterator]
    simp only [bind, Except.bind, pure, Except.pure, next_iterator hn]
    unfold nextNumber
    by_cases hroom : n + 1 < b.w * b.h
    · rw [if_pos hroom, if_pos hroom]
      have hvalid : CellIterator.valid ⟨b.pos (n + 1), b.buffer.getSize, false⟩ = true := isInBounds_pos hroom
      simp only [hvalid, Bool.true_and, decide_eq_true_eq, half_eq_trailing, half_pos, next_iterator hroom]
      split_ifs
      · exact ⟨_, rfl⟩
      · exact ⟨_, rfl⟩
      · exact ⟨_, rfl⟩
    · rw [if_neg hroom, if_neg hroom]
      exact ⟨_, rfl⟩

theorem moveToNextGlyph_end (allowExclusiveEnd : Bool) :
    b.buffer.moveToNextGlyph (b.pos (b.w * b.h)) allowExclusiveEnd none = .ok (b.pos (b.w * b.h), false) := by
  unfold TextBuffer.moveToNextGlyph
  dsimp only [Option.getD_none]
  rw [endExclusive_eq, compareInBounds_pos, if_pos (by omega)]

theorem moveToPreviousGlyph_pos (hn : n ≤ b.w * b.h) :
    ∃ success, b.buffer.moveToPreviousGlyph (b.pos n) none = .ok (b.pos (b.previousNumber n), success) := by
  have hsize := size_pos (b := b)
  have hpos : n - 1 < b.w * b.h := by omega
  have hwalk := walkToEnd_pos (b := b) n
  have hwalk' := walkToEnd_pos (b := b) (n - 1)
  rw [Nat.min_eq_left (by omega)] at hwalk hwalk'
  have hne : b.pos (n - 1) ≠ b.pos (b.w * b.h) := by
    intro heq
    have := compareInBounds_pos (b := b) (n - 1) (b.w * b.h)
    rw [heq, compareInBounds_pos] at this
    omega
  obtain ⟨cell, hcell, hhalf⟩ := getCellDataAt_pos hpos
  unfold TextBuffer.moveToPreviousGlyph previousNumber
  dsimp only [Option.getD_none]
  rw [endExclusive_eq, compareInBounds_pos, if_neg (by omega), hwalk]
  dsimp only
  rw [if_pos hne, hcell, ← hhalf]
  simp only [bind, Except.bind, pure, Except.pure, half_eq_leading, hwalk']
  split_ifs
  · exact ⟨_, rfl⟩
  · exact ⟨_, rfl⟩

theorem previousNumber_le (n : ℕ) : b.previousNumber n ≤ n - 1 := by
  unfold previousNumber
  split_ifs <;> omega

/-- The columns of the glyph that begins here. -/
def glyphWidth (half : Half) : ℕ := if half = .leading then 2 else 1

theorem previousNumber_nextNumber (hn : n < b.w * b.h) (hfirst : b.halfAt n ≠ .trailing) :
    b.previousNumber (b.nextNumber n) = n ↔
      (b.halfAt n = .whole ∧ n + 1 ≠ b.w * b.h) ∨ b.w * b.h = glyphWidth (b.halfAt n) := by
  have hbefore : 0 < n → b.halfAt (n - 1) ≠ .leading := by
    intro hpos hleading
    rw [halfAt_leading_iff (by omega), Nat.sub_add_cancel hpos] at hleading
    exact hfirst hleading.2
  have hleading := halfAt_leading_iff hn
  unfold glyphWidth
  by_cases hlast : n + 1 < b.w * b.h
  · by_cases hwide : b.halfAt (n + 1) = .trailing
    · -- A wide glyph: the way back ends on its second half, or in front of it.
      have hhalf : b.halfAt n = .leading := hleading.mpr ⟨hlast, hwide⟩
      rw [nextNumber, if_pos hlast, if_pos hwide, hhalf, if_pos rfl]
      split_ifs with hroom
      · have hprevious : b.previousNumber (n + 2) = n + 1 := by
          rw [previousNumber, show n + 2 - 1 = n + 1 by omega, if_neg (by rw [hwide]; decide)]
        rw [hprevious]
        simp only [false_and, false_or]
        omega
      · have hprevious : b.previousNumber (n + 1) = n - 1 := by
          rw [previousNumber, Nat.add_sub_cancel, if_pos hhalf]
        rw [hprevious]
        simp only [false_and, false_or]
        omega
    · have hhalf : b.halfAt n ≠ .leading := fun h => hwide (hleading.mp h).2
      have hwhole : b.halfAt n = .whole := by
        cases hcase : b.halfAt n with
        | whole => rfl
        | leading => exact absurd hcase hhalf
        | trailing => exact absurd hcase hfirst
      rw [nextNumber, if_pos hlast, if_neg hwide, previousNumber, Nat.add_sub_cancel, if_neg hhalf]
      simp only [hwhole, true_iff]
      exact .inl ⟨trivial, by omega⟩
  · have hhalf : b.halfAt n ≠ .leading := fun h => hlast (hleading.mp h).1
    rw [nextNumber, if_neg hlast, if_neg hhalf]
    have hprevious : b.previousNumber n = n - 1 := by
      rcases Nat.eq_zero_or_pos n with rfl | hpos
      · exact if_neg hhalf
      · exact if_neg (hbefore hpos)
    rw [hprevious]
    omega

end GlyphBuffer

end VT7.Buffer
