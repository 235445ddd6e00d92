import VT7.Buffer.Areas
import VT7.Lib.Spans
import VT7.Types.ExclusiveWalks

/-!
# Words

`GetWordStart` and `GetWordEnd` go through the positions of the buffer and the end behind each line, as long as the
delimiter class stays the same.  Cells are numbered line by line; a cell is linked to the next one where the class is the
same and no line ends that was not wrapped.
-/

namespace VT7.Buffer

open VT7.Types.Viewport
open VT7.Lib.Spans

variable {α : Type}

/-! ### The functions -/

inductive DelimiterClass
  | controlChar
  | delimiterChar
  | regularChar
deriving DecidableEq

namespace Row

def delimiterClassAt (r : Row α) (column : ℕ) (wordDelimiters : List UInt16) : DelimiterClass :=
  let col := r.clampedColumn column
  let glyph := r.chars.getD (r.uncheckedCharOffset col) 0
  if glyph ≤ space then .controlChar
  else if glyph ∈ wordDelimiters then .delimiterChar
  else .regularChar

end Row

namespace TextBuffer

variable (b : TextBuffer α)

def isDoubleWidthLine (row : ℤ) : Bool := (b.getRowByOffset row).lineRendition ≠ .singleWidth

def screenToBufferPosition (position : Types.Point) : Types.Point :=
  let scale : ℕ := if b.isDoubleWidthLine position.y then 1 else 0
  ⟨position.x >>> scale, position.y⟩

def getDelimiterClassAt (pos : Types.Point) (wordDelimiters : List UInt16) : DelimiterClass :=
  let realPos := b.screenToBufferPosition pos
  (b.getRowByOffset realPos.y).delimiterClassAt realPos.x.toNat wordDelimiters

/-- The class the two searches start from. -/
def initialDelimClass (pos : Types.Point) (wordDelimiters : List UInt16) : DelimiterClass :=
  if b.getSize.isInBounds pos then b.getDelimiterClassAt pos wordDelimiters else .controlChar

/-- More rounds than the buffer has positions, ends of lines included. -/
def rounds : ℕ := (b.width + 1) * b.height + 1

/-- The loop of `_GetDelimiterClassRunStart`. -/
def runStartFrom (wordDelimiters : List UInt16) (accessibilityMode : Bool) (initialDelimClass : DelimiterClass) :
    ℕ → (pos nextPos : Types.Point) → Option Types.Point
  | 0, _, _ => none
  | rounds + 1, pos, nextPos =>
    if nextPos ≠ b.getSize.origin then
      let nextPos := (b.getSize.walkInExclusiveBounds nextPos (-1)).1
      if nextPos.x = b.getSize.right + 1 then
        let row := b.getRowByOffset nextPos.y
        if !row.wrapForced && !accessibilityMode then some pos
        else runStartFrom wordDelimiters accessibilityMode initialDelimClass rounds pos nextPos
      else if b.getDelimiterClassAt nextPos wordDelimiters ≠ initialDelimClass then some pos
      else runStartFrom wordDelimiters accessibilityMode initialDelimClass rounds nextPos nextPos
    else some pos

def getDelimiterClassRunStart (pos : Types.Point) (wordDelimiters : List UInt16) (accessibilityMode : Bool) :
    Option Types.Point :=
  b.runStartFrom wordDelimiters accessibilityMode (b.initialDelimClass pos wordDelimiters) b.rounds pos pos

/-- The loop of `_GetDelimiterClassRunEnd`. -/
def runEndFrom (wordDelimiters : List UInt16) (accessibilityMode : Bool) (initialDelimClass : DelimiterClass) :
    ℕ → (pos : Types.Point) → Option Types.Point
  | 0, _ => none
  | rounds + 1, pos =>
    if pos ≠ b.getSize.bottomInclusiveRightExclusive then
      let nextPos := (b.getSize.walkInExclusiveBounds pos 1).1
      if nextPos.x = b.getSize.left then
        let row := b.getRowByOffset pos.y
        if accessibilityMode then
          if b.getDelimiterClassAt nextPos wordDelimiters ≠ initialDelimClass then some nextPos
          else runEndFrom wordDelimiters accessibilityMode initialDelimClass rounds nextPos
        else if !row.wrapForced || b.getDelimiterClassAt nextPos wordDelimiters ≠ initialDelimClass then some pos
        else runEndFrom wordDelimiters accessibilityMode initialDelimClass rounds nextPos
      else if b.getSize.isInBounds nextPos && b.getDelimiterClassAt nextPos wordDelimiters ≠ initialDelimClass then
        some nextPos
      else runEndFrom wordDelimiters accessibilityMode initialDelimClass rounds nextPos
    else some pos

def getDelimiterClassRunEnd (pos : Types.Point) (wordDelimiters : List UInt16) (accessibilityMode : Bool) :
    Option Types.Point :=
  b.runEndFrom wordDelimiters accessibilityMode (b.initialDelimClass pos wordDelimiters) b.rounds pos

/-- `none` if the search does not end. -/
def getWordStart (pos : Types.Point) (wordDelimiters : List UInt16) (includeWhitespace : Bool)
    (limitOptional : Option Types.Point) : Option Types.Point :=
  let bufferSize := b.getSize
  let limit := limitOptional.getD bufferSize.bottomInclusiveRightExclusive
  if pos.before bufferSize.origin then some bufferSize.origin
  else do
    let pos := if pos.notBefore limit then limit else pos
    let initialDelimiter := b.initialDelimClass pos wordDelimiters
    let pos ← b.getDelimiterClassRunStart pos wordDelimiters includeWhitespace
    if !includeWhitespace || pos.x = bufferSize.left then return pos
    else if initialDelimiter = .controlChar then
      b.getDelimiterClassRunStart (bufferSize.walkInExclusiveBounds pos (-1)).1 wordDelimiters includeWhitespace
    else return pos

/-- `none` if the search does not end. -/
def getWordEnd (pos : Types.Point) (wordDelimiters : List UInt16) (includeWhitespace : Bool)
    (limitOptional : Option Types.Point) : Option Types.Point :=
  let bufferSize := b.getSize
  let limit := limitOptional.getD bufferSize.bottomInclusiveRightExclusive
  if pos.notBefore limit then some limit
  else do
    let pos := if pos.before bufferSize.origin then bufferSize.origin else pos
    let pos ← b.getDelimiterClassRunEnd pos wordDelimiters includeWhitespace
    if pos.notBefore limit then return limit
    else if !includeWhitespace || pos.x = bufferSize.right + 1 then return pos
    else if b.initialDelimClass pos wordDelimiters = .controlChar then
      let pos ← b.getDelimiterClassRunEnd pos wordDelimiters includeWhitespace
      return if limit.before pos then limit else pos
    else return pos

/-! ### Cells by number -/

/-- The cell with a number. -/
def cellPosition (k : ℕ) : Types.Point := ⟨(k % b.width : ℕ), (k / b.width : ℕ)⟩

/-- The position behind the cell with a number. -/
def behindCell (k : ℕ) : Types.Point := ⟨(k % b.width + 1 : ℕ), (k / b.width : ℕ)⟩

/-- The cell has the class of the next one, and no line ends between them that was not wrapped. -/
structure Linked (wordDelimiters : List UInt16) (k : ℕ) : Prop where
  lt : k + 1 < b.width * b.height
  wrapped : k % b.width + 1 = b.width → (b.getRowByOffset (k / b.width : ℕ)).wrapForced = true
  same : b.getDelimiterClassAt (b.cellPosition (k + 1)) wordDelimiters =
    b.getDelimiterClassAt (b.cellPosition k) wordDelimiters

variable {b} {wordDelimiters : List UInt16} {c : DelimiterClass} {k rounds : ℕ}

section Loops

variable {pos nextPos q : Types.Point}

theorem runStartFrom_origin : b.runStartFrom wordDelimiters false c (rounds + 1) pos b.getSize.origin = some pos := by
  rw [runStartFrom, if_neg (not_not_intro rfl)]

/-- Back to the end of the line in front. -/
theorem runStartFrom_line (horigin : nextPos ≠ b.getSize.origin)
    (hwalk : (b.getSize.walkInExclusiveBounds nextPos (-1)).1 = q) (hright : q.x = b.getSize.right + 1) :
    b.runStartFrom wordDelimiters false c (rounds + 1) pos nextPos =
      if (b.getRowByOffset q.y).wrapForced then b.runStartFrom wordDelimiters false c rounds pos q else some pos := by
  rw [runStartFrom, if_pos horigin]
  simp only [hwalk, if_pos hright]
  cases (b.getRowByOffset q.y).wrapForced <;> rfl

/-- Back to a cell. -/
theorem runStartFrom_cell (horigin : nextPos ≠ b.getSize.origin)
    (hwalk : (b.getSize.walkInExclusiveBounds nextPos (-1)).1 = q) (hright : q.x ≠ b.getSize.right + 1) :
    b.runStartFrom wordDelimiters false c (rounds + 1) pos nextPos =
      if b.getDelimiterClassAt q wordDelimiters ≠ c then some pos
      else b.runStartFrom wordDelimiters false c rounds q q := by
  rw [runStartFrom, if_pos horigin]
  simp only [hwalk, if_neg hright]

theorem getSize_fromDimensions : b.getSize = fromDimensions ⟨0, 0⟩ b.width b.height := rfl

theorem right_getSize : b.getSize.right + 1 = b.width := by
  rw [getSize_fromDimensions]
  unfold fromDimensions
  dsimp only
  omega

theorem div_lt_height (hk : k < b.width * b.height) : k / b.width < b.height := Nat.div_lt_of_lt_mul hk

theorem width_pos (hk : k < b.width * b.height) : 0 < b.width := Nat.pos_of_mul_pos_right (Nat.zero_lt_of_lt hk)

/-- The next cell is in the same line, or the first of the next. -/
theorem cellPosition_succ (hw : 0 < b.width) (k : ℕ) :
    (k % b.width + 1 < b.width ∧ b.cellPosition (k + 1) = ⟨(k % b.width + 1 : ℕ), (k / b.width : ℕ)⟩ ∧
        (k + 1) / b.width = k / b.width) ∨
      (k % b.width + 1 = b.width ∧ b.cellPosition (k + 1) = ⟨(0 : ℕ), (k / b.width + 1 : ℕ)⟩ ∧
        (k + 1) / b.width = k / b.width + 1) := by
  unfold cellPosition
  rcases succ_div_mod hw k with ⟨hlt, hmod, hdiv⟩ | ⟨heq, hmod, hdiv⟩
  · exact .inl ⟨hlt, by rw [hmod, hdiv], hdiv⟩
  · exact .inr ⟨heq, by rw [hmod, hdiv], hdiv⟩

/-- **The search for the start of a run of one class** ends at the start of the span. -/
theorem runStartFrom_spec (hk : k < b.width * b.height) (hrounds : k + k / b.width < rounds)
    (hclass : b.getDelimiterClassAt (b.cellPosition k) wordDelimiters = c) :
    ∃ first, b.runStartFrom wordDelimiters false c rounds (b.cellPosition k) (b.cellPosition k) =
      some (b.cellPosition first) ∧ BeginsAt (b.Linked wordDelimiters) k first := by
  have hw := width_pos hk
  induction k generalizing rounds with
  | zero =>
    obtain ⟨r, rfl⟩ := Nat.exists_eq_add_of_lt hrounds
    have horigin : b.cellPosition 0 = b.getSize.origin := by
      unfold cellPosition
      rw [Nat.zero_mod, Nat.zero_div]
      rfl
    refine ⟨0, ?_, .zero⟩
    rw [horigin, runStartFrom_origin]
  | succ k ih =>
    have hlt : k < b.width * b.height := Nat.lt_of_succ_lt hk
    have hy := div_lt_height hk
    -- the check at the cell in front
    have hcheck : ∀ r, k + k / b.width < r →
        (k % b.width + 1 = b.width → (b.getRowByOffset (k / b.width : ℕ)).wrapForced = true) →
        ∃ first, (if b.getDelimiterClassAt (b.cellPosition k) wordDelimiters ≠ c then some (b.cellPosition (k + 1))
          else b.runStartFrom wordDelimiters false c r (b.cellPosition k) (b.cellPosition k)) =
            some (b.cellPosition first) ∧ BeginsAt (b.Linked wordDelimiters) (k + 1) first := by
      intro r hr hwrapped
      split_ifs with hdiffers
      · refine ⟨k + 1, rfl, .self ?_⟩
        intro hlinked
        exact hdiffers (hlinked.same.symm.trans hclass)
      · have hsame := not_not.mp hdiffers
        obtain ⟨first, hfirst, hbegins⟩ := ih hlt hr hsame
        exact ⟨first, hfirst, hbegins.succ ⟨hk, hwrapped, hclass.trans hsame.symm⟩⟩
    obtain ⟨r, rfl⟩ := Nat.exists_eq_succ_of_ne_zero (Nat.ne_zero_of_lt hrounds)
    have hright : (b.cellPosition k).x ≠ b.getSize.right + 1 := by
      have hmod := Nat.mod_lt k hw
      rw [right_getSize]
      unfold cellPosition
      dsimp only
      omega
    rcases cellPosition_succ hw k with ⟨hroom, hnext, hdiv⟩ | ⟨hend, hnext, hdiv⟩
    · rw [hdiv] at hrounds hy
      have horigin : b.cellPosition (k + 1) ≠ b.getSize.origin := by
        rw [hnext]
        exact fun h => Nat.cast_ne_zero.mpr (Nat.succ_ne_zero _) (congrArg Types.Point.x h)
      have hback : (b.getSize.walkInExclusiveBounds (b.cellPosition (k + 1)) (-1)).1 = b.cellPosition k := by
        rw [hnext]
        exact walk_back (by omega) hy
      rw [runStartFrom_cell horigin hback hright]
      exact hcheck r (by omega) fun h => absurd h (Nat.ne_of_lt hroom)
    · -- Behind the end of the line in front comes its last cell.
      rw [hdiv] at hrounds hy
      have horigin : b.cellPosition (k + 1) ≠ b.getSize.origin := by
        rw [hnext]
        exact fun h => Nat.cast_ne_zero.mpr (Nat.succ_ne_zero _) (congrArg Types.Point.y h)
      have hline : (b.getSize.walkInExclusiveBounds (b.cellPosition (k + 1)) (-1)).1 =
          ⟨b.width, (k / b.width : ℕ)⟩ := by
        rw [hnext]
        exact walk_back_line hy
      rw [runStartFrom_line horigin hline right_getSize.symm]
      split_ifs with hwrapped
      · have hleft : k + k / b.width + 1 < r := by
          generalize k / b.width = y at *
          omega
        obtain ⟨r', rfl⟩ := Nat.exists_eq_succ_of_ne_zero (Nat.ne_zero_of_lt hleft)
        have horigin' : (⟨b.width, (k / b.width : ℕ)⟩ : Types.Point) ≠ b.getSize.origin :=
          fun h => Nat.cast_ne_zero.mpr hw.ne' (congrArg Types.Point.x h)
        have hback : (b.getSize.walkInExclusiveBounds ⟨b.width, (k / b.width : ℕ)⟩ (-1)).1 = b.cellPosition k := by
          have := walk_back (w := b.width) (Nat.mod_lt k hw) (Nat.lt_of_succ_lt hy)
          rwa [hend] at this
        rw [runStartFrom_cell horigin' hback hright]
        exact hcheck r' (Nat.lt_of_succ_lt_succ hleft) fun _ => hwrapped
      · refine ⟨k + 1, rfl, .self ?_⟩
        exact fun hlinked => hwrapped (hlinked.wrapped hend)

theorem runEndFrom_end : b.runEndFrom wordDelimiters false c (rounds + 1) b.getSize.bottomInclusiveRightExclusive =
    some b.getSize.bottomInclusiveRightExclusive := by
  rw [runEndFrom, if_neg (not_not_intro rfl)]

/-- On to a cell of the same line. -/
theorem runEndFrom_cell (hend : pos ≠ b.getSize.bottomInclusiveRightExclusive)
    (hwalk : (b.getSize.walkInExclusiveBounds pos 1).1 = q) (hleft : q.x ≠ b.getSize.left)
    (hcell : b.getSize.isInBounds q = true) :
    b.runEndFrom wordDelimiters false c (rounds + 1) pos =
      if b.getDelimiterClassAt q wordDelimiters ≠ c then some q else b.runEndFrom wordDelimiters false c rounds q := by
  rw [runEndFrom, if_pos hend]
  simp only [hwalk, if_neg hleft, hcell, Bool.true_and, decide_eq_true_eq]

/-- On to the end of the line. -/
theorem runEndFrom_line (hend : pos ≠ b.getSize.bottomInclusiveRightExclusive)
    (hwalk : (b.getSize.walkInExclusiveBounds pos 1).1 = q) (hleft : q.x ≠ b.getSize.left)
    (hcell : b.getSize.isInBounds q = false) :
    b.runEndFrom wordDelimiters false c (rounds + 1) pos = b.runEndFrom wordDelimiters false c rounds q := by
  rw [runEndFrom, if_pos hend]
  simp only [hwalk, if_neg hleft, hcell, Bool.false_and]
  rfl

/-- On to the first cell of the next line. -/
theorem runEndFrom_next (hend : pos ≠ b.getSize.bottomInclusiveRightExclusive)
    (hwalk : (b.getSize.walkInExclusiveBounds pos 1).1 = q) (hleft : q.x = b.getSize.left) :
    b.runEndFrom wordDelimiters false c (rounds + 1) pos =
      if (b.getRowByOffset pos.y).wrapForced ∧ b.getDelimiterClassAt q wordDelimiters = c then
        b.runEndFrom wordDelimiters false c rounds q
      else some pos := by
  rw [runEndFrom, if_pos hend]
  simp only [hwalk, if_pos hleft]
  by_cases hclass : b.getDelimiterClassAt q wordDelimiters = c
  · cases (b.getRowByOffset pos.y).wrapForced <;> simp [hclass]
  · simp [hclass]

theorem isInBounds_iff {p : Types.Point} : b.getSize.isInBounds p = true ↔
    ∃ k, k < b.width * b.height ∧ p = b.cellPosition k := by
  rw [getSize_fromDimensions]
  unfold fromDimensions Types.Viewport.isInBounds cellPosition
  simp only [Bool.and_eq_true, decide_eq_true_eq]
  constructor
  · intro hbounds
    obtain ⟨x, hx⟩ := Int.eq_ofNat_of_zero_le (show 0 ≤ p.x by omega)
    obtain ⟨y, hy⟩ := Int.eq_ofNat_of_zero_le (show 0 ≤ p.y by omega)
    obtain rfl : p = ⟨x, y⟩ := by
      cases p
      exact congrArg₂ Types.Point.mk hx hy
    dsimp only at hbounds
    have hxlt : x < b.width := by omega
    have hlines : b.width * (y + 1) ≤ b.width * b.height := Nat.mul_le_mul_left _ (by omega)
    rw [Nat.mul_add, Nat.mul_one] at hlines
    refine ⟨b.width * y + x, by omega, ?_⟩
    rw [Nat.mul_add_mod, Nat.mod_eq_of_lt hxlt, Nat.mul_add_div (by omega), Nat.div_eq_of_lt hxlt, Nat.add_zero]
  · rintro ⟨k, hk, rfl⟩
    have hx := Nat.mod_lt k (width_pos hk)
    have hy := div_lt_height hk
    dsimp only
    generalize k % b.width = x at *
    generalize k / b.width = y at *
    omega

theorem isInBounds_cellPosition (hk : k < b.width * b.height) : b.getSize.isInBounds (b.cellPosition k) = true :=
  isInBounds_iff.mpr ⟨k, hk, rfl⟩

theorem bottomInclusiveRightExclusive_getSize (hh : 0 < b.height) :
    b.getSize.bottomInclusiveRightExclusive = ⟨b.width, (b.height - 1 : ℕ)⟩ := by
  rw [getSize_fromDimensions]
  unfold bottomInclusiveRightExclusive fromDimensions
  dsimp only
  congr 1
  · omega
  · omega

theorem cellPosition_ne_end (hk : k < b.width * b.height) :
    b.cellPosition k ≠ b.getSize.bottomInclusiveRightExclusive := by
  have hmod := Nat.mod_lt k (width_pos hk)
  rw [bottomInclusiveRightExclusive_getSize (Nat.zero_lt_of_lt (div_lt_height hk))]
  intro h
  have hx := congrArg Types.Point.x h
  unfold cellPosition at hx
  dsimp only at hx
  omega

theorem isInBounds_lineEnd (y : ℕ) : b.getSize.isInBounds ⟨b.width, y⟩ = false := by
  rw [getSize_fromDimensions, Bool.eq_false_iff]
  unfold fromDimensions Types.Viewport.isInBounds
  simp only [Ne, Bool.and_eq_true, decide_eq_true_eq]
  omega

/-- The cells that have a cell behind them. -/
theorem succ_lt_size (hk : k < b.width * b.height) (h : k % b.width + 1 < b.width ∨ k / b.width + 1 < b.height) :
    k + 1 < b.width * b.height := by
  by_contra hlast
  have hsize : k + 1 = b.width * b.height := by omega
  have hcoordinates := succ_div_mod (width_pos hk) k
  rw [hsize, Nat.mul_mod_right, Nat.mul_div_cancel_left _ (width_pos hk)] at hcoordinates
  omega

/-- The number of a cell where every line has one more position. -/
theorem number_lt_end (hk : k < b.width * b.height) : k + k / b.width + 1 < (b.width + 1) * b.height := by
  have hline := line_lt (Nat.succ_le_of_lt (Nat.mod_lt k (width_pos hk))) (div_lt_height hk)
  have hsplit := Nat.div_add_mod k b.width
  rw [Nat.add_mul, Nat.one_mul] at hline
  omega

/-- **The search for the end of a run of one class** ends behind the last cell of the span. -/
theorem runEndFrom_spec (gap : ℕ) (hgap : k + gap = b.width * b.height) (hk : k < b.width * b.height)
    (hrounds : (b.width + 1) * b.height ≤ rounds + (k + k / b.width))
    (hclass : b.getDelimiterClassAt (b.cellPosition k) wordDelimiters = c) :
    ∃ last, b.runEndFrom wordDelimiters false c rounds (b.cellPosition k) = some (b.behindCell last) ∧
      EndsAt (b.Linked wordDelimiters) k last ∧ last < b.width * b.height := by
  have hw := width_pos hk
  induction gap generalizing k rounds with
  | zero => omega
  | succ gap ih =>
    have hmod := Nat.mod_lt k hw
    have hy := div_lt_height hk
    have hlt := number_lt_end hk
    have hnext : k + 1 < b.width * b.height → b.getDelimiterClassAt (b.cellPosition (k + 1)) wordDelimiters = c →
        (k % b.width + 1 = b.width → (b.getRowByOffset (k / b.width : ℕ)).wrapForced = true) →
        ∀ r, (b.width + 1) * b.height ≤ r + (k + 1 + (k + 1) / b.width) →
        ∃ last, b.runEndFrom wordDelimiters false c r (b.cellPosition (k + 1)) = some (b.behindCell last) ∧
          EndsAt (b.Linked wordDelimiters) k last ∧ last < b.width * b.height := by
      intro hroom hsame hwrapped r hr
      obtain ⟨last, hlast, hends, hbound⟩ := ih (by omega) hroom hr hsame
      exact ⟨last, hlast, hends.pred ⟨hroom, hwrapped, hsame.trans hclass.symm⟩, hbound⟩
    obtain ⟨r, rfl⟩ : ∃ r, rounds = r + 1 := by
      refine Nat.exists_eq_succ_of_ne_zero ?_
      rintro rfl
      omega
    rcases cellPosition_succ hw k with ⟨hroom, hcell, hdiv⟩ | ⟨hend, hcell, hdiv⟩
    · have hk' : k + 1 < b.width * b.height := succ_lt_size hk (.inl hroom)
      have hwalk : (b.getSize.walkInExclusiveBounds (b.cellPosition k) 1).1 = b.cellPosition (k + 1) := by
        rw [hcell]
        exact walk_forward hmod hy
      have hleft : (b.cellPosition (k + 1)).x ≠ b.getSize.left := by
        rw [hcell]
        exact Nat.cast_ne_zero.mpr (Nat.succ_ne_zero _)
      rw [runEndFrom_cell (cellPosition_ne_end hk) hwalk hleft (isInBounds_cellPosition hk')]
      split_ifs with hdiffers
      · refine ⟨k, congrArg some hcell, .self ?_, hk⟩
        exact fun hlinked => hdiffers (hlinked.same.trans hclass)
      · refine hnext hk' (not_not.mp hdiffers) (fun h => absurd h (Nat.ne_of_lt hroom)) r ?_
        rw [hdiv]
        omega
    · -- Behind the last cell of a line comes the end of the line.
      have hbehind : b.behindCell k = ⟨b.width, (k / b.width : ℕ)⟩ := by
        unfold behindCell
        rw [hend]
      have hwalk : (b.getSize.walkInExclusiveBounds (b.cellPosition k) 1).1 = ⟨b.width, (k / b.width : ℕ)⟩ := by
        rw [← hbehind]
        exact walk_forward hmod hy
      have hleft : (⟨b.width, (k / b.width : ℕ)⟩ : Types.Point).x ≠ b.getSize.left := Nat.cast_ne_zero.mpr hw.ne'
      rw [runEndFrom_line (cellPosition_ne_end hk) hwalk hleft (isInBounds_lineEnd _)]
      obtain ⟨r', rfl⟩ : ∃ r', r = r' + 1 := by
        refine Nat.exists_eq_succ_of_ne_zero ?_
        rintro rfl
        omega
      by_cases hline : k / b.width + 1 < b.height
      · have hk' : k + 1 < b.width * b.height := succ_lt_size hk (.inr hline)
        have hlast : (⟨b.width, (k / b.width : ℕ)⟩ : Types.Point) ≠ b.getSize.bottomInclusiveRightExclusive := by
          rw [bottomInclusiveRightExclusive_getSize (Nat.zero_lt_of_lt hy)]
          intro h
          have := congrArg Types.Point.y h
          dsimp only at this
          omega
        have hdown : (b.getSize.walkInExclusiveBounds ⟨b.width, (k / b.width : ℕ)⟩ 1).1 = b.cellPosition (k + 1) := by
          rw [hcell]
          exact walk_forward_line hline
        have hfirst : (b.cellPosition (k + 1)).x = b.getSize.left := by
          rw [hcell]
          rfl
        rw [runEndFrom_next hlast hdown hfirst]
        split_ifs with hon
        · refine hnext hk' hon.2 (fun _ => hon.1) r' ?_
          rw [hdiv]
          omega
        · refine ⟨k, congrArg some hbehind.symm, .self ?_, hk⟩
          exact fun hlinked => hon ⟨hlinked.wrapped hend, hlinked.same.trans hclass⟩
      · have hlast : (⟨b.width, (k / b.width : ℕ)⟩ : Types.Point) = b.getSize.bottomInclusiveRightExclusive := by
          have hbottom : k / b.width = b.height - 1 :=
            Nat.eq_sub_of_add_eq (Nat.le_antisymm (Nat.succ_le_of_lt hy) (Nat.not_lt.mp hline))
          rw [bottomInclusiveRightExclusive_getSize (Nat.zero_lt_of_lt hy), hbottom]
        rw [hlast, runEndFrom_end, ← hlast]
        refine ⟨k, congrArg some hbehind.symm, .self ?_, hk⟩
        intro hlinked
        have := div_lt_height hlinked.lt
        rw [hdiv] at this
        exact hline this

end Loops

/-! ### Words -/

section Words

variable {i j first last : ℕ}

/-- Numbers are ordered as lines are read. -/
theorem le_iff_coordinates :
    i ≤ j ↔ i / b.width < j / b.width ∨ (i / b.width = j / b.width ∧ i % b.width ≤ j % b.width) := by
  have hi := Nat.div_add_mod i b.width
  have hj := Nat.div_add_mod j b.width
  constructor
  · intro hle
    rcases Nat.lt_or_eq_of_le (Nat.div_le_div_right (c := b.width) hle) with hlt | heq
    · exact .inl hlt
    · rw [heq] at hi
      exact .inr ⟨heq, by omega⟩
  · rintro (hlt | ⟨heq, hle⟩)
    · exact (Nat.lt_of_div_lt_div hlt).le
    · rw [heq] at hi
      omega

theorem notBefore_cellPosition : (b.cellPosition j).notBefore (b.cellPosition i) = true ↔ i ≤ j := by
  rw [le_iff_coordinates]
  unfold Types.Point.notBefore cellPosition
  simp only [Bool.or_eq_true, Bool.and_eq_true, decide_eq_true_eq]
  generalize i % b.width = x at *
  generalize j % b.width = x' at *
  generalize i / b.width = y at *
  generalize j / b.width = y' at *
  omega

theorem before_behindCell : (b.cellPosition i).before (b.behindCell j) = true ↔ i ≤ j := by
  rw [le_iff_coordinates]
  unfold Types.Point.before cellPosition behindCell
  simp only [Bool.or_eq_true, Bool.and_eq_true, decide_eq_true_eq]
  generalize i % b.width = x at *
  generalize j % b.width = x' at *
  generalize i / b.width = y at *
  generalize j / b.width = y' at *
  omega

theorem not_before_origin (k : ℕ) : (b.cellPosition k).before b.getSize.origin = false := by
  unfold Types.Point.before cellPosition
  rw [getSize_fromDimensions, Bool.eq_false_iff]
  unfold fromDimensions origin
  simp only [Ne, Bool.or_eq_true, Bool.and_eq_true, decide_eq_true_eq]
  generalize k % b.width = x at *
  generalize k / b.width = y at *
  omega

/-- Cells are in front of the limit. -/
theorem not_notBefore_limit (hk : k < b.width * b.height) :
    (b.cellPosition k).notBefore b.getSize.bottomInclusiveRightExclusive = false := by
  have hx := Nat.mod_lt k (width_pos hk)
  have hy := div_lt_height hk
  rw [bottomInclusiveRightExclusive_getSize (Nat.zero_lt_of_lt hy), Bool.eq_false_iff]
  unfold Types.Point.notBefore cellPosition
  simp only [Ne, Bool.or_eq_true, Bool.and_eq_true, decide_eq_true_eq]
  generalize k % b.width = x at *
  generalize k / b.width = y at *
  omega

/-- Behind a cell the limit is reached, or not yet. -/
theorem behindCell_limit (hk : k < b.width * b.height)
    (h : (b.behindCell k).notBefore b.getSize.bottomInclusiveRightExclusive = true) :
    b.getSize.bottomInclusiveRightExclusive = b.behindCell k := by
  have hx := Nat.mod_lt k (width_pos hk)
  have hy := div_lt_height hk
  rw [bottomInclusiveRightExclusive_getSize (Nat.zero_lt_of_lt hy)] at h ⊢
  unfold Types.Point.notBefore behindCell at *
  simp only [Bool.or_eq_true, Bool.and_eq_true, decide_eq_true_eq] at h
  generalize k % b.width = x at *
  generalize k / b.width = y at *
  congr 1
  · omega
  · omega

theorem initialDelimClass_cell (hk : k < b.width * b.height) :
    b.initialDelimClass (b.cellPosition k) wordDelimiters = b.getDelimiterClassAt (b.cellPosition k) wordDelimiters := by
  unfold initialDelimClass
  rw [if_pos (isInBounds_cellPosition hk)]

theorem getWordStart_cell (hk : k < b.width * b.height) :
    ∃ first, b.getWordStart (b.cellPosition k) wordDelimiters false none = some (b.cellPosition first) ∧
      BeginsAt (b.Linked wordDelimiters) k first := by
  have hrounds : k + k / b.width < b.rounds := by
    have := number_lt_end hk
    unfold rounds
    omega
  obtain ⟨first, hfirst, hbegins⟩ := runStartFrom_spec hk hrounds (initialDelimClass_cell hk).symm
  refine ⟨first, ?_, hbegins⟩
  unfold getWordStart
  simp only [Option.getD_none, not_before_origin k, not_notBefore_limit hk, Bool.false_eq_true, if_false]
  rw [show b.getDelimiterClassRunStart (b.cellPosition k) wordDelimiters false = _ from hfirst]
  rfl

theorem getWordEnd_cell (hk : k < b.width * b.height) :
    ∃ last, b.getWordEnd (b.cellPosition k) wordDelimiters false none = some (b.behindCell last) ∧
      EndsAt (b.Linked wordDelimiters) k last ∧ last < b.width * b.height := by
  have hrounds : (b.width + 1) * b.height ≤ b.rounds + (k + k / b.width) :=
    (Nat.le_succ _).trans (Nat.le_add_right _ _)
  obtain ⟨last, hlast, hends, hbound⟩ := runEndFrom_spec (b.width * b.height - k) (by omega) hk hrounds
    (initialDelimClass_cell hk).symm
  refine ⟨last, ?_, hends, hbound⟩
  unfold getWordEnd
  simp only [Option.getD_none, not_before_origin k, not_notBefore_limit hk, Bool.false_eq_true, if_false]
  rw [show b.getDelimiterClassRunEnd (b.cellPosition k) wordDelimiters false = _ from hlast]
  simp only [Option.bind_eq_bind, Option.bind_some]
  by_cases hlimit : (b.behindCell last).notBefore b.getSize.bottomInclusiveRightExclusive = true
  · rw [if_pos hlimit]
    exact congrArg some (behindCell_limit hbound hlimit)
  · rw [if_neg hlimit]
    rfl

variable (b) in
/-- The position behind `p` as text goes on: in the same line, or the first of the next where a line was wrapped. -/
def Adjoins (p q : Types.Point) : Prop :=
  (q.y = p.y ∧ q.x = p.x + 1) ∨
    (p.x + 1 = b.width ∧ q.x = 0 ∧ q.y = p.y + 1 ∧ (b.getRowByOffset p.y).wrapForced = true)

variable (b) in
/-- The positions from `start` to `stop` are a word, which does not depend on the position it was found from. -/
structure IsWord (wordDelimiters : List UInt16) (p start stop : Types.Point) : Prop where
  inBounds : b.getSize.isInBounds start = true
  start_le : p.notBefore start = true
  lt_stop : p.before stop = true
  same : ∀ q, b.getSize.isInBounds q = true → q.notBefore start = true → q.before stop = true →
    b.getDelimiterClassAt q wordDelimiters = b.getDelimiterClassAt p wordDelimiters ∧
      b.getWordStart q wordDelimiters false none = some start ∧ b.getWordEnd q wordDelimiters false none = some stop
  wrapped : ∀ y, start.y ≤ y → y < stop.y → (b.getRowByOffset y).wrapForced = true
  front : ∀ q, b.getSize.isInBounds q = true → b.Adjoins q start →
    b.getDelimiterClassAt q wordDelimiters ≠ b.getDelimiterClassAt p wordDelimiters
  behind : ∀ q, b.getSize.isInBounds q = true → b.Adjoins ⟨stop.x - 1, stop.y⟩ q →
    b.getDelimiterClassAt q wordDelimiters ≠ b.getDelimiterClassAt p wordDelimiters

/-- The cell behind a cell has the next number. -/
theorem Adjoins.number (hj : j < b.width * b.height)
    (h : b.Adjoins (b.cellPosition i) (b.cellPosition j)) :
    j = i + 1 ∧ (i % b.width + 1 = b.width → (b.getRowByOffset (i / b.width : ℕ)).wrapForced = true) := by
  have hisplit := Nat.div_add_mod i b.width
  have hjsplit := Nat.div_add_mod j b.width
  have hjmod := Nat.mod_lt j (width_pos hj)
  unfold Adjoins cellPosition at h
  dsimp only at h
  norm_cast at h
  rcases h with ⟨hy, hx⟩ | ⟨hend, hx, hy, hwrapped⟩
  · rw [hy] at hjsplit
    exact ⟨by omega, fun hend => by omega⟩
  · rw [hy, Nat.mul_add, Nat.mul_one] at hjsplit
    exact ⟨by omega, fun _ => hwrapped⟩

/-- The class is the same in a whole span. -/
theorem class_of_joined (hij : i ≤ j) (h : Joined (b.Linked wordDelimiters) i j) :
    b.getDelimiterClassAt (b.cellPosition j) wordDelimiters = b.getDelimiterClassAt (b.cellPosition i) wordDelimiters := by
  induction j, hij using Nat.le_induction with
  | base => rfl
  | succ j hij ih => exact (h j hij (Nat.lt_succ_self j)).same.trans (ih (h.mono le_rfl (Nat.le_succ j)))

/-- No line ends within a span that was not wrapped. -/
theorem wrapped_of_joined (hw : 0 < b.width) (h : Joined (b.Linked wordDelimiters) i j) {y : ℕ}
    (hfirst : i / b.width ≤ y) (hlast : y < j / b.width) : (b.getRowByOffset y).wrapForced = true := by
  have hdiv : (b.width * y + (b.width - 1)) / b.width = y := by
    rw [Nat.mul_add_div hw, Nat.div_eq_of_lt (Nat.sub_lt hw Nat.one_pos), Nat.add_zero]
  have hmod : (b.width * y + (b.width - 1)) % b.width = b.width - 1 := by
    rw [Nat.mul_add_mod, Nat.mod_eq_of_lt (Nat.sub_lt hw Nat.one_pos)]
  have hi := Nat.mod_lt i hw
  have hlinked := h (b.width * y + (b.width - 1)) (by
    rw [le_iff_coordinates, hdiv, hmod]
    omega) (by
    refine Nat.lt_of_div_lt_div (c := b.width) ?_
    rwa [hdiv])
  have := hlinked.wrapped (by rw [hmod, Nat.sub_add_cancel hw])
  rwa [hdiv] at this

end Words

/-- **Words partition the buffer.** -/
theorem wordSelection_partitions (b : TextBuffer α) (wordDelimiters : List UInt16) {p : Types.Point}
    (hp : b.getSize.isInBounds p = true) :
    ∃ start stop, b.getWordStart p wordDelimiters false none = some start ∧
      b.getWordEnd p wordDelimiters false none = some stop ∧ b.IsWord wordDelimiters p start stop := by
  obtain ⟨k, hk, rfl⟩ := isInBounds_iff.mp hp
  have hw := width_pos hk
  obtain ⟨first, hfirst, hbegins⟩ := @getWordStart_cell _ b wordDelimiters _ hk
  obtain ⟨last, hlast, hends, hbound⟩ := @getWordEnd_cell _ b wordDelimiters _ hk
  have hjoined := hbegins.joined.trans hends.joined
  have hclass : ∀ j, first ≤ j → j ≤ last → b.getDelimiterClassAt (b.cellPosition j) wordDelimiters =
      b.getDelimiterClassAt (b.cellPosition k) wordDelimiters := by
    intro j hle hge
    have hstart := class_of_joined hbegins.le hbegins.joined
    exact (class_of_joined hle (hjoined.mono le_rfl hge)).trans hstart.symm
  refine ⟨_, _, hfirst, hlast, ?_⟩
  constructor
  · exact isInBounds_cellPosition (hbegins.le.trans_lt hk)
  · exact notBefore_cellPosition.mpr hbegins.le
  · exact before_behindCell.mpr hends.le
  · intro q hq hstart hstop
    obtain ⟨j, hj, rfl⟩ := isInBounds_iff.mp hq
    have hle := notBefore_cellPosition.mp hstart
    have hge := before_behindCell.mp hstop
    obtain ⟨hbegins', hends'⟩ := same_span hbegins hends hle hge
    obtain ⟨first', hfirst', hsame⟩ := @getWordStart_cell _ b wordDelimiters _ hj
    obtain ⟨last', hlast', hsame', -⟩ := @getWordEnd_cell _ b wordDelimiters _ hj
    rw [hfirst', hlast', hsame.unique hbegins', hsame'.unique hends']
    exact ⟨hclass j hle hge, rfl, rfl⟩
  · intro y hstart hstop
    obtain ⟨y, rfl⟩ := Int.eq_ofNat_of_zero_le ((Int.natCast_nonneg _).trans hstart)
    exact wrapped_of_joined hw hjoined (Int.ofNat_le.mp hstart) (Int.ofNat_lt.mp hstop)
  · intro q hq hadjoins hsame
    obtain ⟨j, hj, rfl⟩ := isInBounds_iff.mp hq
    have hlt := hbegins.le.trans_lt hk
    obtain ⟨rfl, hwrapped⟩ := hadjoins.number hlt
    exact hbegins.apart j rfl ⟨hlt, hwrapped, (hclass (j + 1) le_rfl (hbegins.le.trans hends.le)).trans hsame.symm⟩
  · intro q hq hadjoins hsame
    obtain ⟨j, hj, rfl⟩ := isInBounds_iff.mp hq
    have hcell : (⟨(b.behindCell last).x - 1, (b.behindCell last).y⟩ : Types.Point) = b.cellPosition last := by
      unfold behindCell cellPosition
      congr 1
      push_cast
      omega
    rw [hcell] at hadjoins
    obtain ⟨rfl, hwrapped⟩ := hadjoins.number hj
    exact hends.apart ⟨hj, hwrapped, hsame.trans (hclass last (hbegins.le.trans hends.le) le_rfl).symm⟩

/-- The row "a b", two times, the first wrapped: "b" and "a" are one word. -/
def wrappedLetters : TextBuffer ℕ where
  rows y :=
    { chars := [0x61, 0x20, 0x62]
      charOffsets := [0, 1, 2, 3]
      attr := [0, 0, 0]
      columnCount := 3
      lineRendition := .singleWidth
      wrapForced := y = 0
      doubleBytePadded := false
      promptData := none }
  width := 3
  height := 2
  firstRow := 0
  initialAttributes := 0
  cursorX := 0
  cursorY := 0

theorem wordSelection_partitions_wrapped : ∃ start stop,
    wrappedLetters.getWordStart ⟨2, 0⟩ [] false none = some start ∧
      wrappedLetters.getWordEnd ⟨2, 0⟩ [] false none = some stop ∧ wrappedLetters.IsWord [] ⟨2, 0⟩ start stop :=
  wordSelection_partitions wrappedLetters [] (by decide)

example : wrappedLetters.getWordStart ⟨0, 1⟩ [] false none = some ⟨2, 0⟩ := by decide
example : wrappedLetters.getWordEnd ⟨2, 0⟩ [] false none = some ⟨1, 1⟩ := by decide

end TextBuffer

end VT7.Buffer
