import VT7.Buffer.GlyphMoves

/-!
# Runs of glyph moves

The second pair of functions, whose positions are numbered with one more column, and the positions that runs of all four
functions reach.
-/

namespace VT7.Buffer

open VT7.Lib.Cells
open VT7.Types.Viewport

variable {α : Type}

namespace GlyphBuffer

variable {b : GlyphBuffer α} {x y n m : ℕ}

/-! ### With an end behind each line -/

/-- The position with a number, where every line has an end behind it. -/
def pos2 (b : GlyphBuffer α) (m : ℕ) : Types.Point := position 0 0 (b.w + 1) m

theorem pos2_eq (m : ℕ) : b.pos2 m = ⟨(m % (b.w + 1) : ℕ), (m / (b.w + 1) : ℕ)⟩ := by
  have := position_natCast 0 0 (b.w + 1) m
  rwa [Nat.zero_add, Nat.zero_add] at this

theorem pos2_of (hx : x ≤ b.w) : b.pos2 ((b.w + 1) * y + x) = ⟨x, y⟩ := by
  have hlt : x < b.w + 1 := Nat.lt_succ_of_le hx
  rw [pos2_eq, Nat.mul_add_mod, Nat.mod_eq_of_lt hlt, Nat.mul_add_div (Nat.succ_pos _), Nat.div_eq_of_lt hlt, Nat.add_zero]

/-- The number of the end behind the last line. -/
def limit2 (b : GlyphBuffer α) : ℕ := (b.w + 1) * b.h - 1

theorem limit2_eq : b.limit2 = (b.w + 1) * (b.h - 1) + b.w := by
  obtain ⟨k, hk⟩ : ∃ k, b.h = k + 1 := ⟨b.h - 1, by have := b.h_pos; omega⟩
  unfold limit2
  rw [hk, Nat.mul_add, Nat.mul_one, Nat.add_sub_cancel]
  omega

theorem succ_limit2 : b.limit2 + 1 = (b.w + 1) * b.h :=
  Nat.sub_add_cancel (Nat.mul_pos (Nat.succ_pos _) b.h_pos)

theorem bottomInclusiveRightExclusive_eq : b.buffer.getSize.bottomInclusiveRightExclusive = b.pos2 b.limit2 := by
  have hpos := b.h_pos
  rw [limit2_eq, pos2_of le_rfl, getSize_eq]
  unfold bottomInclusiveRightExclusive fromDimensions
  dsimp only
  congr 1
  · omega
  · omega

theorem notBefore_pos2 : (b.pos2 m).notBefore (b.pos2 n) = true ↔ n ≤ m := by
  have hm := Nat.div_add_mod m (b.w + 1)
  have hn := Nat.div_add_mod n (b.w + 1)
  have hmlt := Nat.mod_lt m (Nat.succ_pos b.w)
  have hnlt := Nat.mod_lt n (Nat.succ_pos b.w)
  have hlines : ∀ c d : ℕ, c < d → (b.w + 1) * c + (b.w + 1) ≤ (b.w + 1) * d := by
    intro c d hlt
    rw [← Nat.mul_succ]
    exact Nat.mul_le_mul_left _ hlt
  rw [pos2_eq, pos2_eq]
  unfold Types.Point.notBefore
  simp only [Bool.or_eq_true, Bool.and_eq_true, decide_eq_true_eq]
  have hup := hlines (m / (b.w + 1)) (n / (b.w + 1))
  have hdown := hlines (n / (b.w + 1)) (m / (b.w + 1))
  generalize m % (b.w + 1) = x at *
  generalize n % (b.w + 1) = x' at *
  generalize m / (b.w + 1) = y at *
  generalize n / (b.w + 1) = y' at *
  rcases Nat.lt_trichotomy y y' with hlt | rfl | hlt
  · have := hup hlt
    omega
  · omega
  · have := hdown hlt
    omega

/-- Whether a number is the one of a cell. -/
def Inside (b : GlyphBuffer α) (m : ℕ) : Prop := m % (b.w + 1) < b.w

instance : Decidable (b.Inside m) := inferInstanceAs (Decidable (m % (b.w + 1) < b.w))

/-- The half at the cell with a number. -/
def half2 (b : GlyphBuffer α) (m : ℕ) : Half := b.half (m % (b.w + 1)) (m / (b.w + 1))

theorem half_pos2 (m : ℕ) : (b.buffer.dbcsAt (b.pos2 m)).half = b.half2 m := by
  rw [pos2_eq]
  rfl

theorem div_lt2 (hm : m ≤ b.limit2) : m / (b.w + 1) < b.h := by
  have := succ_limit2 (b := b)
  exact Nat.div_lt_of_lt_mul (by omega)

theorem isInBounds_pos2 (hm : m ≤ b.limit2) : b.buffer.getSize.isInBounds (b.pos2 m) = decide (b.Inside m) := by
  have hy := div_lt2 hm
  rw [pos2_eq, getSize_eq, Bool.eq_iff_iff, decide_eq_true_eq]
  unfold Inside fromDimensions Types.Viewport.isInBounds
  dsimp only
  generalize m % (b.w + 1) = x at *
  generalize m / (b.w + 1) = y at *
  simp only [Bool.and_eq_true, decide_eq_true_eq]
  omega

theorem getCellDataAt_pos2 (hm : m ≤ b.limit2) (hinside : b.Inside m) :
    ∃ cell, b.buffer.getCellDataAt (b.pos2 m) = .ok cell ∧ cell.dbcsAttr.half = b.half2 m := by
  rw [← half_pos2 m]
  refine ⟨_, by
    unfold TextBuffer.getCellDataAt
    rw [isInBounds_pos2 hm, decide_eq_true hinside]
    rfl, rfl⟩

theorem walk_forward (hm : m ≤ b.limit2) :
    b.buffer.getSize.walkInExclusiveBounds (b.pos2 m) 1 = (b.pos2 (m + 1), true) := by
  have hcast : ((b.limit2 + 1 : ℕ) : ℤ) = ((b.w : ℤ) + 1) * b.h := by
    rw [succ_limit2]
    push_cast
    rfl
  rw [getSize_eq, pos2, walkInExclusiveBounds_position (by omega) (by exact_mod_cast h_pos), ← hcast, pos2]
  congr 1
  · congr 1
    omega
  · rw [decide_eq_true_eq]
    omega

theorem walk_back (hm : m ≤ b.limit2) :
    b.buffer.getSize.walkInExclusiveBounds (b.pos2 m) (-1) = (b.pos2 (m - 1), decide (0 < m)) := by
  have hcast : ((b.limit2 + 1 : ℕ) : ℤ) = ((b.w : ℤ) + 1) * b.h := by
    rw [succ_limit2]
    push_cast
    rfl
  rw [getSize_eq, pos2, walkInExclusiveBounds_position (by omega) (by exact_mod_cast h_pos), ← hcast, pos2]
  congr 1
  · congr 1
    omega
  · rw [decide_eq_decide]
    omega

/-- Where `MoveToNextGlyph2` goes. -/
def nextNumber2 (b : GlyphBuffer α) (m : ℕ) : ℕ :=
  if b.limit2 ≤ m then b.limit2 else if b.Inside (m + 1) ∧ b.half2 (m + 1) = .trailing then m + 2 else m + 1

/-- Where `MoveToPreviousGlyph2` goes. -/
def previousNumber2 (b : GlyphBuffer α) (m : ℕ) : ℕ :=
  if b.limit2 ≤ m then b.limit2
  else if 0 < m ∧ b.Inside (m - 1) ∧ b.half2 (m - 1) = .trailing then m - 1 - 1 else m - 1

theorem moveToNextGlyph2_pos2 (m : ℕ) :
    ∃ success, b.buffer.moveToNextGlyph2 (b.pos2 m) none = .ok (b.pos2 (b.nextNumber2 m), success) := by
  unfold TextBuffer.moveToNextGlyph2 nextNumber2
  dsimp only [Option.getD_none]
  rw [bottomInclusiveRightExclusive_eq]
  by_cases hlimit : b.limit2 ≤ m
  · rw [if_pos (notBefore_pos2.mpr hlimit), if_pos hlimit]
    exact ⟨false, rfl⟩
  · have hm : m + 1 ≤ b.limit2 := by omega
    rw [if_neg (fun h => hlimit (notBefore_pos2.mp h)), if_neg hlimit, walk_forward (by omega)]
    simp only [Bool.true_and, isInBounds_pos2 hm, decide_eq_true_eq]
    by_cases hinside : b.Inside (m + 1)
    · obtain ⟨cell, hcell, hhalf⟩ := getCellDataAt_pos2 hm hinside
      rw [if_pos hinside, hcell, ← hhalf]
      simp only [bind, Except.bind, pure, Except.pure, half_eq_trailing, walk_forward hm, hinside, true_and]
      split_ifs
      · exact ⟨_, rfl⟩
      · exact ⟨_, rfl⟩
    · rw [if_neg hinside, if_neg (fun h => hinside h.1)]
      exact ⟨_, rfl⟩

theorem moveToPreviousGlyph2_pos2 (m : ℕ) :
    ∃ success, b.buffer.moveToPreviousGlyph2 (b.pos2 m) none = .ok (b.pos2 (b.previousNumber2 m), success) := by
  unfold TextBuffer.moveToPreviousGlyph2 previousNumber2
  dsimp only [Option.getD_none]
  rw [bottomInclusiveRightExclusive_eq]
  by_cases hlimit : b.limit2 ≤ m
  · rw [if_pos (notBefore_pos2.mpr hlimit), if_pos hlimit]
    exact ⟨false, rfl⟩
  · have hm : m - 1 ≤ b.limit2 := by omega
    rw [if_neg (fun h => hlimit (notBefore_pos2.mp h)), if_neg hlimit, walk_back (by omega)]
    simp only [isInBounds_pos2 hm, Bool.and_eq_true, decide_eq_true_eq]
    by_cases hinside : 0 < m ∧ b.Inside (m - 1)
    · obtain ⟨cell, hcell, hhalf⟩ := getCellDataAt_pos2 hm hinside.2
      rw [if_pos hinside, hcell, ← hhalf]
      simp only [bind, Except.bind, pure, Except.pure, half_eq_trailing, walk_back hm, hinside, true_and]
      split_ifs
      · exact ⟨_, rfl⟩
      · exact ⟨_, rfl⟩
    · rw [if_neg hinside, if_neg (fun h => hinside ⟨h.1, h.2.1⟩)]
      exact ⟨_, rfl⟩

theorem half2_leading_iff (hm : m ≤ b.limit2) (hinside : b.Inside m) :
    b.half2 m = .leading ↔ b.Inside (m + 1) ∧ b.half2 (m + 1) = .trailing := by
  have hy := div_lt2 hm
  unfold Inside half2 at *
  rcases succ_div_mod (Nat.succ_pos b.w) m with ⟨hlt, hmod, hdiv⟩ | ⟨heq, -, -⟩
  · rw [hmod, hdiv]
    rcases Nat.lt_or_eq_of_le (Nat.succ_le_of_lt hinside) with hroom | hlast
    · rw [half_leading_iff hroom hy]
      exact ⟨fun h => ⟨hroom, h⟩, fun h => h.2⟩
    · refine iff_of_false (half_last hlast hy) ?_
      rintro ⟨hroom, -⟩
      exact absurd hlast (Nat.ne_of_lt hroom)
  · exact absurd heq (Nat.ne_of_lt (Nat.succ_lt_succ hinside))

theorem half2_zero : b.half2 0 ≠ .trailing := by
  unfold half2
  rw [Nat.zero_mod, Nat.zero_div]
  exact half_first b.h_pos

theorem not_inside_limit2 : ¬ b.Inside b.limit2 := by
  unfold Inside
  rw [limit2_eq, Nat.mul_add_mod, Nat.mod_eq_of_lt (Nat.lt_succ_self _)]
  exact Nat.lt_irrefl _

theorem Inside.lt (hinside : b.Inside m) (hm : m ≤ b.limit2) : m < b.limit2 := by
  refine Nat.lt_of_le_of_ne hm ?_
  rintro rfl
  exact not_inside_limit2 hinside

/-- `MoveToPreviousGlyph2` does not move back from the limit. -/
theorem previousNumber2_nextNumber2 (hm : m ≤ b.limit2) (hinside : b.Inside m) (hfirst : b.half2 m ≠ .trailing) :
    b.previousNumber2 (b.nextNumber2 m) = m ↔ m + glyphWidth (b.half2 m) ≠ b.limit2 := by
  have hlt := hinside.lt hm
  have hleading := half2_leading_iff hm hinside
  unfold nextNumber2 glyphWidth
  rw [if_neg (by omega)]
  by_cases hwide : b.Inside (m + 1) ∧ b.half2 (m + 1) = .trailing
  · have hroom := hwide.1.lt hlt
    rw [if_pos hwide, if_pos (hleading.mpr hwide), previousNumber2]
    split_ifs with hlimit hback
    · omega
    · omega
    · exact absurd ⟨by omega, hwide⟩ hback
  · rw [if_neg hwide, if_neg (fun h => hwide (hleading.mp h)), previousNumber2]
    split_ifs with hlimit hback
    · omega
    · exact absurd hback.2.2 hfirst
    · omega

/-- What `MoveToNextGlyph2` and `MoveToPreviousGlyph2` keep. -/
def Begins2 (b : GlyphBuffer α) (m : ℕ) : Prop := m ≤ b.limit2 ∧ (b.Inside m → b.half2 m ≠ .trailing)

theorem begins2_limit2 : b.Begins2 b.limit2 := ⟨le_rfl, fun h => absurd h not_inside_limit2⟩

theorem begins2_nextNumber2 (m : ℕ) : b.Begins2 (b.nextNumber2 m) := by
  unfold nextNumber2
  split_ifs with hlimit hwide
  · exact begins2_limit2
  · have hroom := hwide.1.lt (by omega)
    refine ⟨hroom, fun hinside htrailing => ?_⟩
    have hleading := (half2_leading_iff (by omega) hwide.1).mpr ⟨hinside, htrailing⟩
    exact absurd (hleading.symm.trans hwide.2) (by decide)
  · refine ⟨by omega, fun hinside htrailing => ?_⟩
    exact hwide ⟨hinside, htrailing⟩

theorem begins2_previousNumber2 (m : ℕ) : b.Begins2 (b.previousNumber2 m) := by
  unfold previousNumber2
  split_ifs with hlimit hwide
  · exact begins2_limit2
  · obtain ⟨hpos, hinside, htrailing⟩ := hwide
    refine ⟨by omega, fun hinside' htrailing' => ?_⟩
    rcases Nat.eq_zero_or_pos (m - 1) with hzero | hone
    · rw [hzero] at htrailing
      exact half2_zero htrailing
    · have hback : m - 1 - 1 + 1 = m - 1 := by omega
      have hleading := half2_leading_iff (m := m - 1 - 1) (by omega) hinside'
      rw [hback] at hleading
      exact absurd (htrailing'.symm.trans (hleading.mpr ⟨hinside, htrailing⟩)) (by decide)
  · refine ⟨by omega, fun hinside htrailing => ?_⟩
    rcases Nat.eq_zero_or_pos m with rfl | hpos
    · exact half2_zero htrailing
    · exact hwide ⟨hpos, hinside, htrailing⟩

/-! ### First cells and ends -/

/-- The number of coordinates that may be an end. -/
def number (b : GlyphBuffer α) (p : Types.Point) : ℤ := b.w * p.y + p.x

theorem number_pos (n : ℕ) : b.number (b.pos n) = n := by
  rw [pos_eq]
  unfold number
  dsimp only
  exact_mod_cast Nat.div_add_mod n b.w

theorem compareInBounds_number (p q : Types.Point) :
    b.buffer.getSize.compareInBounds p q = b.number p - b.number q := by
  have hwidth : (0 : ℤ) + b.w - 1 + 1 - 0 = b.w := by omega
  rw [getSize_eq]
  unfold compareInBounds fromDimensions number
  dsimp only
  rw [hwidth, Int.sub_mul, Int.mul_comm _ (b.w : ℤ), Int.mul_comm _ (b.w : ℤ)]
  omega

theorem walkToEnd_number {p : Types.Point} (hp : b.number p = n) :
    b.buffer.getSize.walkToEnd p (-1) = b.buffer.getSize.walkToEnd (b.pos n) (-1) := by
  have hoff : ∀ p : Types.Point, max 0 (0 + (b.w : ℤ) - 1 - 0 + 1) * (p.y - 0) + (p.x - 0) = b.number p := by
    intro p
    have hwidth : max 0 (0 + (b.w : ℤ) - 1 - 0 + 1) = b.w := by omega
    rw [hwidth, Int.sub_zero, Int.sub_zero]
    rfl
  rw [getSize_eq]
  unfold walkToEnd fromDimensions
  dsimp only
  rw [hoff, hoff, hp, number_pos]

/-- `MoveToPreviousGlyph` goes by the number only. -/
theorem moveToPreviousGlyph_number {p : Types.Point} (hp : b.number p = n) :
    b.buffer.moveToPreviousGlyph p none = b.buffer.moveToPreviousGlyph (b.pos n) none := by
  unfold TextBuffer.moveToPreviousGlyph
  dsimp only
  rw [compareInBounds_number, compareInBounds_number, hp, number_pos, walkToEnd_number hp]

/-- The first cell of a glyph. -/
def FirstCell (b : GlyphBuffer α) (p : Types.Point) : Prop :=
  b.buffer.getSize.isInBounds p = true ∧ b.buffer.dbcsAt p ≠ .trailing

/-- Behind the last line, or behind a line. -/
def IsEnd (b : GlyphBuffer α) (p : Types.Point) : Prop :=
  p = b.buffer.getSize.endExclusive ∨ ∃ y : ℕ, y < b.h ∧ p = ⟨b.w, y⟩

theorem firstCell_iff {p : Types.Point} :
    b.FirstCell p ↔ ∃ x y : ℕ, x < b.w ∧ y < b.h ∧ b.half x y ≠ .trailing ∧ p = ⟨x, y⟩ := by
  unfold FirstCell
  rw [getSize_eq]
  unfold fromDimensions Types.Viewport.isInBounds
  simp only [Bool.and_eq_true, decide_eq_true_eq]
  constructor
  · rintro ⟨hbounds, hfirst⟩
    obtain ⟨x, hx⟩ := Int.eq_ofNat_of_zero_le (show 0 ≤ p.x by omega)
    obtain ⟨y, hy⟩ := Int.eq_ofNat_of_zero_le (show 0 ≤ p.y by omega)
    obtain rfl : p = ⟨x, y⟩ := by
      cases p
      exact congrArg₂ Types.Point.mk hx hy
    dsimp only at hbounds
    exact ⟨x, y, by omega, by omega, fun h => hfirst (half_eq_trailing.mpr h), rfl⟩
  · rintro ⟨x, y, hx, hy, hfirst, rfl⟩
    dsimp only
    exact ⟨by omega, fun h => hfirst (half_eq_trailing.mp h)⟩

theorem firstCell_pos (hn : n < b.w * b.h) : b.FirstCell (b.pos n) ↔ b.halfAt n ≠ .trailing := by
  unfold FirstCell
  rw [isInBounds_pos hn, Ne, half_eq_trailing, half_pos]
  exact ⟨fun h => h.2, fun h => ⟨rfl, h⟩⟩

theorem IsEnd.eq_pos2 {p : Types.Point} (h : b.IsEnd p) : ∃ m, p = b.pos2 m := by
  obtain rfl | ⟨y, -, rfl⟩ := h
  · refine ⟨(b.w + 1) * b.h + 0, ?_⟩
    rw [pos2_of (Nat.zero_le _), endExclusive_eq, pos_eq, Nat.mul_mod_right, Nat.mul_div_cancel_left _ b.w_pos]
  · exact ⟨_, (pos2_of le_rfl).symm⟩

theorem FirstCell.eq_pos2 {p : Types.Point} (h : b.FirstCell p) :
    ∃ m, p = b.pos2 m ∧ m ≤ b.limit2 ∧ b.Inside m ∧ b.half2 m ≠ .trailing := by
  obtain ⟨x, y, hx, hy, hhalf, rfl⟩ := firstCell_iff.mp h
  have hlt : x < b.w + 1 := Nat.lt_succ_of_lt hx
  have hlines : (b.w + 1) * (y + 1) ≤ (b.w + 1) * b.h := Nat.mul_le_mul_left _ hy
  have hlimit := succ_limit2 (b := b)
  have hmod : ((b.w + 1) * y + x) % (b.w + 1) = x := by rw [Nat.mul_add_mod, Nat.mod_eq_of_lt hlt]
  have hdiv : ((b.w + 1) * y + x) / (b.w + 1) = y := by
    rw [Nat.mul_add_div (Nat.succ_pos _), Nat.div_eq_of_lt hlt, Nat.add_zero]
  refine ⟨(b.w + 1) * y + x, (pos2_of hx.le).symm, ?_, ?_, ?_⟩
  · rw [Nat.mul_add, Nat.mul_one] at hlines
    omega
  · unfold Inside
    rwa [hmod]
  · unfold half2
    rwa [hmod, hdiv]

theorem Begins2.atGlyph (h : b.Begins2 m) : b.FirstCell (b.pos2 m) ∨ b.IsEnd (b.pos2 m) := by
  obtain ⟨hm, hfirst⟩ := h
  have hy := div_lt2 hm
  have hx := Nat.mod_lt m (Nat.succ_pos b.w)
  rw [pos2_eq]
  rcases Nat.lt_or_eq_of_le (Nat.le_of_lt_succ hx) with hlt | heq
  · exact .inl (firstCell_iff.mpr ⟨_, _, hlt, hy, hfirst hlt, rfl⟩)
  · rw [heq]
    exact .inr (.inr ⟨_, hy, rfl⟩)

theorem FirstCell.eq_pos {p : Types.Point} (h : b.FirstCell p) :
    ∃ n, p = b.pos n ∧ n < b.w * b.h ∧ b.halfAt n ≠ .trailing := by
  obtain ⟨x, y, hx, hy, hhalf, rfl⟩ := firstCell_iff.mp h
  exact ⟨_, (pos_of hx).symm, number_lt hx hy, by rwa [halfAt_of hx]⟩

/-- An end behind a line has the number of the next line's first cell. -/
theorem IsEnd.number {p : Types.Point} (h : b.IsEnd p) :
    ∃ n : ℕ, b.number p = n ∧ n ≤ b.w * b.h ∧ (n < b.w * b.h → b.halfAt n ≠ .trailing) := by
  obtain rfl | ⟨y, hy, rfl⟩ := h
  · rw [endExclusive_eq]
    exact ⟨_, number_pos _, le_rfl, fun h => absurd h (Nat.lt_irrefl _)⟩
  · refine ⟨b.w * (y + 1), ?_, Nat.mul_le_mul_left _ hy, fun h => ?_⟩
    · unfold GlyphBuffer.number
      dsimp only
      push_cast
      rw [Int.mul_add, Int.mul_one]
    · have hline : y + 1 < b.h := Nat.lt_of_mul_lt_mul_left h
      have hhalf := halfAt_of (b := b) (y := y + 1) b.w_pos
      rw [Nat.add_zero] at hhalf
      rw [hhalf]
      exact half_first hline

theorem previousNumber_first (hn : n ≤ b.w * b.h) (hfirst : n < b.w * b.h → b.halfAt n ≠ .trailing)
    (hbefore : b.halfAt (n - 1) ≠ .trailing) : b.FirstCell (b.pos (b.previousNumber n)) := by
  have hsize := b.size_pos
  have hle := previousNumber_le (b := b) n
  rw [firstCell_pos (by omega)]
  unfold previousNumber
  split_ifs with hleading
  · -- Behind a first half is a second half, so there is no cell in front of this one.
    have hwide := (halfAt_leading_iff (by omega)).mp hleading
    rcases Nat.eq_zero_or_pos n with rfl | hpos
    · exact halfAt_zero
    · rw [Nat.sub_add_cancel hpos] at hwide
      exact absurd hwide.2 (hfirst hwide.1)
  · exact hbefore

theorem nextNumber_first (hn : n < b.w * b.h) (hfirst : b.halfAt n ≠ .trailing)
    (hroom : ¬ (n + 2 = b.w * b.h ∧ b.halfAt n = .leading)) : b.FirstCell (b.pos (b.nextNumber n)) := by
  have hleading := halfAt_leading_iff hn
  unfold nextNumber
  split_ifs with hlast hwide hend
  · rw [firstCell_pos hend]
    intro htrailing
    have := (halfAt_leading_iff hlast).mpr ⟨hend, htrailing⟩
    exact absurd (this.symm.trans hwide) (by decide)
  · exact absurd ⟨by omega, hleading.mpr ⟨hlast, hwide⟩⟩ hroom
  · exact (firstCell_pos hlast).mpr hwide
  · exact (firstCell_pos hn).mpr hfirst

/-- From an end behind a line, `MoveToNextGlyph` goes to the end behind the last line, stays or throws. -/
theorem moveToNextGlyph_lineEnd {r : Types.Point × Bool} {allowExclusiveEnd : Bool}
    (h : b.buffer.moveToNextGlyph ⟨b.w, y⟩ allowExclusiveEnd none = .ok r) :
    r.1 = b.buffer.getSize.endExclusive ∨ r.1 = ⟨b.w, y⟩ := by
  have hoff : b.buffer.getSize.isInBounds ⟨b.w, y⟩ = false := by
    rw [getSize_eq, Bool.eq_false_iff]
    unfold fromDimensions Types.Viewport.isInBounds
    simp only [Ne, Bool.and_eq_true, decide_eq_true_eq]
    omega
  have hthrows : b.buffer.getCellIterator ⟨b.w, y⟩ = .error .invalidArgument := by
    unfold TextBuffer.getCellIterator
    rw [hoff]
    rfl
  unfold TextBuffer.moveToNextGlyph at h
  dsimp only [Option.getD_none] at h
  rw [hthrows] at h
  split_ifs at h
  · obtain rfl := Except.ok.inj h
    exact .inl rfl
  · obtain rfl := Except.ok.inj h
    exact .inr rfl
  · cases h

/-! ### Runs -/

inductive GlyphMove
  | next (allowExclusiveEnd : Bool)
  | previous
  | next2
  | previous2

def move (b : GlyphBuffer α) (p : Types.Point) : GlyphMove → Except WriteCellsError (Types.Point × Bool)
  | .next allowExclusiveEnd => b.buffer.moveToNextGlyph p allowExclusiveEnd none
  | .previous => b.buffer.moveToPreviousGlyph p none
  | .next2 => b.buffer.moveToNextGlyph2 p none
  | .previous2 => b.buffer.moveToPreviousGlyph2 p none

def step (b : GlyphBuffer α) (p : Types.Point) (e : GlyphMove) : Option Types.Point :=
  match b.move p e with
  | .ok r => some r.1
  | .error _ => none

/-- The move does not end on the second half of a wide glyph: in front of the last two cells there is none to go over
with `MoveToNextGlyph`, and there is none behind which `MoveToPreviousGlyph` starts. -/
def Allowed (b : GlyphBuffer α) (p : Types.Point) : GlyphMove → Prop
  | .next _ => ¬ (p.y + 1 = b.h ∧ p.x + 2 = b.w ∧ b.buffer.dbcsAt p = .leading)
  | .previous => b.buffer.dbcsAt (b.buffer.getSize.walkToEnd p (-1)).1 ≠ .trailing
  | .next2 => True
  | .previous2 => True

theorem step_eq_some {p q : Types.Point} {e : GlyphMove} (h : b.step p e = some q) :
    ∃ success, b.move p e = .ok (q, success) := by
  unfold step at h
  split at h
  · next r hr =>
    obtain rfl := Option.some.inj h
    exact ⟨r.2, hr⟩
  · cases h

theorem step_of_ok {p q : Types.Point} {e : GlyphMove} {success : Bool} (h : b.move p e = .ok (q, success)) :
    b.step p e = some q := by
  unfold step
  rw [h]

/-- The last two cells of the buffer. -/
theorem add_two_eq (hn : n < b.w * b.h) (hlast : n + 2 = b.w * b.h) (hleading : b.halfAt n = .leading) :
    n / b.w + 1 = b.h ∧ n % b.w + 2 = b.w := by
  have hsucc := (succ_size_iff (b := b) (n := n + 1) (by omega)).mp (by omega)
  rcases succ_div_mod b.w_pos n with ⟨-, hmod, hdiv⟩ | ⟨heq, -, -⟩
  · rw [hmod, hdiv] at hsucc
    exact ⟨hsucc.2, hsucc.1⟩
  · exact absurd hleading (half_last heq (div_lt hn))

theorem atGlyph_next {p : Types.Point} {r : Types.Point × Bool} {allowExclusiveEnd : Bool}
    (hallowed : b.Allowed p (.next allowExclusiveEnd)) (hmove : b.buffer.moveToNextGlyph p allowExclusiveEnd none = .ok r)
    (hp : b.FirstCell p ∨ b.IsEnd p) : b.FirstCell r.1 ∨ b.IsEnd r.1 := by
  rcases hp with hfirst | rfl | ⟨y, hy, rfl⟩
  · obtain ⟨n, rfl, hn, hhalf⟩ := hfirst.eq_pos
    obtain ⟨success, hnext⟩ := moveToNextGlyph_pos hn allowExclusiveEnd
    obtain rfl := Except.ok.inj (hnext.symm.trans hmove)
    refine .inl (nextNumber_first hn hhalf ?_)
    rintro ⟨hlast, hleading⟩
    have htwo := add_two_eq hn hlast hleading
    refine hallowed ⟨?_, ?_, half_eq_leading.mpr ((half_pos n).trans hleading)⟩
    · rw [pos_eq]
      dsimp only
      exact_mod_cast htwo.1
    · rw [pos_eq]
      dsimp only
      exact_mod_cast htwo.2
  · rw [endExclusive_eq, moveToNextGlyph_end] at hmove
    obtain rfl := Except.ok.inj hmove
    exact .inr (.inl endExclusive_eq.symm)
  · rcases moveToNextGlyph_lineEnd hmove with hend | hstay
    · exact .inr (.inl hend)
    · exact .inr (.inr ⟨y, hy, hstay⟩)

theorem atGlyph_previous {p : Types.Point} {r : Types.Point × Bool} (hallowed : b.Allowed p .previous)
    (hmove : b.buffer.moveToPreviousGlyph p none = .ok r) (hp : b.FirstCell p ∨ b.IsEnd p) :
    b.FirstCell r.1 ∨ b.IsEnd r.1 := by
  obtain ⟨n, hnumber, hn, hfirst⟩ : ∃ n : ℕ, b.number p = n ∧ n ≤ b.w * b.h ∧
      (n < b.w * b.h → b.halfAt n ≠ .trailing) := by
    rcases hp with hfirst | hend
    · obtain ⟨n, rfl, hn, hhalf⟩ := hfirst.eq_pos
      exact ⟨n, number_pos n, hn.le, fun _ => hhalf⟩
    · exact hend.number
  obtain ⟨success, hprevious⟩ := moveToPreviousGlyph_pos hn
  rw [moveToPreviousGlyph_number hnumber, hprevious] at hmove
  obtain rfl := Except.ok.inj hmove
  have hbefore : b.halfAt (n - 1) ≠ .trailing := by
    have hwalk := walkToEnd_pos (b := b) n
    rw [Nat.min_eq_left (by omega)] at hwalk
    unfold Allowed at hallowed
    rw [walkToEnd_number hnumber, hwalk] at hallowed
    exact fun h => hallowed (half_eq_trailing.mpr ((half_pos _).trans h))
  exact .inl (previousNumber_first hn hfirst hbefore)

theorem atGlyph_step (p : Types.Point) (e : GlyphMove) (q : Types.Point) (hallowed : b.Allowed p e)
    (hstep : b.step p e = some q) (hp : b.FirstCell p ∨ b.IsEnd p) : b.FirstCell q ∨ b.IsEnd q := by
  obtain ⟨success, hmove⟩ := step_eq_some hstep
  have hnumber : ∃ m, p = b.pos2 m := by
    rcases hp with hfirst | hend
    · obtain ⟨m, hm, -⟩ := hfirst.eq_pos2
      exact ⟨m, hm⟩
    · exact hend.eq_pos2
  cases e with
  | next allowExclusiveEnd => exact atGlyph_next hallowed hmove hp
  | previous => exact atGlyph_previous hallowed hmove hp
  | next2 =>
    obtain ⟨m, rfl⟩ := hnumber
    obtain ⟨success, hnext⟩ := moveToNextGlyph2_pos2 (b := b) m
    obtain rfl := congrArg Prod.fst (Except.ok.inj (hnext.symm.trans hmove))
    exact (begins2_nextNumber2 m).atGlyph
  | previous2 =>
    obtain ⟨m, rfl⟩ := hnumber
    obtain ⟨success, hprevious⟩ := moveToPreviousGlyph2_pos2 (b := b) m
    obtain rfl := congrArg Prod.fst (Except.ok.inj (hprevious.symm.trans hmove))
    exact (begins2_previousNumber2 m).atGlyph

theorem firstCell_origin : b.FirstCell ⟨0, 0⟩ := by
  have hzero : b.pos 0 = ⟨0, 0⟩ := by
    rw [pos_eq, Nat.zero_mod, Nat.zero_div]
    rfl
  rw [← hzero]
  exact (firstCell_pos b.size_pos).mpr halfAt_zero

/-- The move back from where the move forward leads leads to the position again. -/
def Undone (b : GlyphBuffer α) (forward back : GlyphMove) (p : Types.Point) : Prop :=
  (b.step p forward).bind (fun q => b.step q back) = some p

/-- The columns of the glyph whose first cell it is. -/
def columns (b : GlyphBuffer α) (p : Types.Point) : ℕ := if b.buffer.dbcsAt p = .leading then 2 else 1

theorem columns_pos (n : ℕ) : b.columns (b.pos n) = glyphWidth (b.halfAt n) := by
  unfold columns glyphWidth
  simp only [half_eq_leading, half_pos]

theorem columns_pos2 (m : ℕ) : b.columns (b.pos2 m) = glyphWidth (b.half2 m) := by
  unfold columns glyphWidth
  simp only [half_eq_leading, half_pos2]

theorem pos_injective {i j : ℕ} (h : b.pos i = b.pos j) : i = j := by
  have := congrArg b.number h
  rw [number_pos, number_pos] at this
  exact_mod_cast this

theorem pos2_injective {i j : ℕ} (h : b.pos2 i = b.pos2 j) : i = j := by
  have hle : ∀ {i j : ℕ}, b.pos2 i = b.pos2 j → i ≤ j := by
    intro i j h
    have hrefl : (b.pos2 j).notBefore (b.pos2 i) = true := by
      rw [h]
      exact notBefore_pos2.mpr le_rfl
    exact notBefore_pos2.mp hrefl
  exact le_antisymm (hle h) (hle h.symm)

theorem glyphWidth_le (half : Half) : glyphWidth half ≤ 2 := by cases half <;> decide

/-- The glyph in front of the end behind the last line. -/
theorem lastGlyph_iff {g : ℕ} (hx : x < b.w) (hy : y < b.h) (hg : g ≤ 2) :
    (b.w + 1) * y + x + g = (b.w + 1) * (b.h - 1) + b.w ↔ y + 1 = b.h ∧ x + g = b.w := by
  rcases Nat.lt_or_eq_of_le (Nat.succ_le_of_lt hy) with hlt | heq
  · have hlines : (b.w + 1) * (y + 1) ≤ (b.w + 1) * (b.h - 1) := Nat.mul_le_mul_left _ (by omega)
    rw [Nat.mul_add, Nat.mul_one] at hlines
    omega
  · have hlast : b.h - 1 = y := by omega
    rw [hlast]
    omega

theorem undone_iff {p : Types.Point} (hp : b.FirstCell p) : b.Undone (.next true) .previous p ↔
    (b.buffer.dbcsAt p = .single ∧ ¬ (p.y + 1 = b.h ∧ p.x + 1 = b.w)) ∨ b.w * b.h = b.columns p := by
  obtain ⟨n, rfl, hn, hhalf⟩ := hp.eq_pos
  obtain ⟨success, hnext⟩ := moveToNextGlyph_pos hn true
  obtain ⟨success', hprevious⟩ := moveToPreviousGlyph_pos (b := b) (n := b.nextNumber n) (by
    unfold nextNumber
    split_ifs <;> omega)
  have hundone : b.Undone (.next true) .previous (b.pos n) ↔ b.previousNumber (b.nextNumber n) = n := by
    unfold Undone
    rw [step_of_ok (e := .next true) hnext, Option.bind_some, step_of_ok (e := .previous) hprevious, Option.some_inj]
    exact ⟨pos_injective, congrArg b.pos⟩
  have hsingle : b.buffer.dbcsAt (b.pos n) = .single ↔ b.halfAt n = .whole := by
    rw [← half_pos]
    cases b.buffer.dbcsAt (b.pos n) <;> decide
  have hlast := succ_size_iff hn
  rw [hundone, previousNumber_nextNumber hn hhalf, hsingle, columns_pos, Ne, hlast, pos_eq]
  dsimp only
  norm_cast
  rw [and_comm (a := n % b.w + 1 = b.w)]

theorem undone2_iff {p : Types.Point} (hp : b.FirstCell p) :
    b.Undone .next2 .previous2 p ↔ ¬ (p.y + 1 = b.h ∧ p.x + b.columns p = b.w) := by
  obtain ⟨m, rfl, hm, hinside, hhalf⟩ := hp.eq_pos2
  obtain ⟨success, hnext⟩ := moveToNextGlyph2_pos2 (b := b) m
  obtain ⟨success', hprevious⟩ := moveToPreviousGlyph2_pos2 (b := b) (b.nextNumber2 m)
  have hundone : b.Undone .next2 .previous2 (b.pos2 m) ↔ b.previousNumber2 (b.nextNumber2 m) = m := by
    unfold Undone
    rw [step_of_ok (e := .next2) hnext, Option.bind_some, step_of_ok (e := .previous2) hprevious, Option.some_inj]
    exact ⟨pos2_injective, congrArg b.pos2⟩
  rw [hundone, previousNumber2_nextNumber2 hm hinside hhalf, columns_pos2, pos2_eq, limit2_eq]
  dsimp only
  norm_cast
  refine not_congr ?_
  have hlast := lastGlyph_iff hinside (div_lt2 hm) (glyphWidth_le (b.half2 m))
  rwa [Nat.div_add_mod] at hlast

/-- **Moving by glyphs.**  A move back with `MoveToPreviousGlyph` undoes a move over a narrow glyph that is not the
last, one with `MoveToPreviousGlyph2` a move over a glyph that is not the last.  Runs whose moves are allowed lead from
the origin to first cells and to ends. -/
theorem glyphMoves_iff (b : GlyphBuffer α) :
    (∀ p, b.FirstCell p → (b.Undone (.next true) .previous p ↔
      (b.buffer.dbcsAt p = .single ∧ ¬ (p.y + 1 = b.h ∧ p.x + 1 = b.w)) ∨ b.w * b.h = b.columns p)) ∧
    (∀ p, b.FirstCell p → (b.Undone .next2 .previous2 p ↔ ¬ (p.y + 1 = b.h ∧ p.x + b.columns p = b.w))) ∧
    ∀ moves p, Lib.Run.Along b.step b.Allowed ⟨0, 0⟩ moves → Lib.Run.run b.step ⟨0, 0⟩ moves = some p →
      b.FirstCell p ∨ b.IsEnd p := by
  refine ⟨fun p => undone_iff, fun p => undone2_iff, ?_⟩
  intro moves p halong hrun
  exact Lib.Run.run_invariant_along atGlyph_step halong hrun (.inl firstCell_origin)

/-! ### A wide glyph between two letters -/

def wideBufferRow : Row ℕ where
  chars := [0x61, 0x4e2d, 0x64]
  charOffsets := [0, 1, 0x8001, 2, 3]
  attr := [0, 0, 0, 0]
  columnCount := 4
  lineRendition := .singleWidth
  wrapForced := false
  doubleBytePadded := false
  promptData := none

lemma wideBufferRow_holds : wideBufferRow.Holds [.narrow 0x61, .wide 0x4e2d, .narrow 0x64] := ⟨rfl, rfl, rfl, by decide⟩

def wideBuffer : GlyphBuffer ℕ where
  buffer :=
    { rows := fun _ => wideBufferRow
      width := 4
      height := 1
      firstRow := 0
      initialAttributes := 0
      cursorX := 0
      cursorY := 0 }
  width_pos := by decide
  height_pos := by decide
  rows _ _ := ⟨_, wideBufferRow_holds, rfl⟩

/-- The way back from behind the wide glyph ends on its second half; the last glyph cannot be reached again from the end
of its line. -/
theorem wideBuffer_strands : wideBuffer.FirstCell ⟨1, 0⟩ ∧ ¬ wideBuffer.Undone (.next true) .previous ⟨1, 0⟩ ∧
    wideBuffer.FirstCell ⟨3, 0⟩ ∧ ¬ wideBuffer.Undone .next2 .previous2 ⟨3, 0⟩ ∧
    Lib.Run.run wideBuffer.step ⟨0, 0⟩ [.next true, .next true, .previous] = some ⟨2, 0⟩ ∧
    wideBuffer.buffer.dbcsAt ⟨2, 0⟩ = .trailing := by
  unfold FirstCell Undone
  refine ⟨by decide, by decide, by decide, by decide, by decide, by decide⟩

end GlyphBuffer

end VT7.Buffer
