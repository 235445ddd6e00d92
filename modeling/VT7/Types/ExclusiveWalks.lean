import VT7.Types.Viewport

/-!
# Walks to exclusive ends

Walks that may go on to the position behind the last one, and walks in which every line has one more position behind its
last column.
-/

namespace VT7.Types

/-- `operator>=`. -/
def Point.notBefore (p other : Point) : Bool := p.y > other.y || (p.y = other.y && p.x ≥ other.x)

namespace Viewport

variable (v : Viewport)

def endExclusive : Point := ⟨v.left, v.bottom + 1⟩

def bottomInclusiveRightExclusive : Point := ⟨v.right + 1, v.bottom⟩

/-- `CompareInBounds`; the assertions are for debug builds. -/
def compareInBounds (first second : Point) : ℤ :=
  (first.y - second.y) * (v.right + 1 - v.left) + (first.x - second.x)

/-- `WalkInBounds` with `allowEndExclusive`. -/
def walkToEnd (pos : Point) (delta : ℤ) : Point × Bool :=
  let l := v.left
  let t := v.top
  let w := max 0 (v.right - v.left + 1)
  let h := max 0 (v.bottom - v.top + 1)
  let last := w * h
  let off := w * (pos.y - t) + (pos.x - l) + delta
  let offClamped := max 0 (min off last)
  (⟨offClamped % w + l, offClamped / w + t⟩, off = offClamped)

def walkInExclusiveBounds (pos : Point) (delta : ℤ) : Point × Bool :=
  let l := v.left
  let t := v.top
  let w := max 0 (v.right - v.left + 2)
  let h := max 0 (v.bottom - v.top + 1)
  let last := w * h
  let off := w * (pos.y - t) + (pos.x - l) + delta
  let offClamped := max 0 (min off last)
  (⟨offClamped % w + l, offClamped / w + t⟩, off = offClamped)

section Walks

variable {l t w h n : ℤ}

lemma position_off (l t w n : ℤ) :
    w * ((position l t w n).y - t) + ((position l t w n).x - l) = n := by
  have := Int.mul_ediv_add_emod n w
  unfold position
  dsimp only
  rw [Int.add_sub_cancel, Int.add_sub_cancel, this]

/-- A step of a walk that may end behind the last position. -/
theorem walkToEnd_position (hw : 0 < w) (hh : 0 < h) (delta : ℤ) :
    (fromDimensions ⟨l, t⟩ w h).walkToEnd (position l t w n) delta =
      (position l t w (max 0 (min (n + delta) (w * h))), decide (0 ≤ n + delta ∧ n + delta ≤ w * h)) := by
  have hwidth : max 0 (l + w - 1 - l + 1) = w := by omega
  have hheight : max 0 (t + h - 1 - t + 1) = h := by omega
  have hroom : 1 ≤ w * h := Int.mul_pos hw hh
  unfold walkToEnd fromDimensions
  dsimp only
  rw [hwidth, hheight, position_off]
  unfold position
  congr 1
  rw [decide_eq_decide]
  omega

/-- A step of a walk with a position behind each line. -/
theorem walkInExclusiveBounds_position (hw : 0 ≤ w) (hh : 0 < h) (delta : ℤ) :
    (fromDimensions ⟨l, t⟩ w h).walkInExclusiveBounds (position l t (w + 1) n) delta =
      (position l t (w + 1) (max 0 (min (n + delta) ((w + 1) * h))),
        decide (0 ≤ n + delta ∧ n + delta ≤ (w + 1) * h)) := by
  have hwidth : max 0 (l + w - 1 - l + 2) = w + 1 := by omega
  have hheight : max 0 (t + h - 1 - t + 1) = h := by omega
  have hroom : 1 ≤ (w + 1) * h := Int.mul_pos (by omega) hh
  unfold walkInExclusiveBounds fromDimensions
  dsimp only
  rw [hwidth, hheight, position_off]
  unfold position
  congr 1
  rw [decide_eq_decide]
  omega

end Walks

/-! ### Positions of a buffer -/

section Lines

variable {w h x y : ℕ}

/-- Numbers count up along a line and from line to line. -/
theorem succ_div_mod (hw : 0 < w) (n : ℕ) :
    (n % w + 1 < w ∧ (n + 1) % w = n % w + 1 ∧ (n + 1) / w = n / w) ∨
      (n % w + 1 = w ∧ (n + 1) % w = 0 ∧ (n + 1) / w = n / w + 1) := by
  have hmod := Nat.mod_lt n hw
  have hsplit := Nat.div_add_mod n w
  have hform : n + 1 = w * (n / w) + (n % w + 1) := by omega
  rcases Nat.lt_or_eq_of_le (Nat.succ_le_of_lt hmod) with hlt | heq
  · refine .inl ⟨hlt, ?_, ?_⟩
    · rw [hform, Nat.mul_add_mod, Nat.mod_eq_of_lt hlt]
    · rw [hform, Nat.mul_add_div hw, Nat.div_eq_of_lt hlt, Nat.add_zero]
  · have hnext : n + 1 = w * (n / w + 1) := by
      rw [Nat.mul_add, Nat.mul_one]
      omega
    refine .inr ⟨heq, ?_, ?_⟩
    · rw [hnext, Nat.mul_mod_right]
    · rw [hnext, Nat.mul_div_cancel_left _ hw]

/-- Coordinates, the end behind a line included, and their number. -/
theorem position_line (hx : x ≤ w) : position 0 0 ((w : ℤ) + 1) (((w + 1) * y + x : ℕ) : ℤ) = ⟨x, y⟩ := by
  have hlt : x < w + 1 := Nat.lt_succ_of_le hx
  have hposition := position_natCast 0 0 (w + 1) ((w + 1) * y + x)
  rw [Nat.zero_add, Nat.zero_add, Nat.mul_add_mod, Nat.mod_eq_of_lt hlt, Nat.mul_add_div (Nat.succ_pos w),
    Nat.div_eq_of_lt hlt, Nat.add_zero] at hposition
  exact_mod_cast hposition

theorem walk_number (hh : 0 < h) (m : ℕ) (delta : ℤ) :
    ((fromDimensions ⟨0, 0⟩ w h).walkInExclusiveBounds (position 0 0 ((w : ℤ) + 1) m) delta).1 =
      position 0 0 ((w : ℤ) + 1) (max 0 (min (m + delta) ((w + 1) * h : ℕ))) := by
  rw [walkInExclusiveBounds_position (by omega) (by exact_mod_cast hh)]
  push_cast
  rfl

/-- A number of a line is smaller than that of the end of the buffer. -/
theorem line_lt (hx : x ≤ w) (hy : y < h) : (w + 1) * y + x < (w + 1) * h := by
  have hlines : (w + 1) * (y + 1) ≤ (w + 1) * h := Nat.mul_le_mul_left _ hy
  rw [Nat.mul_add, Nat.mul_one] at hlines
  omega

theorem walk_forward (hx : x < w) (hy : y < h) :
    ((fromDimensions ⟨0, 0⟩ w h).walkInExclusiveBounds ⟨x, y⟩ 1).1 = ⟨(x + 1 : ℕ), y⟩ := by
  have hlt := line_lt hx.le hy
  rw [← position_line hx.le, walk_number (by omega), ← position_line hx]
  congr 1
  omega

theorem walk_forward_line (hy : y + 1 < h) :
    ((fromDimensions ⟨0, 0⟩ w h).walkInExclusiveBounds ⟨w, y⟩ 1).1 = ⟨(0 : ℕ), (y + 1 : ℕ)⟩ := by
  have hlt := line_lt (Nat.zero_le w) hy
  rw [← position_line le_rfl, walk_number (by omega), ← position_line (Nat.zero_le w)]
  congr 1
  rw [Nat.mul_add, Nat.mul_one] at *
  omega

theorem walk_back (hx : x < w) (hy : y < h) :
    ((fromDimensions ⟨0, 0⟩ w h).walkInExclusiveBounds ⟨(x + 1 : ℕ), y⟩ (-1)).1 = ⟨x, y⟩ := by
  have hlt := line_lt hx.le hy
  rw [← position_line hx, walk_number (by omega), ← position_line hx.le]
  congr 1
  omega

theorem walk_back_line (hy : y + 1 < h) :
    ((fromDimensions ⟨0, 0⟩ w h).walkInExclusiveBounds ⟨(0 : ℕ), (y + 1 : ℕ)⟩ (-1)).1 = ⟨w, y⟩ := by
  have hlt := line_lt (Nat.zero_le w) hy
  rw [← position_line (Nat.zero_le w), walk_number (by omega), ← position_line le_rfl]
  congr 1
  rw [Nat.mul_add, Nat.mul_one] at *
  omega

end Lines

end Viewport

end VT7.Types
