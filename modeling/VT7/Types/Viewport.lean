import Mathlib.Data.Int.Order.Basic
import Mathlib.Tactic.Linarith
import Mathlib.Tactic.Ring

/-!
# Rectangles and walks

A `til::rect` leaves out its right column and its bottom row, a `Viewport` has both.  A walk goes through the positions of
a viewport line by line, forwards or backwards (`walkInBounds_position`).
-/

namespace VT7.Types

/-- `til::point`. -/
structure Point where
  x : ℤ
  y : ℤ
deriving DecidableEq

/-- `operator<`. -/
def Point.before (p other : Point) : Bool := p.y < other.y || (p.y = other.y && p.x < other.x)

/-- `til::rect`. -/
structure Rect where
  left : ℤ
  top : ℤ
  right : ℤ
  bottom : ℤ
deriving DecidableEq

namespace Rect

variable (r : Rect)

/-- `operator bool`. -/
def isValid : Bool := 0 ≤ r.left && 0 ≤ r.top && r.left < r.right && r.top < r.bottom

def width : ℤ := r.right - r.left
def height : ℤ := r.bottom - r.top
def origin : Point := ⟨r.left, r.top⟩

/-- `contains`. -/
def Contains (pt : Point) : Prop := r.left ≤ pt.x ∧ pt.x < r.right ∧ r.top ≤ pt.y ∧ pt.y < r.bottom

instance (pt : Point) : Decidable (r.Contains pt) := inferInstanceAs (Decidable (_ ∧ _))

end Rect

structure Viewport where
  left : ℤ
  top : ℤ
  right : ℤ
  bottom : ℤ
deriving DecidableEq

namespace Viewport

def fromDimensions (origin : Point) (width height : ℤ) : Viewport where
  left := origin.x
  top := origin.y
  right := origin.x + width - 1
  bottom := origin.y + height - 1

variable (v : Viewport)

def origin : Point := ⟨v.left, v.top⟩

/-- `Offset`. -/
def offset (delta : Point) : Viewport where
  left := v.left + delta.x
  top := v.top + delta.y
  right := v.right + delta.x
  bottom := v.bottom + delta.y

def isInBounds (pos : Point) : Bool := v.left ≤ pos.x && pos.x < v.right + 1 && v.top ≤ pos.y && pos.y < v.bottom + 1

/-- `WalkInBounds`: the new position, and whether it is the one that was asked for. -/
def walkInBounds (pos : Point) (delta : ℤ) : Point × Bool :=
  let l := v.left
  let t := v.top
  let w := max 0 (v.right - v.left + 1)
  let h := max 0 (v.bottom - v.top + 1)
  let last := w * h - 1
  let off := w * (pos.y - t) + (pos.x - l) + delta
  let offClamped := max 0 (min off last)
  (⟨offClamped % w + l, offClamped / w + t⟩, off = offClamped)

def getWalkOrigin (delta : ℤ) : Point where
  x := if 0 ≤ delta then v.left else v.right
  y := if 0 ≤ delta then v.top else v.bottom

def determineWalkDirection (source target : Viewport) : ℤ := if target.origin.before source.origin then 1 else -1

lemma offset_fromDimensions (origin delta : Point) (width height : ℤ) : (fromDimensions origin width height).offset delta =
    fromDimensions ⟨origin.x + delta.x, origin.y + delta.y⟩ width height := by
  unfold offset fromDimensions
  congr 1
  · ring
  · ring

/-! ### Positions by number -/

/-- The position with the number `n`, counted from the first line of `w` columns. -/
def position (l t w : ℤ) (n : ℤ) : Point := ⟨n % w + l, n / w + t⟩

section Walks

variable {l t w h n : ℤ}

/-- **A step of a walk**, from the position with the number `n`. -/
theorem walkInBounds_position (hw : 0 < w) (hh : 0 < h) (delta : ℤ) :
    (fromDimensions ⟨l, t⟩ w h).walkInBounds (position l t w n) delta =
      (position l t w (max 0 (min (n + delta) (w * h - 1))), decide (0 ≤ n + delta ∧ n + delta ≤ w * h - 1)) := by
  have hwidth : max 0 (l + w - 1 - l + 1) = w := by omega
  have hheight : max 0 (t + h - 1 - t + 1) = h := by omega
  have hoff : w * (n / w + t - t) + (n % w + l - l) + delta = n + delta := by
    have := Int.mul_ediv_add_emod n w
    rw [Int.add_sub_cancel, Int.add_sub_cancel, this]
  have hroom : 1 ≤ w * h := Int.mul_pos hw hh
  unfold walkInBounds fromDimensions position
  dsimp only
  rw [hwidth, hheight, hoff]
  congr 1
  rw [decide_eq_decide]
  omega

lemma getWalkOrigin_first : (fromDimensions ⟨l, t⟩ w h).getWalkOrigin 1 = position l t w 0 := by
  unfold getWalkOrigin fromDimensions position
  rw [Int.zero_emod, Int.zero_ediv, Int.zero_add, Int.zero_add]
  rfl

lemma getWalkOrigin_last (hw : 0 < w) :
    (fromDimensions ⟨l, t⟩ w h).getWalkOrigin (-1) = position l t w (w * h - 1) := by
  have hlast : w * h - 1 = (w - 1) + w * (h - 1) := by ring
  have hrow : (w - 1) / w = 0 := Int.ediv_eq_zero_of_lt (by omega) (by omega)
  have hcol : (w - 1) % w = w - 1 := Int.emod_eq_of_lt (by omega) (by omega)
  unfold getWalkOrigin fromDimensions position
  rw [hlast, Int.add_mul_emod_self_left, Int.add_mul_ediv_left _ _ hw.ne', hrow, hcol]
  congr 1
  · show l + w - 1 = _
    ring
  · show t + h - 1 = _
    ring

/-- The number of the position that is visited after `k` steps. -/
def visited (forward : Bool) (w h k : ℕ) : ℕ := if forward then k else w * h - 1 - k

def direction (forward : Bool) : ℤ := if forward then 1 else -1

lemma position_natCast (l t w n : ℕ) : position l t w n = ⟨(l + n % w : ℕ), (t + n / w : ℕ)⟩ := by
  unfold position
  push_cast
  rw [Int.add_comm, Int.add_comm ((n : ℤ) / w)]

/-- **The walk goes on** until the last position is reached. -/
theorem walkInBounds_visited {w h k : ℕ} (hk : k < w * h) (forward : Bool) :
    (fromDimensions ⟨l, t⟩ w h).walkInBounds (position l t w (visited forward w h k)) (direction forward) =
      (position l t w (visited forward w h (min (k + 1) (w * h - 1))), decide (k + 1 < w * h)) := by
  have hw : 0 < w := Nat.pos_of_ne_zero fun h0 => by rw [h0, Nat.zero_mul] at hk; omega
  have hh : 0 < h := Nat.pos_of_ne_zero fun h0 => by rw [h0, Nat.mul_zero] at hk; omega
  have hcast : ((w * h : ℕ) : ℤ) = (w : ℤ) * h := Nat.cast_mul w h
  rw [walkInBounds_position (by omega) (by omega), ← hcast]
  unfold visited direction
  cases forward with
  | true =>
    rw [if_pos rfl, if_pos rfl, if_pos rfl]
    congr 1
    · congr 1
      omega
    · rw [decide_eq_decide]
      omega
  | false =>
    rw [if_neg nofun, if_neg nofun, if_neg nofun]
    congr 1
    · congr 1
      omega
    · rw [decide_eq_decide]
      omega

lemma getWalkOrigin_visited {w h : ℕ} (hw : 0 < w) (hh : 0 < h) (forward : Bool) :
    (fromDimensions ⟨l, t⟩ w h).getWalkOrigin (direction forward) = position l t w (visited forward w h 0) := by
  have hroom : 0 < w * h := Nat.mul_pos hw hh
  have hcast : ((w * h : ℕ) : ℤ) = (w : ℤ) * h := Nat.cast_mul w h
  cases forward with
  | true => exact getWalkOrigin_first
  | false =>
    have hlast : ((visited false w h 0 : ℕ) : ℤ) = (w : ℤ) * h - 1 := by
      show ((w * h - 1 - 0 : ℕ) : ℤ) = _
      omega
    rw [hlast]
    exact getWalkOrigin_last (by omega)

/-- The line and the column of a visited position. -/
lemma visited_div_mod {w h k : ℕ} (hk : k < w * h) (forward : Bool) :
    visited forward w h k / w = (if forward then k / w else h - 1 - k / w) ∧
      visited forward w h k % w = (if forward then k % w else w - 1 - k % w) := by
  cases forward with
  | true => exact ⟨rfl, rfl⟩
  | false =>
    have hw : 0 < w := Nat.pos_of_ne_zero fun h0 => by rw [h0, Nat.zero_mul] at hk; omega
    have hsplit := Nat.div_add_mod k w
    have hmod := Nat.mod_lt k hw
    have hdiv : k / w < h := Nat.div_lt_of_lt_mul hk
    have hmul : w * (h - 1 - k / w) + w * (k / w) + w = w * h := by
      rw [← Nat.mul_add, ← Nat.mul_succ]
      congr 1
      omega
    have hform : visited false w h k = w * (h - 1 - k / w) + (w - 1 - k % w) := by
      show w * h - 1 - k = _
      omega
    have hsmall : w - 1 - k % w < w := by omega
    rw [hform, Nat.mul_add_div hw, Nat.mul_add_mod, Nat.div_eq_of_lt hsmall, Nat.mod_eq_of_lt hsmall]
    exact ⟨rfl, rfl⟩

end Walks

end Viewport

end VT7.Types
