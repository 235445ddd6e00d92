import VT7.Buffer.Areas

/-!
# Clearing the scrollback

`ClearScrollback` moves the rows that are kept to the start of the memory of a buffer and resets the rows behind them.
The rows of a buffer are committed when they are first used; `Memory` is a buffer with the number of the rows that are.
The scratchpad row is the first of them.
-/

namespace VT7.Buffer

variable {α : Type}

structure Memory (α : Type) where
  buffer : TextBuffer α
  /-- The rows between `_buffer` and `_commitWatermark`. -/
  committed : ℕ

def Row.setScrollbarData (r : Row α) (data : Option ScrollbarData) : Row α := { r with promptData := data }

namespace Memory

variable (m : Memory α)

def commitReadAheadRowCount : ℕ := 128

/-- The row of an index is used: `_getRowByOffsetDirect` commits it and some more. -/
def touch (y : ℤ) : Memory α :=
  let row := m.buffer.rowOffset (y % m.buffer.height).toNat + 1
  if row < m.committed then m
  else { m with committed := min (m.buffer.height + 1) (row + 1 + commitReadAheadRowCount) }

/-- A change of the row `GetMutableRowByOffset` gives. -/
def changeRow (y : ℤ) (change : Row α → Row α) : Memory α :=
  let m := m.touch y
  { m with buffer := m.buffer.setRowByOffset y (change (m.buffer.getRowByOffset y)) }

/-- `_estimateOffsetOfLastCommittedRow`. -/
def estimateOffsetOfLastCommittedRow : ℕ := m.committed - 2

/-- `_decommit`; a row that is not committed is constructed when it is used next. -/
def decommit : Memory α where
  buffer := { m.buffer with rows := fun _ => Row.create m.buffer.width m.buffer.initialAttributes }
  committed := 0

/-- A change of all rows from `y` on, `rest` of them. -/
def changeRows (change : Row α → Row α) : ℕ → (y : ℤ) → Memory α → Memory α
  | 0, _, m => m
  | rest + 1, y, m => changeRows change rest (y + 1) (m.changeRow y change)

/-- `ClearMarksInRange`; `clearMark` is `SetMarkAttributes(MarkKind::None)`. -/
def clearMarksInRange (clearMark : α → α) (startY endY : ℤ) : Memory α :=
  let top := max 0 (min (min startY endY) (m.buffer.height - 1))
  let bottom := max 0 (min (max startY endY) m.estimateOffsetOfLastCommittedRow)
  changeRows (fun row => { row.setScrollbarData none with attr := row.attr.map clearMark }) (bottom + 1 - top).toNat top m

/-- The rows that `ScrollRows` uses, in its order. -/
def touchRows (delta step : ℤ) : ℕ → (y : ℤ) → Memory α → Memory α
  | 0, _, m => m
  | rest + 1, y, m => touchRows delta step rest (y + step) ((m.touch (y + delta)).touch y)

def scrollRows (firstRow size delta : ℤ) : Except BufferError (Memory α) := do
  let buffer ← m.buffer.scrollRows firstRow size delta
  let size := max 0 size
  let touched :=
    if delta = 0 then m
    else if delta < 0 then touchRows delta 1 size.toNat firstRow m
    else touchRows delta (-1) size.toNat (firstRow + size - 1) m
  .ok { touched with buffer }

def clearScrollback (clearMark : α → α) (newFirstRow rowsToKeep : ℤ) : Except BufferError (Memory α) :=
  if newFirstRow ≤ 0 then .ok m
  else if rowsToKeep ≤ 0 then .ok m.decommit
  else do
    let m := m.clearMarksInRange clearMark 0 (max 0 (newFirstRow - 1))
    let startAbsolute := m.buffer.firstRow + newFirstRow
    let m := { m with buffer := { m.buffer with firstRow := 0 } }
    let m ← m.scrollRows startAbsolute rowsToKeep (-startAbsolute)
    let last : ℤ := m.estimateOffsetOfLastCommittedRow
    .ok (changeRows (fun row => row.reset m.buffer.initialAttributes) (last + 1 - rowsToKeep).toNat rowsToKeep m)

/-! ### What is committed -/

variable {m}

/-- The rows are within the memory. -/
def Bounded (m : Memory α) : Prop := m.committed ≤ m.buffer.height + 1

@[simp] lemma touch_buffer (y : ℤ) : (m.touch y).buffer = m.buffer := by
  unfold touch
  dsimp only
  split <;> rfl

lemma Bounded.touch (h : m.Bounded) (y : ℤ) : (m.touch y).Bounded := by
  unfold Bounded at h ⊢
  unfold Memory.touch
  dsimp only
  split
  · exact h
  · exact Nat.min_le_left _ _

lemma touchRows_bounded {delta step y : ℤ} {rest : ℕ} (h : m.Bounded) : (touchRows delta step rest y m).Bounded ∧
    (touchRows delta step rest y m).buffer = m.buffer := by
  induction rest generalizing y m with
  | zero => exact ⟨h, rfl⟩
  | succ rest ih =>
    obtain ⟨hbounded, hbuffer⟩ := ih (y := y + step) ((h.touch (y + delta)).touch y)
    exact ⟨hbounded, hbuffer.trans (by rw [touch_buffer, touch_buffer])⟩

/-! ### Changing rows -/

/-- Rows are changed, one by one. -/
lemma changeRows_spec {change : Row α → Row α} {y rest : ℕ} (hm : m.Bounded) (hrest : y + rest ≤ m.buffer.height) :
    (changeRows change rest y m).Bounded ∧
      (changeRows change rest y m).buffer = { m.buffer with rows := (changeRows change rest y m).buffer.rows } ∧
      ∀ z < m.buffer.height, (changeRows change rest y m).buffer.getRow z =
        if y ≤ z ∧ z < y + rest then change (m.buffer.getRow z) else m.buffer.getRow z := by
  induction rest generalizing y m with
  | zero => exact ⟨hm, rfl, fun z _ => (if_neg (by omega)).symm⟩
  | succ rest ih =>
    have hindex : ((y : ℤ) % m.buffer.height).toNat = y := by
      rw [Int.emod_eq_of_lt (by omega) (by omega), Int.toNat_natCast]
    have hchanged : (m.changeRow y change).buffer = m.buffer.setRow y (change (m.buffer.getRow y)) := by
      unfold changeRow
      dsimp only
      rw [touch_buffer]
      unfold TextBuffer.setRowByOffset TextBuffer.getRowByOffset
      rw [hindex]
    have hbounded : (m.changeRow y change).Bounded := by
      have htouch := hm.touch y
      unfold Bounded at htouch ⊢
      rw [touch_buffer] at htouch
      rw [hchanged]
      exact htouch
    obtain ⟨hlast, hsame, hrows⟩ := @ih (m.changeRow y change) (y + 1) hbounded (by
      rw [hchanged]
      show y + 1 + rest ≤ m.buffer.height
      omega)
    have hstep : changeRows change (rest + 1) y m = changeRows change rest (y + 1 : ℕ) (m.changeRow y change) := rfl
    rw [hstep]
    refine ⟨hlast, hsame.trans (by rw [hchanged]; rfl), fun z hz => ?_⟩
    rw [hrows z (by rw [hchanged]; exact hz), hchanged]
    rcases eq_or_ne z y with rfl | hne
    · rw [if_neg (by omega), if_pos (by omega), TextBuffer.getRow_setRow_self]
    · rw [TextBuffer.getRow_setRow_of_ne (by omega) hz hne]
      exact if_congr (by omega) rfl rfl

/-- Rows that are committed already commit no others. -/
lemma changeRows_committed {change : Row α → Row α} {y rest : ℕ} (hfirst : m.buffer.firstRow = 0)
    (hrest : y + rest ≤ m.buffer.height) (hcommitted : rest = 0 ∨ y + rest + 1 ≤ m.committed) :
    (changeRows change rest y m).committed = m.committed := by
  induction rest generalizing y m with
  | zero => rfl
  | succ rest ih =>
    have hindex : m.buffer.rowOffset ((y : ℤ) % m.buffer.height).toNat = y := by
      unfold TextBuffer.rowOffset
      rw [Int.emod_eq_of_lt (by omega) (by omega), Int.toNat_natCast, hfirst, Nat.zero_add, Nat.mod_eq_of_lt (by omega)]
    have htouch : m.touch y = m := by
      unfold touch
      rw [hindex]
      exact if_pos (by omega)
    have hsame : (m.changeRow y change).committed = m.committed := by
      unfold changeRow
      rw [htouch]
    have hbuffer : (m.changeRow y change).buffer.firstRow = 0 ∧ (m.changeRow y change).buffer.height = m.buffer.height := by
      unfold changeRow
      rw [htouch]
      exact ⟨hfirst, rfl⟩
    have hstep : changeRows change (rest + 1) y m = changeRows change rest (y + 1 : ℕ) (m.changeRow y change) := rfl
    rw [hstep, ih hbuffer.1 (by rw [hbuffer.2]; omega) (by rw [hsame]; omega), hsame]

end Memory

lemma Row.reset_eq_create {r : Row α} {width : ℕ} (h : r.columnCount = width) (attr : α) :
    r.reset attr = Row.create width attr := by
  subst h
  rfl

end VT7.Buffer
