import VT7.Adapter.CopiedRows
import VT7.Buffer.Scrollback

/-!
# What `ClearScrollback` keeps

The rows that are kept go to the start of the memory, the first one first.  None of them is overwritten before it is
copied when they lie one behind the other in the memory (`Contiguous`); then every row is kept that is copied whole.
-/

namespace VT7.Adapter

open VT7.Buffer
open VT7.Lib.Cells

variable {α : Type}

/-- The first `rowsToKeep` rows show what those from `newFirstRow` on showed, and the other committed rows are blank. -/
structure ScrollbackCleared (m m' : Memory α) (newFirstRow rowsToKeep : ℕ) : Prop where
  kept : ∀ i < rowsToKeep, SameRow m.buffer (newFirstRow + i) m'.buffer i
  blank : ∀ y, rowsToKeep ≤ y → y + 1 < m'.committed →
    m'.buffer.getRow y = Row.create m.buffer.width m.buffer.initialAttributes

/-- The rows in the order of the memory. -/
def unrolled (b : TextBuffer α) : TextBuffer α := { b with firstRow := 0 }

/-- The rows that are kept lie one behind the other in the memory. -/
def Contiguous (b : TextBuffer α) (newFirstRow rowsToKeep : ℕ) : Prop :=
  b.rowOffset newFirstRow + rowsToKeep ≤ b.height

/-- Every row that is kept is copied completely, from its place in the memory to the start of it. -/
def KeptWhole (b : TextBuffer α) (newFirstRow rowsToKeep : ℕ) : Prop :=
  b.rowOffset newFirstRow ≠ 0 → ∀ i < rowsToKeep, CopyComplete (unrolled b) i (b.rowOffset newFirstRow + i)

/-- Every row of the memory has room for what is copied to it. -/
def KeptFits (b : TextBuffer α) (newFirstRow rowsToKeep : ℕ) : Prop :=
  b.rowOffset newFirstRow ≠ 0 → ∀ i < rowsToKeep, CopyFits (unrolled b) i (b.rowOffset newFirstRow + i)

/-! ### Rows and their places -/

lemma getRow_unrolled {b : TextBuffer α} {p : ℕ} (hp : p < b.height) : (unrolled b).getRow p = b.rows p := by
  show b.rows ((0 + p) % b.height) = _
  rw [Nat.zero_add, Nat.mod_eq_of_lt hp]

lemma rowOffset_lt {b : TextBuffer α} (hheight : 0 < b.height) (y : ℕ) : b.rowOffset y < b.height :=
  Nat.mod_lt _ hheight

lemma getRow_eq_unrolled {b : TextBuffer α} (hheight : 0 < b.height) (y : ℕ) :
    b.getRow y = (unrolled b).getRow (b.rowOffset y) := (getRow_unrolled (rowOffset_lt hheight y)).symm

/-- Every place of the memory is that of a row. -/
lemma exists_rowOffset {b : TextBuffer α} {p : ℕ} (hp : p < b.height) : ∃ y < b.height, b.rowOffset y = p := by
  have hpos : 0 < b.height := by omega
  have hfirst := Nat.mod_lt b.firstRow hpos
  refine ⟨(p + (b.height - b.firstRow % b.height)) % b.height, Nat.mod_lt _ hpos, ?_⟩
  unfold TextBuffer.rowOffset
  rw [Nat.add_mod_mod, ← Nat.mod_add_mod,
    show b.firstRow % b.height + (p + (b.height - b.firstRow % b.height)) = p + b.height by omega, Nat.add_mod_right,
    Nat.mod_eq_of_lt hp]

lemma Content.unrolled {b : TextBuffer α} (h : Content b) : Content (unrolled b) := by
  have hrow : ∀ p < b.height, ∃ y < b.height, (VT7.Adapter.unrolled b).getRow p = b.getRow y := by
    intro p hp
    obtain ⟨y, hy, heq⟩ := exists_rowOffset hp
    exact ⟨y, hy, by rw [getRow_eq_unrolled (b := b) (by omega) y, heq]⟩
  refine .of_rows fun p hp => ?_
  obtain ⟨y, hy, heq⟩ := hrow p hp
  obtain ⟨gs, hgs⟩ := h.rows y hy
  rw [heq]
  exact ⟨gs, hgs, h.columns y hy, h.attributes y hy⟩

lemma SameRow.of_rows {b c b' c' : TextBuffer α} {v u z w : ℕ} (h : SameRow b v b' z) (hwidth : b.width = c.width)
    (hv : b.getRow v = c.getRow u) (hz : b'.getRow z = c'.getRow w) : SameRow c u c' w := by
  obtain ⟨⟨hcells, hattributes, hrendition⟩, hwrap⟩ := h
  unfold TextBuffer.cell at hcells
  unfold TextBuffer.attributes at hattributes
  rw [hwidth, hv, hz] at hcells hattributes
  rw [hv, hz] at hrendition hwrap
  exact ⟨⟨hcells, hattributes, hrendition⟩, hwrap⟩

lemma sameRow_congr {b c b' c' : TextBuffer α} {v u z w : ℕ} (hwidth : b.width = c.width)
    (hv : b.getRow v = c.getRow u) (hz : b'.getRow z = c'.getRow w) : SameRow b v b' z ↔ SameRow c u c' w :=
  ⟨fun h => h.of_rows hwidth hv hz, fun h => h.of_rows hwidth.symm hv.symm hz.symm⟩

/-! ### The marks above -/

/-- The row `r'` is the row `r` with other attributes and another mark. -/
def OnlyMarks (r r' : Row α) : Prop :=
  r' = { r with attr := r'.attr, promptData := r'.promptData } ∧ r'.attr.length = r.attr.length

lemma OnlyMarks.refl (r : Row α) : OnlyMarks r r := ⟨rfl, rfl⟩

/-- What `ClearMarksInRange` makes of the buffer. -/
structure MarksCleared (b b' : TextBuffer α) (newFirstRow : ℕ) : Prop where
  same : b' = { b with rows := b'.rows }
  rows : ∀ z < b.height, OnlyMarks (b.getRow z) (b'.getRow z)
  below : ∀ z < b.height, newFirstRow ≤ z → b'.getRow z = b.getRow z

lemma clearMarksInRange_spec {m : Memory α} (hm : m.Bounded) (clearMark : α → α) {newFirstRow : ℕ} (hfirst : 1 ≤ newFirstRow)
    (hheight : newFirstRow ≤ m.buffer.height) :
    (m.clearMarksInRange clearMark 0 (max 0 ((newFirstRow : ℤ) - 1))).Bounded ∧
      MarksCleared m.buffer (m.clearMarksInRange clearMark 0 (max 0 ((newFirstRow : ℤ) - 1))).buffer newFirstRow := by
  have htop : max 0 (min (min 0 (max 0 ((newFirstRow : ℤ) - 1))) ((m.buffer.height : ℤ) - 1)) = (0 : ℕ) := by omega
  unfold Memory.clearMarksInRange
  dsimp only
  rw [htop]
  generalize hrest : (max 0 (min (max 0 (max 0 ((newFirstRow : ℤ) - 1))) (m.estimateOffsetOfLastCommittedRow : ℤ)) + 1 -
    ((0 : ℕ) : ℤ)).toNat = rest
  have hle : rest ≤ newFirstRow := by omega
  obtain ⟨hbounded, hsame, hrows⟩ := @Memory.changeRows_spec _ m
    (fun row => { row.setScrollbarData none with attr := row.attr.map clearMark }) 0 rest hm (by omega)
  refine ⟨hbounded, hsame, fun z hz => ?_, fun z hz hbelow => ?_⟩
  · rw [hrows z hz]
    split
    · exact ⟨rfl, List.length_map _⟩
    · exact OnlyMarks.refl _
  · rw [hrows z hz, if_neg (by omega)]

section Unrolled

variable {b b' : TextBuffer α} {newFirstRow p v : ℕ}

/-- A row of the memory behind the marks. -/
lemma MarksCleared.onlyMarks (h : MarksCleared b b' newFirstRow) (hp : p < b.height) :
    OnlyMarks ((unrolled b).getRow p) ((unrolled b').getRow p) := by
  obtain ⟨y, hy, rfl⟩ := exists_rowOffset hp
  have hoffset : b'.rowOffset y = b.rowOffset y := by rw [h.same]; rfl
  have hpos : 0 < b'.height := by rw [h.same]; exact (by omega : 0 < b.height)
  rw [← getRow_eq_unrolled (by omega) y, ← hoffset, ← getRow_eq_unrolled hpos y]
  exact h.rows y hy

lemma MarksCleared.content (h : MarksCleared b b' newFirstRow) (hb : Content b) : Content b' := by
  have hheight : b'.height = b.height := by rw [h.same]
  have hwidth : b'.width = b.width := by rw [h.same]
  refine .of_rows fun y hy => ?_
  rw [hheight] at hy
  obtain ⟨hrow, hlength⟩ := h.rows y hy
  obtain ⟨gs, hgs⟩ := hb.rows y hy
  rw [hlength, hrow, hwidth]
  exact ⟨gs, hgs.congr rfl rfl rfl, hb.columns y hy, hb.attributes y hy⟩

/-- The cells and the columns that can be read are those of before. -/
lemma MarksCleared.reads (h : MarksCleared b b' newFirstRow) (hp : p < b.height) :
    (∀ x, (unrolled b').cell x p = (unrolled b).cell x p) ∧
      ((unrolled b').getRow p).getReadableColumnCount = ((unrolled b).getRow p).getReadableColumnCount := by
  obtain ⟨hrow, -⟩ := h.onlyMarks hp
  constructor
  · intro x
    unfold TextBuffer.cell
    rw [hrow]
    rfl
  · rw [hrow]
    rfl

lemma MarksCleared.strip_eq (h : MarksCleared b b' newFirstRow) (hp : p < b.height) :
    strip (unrolled b') p = strip (unrolled b) p := by
  have hwidth : (unrolled b').width = (unrolled b).width := by rw [h.same]; rfl
  funext x
  unfold strip
  rw [(h.reads hp).1 x, hwidth]

lemma MarksCleared.copyComplete_iff (h : MarksCleared b b' newFirstRow) (hp : p < b.height) (hv : v < b.height) :
    CopyComplete (unrolled b') p v ↔ CopyComplete (unrolled b) p v := by
  have hwidth : (unrolled b').width = (unrolled b).width := by rw [h.same]; rfl
  unfold CopyComplete
  simp only [(h.reads hp).1, (h.reads hv).1, (h.reads hv).2, hwidth]

lemma MarksCleared.copyFits_iff (h : MarksCleared b b' newFirstRow) (hp : p < b.height) (hv : v < b.height) :
    CopyFits (unrolled b') p v ↔ CopyFits (unrolled b) p v := by
  have hwidth : (unrolled b').width = (unrolled b).width := by rw [h.same]; rfl
  unfold CopyFits
  rw [h.strip_eq hp, h.strip_eq hv, (h.reads hv).2, hwidth]

end Unrolled

/-! ### Moving the rows -/

section Moving

variable {b b' : TextBuffer α}

lemma copyRow_fields {u v : ℤ} (h : b.copyRow u v = .ok b') : b' = { b with rows := b'.rows } := by
  unfold TextBuffer.copyRow at h
  split at h
  · cases h
    rfl
  · obtain ⟨r, -, hok⟩ := ok_of_bind h
    cases hok
    rfl

/-- A row index counts from the start again behind the last row. -/
lemma copyRow_sub_height (u v : ℤ) : b.copyRow (u - b.height) v = b.copyRow u v := by
  unfold TextBuffer.copyRow TextBuffer.getRowByOffset
  rw [Int.sub_emod_right]

lemma scrollRowsFrom_sub_height (delta : ℤ) (rest : ℕ) (y : ℤ) :
    TextBuffer.scrollRowsFrom delta 1 rest y b = TextBuffer.scrollRowsFrom (delta + b.height) 1 rest (y - b.height) b := by
  induction rest generalizing y b with
  | zero => rfl
  | succ rest ih =>
    unfold TextBuffer.scrollRowsFrom
    rw [copyRow_sub_height, show y - (b.height : ℤ) + (delta + b.height) = y + delta by omega]
    cases hcopy : b.copyRow y (y + delta) with
    | error e => rfl
    | ok c =>
      have hheight : c.height = b.height := by rw [copyRow_fields hcopy]
      show TextBuffer.scrollRowsFrom delta 1 rest (y + 1) c =
        TextBuffer.scrollRowsFrom (delta + b.height) 1 rest (y - b.height + 1) c
      rw [ih (y := y + 1), hheight, show y + 1 - (b.height : ℤ) = y - b.height + 1 by omega]

lemma scrollRowsFrom_zero (rest : ℕ) (y : ℤ) : TextBuffer.scrollRowsFrom 0 1 rest y b = .ok b := by
  induction rest generalizing y with
  | zero => rfl
  | succ rest ih =>
    have hself : b.copyRow y (y + 0) = .ok b := by
      unfold TextBuffer.copyRow
      rw [Int.add_zero, if_pos rfl]
    unfold TextBuffer.scrollRowsFrom
    rw [hself]
    exact ih (y + 1)

/-- The distance of the move is that of the place in the memory. -/
lemma scrollRows_start {first newFirstRow rowsToKeep : ℕ} (hfirst : first < b.height)
    (hnew : 1 ≤ newFirstRow) (hnew' : newFirstRow < b.height) :
    b.scrollRows (first + newFirstRow : ℕ) rowsToKeep (-((first + newFirstRow : ℕ) : ℤ)) =
      TextBuffer.scrollRowsFrom (-(((first + newFirstRow) % b.height : ℕ) : ℤ)) 1 rowsToKeep
        ((first + newFirstRow) % b.height : ℕ) b := by
  unfold TextBuffer.scrollRows
  rw [if_neg (by omega)]
  dsimp only
  rw [if_pos (by omega), show (max 0 (rowsToKeep : ℤ)).toNat = rowsToKeep by omega]
  rcases Nat.lt_or_ge (first + newFirstRow) b.height with hlt | hge
  · rw [Nat.mod_eq_of_lt hlt]
  · have hmod : (first + newFirstRow) % b.height = first + newFirstRow - b.height := by
      rw [Nat.mod_eq_sub_mod hge, Nat.mod_eq_of_lt (by omega)]
    rw [scrollRowsFrom_sub_height, hmod, Nat.cast_sub hge]
    congr 1
    omega

/-- **The rows that are kept, where they lie one behind the other.** -/
lemma scrollRowsFrom_start (hb : Content b) {start rowsToKeep : ℕ} (hroom : start + rowsToKeep ≤ b.height)
    (hfits : start ≠ 0 → ∀ i < rowsToKeep, CopyFits b i (start + i)) :
    ∃ b', TextBuffer.scrollRowsFrom (-(start : ℤ)) 1 rowsToKeep start b = .ok b' ∧ b' = { b with rows := b'.rows } ∧
      (∀ i < rowsToKeep, SameRow b (start + i) b' i ↔ (start ≠ 0 → CopyComplete b i (start + i))) ∧
      ∀ z < b.height, rowsToKeep ≤ z → b'.getRow z = b.getRow z := by
  by_cases hzero : start = 0
  · subst hzero
    refine ⟨b, scrollRowsFrom_zero _ _, rfl, fun i _ => ?_, fun z _ _ => rfl⟩
    rw [Nat.zero_add]
    exact iff_of_true ⟨⟨fun _ _ => rfl, fun _ _ => rfl, rfl⟩, rfl⟩ fun h => absurd rfl h
  have hrow : ∀ i, ∃ r : Row α, i < rowsToKeep → (b.getRow i).copyFrom (b.getRow (start + i)) = .ok r ∧
      Copied b i (start + i) r := by
    intro i
    rcases Nat.lt_or_ge i rowsToKeep with hi | hi
    · obtain ⟨r, hr⟩ := (hfits hzero i hi).copyFrom hb (by omega) (by omega)
      exact ⟨r, fun _ => hr⟩
    · exact ⟨b.getRow i, fun h => by omega⟩
  choose rows hrows using hrow
  obtain ⟨b', hok, hsame, hresult⟩ := @TextBuffer.scrollRowsFrom_rows _ b (-(start : ℤ)) 1 start
    rowsToKeep rows (.inl ⟨rfl, by omega⟩) (fun i hi => by omega) (fun i hi => by omega)
    (fun z _ v _ hzv _ _ => by
      obtain rfl : v = start + z := by omega
      exact (hrows z (by omega)).1)
  refine ⟨b', hok, hsame, fun i hi => ?_, fun z hz hbehind => (hresult z hz).2 (by omega)⟩
  have hcopied : Copied b i (start + i) (b'.getRow i) := by
    rw [(hresult i (by omega)).1 (start + i) (by omega) (by omega) (by omega) (by omega)]
    exact (hrows i hi).2
  rw [hcopied.sameRow_iff hb (by omega) (by omega)]
  exact ⟨fun h _ => h, fun h => h hzero⟩

/-- The rows that are moved beyond the last row of the memory come from those that have been written. -/
lemma scrollRowsFrom_wrapped {start rest i₀ : ℕ} (hstart : 0 < start ∧ start < b.height) (hroom : i₀ + rest ≤ b.height)
    (hok : TextBuffer.scrollRowsFrom (-(start : ℤ)) 1 rest (start + i₀ : ℕ) b = .ok b') :
    b' = { b with rows := b'.rows } ∧
      (∀ z < b.height, ¬(i₀ ≤ z ∧ z < i₀ + rest) → b'.getRow z = b.getRow z) ∧
      ∀ i p, i₀ ≤ i → i < i₀ + rest → start + i = b.height + p →
        (b.getRow i).copyFrom (b'.getRow p) = .ok (b'.getRow i) := by
  induction rest generalizing i₀ b with
  | zero =>
    cases hok
    exact ⟨rfl, fun z _ _ => rfl, fun i p hlo hhi _ => by omega⟩
  | succ rest ih =>
    have hplace : ∃ u < b.height, ((start + i₀ : ℕ) : ℤ) % b.height = (u : ℕ) ∧ u ≠ i₀ ∧
        ∀ p, start + i₀ = b.height + p → u = p := by
      refine ⟨(start + i₀) % b.height, Nat.mod_lt _ (by omega), (Int.natCast_emod _ _).symm, ?_, ?_⟩
      · rcases Nat.lt_or_ge (start + i₀) b.height with hlt | hge
        · rw [Nat.mod_eq_of_lt hlt]
          omega
        · rw [Nat.mod_eq_sub_mod hge, Nat.mod_eq_of_lt (by omega)]
          omega
      · intro p hp
        rw [hp, Nat.add_mod_left, Nat.mod_eq_of_lt (by omega)]
    obtain ⟨u, hu, hmod, hne, hwrapped⟩ := hplace
    have hcopy : b.copyRow ((start + i₀ : ℕ) : ℤ) (((start + i₀ : ℕ) : ℤ) + -(start : ℤ)) = b.copyRow u i₀ := by
      have hself : (u : ℤ) % b.height = u := Int.emod_eq_of_lt (by omega) (by omega)
      rw [show ((start + i₀ : ℕ) : ℤ) + -(start : ℤ) = (i₀ : ℕ) by omega]
      unfold TextBuffer.copyRow TextBuffer.getRowByOffset
      rw [hmod, hself]
    unfold TextBuffer.scrollRowsFrom at hok
    rw [hcopy, TextBuffer.copyRow_eq hu (by omega) hne] at hok
    cases hrow : (b.getRow i₀).copyFrom (b.getRow u) with
    | error e =>
      rw [hrow] at hok
      cases hok
    | ok r =>
      rw [hrow] at hok
      obtain ⟨hsame, hkept, hcopied⟩ := @ih (b.setRow i₀ r) (i₀ + 1) hstart
        (show i₀ + 1 + rest ≤ b.height by omega)
        (by rw [show ((start + (i₀ + 1) : ℕ) : ℤ) = ((start + i₀ : ℕ) : ℤ) + 1 by omega]; exact hok)
      have hother : ∀ z < b.height, z ≠ i₀ → (b.setRow i₀ r).getRow z = b.getRow z := fun z hz hzi =>
        TextBuffer.getRow_setRow_of_ne (by omega) hz hzi r
      refine ⟨hsame, fun z hz hout => ?_, fun i p hlo hhi hp => ?_⟩
      · rw [hkept z hz (by omega), hother z hz (by omega)]
      · rcases eq_or_ne i i₀ with rfl | hi
        · obtain rfl := hwrapped p hp
          rw [hkept u hu (by omega), hother u hu hne, hkept i (show i < b.height by omega) (by omega),
            TextBuffer.getRow_setRow_self]
          exact hrow
        · have hrest := hcopied i p (by omega) (by omega) hp
          rwa [hother i (by omega) hi] at hrest

end Moving

/-! ### The rows behind -/

section Clearing

variable {m : Memory α} (clearMark : α → α) {newFirstRow rowsToKeep : ℕ}

/-- The buffer before its rows are moved. -/
def marksCleared (m : Memory α) (clearMark : α → α) (newFirstRow : ℕ) : Memory α :=
  m.clearMarksInRange clearMark 0 (max 0 ((newFirstRow : ℤ) - 1))

lemma marksCleared_spec (hm : m.Bounded) (hnew : 1 ≤ newFirstRow) (hheight : newFirstRow ≤ m.buffer.height) :
    (marksCleared m clearMark newFirstRow).Bounded ∧
      MarksCleared m.buffer (marksCleared m clearMark newFirstRow).buffer newFirstRow :=
  clearMarksInRange_spec hm clearMark hnew hheight

/-- The memory behind the moved rows, before the other rows are reset. -/
def moved (m : Memory α) (clearMark : α → α) (newFirstRow rowsToKeep : ℕ) (buffer : TextBuffer α) : Memory α :=
  let m := marksCleared m clearMark newFirstRow
  let start : ℤ := (m.buffer.firstRow + newFirstRow : ℕ)
  { Memory.touchRows (-start) 1 rowsToKeep start { m with buffer := unrolled m.buffer } with buffer }

def resetBehind (m : Memory α) (rowsToKeep : ℕ) : Memory α :=
  Memory.changeRows (fun row => row.reset m.buffer.initialAttributes)
    ((m.estimateOffsetOfLastCommittedRow : ℤ) + 1 - rowsToKeep).toNat rowsToKeep m

lemma clearScrollback_eq (hnew : 1 ≤ newFirstRow) (hkeep : 1 ≤ rowsToKeep) :
    m.clearScrollback clearMark newFirstRow rowsToKeep =
      ((unrolled (marksCleared m clearMark newFirstRow).buffer).scrollRows
          ((marksCleared m clearMark newFirstRow).buffer.firstRow + newFirstRow : ℕ) rowsToKeep
          (-(((marksCleared m clearMark newFirstRow).buffer.firstRow + newFirstRow : ℕ) : ℤ))).map
        fun b => resetBehind (moved m clearMark newFirstRow rowsToKeep b) rowsToKeep := by
  unfold Memory.clearScrollback
  rw [if_neg (by omega), if_neg (by omega)]
  show (Memory.scrollRows { marksCleared m clearMark newFirstRow with
      buffer := unrolled (marksCleared m clearMark newFirstRow).buffer }
    ((marksCleared m clearMark newFirstRow).buffer.firstRow + newFirstRow : ℤ) rowsToKeep
    (-((marksCleared m clearMark newFirstRow).buffer.firstRow + newFirstRow : ℤ))).bind _ = _
  rw [← Nat.cast_add]
  generalize hstart : (marksCleared m clearMark newFirstRow).buffer.firstRow + newFirstRow = start
  unfold Memory.scrollRows moved
  dsimp only
  rw [hstart, if_neg (by omega), if_pos (by omega), show (max 0 (rowsToKeep : ℤ)).toNat = rowsToKeep by omega]
  cases (unrolled (marksCleared m clearMark newFirstRow).buffer).scrollRows start rowsToKeep (-(start : ℤ)) <;> rfl

/-- The rows that are kept stay, and those behind them are reset. -/
lemma resetBehind_spec {m : Memory α} (hm : m.Bounded) (hkeep : 1 ≤ rowsToKeep) (hfirst : m.buffer.firstRow = 0)
    (hheight : rowsToKeep ≤ m.buffer.height)
    (hcolumns : ∀ y < m.buffer.height, rowsToKeep ≤ y → (m.buffer.getRow y).columnCount = m.buffer.width) :
    (∀ i < rowsToKeep, (resetBehind m rowsToKeep).buffer.getRow i = m.buffer.getRow i) ∧
      (∀ y, rowsToKeep ≤ y → y + 1 < (resetBehind m rowsToKeep).committed →
        (resetBehind m rowsToKeep).buffer.getRow y = Row.create m.buffer.width m.buffer.initialAttributes) := by
  unfold Memory.Bounded at hm
  unfold resetBehind
  generalize hrest : ((m.estimateOffsetOfLastCommittedRow : ℤ) + 1 - rowsToKeep).toNat = rest
  unfold Memory.estimateOffsetOfLastCommittedRow at hrest
  have hroom : rowsToKeep + rest ≤ m.buffer.height := by omega
  obtain ⟨-, -, hrows⟩ := @Memory.changeRows_spec _ m (fun row => row.reset m.buffer.initialAttributes)
    rowsToKeep rest hm hroom
  have hcommitted := @Memory.changeRows_committed _ m (fun row => row.reset m.buffer.initialAttributes)
    rowsToKeep rest hfirst hroom (by omega)
  refine ⟨fun i hi => ?_, fun y hy hbelow => ?_⟩
  · rw [hrows i (by omega), if_neg (by omega)]
  · rw [hcommitted] at hbelow
    rw [hrows y (by omega), if_pos (by omega)]
    exact Row.reset_eq_create (hcolumns y (by omega) hy) _

/-- What is left to show of the moved rows. -/
lemma scrollbackCleared_iff (hcontent : Content m.buffer) (hm : m.Bounded) (hnew : 1 ≤ newFirstRow) (hkeep : 1 ≤ rowsToKeep)
    (hroom : newFirstRow + rowsToKeep ≤ m.buffer.height) {b : TextBuffer α}
    (hsame : b = { unrolled (marksCleared m clearMark newFirstRow).buffer with rows := b.rows })
    (hbehind : ∀ z < m.buffer.height, rowsToKeep ≤ z →
      b.getRow z = (unrolled (marksCleared m clearMark newFirstRow).buffer).getRow z) :
    ScrollbackCleared m (resetBehind (moved m clearMark newFirstRow rowsToKeep b) rowsToKeep) newFirstRow rowsToKeep ↔
      ∀ i < rowsToKeep, SameRow m.buffer (newFirstRow + i) b i := by
  obtain ⟨hbounded, hmarks⟩ := marksCleared_spec clearMark hm hnew (by omega)
  have hheight : b.height = m.buffer.height := by
    rw [hsame]
    show (marksCleared m clearMark newFirstRow).buffer.height = _
    rw [hmarks.same]
  have hwidth : b.width = m.buffer.width := by
    rw [hsame]
    show (marksCleared m clearMark newFirstRow).buffer.width = _
    rw [hmarks.same]
  have hattributes : b.initialAttributes = m.buffer.initialAttributes := by
    rw [hsame]
    show (marksCleared m clearMark newFirstRow).buffer.initialAttributes = _
    rw [hmarks.same]
  have hmoved : (moved m clearMark newFirstRow rowsToKeep b).Bounded := by
    have htouched := @Memory.touchRows_bounded _ { marksCleared m clearMark newFirstRow with
        buffer := unrolled (marksCleared m clearMark newFirstRow).buffer }
      (-(((marksCleared m clearMark newFirstRow).buffer.firstRow + newFirstRow : ℕ) : ℤ)) 1
      ((marksCleared m clearMark newFirstRow).buffer.firstRow + newFirstRow : ℕ) rowsToKeep hbounded
    have hle := htouched.1
    unfold Memory.Bounded at hle ⊢
    rw [htouched.2] at hle
    show _ ≤ b.height + 1
    rw [hsame]
    exact hle
  have hrows := (hmarks.content hcontent).unrolled
  obtain ⟨hkept, hblank⟩ := resetBehind_spec hmoved hkeep (show b.firstRow = 0 by rw [hsame]; rfl)
    (show rowsToKeep ≤ b.height by omega) (fun y hy hbelow => by
      show (b.getRow y).columnCount = b.width
      have hy' : y < m.buffer.height := hheight ▸ hy
      rw [hbehind y hy' hbelow, hrows.columns y (by rw [hmarks.same]; exact hy'), hsame])
  have hrow : ∀ i < rowsToKeep,
      (SameRow m.buffer (newFirstRow + i) (resetBehind (moved m clearMark newFirstRow rowsToKeep b) rowsToKeep).buffer i ↔
        SameRow m.buffer (newFirstRow + i) b i) := fun i hi => sameRow_congr rfl rfl (hkept i hi)
  constructor
  · intro hcleared i hi
    exact (hrow i hi).mp (hcleared.kept i hi)
  · intro hkeeps
    refine ⟨fun i hi => (hrow i hi).mpr (hkeeps i hi), fun y hy hbelow => ?_⟩
    rw [hblank y hy hbelow]
    show Row.create b.width b.initialAttributes = _
    rw [hwidth, hattributes]

/-- **The rows that are kept, where they lie one behind the other.** -/
lemma clearScrollback_contiguous (hcontent : Content m.buffer) (hm : m.Bounded)
    (hfirst : m.buffer.firstRow < m.buffer.height) (hnew : 1 ≤ newFirstRow) (hkeep : 1 ≤ rowsToKeep)
    (hroom : newFirstRow + rowsToKeep ≤ m.buffer.height) (hcontiguous : Contiguous m.buffer newFirstRow rowsToKeep)
    (hfits : KeptFits m.buffer newFirstRow rowsToKeep) :
    ∃ m', m.clearScrollback clearMark newFirstRow rowsToKeep = .ok m' ∧
      (ScrollbackCleared m m' newFirstRow rowsToKeep ↔ KeptWhole m.buffer newFirstRow rowsToKeep) := by
  obtain ⟨hbounded, hmarks⟩ := marksCleared_spec clearMark hm hnew (by omega)
  rw [clearScrollback_eq clearMark hnew hkeep]
  have hiff := fun b => scrollbackCleared_iff clearMark hcontent hm hnew hkeep hroom (b := b)
  generalize (marksCleared m clearMark newFirstRow).buffer = c at hmarks hiff ⊢
  have hheight : c.height = m.buffer.height := by rw [hmarks.same]
  have hfirstRow : c.firstRow = m.buffer.firstRow := by rw [hmarks.same]
  have hstart : (c.firstRow + newFirstRow) % c.height = m.buffer.rowOffset newFirstRow := by
    rw [hheight, hfirstRow]
    rfl
  unfold Contiguous at hcontiguous
  have hscroll := @scrollRows_start _ (unrolled c) c.firstRow newFirstRow rowsToKeep
    (show c.firstRow < c.height by omega) hnew (show newFirstRow < c.height by omega)
  rw [show (unrolled c).height = c.height from rfl, hstart] at hscroll
  obtain ⟨b, hok, hsame, hkept, hbehind⟩ := @scrollRowsFrom_start _ (unrolled c)
    (hmarks.content hcontent).unrolled (m.buffer.rowOffset newFirstRow) rowsToKeep
    (show m.buffer.rowOffset newFirstRow + rowsToKeep ≤ c.height by omega)
    (fun hne i hi => (hmarks.copyFits_iff (by omega) (by omega)).mpr (hfits hne i hi))
  rw [hscroll, hok]
  refine ⟨_, rfl, (hiff b hsame fun z hz hle => hbehind z (show z < c.height by omega) hle).trans ?_⟩
  have hrow : ∀ i < rowsToKeep, (SameRow m.buffer (newFirstRow + i) b i ↔ (m.buffer.rowOffset newFirstRow ≠ 0 →
      CopyComplete (unrolled m.buffer) i (m.buffer.rowOffset newFirstRow + i))) := by
    intro i hi
    have hplace : m.buffer.getRow (newFirstRow + i) =
        (unrolled c).getRow (m.buffer.rowOffset newFirstRow + i) := by
      rw [← hmarks.below (newFirstRow + i) (by omega) (by omega), getRow_eq_unrolled (by omega) (newFirstRow + i)]
      congr 1
      unfold TextBuffer.rowOffset at hcontiguous ⊢
      rw [hheight, hfirstRow, ← Nat.add_assoc, ← Nat.mod_add_mod, Nat.mod_eq_of_lt (by omega)]
    rw [sameRow_congr (c := unrolled c) (by rw [hmarks.same]; rfl) hplace rfl, hkept i hi]
    exact imp_congr_right fun _ => hmarks.copyComplete_iff (by omega) (by omega)
  constructor
  · intro hkeeps hne i hi
    exact (hrow i hi).mp (hkeeps i hi) hne
  · intro hwhole i hi
    exact (hrow i hi).mpr fun hne => hwhole hne i hi

lemma getElem?_resizeTrailingExtent {attr : List α} {size x : ℕ} (hx : x < size) (hlength : x < attr.length) :
    (resizeTrailingExtent attr size)[x]? = attr[x]? := by
  unfold resizeTrailingExtent
  split
  next hnone =>
    rw [List.getLast?_eq_none_iff.mp hnone]
  next =>
    rw [List.getElem?_append_left (by rw [List.length_take]; omega), List.getElem?_take_of_lt hx]

/-- The rows `u` and `v` have the same attributes and the same flags. -/
structure Alike (b : TextBuffer α) (u v : ℕ) : Prop where
  attributes : ∀ x < b.width, b.attributes x u = b.attributes x v
  lineRendition : (b.getRow u).lineRendition = (b.getRow v).lineRendition
  wrapForced : (b.getRow u).wrapForced = (b.getRow v).wrapForced

/-- **A row that has been overwritten before it is copied** is kept only if it is like the row written over it. -/
lemma clearScrollback_wrapped (hcontent : Content m.buffer) (hm : m.Bounded) (hfirst : m.buffer.firstRow < m.buffer.height)
    (hnew : 1 ≤ newFirstRow) (hkeep : 1 ≤ rowsToKeep) (hroom : newFirstRow + rowsToKeep ≤ m.buffer.height)
    (hwraps : ¬Contiguous m.buffer newFirstRow rowsToKeep) {m' : Memory α}
    (hok : m.clearScrollback clearMark newFirstRow rowsToKeep = .ok m')
    (hcleared : ScrollbackCleared m m' newFirstRow rowsToKeep) {i p : ℕ} (hi : i < rowsToKeep)
    (hp : m.buffer.rowOffset newFirstRow + i = m.buffer.height + p) :
    Alike m.buffer (newFirstRow + i) (newFirstRow + p) := by
  obtain ⟨-, hmarks⟩ := marksCleared_spec clearMark hm hnew (by omega)
  rw [clearScrollback_eq clearMark hnew hkeep] at hok
  have hiff := fun b => scrollbackCleared_iff clearMark hcontent hm hnew hkeep hroom (b := b)
  generalize (marksCleared m clearMark newFirstRow).buffer = c at hmarks hiff hok
  have hheight : c.height = m.buffer.height := by rw [hmarks.same]
  have hwidth : c.width = m.buffer.width := by rw [hmarks.same]
  have hfirstRow : c.firstRow = m.buffer.firstRow := by rw [hmarks.same]
  unfold Contiguous at hwraps
  -- the rows begin in front of the last row of the memory
  have hstart : m.buffer.rowOffset newFirstRow = m.buffer.firstRow + newFirstRow := by
    rcases Nat.lt_or_ge (m.buffer.firstRow + newFirstRow) m.buffer.height with hlt | hge
    · exact Nat.mod_eq_of_lt hlt
    · have hmod : m.buffer.rowOffset newFirstRow = m.buffer.firstRow + newFirstRow - m.buffer.height := by
        unfold TextBuffer.rowOffset
        rw [Nat.mod_eq_sub_mod hge, Nat.mod_eq_of_lt (by omega)]
      omega
  have hlt : m.buffer.rowOffset newFirstRow < m.buffer.height := rowOffset_lt (by omega) newFirstRow
  obtain ⟨b, hscroll, rfl⟩ : ∃ b, (unrolled c).scrollRows (c.firstRow + newFirstRow : ℕ) rowsToKeep
      (-((c.firstRow + newFirstRow : ℕ) : ℤ)) = .ok b ∧ m' = resetBehind (moved m clearMark newFirstRow rowsToKeep b) rowsToKeep := by
    cases hscroll : (unrolled c).scrollRows (c.firstRow + newFirstRow : ℕ) rowsToKeep
        (-((c.firstRow + newFirstRow : ℕ) : ℤ)) with
    | error e =>
      rw [hscroll] at hok
      cases hok
    | ok b =>
      rw [hscroll] at hok
      exact ⟨b, rfl, (Except.ok.inj hok).symm⟩
  rw [@scrollRows_start _ (unrolled c) c.firstRow newFirstRow rowsToKeep (show c.firstRow < c.height by omega) hnew
      (show newFirstRow < c.height by omega),
    show (c.firstRow + newFirstRow) % (unrolled c).height = m.buffer.rowOffset newFirstRow by
      rw [show (unrolled c).height = m.buffer.height from hheight, hfirstRow]; rfl] at hscroll
  obtain ⟨hsame, hkept, hwrapped⟩ := @scrollRowsFrom_wrapped _ (unrolled c) b
    (m.buffer.rowOffset newFirstRow) rowsToKeep 0 ⟨by omega, show _ < c.height by omega⟩
    (show 0 + rowsToKeep ≤ c.height by omega) hscroll
  have hshows := (hiff b hsame fun z hz hle => hkept z (show z < c.height by omega) (by omega)).mp hcleared
  have hi' := hshows i hi
  have hp' := hshows p (by omega)
  have hcopied := copyFrom_kept (hwrapped i p (Nat.zero_le i) (by omega)
    (show _ = c.height + p by omega))
  have hcolumns : ((unrolled c).getRow i).columnCount = m.buffer.width := by
    rw [(hmarks.content hcontent).unrolled.columns i (show i < c.height by omega)]
    exact hwidth
  rw [hcolumns] at hcopied
  refine ⟨fun x hx => ?_, ?_, ?_⟩
  · have hlength : x < (b.getRow p).attr.length := by
      have hsome := hp'.attributes x hx
      unfold TextBuffer.attributes at hsome
      rw [List.getElem?_eq_getElem (l := (m.buffer.getRow (newFirstRow + p)).attr)
        (by rw [hcontent.attributes _ (by omega)]; exact hx)] at hsome
      exact (List.getElem?_eq_some_iff.mp hsome).1
    rw [← hi'.attributes x hx, ← hp'.attributes x hx]
    unfold TextBuffer.attributes
    rw [hcopied]
    exact getElem?_resizeTrailingExtent hx hlength
  · rw [← hi'.lineRendition, ← hp'.lineRendition, hcopied]
  · rw [← hi'.wrapForced, ← hp'.wrapForced, hcopied]

/-- **When the rows are kept.** -/
theorem clearScrollback_keeps_iff (hcontent : Content m.buffer) (hm : m.Bounded)
    (hfirst : m.buffer.firstRow < m.buffer.height) (hnew : 1 ≤ newFirstRow) (hkeep : 1 ≤ rowsToKeep)
    (hroom : newFirstRow + rowsToKeep ≤ m.buffer.height) :
    (Contiguous m.buffer newFirstRow rowsToKeep → KeptWhole m.buffer newFirstRow rowsToKeep →
      ∃ m', m.clearScrollback clearMark newFirstRow rowsToKeep = .ok m' ∧
        ScrollbackCleared m m' newFirstRow rowsToKeep) ∧
    (Contiguous m.buffer newFirstRow rowsToKeep → KeptFits m.buffer newFirstRow rowsToKeep →
      ∃ m', m.clearScrollback clearMark newFirstRow rowsToKeep = .ok m' ∧
        (ScrollbackCleared m m' newFirstRow rowsToKeep ↔ KeptWhole m.buffer newFirstRow rowsToKeep)) ∧
    (¬Contiguous m.buffer newFirstRow rowsToKeep →
      ∀ m', m.clearScrollback clearMark newFirstRow rowsToKeep = .ok m' →
        ScrollbackCleared m m' newFirstRow rowsToKeep →
        ∀ i p, i < rowsToKeep → m.buffer.rowOffset newFirstRow + i = m.buffer.height + p →
          Alike m.buffer (newFirstRow + i) (newFirstRow + p)) := by
  refine ⟨fun hcontiguous hwhole => ?_, clearScrollback_contiguous clearMark hcontent hm hfirst hnew hkeep hroom, ?_⟩
  · have hfits : KeptFits m.buffer newFirstRow rowsToKeep := fun hne i hi =>
      (hwhole hne i hi).fits hcontent.unrolled (show i < m.buffer.height by omega)
        (show m.buffer.rowOffset newFirstRow + i < m.buffer.height by unfold Contiguous at hcontiguous; omega)
    obtain ⟨m', hok, hiff⟩ := clearScrollback_contiguous clearMark hcontent hm hfirst hnew hkeep hroom hcontiguous hfits
    exact ⟨m', hok, hiff.mpr hwhole⟩
  · intro hwraps m' hok hcleared i p hi hp
    exact clearScrollback_wrapped clearMark hcontent hm hfirst hnew hkeep hroom hwraps hok hcleared hi hp

end Clearing

/-! ### A row that is overwritten too early -/

/-- The wide character goes to the first row. -/
theorem clearScrollback_keeps_iff_twoRows : ∃ m', (⟨twoRows, 3⟩ : Memory ℕ).clearScrollback id 1 1 = .ok m' ∧
    ScrollbackCleared ⟨twoRows, 3⟩ m' 1 1 := by
  have hbounded : 3 ≤ 2 + 1 := by decide
  have hcontiguous : twoRows.rowOffset 1 + 1 ≤ 2 := by decide
  refine (@clearScrollback_keeps_iff _ ⟨twoRows, 3⟩ id 1 1 twoRows_content hbounded (by decide) (by decide)
    (by decide) (by decide)).1 hcontiguous ?_
  intro _ i hi
  obtain rfl : i = 0 := by omega
  unfold CopyComplete
  decide

/-- Three rows whose first one is the second one of the memory. -/
def turned : TextBuffer ℕ where
  rows y := if y = 2 then letterWide else letters
  width := 4
  height := 3
  firstRow := 1
  initialAttributes := 0
  cursorX := 0
  cursorY := 0

lemma turned_content : Content turned := by
  have hrows : ∀ y, turned.getRow y = letters ∨ turned.getRow y = letterWide := by
    intro y
    show (if turned.rowOffset y = 2 then letterWide else letters) = letters ∨ _
    unfold TextBuffer.getRow
    rcases Decidable.em (turned.rowOffset y = 2) with h | h
    · exact .inr (if_pos h)
    · exact .inl (if_neg h)
  refine .of_rows fun y _ => ?_
  rcases hrows y with h | h <;> rw [h]
  · exact ⟨_, letters_holds, rfl, rfl⟩
  · exact ⟨_, letterWide_holds, rfl, rfl⟩

/-- The last row is lost; the row above it takes its place, too. -/
theorem clearScrollback_loses_row : ¬∀ (m : Memory ℕ) (newFirstRow rowsToKeep : ℕ), Content m.buffer → m.Bounded →
    m.buffer.firstRow < m.buffer.height → 1 ≤ newFirstRow → 1 ≤ rowsToKeep →
    newFirstRow + rowsToKeep ≤ m.buffer.height →
    ∃ m', m.clearScrollback id newFirstRow rowsToKeep = .ok m' ∧ ScrollbackCleared m m' newFirstRow rowsToKeep := by
  intro h
  have hbounded : 4 ≤ 3 + 1 := by decide
  obtain ⟨m', hok, hcleared⟩ := h ⟨turned, 4⟩ 1 2 turned_content hbounded (by decide) (by decide) (by decide) (by decide)
  have hcell : ((⟨turned, 4⟩ : Memory ℕ).clearScrollback id (1 : ℕ) (2 : ℕ)).toOption.map (fun m => m.buffer.cell 1 1) =
      some ⟨[0x4e2d], .leading⟩ := by
    decide
  rw [hok] at hcell
  have hafter : m'.buffer.cell 1 1 = ⟨[0x4e2d], .leading⟩ := Option.some.inj hcell
  have hsame := (hcleared.kept 1 (by decide)).cells 1 (by decide)
  rw [hafter] at hsame
  exact absurd hsame (by decide)

end VT7.Adapter
