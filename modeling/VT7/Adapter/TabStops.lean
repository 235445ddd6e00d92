import VT7.Adapter.Margins
import VT7.Lib.Run
import VT7.Lib.Stops

/-!
# Tab stops

The table of tab stops grows when a column is looked up and gets its default stops only then.  It is compared with a
table for all columns.
-/

namespace VT7.Adapter

open VT7.Lib.Stops

/-! ### The dispatch functions -/

/-- `Cursor`: the position and where the end of a line was marked. -/
structure TabCursor where
  x : ℤ
  y : ℕ
  delayEOLWrap : Option (ℤ × ℕ)
deriving DecidableEq

namespace TabCursor

def setXPosition (c : TabCursor) (newX : ℤ) : TabCursor := { c with x := newX, delayEOLWrap := none }

def markDelayEOLWrap (c : TabCursor) : TabCursor := { c with delayEOLWrap := some (c.x, c.y) }

end TabCursor

/-- What the tab functions of `AdaptDispatch` read and write. -/
structure TabDispatch where
  tabStopColumns : List Bool
  initDefaultTabStops : Bool
  scrollMargins : ScrollMargins
  page : PageFrame
  isDoubleWidthLine : ℕ → Bool
  cursor : TabCursor

inductive TabClearType
  | clearCurrentColumn
  | clearAllColumns
  | other
deriving DecidableEq

/-- `til::at`; `none` outside the table. -/
def lookup (tabStopColumns : List Bool) (column : ℤ) : Option Bool :=
  if 0 ≤ column then tabStopColumns[column.toNat]? else none

/-- The loop of `_InitTabStopsForWidth`, from `column` on. -/
def initLoop (initialWidth : ℕ) (tabStopColumns : List Bool) (column : ℕ) : List Bool :=
  if column < tabStopColumns.length then
    if column ≥ initialWidth then initLoop initialWidth (tabStopColumns.set column true) (column + 8)
    else initLoop initialWidth tabStopColumns (column + 8)
  else tabStopColumns
termination_by tabStopColumns.length - column
decreasing_by
  · rw [List.length_set]
    omega
  · omega

/-- The loop of `ForwardTab`; `none` where a column outside the table is looked up. -/
def forwardLoop (tabStopColumns : List Bool) (maxColumn : ℤ) (numTabs : ℕ) (column : ℤ) (tabsPerformed : ℕ) :
    Option ℤ :=
  if column < maxColumn ∧ tabsPerformed < numTabs then
    match lookup tabStopColumns (column + 1) with
    | none => none
    | some true => forwardLoop tabStopColumns maxColumn numTabs (column + 1) (tabsPerformed + 1)
    | some false => forwardLoop tabStopColumns maxColumn numTabs (column + 1) tabsPerformed
  else some column
termination_by (maxColumn - column).toNat

/-- The loop of `BackwardsTab`. -/
def backwardsLoop (tabStopColumns : List Bool) (minColumn : ℤ) (numTabs : ℕ) (column : ℤ) (tabsPerformed : ℕ) :
    Option ℤ :=
  if column > minColumn ∧ tabsPerformed < numTabs then
    match lookup tabStopColumns (column - 1) with
    | none => none
    | some true => backwardsLoop tabStopColumns minColumn numTabs (column - 1) (tabsPerformed + 1)
    | some false => backwardsLoop tabStopColumns minColumn numTabs (column - 1) tabsPerformed
  else some column
termination_by (column - minColumn).toNat

namespace TabDispatch

variable (d : TabDispatch)

def getLineWidth (row : ℕ) : ℕ := d.page.width >>> if d.isDoubleWidthLine row then 1 else 0

def initTabStopsForWidth (width : ℕ) : TabDispatch :=
  let initialWidth := d.tabStopColumns.length
  if width > initialWidth then
    let resized := d.tabStopColumns ++ List.replicate (width - initialWidth) false
    { d with tabStopColumns := if d.initDefaultTabStops then initLoop initialWidth resized 8 else resized }
  else d

/-- `_tabStopColumns.at(column) = stop`; `none` where it throws. -/
def setTabStop (column : ℤ) (stop : Bool) : Option TabDispatch :=
  if 0 ≤ column ∧ column < d.tabStopColumns.length then
    some { d with tabStopColumns := d.tabStopColumns.set column.toNat stop }
  else none

def horizontalTabSet : Option TabDispatch := (d.initTabStopsForWidth d.page.width).setTabStop d.cursor.x true

def clearSingleTabStop : Option TabDispatch := (d.initTabStopsForWidth d.page.width).setTabStop d.cursor.x false

def clearAllTabStops : TabDispatch := { d with tabStopColumns := [], initDefaultTabStops := false }

def tabClear : TabClearType → Option TabDispatch
  | .clearCurrentColumn => d.clearSingleTabStop
  | .clearAllColumns => some d.clearAllTabStops
  | .other => some d

/-- `DECST8C`, with `SetEvery8Columns` or without a parameter. -/
def tabSet : TabDispatch := { d with tabStopColumns := [], initDefaultTabStops := true }

/-- The margins that `ForwardTab` and `BackwardsTab` read, in this order. -/
def readMargins : ScrollMargins × ℕ × ℤ :=
  (d.scrollMargins.getVerticalMargins d.page true).1.getHorizontalMargins (d.getLineWidth d.cursor.y)

/-- Whether the cursor's line is between the vertical margins. -/
def betweenVerticalMargins : Bool :=
  let (topMargin, bottomMargin) := (d.scrollMargins.getVerticalMargins d.page true).2
  d.cursor.y ≥ topMargin && (d.cursor.y : ℤ) ≤ bottomMargin

def maxColumn : ℤ :=
  let rightMargin := d.readMargins.2.2
  let clampToMargin := d.betweenVerticalMargins && d.cursor.x ≤ rightMargin
  if clampToMargin then rightMargin else (d.getLineWidth d.cursor.y : ℤ) - 1

def minColumn : ℤ :=
  let leftMargin := d.readMargins.2.1
  let clampToMargin := d.betweenVerticalMargins && d.cursor.x ≥ leftMargin
  if clampToMargin then leftMargin else 0

/-- The dispatcher behind the margins and `_InitTabStopsForWidth`. -/
def readyForTabs : TabDispatch :=
  { d with scrollMargins := d.readMargins.1 }.initTabStopsForWidth (d.getLineWidth d.cursor.y)

def forwardTab (numTabs : ℕ) : Option TabDispatch :=
  let ready := d.readyForTabs
  (forwardLoop ready.tabStopColumns d.maxColumn numTabs d.cursor.x 0).map fun column =>
    let moved := d.cursor.setXPosition column
    -- The delayed wrap survives the move.
    { ready with cursor := if d.cursor.delayEOLWrap.isSome then moved.markDelayEOLWrap else moved }

def backwardsTab (numTabs : ℕ) : Option TabDispatch :=
  let ready := d.readyForTabs
  (backwardsLoop ready.tabStopColumns d.minColumn numTabs d.cursor.x 0).map fun column =>
    { ready with cursor := d.cursor.setXPosition column }

end TabDispatch

/-! ### The table for all columns -/

/-- Columns 8, 16, 24 and so on. -/
def every8 (column : ℕ) : Bool := decide (8 ≤ column ∧ column % 8 = 0)

/-- The stops among all columns; there are none in front of the first column. -/
def stopAt (stops : ℕ → Bool) (column : ℤ) : Bool := decide (0 ≤ column) && stops column.toNat

/-- The table stands for these stops; a column that it does not have yet is a default stop or none. -/
def TabDispatch.Represents (d : TabDispatch) (stops : ℕ → Bool) : Prop :=
  ∀ c, d.tabStopColumns.getD c (d.initDefaultTabStops && every8 c) = stops c

section loops
variable {tabStopColumns : List Bool} {stops : ℕ → Bool}

theorem length_initLoop (initialWidth : ℕ) (tabStopColumns : List Bool) (column : ℕ) :
    (initLoop initialWidth tabStopColumns column).length = tabStopColumns.length := by
  fun_induction initLoop initialWidth tabStopColumns column with
  | case1 columns column h hnew ih => rw [ih, List.length_set]
  | case2 columns column h hold ih => exact ih
  | case3 columns column h => rfl

theorem getElem?_initLoop (initialWidth : ℕ) (tabStopColumns : List Bool) (column c : ℕ) :
    (initLoop initialWidth tabStopColumns column)[c]? =
      if initialWidth ≤ c ∧ column ≤ c ∧ (c - column) % 8 = 0 ∧ c < tabStopColumns.length then some true
      else tabStopColumns[c]? := by
  fun_induction initLoop initialWidth tabStopColumns column with
  | case1 columns column h hnew ih =>
    rw [ih, List.length_set, List.getElem?_set]
    by_cases hc : c = column
    · subst hc
      simp [h, hnew]
    · rw [if_neg (Ne.symm hc)]
      refine if_congr ?_ rfl rfl
      omega
  | case2 columns column h hold ih =>
    rw [ih]
    refine if_congr ?_ rfl rfl
    omega
  | case3 columns column h =>
    rw [if_neg]
    omega

theorem lookup_eq (hstops : ∀ c < tabStopColumns.length, tabStopColumns[c]? = some (stops c)) {column : ℤ}
    (h : 0 ≤ column) (hcolumn : column < tabStopColumns.length) :
    lookup tabStopColumns column = some (stopAt stops column) := by
  unfold lookup stopAt
  rw [if_pos h, hstops _ (by omega), decide_eq_true h, Bool.true_and]

theorem lookup_front {column : ℤ} (h : column < 0) : lookup tabStopColumns column = none := if_neg (by omega)

theorem lookup_behind {column : ℤ} (h : tabStopColumns.length ≤ column) : lookup tabStopColumns column = none := by
  unfold lookup
  rw [if_pos (by omega), List.getElem?_eq_none (by omega)]

/-- The lookups of `ForwardTab` stay inside the table. -/
theorem forwardLoop_lands (hstops : ∀ c < tabStopColumns.length, tabStopColumns[c]? = some (stops c)) {maxColumn : ℤ}
    (hmax : maxColumn < tabStopColumns.length) (numTabs : ℕ) (column : ℤ) (tabsPerformed : ℕ)
    (hperformed : tabsPerformed ≤ numTabs) (hcolumn : tabsPerformed < numTabs → -1 ≤ column)
    (hle : column ≤ maxColumn) :
    ∃ target, forwardLoop tabStopColumns maxColumn numTabs column tabsPerformed = some target ∧
      LandsRight (stopAt stops) maxColumn column (numTabs - tabsPerformed) target := by
  fun_induction forwardLoop tabStopColumns maxColumn numTabs column tabsPerformed with
  | case1 column tabsPerformed h hnone =>
    rw [lookup_eq hstops (by omega) (by omega)] at hnone
    cases hnone
  | case2 column tabsPerformed h hstop ih =>
    rw [lookup_eq hstops (by omega) (by omega), Option.some.injEq] at hstop
    obtain ⟨target, htarget, hlands⟩ := ih (by omega) (by omega) (by omega)
    refine ⟨target, htarget, ?_⟩
    have hleft : numTabs - tabsPerformed = numTabs - (tabsPerformed + 1) + 1 := by omega
    rw [hleft]
    exact hlands.stop hstop
  | case3 column tabsPerformed h hskip ih =>
    rw [lookup_eq hstops (by omega) (by omega), Option.some.injEq] at hskip
    obtain ⟨target, htarget, hlands⟩ := ih hperformed (by omega) (by omega)
    exact ⟨target, htarget, hlands.skip hskip (by omega)⟩
  | case4 column tabsPerformed h =>
    refine ⟨column, rfl, ?_⟩
    by_cases hdone : tabsPerformed < numTabs
    · exact .at_limit (by omega) (by omega)
    · rw [Nat.sub_eq_zero_of_le (by omega)]
      exact .zero hle

/-- In front of column -1, the first lookup of `ForwardTab` is outside. -/
theorem forwardLoop_outside {maxColumn : ℤ} {numTabs : ℕ} {column : ℤ} (hmax : column < maxColumn) (hpos : 0 < numTabs)
    (hcolumn : column < -1) : forwardLoop tabStopColumns maxColumn numTabs column 0 = none := by
  unfold forwardLoop
  rw [if_pos ⟨hmax, hpos⟩, lookup_front (by omega)]

/-- A forward tab goes to the right, and not past the limit. -/
theorem forwardLoop_le {maxColumn : ℤ} {numTabs : ℕ} {column : ℤ} {tabsPerformed : ℕ} {target : ℤ}
    (h : forwardLoop tabStopColumns maxColumn numTabs column tabsPerformed = some target) :
    column ≤ target ∧ (column ≤ maxColumn → target ≤ maxColumn) := by
  fun_induction forwardLoop tabStopColumns maxColumn numTabs column tabsPerformed with
  | case1 column tabsPerformed hmore hnone => cases h
  | case2 column tabsPerformed hmore hstop ih | case3 column tabsPerformed hmore hskip ih =>
    obtain ⟨hle, hlimit⟩ := ih h
    exact ⟨by omega, fun _ => hlimit (by omega)⟩
  | case4 column tabsPerformed hmore =>
    obtain rfl := Option.some.inj h
    exact ⟨le_refl _, id⟩

theorem backwardsLoop_lands (hstops : ∀ c < tabStopColumns.length, tabStopColumns[c]? = some (stops c))
    {minColumn : ℤ} (hpos : 0 ≤ minColumn) (numTabs : ℕ) (column : ℤ) (tabsPerformed : ℕ) (hmin : minColumn ≤ column)
    (hperformed : tabsPerformed ≤ numTabs) (hcolumn : tabsPerformed < numTabs → column ≤ tabStopColumns.length) :
    ∃ target, backwardsLoop tabStopColumns minColumn numTabs column tabsPerformed = some target ∧
      LandsLeft (stopAt stops) minColumn column (numTabs - tabsPerformed) target := by
  fun_induction backwardsLoop tabStopColumns minColumn numTabs column tabsPerformed with
  | case1 column tabsPerformed h hnone =>
    rw [lookup_eq hstops (by omega) (by omega)] at hnone
    cases hnone
  | case2 column tabsPerformed h hstop ih =>
    rw [lookup_eq hstops (by omega) (by omega), Option.some.injEq] at hstop
    obtain ⟨target, htarget, hlands⟩ := ih (by omega) (by omega) (by omega)
    refine ⟨target, htarget, ?_⟩
    have hleft : numTabs - tabsPerformed = numTabs - (tabsPerformed + 1) + 1 := by omega
    have := hlands.stop hstop
    rwa [hleft, ← sub_add_cancel column 1]
  | case3 column tabsPerformed h hskip ih =>
    rw [lookup_eq hstops (by omega) (by omega), Option.some.injEq] at hskip
    obtain ⟨target, htarget, hlands⟩ := ih (by omega) hperformed (by omega)
    refine ⟨target, htarget, ?_⟩
    have := hlands.skip hskip (by omega)
    rwa [sub_add_cancel] at this
  | case4 column tabsPerformed h =>
    refine ⟨column, rfl, ?_⟩
    by_cases hdone : tabsPerformed < numTabs
    · obtain rfl : column = minColumn := by omega
      exact .at_limit (by omega)
    · rw [Nat.sub_eq_zero_of_le (by omega)]
      exact .zero hmin

/-- Behind the table, the first lookup of `BackwardsTab` is outside. -/
theorem backwardsLoop_outside {minColumn : ℤ} {numTabs : ℕ} {column : ℤ} (hmin : minColumn < column) (hpos : 0 < numTabs)
    (hcolumn : tabStopColumns.length < column) : backwardsLoop tabStopColumns minColumn numTabs column 0 = none := by
  unfold backwardsLoop
  rw [if_pos ⟨hmin, hpos⟩, lookup_behind (by omega)]

/-- The count goes on where it was. -/
theorem forwardLoop_shift (maxColumn : ℤ) (a b : ℕ) (column : ℤ) (q : ℕ) :
    forwardLoop tabStopColumns maxColumn (a + b) column (a + q) = forwardLoop tabStopColumns maxColumn b column q := by
  fun_induction forwardLoop tabStopColumns maxColumn b column q with
  | case1 column q h hnone =>
    rw [forwardLoop, if_pos (by omega), hnone]
  | case2 column q h hstop ih =>
    rw [forwardLoop, if_pos (by omega), hstop]
    exact ih
  | case3 column q h hskip ih =>
    rw [forwardLoop, if_pos (by omega), hskip]
    exact ih
  | case4 column q h =>
    rw [forwardLoop, if_neg (by omega)]

/-- **Two moves are one.** -/
theorem forwardLoop_add (maxColumn : ℤ) (a b : ℕ) (column : ℤ) (p : ℕ) (hp : p ≤ a) :
    forwardLoop tabStopColumns maxColumn (a + b) column p =
      (forwardLoop tabStopColumns maxColumn a column p).bind fun column =>
        forwardLoop tabStopColumns maxColumn b column 0 := by
  fun_induction forwardLoop tabStopColumns maxColumn a column p with
  | case1 column p h hnone =>
    rw [forwardLoop, if_pos (by omega), hnone]
    rfl
  | case2 column p h hstop ih =>
    rw [forwardLoop, if_pos (by omega), hstop]
    exact ih (by omega)
  | case3 column p h hskip ih =>
    rw [forwardLoop, if_pos (by omega), hskip]
    exact ih hp
  | case4 column p h =>
    rw [Option.bind_some]
    by_cases hmax : column < maxColumn
    · obtain rfl : p = a := by omega
      exact forwardLoop_shift maxColumn p b column 0
    · rw [forwardLoop, if_neg (by omega), forwardLoop, if_neg (by omega)]

end loops

namespace TabDispatch

variable {d : TabDispatch} {stops : ℕ → Bool}

/-! ### Growing the table -/

theorem Represents.getElem? (h : d.Represents stops) {c : ℕ} (hc : c < d.tabStopColumns.length) :
    d.tabStopColumns[c]? = some (stops c) := by
  rw [← h c, List.getD_eq_getElem?_getD, List.getElem?_eq_getElem hc, Option.getD_some]

/-- Growing changes the table alone. -/
theorem initTabStopsForWidth_eq (d : TabDispatch) (width : ℕ) :
    d.initTabStopsForWidth width = { d with tabStopColumns := (d.initTabStopsForWidth width).tabStopColumns } := by
  unfold initTabStopsForWidth
  dsimp only
  split_ifs <;> rfl

theorem length_initTabStopsForWidth (d : TabDispatch) (width : ℕ) :
    (d.initTabStopsForWidth width).tabStopColumns.length = max d.tabStopColumns.length width := by
  unfold initTabStopsForWidth
  dsimp only
  split_ifs with hgrow hdefault
  · dsimp only
    rw [length_initLoop, List.length_append, List.length_replicate]
    omega
  · dsimp only
    rw [List.length_append, List.length_replicate]
    omega
  · omega

theorem Represents.initTabStopsForWidth (h : d.Represents stops) (width : ℕ) :
    (d.initTabStopsForWidth width).Represents stops := by
  intro c
  rw [← h c]
  unfold TabDispatch.initTabStopsForWidth
  dsimp only
  split_ifs with hgrow hdefault
  · -- New columns have their default, columns behind the new end still have theirs to come.
    have hlength : (d.tabStopColumns ++ List.replicate (width - d.tabStopColumns.length) false).length = width := by
      rw [List.length_append, List.length_replicate]
      omega
    dsimp only
    rw [List.getD_eq_getElem?_getD, getElem?_initLoop, hlength, hdefault, List.getD_eq_getElem?_getD, every8]
    rcases Nat.lt_or_ge c d.tabStopColumns.length with hold | hnew
    · rw [if_neg (by omega), List.getElem?_append_left hold, List.getElem?_eq_getElem hold]
    · rw [List.getElem?_append_right hnew, List.getElem?_eq_none hnew, List.getElem?_replicate]
      by_cases hstop : 8 ≤ c ∧ c % 8 = 0
      · rcases Nat.lt_or_ge c width with hlt | hge
        · rw [if_pos (by omega)]
          simp [hstop]
        · rw [if_neg (by omega), if_neg (by omega)]
      · rw [if_neg (by omega)]
        split_ifs
        · simp [hstop]
        · rfl
  · dsimp only
    rw [Bool.not_eq_true] at hdefault
    rw [List.getD_eq_getElem?_getD, List.getD_eq_getElem?_getD, hdefault, Bool.false_and]
    rcases Nat.lt_or_ge c d.tabStopColumns.length with hold | hnew
    · rw [List.getElem?_append_left hold]
    · rw [List.getElem?_append_right hnew, List.getElem?_eq_none hnew, List.getElem?_replicate]
      split_ifs <;> rfl
  · rfl

/-- The stops behind HTS and TBC. -/
theorem Represents.setTabStop (h : d.Represents stops) {column : ℤ}
    (hcolumn : 0 ≤ column ∧ column < d.tabStopColumns.length) (stop : Bool) :
    ∃ d', d.setTabStop column stop = some d' ∧ d'.page = d.page ∧
      d'.tabStopColumns.length = d.tabStopColumns.length ∧
      d'.Represents (Function.update stops column.toNat stop) := by
  refine ⟨_, if_pos hcolumn, rfl, List.length_set, fun c => ?_⟩
  dsimp only
  rw [List.getD_eq_getElem?_getD, List.getElem?_set]
  by_cases hc : c = column.toNat
  · rw [if_pos hc.symm, hc, if_pos (by omega), Function.update_self]
    rfl
  · rw [if_neg (Ne.symm hc), Function.update_of_ne hc, ← h c, List.getD_eq_getElem?_getD]

/-! ### The limits -/

theorem maxColumn_lt (d : TabDispatch) : d.maxColumn < d.getLineWidth d.cursor.y := by
  have hright : d.readMargins.2.2 ≤ (d.getLineWidth d.cursor.y : ℤ) - 1 :=
    ScrollMargins.horizontalMargins_right_le _ _
  unfold maxColumn
  dsimp only
  split_ifs <;> omega

/-- The cursor is not behind its limit while it is inside its line. -/
theorem le_maxColumn_iff (d : TabDispatch) : d.cursor.x ≤ d.maxColumn ↔ d.cursor.x < d.getLineWidth d.cursor.y := by
  constructor
  · intro h
    have := d.maxColumn_lt
    omega
  · intro h
    unfold maxColumn
    dsimp only
    split_ifs with hclamp
    · simp only [Bool.and_eq_true, decide_eq_true_eq] at hclamp
      exact hclamp.2
    · omega

theorem neg_one_le_maxColumn (d : TabDispatch) : -1 ≤ d.maxColumn := by
  have hright : -1 ≤ d.readMargins.2.2 := ScrollMargins.neg_one_le_horizontalMargins_right _ _
  unfold maxColumn
  dsimp only
  split_ifs <;> omega

theorem minColumn_nonneg (d : TabDispatch) : 0 ≤ d.minColumn := by
  unfold minColumn
  dsimp only
  split_ifs <;> omega

theorem minColumn_le_iff (d : TabDispatch) : d.minColumn ≤ d.cursor.x ↔ 0 ≤ d.cursor.x := by
  unfold minColumn
  dsimp only
  split_ifs with hclamp
  · simp only [Bool.and_eq_true, decide_eq_true_eq] at hclamp
    omega
  · rfl

/-- Margins that are not reset begin inside the line. -/
theorem minColumn_le_lineWidth (d : TabDispatch) : d.minColumn ≤ d.getLineWidth d.cursor.y := by
  have hleft : d.readMargins.2.1 ≤ d.getLineWidth d.cursor.y := ScrollMargins.getHorizontalMargins_left_le _ _
  unfold minColumn
  dsimp only
  split_ifs <;> omega

/-! ### What a move does -/

theorem readyForTabs_represents (h : d.Represents stops) : d.readyForTabs.Represents stops :=
  Represents.initTabStopsForWidth (d := { d with scrollMargins := d.readMargins.1 }) h _

theorem length_readyForTabs (d : TabDispatch) :
    d.readyForTabs.tabStopColumns.length = max d.tabStopColumns.length (d.getLineWidth d.cursor.y) :=
  length_initTabStopsForWidth _ _

theorem readyForTabs_eq (d : TabDispatch) : d.readyForTabs =
    { d with scrollMargins := d.readMargins.1, tabStopColumns := d.readyForTabs.tabStopColumns } :=
  initTabStopsForWidth_eq _ _

theorem forwardTab_spec (h : d.Represents stops) {numTabs : ℕ} (hfront : 0 < numTabs → -1 ≤ d.cursor.x)
    (hinside : d.cursor.x < d.getLineWidth d.cursor.y) :
    ∃ d', d.forwardTab numTabs = some d' ∧ LandsRight (stopAt stops) d.maxColumn d.cursor.x numTabs d'.cursor.x := by
  have hready := readyForTabs_represents h
  have hmax : d.maxColumn < d.readyForTabs.tabStopColumns.length := by
    have := d.maxColumn_lt
    rw [length_readyForTabs]
    omega
  obtain ⟨target, htarget, hlands⟩ := forwardLoop_lands (fun c hc => hready.getElem? hc) hmax numTabs d.cursor.x 0
    (Nat.zero_le _) hfront (d.le_maxColumn_iff.mpr hinside)
  have hx : (if d.cursor.delayEOLWrap.isSome then (d.cursor.setXPosition target).markDelayEOLWrap
      else d.cursor.setXPosition target).x = target := by
    split_ifs <;> rfl
  unfold forwardTab
  dsimp only
  rw [htarget, Option.map_some]
  refine ⟨_, rfl, ?_⟩
  dsimp only
  rw [hx]
  exact hlands

theorem forwardTab_represents (h : d.Represents stops) {numTabs : ℕ} {d' : TabDispatch}
    (htab : d.forwardTab numTabs = some d') : d'.Represents stops := by
  obtain ⟨target, -, rfl⟩ := Option.map_eq_some_iff.mp htab
  exact readyForTabs_represents h

theorem forwardTab_outside {numTabs : ℕ} (hpos : 0 < numTabs) (hcolumn : d.cursor.x < -1) :
    d.forwardTab numTabs = none := by
  have hmax := d.neg_one_le_maxColumn
  unfold forwardTab
  dsimp only
  rw [forwardLoop_outside (by omega) hpos hcolumn]
  rfl

theorem backwardsTab_spec (h : d.Represents stops) {numTabs : ℕ} (hfront : 0 ≤ d.cursor.x)
    (hcolumn : 0 < numTabs → d.cursor.x ≤ max d.tabStopColumns.length (d.getLineWidth d.cursor.y)) :
    ∃ d', d.backwardsTab numTabs = some d' ∧
      LandsLeft (stopAt stops) d.minColumn d.cursor.x numTabs d'.cursor.x := by
  have hready := readyForTabs_represents h
  obtain ⟨target, htarget, hlands⟩ := backwardsLoop_lands (fun c hc => hready.getElem? hc) d.minColumn_nonneg numTabs
    d.cursor.x 0 (d.minColumn_le_iff.mpr hfront) (Nat.zero_le _) (by rw [length_readyForTabs]; exact_mod_cast hcolumn)
  unfold backwardsTab
  dsimp only
  rw [htarget, Option.map_some]
  exact ⟨_, rfl, hlands⟩

theorem backwardsTab_represents (h : d.Represents stops) {numTabs : ℕ} {d' : TabDispatch}
    (htab : d.backwardsTab numTabs = some d') : d'.Represents stops := by
  obtain ⟨target, -, rfl⟩ := Option.map_eq_some_iff.mp htab
  exact readyForTabs_represents h

theorem backwardsTab_outside {numTabs : ℕ} (hpos : 0 < numTabs)
    (hcolumn : max d.tabStopColumns.length (d.getLineWidth d.cursor.y) < d.cursor.x) :
    d.backwardsTab numTabs = none := by
  have hmin := d.minColumn_le_lineWidth
  unfold backwardsTab
  dsimp only
  rw [backwardsLoop_outside (by omega) hpos (by rwa [length_readyForTabs])]
  rfl

/-! ### Two moves -/

/-- The dispatcher behind a move to `column`. -/
def movedTo (d : TabDispatch) (column : ℤ) : TabDispatch :=
  { d.readyForTabs with cursor := if d.cursor.delayEOLWrap.isSome then (d.cursor.setXPosition column).markDelayEOLWrap
      else d.cursor.setXPosition column }

section movedTo
variable (d : TabDispatch) (column : ℤ)

theorem movedTo_x : (d.movedTo column).cursor.x = column := by
  unfold movedTo
  dsimp only
  split_ifs <;> rfl

theorem movedTo_y : (d.movedTo column).cursor.y = d.cursor.y := by
  unfold movedTo
  dsimp only
  split_ifs <;> rfl

theorem movedTo_delayEOLWrap : (d.movedTo column).cursor.delayEOLWrap.isSome = d.cursor.delayEOLWrap.isSome := by
  unfold movedTo
  dsimp only
  split_ifs with hdelay
  · exact hdelay.symm
  · rw [Bool.not_eq_true] at hdelay
    exact hdelay.symm

theorem movedTo_lineWidth : (d.movedTo column).getLineWidth (d.movedTo column).cursor.y = d.getLineWidth d.cursor.y := by
  rw [movedTo_y]
  unfold getLineWidth movedTo
  rw [readyForTabs_eq]

theorem movedTo_margins : (d.movedTo column).scrollMargins = d.readMargins.1 := by
  unfold movedTo
  rw [readyForTabs_eq]

theorem movedTo_page : (d.movedTo column).page = d.page := by
  unfold movedTo
  rw [readyForTabs_eq]

theorem movedTo_readMargins : (d.movedTo column).readMargins = d.readMargins := by
  unfold readMargins
  rw [movedTo_lineWidth, movedTo_margins, movedTo_page]
  unfold readMargins ScrollMargins.getHorizontalMargins ScrollMargins.getVerticalMargins
  dsimp only
  rw [← ScrollMargins.resetHorizontal_resetVertical, ScrollMargins.resetVertical_idem, ScrollMargins.resetHorizontal_idem]

theorem movedTo_between : (d.movedTo column).betweenVerticalMargins = d.betweenVerticalMargins := by
  unfold betweenVerticalMargins
  rw [movedTo_y, movedTo_margins, movedTo_page]
  unfold readMargins ScrollMargins.getHorizontalMargins ScrollMargins.getVerticalMargins
  dsimp only
  rw [← ScrollMargins.resetHorizontal_resetVertical, ScrollMargins.resetVertical_idem,
    ScrollMargins.verticalMargins_resetHorizontal]

theorem movedTo_readyForTabs : (d.movedTo column).readyForTabs.tabStopColumns = d.readyForTabs.tabStopColumns := by
  have hlength := d.length_readyForTabs
  unfold readyForTabs
  rw [movedTo_lineWidth]
  unfold initTabStopsForWidth
  dsimp only
  rw [if_neg]
  · rfl
  · show ¬ d.getLineWidth d.cursor.y > d.readyForTabs.tabStopColumns.length
    omega

end movedTo

theorem forwardTab_eq (d : TabDispatch) (numTabs : ℕ) : d.forwardTab numTabs =
    (forwardLoop d.readyForTabs.tabStopColumns d.maxColumn numTabs d.cursor.x 0).map d.movedTo := rfl

theorem movedTo_movedTo (d : TabDispatch) (column column' : ℤ) :
    (d.movedTo column).movedTo column' = d.movedTo column' := by
  have hmargins := movedTo_readMargins d column
  have hready := movedTo_readyForTabs d column
  have hdelay := movedTo_delayEOLWrap d column
  have hy := movedTo_y d column
  rw [movedTo, readyForTabs_eq (d.movedTo column), hmargins, hready, hdelay]
  unfold movedTo TabCursor.setXPosition TabCursor.markDelayEOLWrap
  rw [readyForTabs_eq d]
  dsimp only
  split_ifs <;> rfl

/-- The limit stays where it is while the cursor does not pass it. -/
theorem movedTo_maxColumn (d : TabDispatch) {column : ℤ} (hle : d.cursor.x ≤ column)
    (hmax : d.cursor.x ≤ d.maxColumn → column ≤ d.maxColumn) :
    (d.movedTo column).maxColumn = d.maxColumn := by
  unfold maxColumn at hmax ⊢
  rw [movedTo_readMargins, movedTo_between, movedTo_lineWidth, movedTo_x]
  dsimp only at hmax ⊢
  refine if_congr ?_ rfl rfl
  simp only [Bool.and_eq_true, decide_eq_true_eq] at hmax ⊢
  constructor
  · rintro ⟨hbetween, h⟩
    exact ⟨hbetween, by omega⟩
  · rintro ⟨hbetween, h⟩
    rw [if_pos ⟨hbetween, h⟩] at hmax
    exact ⟨hbetween, hmax h⟩

/-- **Two forward tabs are one**, wherever the cursor is. -/
theorem forwardTab_add (d : TabDispatch) (a b : ℕ) :
    d.forwardTab (a + b) = (d.forwardTab a).bind fun d' => d'.forwardTab b := by
  rw [forwardTab_eq, forwardTab_eq, forwardLoop_add _ _ _ _ _ (Nat.zero_le _)]
  cases hfirst : forwardLoop d.readyForTabs.tabStopColumns d.maxColumn a d.cursor.x 0 with
  | none => rfl
  | some column =>
    obtain ⟨hle, hlimit⟩ := forwardLoop_le hfirst
    rw [Option.map_some, Option.bind_some, Option.bind_some, forwardTab_eq, movedTo_readyForTabs, movedTo_x,
      movedTo_maxColumn d hle hlimit]
    congr 1
    funext column'
    exact (movedTo_movedTo d column column').symm

end TabDispatch

/-! ### Runs -/

/-- What else the tab functions read.  The cursor may be anywhere. -/
structure TabScreen where
  scrollMargins : ScrollMargins
  page : PageFrame
  isDoubleWidthLine : ℕ → Bool
  cursor : TabCursor

inductive TabEvent
  | horizontalTabSet
  | tabClear (clearType : TabClearType)
  | tabSet
  | forwardTab (numTabs : ℕ)
  | backwardsTab (numTabs : ℕ)
  /-- The width, the lines, the margins or the cursor change. -/
  | other (screen : TabScreen)

def TabScreen.show (screen : TabScreen) (tabStopColumns : List Bool) (initDefaultTabStops : Bool) : TabDispatch where
  tabStopColumns
  initDefaultTabStops
  scrollMargins := screen.scrollMargins
  page := screen.page
  isDoubleWidthLine := screen.isDoubleWidthLine
  cursor := screen.cursor

def TabDispatch.step (d : TabDispatch) : TabEvent → Option TabDispatch
  | .horizontalTabSet => d.horizontalTabSet
  | .tabClear clearType => d.tabClear clearType
  | .tabSet => some d.tabSet
  | .forwardTab numTabs => d.forwardTab numTabs
  | .backwardsTab numTabs => d.backwardsTab numTabs
  | .other screen => some (screen.show d.tabStopColumns d.initDefaultTabStops)

/-- What an event does to the stops of all columns. -/
def referenceStep (stops : ℕ → Bool) (column : ℤ) : TabEvent → ℕ → Bool
  | .horizontalTabSet => Function.update stops column.toNat true
  | .tabClear .clearCurrentColumn => Function.update stops column.toNat false
  | .tabClear .clearAllColumns => fun _ => false
  | .tabSet => every8
  | _ => stops

/-- The dispatcher and the table for all columns. -/
structure TabRun where
  dispatch : TabDispatch
  reference : ℕ → Bool

namespace TabRun

def step (r : TabRun) (e : TabEvent) : Option TabRun :=
  (r.dispatch.step e).map fun d => ⟨d, referenceStep r.reference r.dispatch.cursor.x e⟩

/-- The dispatcher before the first tab. -/
def start (screen : TabScreen) : TabRun := ⟨screen.show [] true, every8⟩

/-- Where an event leaves the cursor. -/
def Lands (r : TabRun) (target : ℤ) : TabEvent → Prop
  | .forwardTab numTabs => LandsRight (stopAt r.reference) r.dispatch.maxColumn r.dispatch.cursor.x numTabs target
  | .backwardsTab numTabs => LandsLeft (stopAt r.reference) r.dispatch.minColumn r.dispatch.cursor.x numTabs target
  | _ => True

/-- No lookup is outside the table, the table goes on standing for all columns, and the cursor lands where these say. -/
def Behaves (r : TabRun) (e : TabEvent) : Prop :=
  ∃ d, r.dispatch.step e = some d ∧ d.Represents (referenceStep r.reference r.dispatch.cursor.x e) ∧ r.Lands d.cursor.x e

/-- HTS and TBC 0 find the cursor's column in the table once it is as long as the page is wide.  A forward tab begins
inside its line, a backwards tab inside its line or the table. -/
def Allowed (r : TabRun) : TabEvent → Prop
  | .horizontalTabSet | .tabClear .clearCurrentColumn =>
      0 ≤ r.dispatch.cursor.x ∧ r.dispatch.cursor.x < max r.dispatch.tabStopColumns.length r.dispatch.page.width
  | .forwardTab numTabs =>
      (0 < numTabs → -1 ≤ r.dispatch.cursor.x) ∧ r.dispatch.cursor.x < r.dispatch.getLineWidth r.dispatch.cursor.y
  | .backwardsTab numTabs => 0 ≤ r.dispatch.cursor.x ∧ (0 < numTabs →
      r.dispatch.cursor.x ≤ max r.dispatch.tabStopColumns.length (r.dispatch.getLineWidth r.dispatch.cursor.y))
  | _ => True

section Steps
variable {r : TabRun} (h : r.dispatch.Represents r.reference)
include h

/-- HTS and TBC 0. -/
theorem setTabStop_spec (stop : Bool) :
    let reached := (r.dispatch.initTabStopsForWidth r.dispatch.page.width).setTabStop r.dispatch.cursor.x stop
    (reached.isSome = true ↔ r.Allowed .horizontalTabSet) ∧
      ∀ d, reached = some d → d.Represents (Function.update r.reference r.dispatch.cursor.x.toNat stop) := by
  have hlength := TabDispatch.length_initTabStopsForWidth r.dispatch r.dispatch.page.width
  dsimp only
  by_cases hcolumn : 0 ≤ r.dispatch.cursor.x ∧
      r.dispatch.cursor.x < (r.dispatch.initTabStopsForWidth r.dispatch.page.width).tabStopColumns.length
  · obtain ⟨d, hd, -, -, hd'⟩ := (h.initTabStopsForWidth _).setTabStop hcolumn stop
    rw [hd]
    refine ⟨iff_of_true rfl ⟨hcolumn.1, by omega⟩, ?_⟩
    rintro _ ⟨⟩
    exact hd'
  · rw [TabDispatch.setTabStop, if_neg hcolumn]
    refine ⟨iff_of_false Bool.false_ne_true fun hallowed => hcolumn ⟨hallowed.1, ?_⟩, fun _ hd => nomatch hd⟩
    have := hallowed.2
    omega

theorem represents_step {r' : TabRun} {e : TabEvent} (hstep : r.step e = some r') :
    r'.dispatch.Represents r'.reference := by
  obtain ⟨d, hd, rfl⟩ := Option.map_eq_some_iff.mp hstep
  cases e with
  | horizontalTabSet => exact (setTabStop_spec h true).2 d hd
  | tabClear clearType =>
    cases clearType with
    | clearCurrentColumn => exact (setTabStop_spec h false).2 d hd
    | clearAllColumns =>
      obtain rfl := Option.some.inj hd
      exact fun _ => rfl
    | other =>
      obtain rfl := Option.some.inj hd
      exact h
  | tabSet =>
    obtain rfl := Option.some.inj hd
    exact fun _ => rfl
  | forwardTab numTabs => exact TabDispatch.forwardTab_represents h hd
  | backwardsTab numTabs => exact TabDispatch.backwardsTab_represents h hd
  | other screen =>
    obtain rfl := Option.some.inj hd
    exact h

/-- An event behaves where it does not fail and the cursor lands. -/
theorem behaves_of {e : TabEvent} {d : TabDispatch} (hd : r.dispatch.step e = some d) (hlands : r.Lands d.cursor.x e) :
    r.Behaves e := by
  have hstep : r.step e = some ⟨d, referenceStep r.reference r.dispatch.cursor.x e⟩ := by
    rw [step, hd]
    rfl
  exact ⟨d, hd, represents_step h hstep, hlands⟩

theorem behaves_setTabStop {e : TabEvent} (stop : Bool)
    (he : r.dispatch.step e = (r.dispatch.initTabStopsForWidth r.dispatch.page.width).setTabStop r.dispatch.cursor.x stop)
    (hlands : ∀ target, r.Lands target e) : r.Behaves e ↔ r.Allowed .horizontalTabSet := by
  rw [← (setTabStop_spec h stop).1, ← he]
  constructor
  · rintro ⟨d, hd, -⟩
    rw [hd]
    rfl
  · intro hsome
    obtain ⟨d, hd⟩ := Option.isSome_iff_exists.mp hsome
    exact behaves_of h hd (hlands _)

theorem behaves_forward (numTabs : ℕ) : r.Behaves (.forwardTab numTabs) ↔ r.Allowed (.forwardTab numTabs) := by
  constructor
  · rintro ⟨d, hd, -, hland⟩
    have hle := hland.le
    have hlimit := hland.le_limit
    refine ⟨fun hpos => ?_, (TabDispatch.le_maxColumn_iff _).mp (by omega)⟩
    by_contra hcolumn
    have hoff := TabDispatch.forwardTab_outside (d := r.dispatch) hpos (by omega)
    exact nomatch hoff.symm.trans hd
  · rintro ⟨hfront, hinside⟩
    obtain ⟨d, hd, hlands⟩ := TabDispatch.forwardTab_spec h hfront hinside
    exact behaves_of h hd hlands

theorem behaves_backwards (numTabs : ℕ) : r.Behaves (.backwardsTab numTabs) ↔ r.Allowed (.backwardsTab numTabs) := by
  constructor
  · rintro ⟨d, hd, -, hland⟩
    have hle := hland.le
    have hlimit := hland.limit_le
    refine ⟨(TabDispatch.minColumn_le_iff _).mp (by omega), fun hpos => ?_⟩
    by_contra hcolumn
    have hoff := TabDispatch.backwardsTab_outside (d := r.dispatch) hpos (by omega)
    exact nomatch hoff.symm.trans hd
  · rintro ⟨hfront, hcolumn⟩
    obtain ⟨d, hd, hlands⟩ := TabDispatch.backwardsTab_spec h hfront hcolumn
    exact behaves_of h hd hlands

/-- **What a tab function does**, as far as the cursor's column allows it. -/
theorem behaves_iff (e : TabEvent) : r.Behaves e ↔ r.Allowed e := by
  cases e with
  | horizontalTabSet => exact behaves_setTabStop h true rfl fun _ => trivial
  | tabClear clearType =>
    cases clearType with
    | clearCurrentColumn => exact behaves_setTabStop h false rfl fun _ => trivial
    | clearAllColumns | other => exact iff_of_true (behaves_of h rfl trivial) trivial
  | tabSet | other => exact iff_of_true (behaves_of h rfl trivial) trivial
  | forwardTab numTabs => exact behaves_forward h numTabs
  | backwardsTab numTabs => exact behaves_backwards h numTabs

end Steps

/-- **The table behaves as one for all columns** in every state of a run, exactly where the cursor's column allows it;
two forward tabs are one. -/
theorem tabs_run {screen : TabScreen} {events : List TabEvent} {r : TabRun}
    (hrun : Lib.Run.run step (start screen) events = some r) :
    (∀ e, r.Behaves e ↔ r.Allowed e) ∧
      ∀ a b, r.dispatch.forwardTab (a + b) = (r.dispatch.forwardTab a).bind fun d => d.forwardTab b := by
  have hrepresents := Lib.Run.run_invariant (I := fun r : TabRun => r.dispatch.Represents r.reference)
    (fun _ _ _ hstep h => represents_step h hstep) hrun fun _ => rfl
  exact ⟨behaves_iff hrepresents, r.dispatch.forwardTab_add⟩

/-- A page of four columns whose only line is double width. -/
def narrowLine (column : ℤ) : TabScreen where
  scrollMargins := ⟨0, 0, 0, 0⟩
  page := ⟨0, 1, 4⟩
  isDoubleWidthLine := fun _ => true
  cursor := ⟨column, 0, none⟩

/-- A stop set in the second column is found from the third. -/
theorem tabs_run_narrowLine : ∃ r : TabRun,
    Lib.Run.run step (start (narrowLine 1)) [.tabClear .clearAllColumns, .horizontalTabSet, .other (narrowLine 2)] =
        some r ∧
      r.Behaves (.backwardsTab 1) :=
  ⟨_, rfl, ((@tabs_run (narrowLine 1) [.tabClear .clearAllColumns, .horizontalTabSet, .other (narrowLine 2)] _ rfl).1
    (.backwardsTab 1)).mpr ⟨by decide, fun _ => by decide⟩⟩

/-- With the cursor behind the end of a double width line, a backwards tab looks up a column outside the table. -/
theorem backwardsTab_behind_line : ∃ (screen : TabScreen) (r : TabRun),
    Lib.Run.run step (start screen) [.tabSet, .other (narrowLine 3)] = some r ∧
      ¬ r.Behaves (.backwardsTab 1) ∧ r.dispatch.backwardsTab 1 = none := by
  have hoff : ((narrowLine 3).show [] true).backwardsTab 1 = none :=
    TabDispatch.backwardsTab_outside (by decide) (by decide)
  refine ⟨narrowLine 0, _, rfl, ?_, hoff⟩
  rintro ⟨d, hd, -⟩
  exact nomatch hoff.symm.trans hd

end TabRun

end VT7.Adapter
