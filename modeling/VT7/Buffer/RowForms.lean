import VT7.Buffer.TextWrites

/-!
# Operations and the form of the buffer

Whatever the rows hold, the operations on cells and on rows keep the number of columns of every row, and they end: the
only error of a row is that of `gsl::narrow`.
-/

namespace VT7.Buffer

variable {α : Type}

namespace Row

variable {r r' : Row α}

lemma replaceCharacters_columnCount {columnBegin width : ℕ} {chars : List UInt16}
    (hok : r.replaceCharacters columnBegin width chars = .ok r') : r'.columnCount = r.columnCount := by
  unfold replaceCharacters at hok
  dsimp only at hok
  split at hok
  · cases hok
    rfl
  · obtain ⟨h, hfinish, hok⟩ := ok_of_bind hok
    cases hok
    rw [finish_kept hfinish]
    show (WriteHelper.replaceCharacters _ width).row.columnCount = r.columnCount
    unfold WriteHelper.replaceCharacters
    dsimp only
    split <;> rfl

lemma replaceCharacters_error {columnBegin width : ℕ} {chars : List UInt16} {error : BufferError}
    (hok : r.replaceCharacters columnBegin width chars = .error error) : error = .narrowing := by
  unfold replaceCharacters at hok
  dsimp only at hok
  split at hok
  · cases hok
  · rcases error_of_bind hok with hfinish | ⟨h, -, hok⟩
    · exact finish_error hfinish
    · cases hok

/-- A cell is written by replacing characters, once at most. -/
lemma writeCell_cases (r : Row α) (cell : OutputCellView α) (currentIndex finalColumnInRow : ℕ) :
    (∃ columnBegin width chars, ∃ f : Row α → Row α × Bool, (∀ row, (f row).1.columnCount = row.columnCount) ∧
      r.writeCell cell currentIndex finalColumnInRow =
        (r.replaceCharacters columnBegin width chars >>= fun row => .ok (f row))) ∨
      ∃ moved, r.writeCell cell currentIndex finalColumnInRow = .ok (r, moved) := by
  unfold writeCell clearCell
  cases cell.dbcsAttr with
  | single => exact .inl ⟨_, _, _, fun row => (row, true), fun _ => rfl, rfl⟩
  | leading =>
    left
    by_cases hlast : currentIndex = finalColumnInRow
    · exact ⟨_, _, _, fun row => ({ row with doubleBytePadded := true }, false), fun _ => rfl, if_pos hlast⟩
    · exact ⟨_, _, _, fun row => (row, true), fun _ => rfl, if_neg hlast⟩
  | trailing =>
    by_cases hfirst : currentIndex = 0
    · exact .inl ⟨_, _, _, fun row => (row, true), fun _ => rfl, if_pos hfirst⟩
    · by_cases hposition : cell.position = 0
      · exact .inl ⟨_, _, _, fun row => (row, true), fun _ => rfl, (if_neg hfirst).trans (if_pos hposition)⟩
      · exact .inr ⟨true, (if_neg hfirst).trans (if_neg hposition)⟩

lemma writeCell_columnCount {cell : OutputCellView α} {currentIndex finalColumnInRow : ℕ} {moved : Bool}
    (hok : r.writeCell cell currentIndex finalColumnInRow = .ok (r', moved)) : r'.columnCount = r.columnCount := by
  rcases writeCell_cases r cell currentIndex finalColumnInRow with ⟨c, w, chars, f, hf, heq⟩ | ⟨moved', heq⟩
  · rw [heq] at hok
    obtain ⟨row, hreplaced, hpair⟩ := ok_of_bind hok
    have hpair := Except.ok.inj hpair
    rw [← replaceCharacters_columnCount hreplaced, ← hf row, hpair]
  · rw [heq] at hok
    cases hok
    rfl

lemma writeCell_error {cell : OutputCellView α} {currentIndex finalColumnInRow : ℕ} {error : BufferError}
    (hok : r.writeCell cell currentIndex finalColumnInRow = .error error) : error = .narrowing := by
  rcases writeCell_cases r cell currentIndex finalColumnInRow with ⟨c, w, chars, f, hf, heq⟩ | ⟨moved', heq⟩
  · rw [heq] at hok
    rcases error_of_bind hok with hreplaced | ⟨row, -, hok⟩
    · exact replaceCharacters_error hreplaced
    · cases hok
  · rw [heq] at hok
    cases hok

lemma columnCount_colored (r : Row α) (uses start stop : ℕ) (color : α) :
    (if uses = 0 then r else r.replaceAttr start stop color).columnCount = r.columnCount := by
  split <;> rfl

section Loop

variable [DecidableEq α] {wrap : Option Bool} {finalColumnInRow : ℕ} {cells : List (OutputCellView α)}
variable {currentColor : α} {colorUses colorStarts currentIndex : ℕ}

/-- The loop over the cells, which keeps the columns or throws. -/
lemma writeCellsLoop_cases (r : Row α) (cells : List (OutputCellView α)) (currentColor : α)
    (colorUses colorStarts currentIndex : ℕ) :
    (∃ r', writeCellsLoop wrap finalColumnInRow cells currentColor colorUses colorStarts currentIndex r = .ok r' ∧
      r'.columnCount = r.columnCount) ∨
      writeCellsLoop wrap finalColumnInRow cells currentColor colorUses colorStarts currentIndex r =
        .error .narrowing := by
  induction cells generalizing currentColor colorUses colorStarts currentIndex r with
  | nil => exact .inl ⟨_, rfl, columnCount_colored _ _ _ _ _⟩
  | cons cell rest ih =>
    unfold writeCellsLoop
    by_cases hend : finalColumnInRow < currentIndex
    · rw [if_pos hend]
      exact .inl ⟨_, rfl, columnCount_colored _ _ _ _ _⟩
    · rw [if_neg hend]
      dsimp only
      generalize hrow : (if decide (cell.textAttrBehavior = .current) || decide (currentColor = cell.textAttr) then r
        else r.replaceAttr colorStarts currentIndex currentColor) = row
      have hsame : row.columnCount = r.columnCount := by
        rw [← hrow]
        split <;> rfl
      split
      · rw [← hsame]
        exact ih _ _ _ _ _
      · cases hcell : row.writeCell cell currentIndex finalColumnInRow with
        | error e =>
          rw [writeCell_error hcell]
          exact .inr rfl
        | ok written =>
          obtain ⟨row', moved⟩ := written
          have hwritten := (writeCell_columnCount hcell).trans hsame
          generalize hlast : (if currentIndex = finalColumnInRow then
            { row' with wrapForced := wrap.getD row'.wrapForced } else row') = row''
          have hlast' : row''.columnCount = r.columnCount := by
            rw [← hlast, ← hwritten]
            split <;> rfl
          cases moved with
          | true =>
            show (∃ r', writeCellsLoop wrap finalColumnInRow rest _ _ _ _ _ = .ok r' ∧ _) ∨ _
            rw [← hlast', ← hlast]
            exact ih _ _ _ _ _
          | false =>
            refine .inl ⟨_, rfl, (columnCount_colored _ _ _ _ _).trans ?_⟩
            rw [← hlast', ← hlast]

lemma writeCells_columnCount {columnBegin : ℕ} {limitRight : Option ℕ}
    (hok : r.writeCells cells columnBegin wrap limitRight = .ok r') : r'.columnCount = r.columnCount := by
  unfold writeCells at hok
  split at hok
  · cases hok
  · split at hok
    · cases hok
      rfl
    · rename_i cell rest
      rcases @writeCellsLoop_cases _ _ wrap (limitRight.getD (r.columnCount - 1)) r (cell :: rest) cell.textAttr 0
        columnBegin columnBegin with ⟨r'', hloop, hcolumns⟩ | hloop
      · rw [hloop] at hok
        cases hok
        exact hcolumns
      · rw [hloop] at hok
        cases hok

lemma writeCells_error {columnBegin : ℕ} {limitRight : Option ℕ} {error : WriteCellsError}
    (hok : r.writeCells cells columnBegin wrap limitRight = .error error) : error ≠ .buffer .unfinished := by
  unfold writeCells at hok
  split at hok
  · cases hok
    exact nofun
  · split at hok
    · cases hok
    · rename_i cell rest
      rcases @writeCellsLoop_cases _ _ wrap (limitRight.getD (r.columnCount - 1)) r (cell :: rest) cell.textAttr 0
        columnBegin columnBegin with ⟨r'', hloop, hcolumns⟩ | hloop
      · rw [hloop] at hok
        cases hok
      · rw [hloop] at hok
        cases hok
        exact nofun

end Loop

end Row

namespace TextBuffer

/-- Only rows change, and they stay as wide as the buffer. -/
structure KeepsForm (b b' : TextBuffer α) : Prop where
  same : b' = { b with rows := b'.rows }
  uniform : b.Uniform → b'.Uniform

section Forms

variable {b b' : TextBuffer α}

namespace KeepsForm

lemma width (h : KeepsForm b b') : b'.width = b.width := by rw [h.same]

lemma height (h : KeepsForm b b') : b'.height = b.height := by rw [h.same]

lemma refl (b : TextBuffer α) : KeepsForm b b := ⟨rfl, id⟩

lemma trans {b'' : TextBuffer α} (h : KeepsForm b b') (h' : KeepsForm b' b'') : KeepsForm b b'' := by
  refine ⟨?_, fun hu => h'.uniform (h.uniform hu)⟩
  rw [h'.same, h.same]

lemma setRowByOffset (index : ℤ) {row : Row α} (hrow : row.columnCount = (b.getRowByOffset index).columnCount) :
    KeepsForm b (b.setRowByOffset index row) := by
  refine ⟨rfl, fun hu z hz => ?_⟩
  have hpos : 0 < b.height := Nat.zero_lt_of_lt hz
  exact hu.setRowByOffset hpos index (hrow.trans (hu.columnCount hpos index)) z hz

end KeepsForm

lemma writeLine_keepsForm [DecidableEq α] {givenIt : List (OutputCellView α)} {target : Types.Point}
    {wrap : Option Bool} {limitRight : Option ℕ} (hok : b.writeLine givenIt target wrap limitRight = .ok b') :
    KeepsForm b b' := by
  unfold writeLine at hok
  split at hok
  · cases hok
    exact .refl b
  · obtain ⟨row, hcells, hok⟩ := ok_of_bind hok
    cases hok
    exact .setRowByOffset _ (Row.writeCells_columnCount hcells)

lemma writeLine_error [DecidableEq α] {givenIt : List (OutputCellView α)} {target : Types.Point}
    {wrap : Option Bool} {limitRight : Option ℕ} {error : WriteCellsError}
    (hok : b.writeLine givenIt target wrap limitRight = .error error) : error ≠ .buffer .unfinished := by
  unfold writeLine at hok
  split at hok
  · cases hok
  · rcases error_of_bind hok with hcells | ⟨row, -, hok⟩
    · exact Row.writeCells_error hcells
    · cases hok

lemma fillRows_keepsForm {scratchpad : Row α} {attributes : α} {left right rest : ℕ} {y : ℤ}
    (hok : fillRows scratchpad attributes left right rest y b = .ok b') : KeepsForm b b' := by
  induction rest generalizing y b with
  | zero =>
    cases hok
    exact .refl _
  | succ rest ih =>
    unfold fillRows at hok
    obtain ⟨⟨row, result⟩, hcopied, hok⟩ := ok_of_bind hok
    have hcolumns := copyTextFrom_columnCount hcopied
    have hrow : (row.replaceAttributes left right attributes).columnCount = (b.getRowByOffset y).columnCount := hcolumns
    exact (KeepsForm.setRowByOffset y hrow).trans (ih hok)

lemma fillRows_error {scratchpad : Row α} {attributes : α} {left right rest : ℕ} {y : ℤ} {error : BufferError}
    (hok : fillRows scratchpad attributes left right rest y b = .error error) : error = .narrowing := by
  induction rest generalizing y b with
  | zero => cases hok
  | succ rest ih =>
    unfold fillRows at hok
    rcases error_of_bind hok with hcopied | ⟨⟨row, result⟩, -, hok⟩
    · exact copyTextFrom_error hcopied
    · exact ih hok

/-- A rectangle is filled with spaces. -/
lemma fillSpaces_keepsForm {cwd : Clustering} {rect : Types.Rect} {attributes : α}
    (hok : b.fillRect cwd rect [space] attributes = .ok b') : KeepsForm b b' := by
  unfold fillRect at hok
  split at hok
  · cases hok
    exact .refl b
  · dsimp only at hok
    rw [if_neg (not_not_intro rfl)] at hok
    exact fillRows_keepsForm hok

lemma fillSpaces_error {cwd : Clustering} {rect : Types.Rect} {attributes : α} {error : BufferError}
    (hok : b.fillRect cwd rect [space] attributes = .error error) : error = .narrowing := by
  unfold fillRect at hok
  split at hok
  · cases hok
  · dsimp only at hok
    rw [if_neg (not_not_intro rfl)] at hok
    exact fillRows_error hok

lemma copyRow_keepsForm {v y : ℤ} (hok : b.copyRow v y = .ok b') : KeepsForm b b' := by
  unfold copyRow at hok
  split at hok
  · cases hok
    exact .refl b
  · obtain ⟨row, hcopied, hok⟩ := ok_of_bind hok
    cases hok
    exact .setRowByOffset _ (copyFrom_columnCount hcopied)

lemma scrollRowsFrom_keepsForm {delta step y : ℤ} {rest : ℕ} (hok : scrollRowsFrom delta step rest y b = .ok b') :
    KeepsForm b b' := by
  induction rest generalizing y b with
  | zero =>
    cases hok
    exact .refl _
  | succ rest ih =>
    unfold scrollRowsFrom at hok
    obtain ⟨next, hcopied, hok⟩ := ok_of_bind hok
    exact (copyRow_keepsForm hcopied).trans (ih hok)

lemma scrollRowsFrom_error {delta step y : ℤ} {rest : ℕ} {error : BufferError}
    (hok : scrollRowsFrom delta step rest y b = .error error) : error = .narrowing := by
  induction rest generalizing y b with
  | zero => cases hok
  | succ rest ih =>
    unfold scrollRowsFrom at hok
    rcases error_of_bind hok with hcopied | ⟨next, -, hok⟩
    · unfold copyRow at hcopied
      split at hcopied
      · cases hcopied
      · rcases error_of_bind hcopied with hrow | ⟨row, -, hok⟩
        · exact copyFrom_error hrow
        · cases hok
    · exact ih hok

lemma scrollRows_keepsForm {firstRow size delta : ℤ} (hok : b.scrollRows firstRow size delta = .ok b') :
    KeepsForm b b' := by
  unfold scrollRows at hok
  split at hok
  · cases hok
    exact .refl b
  · dsimp only at hok
    split at hok
    · exact scrollRowsFrom_keepsForm hok
    · exact scrollRowsFrom_keepsForm hok

lemma scrollRows_error {firstRow size delta : ℤ} {error : BufferError}
    (hok : b.scrollRows firstRow size delta = .error error) : error = .narrowing := by
  unfold scrollRows at hok
  split at hok
  · cases hok
  · dsimp only at hok
    split at hok
    · exact scrollRowsFrom_error hok
    · exact scrollRowsFrom_error hok

lemma resetLineRenditionFrom_keepsForm (rest : ℕ) (y : ℤ) : KeepsForm b (resetLineRenditionFrom rest y b) := by
  induction rest generalizing y b with
  | zero => exact .refl b
  | succ rest ih =>
    unfold resetLineRenditionFrom
    have hrow : ((b.getRowByOffset y).setLineRendition .singleWidth).columnCount = (b.getRowByOffset y).columnCount :=
      rfl
    exact (KeepsForm.setRowByOffset y hrow).trans (ih _)

end Forms

end TextBuffer

end VT7.Buffer
