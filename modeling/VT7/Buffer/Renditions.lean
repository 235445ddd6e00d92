import VT7.Buffer.Areas

/-!
# Line renditions of rows that are written

Writing characters and attributes into a row leaves its line rendition as it is.
-/

namespace VT7.Buffer

variable {α : Type}

namespace WriteHelper

variable {h h' : WriteHelper α}

lemma resizeChars_lineRendition {r r' : Row α} {colEndDirty chBegDirty chEndDirty chEndDirtyOld : ℕ}
    (hok : r.resizeChars colEndDirty chBegDirty chEndDirty chEndDirtyOld = .ok r') :
    r'.lineRendition = r.lineRendition := by
  unfold Row.resizeChars at hok
  dsimp only at hok
  split at hok
  · cases hok
    rfl
  · split at hok
    · cases hok
    · cases hok
      rfl

lemma finish_lineRendition (hok : h.finish = .ok h') : h'.row.lineRendition = h.row.lineRendition := by
  unfold finish at hok
  dsimp only at hok
  split at hok
  · cases hresized : h.row.resizeChars (h.row.adjustForward h.colEndDirty) h.chBegDirty
        (h.chBegDirty + h.charsConsumed + h.leadingSpaces + (h.row.adjustForward h.colEndDirty - h.colEnd))
        (h.row.uncheckedCharOffset (h.row.adjustForward h.colEndDirty)) with
    | error e =>
      rw [hresized] at hok
      cases hok
    | ok row =>
      rw [hresized] at hok
      cases hok
      have hrow : row.lineRendition = h.row.lineRendition := resizeChars_lineRendition hresized
      exact hrow
  · cases hok
    rfl

end WriteHelper

namespace Row

variable {r r' : Row α}

lemma replaceCharacters_lineRendition {columnBegin width : ℕ} {chars : List UInt16}
    (hok : r.replaceCharacters columnBegin width chars = .ok r') : r'.lineRendition = r.lineRendition := by
  unfold replaceCharacters at hok
  dsimp only at hok
  split at hok
  · cases hok
    rfl
  · generalize hreplaced : (WriteHelper.create r columnBegin r.columnCount chars).replaceCharacters width = h at hok
    have hrow : h.row.lineRendition = r.lineRendition := by
      rw [← hreplaced]
      unfold WriteHelper.replaceCharacters
      dsimp only
      split <;> rfl
    cases hfinished : h.finish with
    | error e =>
      rw [hfinished] at hok
      cases hok
    | ok h' =>
      rw [hfinished] at hok
      cases hok
      exact (WriteHelper.finish_lineRendition hfinished).trans hrow

lemma writeCell_lineRendition {cell : OutputCellView α} {currentIndex finalColumnInRow : ℕ} {moved : Bool}
    (hok : r.writeCell cell currentIndex finalColumnInRow = .ok (r', moved)) : r'.lineRendition = r.lineRendition := by
  -- Every branch replaces characters, once at most.
  have hreplaces : ∀ {columnBegin width : ℕ} {chars : List UInt16} {f : Row α → Row α × Bool},
      (∀ row, (f row).1.lineRendition = row.lineRendition) →
      (do let row ← r.replaceCharacters columnBegin width chars; .ok (f row)) =
        (.ok (r', moved) : Except BufferError _) → r'.lineRendition = r.lineRendition := by
    intro columnBegin width chars f hf hok
    cases hreplaced : r.replaceCharacters columnBegin width chars with
    | error e =>
      rw [hreplaced] at hok
      cases hok
    | ok row =>
      rw [hreplaced] at hok
      have hpair : f row = (r', moved) := Except.ok.inj hok
      rw [← replaceCharacters_lineRendition hreplaced, ← hf row, hpair]
  unfold writeCell clearCell at hok
  split at hok
  · split at hok
    · exact hreplaces (fun row => rfl) hok
    · exact hreplaces (fun row => rfl) hok
  · split at hok
    · exact hreplaces (fun row => rfl) hok
    · split at hok
      · exact hreplaces (fun row => rfl) hok
      · cases hok
        rfl
  · exact hreplaces (fun row => rfl) hok

lemma writeCellsLoop_lineRendition [DecidableEq α] {wrap : Option Bool} {finalColumnInRow : ℕ}
    {cells : List (OutputCellView α)} {currentColor : α} {colorUses colorStarts currentIndex : ℕ}
    (hok : writeCellsLoop wrap finalColumnInRow cells currentColor colorUses colorStarts currentIndex r = .ok r') :
    r'.lineRendition = r.lineRendition := by
  have hlast : ∀ {row : Row α} {uses start stop : ℕ} {color : α},
      (if uses = 0 then row else row.replaceAttr start stop color).lineRendition = row.lineRendition := by
    intro row uses start stop color
    split <;> rfl
  induction cells generalizing currentColor colorUses colorStarts currentIndex r with
  | nil =>
    cases hok
    exact hlast
  | cons cell rest ih =>
    unfold writeCellsLoop at hok
    split at hok
    · cases hok
      exact hlast
    · dsimp only at hok
      generalize hrow : (if decide (cell.textAttrBehavior = .current) || decide (currentColor = cell.textAttr) then r
        else r.replaceAttr colorStarts currentIndex currentColor) = row at hok
      have hsame : row.lineRendition = r.lineRendition := by
        rw [← hrow]
        split <;> rfl
      split at hok
      · exact (ih hok).trans hsame
      · cases hcell : row.writeCell cell currentIndex finalColumnInRow with
        | error e =>
          rw [hcell] at hok
          cases hok
        | ok written =>
          obtain ⟨row', moved⟩ := written
          rw [hcell] at hok
          have hwritten := (writeCell_lineRendition hcell).trans hsame
          change (if moved then writeCellsLoop wrap finalColumnInRow rest _ _ _ _ _ else _) = _ at hok
          split at hok
          · refine (ih hok).trans (Eq.trans ?_ hwritten)
            split <;> rfl
          · cases hok
            refine hlast.trans (Eq.trans ?_ hwritten)
            split <;> rfl

lemma writeCells_lineRendition [DecidableEq α] {cells : List (OutputCellView α)} {columnBegin : ℕ} {wrap : Option Bool}
    {limitRight : Option ℕ} (hok : r.writeCells cells columnBegin wrap limitRight = .ok r') :
    r'.lineRendition = r.lineRendition := by
  unfold writeCells at hok
  split at hok
  · cases hok
  · split at hok
    · cases hok
      rfl
    · split at hok
      · next hloop =>
        cases hok
        exact writeCellsLoop_lineRendition hloop
      · cases hok

lemma copyTextFrom_lineRendition {state : RowCopyTextFromState α} {result : RowCopyTextFromResult}
    (hok : r.copyTextFrom state = .ok (r', result)) : r'.lineRendition = r.lineRendition := by
  unfold copyTextFrom at hok
  dsimp only at hok
  generalize (if (_ : ℕ) < _ then List.take _ (List.drop _ state.source.charOffsets) else []) = charOffsets at hok
  generalize (if (_ : ℕ) < _ then List.take _ (List.drop _ state.source.chars) else []) = chars at hok
  split at hok
  · cases hok
    rfl
  · obtain ⟨h, hfinish, hok⟩ := ok_of_bind hok
    cases hok
    exact WriteHelper.finish_lineRendition hfinish

end Row

namespace TextBuffer

variable {b b' : TextBuffer α}

/-- Only rows change, and their line renditions do not. -/
structure KeepsRenditions (b b' : TextBuffer α) : Prop where
  same : b' = { b with rows := b'.rows }
  lineRendition : ∀ y < b.height, (b'.getRow y).lineRendition = (b.getRow y).lineRendition

namespace KeepsRenditions

lemma height (h : KeepsRenditions b b') : b'.height = b.height := by rw [h.same]

lemma refl (b : TextBuffer α) : KeepsRenditions b b := ⟨rfl, fun _ _ => rfl⟩

lemma trans {b'' : TextBuffer α} (h : KeepsRenditions b b') (h' : KeepsRenditions b' b'') : KeepsRenditions b b'' := by
  constructor
  · rw [h'.same, h.same]
  · intro y hy
    rw [h'.lineRendition y (h.height ▸ hy), h.lineRendition y hy]

lemma setRowByOffset (index : ℤ) {row : Row α} (hrow : row.lineRendition = (b.getRowByOffset index).lineRendition) :
    KeepsRenditions b (b.setRowByOffset index row) := by
  refine ⟨rfl, fun y hy => ?_⟩
  unfold getRowByOffset at hrow
  unfold TextBuffer.setRowByOffset
  have hindex : (index % b.height).toNat < b.height := by
    have := Int.emod_lt_of_pos index (show (0 : ℤ) < b.height by omega)
    have := Int.emod_nonneg index (show (b.height : ℤ) ≠ 0 by omega)
    omega
  rcases eq_or_ne y (index % b.height).toNat with rfl | hne
  · rw [getRow_setRow_self]
    exact hrow
  · rw [getRow_setRow_of_ne hindex hy hne]

end KeepsRenditions

/-- **A write keeps the line renditions**, and what is not in rows. -/
theorem writeLine_lineRendition [DecidableEq α] {givenIt : List (OutputCellView α)} {target : Types.Point}
    {wrap : Option Bool} {limitRight : Option ℕ} (hok : b.writeLine givenIt target wrap limitRight = .ok b') :
    KeepsRenditions b b' := by
  unfold writeLine at hok
  split at hok
  · cases hok
    exact .refl b
  · obtain ⟨row, hcells, hok⟩ := ok_of_bind hok
    cases hok
    exact .setRowByOffset _ (Row.writeCells_lineRendition hcells)

/-- `fillRows` goes on with the rows below. -/
theorem fillRows_lineRendition {scratchpad : Row α} {attributes : α} {left right rest : ℕ} {y : ℤ}
    (hok : fillRows scratchpad attributes left right rest y b = .ok b') : KeepsRenditions b b' := by
  induction rest generalizing y b with
  | zero =>
    cases hok
    exact .refl _
  | succ rest ih =>
    unfold fillRows at hok
    obtain ⟨⟨row, result⟩, hcopied, hok⟩ := ok_of_bind hok
    dsimp only at hok
    have hrow := Row.copyTextFrom_lineRendition hcopied
    have hwritten : (row.replaceAttributes left right attributes).lineRendition = row.lineRendition := rfl
    exact (KeepsRenditions.setRowByOffset y (hwritten.trans hrow)).trans (ih hok)

theorem fillRect_lineRendition {cwd : Clustering} {rect : Types.Rect} {fill : List UInt16} {attributes : α}
    (hok : b.fillRect cwd rect fill attributes = .ok b') : KeepsRenditions b b' := by
  unfold fillRect at hok
  split at hok
  · cases hok
    exact .refl b
  · dsimp only at hok
    split at hok
    · obtain ⟨scratchpad, -, hok⟩ := ok_of_bind hok
      exact fillRows_lineRendition hok
    · exact fillRows_lineRendition hok

/-- The renditions of some rows are reset. -/
theorem resetLineRenditionFrom_lineRendition {rest y : ℕ} (hrest : y + rest ≤ b.height) :
    resetLineRenditionFrom rest y b = { b with rows := (resetLineRenditionFrom rest y b).rows } ∧
      ∀ z < b.height, ((resetLineRenditionFrom rest y b).getRow z).lineRendition =
        if y ≤ z ∧ z < y + rest then .singleWidth else (b.getRow z).lineRendition := by
  induction rest generalizing y b with
  | zero => exact ⟨rfl, fun z _ => (if_neg (by omega)).symm⟩
  | succ rest ih =>
    have hindex : ((y : ℤ) % b.height).toNat = y := by
      rw [Int.emod_eq_of_lt (by omega) (by omega), Int.toNat_natCast]
    have hstep : resetLineRenditionFrom (rest + 1) y b = resetLineRenditionFrom rest (y + 1 : ℕ)
        (b.setRow y ((b.getRow y).setLineRendition .singleWidth)) := by
      rw [resetLineRenditionFrom]
      unfold getRowByOffset setRowByOffset
      rw [hindex]
      rfl
    obtain ⟨hsame, hrows⟩ := @ih (b.setRow y ((b.getRow y).setLineRendition .singleWidth)) (y + 1)
      (show y + 1 + rest ≤ b.height by omega)
    rw [hstep]
    refine ⟨hsame.trans rfl, fun z hz => ?_⟩
    rw [hrows z hz]
    rcases eq_or_ne z y with rfl | hne
    · rw [if_neg (by omega), if_pos (by omega), getRow_setRow_self]
      rfl
    · rw [getRow_setRow_of_ne (by omega) hz hne]
      exact if_congr (by omega) rfl rfl

end TextBuffer

end VT7.Buffer
