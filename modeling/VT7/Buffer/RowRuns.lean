import VT7.Buffer.CopyLoop
import VT7.Buffer.RowReplace

/-!
# Rows over whole runs

A row is made, written to, copied into and reset.  As long as no write makes its text 0x8000 code units long,
its offsets stay in order (`reached_ordered`): an offset has fifteen bits and the flag, while `_chars` may grow to
65535 code units.  One such write is enough to break the row (`longText_breaks`).
-/

namespace VT7.Buffer

open WriteHelper

variable {α : Type}

/-- The offsets of a row are in order. -/
structure Row.Ordered (r : Row α) : Prop where
  length : r.charOffsets.length = r.columnCount + 1
  first : r.charOffsets.getD 0 0 = 0
  last : isTrailer r.charSize = false ∧ r.charSize ≤ r.chars.length
  increasing : ∀ i j, i < j → j ≤ r.columnCount → isTrailer (r.charOffsets.getD i 0) = false →
    isTrailer (r.charOffsets.getD j 0) = false → r.charOffsets.getD i 0 < r.charOffsets.getD j 0
  /-- A trailer repeats the offset of the column the loop back stops at. -/
  trailers : ∀ i ≤ r.columnCount, isTrailer (r.charOffsets.getD i 0) = true →
    r.adjustBackward i < i ∧ isTrailer (r.charOffsets.getD (r.adjustBackward i) 0) = false ∧
      r.charOffsets.getD i 0 = r.charOffsets.getD (r.adjustBackward i) 0 + charOffsetsTrailer
  /-- The loops over trailers stop at a column of the array. -/
  stops : ∀ i ≤ r.columnCount, (∃ j ≤ i, isTrailer (r.charOffsets.getD j 0) = false) ∧
    ∃ j, i ≤ j ∧ j ≤ r.columnCount ∧ isTrailer (r.charOffsets.getD j 0) = false
  glyphs : ∀ column < r.columnCount, r.glyphAt column ≠ [] ∧ r.glyphAt column <:+: r.chars.take r.charSize

/-! ### Rows that stand for glyphs -/

section Holds

variable {r : Row α} {gs : List Glyph}

/-- A column is the first or the other one of a glyph, or the end. -/
lemma column_cases (hr : r.Holds gs) {i : ℕ} (hi : i ≤ r.columnCount) :
    (∃ f, f <+: gs ∧ cols f = i ∧ r.charOffsets.getD i 0 = units f) ∨
      ∃ f g rest, gs = f ++ g :: rest ∧ g.width = 2 ∧ i = cols f + 1 ∧
        r.charOffsets.getD i 0 = units f + 0x8000 := by
  have hcolumns := hr.columns
  rcases upTo_spec i gs with hall | ⟨g, rest, hsplit, hg⟩
  · have hle := cols_upTo_le i gs
    rw [hall] at hle
    have heq : cols gs = i := by omega
    have hget := getD_offsetsFrom 0 gs []
    rw [List.append_nil, Nat.zero_add, heq] at hget
    exact .inl ⟨gs, List.prefix_refl gs, heq, by rw [hr.offsets, hget]⟩
  · have hle := cols_upTo_le i gs
    have hwidth := g.width_le
    rcases Nat.eq_or_lt_of_le hle with heq | hlt
    · have hget := getD_offsetsFrom 0 (upTo i gs) (g :: rest)
      rw [← hsplit, heq, Nat.zero_add] at hget
      exact .inl ⟨upTo i gs, upTo_isPrefix i gs, heq, by rw [hr.offsets, hget]⟩
    · have htwo : g.width = 2 := by omega
      have hget := getD_offsetsFrom_trailer 0 (upTo i gs) g rest htwo
      have hi' : i = cols (upTo i gs) + 1 := by omega
      rw [← hsplit, ← hi', Nat.zero_add] at hget
      exact .inr ⟨upTo i gs, g, rest, hsplit, htwo, hi', by rw [hr.offsets, hget]⟩

lemma getD_of_isPrefix (hr : r.Holds gs) {f : List Glyph} (hf : f <+: gs) :
    r.charOffsets.getD (cols f) 0 = units f := by
  obtain ⟨rest, rfl⟩ := hf
  rw [hr.offsets, getD_offsetsFrom, Nat.zero_add]

lemma isTrailer_of_isPrefix (hr : r.Holds gs) {f : List Glyph} (hf : f <+: gs) :
    isTrailer (r.charOffsets.getD (cols f) 0) = false := by
  rw [getD_of_isPrefix hr hf]
  exact isTrailer_of_lt ((units_le_of_isPrefix hf).trans_lt hr.short)

lemma units_lt_of_cols_lt {f f' : List Glyph} (hf : f <+: gs) (hf' : f' <+: gs) (hlt : cols f < cols f') :
    units f < units f' := by
  have hprefix : f <+: f' := by
    rcases List.prefix_or_prefix_of_prefix hf hf' with h | h
    · exact h
    · have hle := cols_le_of_isPrefix h
      omega
  obtain ⟨rest, rfl⟩ := hprefix
  rw [cols_append] at hlt
  have hne : rest ≠ [] := by
    rintro rfl
    rw [cols_nil] at hlt
    omega
  have hlength := length_le_units rest
  have hpos := List.length_pos_iff.mpr hne
  rw [units_append]
  omega

/-- The glyph of a column is a part of the text. -/
lemma glyphAt_spec (hr : r.Holds gs) {column : ℕ} (hcolumn : column < r.columnCount) :
    r.glyphAt column ≠ [] ∧ r.glyphAt column <:+: r.chars.take r.charSize := by
  have hcolumns := hr.columns
  have hshort := hr.short
  have hclamp : r.clampedColumn column = column := Nat.min_eq_left (by omega)
  obtain ⟨p, hsplit, hstep, hp, -⟩ := stepForward_spec 0 gs (by simpa using hshort) (k := column + 1) (by omega)
  have hprefix : p <+: gs := ⟨_, hsplit.symm⟩
  have hpcols := cols_le_of_isPrefix hprefix
  have hfirst : r.uncheckedCharOffset column = units (upTo column gs) := hr.uncheckedCharOffset (by omega)
  have hlast : r.uncheckedCharOffset (stepForward r.charOffsets (column + 1)) = units p := by
    rw [hr.offsets, hstep, hr.uncheckedCharOffset (by omega), upTo_cols_of_isPrefix hprefix]
  have hle := cols_upTo_le column gs
  have hlt := units_lt_of_cols_lt (upTo_isPrefix column gs) hprefix (by omega)
  have hpunits := units_le_of_isPrefix hprefix
  have hglyph : r.glyphAt column = ((r.chars.take r.charSize).drop (units (upTo column gs))).take
      (units p - units (upTo column gs)) := by
    unfold Row.glyphAt
    dsimp only
    rw [hclamp, hfirst, hlast, hr.charSize, List.drop_take, List.take_take, Nat.min_eq_left (by omega)]
  have hroom := hr.units_le
  rw [hglyph]
  refine ⟨?_, ?_⟩
  · refine List.length_pos_iff.mp ?_
    rw [List.length_take, List.length_drop, List.length_take, hr.charSize]
    omega
  · exact (List.take_prefix _ _).isInfix.trans (List.drop_suffix _ _).isInfix

/-- **A row that stands for glyphs is in order.** -/
theorem Row.Holds.ordered (hr : r.Holds gs) : r.Ordered := by
  have hcolumns := hr.columns
  have hshort := hr.short
  have hend := isTrailer_of_isPrefix hr (List.prefix_refl gs)
  refine ⟨?_, ?_, ?_, ?_, ?_, ?_, fun column hcolumn => glyphAt_spec hr hcolumn⟩
  · rw [hr.offsets, length_offsetsFrom, hcolumns]
  · exact getD_of_isPrefix hr (f := []) List.nil_prefix
  · rw [hr.charSize]
    exact ⟨isTrailer_of_lt hshort, hr.units_le⟩
  · intro i j hij hj hleader hleader'
    have hunits {k : ℕ} {f : List Glyph} (hk : r.charOffsets.getD k 0 = units f + 0x8000) {rest : List Glyph}
        (hf : gs = f ++ rest) : isTrailer (r.charOffsets.getD k 0) = true := by
      rw [hk]
      refine isTrailer_trailer ?_
      rw [hf, units_append] at hshort
      omega
    rcases column_cases hr (i := i) (by omega) with ⟨f, hf, hfi, hoffset⟩ | ⟨f, g, rest, hsplit, -, -, hoffset⟩
    · rcases column_cases hr hj with ⟨f', hf', hfj, hoffset'⟩ | ⟨f', g, rest, hsplit, -, -, hoffset'⟩
      · rw [hoffset, hoffset']
        exact units_lt_of_cols_lt hf hf' (by omega)
      · rw [hunits hoffset' hsplit] at hleader'
        cases hleader'
    · rw [hunits hoffset hsplit] at hleader
      cases hleader
  · intro i hi htrailer
    rcases column_cases hr hi with ⟨f, hf, hfi, hoffset⟩ | ⟨f, g, rest, hsplit, hg, hfi, hoffset⟩
    · rw [← hfi, isTrailer_of_isPrefix hr hf] at htrailer
      cases htrailer
    · have hf : f <+: gs := ⟨_, hsplit.symm⟩
      have hback : r.adjustBackward i = cols f := by
        have hfit : upTo i gs = f := by
          rw [hsplit]
          exact VT7.Lib.Filling.fitting_eq Glyph.width g rest (by show cols f ≤ i; omega)
            (by show i < cols f + g.width; omega)
        rw [hr.adjustBackward hi, hfit]
      rw [hback]
      refine ⟨by omega, isTrailer_of_isPrefix hr hf, ?_⟩
      rw [hoffset, getD_of_isPrefix hr hf]
      rfl
  · intro i hi
    refine ⟨⟨0, Nat.zero_le i, ?_⟩, ⟨r.columnCount, hi, le_refl _, ?_⟩⟩
    · exact isTrailer_of_isPrefix hr (f := []) List.nil_prefix
    · rw [← hcolumns]
      exact hend

end Holds

/-! ### Operations -/

/-- The operations that write into a row. -/
inductive RowOp (α : Type) where
  | replaceText (state : RowWriteState)
  /-- The width is asserted to be one or two columns. -/
  | replaceCharacters (columnBegin : ℕ) (wide : Bool) (chars : List UInt16)
  | clearCell (column : ℕ)
  | writeCells (cells : List (OutputCellView α)) (columnBegin : ℕ) (wrap : Option Bool) (limitRight : Option ℕ)
  | copyTextFrom (state : RowCopyTextFromState α)
  | copyFrom (source : Row α)
  | reset (attr : α)

section Operations

variable [DecidableEq α] [Inhabited α]

/-- The row behind an operation.  What throws out of a write resets the row. -/
def Row.perform (cwd : Clustering) (r : Row α) : RowOp α → Row α
  | .replaceText state => ((r.replaceText cwd state).map Prod.fst).toOption.getD (r.reset default)
  | .replaceCharacters columnBegin wide chars =>
    (r.replaceCharacters columnBegin (wide.toNat + 1) chars).toOption.getD (r.reset default)
  | .clearCell column => (r.clearCell column).toOption.getD (r.reset default)
  | .writeCells cells columnBegin wrap limitRight =>
    match r.writeCells cells columnBegin wrap limitRight with
    | .ok r => r
    | .error .invalidArgument => r
    | .error (.buffer _) => r.reset default
  | .copyTextFrom state => ((r.copyTextFrom state).map Prod.fst).toOption.getD (r.reset default)
  | .copyFrom source => (r.copyFrom source).toOption.getD (r.reset default)
  | .reset attr => r.reset attr

end Operations

/-! ### The glyphs behind an operation -/

lemma two_width_pos (wide : Bool) : 1 ≤ wide.toNat + 1 := Nat.le_add_left 1 _

lemma two_width_le (wide : Bool) : wide.toNat + 1 ≤ 2 := Nat.add_le_add_right (Bool.toNat_le wide) 1

/-- A glyph written at a column; without text or behind the last column nothing is written. -/
def glyphWritten (gs : List Glyph) (x : ℕ) (wide : Bool) (chars : List UInt16) : List Glyph :=
  if h : chars ≠ [] ∧ x < cols gs then
    charactersWritten gs x ⟨chars, wide.toNat + 1, h.1, two_width_pos wide, two_width_le wide⟩
  else gs

/-- A cell of `WriteCells`. -/
def cellWritten (gs : List Glyph) (cell : OutputCellView α) (currentIndex finalColumnInRow : ℕ) : List Glyph :=
  match cell.dbcsAttr with
  | .leading =>
    if currentIndex = finalColumnInRow then glyphWritten gs currentIndex false [space]
    else glyphWritten gs currentIndex true cell.chars
  | .trailing =>
    if currentIndex = 0 then glyphWritten gs currentIndex false [space]
    else if cell.position = 0 then glyphWritten gs (currentIndex - 1) true cell.chars
    else gs
  | .single => glyphWritten gs currentIndex false cell.chars

/-- None of the cells makes the text too long. -/
def CellsFit (finalColumnInRow : ℕ) : List (OutputCellView α) → ℕ → List Glyph → Prop
  | [], _, _ => True
  | cell :: rest, currentIndex, gs =>
    if finalColumnInRow < currentIndex then True
    else if cell.textAttrBehavior = .storedOnly then CellsFit finalColumnInRow rest (currentIndex + 1) gs
    else
      units (cellWritten gs cell currentIndex finalColumnInRow) < 0x8000 ∧
        CellsFit finalColumnInRow rest (currentIndex + 1) (cellWritten gs cell currentIndex finalColumnInRow)

/-- The glyphs behind `CopyTextFrom`, from a source whose glyphs are `source`. -/
def copyWritten (r : Row α) (gs source : List Glyph) (state : RowCopyTextFromState α) : List Glyph :=
  if cols (upTo state.sourceColumnBegin source) = state.sourceColumnBegin ∧ 0 < room r state ∧
      state.sourceIsThis = false ∧
      available state (upTo state.sourceColumnBegin source) (source.drop (upTo state.sourceColumnBegin source).length) ≠ []
  then
    overlaid gs (r.clampedColumnInclusive state.columnBegin) (copyDirty r state (upTo state.sourceColumnBegin source))
      (fitting r state (upTo state.sourceColumnBegin source) (source.drop (upTo state.sourceColumnBegin source).length))
  else gs

/-- **The condition**: the text stays shorter than 0x8000 code units.  `gs` are the glyphs of the row before the
operation. -/
def RowOp.Fits (cwd : Clustering) (r : Row α) (gs : List Glyph) : RowOp α → Prop
  | .replaceText state =>
    r.clampedColumnInclusive state.columnBegin < r.clampedColumnInclusive state.columnLimit → state.text ≠ [] →
      units (textWritten cwd gs (r.clampedColumnInclusive state.columnBegin)
        (r.clampedColumnInclusive state.columnLimit) state.text) < 0x8000
  | .replaceCharacters columnBegin wide chars => units (glyphWritten gs columnBegin wide chars) < 0x8000
  | .clearCell column => units (glyphWritten gs column false [space]) < 0x8000
  | .writeCells cells columnBegin _ limitRight =>
    columnBegin < r.columnCount → CellsFit (limitRight.getD (r.columnCount - 1)) cells columnBegin gs
  | .copyTextFrom state => ∀ source, state.source.Holds source → units (copyWritten r gs source state) < 0x8000
  | .copyFrom source => ∀ glyphs, source.Holds glyphs →
      units (copyWritten r gs glyphs { source, sourceColumnLimit := source.getReadableColumnCount }) < 0x8000
  | .reset _ => True

/-! ### What an operation keeps -/

/-- The row stands for glyphs and has few enough columns. -/
def Row.Sound (r : Row α) : Prop := r.columnCount < 0x8000 ∧ ∃ gs, r.Holds gs

section Steps

variable {r : Row α} {gs : List Glyph}

lemma replaceCharacters_written (hr : r.Holds gs) (hcount : r.columnCount < 0x8000) {x : ℕ} {wide : Bool}
    {chars : List UInt16} (hshort : units (glyphWritten gs x wide chars) < 0x8000) :
    ∃ r', r.replaceCharacters x (wide.toNat + 1) chars = .ok r' ∧ r'.Holds (glyphWritten gs x wide chars) ∧
      r'.columnCount = r.columnCount := by
  have hcolumns := hr.columns
  unfold glyphWritten at *
  by_cases h : chars ≠ [] ∧ x < cols gs
  · rw [dif_pos h] at hshort ⊢
    have hx : r.clampedColumnInclusive x = x := Nat.min_eq_left (by omega)
    exact replaceCharacters_holds hr ⟨chars, wide.toNat + 1, h.1, two_width_pos wide, two_width_le wide⟩ hx
      (by omega) hcount hshort
  · rw [dif_neg h]
    refine ⟨r, ?_, hr, rfl⟩
    have hinvalid : (create r x r.columnCount chars).isValid = false := by
      show (decide (r.clampedColumnInclusive x < r.clampedColumnInclusive r.columnCount) && !chars.isEmpty) = false
      rw [Bool.and_eq_false_iff, decide_eq_false_iff_not, Bool.not_eq_false', List.isEmpty_iff]
      rw [not_and_or, not_not] at h
      rcases h with h | h
      · exact .inr h
      · left
        unfold Row.clampedColumnInclusive
        omega
    unfold Row.replaceCharacters
    dsimp only
    rw [hinvalid]
    rfl

lemma writeCell_written (hr : r.Holds gs) (hcount : r.columnCount < 0x8000) (cell : OutputCellView α) {i final : ℕ}
    (hshort : units (cellWritten gs cell i final) < 0x8000) :
    ∃ r' moved, r.writeCell cell i final = .ok (r', moved) ∧ r'.Holds (cellWritten gs cell i final) ∧
      r'.columnCount = r.columnCount := by
  unfold Row.writeCell Row.clearCell
  unfold cellWritten at hshort ⊢
  cases hdbcs : cell.dbcsAttr with
  | leading =>
    rw [hdbcs] at hshort
    dsimp only at hshort ⊢
    split
    · next hlast =>
      rw [if_pos hlast] at hshort
      obtain ⟨r', hok, hholds, hcount'⟩ := replaceCharacters_written hr hcount hshort
      refine ⟨{ r' with doubleBytePadded := true }, false, ?_, hholds.congr rfl rfl rfl, hcount'⟩
      exact congrArg (· >>= _) hok
    · next hlast =>
      rw [if_neg hlast] at hshort
      obtain ⟨r', hok, hholds, hcount'⟩ := replaceCharacters_written hr hcount hshort
      exact ⟨r', true, congrArg (· >>= _) hok, hholds, hcount'⟩
  | trailing =>
    rw [hdbcs] at hshort
    dsimp only at hshort ⊢
    split
    · next hfirst =>
      rw [if_pos hfirst] at hshort
      obtain ⟨r', hok, hholds, hcount'⟩ := replaceCharacters_written hr hcount hshort
      exact ⟨r', true, congrArg (· >>= _) hok, hholds, hcount'⟩
    · next hfirst =>
      rw [if_neg hfirst] at hshort
      split
      · next hposition =>
        rw [if_pos hposition] at hshort
        obtain ⟨r', hok, hholds, hcount'⟩ := replaceCharacters_written hr hcount hshort
        exact ⟨r', true, congrArg (· >>= _) hok, hholds, hcount'⟩
      · exact ⟨r, true, rfl, hr, rfl⟩
  | single =>
    rw [hdbcs] at hshort
    dsimp only at hshort ⊢
    obtain ⟨r', hok, hholds, hcount'⟩ := replaceCharacters_written hr hcount hshort
    exact ⟨r', true, congrArg (· >>= _) hok, hholds, hcount'⟩

lemma Row.Holds.replaceAttr (hr : r.Holds gs) (start stop : ℕ) (attr : α) : (r.replaceAttr start stop attr).Holds gs :=
  hr.congr rfl rfl rfl

/-- The colour that is still to be written does not matter for the text. -/
lemma sound_replaceAttr (hr : r.Holds gs) (hcount : r.columnCount < 0x8000) (uses start stop : ℕ) (attr : α) :
    Row.Sound (if uses = 0 then r else r.replaceAttr start stop attr) := by
  split
  · exact ⟨hcount, gs, hr⟩
  · exact ⟨hcount, gs, hr.replaceAttr start stop attr⟩

lemma writeCellsLoop_sound [DecidableEq α] (wrap : Option Bool) (final : ℕ) (cells : List (OutputCellView α)) (color : α)
    (uses start i : ℕ) (hr : r.Holds gs) (hcount : r.columnCount < 0x8000) (hfit : CellsFit final cells i gs) :
    ∃ r', Row.writeCellsLoop wrap final cells color uses start i r = .ok r' ∧ r'.Sound := by
  induction cells generalizing color uses start i r gs with
  | nil => exact ⟨_, rfl, sound_replaceAttr hr hcount _ _ _ _⟩
  | cons cell rest ih =>
    unfold Row.writeCellsLoop
    unfold CellsFit at hfit
    by_cases hend : final < i
    · rw [if_pos hend]
      exact ⟨_, rfl, sound_replaceAttr hr hcount _ _ _ _⟩
    · rw [if_neg hend] at hfit ⊢
      dsimp only
      generalize hr₀ : (if decide (cell.textAttrBehavior = .current) || decide (color = cell.textAttr) then r
        else r.replaceAttr start i color) = r₀
      have hholds₀ : r₀.Holds gs := by
        rw [← hr₀]
        split
        · exact hr
        · exact hr.replaceAttr _ _ _
      have hcount₀ : r₀.columnCount < 0x8000 := by
        rw [← hr₀]
        split
        · exact hcount
        · exact hcount
      by_cases hstored : cell.textAttrBehavior = .storedOnly
      · rw [if_pos hstored] at hfit ⊢
        exact ih _ _ _ _ hholds₀ hcount₀ hfit
      · rw [if_neg hstored] at hfit ⊢
        obtain ⟨r₁, moved, hok, hholds₁, hcount₁⟩ := writeCell_written hholds₀ hcount₀ cell hfit.1
        rw [hok]
        have hholds₂ : (if i = final then { r₁ with wrapForced := wrap.getD r₁.wrapForced } else r₁).Holds
            (cellWritten gs cell i final) := by
          split
          · exact hholds₁.congr rfl rfl rfl
          · exact hholds₁
        have hcount₂ : (if i = final then { r₁ with wrapForced := wrap.getD r₁.wrapForced } else r₁).columnCount <
            0x8000 := by
          split
          · exact hcount₁ ▸ hcount₀
          · exact hcount₁ ▸ hcount₀
        cases moved with
        | true => exact ih _ _ _ _ hholds₂ hcount₂ hfit.2
        | false => exact ⟨_, rfl, sound_replaceAttr hholds₂ hcount₂ _ _ _ _⟩

/-- Nothing is copied from the row itself, from behind the last column or from the second half of a glyph. -/
lemma copyTextFrom_skips {state : RowCopyTextFromState α}
    (h : state.sourceIsThis = true ∨
      (state.source.clampedColumnInclusive state.sourceColumnBegin <
          state.source.clampedColumnInclusive state.sourceColumnLimit →
        isTrailer (state.source.charOffsets.getD (state.source.clampedColumnInclusive state.sourceColumnBegin) 0) = true)) :
    ∃ result, r.copyTextFrom state = .ok (r, result) := by
  have hhead (l : List ℕ) (n k : ℕ) : ((l.drop n).take (k + 1)).headD 0 = l.getD n 0 := by
    rw [List.headD_eq_head?_getD, List.head?_take, List.head?_drop, List.getD_eq_getElem?_getD, if_neg (Nat.succ_ne_zero k)]
  unfold Row.copyTextFrom
  dsimp only
  by_cases hlt : state.source.clampedColumnInclusive state.sourceColumnBegin <
      state.source.clampedColumnInclusive state.sourceColumnLimit
  · rw [if_pos hlt, if_pos hlt, hhead]
    rcases h with h | h
    · rw [if_pos (by rw [h, Bool.or_true, Bool.true_or, Bool.true_or])]
      exact ⟨_, rfl⟩
    · rw [if_pos (by rw [h hlt, Bool.or_true])]
      exact ⟨_, rfl⟩
  · rw [if_neg hlt, if_neg hlt, if_pos (by simp)]
    exact ⟨_, rfl⟩

lemma copyTextFrom_written {state : RowCopyTextFromState α} {source : List Glyph} (hr : r.Holds gs)
    (hs : state.sourceIsThis = false → state.source.Holds source)
    (hshort : units (copyWritten r gs source state) < 0x8000) :
    ∃ r' result, r.copyTextFrom state = .ok (r', result) ∧ r'.Holds (copyWritten r gs source state) ∧
      r'.columnCount = r.columnCount := by
  have hunchanged (hskip : ∃ result, r.copyTextFrom state = .ok (r, result)) (hsame : copyWritten r gs source state = gs) :
      ∃ r' result, r.copyTextFrom state = .ok (r', result) ∧ r'.Holds (copyWritten r gs source state) ∧
        r'.columnCount = r.columnCount := by
    obtain ⟨result, hok⟩ := hskip
    exact ⟨r, result, hok, by rw [hsame]; exact hr, rfl⟩
  by_cases hother : state.sourceIsThis = false
  swap
  · exact hunchanged (copyTextFrom_skips (.inl (by simpa using hother))) (if_neg fun h => hother h.2.2.1)
  have hs := hs hother
  obtain ⟨rest, hrest⟩ := upTo_isPrefix state.sourceColumnBegin source
  have hdrop : source.drop (upTo state.sourceColumnBegin source).length = rest := by
    have happ := congrArg (List.drop (upTo state.sourceColumnBegin source).length) hrest
    rw [List.drop_left] at happ
    exact happ.symm
  by_cases hbeg : cols (upTo state.sourceColumnBegin source) = state.sourceColumnBegin
  · rw [← hrest] at hs
    by_cases hcopy : available state (upTo state.sourceColumnBegin source) rest ≠ [] ∧ 0 < room r state
    · have hwritten : copyWritten r gs source state = overlaid gs (r.clampedColumnInclusive state.columnBegin)
          (copyDirty r state (upTo state.sourceColumnBegin source))
          (fitting r state (upTo state.sourceColumnBegin source) rest) := by
        unfold copyWritten
        rw [hdrop, if_pos ⟨hbeg, hcopy.2, hother, hcopy.1⟩]
      rw [hwritten] at hshort ⊢
      obtain ⟨r', result, hok, hholds, hfields⟩ := copyTextFrom_holds hs hbeg.symm hr hcopy.1 hcopy.2 hother hshort
      refine ⟨r', result, hok, hholds, ?_⟩
      rw [hfields]
    · refine hunchanged ?_ ?_
      · rw [copyTextFrom_eq hs hbeg.symm, if_neg (fun h => hcopy ⟨h.1, h.2.1⟩)]
        exact ⟨_, rfl⟩
      · unfold copyWritten
        rw [hdrop, if_neg (fun h => hcopy ⟨h.2.2.2, h.2.1⟩)]
  · refine hunchanged (copyTextFrom_skips (.inr fun hlt => ?_)) (if_neg fun h => hbeg h.1)
    have hlimit : state.source.clampedColumnInclusive state.sourceColumnLimit ≤ state.source.columnCount := Nat.min_le_right _ _
    have hclamp : state.source.clampedColumnInclusive state.sourceColumnBegin = state.sourceColumnBegin := by
      unfold Row.clampedColumnInclusive at *
      omega
    rw [hclamp] at hlt ⊢
    rcases column_cases hs (i := state.sourceColumnBegin) (by omega) with ⟨f, hf, hfi, -⟩ | ⟨f, g, tail, hsplit, -, -, hoffset⟩
    · refine absurd ?_ hbeg
      rw [← hfi, upTo_cols_of_isPrefix hf]
    · have hshort := hs.short
      rw [hsplit, units_append] at hshort
      rw [hoffset]
      exact isTrailer_trailer (by omega)

end Steps

/-! ### Runs -/

section Runs

variable [DecidableEq α] [Inhabited α] {cwd : Clustering} {r : Row α} {gs : List Glyph}

/-- **One operation**: the row stays sound. -/
theorem perform_sound (op : RowOp α) (hr : r.Holds gs) (hcount : r.columnCount < 0x8000)
    (hsource : ∀ state, op = .copyTextFrom state → state.sourceIsThis = false → state.source.Sound)
    (hsource' : ∀ source, op = .copyFrom source → source.Sound) (hfits : op.Fits cwd r gs) :
    (r.perform cwd op).Sound := by
  cases op with
  | replaceText state =>
    by_cases hvalid : r.clampedColumnInclusive state.columnBegin < r.clampedColumnInclusive state.columnLimit ∧
        state.text ≠ []
    · obtain ⟨r', result, hok, hholds, hcount', -⟩ := replaceText_holds hr cwd state rfl rfl hvalid.1
        (List.length_pos_iff.mpr hvalid.2) hcount (hfits hvalid.1 hvalid.2)
      unfold Row.perform
      dsimp only
      rw [hok]
      exact ⟨hcount' ▸ hcount, _, hholds⟩
    · have hinvalid : (create r state.columnBegin state.columnLimit state.text).isValid = false := by
        show (decide (r.clampedColumnInclusive state.columnBegin < r.clampedColumnInclusive state.columnLimit) &&
          !state.text.isEmpty) = false
        rw [Bool.and_eq_false_iff, decide_eq_false_iff_not, Bool.not_eq_false', List.isEmpty_iff]
        rwa [not_and_or, not_not] at hvalid
      unfold Row.perform Row.replaceText
      dsimp only
      rw [hinvalid]
      exact ⟨hcount, gs, hr⟩
  | replaceCharacters columnBegin wide chars =>
    obtain ⟨r', hok, hholds, hcount'⟩ := replaceCharacters_written hr hcount hfits
    unfold Row.perform
    dsimp only
    rw [hok]
    exact ⟨hcount' ▸ hcount, _, hholds⟩
  | clearCell column =>
    obtain ⟨r', hok, hholds, hcount'⟩ := replaceCharacters_written hr hcount hfits
    have hclear : r.clearCell column = .ok r' := hok
    unfold Row.perform
    dsimp only
    rw [hclear]
    exact ⟨hcount' ▸ hcount, _, hholds⟩
  | writeCells cells columnBegin wrap limitRight =>
    unfold Row.perform Row.writeCells
    dsimp only
    by_cases harguments : r.columnCount ≤ columnBegin ∨ r.columnCount ≤ limitRight.getD 0
    · rw [if_pos harguments]
      exact ⟨hcount, gs, hr⟩
    · rw [if_neg harguments]
      cases cells with
      | nil => exact ⟨hcount, gs, hr⟩
      | cons cell rest =>
        obtain ⟨r', hok, hsound⟩ := writeCellsLoop_sound wrap (limitRight.getD (r.columnCount - 1)) (cell :: rest)
          cell.textAttr 0 columnBegin columnBegin hr hcount (hfits (by omega))
        dsimp only
        rw [hok]
        exact hsound
  | copyTextFrom state =>
    by_cases hother : state.sourceIsThis = false
    · obtain ⟨-, source, hs⟩ := hsource state rfl hother
      obtain ⟨r', result, hok, hholds, hcount'⟩ := copyTextFrom_written hr (fun _ => hs) (hfits source hs)
      unfold Row.perform
      dsimp only
      rw [hok]
      exact ⟨hcount' ▸ hcount, _, hholds⟩
    · obtain ⟨result, hok⟩ := @copyTextFrom_skips _ r state (.inl (by simpa using hother))
      unfold Row.perform
      dsimp only
      rw [hok]
      exact ⟨hcount, gs, hr⟩
  | copyFrom source =>
    obtain ⟨-, glyphs, hs⟩ := hsource' source rfl
    have hr' : ({ r with lineRendition := source.lineRendition, wrapForced := source.wrapForced } : Row α).Holds gs :=
      hr.congr rfl rfl rfl
    obtain ⟨r', result, hok, hholds, hcount'⟩ := @copyTextFrom_written _ _ _
      { source, sourceColumnLimit := source.getReadableColumnCount } _ hr' (fun _ => hs) (hfits glyphs hs)
    unfold Row.perform Row.copyFrom
    dsimp only
    rw [hok]
    exact ⟨hcount' ▸ hcount, _, hholds.congr rfl rfl rfl⟩
  | reset attr => exact ⟨hcount, _, reset_holds hcount attr⟩

/-- The rows of runs whose writes all meet the condition.  What is copied from is a row of such a run, too. -/
inductive Reached (cwd : Clustering) : Row α → Prop
  | create (rowWidth : ℕ) (fillAttribute : α) (hwidth : rowWidth < 0x8000) : Reached cwd (Row.create rowWidth fillAttribute)
  | perform {r : Row α} (op : RowOp α) (h : Reached cwd r)
      (hsource : ∀ state, op = .copyTextFrom state → state.sourceIsThis = false → Reached cwd state.source)
      (hsource' : ∀ source, op = .copyFrom source → Reached cwd source)
      (hfits : ∀ gs, r.Holds gs → op.Fits cwd r gs) : Reached cwd (r.perform cwd op)

lemma Reached.sound (h : Reached cwd r) : r.Sound := by
  induction h with
  | create rowWidth fillAttribute hwidth => exact ⟨hwidth, _, create_holds hwidth fillAttribute⟩
  | perform op _ _ _ hfits ih hsource hsource' =>
    obtain ⟨hcount, gs, hr⟩ := ih
    exact perform_sound op hr hcount hsource hsource' (hfits gs hr)

/-- **The offsets of a row stay in order** over every run whose writes leave less than 0x8000 code units. -/
theorem reached_ordered (cwd : Clustering) (r : Row α) (h : Reached cwd r) : r.Ordered := by
  obtain ⟨-, gs, hr⟩ := h.sound
  exact hr.ordered

end Runs

/-- A clustering that takes the rest of a text for one cluster. -/
def wholeText : Clustering where
  next chars _ position := (chars.length - position, 1)
  join _ _ := (0, 1)
  next_pos := fun _ _ _ h => Nat.sub_pos_of_lt h
  next_le := fun _ _ _ h => (Nat.add_sub_cancel' h.le).le
  next_width := fun _ _ _ => Nat.le_succ 1
  join_le := fun _ _ => Nat.zero_le _
  join_width := fun _ _ => Nat.le_succ 1

/-! ### Rows with the same text -/

section Unique

variable {r r' : Row α} {gs gs' : List Glyph}

lemma offsetsFrom_head (o : ℕ) (gs : List Glyph) : ∃ tail, offsetsFrom o gs = o :: tail := by
  cases gs with
  | nil => exact ⟨[], rfl⟩
  | cons g gs => exact ⟨_, offsetsFrom_cons o g gs⟩

/-- The offsets and the text say which glyphs there are. -/
lemma glyphs_unique {o : ℕ} (hoffsets : offsetsFrom o gs = offsetsFrom o gs') (htext : textOf gs = textOf gs')
    (hshort : o + units gs < 0x8000) (hshort' : o + units gs' < 0x8000) : gs = gs' := by
  induction gs generalizing o gs' with
  | nil =>
    have hlength := congrArg List.length hoffsets
    rw [length_offsetsFrom, length_offsetsFrom, cols_nil] at hlength
    by_contra hne
    have hpos := cols_pos (Ne.symm hne)
    omega
  | cons g gs ih =>
    cases gs' with
    | nil =>
      have hlength := congrArg List.length hoffsets
      have hpos := g.width_pos
      rw [length_offsetsFrom, length_offsetsFrom, cols_nil, cols_cons] at hlength
      omega
    | cons g' gs' =>
      rw [units_cons] at hshort hshort'
      rw [offsetsFrom_cons, offsetsFrom_cons] at hoffsets
      obtain ⟨tail, htail⟩ := offsetsFrom_head (o + g.text.length) gs
      obtain ⟨tail', htail'⟩ := offsetsFrom_head (o + g'.text.length) gs'
      have hwidth : g.width = g'.width := by
        have hg := g.width_pos
        have hg₂ := g.width_le
        have hg' := g'.width_pos
        have hg₂' := g'.width_le
        by_contra hne
        rw [htail, htail'] at hoffsets
        obtain ⟨hone, htwo⟩ | ⟨htwo, hone⟩ : g.width = 1 ∧ g'.width = 2 ∨ g.width = 2 ∧ g'.width = 1 := by omega
        · rw [hone, htwo] at hoffsets
          have hsecond := (List.cons_eq_cons.mp (List.cons_eq_cons.mp hoffsets).2).1
          omega
        · rw [hone, htwo] at hoffsets
          have hsecond := (List.cons_eq_cons.mp (List.cons_eq_cons.mp hoffsets).2).1
          omega
      rw [hwidth] at hoffsets
      have hrest := List.append_cancel_left (List.cons_eq_cons.mp hoffsets).2
      have hlength : g.text.length = g'.text.length := by
        have hhead := hrest
        rw [htail, htail'] at hhead
        have hfirst := (List.cons_eq_cons.mp hhead).1
        omega
      rw [textOf_cons, textOf_cons] at htext
      obtain ⟨hfront, hbehind⟩ := List.append_inj htext hlength
      have hg : g = g' := by
        obtain ⟨text, width, _, _, _⟩ := g
        obtain ⟨text', width', _, _, _⟩ := g'
        obtain rfl : text = text' := hfront
        obtain rfl : width = width' := hwidth
        rfl
      subst hg
      rw [ih hrest hbehind (by omega) (by omega)]

lemma Row.Holds.unique (hr : r.Holds gs) (hr' : r'.Holds gs') (hoffsets : r.charOffsets = r'.charOffsets)
    (htext : r.chars.take r.charSize = r'.chars.take r'.charSize) : gs = gs' := by
  rw [hr.charSize, hr'.charSize, hr.text, hr'.text] at htext
  rw [hr.offsets, hr'.offsets] at hoffsets
  exact glyphs_unique hoffsets htext (by rw [Nat.zero_add]; exact hr.short) (by rw [Nat.zero_add]; exact hr'.short)

end Unique

/-- A wide glyph is written into a row, which is copied over another one. -/
theorem reached_ordered_sample :
    ((Row.create 3 ()).perform wholeText
      (.copyFrom ((Row.create 3 ()).perform wholeText (.replaceCharacters 1 true [0x4e2d])))).Ordered := by
  have hcreated : Reached wholeText (Row.create 3 ()) := .create 3 () (by decide)
  have hblank : (Row.create 3 ()).Holds (blanks 3) := create_holds (by decide) ()
  have hwide : ((Row.create 3 ()).perform wholeText (.replaceCharacters 1 true [0x4e2d])).Holds
      [.blank, .wide 0x4e2d] := ⟨rfl, rfl, rfl, by decide⟩
  have hreached := Reached.perform (.replaceCharacters 1 true [0x4e2d]) hcreated (fun _ h => nomatch h)
    (fun _ h => nomatch h) fun gs hr => by
      rw [hr.unique hblank rfl rfl]
      show units (glyphWritten (blanks 3) 1 true [0x4e2d]) < 0x8000
      decide
  refine reached_ordered wholeText _ (.perform _ hcreated (fun _ h => nomatch h)
    (fun source h => RowOp.copyFrom.inj h ▸ hreached) fun gs hr glyphs hglyphs => ?_)
  rw [hr.unique hblank rfl rfl, hglyphs.unique hwide rfl rfl]
  show units [.blank, .wide 0x4e2d] < 0x8000
  decide

/-- One cluster of `m` code units, laid out in a row of one column. -/
lemma wholeText_laidOut {m : ℕ} (hm : 2 ≤ m) :
    (create (Row.create 1 ()) 0 coordTypeMax (List.replicate m 0x301)).replaceText wholeText =
      { create (Row.create 1 ()) 0 coordTypeMax (List.replicate m 0x301) with
        colEnd := 1
        colEndDirty := 1
        charsConsumed := m } := by
  obtain ⟨n, rfl⟩ : ∃ n, m = n + 2 := ⟨m - 2, by omega⟩
  have hascii : (create (Row.create 1 ()) 0 coordTypeMax (List.replicate (n + 2) 0x301)).asciiFront = [] := rfl
  unfold WriteHelper.replaceText
  rw [hascii]
  have hmore : ([] : List UInt16).length < min (List.replicate (n + 2) (0x301 : UInt16)).length 1 := by
    rw [List.length_replicate, List.length_nil]
    omega
  dsimp only
  refine (if_pos hmore).trans ?_
  unfold replaceTextUnicode
  simp only [List.length_nil, if_true]
  refine (if_neg (Nat.lt_irrefl 0)).trans ?_
  simp only [create, List.length_replicate]
  unfold replaceClusters
  simp only [List.length_replicate]
  rw [if_pos (Nat.succ_pos _)]
  refine (if_neg (Nat.lt_irrefl 1)).trans ?_
  simp only [wholeText, List.length_replicate, Nat.sub_zero, Nat.zero_add]
  unfold replaceClusters
  refine (if_neg (by simp [put])).trans ?_
  rfl

/-- `Finish` gives the last offset all sixteen bits. -/
lemma finish_lastOffset {h : WriteHelper Unit} (hrow : h.row = Row.create 1 ()) (hend : h.colEndDirty = 1)
    (hcolEnd : h.colEnd = 1) (hcolBeg : h.colBegDirty = 0) (hdirty : h.chBegDirty = 0) (hleading : h.leadingSpaces = 0)
    (hlong : 2 ≤ h.charsConsumed) (hfew : h.charsConsumed < 0x10000) :
    ∃ h', h.finish = .ok h' ∧ h'.row.charSize = h.charsConsumed := by
  have hforward : (Row.create 1 ()).adjustForward 1 = 1 := rfl
  have hold : (Row.create 1 ()).uncheckedCharOffset 1 = 1 := rfl
  have hresize : ∃ row, (Row.create 1 ()).resizeChars 1 0 h.charsConsumed 1 = .ok row ∧
      row.charOffsets = [0, h.charsConsumed] ∧ row.columnCount = 1 := by
    have hsize : (Row.create 1 ()).charSize = 1 := rfl
    have hchars : (Row.create 1 ()).chars.length = 1 := rfl
    have hoffset : u16 (1 + h.charsConsumed + 0x10000 - 1) = h.charsConsumed := by
      unfold u16
      omega
    unfold Row.resizeChars
    dsimp only
    rw [hsize, hchars, if_neg (by omega), if_neg (by omega)]
    refine ⟨_, rfl, ?_, rfl⟩
    show [0, u16 (1 + h.charsConsumed + 0x10000 - 1)] = _
    rw [hoffset]
  obtain ⟨row, hok, hoffsets, hcount⟩ := hresize
  unfold finish
  dsimp only
  rw [hrow, hend, hforward, hold, hcolEnd, hdirty, hleading, Nat.zero_add, Nat.add_zero, Nat.sub_self, if_pos (by omega),
    hok]
  refine ⟨_, rfl, ?_⟩
  show (overwrite (overwrite row.charOffsets h.colBegDirty (iota h.leadingSpaces h.chBegDirty)) h.colEnd []).getD
    row.columnCount 0 = _
  rw [hleading, hcolBeg, hcount, hoffsets, overwrite_nil]
  rfl

/-- **A glyph of 0x8000 code units** makes the end of the text look like the second half of a glyph. -/
theorem longText_breaks :
    ¬((Row.create 1 ()).perform wholeText (.replaceText { text := List.replicate 0x8000 0x301 })).Ordered := by
  intro h
  have hvalid : (create (Row.create 1 ()) 0 coordTypeMax (List.replicate 0x8000 0x301)).isValid = true := rfl
  have hlaid := wholeText_laidOut (m := 0x8000) (by omega)
  obtain ⟨h', hfinish, hsize⟩ := finish_lastOffset
    (h := (create (Row.create 1 ()) 0 coordTypeMax (List.replicate 0x8000 0x301)).replaceText wholeText)
    (by rw [hlaid]; rfl) (by rw [hlaid]) (by rw [hlaid]) (by rw [hlaid]; rfl) (by rw [hlaid]; rfl) (by rw [hlaid]; rfl)
    (by rw [hlaid]; decide) (by rw [hlaid]; decide)
  have hlast := h.last.1
  unfold Row.perform Row.replaceText at hlast
  dsimp only at hlast
  rw [hvalid, hfinish] at hlast
  have hlast' : isTrailer h'.row.charSize = false := hlast
  rw [hsize, hlaid] at hlast'
  exact absurd hlast' (by decide)

end VT7.Buffer
