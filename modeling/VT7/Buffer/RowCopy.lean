import VT7.Buffer.RowWrite

/-!
# Copying text between rows

`CopyTextFrom` copies the glyphs of the source between two columns, as many as fit.  How far it comes
depends on the source and the room only (`copyTextFrom_advance`); what the row holds afterwards is
`copyTextFrom_holds`.
-/

namespace VT7.Buffer

open VT7.Lib.Filling

variable {α : Type}

lemma stepBack_take {l : List ℕ} {n k : ℕ} (h : k < n) : stepBack (l.take n) k = stepBack l k := by
  induction k with
  | zero => rfl
  | succ k ih =>
    have hget : (l.take n).getD (k + 1) 0 = l.getD (k + 1) 0 := by
      rw [List.getD_eq_getElem?_getD, List.getD_eq_getElem?_getD, List.getElem?_take_of_lt h]
    rw [stepBack, stepBack, hget, ih (by omega)]

lemma upTo_min (n m : ℕ) (gs : List Glyph) : upTo n (upTo m gs) = upTo (min n m) gs :=
  fitting_fitting Glyph.width n m gs

lemma units_eq_of_isPrefix {f gs : List Glyph} (h : f <+: gs) : units f = units gs ↔ f = gs := by
  obtain ⟨rest, rfl⟩ := h
  refine ⟨fun heq => ?_, fun heq => by rw [← heq]⟩
  rw [units_append] at heq
  have := length_le_units rest
  rw [List.length_eq_zero_iff.mp (by omega : rest.length = 0), List.append_nil]

/-- A front part of some glyphs is at one of their columns. -/
lemma upTo_cols_of_isPrefix {f gs : List Glyph} (h : f <+: gs) : upTo (cols f) gs = f := by
  obtain ⟨rest, rfl⟩ := h
  have happ := fitting_append Glyph.width rest (le_refl (cols f))
  rw [show cols f - total Glyph.width f = 0 from Nat.sub_self _] at happ
  cases rest with
  | nil => simpa using happ
  | cons g rest =>
    have hg := g.width_pos
    rw [fitting, if_neg (by omega), List.append_nil] at happ
    exact happ

lemma take_offsetsFrom_of_isPrefix {o : ℕ} {f gs : List Glyph} (h : f <+: gs) :
    (offsetsFrom o gs).take (cols f) = columnsFrom o f := by
  obtain ⟨rest, rfl⟩ := h
  exact take_offsetsFrom o f rest

lemma units_le_of_isPrefix {f gs : List Glyph} (h : f <+: gs) : units f ≤ units gs := by
  obtain ⟨rest, rfl⟩ := h
  rw [units_append]
  exact Nat.le_add_right _ _

lemma cols_le_units (gs : List Glyph) : cols gs ≤ 2 * units gs := by
  induction gs with
  | nil => exact Nat.le_refl 0
  | cons g gs ih =>
    have hwidth := g.width_le
    have hone := length_le_units [g]
    rw [List.length_singleton] at hone
    rw [cols_cons, show g :: gs = [g] ++ gs from rfl, units_append]
    omega

lemma Row.Holds.columns_lt {r : Row α} {gs : List Glyph} (hr : r.Holds gs) : r.columnCount < 0x10000 := by
  have hwide := cols_le_units gs
  have hshort := hr.short
  rw [hr.columns] at hwide
  omega

/-! ### What a copy leaves alone -/

lemma resizeChars_kept {r r' : Row α} {d c e o : ℕ} (h : r.resizeChars d c e o = .ok r') :
    r' = { r with chars := r'.chars, charOffsets := r'.charOffsets } := by
  unfold Row.resizeChars at h
  dsimp only at h
  split_ifs at h <;> cases h <;> rfl

lemma finish_kept {h h' : WriteHelper α} (hfinish : h.finish = .ok h') : h'.row = { h.row with
    chars := h'.row.chars, charOffsets := h'.row.charOffsets, doubleBytePadded := h'.row.doubleBytePadded } := by
  obtain ⟨row, hrow, hok⟩ := ok_of_bind hfinish
  have hkept : row = { h.row with chars := row.chars, charOffsets := row.charOffsets } := by
    split_ifs at hrow
    · exact resizeChars_kept hrow
    · cases hrow
      rfl
  cases hok
  unfold WriteHelper.fillIn
  rw [hkept]

lemma copyTextFrom_kept {r r' : Row α} {state : RowCopyTextFromState α} {result : RowCopyTextFromResult}
    (hcopy : r.copyTextFrom state = .ok (r', result)) : r' = { r with
      chars := r'.chars, charOffsets := r'.charOffsets, doubleBytePadded := r'.doubleBytePadded } := by
  unfold Row.copyTextFrom at hcopy
  dsimp only at hcopy
  split_ifs at hcopy
  all_goals first
    | (cases hcopy; rfl)
    | (obtain ⟨h, hfinish, hok⟩ := ok_of_bind hcopy
       cases hok
       exact finish_kept hfinish)

lemma copyFrom_kept {r r' source : Row α} (h : r.copyFrom source = .ok r') : r' = { r with
    chars := r'.chars
    charOffsets := r'.charOffsets
    attr := resizeTrailingExtent source.attr r.columnCount
    lineRendition := source.lineRendition
    wrapForced := source.wrapForced
    doubleBytePadded := r'.doubleBytePadded } := by
  obtain ⟨⟨row, result⟩, hcopy, hok⟩ := ok_of_bind h
  cases hok
  have hkept := copyTextFrom_kept hcopy
  show { row with attr := resizeTrailingExtent source.attr row.columnCount } = _
  rw [hkept]

/-- What `CopyTextFrom` reads: the columns of the source before the limit. -/
def readable (state : RowCopyTextFromState α) (a : List Glyph) : ℕ :=
  min state.sourceColumnLimit state.source.columnCount - cols a

section Source

variable {r : Row α} {state : RowCopyTextFromState α} {a rest : List Glyph}

/-- The offsets that are handed to the helper. -/
def sourceOffsets (a rest : List Glyph) (m : ℕ) : List ℕ := (offsetsFrom (units a) rest).take (m + 1)

lemma readable_le (hs : state.source.Holds (a ++ rest)) : readable state a ≤ cols rest := by
  have hcols := hs.columns
  rw [cols_append] at hcols
  unfold readable
  omega

lemma length_sourceOffsets {m : ℕ} (hm : m ≤ cols rest) : (sourceOffsets a rest m).length = m + 1 := by
  rw [sourceOffsets, List.length_take, length_offsetsFrom]
  omega

lemma getD_sourceOffsets {m k : ℕ} (hk : k ≤ m) :
    (sourceOffsets a rest m).getD k 0 = (offsetsFrom (units a) rest).getD k 0 := by
  rw [sourceOffsets, List.getD_eq_getElem?_getD, List.getD_eq_getElem?_getD,
    List.getElem?_take_of_lt (Nat.lt_succ_of_le hk)]

lemma getD_sourceOffsets_isPrefix {m : ℕ} {f : List Glyph} (hf : f <+: rest) (hk : cols f ≤ m) :
    (sourceOffsets a rest m).getD (cols f) 0 = units a + units f := by
  obtain ⟨g, rfl⟩ := hf
  rw [getD_sourceOffsets hk, getD_offsetsFrom]

lemma headD_sourceOffsets (m : ℕ) : (sourceOffsets a rest m).headD 0 = units a := by
  have hget := getD_sourceOffsets_isPrefix (a := a) (m := m) (List.nil_prefix (l := rest)) (Nat.zero_le m)
  cases hl : sourceOffsets a rest m with
  | nil | cons =>
    rw [hl] at hget
    simpa using hget

lemma getLastD_sourceOffsets (hs : units (a ++ rest) < 0x8000) {m : ℕ} (hm : m ≤ cols rest) :
    (sourceOffsets a rest m).getLastD 0 &&& charOffsetsMask = units a + units (upTo m rest) := by
  have hlen := length_sourceOffsets (a := a) hm
  have hne : sourceOffsets a rest m ≠ [] := by
    intro hnil
    rw [hnil] at hlen
    simp at hlen
  have hlast : (sourceOffsets a rest m).getLastD 0 = (sourceOffsets a rest m).getD m 0 := by
    rw [List.getLastD_eq_getLast?, List.getLast?_eq_getElem?, hlen, List.getD_eq_getElem?_getD]
    rfl
  rw [hlast, getD_sourceOffsets (le_refl m), masked_getD (by simpa using hs) hm]

/-- The glyphs that are read. -/
def available (state : RowCopyTextFromState α) (a rest : List Glyph) : List Glyph :=
  upTo (readable state a) rest

/-- The columns that can be written. -/
def room (r : Row α) (state : RowCopyTextFromState α) : ℕ :=
  r.clampedColumnInclusive state.columnLimit - r.clampedColumnInclusive state.columnBegin

/-- The glyphs that are written. -/
def fitting (r : Row α) (state : RowCopyTextFromState α) (a rest : List Glyph) : List Glyph :=
  upTo (room r state) (available state a rest)

def copyHelper (r : Row α) (state : RowCopyTextFromState α) (a rest : List Glyph) : WriteHelper α :=
  (WriteHelper.create r state.columnBegin state.columnLimit (textOf (available state a rest))).copyTextFrom
    (sourceOffsets a rest (readable state a))

lemma available_isPrefix (state : RowCopyTextFromState α) (a rest : List Glyph) :
    available state a rest <+: rest := fitting_isPrefix _ _ _

lemma fitting_isPrefix_available (r : Row α) (state : RowCopyTextFromState α) (a rest : List Glyph) :
    fitting r state a rest <+: available state a rest := fitting_isPrefix _ _ _

lemma cols_fitting_le (r : Row α) (state : RowCopyTextFromState α) (a rest : List Glyph) :
    cols (fitting r state a rest) ≤ min (room r state) (readable state a) := by
  rw [fitting, available, upTo_min]
  exact cols_upTo_le _ _

lemma textOf_eq_nil_iff {gs : List Glyph} : textOf gs = [] ↔ gs = [] := by
  refine ⟨fun h => ?_, fun h => by rw [h]; rfl⟩
  have hlen := congrArg List.length h
  rw [length_textOf] at hlen
  have := length_le_units gs
  exact List.length_eq_zero_iff.mp (by simp at hlen; omega)

/-- The text that is handed to the helper. -/
lemma source_chars (hs : state.source.Holds (a ++ rest)) :
    (state.source.chars.drop (units a)).take (units (available state a rest)) =
      textOf (available state a rest) := by
  obtain ⟨c, hc⟩ := available_isPrefix state a rest
  rw [← hc] at hs
  exact hs.text_part

section Helper

variable (hs : state.source.Holds (a ++ rest))

include hs

/-- Where the helper stops in the source: behind the last glyph that fits. -/
lemma colEndInput_eq : stepBack (sourceOffsets a rest (readable state a))
    (min (room r state) ((sourceOffsets a rest (readable state a)).length - 1)) =
      cols (fitting r state a rest) := by
  have hle := readable_le hs
  have hshort := hs.short
  rw [units_append] at hshort
  rw [length_sourceOffsets hle, Nat.add_sub_cancel, fitting, available, upTo_min, sourceOffsets,
    stepBack_take (by omega), stepBack_offsetsFrom (by simpa using hshort) (by omega)]

lemma copyHelper_colEnd : (copyHelper r state a rest).colEnd =
    r.clampedColumnInclusive state.columnBegin + cols (fitting r state a rest) :=
  congrArg (r.clampedColumnInclusive state.columnBegin + ·) (colEndInput_eq hs)

lemma copyHelper_charsConsumed :
    (copyHelper r state a rest).charsConsumed = units (fitting r state a rest) := by
  have hprefix : fitting r state a rest <+: rest :=
    (fitting_isPrefix_available r state a rest).trans (available_isPrefix state a rest)
  have hle : cols (fitting r state a rest) ≤ readable state a :=
    (cols_fitting_le r state a rest).trans (Nat.min_le_right _ _)
  have hend : (sourceOffsets a rest (readable state a)).getD (stepBack (sourceOffsets a rest (readable state a))
      (min (room r state) ((sourceOffsets a rest (readable state a)).length - 1))) 0 =
      units a + units (fitting r state a rest) := by
    rw [colEndInput_eq hs]
    exact getD_sourceOffsets_isPrefix hprefix hle
  have hbase := getD_sourceOffsets_isPrefix (a := a) (List.nil_prefix (l := rest)) (Nat.zero_le (readable state a))
  rw [cols_nil, units_nil, Nat.add_zero] at hbase
  show (sourceOffsets a rest (readable state a)).getD _ 0 - (sourceOffsets a rest (readable state a)).getD 0 0 = _
  rw [hbase]
  exact (congrArg (· - units a) hend).trans (Nat.add_sub_cancel_left _ _)

lemma copyHelper_colEndDirty : (copyHelper r state a rest).colEndDirty =
    u16 (r.clampedColumnInclusive state.columnBegin + min (room r state) (readable state a)) := by
  show u16 (r.clampedColumnInclusive state.columnBegin +
    min (room r state) ((sourceOffsets a rest (readable state a)).length - 1)) = _
  rw [length_sourceOffsets (readable_le hs), Nat.add_sub_cancel]

end Helper

/-- `Finish` leaves the bounds of the written text alone. -/
lemma finish_fields {h h' : WriteHelper α} (hfinish : h.finish = .ok h') :
    h'.colEnd = h.colEnd ∧ h'.colBeg = h.colBeg ∧ h'.colLimit = h.colLimit ∧
      h'.charsConsumed = h.charsConsumed ∧ h'.colBegDirty = h.colBegDirty := by
  obtain ⟨row, -, hrow⟩ := ok_of_bind hfinish
  cases hrow
  exact ⟨rfl, rfl, rfl, rfl, rfl⟩

variable (hs : state.source.Holds (a ++ rest)) (hbeg : state.sourceColumnBegin = cols a)

include hs hbeg

lemma sourceColBeg_eq : state.source.clampedColumnInclusive state.sourceColumnBegin = cols a := by
  have := hs.columns
  rw [cols_append] at this
  rw [hbeg, Row.clampedColumnInclusive]
  omega

/-- The copy as the helper sees it. -/
lemma copyTextFrom_eq : r.copyTextFrom state =
    if available state a rest ≠ [] ∧ 0 < room r state ∧ state.sourceIsThis = false then
      (copyHelper r state a rest).finish.map fun h =>
        (h.row,
          { columnEnd := if h.charsConsumed = units (available state a rest) then h.colEnd else h.colLimit
            columnBeginDirty := h.colBegDirty
            columnEndDirty := h.colEndDirty
            sourceColumnEnd := cols a + h.colEnd - h.colBeg })
    else
      .ok (r,
        { columnEnd := r.clampedColumnInclusive state.columnBegin
          columnBeginDirty := r.clampedColumnInclusive state.columnBegin
          columnEndDirty := r.clampedColumnInclusive state.columnBegin
          sourceColumnEnd := state.source.columnCount }) := by
  have hle := readable_le hs
  have hunits : units a < 0x8000 := by
    have := hs.short
    rw [units_append] at this
    omega
  have hlimit : state.source.clampedColumnInclusive state.sourceColumnLimit - cols a = readable state a := rfl
  by_cases hread : cols a < state.source.clampedColumnInclusive state.sourceColumnLimit
  · have hoffsets : (state.source.charOffsets.drop (cols a)).take
        (state.source.clampedColumnInclusive state.sourceColumnLimit - cols a + 1) =
        sourceOffsets a rest (readable state a) := by
      rw [hs.offsets, drop_offsetsFrom, Nat.zero_add, hlimit]
      rfl
    have hbegin : units a &&& charOffsetsMask = units a := by
      rw [and_mask, Nat.mod_eq_of_lt hunits]
    have hchars : units a + units (available state a rest) - units a = units (available state a rest) :=
      Nat.add_sub_cancel_left _ _
    have hlen : ¬ (sourceOffsets a rest (readable state a)).length < 2 := by
      rw [length_sourceOffsets hle]
      omega
    have hlast : (sourceOffsets a rest (readable state a)).getLastD 0 &&& charOffsetsMask =
        units a + units (available state a rest) := getLastD_sourceOffsets hs.short hle
    unfold Row.copyTextFrom
    simp only [sourceColBeg_eq hs hbeg, if_pos hread, hoffsets, headD_sourceOffsets, hbegin, hlast,
      isTrailer_of_lt hunits, hchars, source_chars hs, length_textOf]
    have hvalid : (WriteHelper.create r state.columnBegin state.columnLimit
        (textOf (available state a rest))).isValid =
        (decide (0 < room r state) && !(textOf (available state a rest)).isEmpty) := by
      have hlt : r.clampedColumnInclusive state.columnBegin < r.clampedColumnInclusive state.columnLimit ↔
          0 < room r state := Nat.sub_pos_iff_lt.symm
      show (decide (r.clampedColumnInclusive state.columnBegin <
        r.clampedColumnInclusive state.columnLimit) && _) = _
      rw [decide_eq_decide.mpr hlt]
      rfl
    by_cases hcopy : available state a rest ≠ [] ∧ 0 < room r state ∧ state.sourceIsThis = false
    · have hne : (textOf (available state a rest)).isEmpty = false := by
        rw [Bool.eq_false_iff, ne_eq, List.isEmpty_iff, textOf_eq_nil_iff]
        exact hcopy.1
      rw [hvalid, if_pos hcopy, hne, hcopy.2.2, decide_eq_true hcopy.2.1, if_neg (by simpa using hlen)]
      cases hfinish : (copyHelper r state a rest).finish with
      | error | ok =>
        unfold copyHelper at hfinish
        rw [hfinish]
        rfl
    · have hskip : (!(decide (0 < room r state) && !(textOf (available state a rest)).isEmpty) ||
          state.sourceIsThis || decide ((sourceOffsets a rest (readable state a)).length < 2) || false) = true := by
        by_contra hfalse
        refine hcopy ?_
        simp only [Bool.or_false, Bool.or_eq_true, Bool.not_eq_true', Bool.and_eq_false_iff, not_or,
          decide_eq_false_iff_not, not_not, decide_eq_true_eq, Bool.not_eq_false', List.isEmpty_iff,
          textOf_eq_nil_iff, Bool.not_eq_true] at hfalse
        exact ⟨hfalse.1.1.2, hfalse.1.1.1, hfalse.1.2⟩
      rw [hvalid, if_neg hcopy, if_pos hskip]
      rfl
  · have hnothing : available state a rest = [] := by
      have hzero : readable state a = 0 := by
        rw [← hlimit]
        omega
      have hcols := cols_upTo_le (readable state a) rest
      rw [hzero] at hcols
      rw [available, hzero]
      by_contra hne
      have := cols_pos hne
      omega
    unfold Row.copyTextFrom
    simp only [sourceColBeg_eq hs hbeg, if_neg hread]
    have hvalid : (WriteHelper.create r state.columnBegin state.columnLimit []).isValid = false := by
      simp [WriteHelper.isValid, WriteHelper.create]
    rw [if_neg (not_and_of_not_left _ (not_not_intro hnothing)), hvalid]
    rfl

/-- **How far a copy comes**: it is done with all that can be read, or the row is full. -/
theorem copyTextFrom_advance (hroom : 0 < room r state) (hother : state.sourceIsThis = false)
    {r' : Row α} {result : RowCopyTextFromResult} (hcopy : r.copyTextFrom state = .ok (r', result)) :
    result.columnEnd =
        (if fitting r state a rest = available state a rest then
          r.clampedColumnInclusive state.columnBegin + cols (fitting r state a rest)
        else r.clampedColumnInclusive state.columnLimit) ∧
      result.sourceColumnEnd =
        (if available state a rest = [] then state.source.columnCount
        else cols a + cols (fitting r state a rest)) := by
  rw [copyTextFrom_eq hs hbeg] at hcopy
  by_cases hnothing : available state a rest = []
  · rw [if_neg (not_and_of_not_left _ (not_not_intro hnothing))] at hcopy
    cases hcopy
    have hfits : fitting r state a rest = [] := by
      rw [fitting, hnothing]
      exact fitting_nil _ _
    rw [if_pos (hfits.trans hnothing.symm), if_pos hnothing, hfits]
    exact ⟨rfl, rfl⟩
  · rw [if_pos ⟨hnothing, hroom, hother⟩] at hcopy
    cases hfinish : (copyHelper r state a rest).finish with
    | error e =>
      rw [hfinish] at hcopy
      cases hcopy
    | ok h =>
      rw [hfinish] at hcopy
      cases hcopy
      obtain ⟨hend, hbegin, hlimit, hconsumed, -⟩ := finish_fields hfinish
      rw [copyHelper_colEnd hs] at hend
      rw [copyHelper_charsConsumed hs] at hconsumed
      rw [if_neg hnothing]
      dsimp only
      rw [hend, hbegin, hlimit, hconsumed]
      refine ⟨?_, ?_⟩
      · simp only [units_eq_of_isPrefix (fitting_isPrefix_available r state a rest)]
        rfl
      · show cols a + (r.clampedColumnInclusive state.columnBegin + cols (fitting r state a rest)) -
          r.clampedColumnInclusive state.columnBegin = _
        omega

/-- The column up to which a copy gives up what the row held. -/
def copyDirty (r : Row α) (state : RowCopyTextFromState α) (a : List Glyph) : ℕ :=
  r.clampedColumnInclusive state.columnBegin + min (room r state) (readable state a)

/-- **What a copy leaves in the row.** -/
theorem copyTextFrom_holds {gs : List Glyph} (hr : r.Holds gs) (havailable : available state a rest ≠ [])
    (hroom : 0 < room r state) (hother : state.sourceIsThis = false)
    (hnew : units (overlaid gs (r.clampedColumnInclusive state.columnBegin) (copyDirty r state a)
      (fitting r state a rest)) < 0x8000) :
    ∃ r' result, r.copyTextFrom state = .ok (r', result) ∧
      r'.Holds (overlaid gs (r.clampedColumnInclusive state.columnBegin) (copyDirty r state a)
        (fitting r state a rest)) ∧
      r' = { r with
        chars := r'.chars
        charOffsets := r'.charOffsets
        doubleBytePadded :=
          if cols gs - cols (beyond (copyDirty r state a) gs) = r.columnCount then
            r.clampedColumnInclusive state.columnBegin + cols (fitting r state a rest) < r.columnCount
          else r.doubleBytePadded } := by
  have hcolumns := hr.columns
  have hx : r.clampedColumnInclusive state.columnBegin ≤ r.columnCount := Nat.min_le_right _ _
  have hlimit : r.clampedColumnInclusive state.columnLimit ≤ r.columnCount := Nat.min_le_right _ _
  have hfits := cols_fitting_le r state a rest
  have hsource := hs.short
  rw [units_append] at hsource
  have hcount := hr.columns_lt
  have hdirtyle : copyDirty r state a ≤ r.columnCount := by
    unfold copyDirty room at *
    omega
  have hdirty : (copyHelper r state a rest).colEndDirty = copyDirty r state a := by
    rw [copyHelper_colEndDirty hs, copyDirty]
    exact Nat.mod_eq_of_lt (by unfold copyDirty at hdirtyle; omega)
  have hdirtyOffset : r.uncheckedCharOffset (r.clampedColumnInclusive state.columnBegin) =
      units (upTo (r.clampedColumnInclusive state.columnBegin) gs) := hr.uncheckedCharOffset hx
  have hback : r.adjustBackward (r.clampedColumnInclusive state.columnBegin) =
      cols (upTo (r.clampedColumnInclusive state.columnBegin) gs) := hr.adjustBackward hx
  have hunits := hnew
  simp only [overlaid, units_append, units_blanks] at hunits
  generalize hxdef : r.clampedColumnInclusive state.columnBegin = x at *
  have hchBegDirty : (copyHelper r state a rest).chBegDirty = units (upTo x gs) := by
    rw [← hdirtyOffset, ← hxdef]
    rfl
  have hcolBegDirty : (copyHelper r state a rest).colBegDirty = cols (upTo x gs) := by
    rw [← hback, ← hxdef]
    rfl
  have hleading : (copyHelper r state a rest).leadingSpaces = x - cols (upTo x gs) := by
    rw [← hback, ← hxdef]
    rfl
  have hchBeg : (copyHelper r state a rest).chBeg =
      (copyHelper r state a rest).chBegDirty + (copyHelper r state a rest).leadingSpaces := by
    have : (copyHelper r state a rest).chBeg =
        u16 ((copyHelper r state a rest).chBegDirty + (copyHelper r state a rest).leadingSpaces) := rfl
    rw [this]
    exact u16_of_lt (by rw [hchBegDirty, hleading]; omega)
  have hcolEnd : (copyHelper r state a rest).colEnd = x + cols (fitting r state a rest) := by
    rw [copyHelper_colEnd hs, hxdef]
  have hcopied : (copyHelper r state a rest).row.charOffsets =
      overwrite r.charOffsets x (columnsFrom (units (upTo x gs) + (x - cols (upTo x gs))) (fitting r state a rest)) := by
    have hprefix := (fitting_isPrefix_available r state a rest).trans (available_isPrefix state a rest)
    have hfunits := units_le_of_isPrefix hprefix
    have htake : (sourceOffsets a rest (readable state a)).take (cols (fitting r state a rest)) =
        columnsFrom (units a) (fitting r state a rest) := by
      rw [sourceOffsets, List.take_take, Nat.min_eq_left (by omega)]
      exact take_offsetsFrom_of_isPrefix hprefix
    have hbase := getD_sourceOffsets_isPrefix (a := a) (List.nil_prefix (l := rest)) (Nat.zero_le (readable state a))
    rw [cols_nil, units_nil, Nat.add_zero] at hbase
    have hmove := map_copyOffset_columnsFrom (units a) (units (upTo x gs) + (x - cols (upTo x gs)))
      (u16 ((copyHelper r state a rest).chBeg + 0x10000 - units a)) (fitting r state a rest) (by omega) (by omega) (by
        rw [hchBeg, hchBegDirty, hleading]
        unfold u16
        omega)
    have hoffsets : (copyHelper r state a rest).row.charOffsets = overwrite r.charOffsets x
        (((sourceOffsets a rest (readable state a)).take (stepBack (sourceOffsets a rest (readable state a))
          (min (room r state) ((sourceOffsets a rest (readable state a)).length - 1)))).map
          (copyOffset (u16 ((copyHelper r state a rest).chBeg + 0x10000 -
            (sourceOffsets a rest (readable state a)).getD 0 0)))) := by
      rw [← hxdef]
      rfl
    rw [hoffsets, colEndInput_eq hs, htake, hbase, hmove]
  have hroomx : x + cols (fitting r state a rest) ≤ copyDirty r state a := by
    rw [copyDirty, hxdef]
    omega
  have hlen : r.charOffsets.length = r.columnCount + 1 := by
    rw [hr.offsets, length_offsetsFrom, hcolumns]
  obtain ⟨row, hfinish, hholds, hfields⟩ := WriteHelper.finish_overlaid (h := copyHelper r state a rest)
    (fitting r state a rest) (x := x) hr rfl hcolBegDirty hleading hchBegDirty hchBeg hcolEnd
    (by rw [hcolEnd, hdirty]; exact hroomx) (by rw [hdirty]; exact hdirtyle)
    (by
      rw [hcopied, hcolEnd, hchBeg, hchBegDirty, hleading, overwrite, List.take_left']
      rw [List.length_append, List.length_take, length_columnsFrom, hlen]
      omega)
    (by
      rw [hcopied, hdirty, overwrite, List.drop_append, List.drop_of_length_le, List.nil_append, List.drop_drop]
      · congr 1
        simp only [List.length_append, List.length_take, length_columnsFrom, hlen]
        omega
      · simp only [List.length_append, List.length_take, length_columnsFrom, hlen]
        omega)
    (copyHelper_charsConsumed hs)
    (by
      obtain ⟨more, hmore⟩ := fitting_isPrefix_available r state a rest
      show (textOf (available state a rest)).take _ = _
      rw [← hmore, textOf_append, ← length_textOf (fitting r state a rest), List.take_left])
    (by rw [hdirty]; exact hnew)
  rw [hdirty] at hholds hfields
  rw [hcolEnd] at hfields
  have hcopy := copyTextFrom_eq (r := r) hs hbeg
  rw [if_pos ⟨havailable, hroom, hother⟩, hfinish] at hcopy
  exact ⟨row, _, hcopy, hholds, hfields⟩

end Source

end VT7.Buffer
