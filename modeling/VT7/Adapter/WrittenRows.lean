import VT7.Adapter.WholeRows
import VT7.Buffer.Stalls
import VT7.Buffer.TextWrites

/-!
# What a printed text leaves in a row

`Replace` leaves the glyphs that `written` names, `Insert` has what was there behind them.  Where the row has room for it
nothing is thrown, and what has been taken of it stands behind the glyphs before its column (`replace_puts`, `insert_puts`).
-/

namespace VT7.Buffer

open VT7.Adapter
open VT7.Lib.Cells
open WriteHelper

variable {α : Type}

/-- The row behind a write of a text for which there may be no column. -/
def written (cwd : Clustering) (gs : List Glyph) (x limit : ℕ) (text : List UInt16) : List Glyph :=
  if x < limit ∧ text ≠ [] then textWritten cwd gs x limit text else gs

/-- Where the written range ends. -/
def writtenEnd (cwd : Clustering) (gs : List Glyph) (x limit : ℕ) (text : List UInt16) : ℕ :=
  if x < limit ∧ text ≠ [] then textEnd gs (textFront cwd gs x limit text) x limit text else x

/-- What a write that ends in column `e` takes of its text stands in the row, behind the glyphs before its column. -/
structure Puts (gs : List Glyph) (x e : ℕ) (text rest : List UInt16) (gs' : List Glyph) : Prop where
  taken : ∃ taken, text = taken ++ rest ∧ (taken ≠ [] →
    ∃ front, front <+: gs' ∧ cols front ≤ e ∧ textOf front = textOf (lead gs x) ++ taken)
  before : ∀ front, front <+: gs → cols front ≤ x → textOf front <+: textOf gs'

/-- The row holds these glyphs, and an attribute for every column. -/
structure Row.Full (r : Row α) (gs : List Glyph) (width : ℕ) : Prop where
  holds : r.Holds gs
  columns : r.columnCount = width
  attributes : r.attr.length = width

/-! ### How long a row gets -/

section Lengths

variable {cwd : Clustering} {gs : List Glyph} {x k limit : ℕ} {text : List UInt16}

lemma beyond_isSuffix (k : ℕ) (gs : List Glyph) : beyond k gs <:+ gs := by
  induction gs generalizing k with
  | nil => exact List.suffix_rfl
  | cons g gs ih =>
    unfold beyond
    split
    · exact List.suffix_rfl
    · exact (ih _).trans (List.suffix_cons g gs)

lemma units_closed_le (gs front : List Glyph) (k : ℕ) : units (closed gs front k) ≤ units front + cols gs + units gs := by
  obtain ⟨p, hp⟩ := beyond_isSuffix k gs
  have hunits := congrArg units hp
  rw [units_append] at hunits
  unfold closed
  rw [units_append, units_append, units_blanks]
  omega

lemma units_joined_le (hx : x ≤ cols gs) (hjoin : 0 < (cwd.join (charsPrev gs x) text).1) :
    units (upTo (x - 1) gs) + (joined cwd gs x text hjoin).text.length ≤
      units gs + (cwd.join (charsPrev gs x) text).1 := by
  have hlead := units_lead_le hx
  have hprefix := units_le_of_isPrefix (@prefix_lead gs x (x - 1) (Nat.sub_le x 1))
  show _ + ((textOf (lead gs x)).drop (units (upTo (x - 1) gs)) ++ text.take _).length ≤ _
  rw [List.length_append, List.length_drop, List.length_take, length_textOf]
  omega

lemma units_textFront_le (cwd : Clustering) (limit : ℕ) (text : List UInt16) (hx : x ≤ cols gs) :
    units (textFront cwd gs x limit text) ≤ units gs + text.length := by
  have hlead := units_lead_le hx
  have hascii := asciiLength_le text (limit - x)
  unfold textFront
  split
  · split
    · unfold unicodeFront
      split
      · next hjoin =>
        split
        · have hle := units_le_of_isPrefix (upTo_isPrefix (x - 1) gs)
          omega
        · have hle := cwd.join_le (charsPrev gs x) text
          have hjoined := units_joined_le hx hjoin
          have hrest := @Clustering.units_glyphs_le cwd text (cwd.join (charsPrev gs x) text).1
            (cwd.join (charsPrev gs x) text).1
            (limit - (cols (upTo (x - 1) gs) + (joined cwd gs x text hjoin).width)) text.length
          rw [units_append, units_cons]
          omega
      · have hrest := @Clustering.units_glyphs_le cwd text 0 0 (limit - x) text.length
        rw [units_append]
        omega
    · have hrest := @Clustering.units_glyphs_le cwd text (asciiLength text (limit - x) - 1)
        (asciiLength text (limit - x) - 1) (limit - (x + (asciiLength text (limit - x) - 1))) text.length
      rw [units_append, units_append, units_narrows, List.length_take]
      omega
  · rw [units_append, units_narrows, List.length_take]
    omega

lemma units_written_le (cwd : Clustering) (limit : ℕ) (text : List UInt16) (hx : x ≤ cols gs) :
    units (written cwd gs x limit text) ≤ 2 * units gs + text.length + cols gs := by
  unfold written
  split
  · have hfront := units_textFront_le cwd limit text hx
    exact (units_closed_le _ _ _).trans (by omega)
  · omega

end Lengths

/-! ### One row -/

section Rows

variable {cwd : Clustering} {r : Row α} {gs : List Glyph} {x limit width : ℕ} {text : List UInt16}
variable {columnBegin columnLimit : ℕ}

lemma Row.Full.cols_eq (hr : r.Full gs width) : cols gs = width := hr.holds.columns.trans hr.columns

lemma Row.Full.column_le (hr : r.Full gs width) (hx : min columnBegin width = x) : x ≤ cols gs := by
  rw [hr.cols_eq, ← hx]
  exact Nat.min_le_right _ _

/-- A write that finds no column. -/
lemma Row.replaceText_invalid (cwd : Clustering) (state : RowWriteState)
    (hinvalid : ¬(r.clampedColumnInclusive state.columnBegin < r.clampedColumnInclusive state.columnLimit ∧
      state.text ≠ [])) : ∃ result, r.replaceText cwd state = .ok (r, result) ∧ result.text = state.text ∧
      result.columnEnd = r.clampedColumnInclusive state.columnBegin := by
  unfold Row.replaceText
  dsimp only
  rw [create_invalid hinvalid]
  exact ⟨_, rfl, rfl, rfl⟩

/-- **`ReplaceText`**, whether there is a column for the text or not. -/
theorem Row.Full.replaceText (hr : r.Full gs width) (cwd : Clustering) (hx : min columnBegin width = x)
    (hlimit : min columnLimit width = limit) (hwidth : width < 0x8000)
    (hshort : units (written cwd gs x limit text) < 0x8000) : ∃ r' result,
      r.replaceText cwd { text, columnBegin, columnLimit } = .ok (r', result) ∧
        r'.Full (written cwd gs x limit text) width ∧ result.columnEnd = writtenEnd cwd gs x limit text ∧
        result.columnEnd ≤ width ∧ (limit ≤ x → result.text = text) ∧
        Puts gs x result.columnEnd text result.text (written cwd gs x limit text) := by
  obtain ⟨hholds, hcolumns, hattributes⟩ := hr
  have hxle : x ≤ width := hx ▸ Nat.min_le_right _ _
  have hlimitLe : limit ≤ width := hlimit ▸ Nat.min_le_right _ _
  have hx' : r.clampedColumnInclusive columnBegin = x := by
    unfold Row.clampedColumnInclusive
    rw [hcolumns, hx]
  have hlimit' : r.clampedColumnInclusive columnLimit = limit := by
    unfold Row.clampedColumnInclusive
    rw [hcolumns, hlimit]
  unfold written writtenEnd at *
  by_cases hvalid : x < limit ∧ text ≠ []
  · rw [if_pos hvalid] at hshort ⊢
    rw [if_pos hvalid]
    obtain ⟨r', result, hok, hholds', hcolumns', hend, hfront, taken, htext, hlead⟩ := replaceText_holds hholds cwd
      { text, columnBegin, columnLimit } hx' hlimit' hvalid.1 (List.length_pos_iff.mpr hvalid.2) (by omega) hshort
    have hprefix : textFront cwd gs x limit text <+: textWritten cwd gs x limit text := List.prefix_append _ _
    have hkept := Row.replaceText_kept hok
    have hle : cols (textFront cwd gs x limit text) ≤ result.columnEnd ∧ result.columnEnd ≤ width := by
      rw [hend]
      unfold textEnd
      split
      · exact ⟨le_refl _, hfront.trans hlimitLe⟩
      · exact ⟨hfront, hlimitLe⟩
    refine ⟨r', result, hok, ⟨hholds', hcolumns'.trans hcolumns, by rw [hkept]; exact hattributes⟩, hend, hle.2,
      fun hover => absurd hvalid.1 (Nat.not_lt.mpr hover), ⟨taken, htext, fun _ => ⟨_, hprefix, hle.1, hlead⟩⟩, fun front hbefore hx => ?_⟩
    have htext' (a b : List Glyph) (h : a <+: b) : textOf a <+: textOf b := by
      obtain ⟨c, rfl⟩ := h
      exact textOf_append a c ▸ List.prefix_append _ _
    -- what is before the column is before the text
    have hup : front <+: lead gs x := (prefix_upTo hbefore hx).trans (prefix_lead x (le_refl x))
    exact (htext' _ _ hup).trans ((hlead ▸ List.prefix_append _ _).trans (htext' _ _ hprefix))
  · rw [if_neg hvalid, if_neg hvalid]
    obtain ⟨result, hok, htext, hend⟩ := Row.replaceText_invalid cwd { text, columnBegin, columnLimit }
      (by rw [hx', hlimit']; exact hvalid)
    refine ⟨r, result, hok, ⟨hholds, hcolumns, hattributes⟩, hend.trans hx', (hend.trans hx').trans_le hxle,
      fun _ => htext, ⟨[], htext.symm, fun hne => absurd rfl hne⟩, fun front hbefore _ => ?_⟩
    obtain ⟨rest, rfl⟩ := hbefore
    exact textOf_append front rest ▸ List.prefix_append _ _

/-- A range of attributes that does not end before it begins. -/
lemma Row.Full.tryReplaceAttributes {columnEnd : ℕ} (hr : r.Full gs width) (attributes : α)
    (hbegin : min columnBegin width ≤ columnEnd) (hend : columnEnd ≤ width) : ∃ r',
      r.tryReplaceAttributes columnBegin columnEnd attributes = .ok r' ∧ r'.Full gs width := by
  obtain ⟨hholds, hcolumns, hattributes⟩ := hr
  have hstop : min columnEnd width = columnEnd := Nat.min_eq_left hend
  unfold Row.tryReplaceAttributes Row.clampedColumnInclusive
  rw [hcolumns, hstop, if_neg (Nat.not_lt.mpr hbegin)]
  refine ⟨_, rfl, hholds.congr rfl rfl rfl, hcolumns, ?_⟩
  show (overwrite r.attr (min columnBegin r.columnCount)
    (List.replicate (min columnEnd r.columnCount - min columnBegin r.columnCount) attributes)).length = width
  rw [hcolumns, hstop, length_overwrite, hattributes]
  rw [List.length_replicate, hattributes]
  omega

/-- **A write**: the range of the attributes does not end before it begins. -/
theorem Row.Full.write (hr : r.Full gs width) (cwd : Clustering) (attributes : α) (hx : min columnBegin width = x)
    (hlimit : min columnLimit width = limit) (hwidth : width < 0x8000)
    (hshort : units (written cwd gs x limit text) < 0x8000) (hend : x ≤ writtenEnd cwd gs x limit text) : ∃ r' result,
      r.write cwd attributes text columnBegin columnLimit = .ok (r', result) ∧
        r'.Full (written cwd gs x limit text) width ∧ result.columnEnd = writtenEnd cwd gs x limit text ∧
        result.columnEnd ≤ width ∧ (limit ≤ x → result.text = text) ∧
        Puts gs x result.columnEnd text result.text (written cwd gs x limit text) := by
  obtain ⟨r', result, hok, hfull, hcolumnEnd, hle, hrest⟩ := hr.replaceText cwd hx hlimit hwidth hshort
  obtain ⟨r'', hattributes, hfull'⟩ := hfull.tryReplaceAttributes attributes (hx.trans_le (hcolumnEnd ▸ hend)) hle
  exact ⟨r'', result, (bind_of_ok hok).trans (bind_of_ok hattributes), hfull', hcolumnEnd, hle, hrest⟩

end Rows

/-! ### A row of the buffer -/

/-- **What is printed into a row**: in insert mode the text, in replace mode all of the row, as far as it is taken. -/
structure Printed (cwd : Clustering) (insertReplace : Bool) (gs : List Glyph) (x limit : ℕ) (text rest : List UInt16)
    (gs' : List Glyph) : Prop where
  replaced : insertReplace = false → gs' = written cwd gs x limit text
  taken : ∃ taken, text = taken ++ rest ∧ (taken ≠ [] → textOf (lead gs x) ++ taken <+: textOf gs')

namespace TextBuffer

section Printing

variable {b : TextBuffer α} {cwd : Clustering} {row : ℤ} {gs : List Glyph} {text : List UInt16}
variable {columnBegin columnLimit : ℤ} {x limit : ℕ}

lemma full_row (hc : Content b) (hpos : 0 < b.height) (hr : (b.getRowByOffset row).Holds gs) :
    (b.getRowByOffset row).Full gs b.width :=
  ⟨hr, hc.columns _ (index_lt hpos row), hc.attributes _ (index_lt hpos row)⟩

/-- **`Replace`** throws nothing. -/
theorem replace_puts (hc : Content b) (hpos : 0 < b.height) (hr : (b.getRowByOffset row).Holds gs) (cwd : Clustering)
    (attributes : α) (hx : min columnBegin.toNat b.width = x) (hlimit : min columnLimit.toNat b.width = limit)
    (hwidth : b.width < 0x8000) (hroom : units (written cwd gs x limit text) < 0x8000)
    (hend : x ≤ writtenEnd cwd gs x limit text) : ∃ r gs' state,
      b.replace cwd row attributes text columnBegin columnLimit = .ok (b.setRowByOffset row r, state) ∧
        r.Full gs' b.width ∧ Printed cwd false gs x limit text state.text gs' := by
  obtain ⟨r, result, hwritten, hfull, -, -, -, ⟨taken, htext, hfront⟩, -⟩ :=
    (full_row hc hpos hr).write cwd attributes hx hlimit hwidth hroom hend
  refine ⟨r, _, result, bind_of_ok hwritten, hfull, fun _ => rfl, taken, htext, fun hne => ?_⟩
  obtain ⟨front, ⟨rest, hrest⟩, -, hlead⟩ := hfront hne
  rw [← hlead, ← hrest, textOf_append]
  exact List.prefix_append _ _

open Finset in
/-- The row that `Insert` puts away. -/
lemma copyFrom_scratch {r : Row α} {width : ℕ} (hr : r.Full gs width) (attributes : α)
    (hroom : units gs + 3 * width < 0x8000) : ∃ scratch gs₀, (Row.create width attributes).copyFrom r = .ok scratch ∧
      scratch.Full gs₀ width ∧ units gs₀ ≤ units gs + 3 * width := by
  have hcols := hr.cols_eq
  obtain ⟨hholds, hcolumns, hattributes⟩ := hr
  have hblank : (Row.create width attributes).Holds (blanks width) := create_holds (by omega) attributes
  have hblanks : ∑ y ∈ range width, weight (stripOf (blanks width) y) = width := by
    have hunits := units_eq_sum (blanks width)
    rwa [cols_blanks, units_blanks, eq_comm] at hunits
  have hglyphs : ∑ y ∈ range width, weight (stripOf gs y) ≤ units gs + width := by
    rw [← hcols, ← units_eq_sum]
    exact Nat.le_add_right _ _
  have hsum := sum_weight_le (weight_copied_le r.getReadableColumnCount (stripOf (blanks width)) (stripOf gs)) hglyphs
  rw [hblanks] at hsum
  obtain ⟨scratch, hcopied, ⟨gs₀, hholds₀, hstrip⟩, hcolumns₀, hattributes₀⟩ :=
    Row.Shows.copyFrom ⟨blanks width, hblank, rfl⟩ ⟨gs, hholds, rfl⟩ hcolumns hattributes
      (show ∑ y ∈ range width, _ < 0x8000 by omega)
  have hscratch : scratch.Full gs₀ width := ⟨hholds₀, hcolumns₀, hattributes₀ ▸ hattributes⟩
  refine ⟨scratch, gs₀, hcopied, hscratch, ?_⟩
  rw [units_eq_sum, hscratch.cols_eq, hstrip]
  omega

lemma length_getTextBetween {r : Row α} (hr : r.Holds gs) (columnBegin columnEnd : ℕ) :
    (r.getTextBetween columnBegin columnEnd).length ≤ units gs := by
  have hreadable := getReadableColumnCount_le r
  unfold Row.getTextBetween
  dsimp only
  rw [hr.uncheckedCharOffset (show max _ _ ≤ r.columnCount by omega)]
  have hle := units_le_of_isPrefix (upTo_isPrefix
    (max (min columnBegin r.getReadableColumnCount) (min columnEnd r.getReadableColumnCount)) gs)
  rw [List.length_take]
  omega

lemma restoreAttributes_full {r scratch : Row α} {restoreBegin restoreEnd width : ℕ} (hr : r.Full gs width)
    (hscratch : scratch.attr.length = width) (hbegin : 0 ≤ columnBegin) (hx : min columnBegin.toNat width ≤ restoreBegin)
    (hend : restoreEnd ≤ width) : ∃ r',
      restoreAttributes r scratch columnBegin restoreBegin restoreEnd = .ok r' ∧ r'.Full gs width := by
  obtain ⟨hholds, hcolumns, hattributes⟩ := hr
  unfold restoreAttributes
  dsimp only
  split
  · rw [if_neg (Int.not_lt.mpr hbegin)]
    refine ⟨_, rfl, hholds.congr rfl rfl rfl, hcolumns, ?_⟩
    dsimp only
    simp only [List.length_append, List.length_take, List.length_drop]
    omega
  · exact ⟨r, rfl, hholds, hcolumns, hattributes⟩

/-- **`Insert`** throws nothing either, and leaves the text where it is when it writes what was there behind it. -/
theorem insert_puts (hc : Content b) (hpos : 0 < b.height) (hr : (b.getRowByOffset row).Holds gs) (cwd : Clustering)
    (attributes : α) (hbegin : 0 ≤ columnBegin) (hx : min columnBegin.toNat b.width = x)
    (hlimit : min columnLimit.toNat b.width = limit) (hwidth : b.width < 0x8000)
    (hroom : 2 * units (written cwd gs x limit text) + units gs + 4 * b.width < 0x8000)
    (hend : x ≤ writtenEnd cwd gs x limit text) : ∃ r gs' state,
      b.insert cwd row attributes text columnBegin columnLimit = .ok (b.setRowByOffset row r, state) ∧
      r.Full gs' b.width ∧ Printed cwd true gs x limit text state.text gs' := by
  have hfull := full_row hc hpos hr
  obtain ⟨scratch, gs₀, hcopied, hscratch, hunits₀⟩ := copyFrom_scratch hfull b.initialAttributes (by omega)
  obtain ⟨r₁, result, hwritten, hfull₁, hcolumnEnd, hinside, -, ⟨taken, htext, hfront⟩, -⟩ :=
    hfull.write cwd attributes hx hlimit hwidth (by omega) hend
  have hlength := length_getTextBetween hscratch.holds columnBegin.toNat columnLimit.toNat
  have hunits₁ := units_written_le cwd limit (scratch.getTextBetween columnBegin.toNat columnLimit.toNat)
    (hfull₁.column_le (Nat.min_eq_left hinside))
  rw [hfull₁.cols_eq] at hunits₁
  obtain ⟨r₂, result₂, hrestored, hfull₂, -, hinside₂, -, -, hbefore⟩ :=
    hfull₁.replaceText cwd (Nat.min_eq_left hinside) hlimit hwidth (hunits₁.trans_lt (by omega))
  obtain ⟨r₃, hattributes, hfull₃⟩ := restoreAttributes_full hfull₂ hscratch.attributes hbegin
    (hx.trans_le (hcolumnEnd ▸ hend)) hinside₂
  refine ⟨r₃, _, result, (bind_of_ok hcopied).trans ((bind_of_ok hwritten).trans ((bind_of_ok hrestored).trans
    (bind_of_ok hattributes))), hfull₃, nofun, taken, htext, fun hne => ?_⟩
  obtain ⟨front, hprefix, hcolsFront, hlead⟩ := hfront hne
  exact hlead ▸ hbefore front hprefix hcolsFront

end Printing

end TextBuffer

end VT7.Buffer
