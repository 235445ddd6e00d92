import VT7.Buffer.CellStrips
import VT7.Buffer.ClusterPath

/-!
# The cells a text is written to

What `ReplaceText` leaves in a row, said on cells: from its column on the leading clusters of the text, as many as fit,
a space where a wide glyph was cut, and every other cell as it was.
-/

namespace VT7.Buffer

open VT7.Lib.Cells
open WriteHelper

variable {α : Type}

/-- A cell of a row. -/
def Row.cell (r : Row α) (column : ℕ) : GlyphCell := ⟨r.glyphAt column, (r.dbcsAttrAt column).half⟩

/-- Where the leading clusters of a text end, or the limit when text remains. -/
def clustersEnd (cwd : Clustering) (x limit : ℕ) (chars : List UInt16) : ℕ :=
  if units (cwd.clusters chars (limit - x)) = chars.length then x + cols (cwd.clusters chars (limit - x)) else limit

/-- **A write of exactly the leading clusters of a text** that have room in the columns from `x` to `limit`. -/
structure WritesClusters (cwd : Clustering) (r : Row α) (x limit : ℕ) (chars : List UInt16) (row : Row α)
    (res : RowWriteResult) : Prop where
  cells : ∀ y < r.columnCount, row.cell y =
    if x < limit then
      laid [space] r.cell (fun y => stripOf (cwd.clusters chars (limit - x)) (y - x)) x
        (clustersEnd cwd x limit chars) y
    else r.cell y
  text : res.text = chars.drop (units (cwd.clusters chars (limit - x)))
  columnEnd : res.columnEnd = clustersEnd cwd x limit chars
  kept : ∀ y < r.columnCount, ¬(res.columnBeginDirty ≤ y ∧ y < res.columnEndDirty) → row.cell y = r.cell y

section Written

variable {r : Row α} {cwd : Clustering} {gs new : List Glyph} {x k limit : ℕ} {chars : List UInt16}

lemma closed_lead (gs new : List Glyph) (x k : ℕ) : closed gs (lead gs x ++ new) k = overlaid gs x k new := by
  unfold closed overlaid lead
  simp only [cols_append, cols_blanks, List.append_assoc]
  have hle := cols_upTo_le x gs
  rw [show cols (upTo x gs) + (x - cols (upTo x gs) + cols new) = x + cols new by omega]

/-- Before the written range and behind it the cells are as they were. -/
lemma stripOf_overlaid_outside (hx : x + cols new ≤ k) (hk : k ≤ cols gs) {y : ℕ}
    (hy : ¬(cols (upTo x gs) ≤ y ∧ y < x + cols new + (cols gs - cols (beyond k gs) - (x + cols new)))) :
    stripOf (overlaid gs x k new) y = stripOf gs y := by
  obtain ⟨rest, hrest⟩ := upTo_isPrefix x gs
  obtain ⟨p, hsplit, hp⟩ := beyond_cases hk
  have hcols := congrArg cols hsplit
  rw [cols_append] at hcols
  have hle := cols_upTo_le x gs
  by_cases hbefore : y < cols (upTo x gs)
  · unfold overlaid
    rw [stripOf_left hbefore]
    conv_rhs => rw [← hrest, stripOf_left hbefore]
  · have hend : cols p ≤ y := by omega
    have hfront : cols (upTo x gs ++ (blanks (x - cols (upTo x gs)) ++ (new ++
        blanks (cols gs - cols (beyond k gs) - (x + cols new))))) = cols p := by
      simp only [cols_append, cols_blanks]
      omega
    have hassoc : overlaid gs x k new = (upTo x gs ++ (blanks (x - cols (upTo x gs)) ++ (new ++
        blanks (cols gs - cols (beyond k gs) - (x + cols new))))) ++ beyond k gs := by
      unfold overlaid
      simp only [List.append_assoc]
    rw [hassoc, stripOf_right (by omega), hfront]
    conv_rhs => rw [hsplit, stripOf_right hend]

/-! ### Where the dirty columns begin -/

lemma replaceClusters_colBegDirty (cwd : Clustering) (start iterations it : ℕ) (h : WriteHelper α) :
    (h.replaceClusters cwd start iterations it).colBegDirty = h.colBegDirty := by
  induction iterations generalizing it h with
  | zero => rfl
  | succ iterations ih =>
    unfold replaceClusters
    dsimp only
    split
    · split
      · rfl
      · exact ih _ _
    · rfl

lemma replaceText_colBegDirty {columnBegin columnLimit : ℕ} (hr : r.Holds gs)
    (hx : r.clampedColumnInclusive columnBegin = x) (hjoin : x = 0 ∨ (cwd.join (charsPrev gs x) chars).1 = 0) :
    ((create r columnBegin columnLimit chars).replaceText cwd).colBegDirty = cols (upTo x gs) := by
  have hxcols : x ≤ cols gs := by
    rw [hr.columns, ← hx]
    exact Nat.min_le_right _ _
  have hleadShort : units (lead gs x) < 0x8000 := (units_lead_le hxcols).trans_lt hr.short
  obtain ⟨-, -, hback, hchBeg, -, -⟩ := @create_writing _ _ _ _ _ columnLimit hr hx hleadShort chars
  have hcolBeg : (create r columnBegin columnLimit chars).colBeg = x := hx
  have hrow : (create r columnBegin columnLimit chars).row = r := rfl
  have hchars : (create r columnBegin columnLimit chars).chars = chars := rfl
  generalize create r columnBegin columnLimit chars = h at *
  unfold WriteHelper.replaceText
  dsimp only
  generalize hn : h.asciiFront.length = n
  split
  · unfold replaceTextUnicode
    split
    · next hzero =>
      subst hzero
      obtain ⟨hprev, hprevOffset⟩ := previous_column hr hxcols
      have hsame : { h.row with charOffsets := overwrite h.row.charOffsets h.colEnd (iota 0 h.chBeg) } = r := by
        rw [show iota 0 h.chBeg = [] from rfl, overwrite_nil, hrow]
      rw [hsame]
      dsimp only
      rw [hcolBeg, hprev, hprevOffset, hchBeg, charsPrev_eq hr hxcols, hchars]
      split
      · next hpos =>
        obtain rfl := hjoin.resolve_right (Nat.ne_of_gt hpos)
        split
        · rfl
        · rw [replaceClusters_colBegDirty]
          rfl
      · rw [replaceClusters_colBegDirty]
        exact hback
    · rw [replaceClusters_colBegDirty]
      exact hback
  · exact hback

/-! ### `ReplaceText` -/

lemma textFront_leads (hm : cwd.MeasuresAscii) (hlt : x < limit) (hchars : 0 < chars.length)
    (hjoin : x = 0 ∨ (cwd.join (charsPrev gs x) chars).1 = 0) (hwhole : ¬cwd.SplitsCluster chars (limit - x)) :
    textFront cwd gs x limit chars = lead gs x ++ cwd.clusters chars (limit - x) := by
  by_cases hzero : asciiLength chars (limit - x) = 0
  · rw [← unicodeFront_clusters hm (List.length_pos_iff.mp hchars) hjoin]
    unfold textFront
    rw [hzero, if_pos (by omega), if_pos rfl]
  · exact textFront_clusters hm (by omega) hwhole

/-- **`ReplaceText` writes exactly its text**, where the columns do not end inside a cluster that begins with ASCII. -/
theorem replaceText_writes_iff (hr : r.Holds gs) (hm : cwd.MeasuresAscii) (hcount : r.columnCount < 0x8000)
    (state : RowWriteState) (hchars : state.text ≠ []) (hx : r.clampedColumnInclusive state.columnBegin = x)
    (hlimit : max x (r.clampedColumnInclusive state.columnLimit) = limit)
    (hjoin : x = 0 ∨ (cwd.join (charsPrev gs x) state.text).1 = 0)
    (hshort : x < limit → units (textWritten cwd gs x limit state.text) < 0x8000) :
    ∃ row res, r.replaceText cwd state = .ok (row, res) ∧
      (WritesClusters cwd r x limit state.text row res ↔ ¬cwd.SplitsCluster state.text (limit - x)) := by
  have hlength : 0 < state.text.length := List.length_pos_iff.mpr hchars
  by_cases hlt : x < limit
  · have hlimit' : r.clampedColumnInclusive state.columnLimit = limit := by omega
    have hlimitLe : limit ≤ r.columnCount := hlimit' ▸ Nat.min_le_right _ _
    obtain ⟨row, res, hok, hholds, hrowCount, htext, hend, hbegin, hdirty⟩ :=
      replaceText_result hr cwd state hx hlimit' hlt hlength hcount (hshort hlt)
    refine ⟨row, res, hok, fun hwrites hsplits => ?_, fun hwhole => ?_⟩
    · -- the fast path has taken one character for every column
      obtain ⟨hroom, hmore, hall, -⟩ := id hsplits
      have hrest := hwrites.text
      rw [htext, textFront_whole hall, units_append, Nat.add_sub_cancel_left, units_narrows, List.length_take] at hrest
      have hlengths := congrArg List.length hrest
      have htaken := @Clustering.units_glyphs_le cwd state.text 0 0 (limit - x) state.text.length
      change units (cwd.clusters state.text (limit - x)) ≤ _ at htaken
      rw [List.length_drop, List.length_drop] at hlengths
      exact Clustering.units_clusters_ne hm hsplits (by omega)
    · have hnew := textFront_leads hm hlt hlength hjoin hwhole
      have hcolsNew : cols (cwd.clusters state.text (limit - x)) ≤ limit - x := Clustering.cols_glyphs_le _
      have hendEq : textEnd gs (textFront cwd gs x limit state.text) x limit state.text =
          clustersEnd cwd x limit state.text := by
        unfold textEnd clustersEnd
        rw [hnew, units_append, cols_append, cols_lead]
        simp only [Nat.add_left_cancel_iff]
      have hk : x + cols (cwd.clusters state.text (limit - x)) ≤ clustersEnd cwd x limit state.text ∧
          clustersEnd cwd x limit state.text ≤ cols gs := by
        unfold clustersEnd
        rw [hr.columns]
        split <;> omega
      rw [textWritten, hendEq, hnew, closed_lead] at hholds
      rw [hendEq] at hend hdirty
      rw [hnew, cols_append, cols_lead] at hdirty
      rw [replaceText_colBegDirty hr hx hjoin] at hbegin
      have hcell : ∀ y < r.columnCount, row.cell y = stripOf (overlaid gs x (clustersEnd cwd x limit state.text)
          (cwd.clusters state.text (limit - x))) y := fun y hy => hholds.cell_eq (hrowCount ▸ hy)
      have hcell' : ∀ y < r.columnCount, r.cell y = stripOf gs y := fun y hy => hr.cell_eq hy
      refine ⟨fun y hy => ?_, ?_, hend, fun y hy hout => ?_⟩
      · rw [if_pos hlt, hcell y hy, stripOf_overlaid hk.1 hk.2]
        unfold laid
        rw [hcell' y hy, hcell' x (by omega)]
      · rw [htext, hnew, units_append, Nat.add_sub_cancel_left]
      · rw [hcell y hy, hcell' y hy]
        exact stripOf_overlaid_outside hk.1 hk.2 (by rwa [hbegin, hdirty] at hout)
  · obtain rfl : limit = x := by omega
    have hinvalid : (create r state.columnBegin state.columnLimit state.text).isValid = false :=
      create_invalid (by omega)
    have hnone : cwd.clusters state.text (limit - limit) = [] := by
      rw [Nat.sub_self]
      exact Clustering.glyphs_full _
    refine ⟨r, _, by unfold Row.replaceText; dsimp only; rw [hinvalid]; rfl,
      iff_of_true ⟨fun y _ => ?_, ?_, ?_, fun _ _ _ => rfl⟩ ?_⟩
    · rw [if_neg (lt_irrefl limit)]
    · rw [hnone]
      rfl
    · show (create r state.columnBegin state.columnLimit state.text).colBeg = _
      unfold clustersEnd
      rw [hnone, if_neg (by rw [units_nil]; omega)]
      exact hx
    · rintro ⟨hroom, -, -, -⟩
      omega

end Written

/-- A letter with its mark, behind another letter. -/
theorem replaceText_writes_iff_room :
    ∃ row res, (Row.create 3 ()).replaceText combining { text := [0x62, 0x61, 0x301] } = .ok (row, res) ∧
      (WritesClusters combining (Row.create 3 ()) 0 3 [0x62, 0x61, 0x301] row res ↔
        ¬combining.SplitsCluster [0x62, 0x61, 0x301] (3 - 0)) :=
  replaceText_writes_iff (create_holds (by decide) ()) combining_measuresAscii (by decide)
    { text := [0x62, 0x61, 0x301] } (List.cons_ne_nil _ _) rfl rfl (.inl rfl) (fun _ => by decide)

/-- The letter is written without its mark. -/
theorem replaceText_leaves_mark : ¬∃ row res,
    (Row.create 1 ()).replaceText combining { text := [0x61, 0x301] } = .ok (row, res) ∧
      WritesClusters combining (Row.create 1 ()) 0 1 [0x61, 0x301] row res := by
  rintro ⟨row, res, hok, hwrites⟩
  have hleft : ((Row.create 1 ()).replaceText combining { text := [0x61, 0x301] }).toOption.map (·.2.text) =
      some [0x301] := by decide
  have hall : [0x61, 0x301].drop (units (combining.clusters [0x61, 0x301] (1 - 0))) = ([] : List UInt16) := by decide
  rw [hok] at hleft
  have hrest : res.text = [0x301] := Option.some.inj hleft
  have htext := hwrites.text
  rw [hrest, hall] at htext
  exact nomatch htext

end VT7.Buffer
