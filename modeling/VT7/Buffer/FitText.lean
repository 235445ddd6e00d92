import VT7.Buffer.ClusterPath

/-!
# How much of a text fits

`FitTextIntoColumns` measures a text the way `ReplaceText` would write it: characters of ASCII one by one, and clusters
from the first other character on.  It adds up the widths as they are measured, where a write gives every cluster at
least one column.
-/

namespace VT7.Buffer

open WriteHelper

variable {α : Type}

/-- The loop over clusters: the code units and the columns so far. -/
def fitClusters (cwd : Clustering) (chars : List UInt16) (columnLimit start : ℕ) : ℕ → ℕ → ℕ → ℕ × ℕ
  | 0, dist, col => (dist, col)
  | iterations + 1, dist, col =>
    if dist < chars.length then
      let state := cwd.next chars start dist
      let col := col + state.2
      if columnLimit < col then (dist, col)
      else fitClusters cwd chars columnLimit start iterations (dist + state.1) col
    else (dist, col)

/-- `TextBuffer::FitTextIntoColumns`: how many code units fit, and the columns they take. -/
def fitTextIntoColumns (cwd : Clustering) (chars : List UInt16) (columnLimit : ℤ) : ℕ × ℕ :=
  let columnLimit := (max 0 columnLimit).toNat
  let dist := asciiLength chars columnLimit
  if dist = min chars.length columnLimit then (dist, dist)
  else
    let dist := if dist ≠ 0 then dist - 1 else dist
    fitClusters cwd chars columnLimit dist chars.length dist dist

/-- The measured widths of the clusters of a text from a position on. -/
def clusterWidths (cwd : Clustering) (chars : List UInt16) (start : ℕ) : ℕ → ℕ → List ℕ
  | 0, _ => []
  | iterations + 1, position =>
    if position < chars.length then
      (cwd.next chars start position).2 ::
        clusterWidths cwd chars start iterations (position + (cwd.next chars start position).1)
    else []

section Fits

variable {cwd : Clustering} {chars : List UInt16} {limit start position iterations col room : ℕ}

/-- A text that fits is measured to its end. -/
lemma fitClusters_all (hcol : col + (clusterWidths cwd chars start iterations position).sum ≤ limit)
    (hposition : position ≤ chars.length) (henough : chars.length - position ≤ iterations) :
    fitClusters cwd chars limit start iterations position col =
      (chars.length, col + (clusterWidths cwd chars start iterations position).sum) := by
  induction iterations generalizing position col with
  | zero =>
    obtain rfl : position = chars.length := by omega
    rfl
  | succ iterations ih =>
    unfold fitClusters clusterWidths
    unfold clusterWidths at hcol
    by_cases hmore : position < chars.length
    · have hpos := cwd.next_pos chars start position hmore
      have hle := cwd.next_le chars start position hmore
      rw [if_pos hmore, List.sum_cons] at hcol
      rw [if_pos hmore, if_pos hmore, List.sum_cons]
      dsimp only
      rw [if_neg (by omega), ih (by omega) (by omega) (by omega), Nat.add_assoc]
    · obtain rfl : position = chars.length := by omega
      rw [if_neg hmore, if_neg hmore]
      rfl

/-- Otherwise the columns are more than there is room for. -/
lemma fitClusters_over (hcol : limit < col + (clusterWidths cwd chars start iterations position).sum)
    (hroom : col ≤ limit) : limit < (fitClusters cwd chars limit start iterations position col).2 := by
  induction iterations generalizing position col with
  | zero =>
    rw [clusterWidths, List.sum_nil] at hcol
    omega
  | succ iterations ih =>
    unfold fitClusters
    unfold clusterWidths at hcol
    by_cases hmore : position < chars.length
    · rw [if_pos hmore, List.sum_cons] at hcol
      rw [if_pos hmore]
      dsimp only
      by_cases hover : limit < col + (cwd.next chars start position).2
      · rw [if_pos hover]
        exact hover
      · rw [if_neg hover]
        exact ih (by omega) (by omega)
    · rw [if_neg hmore, List.sum_nil] at hcol
      omega

/-- The clusters that are written, where each of them has a column. -/
lemma glyphs_all (hwidths : 0 ∉ clusterWidths cwd chars start iterations position)
    (hroom : (clusterWidths cwd chars start iterations position).sum ≤ room) (hposition : position ≤ chars.length)
    (henough : chars.length - position ≤ iterations) :
    units (cwd.glyphs chars start iterations position room) = chars.length - position ∧
      cols (cwd.glyphs chars start iterations position room) =
        (clusterWidths cwd chars start iterations position).sum := by
  induction iterations generalizing position room with
  | zero => exact ⟨by rw [Clustering.glyphs, units_nil]; omega, rfl⟩
  | succ iterations ih =>
    unfold clusterWidths at hwidths hroom ⊢
    unfold Clustering.glyphs
    by_cases hmore : position < chars.length
    · have hlength := @Clustering.length_glyph cwd chars start position hmore
      have hle := cwd.next_le chars start position hmore
      have hpos := cwd.next_pos chars start position hmore
      rw [if_pos hmore, List.mem_cons, not_or] at hwidths
      rw [if_pos hmore, List.sum_cons] at hroom
      have hwidth : (cwd.glyph chars start position hmore).width = (cwd.next chars start position).2 := by
        show max 1 _ = _
        omega
      rw [dif_pos hmore, if_pos hmore, hwidth, if_pos (by omega), hlength, List.sum_cons, units_cons, cols_cons,
        hwidth, hlength]
      obtain ⟨hunits, hcols⟩ := @ih (position + (cwd.next chars start position).1)
        (room - (cwd.next chars start position).2) hwidths.2 (by omega) (by omega) (by omega)
      rw [hunits, hcols]
      exact ⟨by omega, rfl⟩
    · rw [dif_neg hmore, if_neg hmore]
      exact ⟨by rw [units_nil]; omega, rfl⟩

/-- A text that is written to its end takes as many columns as are measured, or more for clusters without a width. -/
lemma cols_glyphs_of_all (hall : units (cwd.glyphs chars start iterations position room) = chars.length - position)
    (hposition : position ≤ chars.length) :
    (clusterWidths cwd chars start iterations position).sum ≤ cols (cwd.glyphs chars start iterations position room) ∧
      (cols (cwd.glyphs chars start iterations position room) =
          (clusterWidths cwd chars start iterations position).sum →
        0 ∉ clusterWidths cwd chars start iterations position) := by
  induction iterations generalizing position room with
  | zero => exact ⟨le_refl _, fun _ => List.not_mem_nil⟩
  | succ iterations ih =>
    unfold clusterWidths
    unfold Clustering.glyphs at hall ⊢
    by_cases hmore : position < chars.length
    · have hlength := @Clustering.length_glyph cwd chars start position hmore
      have hle := cwd.next_le chars start position hmore
      have hwidth : (cwd.glyph chars start position hmore).width = max 1 (cwd.next chars start position).2 := rfl
      rw [dif_pos hmore] at hall ⊢
      rw [if_pos hmore]
      by_cases hfit : (cwd.glyph chars start position hmore).width ≤ room
      · rw [if_pos hfit, units_cons] at hall
        rw [if_pos hfit, cols_cons, List.sum_cons, List.mem_cons, not_or]
        rw [hlength] at hall ⊢
        obtain ⟨hsum, hsame⟩ := @ih (position + (cwd.next chars start position).1)
          (room - (cwd.glyph chars start position hmore).width) (by omega) (by omega)
        refine ⟨by omega, fun heq => ⟨by omega, hsame (by omega)⟩⟩
      · rw [if_neg hfit, units_nil] at hall
        omega
    · rw [if_neg hmore]
      exact ⟨Nat.zero_le _, fun _ => List.not_mem_nil⟩

/-- The text is ASCII as far as there are columns, or from its last ASCII character before another one on all clusters
have columns and room for them. -/
def FitsWhole (cwd : Clustering) (chars : List UInt16) (limit : ℕ) : Prop :=
  asciiLength chars limit = min chars.length limit ∨
    0 ∉ clusterWidths cwd chars (asciiLength chars limit - 1) chars.length (asciiLength chars limit - 1) ∧
      asciiLength chars limit - 1 +
        (clusterWidths cwd chars (asciiLength chars limit - 1) chars.length (asciiLength chars limit - 1)).sum ≤ limit

instance (cwd : Clustering) (chars : List UInt16) (limit : ℕ) : Decidable (FitsWhole cwd chars limit) :=
  inferInstanceAs (Decidable (_ ∨ _))

/-- The answer of `FitTextIntoColumns` is what a write has done. -/
structure MeasuresWrite (cwd : Clustering) (chars : List UInt16) (columnLimit : ℤ) (res : RowWriteResult) : Prop where
  consumed : (fitTextIntoColumns cwd chars columnLimit).1 + res.text.length = chars.length
  columns : (fitTextIntoColumns cwd chars columnLimit).2 = res.columnEnd
  full : res.text ≠ [] → ((fitTextIntoColumns cwd chars columnLimit).2 : ℤ) = max 0 columnLimit

/-- The front of a text at the first column. -/
lemma textFront_first (hm : cwd.MeasuresAscii) (gs : List Glyph) (hchars : chars ≠ [])
    (hmore : asciiLength chars limit < min chars.length limit) :
    textFront cwd gs 0 limit chars = narrows (chars.take (asciiLength chars limit - 1)) ++
      cwd.glyphs chars (asciiLength chars limit - 1) chars.length (asciiLength chars limit - 1)
        (limit - (asciiLength chars limit - 1)) := by
  unfold textFront
  rw [Nat.sub_zero, if_pos hmore]
  by_cases hzero : asciiLength chars limit = 0
  · rw [if_pos hzero, unicodeFront_clusters hm hchars (.inl rfl), lead_zero, hzero]
    rfl
  · rw [if_neg hzero, lead_zero, Nat.zero_add]
    rfl

lemma fitTextIntoColumns_slow (hmore : asciiLength chars limit < min chars.length limit) :
    fitTextIntoColumns cwd chars limit = fitClusters cwd chars limit (asciiLength chars limit - 1) chars.length
      (asciiLength chars limit - 1) (asciiLength chars limit - 1) := by
  unfold fitTextIntoColumns
  dsimp only
  rw [max_eq_right (Int.natCast_nonneg limit), Int.toNat_natCast, if_neg (Nat.ne_of_lt hmore)]
  split
  · rfl
  · next hzero =>
    rw [not_not] at hzero
    rw [hzero]

end Fits

section Agreement

variable {cwd : Clustering} {chars : List UInt16} {limit width : ℕ}

/-- A write at the first column of a blank row. -/
lemma replaceText_blank (hlimit : limit ≤ width) (hwidth : width < 0x8000) (attr : α) (hlt : 0 < limit)
    (hchars : chars ≠ []) (hshort : units (textWritten cwd (blanks width) 0 limit chars) < 0x8000) :
    ∃ row res, (Row.create width attr).replaceText cwd { text := chars, columnLimit := limit } = .ok (row, res) ∧
      res.text = chars.drop (units (textFront cwd (blanks width) 0 limit chars)) ∧
      res.columnEnd = if units (textFront cwd (blanks width) 0 limit chars) = chars.length then
        cols (textFront cwd (blanks width) 0 limit chars) else limit := by
  have hr := create_holds hwidth attr
  have hlength : 0 < chars.length := List.length_pos_iff.mpr hchars
  have hx : (Row.create width attr).clampedColumnInclusive 0 = 0 := Nat.zero_min _
  have hlimit' : (Row.create width attr).clampedColumnInclusive limit = limit := Nat.min_eq_left hlimit
  obtain ⟨row, res, hok, -, -, htext, hend, -, -⟩ := replaceText_result hr cwd { text := chars, columnLimit := limit } hx
    hlimit' hlt hlength hwidth hshort
  unfold textEnd at hend
  rw [lead_zero, units_nil] at htext hend
  rw [Nat.zero_add] at hend
  exact ⟨row, res, hok, htext, hend⟩

/-- **Measuring agrees with writing** exactly where the text fits, and no cluster of it is without a column, or where
the fast path for ASCII measures all there is. -/
theorem fitTextIntoColumns_agrees_iff (hm : cwd.MeasuresAscii) (chars : List UInt16) (columnLimit : ℤ)
    (hlimit : columnLimit ≤ width) (hwidth : width < 0x8000) (attr : α)
    (hshort : 0 < columnLimit → units (textWritten cwd (blanks width) 0 columnLimit.toNat chars) < 0x8000) :
    ∃ row res, (Row.create width attr).replaceText cwd { text := chars, columnLimit := columnLimit.toNat } =
        .ok (row, res) ∧
      (MeasuresWrite cwd chars columnLimit res ↔ FitsWhole cwd chars columnLimit.toNat) := by
  have hmax : max 0 columnLimit = (columnLimit.toNat : ℤ) := by omega
  have hfit : fitTextIntoColumns cwd chars columnLimit = fitTextIntoColumns cwd chars (columnLimit.toNat : ℤ) := by
    unfold fitTextIntoColumns
    rw [hmax, max_eq_right (Int.natCast_nonneg _)]
  have hmeasures (res : RowWriteResult) : MeasuresWrite cwd chars columnLimit res ↔
      (fitTextIntoColumns cwd chars (columnLimit.toNat : ℤ)).1 + res.text.length = chars.length ∧
        (fitTextIntoColumns cwd chars (columnLimit.toNat : ℤ)).2 = res.columnEnd ∧
        (res.text ≠ [] → (fitTextIntoColumns cwd chars (columnLimit.toNat : ℤ)).2 = columnLimit.toNat) := by
    refine ⟨fun h => ?_, fun h => ⟨?_, ?_, fun hne => ?_⟩⟩
    · rw [← hfit]
      exact ⟨h.consumed, h.columns, fun hne => Int.ofNat_inj.mp ((h.full hne).trans hmax)⟩
    · rw [hfit]
      exact h.1
    · rw [hfit]
      exact h.2.1
    · rw [hfit, hmax, h.2.2 hne]
  replace hlimit : columnLimit.toNat ≤ width := by omega
  replace hshort : 0 < columnLimit.toNat →
      units (textWritten cwd (blanks width) 0 columnLimit.toNat chars) < 0x8000 := fun hpos => hshort (by omega)
  generalize columnLimit.toNat = limit at *
  clear hfit
  have hle := asciiLength_le chars limit
  have hfast : asciiLength chars limit = min chars.length limit → fitTextIntoColumns cwd chars (limit : ℤ) =
      (asciiLength chars limit, asciiLength chars limit) := fun hall => by
    unfold fitTextIntoColumns
    dsimp only
    rw [max_eq_right (Int.natCast_nonneg limit), Int.toNat_natCast, if_pos hall]
  by_cases hvalid : 0 < limit ∧ chars ≠ []
  · obtain ⟨hlt, hchars⟩ := hvalid
    have hlength : 0 < chars.length := List.length_pos_iff.mpr hchars
    obtain ⟨row, res, hok, htext, hend⟩ := replaceText_blank hlimit hwidth attr hlt hchars (hshort hlt)
    refine ⟨row, res, hok, (hmeasures res).trans ?_⟩
    by_cases hall : asciiLength chars limit = min chars.length limit
    · have hfront : textFront cwd (blanks width) 0 limit chars = narrows (chars.take (asciiLength chars limit)) := by
        unfold textFront
        rw [Nat.sub_zero, if_neg (by omega), lead_zero]
        rfl
      rw [hfront, units_narrows, cols_narrows, List.length_take, Nat.min_eq_left (by omega)] at hend
      rw [hfront, units_narrows, List.length_take, Nat.min_eq_left (by omega)] at htext
      refine iff_of_true ⟨?_, ?_, fun hne => ?_⟩ (.inl hall)
      · rw [hfast hall, htext, List.length_drop]
        dsimp only
        omega
      · rw [hfast hall, hend]
        dsimp only
        split <;> omega
      · rw [hfast hall]
        rw [htext, Ne, List.drop_eq_nil_iff] at hne
        dsimp only
        omega
    · have hmore : asciiLength chars limit < min chars.length limit := by omega
      have hfits : FitsWhole cwd chars limit ↔
          0 ∉ clusterWidths cwd chars (asciiLength chars limit - 1) chars.length (asciiLength chars limit - 1) ∧
            asciiLength chars limit - 1 + (clusterWidths cwd chars (asciiLength chars limit - 1) chars.length
              (asciiLength chars limit - 1)).sum ≤ limit :=
        or_iff_right hall
      rw [hfits, fitTextIntoColumns_slow hmore]
      rw [textFront_first hm _ hchars hmore, units_append, units_narrows, List.length_take,
        Nat.min_eq_left (by omega)] at htext
      rw [textFront_first hm _ hchars hmore, units_append, cols_append, units_narrows, cols_narrows, List.length_take,
        Nat.min_eq_left (by omega)] at hend
      have hd : asciiLength chars limit - 1 ≤ limit ∧ asciiLength chars limit - 1 ≤ chars.length := by omega
      generalize asciiLength chars limit - 1 = d at *
      have hunits := @Clustering.units_glyphs_le cwd chars d d (limit - d) chars.length
      have hcols := @Clustering.cols_glyphs_le cwd chars d d (limit - d) chars.length
      refine ⟨fun ⟨hconsumed, hcolumns, _⟩ => ?_, fun ⟨hwidths, hsum⟩ => ?_⟩
      · have hsum : d + (clusterWidths cwd chars d chars.length d).sum ≤ limit := by
          by_contra hover
          have hcol := @fitClusters_over cwd chars limit d d chars.length d (by omega) hd.1
          rw [hcolumns, hend] at hcol
          split at hcol <;> omega
        rw [fitClusters_all hsum hd.2 (Nat.sub_le _ _)] at hconsumed hcolumns
        dsimp only at hconsumed hcolumns
        rw [htext, List.length_drop] at hconsumed
        rw [hend, if_pos (by omega)] at hcolumns
        have hall : units (cwd.glyphs chars d chars.length d (limit - d)) = chars.length - d := by omega
        exact ⟨(cols_glyphs_of_all hall hd.2).2 (by omega), hsum⟩
      · obtain ⟨hunits', hcols'⟩ := glyphs_all hwidths (show _ ≤ limit - d by omega) hd.2 (Nat.sub_le _ _)
        have hdone : res.text = [] := by
          rw [htext, List.drop_eq_nil_iff]
          omega
        rw [fitClusters_all hsum hd.2 (Nat.sub_le _ _), hdone, hend, if_pos (by omega), hcols']
        exact ⟨rfl, rfl, fun hne => absurd rfl hne⟩
  · have hnone : min chars.length limit = 0 := by
      rcases Nat.eq_zero_or_pos limit with hzero | hpos
      · omega
      · have hnil : chars = [] := by
          by_contra hne
          exact hvalid ⟨hpos, hne⟩
        rw [hnil]
        exact Nat.zero_min _
    have hall : asciiLength chars limit = min chars.length limit := by omega
    have hinvalid : (create (Row.create width attr) 0 limit chars).isValid = false := by
      show (decide (min 0 width < min limit width) && !chars.isEmpty) = false
      rw [Bool.and_eq_false_iff, decide_eq_false_iff_not, Bool.not_eq_false', List.isEmpty_iff_length_eq_zero]
      omega
    refine ⟨Row.create width attr, _, by unfold Row.replaceText; dsimp only; rw [hinvalid]; rfl,
      (hmeasures _).trans (iff_of_true ⟨?_, ?_, fun hne => ?_⟩ (.inl hall))⟩
    · rw [hfast hall]
      dsimp only
      omega
    · rw [hfast hall, hall, hnone]
      exact (Nat.zero_min _).symm
    · rw [hfast hall]
      have hpos := List.length_pos_iff.mpr hne
      dsimp only at hpos ⊢
      omega

end Agreement

/-- A letter with its mark behind another letter, in two columns. -/
theorem fitTextIntoColumns_agrees_iff_mark :
    ∃ row res, (Row.create 2 ()).replaceText combining { text := [0x62, 0x61, 0x301], columnLimit := 2 } =
        .ok (row, res) ∧
      (MeasuresWrite combining [0x62, 0x61, 0x301] 2 res ↔ FitsWhole combining [0x62, 0x61, 0x301] 2) :=
  fitTextIntoColumns_agrees_iff combining_measuresAscii [0x62, 0x61, 0x301] 2 (by decide) (by decide) ()
    fun _ => by decide

/-- Two characters that are not ASCII, and one column: the second one is counted in the columns. -/
theorem fitTextIntoColumns_over : ¬∃ row res,
    (Row.create 1 ()).replaceText combining { text := [0xe9, 0xe9], columnLimit := 1 } = .ok (row, res) ∧
      MeasuresWrite combining [0xe9, 0xe9] 1 res := by
  rintro ⟨row, res, hok, hmeasures⟩
  have hend : ((Row.create 1 ()).replaceText combining { text := [0xe9, 0xe9], columnLimit := 1 }).toOption.map
      (·.2.columnEnd) = some 1 := by decide
  rw [hok] at hend
  have hcolumnEnd : res.columnEnd = 1 := Option.some.inj hend
  have hcolumns := hmeasures.columns
  rw [hcolumnEnd] at hcolumns
  have htwo : (fitTextIntoColumns combining [0xe9, 0xe9] 1).2 = 2 := by decide
  rw [htwo] at hcolumns
  exact absurd hcolumns (by decide)

end VT7.Buffer
