import VT7.Buffer.RowLayout

/-!
# What writes of text leave in a row

`replaceText_holds` and `replaceCharacters_holds`: the row stands for the glyphs that `textWritten` and
`charactersWritten` name, as long as these are shorter than 0x8000 code units.
-/

namespace VT7.Buffer

variable {α : Type}

/-! ### The row behind a write -/

open WriteHelper

section Rows

variable {r : Row α} {gs : List Glyph} {x k : ℕ} {chars : List UInt16}

lemma cols_le_of_isPrefix {f gs : List Glyph} (h : f <+: gs) : cols f ≤ cols gs := by
  obtain ⟨rest, rfl⟩ := h
  rw [cols_append]
  exact Nat.le_add_right _ _

/-- The text before column `x` and the text of the glyphs that stay do not overlap. -/
lemma upTo_beyond_le (hk : x ≤ k ∨ cols (upTo (x - 1) gs) < k) (hkcols : k ≤ cols gs) (hshort : units gs < 0x8000) :
    units (upTo x gs) + units (beyond k gs) ≤ units gs := by
  obtain ⟨p, hsplit, -, hp, -⟩ := stepForward_spec 0 gs (by simpa using hshort) hkcols
  have hprefix : p <+: gs := ⟨_, hsplit.symm⟩
  have hunits : units gs = units p + units (beyond k gs) := by
    have := congrArg units hsplit
    rwa [units_append] at this
  have hxle := cols_upTo_le x gs
  have hreach : x ≤ cols p := by
    rcases hk with hk | hk
    · exact hk.trans hp
    · by_contra hlt
      have hle := cols_le_of_isPrefix (prefix_upTo (n := x - 1) hprefix (by omega))
      omega
  have hup : upTo x gs <+: p := by
    rcases List.prefix_or_prefix_of_prefix (upTo_isPrefix x gs) hprefix with h | ⟨t, ht⟩
    · exact h
    · have hcols := congrArg cols ht
      rw [cols_append] at hcols
      have hnil : t = [] := by
        by_contra hne
        have := cols_pos hne
        omega
      rw [← ht, hnil, List.append_nil]
  have hle := units_le_of_isPrefix hup
  omega

/-- A written text ends behind the glyph before it. -/
lemma le_textEnd_lead {limit : ℕ} (new : List Glyph) (hlt : x < limit) :
    x ≤ textEnd gs (lead gs x ++ new) x limit chars := by
  unfold textEnd
  split
  · rw [cols_append, cols_lead]
    exact Nat.le_add_right _ _
  · exact hlt.le

lemma unicodeEnd_reach (cwd : Clustering) {limit : ℕ} (hlt : x < limit) (hchars : 0 < chars.length) :
    x ≤ textEnd gs (unicodeFront cwd gs x limit chars) x limit chars ∨
      cols (upTo (x - 1) gs) < textEnd gs (unicodeFront cwd gs x limit chars) x limit chars := by
  unfold unicodeFront
  split
  · next hjoin =>
    unfold textEnd
    split
    · next hcut =>
      have hle := units_le_of_isPrefix (@prefix_lead gs x (x - 1) (Nat.sub_le x 1))
      rw [if_neg (by omega)]
      exact .inl hlt.le
    · have hpos := (joined cwd gs x chars hjoin).width_pos
      split
      · right
        rw [cols_append, cols_cons]
        omega
      · exact .inl hlt.le
  · exact .inl (le_textEnd_lead _ hlt)

lemma textEnd_reach (cwd : Clustering) {limit : ℕ} (hlt : x < limit) (hchars : 0 < chars.length) :
    x ≤ textEnd gs (textFront cwd gs x limit chars) x limit chars ∨
      cols (upTo (x - 1) gs) < textEnd gs (textFront cwd gs x limit chars) x limit chars := by
  unfold textFront
  split
  · split
    · exact unicodeEnd_reach cwd hlt hchars
    · exact .inl (le_textEnd_lead _ hlt)
  · exact .inl (le_textEnd_lead _ hlt)

/-- A laid out text is finished. -/
lemma laidOut_finish {h h' : WriteHelper α} {front : List Glyph} {it : ℕ} (hl : LaidOut h h' r front it)
    (hr : r.Holds gs) (hchBeg : h.chBeg = units (lead gs x)) (hdirty : h.chBegDirty = units (upTo x gs))
    (hleading : h.leadingSpaces = x - cols (upTo x gs)) {limit : ℕ} (hcolLimit : h.colLimit = limit)
    (hlimit : limit ≤ r.columnCount)
    (hreach : x ≤ textEnd gs front x limit h.chars ∨ cols (upTo (x - 1) gs) < textEnd gs front x limit h.chars)
    (hshort : units (closed gs front (textEnd gs front x limit h.chars)) < 0x8000) :
    ∃ row, h'.finish = .ok { h' with
        row
        colEndDirty := cols front + (cols gs - cols (beyond (textEnd gs front x limit h.chars) gs) - cols front) } ∧
      row.Holds (closed gs front (textEnd gs front x limit h.chars)) ∧ row.columnCount = r.columnCount := by
  obtain ⟨touched, hw, htouched⟩ := hl.writing
  have htaken := hw.taken
  rw [hl.keeps.chBeg, hchBeg] at htaken
  have hend : h'.colEndDirty = textEnd gs front x limit h.chars := by
    rw [hl.dirty, textEnd, hcolLimit, htaken]
    simp only [Nat.add_left_cancel_iff]
  have hfront := hl.limit
  have hle : cols front ≤ textEnd gs front x limit h.chars ∧ textEnd gs front x limit h.chars ≤ r.columnCount := by
    unfold textEnd
    split
    · exact ⟨le_refl _, by omega⟩
    · exact ⟨by omega, hlimit⟩
  have hparts := upTo_beyond_le hreach (by rw [hr.columns]; exact hle.2) hr.short
  obtain ⟨row, hfinish, hholds, hcount⟩ := hw.finish hr hend hl.consumed (by rw [hl.keeps.chars]; exact hl.taken)
    (by rw [← hend]; exact htouched) (by rw [← hw.columns]; exact hle.1) hle.2
    (by rw [hl.keeps.chBeg, hl.keeps.chBegDirty, hl.keeps.leadingSpaces, hchBeg, hdirty, hleading, units_lead])
    (by rw [hl.keeps.chBegDirty, hdirty]; exact hparts) hshort
  refine ⟨row, ?_, hholds, hcount⟩
  rw [hfinish, trailing, hend, hw.columns]

lemma create_isValid {columnBegin columnLimit : ℕ}
    (hlt : r.clampedColumnInclusive columnBegin < r.clampedColumnInclusive columnLimit) (hchars : 0 < chars.length) :
    (create r columnBegin columnLimit chars).isValid = true := by
  have hne : chars.isEmpty = false := by
    rw [List.isEmpty_eq_false_iff]
    exact List.length_pos_iff.mp hchars
  show (decide (r.clampedColumnInclusive columnBegin < r.clampedColumnInclusive columnLimit) && !chars.isEmpty) = true
  rw [hne, decide_eq_true hlt]
  rfl

lemma create_invalid {columnBegin columnLimit : ℕ}
    (hinvalid : ¬(r.clampedColumnInclusive columnBegin < r.clampedColumnInclusive columnLimit ∧ chars ≠ [])) :
    (create r columnBegin columnLimit chars).isValid = false := by
  show (decide (r.clampedColumnInclusive columnBegin < r.clampedColumnInclusive columnLimit) && !chars.isEmpty) = false
  rw [Bool.and_eq_false_iff, decide_eq_false_iff_not, Bool.not_eq_false', List.isEmpty_iff]
  exact (not_and_or.mp hinvalid).imp id not_not.mp

/-- What `ReplaceText` does with a laid out text. -/
def WriteHelper.writeResult (h : WriteHelper α) (text : List UInt16) : Except BufferError (Row α × RowWriteResult) := do
  let h ← h.finish
  let text := text.drop h.charsConsumed
  .ok (h.row,
    { text
      columnEnd := if text.isEmpty then h.colEnd else h.colLimit
      columnBeginDirty := h.colBegDirty
      columnEndDirty := h.colEndDirty })

/-- **A laid out text**, as it is returned. -/
lemma writeResult_spec {state : RowWriteState} {h' : WriteHelper α} {front : List Glyph} {limit it : ℕ} (hr : r.Holds gs)
    (hx : r.clampedColumnInclusive state.columnBegin = x) (hlimit : r.clampedColumnInclusive state.columnLimit = limit)
    (hlt : x < limit) (hl : LaidOut (create r state.columnBegin state.columnLimit state.text) h' r front it)
    (hreach : x ≤ textEnd gs front x limit state.text ∨ cols (upTo (x - 1) gs) < textEnd gs front x limit state.text)
    (hshort : units (closed gs front (textEnd gs front x limit state.text)) < 0x8000) :
    ∃ row res, h'.writeResult state.text = .ok (row, res) ∧
      row.Holds (closed gs front (textEnd gs front x limit state.text)) ∧ row.columnCount = r.columnCount ∧
      res.text = state.text.drop (units front - units (lead gs x)) ∧
      res.columnEnd = textEnd gs front x limit state.text ∧ res.columnBeginDirty = h'.colBegDirty ∧
      res.columnEndDirty = cols front +
        (cols gs - cols (beyond (textEnd gs front x limit state.text) gs) - cols front) := by
  have hlimitLe : limit ≤ r.columnCount := hlimit ▸ Nat.min_le_right _ _
  have hxcols : x ≤ cols gs := by
    rw [hr.columns]
    omega
  have hleadShort : units (lead gs x) < 0x8000 := (units_lead_le hxcols).trans_lt hr.short
  obtain ⟨hdirty, hleading, -, hchBeg, -, -⟩ :=
    @create_writing _ _ _ _ _ state.columnLimit hr hx hleadShort state.text
  obtain ⟨row, hfinish, hholds, hcount⟩ := laidOut_finish hl hr hchBeg hdirty hleading hlimit hlimitLe hreach hshort
  obtain ⟨touched, hw, -⟩ := hl.writing
  have htaken := hw.taken
  rw [hl.keeps.chBeg, hchBeg] at htaken
  have hcolLimit : h'.colLimit = limit := hl.keeps.colLimit.trans hlimit
  have hit : it ≤ state.text.length := hl.taken
  have hempty : (state.text.drop it).isEmpty = true ↔
      units (lead gs x) + it = units (lead gs x) + state.text.length := by
    rw [List.isEmpty_iff, List.drop_eq_nil_iff]
    omega
  refine ⟨row, _, by unfold writeResult; rw [hfinish]; rfl, hholds, hcount, ?_, ?_, rfl, rfl⟩
  · show state.text.drop h'.charsConsumed = _
    rw [hl.consumed, htaken, Nat.add_sub_cancel_left]
  · show (if (state.text.drop h'.charsConsumed).isEmpty then h'.colEnd else h'.colLimit) = _
    rw [hl.consumed, hcolLimit, ← hw.columns, textEnd, htaken]
    simp only [hempty]

lemma replaceText_eq {cwd : Clustering} {state : RowWriteState}
    (hvalid : (create r state.columnBegin state.columnLimit state.text).isValid = true) :
    r.replaceText cwd state =
      ((create r state.columnBegin state.columnLimit state.text).replaceText cwd).writeResult state.text := by
  unfold Row.replaceText
  dsimp only
  rw [hvalid]
  rfl

lemma units_of_closed {front : List Glyph} (hshort : units (closed gs front k) < 0x8000) : units front < 0x8000 := by
  rw [closed, units_append] at hshort
  omega

/-- A text with a column, as it is returned. -/
lemma replaceText_result (hr : r.Holds gs) (cwd : Clustering) (state : RowWriteState) {limit : ℕ}
    (hx : r.clampedColumnInclusive state.columnBegin = x) (hlimit : r.clampedColumnInclusive state.columnLimit = limit)
    (hlt : x < limit) (hchars : 0 < state.text.length) (hcount : r.columnCount < 0x8000)
    (hshort : units (textWritten cwd gs x limit state.text) < 0x8000) :
    ∃ row res, r.replaceText cwd state = .ok (row, res) ∧ row.Holds (textWritten cwd gs x limit state.text) ∧
      row.columnCount = r.columnCount ∧
      res.text = state.text.drop (units (textFront cwd gs x limit state.text) - units (lead gs x)) ∧
      res.columnEnd = textEnd gs (textFront cwd gs x limit state.text) x limit state.text ∧
      res.columnBeginDirty =
        ((create r state.columnBegin state.columnLimit state.text).replaceText cwd).colBegDirty ∧
      res.columnEndDirty = cols (textFront cwd gs x limit state.text) +
        (cols gs - cols (beyond (textEnd gs (textFront cwd gs x limit state.text) x limit state.text) gs) -
          cols (textFront cwd gs x limit state.text)) := by
  obtain ⟨it, hl⟩ := replaceText_laidOut hr cwd hx hlimit hlt hchars hcount (units_of_closed hshort)
  rw [replaceText_eq (create_isValid (by rwa [hx, hlimit]) hchars)]
  exact writeResult_spec hr hx hlimit hlt hl (textEnd_reach cwd hlt hchars) hshort

/-- **What `ReplaceText` leaves in the row**, where it says that the text ends, and which of it the row has taken. -/
theorem replaceText_holds (hr : r.Holds gs) (cwd : Clustering) (state : RowWriteState) {limit : ℕ}
    (hx : r.clampedColumnInclusive state.columnBegin = x) (hlimit : r.clampedColumnInclusive state.columnLimit = limit)
    (hlt : x < limit) (hchars : 0 < state.text.length) (hcount : r.columnCount < 0x8000)
    (hshort : units (textWritten cwd gs x limit state.text) < 0x8000) :
    ∃ r' result, r.replaceText cwd state = .ok (r', result) ∧ r'.Holds (textWritten cwd gs x limit state.text) ∧
      r'.columnCount = r.columnCount ∧
      result.columnEnd = textEnd gs (textFront cwd gs x limit state.text) x limit state.text ∧
      cols (textFront cwd gs x limit state.text) ≤ limit ∧
      ∃ taken, state.text = taken ++ result.text ∧
        textOf (textFront cwd gs x limit state.text) = textOf (lead gs x) ++ taken := by
  have hlimitLe : limit ≤ r.columnCount := hlimit ▸ Nat.min_le_right _ _
  have hxcols : x ≤ cols gs := by
    rw [hr.columns]
    omega
  obtain ⟨hdirty, hleading, -⟩ := @create_writing _ _ _ _ _ state.columnLimit hr hx
    ((units_lead_le hxcols).trans_lt hr.short) state.text
  obtain ⟨it, hl⟩ := replaceText_laidOut hr cwd hx hlimit hlt hchars hcount (units_of_closed hshort)
  obtain ⟨row, result, hok, hholds, hrowCount, hrest, hend, -⟩ := replaceText_result hr cwd state hx hlimit hlt hchars
    hcount hshort
  obtain ⟨touched, hw, -⟩ := hl.writing
  have htext : textOf (textFront cwd gs x limit state.text) = textOf (lead gs x) ++ state.text.take it := by
    rw [← hw.text, hl.keeps.chBegDirty, hl.keeps.leadingSpaces, hl.keeps.chars, hdirty, hleading, upTo_text hr, lead,
      textOf_append, textOf_blanks, List.append_assoc]
    rfl
  have hit : it ≤ state.text.length := hl.taken
  have hlength := congrArg List.length htext
  rw [List.length_append, length_textOf, length_textOf, List.length_take, Nat.min_eq_left hit] at hlength
  refine ⟨row, result, hok, hholds, hrowCount, hend, hlimit ▸ hl.limit, state.text.take it, ?_, htext⟩
  rw [hrest, hlength, Nat.add_sub_cancel_left, List.take_append_drop]

/-! ### One glyph -/

/-- The glyphs up to the end of a glyph that is written at column `x`. -/
def charactersFront (gs : List Glyph) (x : ℕ) (g : Glyph) : List Glyph :=
  if cols gs < x + g.width then lead gs x else lead gs x ++ [g]

/-- **The row behind `ReplaceCharacters`.** -/
def charactersWritten (gs : List Glyph) (x : ℕ) (g : Glyph) : List Glyph :=
  closed gs (charactersFront gs x g) (textEnd gs (charactersFront gs x g) x (cols gs) g.text)

lemma replaceCharacters_laidOut {columnBegin : ℕ} (hr : r.Holds gs) (g : Glyph)
    (hx : r.clampedColumnInclusive columnBegin = x) (hcount : r.columnCount < 0x8000) :
    ∃ it, LaidOut (create r columnBegin r.columnCount g.text)
      ((create r columnBegin r.columnCount g.text).replaceCharacters g.width) r (charactersFront gs x g) it := by
  have hxle : x ≤ r.columnCount := hx ▸ Nat.min_le_right _ _
  have hcolumns := hr.columns
  have hwidth := g.width_le
  have hlength := g.length_pos
  have hleadShort : units (lead gs x) < 0x8000 := (units_lead_le (by omega)).trans_lt hr.short
  obtain ⟨-, -, -, -, hcolEnd, hw⟩ := @create_writing _ _ _ _ _ r.columnCount hr hx hleadShort g.text
  have hcolLimit : (create r columnBegin r.columnCount g.text).colLimit = r.columnCount := Nat.min_self _
  have hconsumed : (create r columnBegin r.columnCount g.text).charsConsumed = 0 := rfl
  have hchars : (create r columnBegin r.columnCount g.text).chars = g.text := rfl
  generalize create r columnBegin r.columnCount g.text = h at *
  have hnew : u16 (h.colEnd + g.width) = h.colEnd + g.width := Nat.mod_eq_of_lt (by omega)
  unfold charactersFront
  rw [hcolumns]
  by_cases hfit : r.columnCount < x + g.width
  · have hcut : h.replaceCharacters g.width = { h with colEndDirty := h.colLimit } := by
      unfold WriteHelper.replaceCharacters
      dsimp only
      exact if_pos (by rw [hnew, hcolLimit, hcolEnd]; exact hfit)
    rw [hcut, if_pos hfit]
    refine ⟨0, ⟨rfl, rfl, rfl, rfl, rfl, rfl⟩, ⟨0, hw.marked _ h.charsConsumed, Nat.zero_le _⟩, hconsumed, Nat.zero_le _, ?_, ?_⟩
    · rw [hchars, if_neg (by omega)]
    · rw [cols_lead, hcolLimit]
      exact hxle
  · rw [if_neg hfit]
    have hplaced : h.replaceCharacters g.width =
        { h.put h.chBeg (h.colEnd + g.width) with
          colEndDirty := (h.put h.chBeg (h.colEnd + g.width)).colEnd
          charsConsumed := h.chars.length } := by
      unfold WriteHelper.replaceCharacters
      dsimp only
      rw [hnew]
      exact if_neg (by rw [hcolLimit, hcolEnd]; exact hfit)
    have htake : h.chars.take (0 + g.text.length) = h.chars.take 0 ++ g.text := by
      rw [hchars, Nat.zero_add, List.take_length]
      rfl
    have hput := hw.put g htake (by omega) hleadShort
    rw [Nat.add_zero, Nat.zero_add, Nat.zero_max] at hput
    have hend := hput.columns
    rw [hplaced]
    refine ⟨g.text.length, ⟨rfl, rfl, rfl, rfl, rfl, rfl⟩, ⟨_, hput.marked _ _, ?_⟩, ?_, ?_, ?_, ?_⟩
    · rw [← hend, cols_append, cols_lead, hcolEnd]
      exact le_refl _
    · show h.chars.length = _
      rw [hchars]
    · rw [hchars]
    · rw [hchars, if_pos rfl, hend]
    · rw [cols_append, cols_lead, hcolLimit]
      show x + (g.width + 0) ≤ _
      omega

/-- **What `ReplaceCharacters` leaves in the row.** -/
theorem replaceCharacters_holds {columnBegin : ℕ} (hr : r.Holds gs) (g : Glyph)
    (hx : r.clampedColumnInclusive columnBegin = x) (hlt : x < r.columnCount) (hcount : r.columnCount < 0x8000)
    (hshort : units (charactersWritten gs x g) < 0x8000) :
    ∃ r', r.replaceCharacters columnBegin g.width g.text = .ok r' ∧ r'.Holds (charactersWritten gs x g) ∧
      r'.columnCount = r.columnCount := by
  have hcolumns := hr.columns
  have hleadShort : units (lead gs x) < 0x8000 := (units_lead_le (by omega)).trans_lt hr.short
  obtain ⟨hdirty, hleading, -, hchBeg, -, -⟩ := @create_writing _ _ _ _ _ r.columnCount hr hx hleadShort g.text
  obtain ⟨it, hl⟩ := replaceCharacters_laidOut hr g hx hcount
  have hcolLimit : (create r columnBegin r.columnCount g.text).colLimit = cols gs := by
    rw [hcolumns]
    exact Nat.min_self _
  have hvalid := @create_isValid _ r g.text columnBegin r.columnCount (by rw [hx]; exact lt_of_lt_of_eq hlt (Nat.min_self _).symm) g.length_pos
  have hreach : x ≤ textEnd gs (charactersFront gs x g) x (cols gs) g.text := by
    have hfront : x ≤ cols (charactersFront gs x g) := by
      unfold charactersFront
      split
      · rw [cols_lead]
      · rw [cols_append, cols_lead]
        exact Nat.le_add_right _ _
    unfold textEnd
    split
    · exact hfront
    · rw [hcolumns]
      exact hlt.le
  obtain ⟨row, hfinish, hholds, hrowCount⟩ := laidOut_finish hl hr hchBeg hdirty hleading hcolLimit
    (le_of_eq hcolumns) (.inl hreach) hshort
  refine ⟨row, ?_, hholds, hrowCount⟩
  unfold Row.replaceCharacters
  dsimp only
  rw [hvalid, hfinish]
  rfl

end Rows

end VT7.Buffer
