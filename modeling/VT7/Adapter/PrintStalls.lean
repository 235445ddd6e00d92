import VT7.Adapter.PrintedText
import VT7.Buffer.Stalls

/-!
# Text that is never written

On a page that is one column wide, half of a double-width row has no column.  Where the cursor is below the margins and
such a row is the last one, every wrap leads back to it: the loop of `_WriteToBuffer` goes on for ever (`run_stalls`).
`writeToBuffer_ends_iff` says that there is no other page on which it does.
-/

namespace VT7.Buffer

open VT7.Adapter
open VT7.Lib.Cells

variable {α : Type} {cwd : Clustering}

/-! ### Rows of one column -/

section OneColumn

variable {r : Row α} {gs : List Glyph} {text : List UInt16} {columnBegin columnLimit : ℕ}

/-- One letter of an ASCII text goes into one column. -/
lemma asciiLength_one (htext : text ≠ []) (hascii : ∀ c ∈ text, c < 0x80) : asciiLength text 1 = 1 := by
  obtain ⟨c, rest, rfl⟩ := List.exists_cons_of_ne_nil htext
  have hc : c < 0x80 := hascii c (List.mem_cons_self)
  unfold asciiLength
  rw [List.take_succ_cons, List.take_zero]
  simp [hc]

lemma textFront_one (cwd : Clustering) (gs : List Glyph) (htext : text ≠ []) (hascii : ∀ c ∈ text, c < 0x80) :
    cols (textFront cwd gs 0 1 text) = 1 ∧ units (textFront cwd gs 0 1 text) = 1 := by
  rw [textFront_whole (asciiLength_one htext hascii), lead_zero]
  obtain ⟨c, rest, rfl⟩ := List.exists_cons_of_ne_nil htext
  exact ⟨rfl, rfl⟩

/-- A text for which there is a column leaves one letter. -/
lemma written_one (cwd : Clustering) (hcols : cols gs = 1) (htext : text ≠ []) (hascii : ∀ c ∈ text, c < 0x80) :
    units (written cwd gs 0 1 text) = 1 ∧ writtenEnd cwd gs 0 1 text = 1 := by
  obtain ⟨g, rfl, hwidth⟩ := eq_singleton_of_cols hcols
  obtain ⟨hcols', hunits⟩ := textFront_one cwd [g] htext hascii
  have hend : textEnd [g] (textFront cwd [g] 0 1 text) 0 1 text = 1 := by
    unfold textEnd
    rw [hcols', ite_self]
  have hbeyond : beyond 1 [g] = [] := by
    rw [beyond, if_neg Nat.one_ne_zero, hwidth]
    rfl
  unfold written writtenEnd textWritten closed
  rw [if_pos ⟨Nat.one_pos, htext⟩, if_pos ⟨Nat.one_pos, htext⟩, hend, hbeyond, units_append, hunits, hcols', hcols]
  exact ⟨rfl, rfl⟩

/-- **A write of ASCII into a row of one column** takes one letter at most, and reaches the limit. -/
lemma Row.write_one (cwd : Clustering) (attributes : α) (columnBegin columnLimit : ℕ) (hr : r.Full gs 1)
    (htext : text ≠ []) (hascii : ∀ c ∈ text, c < 0x80) : ∃ r' gs' result,
      r.write cwd attributes text columnBegin columnLimit = .ok (r', result) ∧ r'.Full gs' 1 ∧
        text.length ≤ result.text.length + 1 ∧ (columnLimit = 0 → result.text = text) ∧
        min columnLimit 1 ≤ result.columnEnd := by
  have hone : ∃ x limit, min columnBegin 1 = x ∧ min columnLimit 1 = limit ∧
      units (written cwd gs x limit text) < 0x8000 ∧ x ≤ writtenEnd cwd gs x limit text ∧
      limit ≤ writtenEnd cwd gs x limit text ∧ (x < limit → units (written cwd gs x limit text) = 1) := by
    refine ⟨_, _, rfl, rfl, ?_⟩
    by_cases hlt : min columnBegin 1 < min columnLimit 1
    · obtain ⟨hunits, hend⟩ := written_one cwd hr.cols_eq htext hascii
      rw [show min columnBegin 1 = 0 by omega, show min columnLimit 1 = 1 by omega, hunits, hend]
      exact ⟨by decide, Nat.zero_le 1, Nat.le_refl 1, fun _ => rfl⟩
    · unfold written writtenEnd
      rw [if_neg (mt And.left hlt), if_neg (mt And.left hlt)]
      exact ⟨hr.holds.short, Nat.le_refl _, Nat.not_lt.mp hlt, fun h => absurd h hlt⟩
  obtain ⟨x, limit, hx, hlimit, hshort, hend, hreaches, hunits⟩ := hone
  obtain ⟨r', result, hok, hfull, hcolumnEnd, -, hnone, ⟨taken, hrest, hfront⟩, -⟩ :=
    hr.write cwd attributes hx hlimit (by decide) hshort hend
  refine ⟨r', _, result, hok, hfull, ?_, fun hzero => hnone (by omega), hlimit.trans_le (hcolumnEnd ▸ hreaches)⟩
  by_cases hlt : x < limit
  · have htaken : taken.length ≤ 1 := by
      by_contra hmany
      obtain ⟨front, hprefix, -, hlead⟩ := hfront (by rintro rfl; exact hmany (Nat.zero_le 1))
      have hle := units_le_of_isPrefix hprefix
      have hlength := congrArg List.length hlead
      rw [List.length_append, length_textOf, length_textOf] at hlength
      rw [hunits hlt] at hle
      omega
    have hlength := congrArg List.length hrest
    rw [List.length_append] at hlength
    omega
  · rw [hnone (Nat.not_lt.mp hlt)]
    exact Nat.le_succ _

end OneColumn

namespace TextBuffer

section OneColumn

variable {b : TextBuffer α} {row : ℤ} {attributes : α} {text : List UInt16} {columnBegin columnLimit : ℤ}

/-- **A write of ASCII into a buffer of one column** takes one letter at most. -/
lemma replace_one (cwd : Clustering) (attributes : α) (hc : Content b) (hpos : 0 < b.height) (hwidth : b.width = 1)
    (htext : text ≠ []) (hascii : ∀ c ∈ text, c < 0x80) : ∃ b' state,
      b.replace cwd row attributes text columnBegin columnLimit = .ok (b', state) ∧ Content b' ∧
        text.length ≤ state.text.length + 1 ∧ (columnLimit.toNat = 0 → state.text = text) ∧
        min columnLimit.toNat 1 ≤ state.columnEnd := by
  obtain ⟨gs, hr⟩ := hc.rows _ (index_lt hpos row)
  obtain ⟨r, gs', result, hwritten, hfull, hlength, hnone, hreaches⟩ :=
    Row.write_one cwd attributes columnBegin.toNat columnLimit.toNat (hwidth ▸ full_row hc hpos hr) htext hascii
  exact ⟨_, result, bind_of_ok hwritten, hc.setRowByOffset hpos row
    ⟨gs', hfull.holds, hfull.columns.trans hwidth.symm, hfull.attributes.trans hwidth.symm⟩, hlength, hnone, hreaches⟩

lemma insert_one (cwd : Clustering) (attributes : α) (hc : Content b) (hpos : 0 < b.height) (hwidth : b.width = 1)
    (htext : text ≠ []) (hascii : ∀ c ∈ text, c < 0x80) : ∃ b' state,
      b.insert cwd row attributes text columnBegin columnLimit = .ok (b', state) ∧ Content b' ∧
        text.length ≤ state.text.length + 1 ∧ (columnLimit.toNat = 0 → state.text = text) ∧
        min columnLimit.toNat 1 ≤ state.columnEnd := by
  obtain ⟨gs, hr⟩ := hc.rows _ (index_lt hpos row)
  have hscratch : (b.getScratchpadRow b.initialAttributes).Holds (blanks b.width) :=
    create_holds (by rw [hwidth]; decide) b.initialAttributes
  obtain ⟨scratch, hcopied, -⟩ := copyFrom_one hscratch hwidth hr
  obtain ⟨r, gs', result, hwritten, hfull, hlength, hnone, hreaches⟩ :=
    Row.write_one cwd attributes columnBegin.toNat columnLimit.toNat (hwidth ▸ full_row hc hpos hr) htext hascii
  -- what was there before has no column left
  obtain ⟨result', hrestored, -, hend⟩ := Row.replaceText_invalid (r := r) cwd
    { text := scratch.getTextBetween columnBegin.toNat columnLimit.toNat
      columnBegin := result.columnEnd
      columnLimit := columnLimit.toNat } (by
      have hcount := hfull.columns
      show ¬(min result.columnEnd r.columnCount < min columnLimit.toNat r.columnCount ∧ _)
      omega)
  have hattributes : restoreAttributes r scratch columnBegin result.columnEnd result'.columnEnd = .ok r := by
    have hle : result'.columnEnd ≤ result.columnEnd := hend ▸ Nat.min_le_left _ _
    unfold restoreAttributes
    dsimp only
    rw [if_neg (by omega)]
  exact ⟨_, result, (bind_of_ok hcopied).trans ((bind_of_ok hwritten).trans
    ((bind_of_ok hrestored).trans (bind_of_ok hattributes))), hc.setRowByOffset hpos row
    ⟨gs', hfull.holds, hfull.columns.trans hwidth.symm, hfull.attributes.trans hwidth.symm⟩, hlength, hnone, hreaches⟩

end OneColumn

end TextBuffer

end VT7.Buffer

namespace VT7.Adapter

open VT7.Buffer
open VT7.Buffer.TextBuffer

variable {α : Type} {size : PageSize}

namespace PrintDispatch

variable [DecidableEq α] {d : PrintDispatch α size}

omit [DecidableEq α] in
lemma Stuck.lineWidth (h : d.OnPage) (hstuck : d.Stuck) (hgo : d.rowsToGo = 0) :
    d.text.getLineWidth d.position.y = 0 := by
  obtain ⟨hone, hbelow, hlast⟩ := hstuck
  have hinside := h.inside
  have hend := h.last
  have hpos := size.height_pos
  have hbottom : d.position.y = (d.top + size.height - 1 : ℕ) := by
    unfold rowsToGo at hgo
    rw [if_neg (by omega)] at hgo
    omega
  rw [hbottom, getLineWidth_eq d.text (by omega), if_neg hlast, h.width, hone]
  rfl

/-- **A line feed below the margins** goes down, and on the last row it stays. -/
lemma Stuck.feed (cwd : Clustering) (eraseAttributes : α) (h : d.OnPage) (hcontent : Content d.text) (hstuck : d.Stuck) :
    ∃ d' : PrintDispatch α size, d.doLineFeed cwd eraseAttributes true true = .ok (d', false) ∧ Content d'.text ∧
      d'.Stuck ∧ (d'.rowsToGo + 1 = d.rowsToGo ∨ d.rowsToGo = 0 ∧ d'.rowsToGo = 0 ∧ d'.position.x ≠ 0) := by
  obtain ⟨hone, hbelow, hlast⟩ := hstuck
  have hmoves : d.Moves (d.feedColumn true) := .inl hbelow.ne'
  have hfed : ∃ d' : PrintDispatch α size, d.doLineFeed cwd eraseAttributes true true = .ok (d', false) ∧
      Content d'.text := by
    rw [doLineFeed_eq h.width]
    dsimp only
    rw [if_pos (by exact hmoves)]
    exact ⟨_, rfl, content_withCursor d ((SameUpToWrap.setWrapForced d.text d.position.y true).content hcontent) _⟩
  obtain ⟨d', hfeed, hcontent'⟩ := hfed
  have hfed := doLineFeed_fed h hfeed
  obtain ⟨-, hsame, hy, hx⟩ := hfed.moves hmoves
  have htop : d'.top = d.top := hfed.top
  have hinside := h.inside
  have hpos := size.height_pos
  have hend := h.last
  have hcolumn := feedColumn_cases d
  have hnonneg := d.box.left_nonneg
  have hle := d.box.left_le
  have hlt := d.box.right_lt
  have hstuck' : d'.Stuck := by
    refine ⟨hone, ?_, ?_⟩
    · rw [hfed.box, htop, hy]
      omega
    · rw [htop, hsame _ (by omega)]
      exact hlast
  refine ⟨d', hfeed, hcontent', hstuck', ?_⟩
  have hgo : d.rowsToGo = (d.top + size.height - 1 - d.position.y).toNat := by
    unfold rowsToGo
    rw [if_neg (by omega)]
  have hgo' : d'.rowsToGo = (d.top + size.height - 1 - d'.position.y).toNat := by
    unfold rowsToGo
    rw [hfed.box, htop, if_neg (by omega)]
  by_cases hlow : d.position.y < d.top + size.height - 1
  · left
    omega
  · right
    have hline := Stuck.lineWidth hfed.page hstuck' (by omega)
    exact ⟨by omega, by omega, by omega⟩

end PrintDispatch

namespace PrintLoop

variable [DecidableEq α] {settings : PrintSettings α} {cwd : Clustering} {s : PrintLoop α size}

/-- A loop that goes on: there is text for all rows down to the last one, and more. -/
structure Stalling (settings : PrintSettings α) (s : PrintLoop α size) : Prop where
  inv : s.Inv
  content : Content s.dispatch.text
  stuck : s.dispatch.Stuck
  ascii : ∀ c ∈ s.text, c < 0x80
  enough : 2 * s.dispatch.rowsToGo + (if s.Waits settings then 1 else 2) ≤ s.text.length

/-- The same, behind the delayed wrap. -/
structure Stalled (s : PrintLoop α size) : Prop where
  inv : s.Inv
  content : Content s.dispatch.text
  stuck : s.dispatch.Stuck
  ascii : ∀ c ∈ s.text, c < 0x80
  enough : 2 * s.dispatch.rowsToGo + 2 ≤ s.text.length ∨
    s.dispatch.rowsToGo = 0 ∧ s.dispatch.position.x ≠ 0 ∧ 1 ≤ s.text.length

lemma wrapLine_of_feed {d : PrintDispatch α size}
    (hfeed : s.dispatch.doLineFeed cwd settings.eraseAttributes true true = .ok (d, false)) :
    ∃ s' : PrintLoop α size, s.wrapLine settings cwd = .ok s' ∧ s'.dispatch = d ∧ s'.text = s.text :=
  ⟨_, bind_of_ok hfeed, rfl, rfl⟩

lemma Stalling.wrapDelayed (cwd : Clustering) (h : s.Stalling settings) (hwrap : settings.wrapAtEOL = true) :
    ∃ s', s.wrapDelayed settings cwd = .ok s' ∧ s'.Stalled := by
  obtain ⟨hs, hcontent, hstuck, hascii, henough⟩ := h
  cases hdelayed : s.dispatch.delayedAt with
  | none =>
    have hwaits : ¬s.Waits settings := by
      rintro ⟨-, hat⟩
      rw [hdelayed] at hat
      cases hat
    rw [if_neg hwaits] at henough
    refine ⟨s, ?_, hs, hcontent, hstuck, hascii, .inl henough⟩
    unfold PrintLoop.wrapDelayed
    rw [hdelayed]
  | some position =>
    have hs₁ := hs.resetDelay
    have hunfold : s.wrapDelayed settings cwd = if position = s.dispatch.position then
        ({ s with dispatch := { s.dispatch with delayedAt := none } } : PrintLoop α size).wrapLine settings cwd
        else .ok { s with dispatch := { s.dispatch with delayedAt := none } } := by
      unfold PrintLoop.wrapDelayed
      rw [hdelayed]
      dsimp only
      rw [if_pos hwrap]
      rfl
    rw [hunfold]
    by_cases hat : position = s.dispatch.position
    · rw [if_pos hat]
      have hwaits : s.Waits settings := ⟨hwrap, hat ▸ hdelayed⟩
      rw [if_pos hwaits] at henough
      obtain ⟨d, hfeed, hcontent', hstuck', hgo⟩ := PrintDispatch.Stuck.feed cwd settings.eraseAttributes hs₁.page
        hcontent hstuck
      obtain ⟨s', hwrapped, rfl, htext⟩ := wrapLine_of_feed hfeed
      refine ⟨s', hwrapped, (wrapLine_spec hs₁ hwrapped).1, hcontent', hstuck', htext ▸ hascii, ?_⟩
      rw [htext]
      change _ + 1 = s.dispatch.rowsToGo ∨ s.dispatch.rowsToGo = 0 ∧ _ at hgo
      dsimp only
      omega
    · rw [if_neg hat]
      have hwaits : ¬s.Waits settings := fun hwaits => hat (Option.some.inj (hdelayed.symm.trans hwaits.2))
      rw [if_neg hwaits] at henough
      exact ⟨_, rfl, hs₁, hcontent, hstuck, hascii, .inl henough⟩

/-- The letter at the front of an ASCII text is a cluster. -/
lemma next_one (hm : cwd.MeasuresAscii) {text : List UInt16} (htext : text ≠ []) (hascii : ∀ c ∈ text, c < 0x80) :
    (cwd.next text 0 0).1 = 1 := by
  have hat : ∀ i, i < text.length → AsciiAt text i := fun i hi =>
    ⟨text[i], List.getElem?_eq_getElem hi, hascii _ (List.getElem_mem hi)⟩
  have hlength := List.length_pos_iff.mpr htext
  rw [hm.next_ascii text 0 0 (hat 0 hlength) (by
    by_cases hone : 0 + 1 = text.length
    · exact .inl hone
    · exact .inr (hat 1 (by omega)))]

omit [DecidableEq α] in
lemma Stalled.text_ne (h : s.Stalled) : s.text ≠ [] := by
  have henough := h.enough
  rintro hnil
  rw [hnil, List.length_nil] at henough
  omega

omit [DecidableEq α] in
/-- The write takes one letter at most, and none where there is no column. -/
lemma Stalled.write (settings : PrintSettings α) (cwd : Clustering) (h : s.Stalled) : ∃ text state,
    s.write settings cwd = .ok (text, state) ∧ Content text ∧ s.text.length ≤ state.text.length + 1 ∧
      (s.columnLimit.toNat = 0 → state.text = s.text) ∧ min s.columnLimit.toNat 1 ≤ state.columnEnd := by
  have hpage := h.inv.page
  have hpos := Nat.zero_lt_of_lt hpage.firstRow
  have hone : s.dispatch.text.width = 1 := hpage.width.trans h.stuck.1
  unfold PrintLoop.write
  dsimp only
  split
  · exact insert_one cwd settings.attributes h.content hpos hone h.text_ne h.ascii
  · exact replace_one cwd settings.attributes h.content hpos hone h.text_ne h.ascii

omit [DecidableEq α] in
lemma Stalled.advance (hm : cwd.MeasuresAscii) (h : s.Stalled) (hwrap : settings.wrapAtEOL = true)
    {text : TextBuffer α} {state : RowWriteResult} (hwrote : Wrote s.dispatch.text text) (hcontent : Content text)
    (hrest : state.text <:+ s.text) (hlength : s.text.length ≤ state.text.length + 1)
    (hnone : s.columnLimit.toNat = 0 → state.text = s.text) (hreaches : min s.columnLimit.toNat 1 ≤ state.columnEnd) :
    (s.advance settings cwd text state).after.Stalling settings := by
  have htext := h.text_ne
  obtain ⟨hs, -, hstuck, hascii, henough⟩ := h
  obtain ⟨hs', hstuck', hgo⟩ := advance_inv settings cwd hs hwrote state
  have hwidth : s.columnLimit ≤ 1 := by
    have hline := hs.page.lineWidth
    have hlimit := hs.limit_le
    have hone := hstuck.1
    omega
  have hnonneg := hs.nonneg
  have hwraps : s.columnLimit ≤ state.columnEnd := by omega
  have hwaits : (s.advance settings cwd text state).after.Waits settings := by
    refine ⟨hwrap, ?_⟩
    unfold PrintLoop.advance
    dsimp only
    rw [if_pos (by rw [decide_eq_true hwraps, hwrap]; rfl)]
    rfl
  have hlast : s.dispatch.rowsToGo = 0 → state.text = s.text := fun hgo => hnone (by
    have hline := PrintDispatch.Stuck.lineWidth hs.page hstuck hgo
    have hlimit := hs.limit_le
    omega)
  have hdispatch : Content (s.advance settings cwd text state).after.dispatch.text := by
    obtain ⟨x, delayedAt, hadvance⟩ := @advance_dispatch _ _ settings cwd s text state
    rw [hadvance]
    exact PrintDispatch.content_withCursor s.dispatch hcontent _
  have hleft : (s.advance settings cwd text state).after.text <:+ s.text ∧
      2 * s.dispatch.rowsToGo + 1 ≤ (s.advance settings cwd text state).after.text.length := by
    rw [advance_rest]
    by_cases hdiscards : (s.advance settings cwd text state).discards = true
    · rw [if_pos hdiscards]
      rw [advance_discards, Bool.and_eq_true, Bool.and_eq_true, decide_eq_true_eq, decide_eq_true_eq, hwrap,
        Bool.not_true, Bool.or_false, decide_eq_true_eq] at hdiscards
      rw [hdiscards.1.2, next_one hm htext hascii, List.length_drop]
      refine ⟨List.drop_suffix 1 s.text, ?_⟩
      have hzero := hdiscards.2
      omega
    · rw [if_neg hdiscards]
      refine ⟨hrest, ?_⟩
      rcases henough with hmany | ⟨hgo, -, hone⟩
      · omega
      · rw [hlast hgo, hgo]
        exact hone
  refine ⟨hs', hdispatch, hstuck'.mpr hstuck, fun c hc => hascii c (hleft.1.subset hc), ?_⟩
  rw [hgo, if_pos hwaits]
  exact hleft.2

/-- **The loop goes on** for ever. -/
theorem run_stalls (hm : cwd.MeasuresAscii) (hwrap : settings.wrapAtEOL = true) (h : s.Stalling settings) (fuel : ℕ) :
    s.run settings cwd fuel = none := by
  induction fuel generalizing s with
  | zero => rfl
  | succ fuel ih =>
    have htext : s.text.isEmpty = false := by
      have henough := h.enough
      rw [List.isEmpty_eq_false_iff]
      rintro hnil
      rw [hnil, List.length_nil] at henough
      split at henough <;> omega
    obtain ⟨s₁, hwrapped, hstalled⟩ := h.wrapDelayed cwd hwrap
    have hiterate : ∃ step, s.iterate settings cwd = .ok step ∧ step.after.Stalling settings := by
      obtain ⟨text, state, hwritten, hcontent, hlength, hnone, hreaches⟩ := hstalled.write settings cwd
      obtain ⟨hwrote, htakes⟩ := write_takes hm (by rw [hstalled.stuck.1]; decide) hstalled.inv.page hwritten
      refine ⟨_, (bind_of_ok hwrapped).trans (bind_of_ok (b := (text, state)) ?_),
        hstalled.advance hm hwrap hwrote hcontent htakes.rest hlength hnone hreaches⟩
      rw [hwritten]
      rfl
    obtain ⟨step, hiterate, hstalling⟩ := hiterate
    unfold run
    rw [htext, hiterate]
    dsimp only
    rw [ih hstalling]
    rfl

omit [DecidableEq α] in
lemma start_stalling {d : PrintDispatch α size} (h : d.OnPage) (hcontent : Content d.text) (hstuck : d.Stuck)
    {string : List UInt16} (hascii : ∀ c ∈ string, c < 0x80) (hlong : 2 * d.rowsToGo + 2 ≤ string.length) :
    (start d string).Stalling settings := by
  obtain ⟨hs, htext, hbox, hbuffer, htop⟩ := start_inv h string
  have hposition : (start d string).dispatch.position = d.position := by
    unfold PrintDispatch.position
    rw [hbuffer]
  refine ⟨hs, hbuffer ▸ hcontent, ?_, htext ▸ hascii, ?_⟩
  · unfold PrintDispatch.Stuck
    rw [hbox, hbuffer, htop, hposition]
    exact hstuck
  · have hgo : (start d string).dispatch.rowsToGo = d.rowsToGo := by
      unfold PrintDispatch.rowsToGo
      rw [hbox, htop, hposition]
    rw [hgo, htext]
    split <;> omega

end PrintLoop

/-- `_WriteToBuffer` ends, and goes through the string in order.  It throws a cluster away only where it does not fit, and
it leaves nothing of the string, unless an exception ends it.  Where every iteration has room nothing is thrown, and each
writes all that it takes and does not throw away. -/
def WritesInOrder [DecidableEq α] (settings : PrintSettings α) (cwd : Clustering) (d : PrintDispatch α size)
    (string : List UInt16) : Prop :=
  ∃ fuel log last error, (PrintLoop.start d string).run settings cwd fuel = some (log, last, error) ∧
    Follows settings cwd (PrintLoop.start d string) log last ∧ (∀ step ∈ log, step.Sound cwd settings.wrapAtEOL) ∧
    (error = none → last.text = []) ∧ error ≠ some (.buffer .unfinished) ∧
    ((∀ s ∈ PrintLoop.start d string :: log.map PrintStep.after, s.HasRoom settings cwd) →
      error = none ∧ ∀ step ∈ log, step.Writes cwd settings.insertReplace)

/-- **When writing ends**, for all strings. -/
theorem writeToBuffer_ends_iff [DecidableEq α] {settings : PrintSettings α} {cwd : Clustering}
    {d : PrintDispatch α size} (hm : cwd.MeasuresAscii) (hwidth : size.width < 0x8000) (h : d.OnPage)
    (hcontent : Content d.text) :
    (∀ string, WritesInOrder settings cwd d string) ↔ ¬(settings.wrapAtEOL = true ∧ d.Stuck) := by
  constructor
  · rintro hwrites ⟨hwrap, hstuck⟩
    obtain ⟨fuel, log, last, error, hrun, -⟩ := hwrites (List.replicate (2 * d.rowsToGo + 2) 0x61)
    have hascii : ∀ c ∈ List.replicate (2 * d.rowsToGo + 2) (0x61 : UInt16), c < 0x80 := by
      intro c hc
      rw [List.eq_of_mem_replicate hc]
      decide
    have hstalling := @PrintLoop.start_stalling _ _ settings _ h hcontent hstuck _ hascii List.length_replicate.ge
    rw [PrintLoop.run_stalls hm hwrap hstalling] at hrun
    cases hrun
  · intro hfree string
    obtain ⟨hs, htext, hbox, hbuffer, htop⟩ := PrintLoop.start_inv h string
    have hfree' : settings.wrapAtEOL = true → ¬(PrintLoop.start d string).dispatch.Stuck := by
      intro hwrap hstuck
      refine hfree ⟨hwrap, ?_⟩
      unfold PrintDispatch.Stuck PrintDispatch.position at hstuck
      rw [hbox, hbuffer, htop] at hstuck
      exact hstuck
    obtain ⟨log, last, error, hrun, hfollows, hsound, hall, hfinished⟩ :=
      PrintLoop.run_ends hm hwidth hs hfree' (Nat.lt_succ_self _)
    exact ⟨_, log, last, error, hrun, hfollows, hsound, hall, hfinished,
      PrintLoop.run_writes hm hwidth hs hfree' (hbuffer ▸ hcontent) hrun⟩

/-! ### One column -/

/-- A page of three rows and one column.  The margins have the first two rows, the last one is double-width, which has
put the cursor before its first column. -/
def oneColumn : PrintDispatch Unit ⟨1, 3, Nat.one_pos, Nat.zero_lt_succ 2⟩ where
  text :=
    { TextBuffer.create 1 3 () with
      rows := fun p => if p = 2 then (Row.create 1 ()).setLineRendition .doubleWidth else Row.create 1 ()
      cursorX := -1
      cursorY := 2 }
  top := 0
  scrollMargins := ⟨0, 0, 0, 1⟩
  delayedAt := none

lemma oneColumn_onPage : oneColumn.OnPage where
  width := rfl
  inside := by decide
  firstRow := by decide
  uniform := by
    intro y hy
    show (if (0 + y) % 3 = 2 then (Row.create 1 ()).setLineRendition .doubleWidth else Row.create 1 ()).columnCount = 1
    split <;> rfl
  first := by decide
  last := by decide

lemma oneColumn_content : Content oneColumn.text := .of_rows fun y _ => by
  have hblank : (Row.create 1 ()).Holds (blanks 1) := create_holds (by decide) ()
  have hrow : oneColumn.text.getRow y = (Row.create 1 ()).setLineRendition .doubleWidth ∨
      oneColumn.text.getRow y = Row.create 1 () := (Decidable.em ((0 + y) % 3 = 2)).imp (if_pos ·) (if_neg ·)
  rcases hrow with hrow | hrow
  · rw [hrow]
    exact ⟨_, hblank.congr rfl rfl rfl, rfl, rfl⟩
  · rw [hrow]
    exact ⟨_, hblank, rfl, rfl⟩

/-- Without autowrap the writing of two letters ends there. -/
theorem writeToBuffer_ends_iff_oneColumn : WritesInOrder ⟨false, false, (), ()⟩ combining oneColumn [0x61, 0x62] :=
  (writeToBuffer_ends_iff combining_measuresAscii (by decide) oneColumn_onPage oneColumn_content).mpr
    (fun hwraps => Bool.false_ne_true hwraps.1) [0x61, 0x62]

/-- With autowrap the loop does not end for the same two letters. -/
theorem writeToBuffer_stalls : ¬WritesInOrder ⟨true, false, (), ()⟩ combining oneColumn [0x61, 0x62] := by
  rintro ⟨fuel, log, last, error, hrun, -⟩
  have hstuck : oneColumn.Stuck := ⟨rfl, by decide, fun h => (nomatch h)⟩
  have hascii : ∀ c ∈ ([0x61, 0x62] : List UInt16), c < 0x80 := by
    simp only [List.mem_cons, List.not_mem_nil, or_false, forall_eq_or_imp, forall_eq]
    exact ⟨by decide, by decide⟩
  have hstalling : (PrintLoop.start oneColumn [0x61, 0x62]).Stalling ⟨true, false, (), ()⟩ :=
    PrintLoop.start_stalling oneColumn_onPage oneColumn_content hstuck hascii (by decide)
  rw [PrintLoop.run_stalls combining_measuresAscii rfl hstalling] at hrun
  cases hrun

end VT7.Adapter
