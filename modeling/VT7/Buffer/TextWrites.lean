import VT7.Buffer.ClusterPath
import VT7.Buffer.Renditions
import VT7.Buffer.Returns

/-!
# Writing text into the buffer

`Replace` and `Insert` of a `TextBuffer` write a text into a row with the current attributes.  Nothing is asked of the
row here: what a write takes of the text (`Row.replaceText_takes`) can be read off the helper.
-/

namespace VT7.Buffer

variable {α : Type}

/-- `GetText` for some columns. -/
def Row.getTextBetween (r : Row α) (columnBegin columnEnd : ℕ) : List UInt16 :=
  let columns := r.getReadableColumnCount
  let colBeg := min columnBegin columns
  let colEnd := max colBeg (min columnEnd columns)
  let chBeg := r.uncheckedCharOffset colBeg
  let chEnd := r.uncheckedCharOffset colEnd
  (r.chars.drop chBeg).take (chEnd - chBeg)

/-- `ReplaceAttributes`, where the range may end before it begins. -/
def Row.tryReplaceAttributes (r : Row α) (beginIndex endIndex : ℕ) (newAttr : α) : Except BufferError (Row α) :=
  if r.clampedColumnInclusive endIndex < r.clampedColumnInclusive beginIndex then .error .outOfRange
  else .ok (r.replaceAttributes beginIndex endIndex newAttr)

/-- What `Replace` and `Insert` begin with: `ReplaceText` and `ReplaceAttributes`. -/
def Row.write (r : Row α) (cwd : Clustering) (attributes : α) (text : List UInt16) (columnBegin columnLimit : ℕ) :
    Except BufferError (Row α × RowWriteResult) := do
  let (r, state) ← r.replaceText cwd { text, columnBegin, columnLimit }
  let r ← r.tryReplaceAttributes columnBegin state.columnEnd attributes
  .ok (r, state)

namespace TextBuffer

variable (b : TextBuffer α) (cwd : Clustering)

/-- `Replace`.  Columns below 0 are clamped. -/
def replace (row : ℤ) (attributes : α) (text : List UInt16) (columnBegin columnLimit : ℤ) :
    Except BufferError (TextBuffer α × RowWriteResult) := do
  let (r, state) ← (b.getRowByOffset row).write cwd attributes text columnBegin.toNat columnLimit.toNat
  .ok (b.setRowByOffset row r, state)

/-- The attributes behind an `Insert`. -/
def restoreAttributes (r scratch : Row α) (columnBegin : ℤ) (restoreBegin restoreEnd : ℕ) :
    Except BufferError (Row α) :=
  let copyAmount := restoreEnd - restoreBegin
  if 0 < copyAmount then
    if columnBegin < 0 then .error .narrowing
    else .ok
      { r with
        attr := r.attr.take restoreBegin ++
          ((scratch.attr.drop columnBegin.toNat).take copyAmount ++ r.attr.drop restoreEnd) }
  else .ok r

/-- `Insert`. -/
def insert (row : ℤ) (attributes : α) (text : List UInt16) (columnBegin columnLimit : ℤ) :
    Except BufferError (TextBuffer α × RowWriteResult) := do
  let r := b.getRowByOffset row
  let scratch ← (b.getScratchpadRow b.initialAttributes).copyFrom r
  let (r, state) ← r.write cwd attributes text columnBegin.toNat columnLimit.toNat
  let restoreText := scratch.getTextBetween columnBegin.toNat columnLimit.toNat
  let (r, restoreState) ← r.replaceText cwd
    { text := restoreText, columnBegin := state.columnEnd, columnLimit := columnLimit.toNat }
  let r ← restoreAttributes r scratch columnBegin state.columnEnd restoreState.columnEnd
  .ok (b.setRowByOffset row r, state)

end TextBuffer

/-! ### What a write takes -/

namespace WriteHelper

section Taking

variable {h : WriteHelper α} {cwd : Clustering} {start it iterations : ℕ}

/-- What the layout of a text leaves of the helper and of the row. -/
structure Lays (h h' : WriteHelper α) : Prop where
  row : h'.row = { h.row with charOffsets := h'.row.charOffsets }
  chars : h'.chars = h.chars
  colBeg : h'.colBeg = h.colBeg
  colLimit : h'.colLimit = h.colLimit

lemma Lays.of {t h' : WriteHelper α} (hl : Lays t h') (hrow : t.row = { h.row with charOffsets := t.row.charOffsets })
    (hchars : t.chars = h.chars) (hcolBeg : t.colBeg = h.colBeg) (hcolLimit : t.colLimit = h.colLimit) : Lays h h' := by
  refine ⟨?_, hl.chars.trans hchars, hl.colBeg.trans hcolBeg, hl.colLimit.trans hcolLimit⟩
  rw [hl.row, hrow]

lemma replaceClusters_lays (h : WriteHelper α) (it : ℕ) : Lays h (h.replaceClusters cwd start iterations it) := by
  induction iterations generalizing h it with
  | zero => exact ⟨rfl, rfl, rfl, rfl⟩
  | succ iterations ih =>
    unfold replaceClusters
    dsimp only
    split
    · split
      · exact ⟨rfl, rfl, rfl, rfl⟩
      · exact (ih _ _).of rfl rfl rfl rfl
    · exact ⟨rfl, rfl, rfl, rfl⟩

lemma replaceTextUnicode_lays (h : WriteHelper α) (it : ℕ) : Lays h (h.replaceTextUnicode cwd it) := by
  unfold replaceTextUnicode
  dsimp only
  split
  · split
    · split
      · exact ⟨rfl, rfl, rfl, rfl⟩
      · exact (replaceClusters_lays _ _).of rfl rfl rfl rfl
    · exact replaceClusters_lays _ _
  · exact (replaceClusters_lays _ _).of rfl rfl rfl rfl

lemma replaceText_lays (h : WriteHelper α) : Lays h (h.replaceText cwd) := by
  unfold replaceText
  dsimp only
  split
  · exact (replaceTextUnicode_lays _ _).of rfl rfl rfl rfl
  · exact ⟨rfl, rfl, rfl, rfl⟩

/-- The loop goes forward. -/
lemma le_replaceClusters (h : WriteHelper α) (it : ℕ) :
    it ≤ (h.replaceClusters cwd start iterations it).charsConsumed := by
  induction iterations generalizing h it with
  | zero => exact Nat.le_refl it
  | succ iterations ih =>
    unfold replaceClusters
    dsimp only
    split
    · split
      · exact Nat.le_refl it
      · exact (Nat.le_add_right _ _).trans (ih _ _)
    · exact Nat.le_refl it

/-- The loop takes its first cluster, if there is room for it. -/
lemma replaceClusters_takes (hmore : it < h.chars.length) (hiterations : 0 < iterations)
    (hstay : (h.replaceClusters cwd start iterations it).charsConsumed ≤ it) :
    h.colLimit < u16 (h.colEnd + max 1 (cwd.next h.chars start it).2) := by
  obtain ⟨n, rfl⟩ := Nat.exists_eq_succ_of_ne_zero (Nat.ne_of_gt hiterations)
  have hpos := cwd.next_pos h.chars start it hmore
  unfold replaceClusters at hstay
  dsimp only at hstay
  rw [if_pos hmore] at hstay
  split at hstay
  · assumption
  · have hle := @le_replaceClusters _ cwd start n (h.put (h.chBeg + it)
      (u16 (h.colEnd + max 1 (cwd.next h.chars start it).2))) (it + (cwd.next h.chars start it).1)
    omega

lemma stepBack_le (offsets : List ℕ) (column : ℕ) : stepBack offsets column ≤ column := by
  induction column with
  | zero => exact Nat.le_refl 0
  | succ column ih =>
    unfold stepBack
    split
    · exact ih.trans (Nat.le_succ column)
    · exact Nat.le_refl _

lemma next_room (hroom : h.colLimit < 0x8000) {col width : ℕ} (hcol : col < h.colLimit) (hwidth : width ≤ 2)
    (hover : h.colLimit < u16 (col + max 1 width)) : h.colLimit - col < max 1 width := by
  unfold u16 at hover
  omega

/-- **A write takes nothing** only where there is no room for the first cluster. -/
lemma replaceText_takes (hm : cwd.MeasuresAscii) (hbegin : h.colEnd = h.colBeg) (hvalid : h.colBeg < h.colLimit)
    (hchars : h.chars ≠ []) (hlimit : h.colLimit < 0x8000)
    (hfirst : h.colBeg = 0 → h.chBeg = h.row.uncheckedCharOffset 0)
    (hstay : (h.replaceText cwd).charsConsumed = 0) :
    h.colLimit - h.colBeg < max 1 (cwd.next h.chars 0 0).2 := by
  have hlength : 0 < h.chars.length := List.length_pos_iff.mpr hchars
  have hwidth := cwd.next_width h.chars 0 0
  unfold replaceText at hstay
  dsimp only at hstay
  split at hstay
  swap
  · change h.asciiFront.length = 0 at hstay
    omega
  unfold replaceTextUnicode at hstay
  dsimp only at hstay
  rcases Nat.eq_zero_or_pos h.asciiFront.length with hnone | hsome
  · rw [hnone, if_pos rfl] at hstay
    have hsame : overwrite h.row.charOffsets h.colEnd (iota 0 h.chBeg) = h.row.charOffsets := overwrite_nil _ _
    simp only [hsame, Nat.add_zero] at hstay
    have hback := stepBack_le h.row.charOffsets (h.colBeg - 1)
    split at hstay
    · next hjoin =>
      have hjoined := cwd.join_width ((h.row.chars.drop (h.row.uncheckedCharOffset
        (stepBack h.row.charOffsets (h.colBeg - 1)))).take
          (h.chBeg - h.row.uncheckedCharOffset (stepBack h.row.charOffsets (h.colBeg - 1)))) h.chars
      split at hstay
      · next hover =>
        have hroom := next_room hlimit (by omega) hjoined hover
        -- before the first column nothing is joined
        have hzero : h.colBeg = 0 := by omega
        have hnothing : h.chBeg - h.row.uncheckedCharOffset (stepBack h.row.charOffsets (h.colBeg - 1)) = 0 := by
          rw [hzero]
          show h.chBeg - h.row.uncheckedCharOffset 0 = 0
          rw [hfirst hzero, Nat.sub_self]
        rw [hnothing, List.take_zero, hm.join_nil _ hchars] at hroom
        omega
      · have hle := le_trans (le_replaceClusters _ _) hstay.le
        omega
    · exact next_room hlimit hvalid hwidth (hbegin ▸ replaceClusters_takes hlength hlength hstay.le)
  · rw [if_neg (by omega)] at hstay
    have hle := le_trans (le_replaceClusters _ _) hstay.le
    have hone : h.asciiFront.length = 1 := by omega
    rw [hone, Nat.sub_self] at hstay
    have hover := replaceClusters_takes (by exact hlength) hlength hstay.le
    rw [Nat.add_sub_cancel, hbegin] at hover
    exact next_room hlimit hvalid hwidth hover

end Taking

end WriteHelper

/-- What a write answers about its text: what is left is the end of it, and something is left only behind the limit; all
of it is left only where its first cluster finds no room. -/
structure Takes (cwd : Clustering) (text : List UInt16) (columnBegin columnLimit : ℕ) (state : RowWriteResult) :
    Prop where
  rest : state.text <:+ text
  full : state.text ≠ [] → columnLimit ≤ state.columnEnd
  stays : state.text = text → text ≠ [] → columnLimit - columnBegin < max 1 (cwd.next text 0 0).2

section Rows

variable {cwd : Clustering} {r r' : Row α} {state : RowWriteState} {result : RowWriteResult}

lemma finish_charsConsumed {h h' : WriteHelper α} (hok : h.finish = .ok h') :
    h'.charsConsumed = h.charsConsumed ∧ h'.colLimit = h.colLimit := by
  obtain ⟨row, -, hok⟩ := ok_of_bind hok
  cases hok
  exact ⟨rfl, rfl⟩

lemma create_first (r : Row α) (columnBegin columnLimit : ℕ) (chars : List UInt16)
    (hzero : (WriteHelper.create r columnBegin columnLimit chars).colBeg = 0) :
    (WriteHelper.create r columnBegin columnLimit chars).chBeg = r.uncheckedCharOffset 0 := by
  have hzero : r.clampedColumnInclusive columnBegin = 0 := hzero
  have hmask : r.uncheckedCharOffset 0 ≤ charOffsetsMask := Nat.and_le_right
  have hlt : charOffsetsMask < 0x10000 := by decide
  unfold WriteHelper.create
  dsimp only
  rw [hzero]
  show u16 (r.uncheckedCharOffset 0 + (0 - 0)) = _
  unfold u16
  omega

/-- **What a row takes of a text.** -/
theorem Row.replaceText_takes (hm : cwd.MeasuresAscii) (hcount : r.columnCount < 0x8000)
    (hok : r.replaceText cwd state = .ok (r', result)) :
    Takes cwd state.text (r.clampedColumnInclusive state.columnBegin) (r.clampedColumnInclusive state.columnLimit)
      result := by
  unfold Row.replaceText at hok
  dsimp only at hok
  split at hok
  · next hinvalid =>
    cases hok
    have hcases : state.text = [] ∨
        r.clampedColumnInclusive state.columnLimit ≤ r.clampedColumnInclusive state.columnBegin := by
      have hvalid : (decide (r.clampedColumnInclusive state.columnBegin < r.clampedColumnInclusive state.columnLimit) &&
          !state.text.isEmpty) = false := (Bool.not_eq_true' _).mp hinvalid
      rw [Bool.and_eq_false_iff, decide_eq_false_iff_not, Bool.not_eq_false', List.isEmpty_iff] at hvalid
      exact hvalid.symm.imp id Nat.not_lt.mp
    refine ⟨List.suffix_rfl, fun hne => hcases.resolve_left hne, fun _ hne => ?_⟩
    have hle := hcases.resolve_left hne
    omega
  · next hvalid =>
    obtain ⟨h, hfinish, hok⟩ := ok_of_bind hok
    cases hok
    obtain ⟨hconsumed, hcolLimit⟩ := finish_charsConsumed hfinish
    have hlays := @WriteHelper.replaceText_lays _ cwd
      (WriteHelper.create r state.columnBegin state.columnLimit state.text)
    have hvalid : (decide (r.clampedColumnInclusive state.columnBegin < r.clampedColumnInclusive state.columnLimit) &&
        !state.text.isEmpty) = true := (Bool.not_eq_false _).mp fun hfalse => hvalid (congrArg not hfalse)
    rw [Bool.and_eq_true, decide_eq_true_eq] at hvalid
    refine ⟨List.drop_suffix _ _, fun hne => ?_, fun hsame hne => ?_⟩
    · show r.clampedColumnInclusive state.columnLimit ≤ if (List.drop _ _).isEmpty then _ else h.colLimit
      rw [if_neg (by rw [List.isEmpty_iff]; exact hne), hcolLimit, hlays.colLimit]
      exact Nat.le_refl _
    · have hlength := congrArg List.length hsame
      have hpos := List.length_pos_iff.mpr hne
      rw [List.length_drop] at hlength
      have hlimit : r.clampedColumnInclusive state.columnLimit ≤ r.columnCount := Nat.min_le_right _ _
      exact WriteHelper.replaceText_takes hm rfl hvalid.1 hne (Nat.lt_of_le_of_lt hlimit hcount)
        (fun hzero => create_first r _ _ _ hzero) (by rw [← hconsumed]; omega)

lemma Row.replaceText_kept (hok : r.replaceText cwd state = .ok (r', result)) : r' = { r with
    chars := r'.chars, charOffsets := r'.charOffsets, doubleBytePadded := r'.doubleBytePadded } := by
  unfold Row.replaceText at hok
  dsimp only at hok
  split at hok
  · cases hok
    rfl
  · obtain ⟨h, hfinish, hok⟩ := ok_of_bind hok
    cases hok
    have hlays := @WriteHelper.replaceText_lays _ cwd
      (WriteHelper.create r state.columnBegin state.columnLimit state.text)
    rw [finish_kept hfinish, hlays.row]
    rfl

/-- A write changes the text and the attributes only. -/
lemma Row.write_takes {attributes : α} {text : List UInt16} {columnBegin columnLimit : ℕ} (hm : cwd.MeasuresAscii)
    (hcount : r.columnCount < 0x8000) (hok : r.write cwd attributes text columnBegin columnLimit = .ok (r', result)) :
    r'.lineRendition = r.lineRendition ∧ r'.columnCount = r.columnCount ∧
      Takes cwd text (r.clampedColumnInclusive columnBegin) (r.clampedColumnInclusive columnLimit) result := by
  obtain ⟨⟨r₁, result₁⟩, hreplaced, hok⟩ := ok_of_bind hok
  obtain ⟨r₂, hattributes, hok⟩ := ok_of_bind hok
  cases hok
  have hkept := Row.replaceText_kept hreplaced
  unfold Row.tryReplaceAttributes at hattributes
  split at hattributes
  · cases hattributes
  · cases hattributes
    refine ⟨?_, ?_, Row.replaceText_takes hm hcount hreplaced⟩
    · show r₁.lineRendition = _
      rw [hkept]
    · show r₁.columnCount = _
      rw [hkept]

lemma Row.replaceText_error {error : BufferError} (hok : r.replaceText cwd state = .error error) :
    error = .narrowing := by
  unfold Row.replaceText at hok
  dsimp only at hok
  split at hok
  · cases hok
  · rcases error_of_bind hok with hfinish | ⟨h, -, hok⟩
    · exact finish_error hfinish
    · cases hok

lemma Row.write_error {attributes : α} {text : List UInt16} {columnBegin columnLimit : ℕ} {error : BufferError}
    (hok : r.write cwd attributes text columnBegin columnLimit = .error error) : error ≠ .unfinished := by
  rcases error_of_bind hok with hreplaced | ⟨⟨r₁, result₁⟩, -, hok⟩
  · rw [Row.replaceText_error hreplaced]
    nofun
  rcases error_of_bind hok with hattributes | ⟨r₂, -, hok⟩
  · unfold Row.tryReplaceAttributes at hattributes
    split at hattributes
    · cases hattributes
      nofun
    · cases hattributes
  · cases hok

end Rows

/-! ### Writes into the buffer -/

namespace TextBuffer

/-- All rows are as wide as the buffer. -/
def Uniform (b : TextBuffer α) : Prop := ∀ y < b.height, (b.getRow y).columnCount = b.width

section Writing

variable {b b' : TextBuffer α} {cwd : Clustering} {row : ℤ} {attributes : α} {text : List UInt16}
variable {columnBegin columnLimit : ℤ} {state : RowWriteResult} {r : Row α}

lemma index_lt (hpos : 0 < b.height) (index : ℤ) : (index % b.height).toNat < b.height := by
  have hlt := Int.emod_lt_of_pos index (show (0 : ℤ) < b.height by omega)
  have hnonneg := Int.emod_nonneg index (show (b.height : ℤ) ≠ 0 by omega)
  omega

lemma Uniform.columnCount (h : b.Uniform) (hpos : 0 < b.height) (index : ℤ) :
    (b.getRowByOffset index).columnCount = b.width := h _ (index_lt hpos index)

lemma Uniform.setRow (h : b.Uniform) {y : ℕ} (hy : y < b.height) (hrow : r.columnCount = b.width) :
    (b.setRow y r).Uniform := by
  intro z hz
  rcases eq_or_ne z y with rfl | hne
  · rw [getRow_setRow_self]
    exact hrow
  · rw [getRow_setRow_of_ne hy hz hne]
    exact h z hz

lemma Uniform.setRowByOffset (h : b.Uniform) (hpos : 0 < b.height) (index : ℤ) (hrow : r.columnCount = b.width) :
    (b.setRowByOffset index r).Uniform := h.setRow (index_lt hpos index) hrow

/-- What a write of text leaves in the buffer. -/
structure Wrote (b b' : TextBuffer α) : Prop where
  keeps : KeepsRenditions b b'
  uniform : b'.Uniform

lemma wrote_setRow (h : b.Uniform) (hpos : 0 < b.height)
    (hrendition : r.lineRendition = (b.getRowByOffset row).lineRendition)
    (hcolumns : r.columnCount = (b.getRowByOffset row).columnCount) : Wrote b (b.setRowByOffset row r) :=
  ⟨.setRowByOffset row hrendition, h.setRowByOffset hpos row (hcolumns.trans (h.columnCount hpos row))⟩

/-- **A text is written over what is there.** -/
theorem replace_takes (hm : cwd.MeasuresAscii) (h : b.Uniform) (hpos : 0 < b.height) (hwidth : b.width < 0x8000)
    (hok : b.replace cwd row attributes text columnBegin columnLimit = .ok (b', state)) :
    Wrote b b' ∧ Takes cwd text (min columnBegin.toNat b.width) (min columnLimit.toNat b.width) state := by
  obtain ⟨⟨r, result⟩, hwritten, hok⟩ := ok_of_bind hok
  cases hok
  have hcount := h.columnCount hpos row
  obtain ⟨hrendition, hcolumns, htakes⟩ := Row.write_takes hm (by omega) hwritten
  unfold Row.clampedColumnInclusive at htakes
  rw [hcount] at htakes
  exact ⟨wrote_setRow h hpos hrendition hcolumns, htakes⟩

lemma restoreAttributes_kept {scratch r' : Row α} {restoreBegin restoreEnd : ℕ}
    (hok : restoreAttributes r scratch columnBegin restoreBegin restoreEnd = .ok r') :
    r' = { r with attr := r'.attr } := by
  unfold restoreAttributes at hok
  dsimp only at hok
  split at hok
  · split at hok
    · cases hok
    · cases hok
      rfl
  · cases hok
    rfl

/-- **A text is written before what is there.** -/
theorem insert_takes (hm : cwd.MeasuresAscii) (h : b.Uniform) (hpos : 0 < b.height) (hwidth : b.width < 0x8000)
    (hok : b.insert cwd row attributes text columnBegin columnLimit = .ok (b', state)) :
    Wrote b b' ∧ Takes cwd text (min columnBegin.toNat b.width) (min columnLimit.toNat b.width) state := by
  obtain ⟨scratch, -, hok⟩ := ok_of_bind hok
  obtain ⟨⟨r, result⟩, hwritten, hok⟩ := ok_of_bind hok
  obtain ⟨⟨r', result'⟩, hrestored, hok⟩ := ok_of_bind hok
  obtain ⟨r'', hattributes, hok⟩ := ok_of_bind hok
  cases hok
  have hcount := h.columnCount hpos row
  have hkept' := Row.replaceText_kept hrestored
  have hkept'' := restoreAttributes_kept hattributes
  obtain ⟨hrendition, hcolumns, htakes⟩ := Row.write_takes hm (by omega) hwritten
  unfold Row.clampedColumnInclusive at htakes
  rw [hcount] at htakes
  refine ⟨wrote_setRow h hpos ?_ ?_, htakes⟩
  · rw [hkept'', hkept']
    exact hrendition
  · rw [hkept'', hkept']
    exact hcolumns

lemma replace_error {error : BufferError}
    (hok : b.replace cwd row attributes text columnBegin columnLimit = .error error) : error ≠ .unfinished := by
  rcases error_of_bind hok with hwritten | ⟨result, -, hok⟩
  · exact Row.write_error hwritten
  · cases hok

lemma insert_error {error : BufferError}
    (hok : b.insert cwd row attributes text columnBegin columnLimit = .error error) : error ≠ .unfinished := by
  rcases error_of_bind hok with hcopied | ⟨scratch, -, hok⟩
  · rw [copyFrom_error hcopied]
    nofun
  rcases error_of_bind hok with hwritten | ⟨⟨r, result⟩, -, hok⟩
  · exact Row.write_error hwritten
  rcases error_of_bind hok with hrestored | ⟨⟨r', result'⟩, -, hok⟩
  · rw [Row.replaceText_error hrestored]
    nofun
  rcases error_of_bind hok with hattributes | ⟨r'', -, hok⟩
  · unfold restoreAttributes at hattributes
    dsimp only at hattributes
    split at hattributes
    · split at hattributes
      · cases hattributes
        nofun
      · cases hattributes
    · cases hattributes
  · cases hok

end Writing

end TextBuffer

end VT7.Buffer
