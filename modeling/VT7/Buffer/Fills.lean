import VT7.Buffer.FillLoop

/-!
# Filling a rectangle

`FillRect` copies the columns of the rectangle from the scratchpad row into its rows.
-/

namespace VT7.Buffer

open VT7.Lib.Cells
open VT7.Lib.Filling
open WriteHelper
open VT7.Types (Rect)

variable {α : Type}

/-! ### Strips behind the copies -/

section Strips

variable {cwd : Clustering} {c : UInt16} {A gs source : List Glyph} {j : Glyph} {d : ℕ → GlyphCell}
variable {left right k m n y : ℕ}

/-- A strip behind a copy of the columns from `left` up to `right` out of the row `source`. -/
def filledStrip (source : List Glyph) (d : ℕ → GlyphCell) (left right : ℕ) : ℕ → GlyphCell :=
  if cols (upTo left source) = left then
    laid [space] d
      (fun y => stripOf (upTo (right - left) (source.drop (upTo left source).length)) (y - left)) left right
  else d

lemma stripOf_text_mem (hy : y < cols gs) : ∃ g ∈ gs, (stripOf gs y).text = g.text := by
  obtain ⟨u, g, rest, rfl, hle, hover⟩ := covering hy
  have hat := stripOf_at u g rest
  have hwidth := g.width_le
  refine ⟨g, List.mem_append_right u List.mem_cons_self, ?_⟩
  rcases Nat.lt_or_eq_of_le hle with hlt | rfl
  · obtain rfl : y = cols u + 1 := by omega
    rw [hat.2 (by omega)]
  · rw [hat.1]
    split <;> rfl

lemma filledStrip_append (A rest : List Glyph) :
    filledStrip (A ++ rest) d (cols A) right =
      laid [space] d (fun y => stripOf (upTo (right - cols A) rest) (y - cols A)) (cols A) right := by
  unfold filledStrip
  rw [upTo_cols_of_isPrefix (List.prefix_append A rest), if_pos rfl, List.drop_left]

/-- **Copies cover the columns** they fill. -/
lemma filledStrip_copies (hk : k * (fillGlyph cwd c).width = right - left) (hin : left ≤ y ∧ y < right) :
    (filledStrip (copies cwd c left k ++ blanks m) d left right y).text = [c] := by
  have hcols := cols_replicate k (fillGlyph cwd c)
  have hstrip := @filledStrip_append d right (blanks left) (List.replicate k (fillGlyph cwd c) ++ blanks m)
  rw [cols_blanks, ← hk, ← hcols, upTo_cols_of_isPrefix (List.prefix_append _ _), ← List.append_assoc] at hstrip
  unfold copies
  rw [hstrip, laid_inside hin.1 hin.2]
  obtain ⟨g, hg, htext⟩ := @stripOf_text_mem (List.replicate k (fillGlyph cwd c)) (y - left) (by omega)
  rw [htext, List.eq_of_mem_replicate hg, fillGlyph_text]

/-- A glyph of two columns for which there is one column shows no part of itself. -/
lemma filledStrip_odd (hk : left + cols A + 1 = right) :
    filledStrip (blanks left ++ A ++ blanks m) d left right (left + cols A) = .blank [space] := by
  have hstrip := @filledStrip_append d right (blanks left) (A ++ blanks m)
  rw [cols_blanks, ← List.append_assoc] at hstrip
  rw [hstrip, laid_inside (by omega) (by omega), Nat.add_sub_cancel_left]
  have hprefix := upTo_isPrefix (right - left) (A ++ blanks m)
  generalize upTo (right - left) (A ++ blanks m) = front at hprefix
  rcases List.prefix_or_prefix_of_prefix hprefix (List.prefix_append A (blanks m)) with hshort | ⟨rest, rfl⟩
  · exact stripOf_behind (cols_le_of_isPrefix hshort)
  · have hblanks := (List.prefix_replicate_iff.mp ((List.prefix_append_right_inj A).mp hprefix)).2
    rw [stripOf_right (Nat.le_refl _), Nat.sub_self, hblanks]
    exact stripOf_blanks _ 0

/-- The glyph behind the first `left` columns is shown. -/
lemma filledStrip_first (hkept : blanks left ++ [j] <+: gs) (hwidth : left + j.width ≤ right) :
    (filledStrip gs d left right left).text = j.text := by
  obtain ⟨rest, rfl⟩ := hkept
  have hpos := j.width_pos
  have hstrip := @filledStrip_append d right (blanks left) ([j] ++ rest)
  rw [cols_blanks, ← List.append_assoc] at hstrip
  rw [hstrip, laid_inside (Nat.le_refl _) (by omega), Nat.sub_self]
  obtain ⟨tail, htail⟩ := prefix_upTo (List.prefix_append [j] rest) (show cols [j] ≤ right - left from (by
    show j.width ≤ _
    omega))
  rw [← htail]
  have hat := (stripOf_at [] j tail).1
  rw [List.nil_append, cols_nil] at hat
  rw [List.singleton_append, hat]
  split <;> rfl

/-- Nothing is copied from the second half of a glyph. -/
lemma filledStrip_cut (hpos : 0 < left) (hkept : blanks (left - 1) ++ [j] <+: gs) (hj : j.width = 2) :
    filledStrip gs d left right = d := by
  obtain ⟨rest, rfl⟩ := hkept
  have hfront : upTo left (blanks (left - 1) ++ [j] ++ rest) = blanks (left - 1) := by
    rw [List.append_assoc]
    refine fitting_eq Glyph.width j rest ?_ ?_
    · show cols (blanks (left - 1)) ≤ left
      rw [cols_blanks]
      omega
    · show left < cols (blanks (left - 1)) + j.width
      rw [cols_blanks]
      omega
  unfold filledStrip
  rw [hfront, cols_blanks, if_neg (by omega)]

end Strips

/-! ### One row -/

section Rows

variable {gs source new : List Glyph} {f : ℕ → GlyphCell} {g : ℕ → Option α} {r scratch : Row α}
variable {left right width x k : ℕ}

lemma units_overlaid_le (hx : x + cols new ≤ k) (hk : k ≤ cols gs) (hgs : units gs < 0x8000) (hnew : Slim new) :
    units (overlaid gs x k new) ≤ units gs + (k - x) + 2 := by
  have hparts := @upTo_units_le gs x k (by omega) hk hgs
  have hslim := units_le_cols hnew
  have hcut : x ≤ cols (upTo x gs) + 1 := by
    rcases @upTo_cases gs x (by omega) with ⟨h, -⟩ | ⟨h, -⟩ <;> omega
  obtain ⟨p, hsplit, hp⟩ := beyond_cases hk
  have hcols := congrArg cols hsplit
  rw [cols_append] at hcols
  have hend : cols p ≤ k + 1 := by
    rcases hp with ⟨h, -⟩ | ⟨h, -⟩ <;> omega
  unfold overlaid
  simp only [units_append, units_blanks]
  omega

/-- The copy of one row. -/
lemma copyWritten_filled (hs : scratch.Holds source) (hcolumns : scratch.columnCount = r.columnCount)
    (hleft : left < right) (hright : right ≤ r.columnCount) (hcount : r.columnCount < 0x8000) :
    copyWritten r gs source
        { source := scratch, columnBegin := left, columnLimit := right, sourceColumnBegin := left } =
      if cols (upTo left source) = left then
        overlaid gs left right (upTo (right - left) (source.drop (upTo left source).length))
      else gs := by
  generalize hstate : ({ source := scratch, columnBegin := left, columnLimit := right, sourceColumnBegin := left } :
    RowCopyTextFromState α) = state
  have hbegin : state.sourceColumnBegin = left := by rw [← hstate]
  have hother : state.sourceIsThis = false := by rw [← hstate]
  have hcolBegin : r.clampedColumnInclusive state.columnBegin = left := by
    rw [← hstate]
    exact Nat.min_eq_left (show left ≤ r.columnCount by omega)
  have hroom : room r state = right - left := by
    rw [room, hcolBegin, ← hstate]
    exact congrArg (· - left) (Nat.min_eq_left hright)
  have hwidth := hs.columns
  obtain ⟨rest, hrest⟩ := upTo_isPrefix left source
  have hdrop : source.drop (upTo left source).length = rest := by
    have happ := congrArg (List.drop (upTo left source).length) hrest
    rw [List.drop_left] at happ
    exact happ.symm
  have hcols := congrArg cols hrest
  rw [cols_append] at hcols
  unfold copyWritten
  rw [hbegin, hdrop, hroom, hcolBegin]
  by_cases hstart : cols (upTo left source) = left
  · have hread : readable state (upTo left source) = cols rest := by
      rw [readable, ← hstate]
      show min coordTypeMax scratch.columnCount - _ = _
      unfold coordTypeMax
      omega
    have havailable : available state (upTo left source) rest = rest := by
      rw [available, hread]
      exact upTo_cols_of_isPrefix List.prefix_rfl
    have hne : rest ≠ [] := fun hnil => by
      rw [hnil, cols_nil] at hcols
      omega
    rw [havailable, if_pos ⟨hstart, by omega, hother, hne⟩, if_pos hstart, fitting, havailable, hroom, copyDirty,
      hcolBegin, hroom, hread]
    congr 1
    omega
  · rw [if_neg fun h => hstart h.1, if_neg hstart]

/-- **One row is filled.** -/
lemma Row.Displays.filled (h : r.Displays width f g) (hs : scratch.Holds source)
    (hcolumns : scratch.columnCount = width) (hslim : Slim source) (hleft : left < right) (hright : right ≤ width)
    (hshort : r.charSize + width + 2 < 0x8000) (attr : α) :
    ∃ r' result, r.copyTextFrom
        { source := scratch, columnBegin := left, columnLimit := right, sourceColumnBegin := left } = .ok (r', result) ∧
      (r'.replaceAttributes left right attr).Displays width (filledStrip source f left right)
        (fun x => if left ≤ x ∧ x < right then some attr else g x) := by
  obtain ⟨gs, hholds, hstrip⟩ := h.shows
  have hcount := h.columns
  have hlength := h.length
  have hcols := hholds.columns
  have hunits := hholds.charSize
  have hwritten := @copyWritten_filled _ gs source r scratch left right hs (by omega) hleft (by omega) (by omega)
  have hfit : cols (upTo (right - left) (source.drop (upTo left source).length)) ≤ right - left := cols_upTo_le _ _
  have hfitSlim : Slim (upTo (right - left) (source.drop (upTo left source).length)) := fun g' hg' =>
    hslim g' (List.mem_of_mem_drop ((upTo_isPrefix _ _).subset hg'))
  obtain ⟨r', result, hok, hholds', hcount'⟩ := @copyTextFrom_written _ _ _
    { source := scratch, columnBegin := left, columnLimit := right, sourceColumnBegin := left } source hholds
    (fun _ => hs) (by
      rw [hwritten]
      split
      · have hle := @units_overlaid_le gs _ left right (by omega) (by omega) hholds.short hfitSlim
        omega
      · exact hholds.short)
  have hattr : r'.attr = r.attr := by rw [copyTextFrom_kept hok]
  refine ⟨r', result, hok, h.replaceAttributes ⟨_, hholds', ?_⟩ (hcount'.trans hcount) hattr hleft hright attr⟩
  rw [hwritten, filledStrip, ← hstrip]
  split
  · exact stripOf_overlaid (by omega) (by omega)
  · rfl

end Rows

/-! ### The rows of the rectangle -/

section Rectangles

variable {b : TextBuffer α} {width height left top right bottom : ℕ} {cells : ℕ → ℕ → GlyphCell}
variable {attrs : ℕ → ℕ → Option α} {scratch : Row α} {source : List Glyph}

/-- The cells of the rectangle. -/
def InRect (left top right bottom x y : ℕ) : Prop := (left ≤ x ∧ x < right) ∧ top ≤ y ∧ y < bottom

/-- The rectangle shows the character, with the attributes, and outside of it a cell has changed only where it has lost
its other half to the rectangle. -/
structure Covered (b b' : TextBuffer α) (left top right bottom : ℕ) (c : UInt16) (attr : α) : Prop where
  inside : ∀ x y, x < b.width → y < b.height → InRect left top right bottom x y →
    (b'.cell x y).text = [c] ∧ b'.attributes x y = some attr
  outside : ∀ x y, x < b.width → y < b.height → ¬InRect left top right bottom x y →
    b'.attributes x y = b.attributes x y ∧
      (b'.cell x y = b.cell x y ∨ b'.cell x y = .blank [space] ∧
        ∃ x', otherHalf (fun x => b.cell x y) x = some x' ∧ InRect left top right bottom x' y)

/-- **The rectangle is filled**: the loop advances and ends, and the character covers the rectangle. -/
structure FillsRect (cwd : Clustering) (b : TextBuffer α) (left top right bottom : ℕ) (c : UInt16) (attr : α) :
    Prop where
  advances : FillAdvances cwd [c] left right (b.getScratchpadRow attr)
  covers : ∃ b', b.fillRect cwd ⟨left, top, right, bottom⟩ [c] attr = .ok b' ∧
    Covered b b' left top right bottom c attr

/-- **The condition**: no copy joins what is before it, and no wide character is cut at the end. -/
def Fillable (cwd : Clustering) (c : UInt16) (left right : ℕ) : Prop :=
  FillsAlone cwd c left right ∧ (fillGlyph cwd c).width ∣ right - left

/-- The rows of the rectangle behind the copies of a scratchpad row. -/
lemma fillRect_displays (h : b.Displays width height cells attrs) (hs : scratch.Holds source)
    (hcolumns : scratch.columnCount = width) (hslim : Slim source) (hleft : left < right) (hright : right ≤ width)
    (htop : top < bottom) (hbottom : bottom ≤ height)
    (hshort : ∀ y, top ≤ y → y < bottom → (b.getRow y).charSize + width + 2 < 0x8000) (attr : α) :
    ∃ b', TextBuffer.fillRows scratch attr left right (bottom - top) top b = .ok b' ∧
      b'.width = width ∧ b'.height = height ∧ ∀ x y, x < width → y < height →
        (b'.cell x y = if top ≤ y ∧ y < bottom then filledStrip source (cells y) left right x else cells y x) ∧
          b'.attributes x y = if (left ≤ x ∧ x < right) ∧ top ≤ y ∧ y < bottom then some attr else attrs y x := by
  obtain ⟨b', hok, hwidth, hheight, hrows⟩ := h.fillRows (show top + (bottom - top) ≤ height by omega)
    fun z hlo hhi => (h.rows z (by omega)).filled hs hcolumns hslim hleft hright (hshort z hlo (by omega)) attr
  rw [Nat.add_sub_cancel' htop.le] at hrows
  refine ⟨b', hok, hwidth, hheight, fun x y hx hy => ?_⟩
  by_cases hin : top ≤ y ∧ y < bottom
  · have hrow := (hrows y hy).1 hin
    rw [if_pos hin]
    refine ⟨hrow.cell_eq hx, (hrow.attributes x).trans ?_⟩
    by_cases hcolumn : left ≤ x ∧ x < right
    · rw [if_pos hcolumn, if_pos ⟨hcolumn, hin⟩]
    · rw [if_neg hcolumn, if_neg fun h => hcolumn h.1]
  · have hrow := h.rows y hy
    rw [if_neg hin, if_neg fun h => hin h.2]
    unfold TextBuffer.cell TextBuffer.attributes
    rw [(hrows y hy).2 hin]
    exact ⟨hrow.cell_eq hx, hrow.attributes x⟩

/-- The scratchpad row with its copies. -/
def filledScratchpad (cwd : Clustering) (c : UInt16) (left right : ℕ) (scratchpad : Row α) :
    Except BufferError (Row α) :=
  if [c] ≠ [space] then TextBuffer.fillScratchpad cwd [c] right (right - left + 1) left scratchpad else .ok scratchpad

lemma fillRect_eq (cwd : Clustering) (c : UInt16) (hleft : left < right) (htop : top < bottom) (attr : α) :
    b.fillRect cwd ⟨left, top, right, bottom⟩ [c] attr =
      filledScratchpad cwd c left right (b.getScratchpadRow attr) >>= fun scratchpad =>
        TextBuffer.fillRows scratchpad attr left right (bottom - top) top b := by
  obtain ⟨hvalid, hrest⟩ := rect_of_lt hleft htop
  unfold TextBuffer.fillRect filledScratchpad
  rw [hvalid, hrest]
  by_cases hspace : [c] ≠ [space]
  · rw [if_pos hspace, if_pos hspace]
    rfl
  · rw [if_neg hspace, if_neg hspace]
    rfl

/-- Behind the loop, where the copies stand alone and fill the columns. -/
lemma scratchpad_copies {cwd : Clustering} {c : UInt16} (hm : cwd.MeasuresAscii) (hfillable : Fillable cwd c left right)
    (hleft : left < right) (hright : right ≤ width) (hwidth : width + 2 < 0x8000) (attr : α) :
    ∃ (k : ℕ) (row : Row α), filledScratchpad cwd c left right (Row.create width attr) = .ok row ∧
      row.Holds (copies cwd c left k ++ blanks (width - right)) ∧ row.columnCount = width ∧
      Slim (copies cwd c left k ++ blanks (width - right)) ∧ k * (fillGlyph cwd c).width = right - left := by
  obtain ⟨halone, q, hq⟩ := hfillable
  by_cases hspace : [c] = [space]
  · obtain rfl : c = space := List.singleton_inj.mp hspace
    have hglyph : fillGlyph cwd space = Glyph.blank := if_pos (by decide)
    have hcopies : copies cwd space left (right - left) = blanks right := by
      unfold copies
      rw [hglyph]
      show blanks left ++ blanks (right - left) = _
      rw [blanks_add, Nat.add_sub_cancel' hleft.le]
    refine ⟨right - left, _, if_neg (not_not_intro rfl), ?_, rfl, ?_, ?_⟩
    · rw [hcopies, blanks_add, Nat.add_sub_cancel' hright]
      exact create_holds (by omega) attr
    · rw [hcopies]
      exact slim_append (slim_blanks _) (slim_blanks _)
    · rw [hglyph]
      exact Nat.mul_one _
  · have hadvances := @copies_advance _ _ _ _ _ _ attr hm halone hleft hright hwidth
    obtain ⟨row, hok⟩ := fillScratchpad_ends hadvances .start (Nat.lt_succ_self (right - left))
    obtain ⟨col, hreached, hend⟩ := fillScratchpad_reached .start hok
    obtain ⟨k, hfilling, hfull⟩ := copies_reached hm halone hleft hright hwidth hreached
    have hover := hfull hend
    have hle := hfilling.le
    rw [cols_copies] at hle
    have hk : k = q := by
      have hlow : k * (fillGlyph cwd c).width ≤ q * (fillGlyph cwd c).width := by
        rw [Nat.mul_comm q]
        omega
      have hhigh : q * (fillGlyph cwd c).width < (k + 1) * (fillGlyph cwd c).width := by
        rw [Nat.mul_comm q]
        omega
      exact Nat.le_antisymm (Nat.le_of_mul_le_mul_right hlow (fillGlyph cwd c).width_pos)
        (Nat.le_of_lt_succ (Nat.lt_of_mul_lt_mul_right hhigh))
    have hcols : k * (fillGlyph cwd c).width = right - left := by rw [hk, hq, Nat.mul_comm]
    have hwhole : width - cols (copies cwd c left k) = width - right := by
      rw [cols_copies, hcols]
      omega
    have hholds := hfilling.holds
    rw [hwhole] at hholds
    exact ⟨k, row, (if_pos hspace).trans hok, hholds, hfilling.columns, slim_append hfilling.slim (slim_blanks _),
      hcols⟩

/-- **The condition is enough.** -/
lemma fillRect_covers {cwd : Clustering} {c : UInt16} (hm : cwd.MeasuresAscii)
    (h : b.Displays width height cells attrs) (hfillable : Fillable cwd c left right) (hleft : left < right)
    (hright : right ≤ width) (htop : top < bottom) (hbottom : bottom ≤ height)
    (hshort : ∀ y, top ≤ y → y < bottom → (b.getRow y).charSize + width + 2 < 0x8000) (attr : α) :
    FillsRect cwd b left top right bottom c attr := by
  have hwidth : width + 2 < 0x8000 := by
    have := hshort top (Nat.le_refl top) htop
    omega
  have hscratch : b.getScratchpadRow attr = Row.create width attr := by
    unfold TextBuffer.getScratchpadRow
    rw [h.width_eq]
  refine ⟨by rw [hscratch]; exact copies_advance hm hfillable.1 hleft hright hwidth, ?_⟩
  obtain ⟨k, row, hrow, hholds, hcolumns, hslim, hk⟩ := scratchpad_copies hm hfillable hleft hright hwidth attr
  obtain ⟨b', hok, hwidth', hheight', hdisplays⟩ :=
    fillRect_displays h hholds hcolumns hslim hleft hright htop hbottom hshort attr
  refine ⟨b', ?_, fun x y hx hy hin => ?_, fun x y hx hy hout => ?_⟩
  · rw [fillRect_eq cwd c hleft htop, hscratch, hrow]
    exact hok
  · rw [h.width_eq] at hx
    rw [h.height_eq] at hy
    obtain ⟨hcell, hattr⟩ := hdisplays x y hx hy
    unfold InRect at hin
    rw [hcell, hattr, if_pos hin.2, if_pos hin]
    exact ⟨filledStrip_copies hk hin.1, rfl⟩
  · rw [h.width_eq] at hx
    rw [h.height_eq] at hy
    obtain ⟨hcell, hattr⟩ := hdisplays x y hx hy
    have hrowy := h.rows y hy
    have hsame : ∀ x' < width, b.cell x' y = cells y x' := fun x' hx' => hrowy.cell_eq hx'
    refine ⟨?_, ?_⟩
    · rw [hattr, if_neg (show ¬((left ≤ x ∧ x < right) ∧ top ≤ y ∧ y < bottom) from hout)]
      exact (hrowy.attributes x).symm
    · rw [hcell, hsame x hx]
      by_cases hy' : top ≤ y ∧ y < bottom
      · have hcopies := @filledStrip_append (cells y) right (blanks left)
          (List.replicate k (fillGlyph cwd c) ++ blanks (width - right))
        rw [cols_blanks, ← List.append_assoc] at hcopies
        rw [if_pos hy', copies, hcopies]
        refine (laid_keeps hrowy.fits.paired hleft fun hin => hout ⟨hin, hy'⟩).imp id ?_
        rintro ⟨hblank, x', hother, hin⟩
        refine ⟨hblank, x', ?_, hin, hy'⟩
        unfold otherHalf at hother ⊢
        dsimp only
        rw [hsame x hx]
        exact hother
      · rw [if_neg hy']
        exact .inl rfl

/-- What the loop leaves behind in the rectangle. -/
lemma fillRect_reached {cwd : Clustering} {c : UInt16} (h : b.Displays width height cells attrs) (hc : ¬c < 0x80)
    (hleft : left < right) (hright : right ≤ width) (htop : top < bottom) (hbottom : bottom ≤ height)
    (hshort : ∀ y, top ≤ y → y < bottom → (b.getRow y).charSize + width + 2 < 0x8000) (attr : α) {b' : TextBuffer α}
    (hok : b.fillRect cwd ⟨left, top, right, bottom⟩ [c] attr = .ok b') :
    ∃ col row, FillReached cwd [c] left right (Row.create width attr) col row ∧ right ≤ col ∧
      ∀ F, Filling F width right col row → ∀ x y, InRect left top right bottom x y →
        b'.cell x y = filledStrip (F ++ blanks (width - cols F)) (cells y) left right x := by
  have hspace : [c] ≠ [space] := fun heq => hc (by
    rw [List.singleton_inj.mp heq]
    decide)
  have hscratch : b.getScratchpadRow attr = Row.create width attr := by
    unfold TextBuffer.getScratchpadRow
    rw [h.width_eq]
  rw [fillRect_eq cwd c hleft htop, hscratch, filledScratchpad, if_pos hspace] at hok
  obtain ⟨row, hrow, hrows⟩ := ok_of_bind hok
  obtain ⟨col, hreached, hend⟩ := fillScratchpad_reached .start hrow
  refine ⟨col, row, hreached, hend, fun F hfilling x y hin => ?_⟩
  obtain ⟨b'', hok'', -, -, hdisplays⟩ := fillRect_displays h hfilling.holds hfilling.columns
    (slim_append hfilling.slim (slim_blanks _)) hleft hright htop hbottom hshort attr
  obtain rfl : b'' = b' := Except.ok.inj (hok''.symm.trans hrows)
  obtain ⟨hcell, -⟩ := hdisplays x y (by have := hin.1; omega) (by have := hin.2; omega)
  rw [hcell, if_pos hin.2]

/-- **`FillRect` covers the rectangle** where no copy joins what is before it and no wide character is cut, and only
there, unless the rectangle has shown nothing but the character before. -/
theorem fillRect_covers_iff {cwd : Clustering} {c : UInt16} (hm : cwd.MeasuresAscii)
    (h : b.Displays width height cells attrs) (hleft : left < right) (hright : right ≤ width) (htop : top < bottom)
    (hbottom : bottom ≤ height) (hshort : ∀ y, top ≤ y → y < bottom → (b.getRow y).charSize + width + 2 < 0x8000)
    (attr : α) :
    (Fillable cwd c left right → FillsRect cwd b left top right bottom c attr) ∧
      ((∃ x y, InRect left top right bottom x y ∧ (b.cell x y).text ≠ [c]) →
        FillsRect cwd b left top right bottom c attr → Fillable cwd c left right) := by
  refine ⟨fun hfillable => fillRect_covers hm h hfillable hleft hright htop hbottom hshort attr, ?_⟩
  rintro ⟨x₀, y₀, hin₀, hne₀⟩ ⟨hadvances, b', hok, hcovered⟩
  have hwidth : width + 2 < 0x8000 := by
    have := hshort top (Nat.le_refl top) htop
    omega
  by_cases hc : c < 0x80
  · refine ⟨.inl hc, ?_⟩
    have hglyph : fillGlyph cwd c = Glyph.narrow c := if_pos hc
    rw [hglyph]
    exact one_dvd _
  have hscratch : b.getScratchpadRow attr = Row.create width attr := by
    unfold TextBuffer.getScratchpadRow
    rw [h.width_eq]
  rw [hscratch] at hadvances
  obtain ⟨col, row, hreached, hend, hcells⟩ := fillRect_reached h hc hleft hright htop hbottom hshort attr hok
  have htext : ∀ x y, InRect left top right bottom x y → (b'.cell x y).text = [c] := fun x y hin =>
    (hcovered.inside x y (by rw [h.width_eq]; have := hin.1; omega) (by rw [h.height_eq]; have := hin.2; omega) hin).1
  have hfirst : left = 0 ∨ (cwd.join [space] [c]).1 = 0 := by
    by_contra hjoins
    obtain ⟨F, j, hfilling, hkept, hj⟩ := joins_space_reached hm hc (show 0 < left by omega) (by omega) hleft hright
      hwidth hadvances hreached hend
    have hcell := hcells F hfilling x₀ y₀ hin₀
    rw [filledStrip_cut (by omega) (hkept.trans (List.prefix_append F _)) hj] at hcell
    refine hne₀ ?_
    rw [← htext x₀ y₀ hin₀, hcell]
    exact congrArg _ ((h.rows y₀ (by have := hin₀.2; omega)).cell_eq (by have := hin₀.1; omega))
  have hnext : right - left ≤ (fillGlyph cwd c).width ∨ (cwd.join [c] [c]).1 = 0 := by
    by_contra hjoins
    obtain ⟨F, j, hfilling, hkept, hj, hjtext⟩ := joins_copy_reached hm hc hfirst (by omega) (by omega) hright hwidth
      hadvances hreached hend
    have hpos := (fillGlyph cwd c).width_pos
    have hin : InRect left top right bottom left top := ⟨⟨Nat.le_refl left, hleft⟩, Nat.le_refl top, htop⟩
    have hshown := htext left top hin
    rw [hcells F hfilling left top hin, filledStrip_first (hkept.trans (List.prefix_append F _)) (by omega), hjtext]
      at hshown
    exact nomatch hshown
  refine ⟨.inr ⟨hfirst, hnext⟩, ?_⟩
  obtain ⟨k, hfilling, hfull⟩ := copies_reached hm (.inr ⟨hfirst, hnext⟩) hleft hright hwidth hreached
  have hcut := hfull hend
  have hle := hfilling.le
  have hpos := (fillGlyph cwd c).width_pos
  have hwide := (fillGlyph cwd c).width_le
  have hmul := Nat.add_one_mul k (fillGlyph cwd c).width
  rw [cols_copies] at hle
  rcases Nat.lt_or_eq_of_le hle with hlt | heq
  · -- one column is left, for half of the character
    have hin : InRect left top right bottom (left + k * (fillGlyph cwd c).width) top :=
      ⟨⟨Nat.le_add_right _ _, hlt⟩, Nat.le_refl top, htop⟩
    have hshown := htext _ top hin
    have hblank := @filledStrip_odd (List.replicate k (fillGlyph cwd c)) (cells top) left right
      (width - cols (copies cwd c left k)) (by rw [cols_replicate]; omega)
    rw [cols_replicate, show blanks left ++ List.replicate k (fillGlyph cwd c) = copies cwd c left k from rfl] at hblank
    rw [hcells _ hfilling _ top hin, hblank] at hshown
    exact absurd (by rw [← List.singleton_inj.mp hshown]; decide) hc
  · exact ⟨k, by rw [← heq, Nat.add_sub_cancel_left, Nat.mul_comm]⟩

end Rectangles

lemma create_shows {width : ℕ} (hpos : 0 < width) (hwidth : width < 0x8000) :
    (TextBuffer.create width 1 ()).Displays width 1 (fun _ _ => .blank [space])
      (fun _ x => (List.replicate width ())[x]?) := by
  refine ⟨max_eq_left hpos, rfl, fun y _ => ?_⟩
  have hrow : (TextBuffer.create width 1 ()).getRow y = Row.create width () :=
    congrArg (Row.create · _) (max_eq_left hpos)
  rw [hrow]
  exact @create_displays _ () _ hwidth _ List.length_replicate

/-- A letter in the whole of a small buffer. -/
theorem fillRect_covers_iff_letter :
    (Fillable combining 0x41 0 2 → FillsRect combining (TextBuffer.create 2 1 ()) 0 0 2 1 0x41 ()) ∧
      ((∃ x y, InRect 0 0 2 1 x y ∧ ((TextBuffer.create 2 1 ()).cell x y).text ≠ [0x41]) →
        FillsRect combining (TextBuffer.create 2 1 ()) 0 0 2 1 0x41 () → Fillable combining 0x41 0 2) :=
  fillRect_covers_iff combining_measuresAscii (create_shows (by decide) (by decide)) (by decide) (by decide) (by decide)
    (by decide) (fun y _ hy => by
      obtain rfl : y = 0 := Nat.lt_one_iff.mp hy
      decide) ()

/-- A combining mark joins the space before the rectangle, and the loop does not end. -/
theorem fillRect_stalls : ¬FillsRect combining (TextBuffer.create 2 1 ()) 1 0 2 1 0x301 () := by
  rintro ⟨-, b', hok, -⟩
  have hnone : ((TextBuffer.create 2 1 ()).fillRect combining ⟨1, 0, 2, 1⟩ [0x301] ()).toOption.isSome = false := by
    decide
  have hsome : ((TextBuffer.create 2 1 ()).fillRect combining ⟨1, 0, 2, 1⟩ [0x301] ()).toOption.isSome = true := by
    rw [show (TextBuffer.create 2 1 ()).fillRect combining ⟨1, 0, 2, 1⟩ [0x301] () = .ok b' from hok]
    rfl
  rw [hnone] at hsome
  exact nomatch hsome

end VT7.Buffer
