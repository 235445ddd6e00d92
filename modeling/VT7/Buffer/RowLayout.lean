import VT7.Buffer.RowText
import VT7.Buffer.RowCopy

/-!
# The glyphs a text becomes

What `ReplaceText` and `ReplaceCharacters` leave in a row, said on glyphs: the glyphs before the written range,
the new ones, spaces where a wide glyph was cut, and the glyphs behind (`textWritten`, `charactersWritten`).
`replaceText_holds` ties the row to them as long as the text stays shorter than 0x8000 code units.
-/

namespace VT7.Buffer

open VT7.Lib.Filling

variable {α : Type}

namespace Clustering

variable (cwd : Clustering)

lemma glyph_text {chars : List UInt16} {start position : ℕ} (h : position < chars.length) :
    (chars.drop position).take (cwd.next chars start position).1 ≠ [] := by
  have hpos := cwd.next_pos chars start position h
  have hle := cwd.next_le chars start position h
  refine List.length_pos_iff.mp ?_
  rw [List.length_take, List.length_drop]
  omega

lemma width_pos (n : ℕ) : 1 ≤ max 1 n := Nat.le_max_left 1 n

lemma width_le {n : ℕ} (h : n ≤ 2) : max 1 n ≤ 2 := Nat.max_le.mpr ⟨Nat.le_succ 1, h⟩

/-- The cluster at a position as a glyph: every glyph has at least one column. -/
def glyph (chars : List UInt16) (start position : ℕ) (h : position < chars.length) : Glyph where
  text := (chars.drop position).take (cwd.next chars start position).1
  width := max 1 (cwd.next chars start position).2
  text_ne_nil := cwd.glyph_text h
  width_pos := width_pos _
  width_le := width_le (cwd.next_width chars start position)

lemma length_glyph {chars : List UInt16} {start position : ℕ} (h : position < chars.length) :
    (cwd.glyph chars start position h).text.length = (cwd.next chars start position).1 := by
  have hle := cwd.next_le chars start position h
  show ((chars.drop position).take _).length = _
  rw [List.length_take, List.length_drop]
  omega

/-- The clusters of a text from a position on, as far as there are columns for them. -/
def glyphs (chars : List UInt16) (start : ℕ) : ℕ → ℕ → ℕ → List Glyph
  | 0, _, _ => []
  | iterations + 1, it, room =>
    if h : it < chars.length then
      if (cwd.glyph chars start it h).width ≤ room then
        cwd.glyph chars start it h ::
          glyphs chars start iterations (it + (cwd.glyph chars start it h).text.length)
            (room - (cwd.glyph chars start it h).width)
      else []
    else []

end Clustering

/-- One glyph for every code unit. -/
def narrows (chars : List UInt16) : List Glyph := chars.map Glyph.narrow

@[simp] lemma cols_narrows (chars : List UInt16) : cols (narrows chars) = chars.length := by
  induction chars with
  | nil => rfl
  | cons c chars ih =>
    show 1 + cols (narrows chars) = chars.length + 1
    omega

@[simp] lemma units_narrows (chars : List UInt16) : units (narrows chars) = chars.length := by
  induction chars with
  | nil => rfl
  | cons c chars ih =>
    show 1 + units (narrows chars) = chars.length + 1
    omega

@[simp] lemma textOf_narrows (chars : List UInt16) : textOf (narrows chars) = chars := by
  induction chars with
  | nil => rfl
  | cons c chars ih => exact congrArg (c :: ·) ih

/-- Offsets depend on the lengths and widths of the glyphs only. -/
lemma columnsFrom_narrows (o : ℕ) (chars : List UInt16) :
    columnsFrom o (narrows chars) = columnsFrom o (blanks chars.length) := by
  induction chars generalizing o with
  | nil => rfl
  | cons c chars ih => exact congrArg (o :: ·) (ih (o + 1))

/-! ### The row as it will be -/

/-- The glyphs before a column; a glyph that goes over the column becomes a space. -/
def lead (gs : List Glyph) (x : ℕ) : List Glyph := upTo x gs ++ blanks (x - cols (upTo x gs))

@[simp] lemma cols_lead (gs : List Glyph) (x : ℕ) : cols (lead gs x) = x := by
  have hle := cols_upTo_le x gs
  rw [lead, cols_append, cols_blanks]
  omega

@[simp] lemma units_lead (gs : List Glyph) (x : ℕ) :
    units (lead gs x) = units (upTo x gs) + (x - cols (upTo x gs)) := by
  rw [lead, units_append, units_blanks]

/-- What of the row a text that begins at column `x` is compared with. -/
def charsPrev (gs : List Glyph) (x : ℕ) : List UInt16 :=
  ((textOf gs).drop (units (upTo (x - 1) gs))).take (units (lead gs x) - units (upTo (x - 1) gs))

lemma joined_text {a b : List UInt16} {n : ℕ} (hn : 0 < n) (hle : n ≤ b.length) : a ++ b.take n ≠ [] := by
  intro h
  have hlength := congrArg List.length h
  rw [List.length_append, List.length_take, List.length_nil] at hlength
  omega

/-- The glyph before column `x` with the front of a text that joins it. -/
def joined (cwd : Clustering) (gs : List Glyph) (x : ℕ) (chars : List UInt16)
    (h : 0 < (cwd.join (charsPrev gs x) chars).1) : Glyph where
  text := (textOf (lead gs x)).drop (units (upTo (x - 1) gs)) ++ chars.take (cwd.join (charsPrev gs x) chars).1
  width := max 1 (cwd.join (charsPrev gs x) chars).2
  text_ne_nil := joined_text h (cwd.join_le _ _)
  width_pos := Clustering.width_pos _
  width_le := Clustering.width_le (cwd.join_width _ _)

/-- The length of the ASCII front of a text, as far as there are columns for it. -/
def asciiLength (chars : List UInt16) (room : ℕ) : ℕ := ((chars.take room).takeWhile (· < 0x80)).length

/-- The glyphs up to the end of a text that begins with no ASCII character. -/
def unicodeFront (cwd : Clustering) (gs : List Glyph) (x limit : ℕ) (chars : List UInt16) : List Glyph :=
  if h : 0 < (cwd.join (charsPrev gs x) chars).1 then
    if limit < cols (upTo (x - 1) gs) + (joined cwd gs x chars h).width then upTo (x - 1) gs
    else
      upTo (x - 1) gs ++ joined cwd gs x chars h ::
        cwd.glyphs chars (cwd.join (charsPrev gs x) chars).1 chars.length (cwd.join (charsPrev gs x) chars).1
          (limit - (cols (upTo (x - 1) gs) + (joined cwd gs x chars h).width))
  else lead gs x ++ cwd.glyphs chars 0 chars.length 0 (limit - x)

/-- The glyphs up to the end of a text that is written into the columns from `x` to `limit`. -/
def textFront (cwd : Clustering) (gs : List Glyph) (x limit : ℕ) (chars : List UInt16) : List Glyph :=
  if asciiLength chars (limit - x) < min chars.length (limit - x) then
    if asciiLength chars (limit - x) = 0 then unicodeFront cwd gs x limit chars
    else
      lead gs x ++ (narrows (chars.take (asciiLength chars (limit - x) - 1)) ++
        cwd.glyphs chars (asciiLength chars (limit - x) - 1) chars.length (asciiLength chars (limit - x) - 1)
          (limit - (x + (asciiLength chars (limit - x) - 1))))
  else lead gs x ++ narrows (chars.take (asciiLength chars (limit - x)))

/-- The glyphs `front`, spaces, and the glyphs that begin at column `k` or behind it. -/
def closed (gs front : List Glyph) (k : ℕ) : List Glyph :=
  front ++ (blanks (cols gs - cols (beyond k gs) - cols front) ++ beyond k gs)

/-- Where a written range ends: behind its glyphs, or at the limit when not all of the text was taken. -/
def textEnd (gs front : List Glyph) (x limit : ℕ) (chars : List UInt16) : ℕ :=
  if units front = units (lead gs x) + chars.length then cols front else limit

/-- **The row behind `ReplaceText`.** -/
def textWritten (cwd : Clustering) (gs : List Glyph) (x limit : ℕ) (chars : List UInt16) : List Glyph :=
  closed gs (textFront cwd gs x limit chars) (textEnd gs (textFront cwd gs x limit chars) x limit chars)

/-! ### Lists -/

lemma take_overwrite {β : Type} {l xs : List β} {i : ℕ} (h : i ≤ l.length) :
    (overwrite l i xs).take (i + xs.length) = l.take i ++ xs := by
  rw [overwrite, List.take_left']
  rw [List.length_append, List.length_take]
  omega

lemma drop_overwrite {β : Type} {l xs : List β} {i k : ℕ} (h : i ≤ l.length) (hk : i + xs.length ≤ k) :
    (overwrite l i xs).drop k = l.drop k := by
  have hlength : (l.take i ++ xs).length = i + xs.length := by
    rw [List.length_append, List.length_take]
    omega
  rw [overwrite, List.drop_append, List.drop_of_length_le (by omega), List.nil_append, List.drop_drop, hlength]
  congr 1
  omega

lemma take_add_of {β : Type} (l : List β) (i n : ℕ) : l.take (i + n) = l.take i ++ (l.drop i).take n :=
  List.take_add

/-! ### A write that goes on -/

namespace WriteHelper

variable {h : WriteHelper α} {r : Row α} {gs front : List Glyph} {it touched : ℕ}

/-- A write that goes on: the columns before `colEnd` stand for `front`, `it` code units of the text are taken,
and the columns from `touched` on are as they were. -/
structure Writing (h : WriteHelper α) (r : Row α) (front : List Glyph) (it touched : ℕ) : Prop where
  row : h.row = { r with charOffsets := h.row.charOffsets }
  length : h.row.charOffsets.length = r.columnCount + 1
  columns : cols front = h.colEnd
  inside : h.colEnd ≤ r.columnCount
  taken : units front = h.chBeg + it
  offsets : overwrite (h.row.charOffsets.take h.colEnd) h.colBegDirty (iota h.leadingSpaces h.chBegDirty) =
    columnsFrom 0 front
  leading : h.colBegDirty + h.leadingSpaces ≤ h.colEnd ∨ h.leadingSpaces = 0
  text : r.chars.take h.chBegDirty ++ (List.replicate h.leadingSpaces space ++ h.chars.take it) = textOf front
  untouched : ∀ k, touched ≤ k → h.row.charOffsets.drop k = r.charOffsets.drop k

/-- The offsets of one glyph. -/
lemma glyph_offsets {ch : ℕ} (hch : ch < 0x8000) (g : Glyph) (c : ℕ) :
    u16 ch :: List.replicate (c + g.width - (c + 1)) (u16 (ch ||| charOffsetsTrailer)) = columnsFrom ch [g] := by
  have htrailer : u16 (ch ||| charOffsetsTrailer) = ch + 0x8000 := by
    rw [charOffsetsTrailer, or_trailer hch]
    exact Nat.mod_eq_of_lt (by omega)
  have hcount : c + g.width - (c + 1) = g.width - 1 := by omega
  rw [u16_of_lt hch, htrailer, hcount]
  simp [columnsFrom]

/-- The offsets of more glyphs are written behind the ones there are. -/
theorem Writing.extend (hw : Writing h r front it touched) (new : List Glyph) {offsets : List ℕ} {touched' : ℕ}
    (hlength : offsets.length = r.columnCount + 1)
    (htake : offsets.take (h.colEnd + cols new) = h.row.charOffsets.take h.colEnd ++ columnsFrom (h.chBeg + it) new)
    (huntouched : ∀ k, touched' ≤ k → offsets.drop k = r.charOffsets.drop k)
    (hnew : h.chars.take (it + units new) = h.chars.take it ++ textOf new)
    (hfit : h.colEnd + cols new ≤ r.columnCount) :
    Writing { h with row := { h.row with charOffsets := offsets }, colEnd := h.colEnd + cols new } r (front ++ new)
      (it + units new) touched' := by
  have hinside : h.colEnd ≤ h.row.charOffsets.length := by
    have hold := hw.length
    omega
  refine ⟨?_, hlength, ?_, hfit, ?_, ?_, ?_, ?_, huntouched⟩
  · exact congrArg (fun row : Row α => { row with charOffsets := offsets }) hw.row
  · rw [cols_append, hw.columns]
  · rw [units_append, hw.taken, Nat.add_assoc]
  · have hlead : h.colBegDirty + (iota h.leadingSpaces h.chBegDirty).length ≤ (h.row.charOffsets.take h.colEnd).length ∨
        iota h.leadingSpaces h.chBegDirty = [] := by
      rw [length_iota, List.length_take, Nat.min_eq_left hinside]
      refine hw.leading.imp id fun hzero => ?_
      rw [hzero]
      rfl
    show overwrite (offsets.take (h.colEnd + cols new)) h.colBegDirty (iota h.leadingSpaces h.chBegDirty) = _
    rw [htake, overwrite_append hlead, hw.offsets, columnsFrom_append, hw.taken, Nat.zero_add]
  · exact hw.leading.imp (fun hle => hle.trans (Nat.le_add_right _ _)) id
  · rw [textOf_append, ← hw.text]
    show r.chars.take h.chBegDirty ++ (List.replicate h.leadingSpaces space ++ h.chars.take (it + units new)) = _
    rw [hnew]
    simp

/-- A glyph is put behind the glyphs there are. -/
theorem Writing.put (hw : Writing h r front it touched) (g : Glyph)
    (hg : h.chars.take (it + g.text.length) = h.chars.take it ++ g.text) (hfit : h.colEnd + g.width ≤ r.columnCount)
    (hshort : units front < 0x8000) :
    Writing (h.put (h.chBeg + it) (h.colEnd + g.width)) r (front ++ [g]) (it + g.text.length)
      (max touched (h.colEnd + g.width)) := by
  have hpos := g.width_pos
  have hinside : h.colEnd ≤ h.row.charOffsets.length := by
    have hlength := hw.length
    omega
  have hnew := @glyph_offsets (h.chBeg + it) (by rw [← hw.taken]; exact hshort) g h.colEnd
  have hsize : (columnsFrom (h.chBeg + it) [g]).length = g.width := by
    rw [length_columnsFrom]
    rfl
  have hput : h.put (h.chBeg + it) (h.colEnd + g.width) =
      { h with
        row := { h.row with charOffsets := overwrite h.row.charOffsets h.colEnd (columnsFrom (h.chBeg + it) [g]) }
        colEnd := h.colEnd + cols [g] } := by
    have hend : max (h.colEnd + 1) (h.colEnd + g.width) = h.colEnd + cols [g] := by
      show _ = h.colEnd + (g.width + 0)
      omega
    unfold WriteHelper.put
    rw [hnew, hend]
  have htake := @take_overwrite _ _ (columnsFrom (h.chBeg + it) [g]) _ hinside
  rw [hsize] at htake
  rw [hput]
  refine hw.extend [g] ?_ htake ?_ ?_ hfit
  · rw [length_overwrite (by rw [hsize, hw.length]; omega), hw.length]
  · intro k hk
    rw [drop_overwrite hinside (by rw [hsize]; omega), hw.untouched k (by omega)]
  · simpa [textOf] using hg

/-- **What `Finish` leaves of a write.** -/
theorem Writing.finish (hw : Writing h r front it touched) (hr : r.Holds gs) {k : ℕ} (hdirty : h.colEndDirty = k)
    (hconsumed : h.charsConsumed = it) (hit : it ≤ h.chars.length) (htouched : touched ≤ k) (hend : h.colEnd ≤ k)
    (hk : k ≤ r.columnCount) (hchBeg : h.chBeg = h.chBegDirty + h.leadingSpaces)
    (hchBegDirty : h.chBegDirty + units (beyond k gs) ≤ units gs) (hshort : units (closed gs front k) < 0x8000) :
    ∃ row, h.finish = .ok { h with row := row, colEndDirty := h.colEnd + h.trailing gs } ∧
      row.Holds (closed gs front k) ∧ row.columnCount = r.columnCount := by
  subst hdirty
  have htrailing : cols gs - cols (beyond h.colEndDirty gs) - cols front = h.trailing gs := by
    rw [hw.columns]
    rfl
  unfold closed at hshort ⊢
  rw [htrailing] at hshort ⊢
  have hsum : units front + h.trailing gs + units (beyond h.colEndDirty gs) < 0x8000 := by
    simp only [units_append, units_blanks] at hshort
    omega
  obtain ⟨row, hfinish, hholds, hfields⟩ := finish_holds front hr hw.row hw.columns hend hk hw.leading hchBeg
    hchBegDirty (by rw [hconsumed]; exact hit) (hw.untouched _ htouched) hw.offsets (by rw [hconsumed]; exact hw.text) hsum
  exact ⟨row, hfinish, hholds, by rw [hfields]⟩

/-- What the loops over a text leave alone. -/
structure Keeps (h h' : WriteHelper α) : Prop where
  chars : h'.chars = h.chars
  colBeg : h'.colBeg = h.colBeg
  colLimit : h'.colLimit = h.colLimit
  chBeg : h'.chBeg = h.chBeg
  chBegDirty : h'.chBegDirty = h.chBegDirty
  leadingSpaces : h'.leadingSpaces = h.leadingSpaces

lemma Keeps.trans {h' h'' : WriteHelper α} (hk : Keeps h h') (hk' : Keeps h' h'') : Keeps h h'' :=
  ⟨hk'.chars.trans hk.chars, hk'.colBeg.trans hk.colBeg, hk'.colLimit.trans hk.colLimit, hk'.chBeg.trans hk.chBeg,
    hk'.chBegDirty.trans hk.chBegDirty, hk'.leadingSpaces.trans hk.leadingSpaces⟩

/-- A text is laid out: its glyphs are in place, and the written range ends behind them, or at the limit when
not all of the text was taken. -/
structure LaidOut (h h' : WriteHelper α) (r : Row α) (front : List Glyph) (it : ℕ) : Prop where
  keeps : Keeps h h'
  writing : ∃ touched, Writing h' r front it touched ∧ touched ≤ h'.colEndDirty
  consumed : h'.charsConsumed = it
  taken : it ≤ h.chars.length
  dirty : h'.colEndDirty = if it = h.chars.length then cols front else h.colLimit
  limit : cols front ≤ h.colLimit

lemma LaidOut.after {t h' : WriteHelper α} (hl : LaidOut t h' r front it) (hk : Keeps h t) :
    LaidOut h h' r front it where
  keeps := hk.trans hl.keeps
  writing := hl.writing
  consumed := hl.consumed
  taken := hk.chars ▸ hl.taken
  dirty := by rw [hl.dirty, hk.chars, hk.colLimit]
  limit := hk.colLimit ▸ hl.limit

lemma Writing.marked (hw : Writing h r front it touched) (colEndDirty charsConsumed : ℕ) :
    Writing { h with colEndDirty, charsConsumed } r front it touched :=
  ⟨hw.row, hw.length, hw.columns, hw.inside, hw.taken, hw.offsets, hw.leading, hw.text, hw.untouched⟩

/-- The loop over clusters. -/
theorem replaceClusters_laidOut (cwd : Clustering) (start : ℕ) (iterations : ℕ) (hw : Writing h r front it touched)
    (hlimit : h.colLimit ≤ r.columnCount) (hcount : r.columnCount < 0x8000) (hend : h.colEnd ≤ h.colLimit)
    (htouched : touched ≤ h.colLimit) (hstale : touched ≤ h.colEnd + 1)
    (htouched' : touched ≤ h.colEnd ∨ it < h.chars.length) (hit : it ≤ h.chars.length) (henough : h.chars.length - it ≤ iterations)
    (hshort : units front + units (cwd.glyphs h.chars start iterations it (h.colLimit - h.colEnd)) < 0x8000) :
    LaidOut h (replaceClusters cwd start iterations it h) r
      (front ++ cwd.glyphs h.chars start iterations it (h.colLimit - h.colEnd))
      (it + units (cwd.glyphs h.chars start iterations it (h.colLimit - h.colEnd))) := by
  induction iterations generalizing h front it touched with
  | zero =>
    obtain rfl : it = h.chars.length := by omega
    have hfits : touched ≤ h.colEnd := htouched'.resolve_right (lt_irrefl _)
    unfold replaceClusters Clustering.glyphs
    rw [List.append_nil, units_nil, Nat.add_zero]
    refine ⟨⟨rfl, rfl, rfl, rfl, rfl, rfl⟩, ⟨touched, hw.marked _ _, hfits⟩, rfl, le_refl _, ?_, ?_⟩
    · rw [if_pos rfl, hw.columns]
    · rw [hw.columns]
      exact hend
  | succ iterations ih =>
    unfold replaceClusters
    by_cases hmore : it < h.chars.length
    · have hglyph : (cwd.glyph h.chars start it hmore).width = max 1 (cwd.next h.chars start it).2 := rfl
      have hlength := @Clustering.length_glyph cwd _ start _ hmore
      have hwidth := (cwd.glyph h.chars start it hmore).width_le
      have hwidthPos := (cwd.glyph h.chars start it hmore).width_pos
      have hnew : u16 (h.colEnd + max 1 (cwd.next h.chars start it).2) =
          h.colEnd + (cwd.glyph h.chars start it hmore).width := by
        rw [hglyph]
        exact Nat.mod_eq_of_lt (by omega)
      have htext : h.chars.take (it + (cwd.glyph h.chars start it hmore).text.length) =
          h.chars.take it ++ (cwd.glyph h.chars start it hmore).text := by
        rw [hlength, take_add_of]
        rfl
      have hnext := cwd.next_le h.chars start it hmore
      rw [if_pos hmore]
      dsimp only
      rw [hnew, ← hlength]
      unfold Clustering.glyphs at hshort ⊢
      rw [dif_pos hmore] at hshort ⊢
      generalize cwd.glyph h.chars start it hmore = g at *
      by_cases hfit : h.colLimit < h.colEnd + g.width
      · rw [if_pos hfit, if_neg (by omega), List.append_nil, units_nil, Nat.add_zero]
        refine ⟨⟨rfl, rfl, rfl, rfl, rfl, rfl⟩, ⟨touched, hw.marked _ _, htouched⟩, rfl, hit, ?_, ?_⟩
        · rw [if_neg (Nat.ne_of_lt hmore)]
        · rw [hw.columns]
          exact hend
      · rw [if_pos (by omega)] at hshort
        rw [if_neg hfit, if_pos (by omega)]
        rw [units_cons] at hshort
        have hput := hw.put g htext (by omega) (by omega)
        have hcolEnd : (h.put (h.chBeg + it) (h.colEnd + g.width)).colEnd = h.colEnd + g.width := by
          show max (h.colEnd + 1) (h.colEnd + g.width) = _
          omega
        have hroom : h.colLimit - h.colEnd - g.width =
            (h.put (h.chBeg + it) (h.colEnd + g.width)).colLimit -
              (h.put (h.chBeg + it) (h.colEnd + g.width)).colEnd := by
          rw [hcolEnd]
          show _ = h.colLimit - _
          omega
        rw [hroom] at hshort ⊢
        have hgpos := g.length_pos
        have hstale' : max touched (h.colEnd + g.width) ≤ (h.put (h.chBeg + it) (h.colEnd + g.width)).colEnd := by
          rw [hcolEnd]
          omega
        have hunits : units (front ++ [g]) = units front + g.text.length := by
          rw [units_append]
          rfl
        have hrest := ih (h := h.put (h.chBeg + it) (h.colEnd + g.width)) hput hlimit
          (by rw [hcolEnd]; show _ ≤ h.colLimit; omega) (by show _ ≤ h.colLimit; omega) (by omega) (.inl hstale')
          (by show _ ≤ h.chars.length; omega) (by show h.chars.length - _ ≤ _; omega) (by
            rw [hunits]
            show units front + g.text.length + units (cwd.glyphs h.chars _ _ _ _) < _
            omega)
        have hchars : (h.put (h.chBeg + it) (h.colEnd + g.width)).chars = h.chars := rfl
        have hcolLimit : (h.put (h.chBeg + it) (h.colEnd + g.width)).colLimit = h.colLimit := rfl
        rw [hchars, List.append_assoc, Nat.add_assoc] at hrest
        rw [units_cons]
        exact hrest.after ⟨rfl, rfl, rfl, rfl, rfl, rfl⟩
    · obtain rfl : it = h.chars.length := by omega
      have hfits : touched ≤ h.colEnd := htouched'.resolve_right hmore
      rw [if_neg hmore]
      unfold Clustering.glyphs
      rw [dif_neg hmore, List.append_nil, units_nil, Nat.add_zero]
      refine ⟨⟨rfl, rfl, rfl, rfl, rfl, rfl⟩, ⟨touched, hw.marked _ _, hfits⟩, rfl, le_refl _, ?_, ?_⟩
      · rw [if_pos rfl, hw.columns]
      · rw [hw.columns]
        exact hend

/-! ### `ReplaceText` -/

section Text

variable {x : ℕ} {chars : List UInt16} {columnBegin columnLimit : ℕ}

lemma upTo_text (hr : r.Holds gs) (x : ℕ) : r.chars.take (units (upTo x gs)) = textOf (upTo x gs) := by
  obtain ⟨rest, hrest⟩ : upTo x gs <+: gs := fitting_isPrefix _ x gs
  have hpart : r.Holds ([] ++ (upTo x gs ++ rest)) := by
    rw [List.nil_append, hrest]
    exact hr
  simpa using hpart.text_part

/-- A new helper has the glyphs before its column in place. -/
lemma create_writing (hr : r.Holds gs) (hx : r.clampedColumnInclusive columnBegin = x)
    (hshort : units (lead gs x) < 0x8000) (chars : List UInt16) :
    (create r columnBegin columnLimit chars).chBegDirty = units (upTo x gs) ∧
      (create r columnBegin columnLimit chars).leadingSpaces = x - cols (upTo x gs) ∧
      (create r columnBegin columnLimit chars).colBegDirty = cols (upTo x gs) ∧
      (create r columnBegin columnLimit chars).chBeg = units (lead gs x) ∧
      (create r columnBegin columnLimit chars).colEnd = x ∧
      Writing (create r columnBegin columnLimit chars) r (lead gs x) 0 0 := by
  have hxle : x ≤ r.columnCount := hx ▸ Nat.min_le_right _ _
  have hle := cols_upTo_le x gs
  have hdirty : (create r columnBegin columnLimit chars).chBegDirty = units (upTo x gs) := by
    show r.uncheckedCharOffset (r.clampedColumnInclusive columnBegin) = _
    rw [hx, hr.uncheckedCharOffset hxle]
  have hback : (create r columnBegin columnLimit chars).colBegDirty = cols (upTo x gs) := by
    show r.adjustBackward (r.clampedColumnInclusive columnBegin) = _
    rw [hx, hr.adjustBackward hxle]
  have hleading : (create r columnBegin columnLimit chars).leadingSpaces = x - cols (upTo x gs) := by
    show r.clampedColumnInclusive columnBegin - (create r columnBegin columnLimit chars).colBegDirty = _
    rw [hx, hback]
  have hchBeg : (create r columnBegin columnLimit chars).chBeg = units (lead gs x) := by
    show u16 ((create r columnBegin columnLimit chars).chBegDirty +
      (create r columnBegin columnLimit chars).leadingSpaces) = _
    rw [hdirty, hleading, ← units_lead, u16_of_lt hshort]
  have hend : (create r columnBegin columnLimit chars).colEnd = x := hx
  refine ⟨hdirty, hleading, hback, hchBeg, hend, rfl, ?_, ?_, ?_, ?_, ?_, ?_, ?_, fun _ _ => rfl⟩
  · show r.charOffsets.length = _
    rw [hr.offsets, length_offsetsFrom, hr.columns]
  · rw [cols_lead, hend]
  · rw [hend]
    exact hxle
  · rw [hchBeg, Nat.add_zero]
  · have hoffsets := @overwrite_leading gs _ (hr.columns ▸ hxle) []
    rw [List.append_nil, List.append_nil] at hoffsets
    rw [hend, hback, hleading, hdirty]
    show overwrite (r.charOffsets.take x) _ _ = _
    rw [hr.offsets, hoffsets, lead, columnsFrom_append, Nat.zero_add, iota_eq]
    rw [units_lead] at hshort
    omega
  · rw [hback, hleading, hend]
    left
    omega
  · rw [hdirty, hleading, upTo_text hr, List.take_zero, List.append_nil, lead, textOf_append, textOf_blanks]

/-- A front part with no more columns is a front part of the glyphs before a column. -/
lemma prefix_upTo {f : List Glyph} {n : ℕ} (h : f <+: gs) (hn : cols f ≤ n) : f <+: upTo n gs := by
  have hmin := upTo_min (cols f) n gs
  rw [Nat.min_eq_left hn, upTo_cols_of_isPrefix h] at hmin
  rw [← hmin]
  exact fitting_isPrefix _ _ _

/-- At most one column of a glyph is cut off. -/
lemma leading_le (hx : x ≤ cols gs) : x - cols (upTo x gs) ≤ 1 := by
  rcases upTo_spec x gs with hall | ⟨g, rest, -, hg⟩
  · rw [hall]
    omega
  · have := g.width_le
    omega

/-- Where a glyph is cut, it is the one before the column. -/
lemma upTo_of_cut (hcut : x - cols (upTo x gs) ≠ 0) (hx : x ≤ cols gs) : upTo (x - 1) gs = upTo x gs := by
  have hle := leading_le hx
  have hup : upTo x gs <+: upTo (x - 1) gs := prefix_upTo (fitting_isPrefix _ _ _) (by omega)
  have hle' := cols_upTo_le (x - 1) gs
  have hdown : upTo (x - 1) gs <+: upTo x gs := prefix_upTo (fitting_isPrefix _ _ _) (by omega)
  exact hdown.eq_of_length_le hup.length_le

lemma units_lead_le (hx : x ≤ cols gs) : units (lead gs x) ≤ units gs := by
  rw [units_lead]
  rcases upTo_spec x gs with hall | ⟨g, rest, hsplit, hg⟩
  · rw [hall]
    omega
  · have hle := leading_le hx
    have hlength := g.length_pos
    have hunits := congrArg units hsplit
    rw [units_append, units_cons] at hunits
    omega

lemma prefix_lead (n : ℕ) (h : n ≤ x) : upTo n gs <+: lead gs x := by
  have hup : upTo n gs <+: upTo x gs := prefix_upTo (upTo_isPrefix n gs) ((cols_upTo_le n gs).trans h)
  exact hup.trans (List.prefix_append _ _)

/-- The text before a column, from the glyph before it on. -/
lemma textOf_lead (gs : List Glyph) (x : ℕ) :
    textOf (lead gs x) = textOf (upTo (x - 1) gs) ++ (textOf (lead gs x)).drop (units (upTo (x - 1) gs)) := by
  obtain ⟨rest, hrest⟩ : upTo (x - 1) gs <+: lead gs x := prefix_lead (x - 1) (Nat.sub_le x 1)
  rw [← hrest, textOf_append, ← length_textOf, List.drop_left]

lemma asciiLength_le (chars : List UInt16) (room : ℕ) : asciiLength chars room ≤ min chars.length room := by
  have hle := (List.takeWhile_prefix (l := chars.take room) fun c : UInt16 => decide (c < 0x80)).length_le
  rw [List.length_take] at hle
  unfold asciiLength
  omega

/-- The ASCII front of a text is in place; one more column may have been written. -/
lemma Writing.ascii (hw : Writing h r front 0 0) {n m : ℕ} (hm : m ≤ n) (hn : n ≤ h.chars.length)
    (hfit : h.colEnd + n ≤ r.columnCount) (hshort : units front + m < 0x8000) :
    Writing { h with
        row := { h.row with charOffsets := overwrite h.row.charOffsets h.colEnd (iota n h.chBeg) }
        colEnd := h.colEnd + m } r (front ++ narrows (h.chars.take m)) m (h.colEnd + n) := by
  have hinside : h.colEnd ≤ h.row.charOffsets.length := by
    have hlength := hw.length
    omega
  have htaken := hw.taken
  have hlength : (h.chars.take m).length = m := by
    rw [List.length_take]
    omega
  have hoffsets : (iota n h.chBeg).take m = columnsFrom (h.chBeg + 0) (narrows (h.chars.take m)) := by
    have hsplit : iota n h.chBeg = iota m h.chBeg ++ (iota n h.chBeg).drop m := by
      have htake : (iota n h.chBeg).take m = iota m h.chBeg := by
        unfold iota
        rw [← List.map_take, List.take_range, Nat.min_eq_left hm]
      rw [← htake, List.take_append_drop]
    rw [hsplit, List.take_left' (length_iota m _), columnsFrom_narrows, hlength, Nat.add_zero, iota_eq (by omega)]
  have htake : (overwrite h.row.charOffsets h.colEnd (iota n h.chBeg)).take (h.colEnd + m) =
      h.row.charOffsets.take h.colEnd ++ columnsFrom (h.chBeg + 0) (narrows (h.chars.take m)) := by
    have hall := @take_overwrite _ _ (iota n h.chBeg) _ hinside
    rw [length_iota] at hall
    have hpart := congrArg (List.take (h.colEnd + m)) hall
    rw [List.take_take, Nat.min_eq_left (by omega)] at hpart
    rw [hpart, List.take_append, List.length_take, Nat.min_eq_left hinside, List.take_of_length_le
      (by rw [List.length_take]; omega), Nat.add_sub_cancel_left, hoffsets]
  have hmore := @Writing.extend _ _ _ _ _ _ hw (narrows (h.chars.take m))
    (overwrite h.row.charOffsets h.colEnd (iota n h.chBeg)) (h.colEnd + n) (by rw [length_overwrite (by rw [length_iota, hw.length]; omega), hw.length])
    (by rw [cols_narrows, hlength]; exact htake)
    (fun k hk => by rw [drop_overwrite hinside (by rw [length_iota]; omega), hw.untouched k (Nat.zero_le k)])
    (by rw [units_narrows, hlength, textOf_narrows, Nat.zero_add, List.take_zero, List.nil_append])
    (by rw [cols_narrows, hlength]; omega)
  rw [cols_narrows, units_narrows, hlength, Nat.zero_add] at hmore
  exact hmore

/-- What the text is compared with. -/
lemma charsPrev_eq (hr : r.Holds gs) (hx : x ≤ cols gs) :
    (r.chars.drop (units (upTo (x - 1) gs))).take (units (lead gs x) - units (upTo (x - 1) gs)) = charsPrev gs x := by
  have hle := units_lead_le hx
  rw [charsPrev, ← hr.text, List.drop_take, List.take_take, Nat.min_eq_left (by omega)]

/-- The column before a column, and the offset of its glyph. -/
lemma previous_column (hr : r.Holds gs) (hx : x ≤ cols gs) :
    stepBack r.charOffsets (x - 1) = cols (upTo (x - 1) gs) ∧
      r.uncheckedCharOffset (cols (upTo (x - 1) gs)) = units (upTo (x - 1) gs) := by
  have hle := cols_upTo_le (x - 1) gs
  have hcolumns := hr.columns
  refine ⟨?_, ?_⟩
  · rw [hr.offsets, stepBack_offsetsFrom (by simpa using hr.short) (by omega)]
  · rw [hr.uncheckedCharOffset (by omega), upTo_cols_of_isPrefix (upTo_isPrefix _ _)]

/-- The glyph before the column and the front of the text are put in place as one glyph. -/
lemma joined_writing (hr : r.Holds gs) (hx : x ≤ cols gs) (cwd : Clustering)
    (hw : Writing h r (lead gs x) 0 0) (hdirty : h.chBegDirty = units (upTo x gs))
    (hleading : h.leadingSpaces = x - cols (upTo x gs))
    (hjoin : 0 < (cwd.join (charsPrev gs x) h.chars).1)
    (hfit : cols (upTo (x - 1) gs) + (joined cwd gs x h.chars hjoin).width ≤ r.columnCount)
    (hshort : units (lead gs x) < 0x8000) :
    Writing ({ h with colBegDirty := cols (upTo (x - 1) gs), colEnd := cols (upTo (x - 1) gs) }.put
        (units (upTo (x - 1) gs)) (cols (upTo (x - 1) gs) + (joined cwd gs x h.chars hjoin).width)) r
      (upTo (x - 1) gs ++ [joined cwd gs x h.chars hjoin]) (cwd.join (charsPrev gs x) h.chars).1
      (cols (upTo (x - 1) gs) + (joined cwd gs x h.chars hjoin).width) := by
  have hjoinLe := cwd.join_le (charsPrev gs x) h.chars
  have hprefix := units_le_of_isPrefix (@prefix_lead gs _ (x - 1) (Nat.sub_le x 1))
  have hleadingLe := leading_le hx
  have htext : (joined cwd gs x h.chars hjoin).text = (textOf (lead gs x)).drop (units (upTo (x - 1) gs)) ++
      h.chars.take (cwd.join (charsPrev gs x) h.chars).1 := rfl
  have hunits : units (upTo (x - 1) gs) + (joined cwd gs x h.chars hjoin).text.length =
      units (lead gs x) + (cwd.join (charsPrev gs x) h.chars).1 := by
    rw [htext, List.length_append, List.length_drop, length_textOf, List.length_take]
    omega
  have hchBeg : h.chBeg = units (lead gs x) := by
    have htaken := hw.taken
    omega
  have hwidthPos := (joined cwd gs x h.chars hjoin).width_pos
  generalize joined cwd gs x h.chars hjoin = g at *
  generalize (cwd.join (charsPrev gs x) h.chars).1 = len at *
  have hsize : (columnsFrom (units (upTo (x - 1) gs)) [g]).length = g.width := by
    rw [length_columnsFrom]
    rfl
  have hrow : h.row.charOffsets = r.charOffsets := by
    have huntouched := hw.untouched 0 (le_refl 0)
    rwa [List.drop_zero, List.drop_zero] at huntouched
  have hinside : cols (upTo (x - 1) gs) ≤ r.charOffsets.length := by
    rw [hr.offsets, length_offsetsFrom, hr.columns]
    omega
  have hnew := @glyph_offsets (units (upTo (x - 1) gs)) (by omega) g (cols (upTo (x - 1) gs))
  have hfront : r.charOffsets.take (cols (upTo (x - 1) gs)) = columnsFrom 0 (upTo (x - 1) gs) := by
    rw [hr.offsets, take_offsetsFrom_of_isPrefix (upTo_isPrefix _ _)]
  have hend : max (cols (upTo (x - 1) gs) + 1) (cols (upTo (x - 1) gs) + g.width) =
      cols (upTo (x - 1) gs) + g.width := by omega
  have hput : { h with colBegDirty := cols (upTo (x - 1) gs), colEnd := cols (upTo (x - 1) gs) }.put
        (units (upTo (x - 1) gs)) (cols (upTo (x - 1) gs) + g.width) =
      { h with
        row :=
          { h.row with
            charOffsets := overwrite r.charOffsets (cols (upTo (x - 1) gs))
              (columnsFrom (units (upTo (x - 1) gs)) [g]) }
        colBegDirty := cols (upTo (x - 1) gs)
        colEnd := cols (upTo (x - 1) gs) + g.width } := by
    unfold WriteHelper.put
    dsimp only
    rw [hnew, hend, hrow]
  have htake := @take_overwrite _ _ (columnsFrom (units (upTo (x - 1) gs)) [g]) _ hinside
  rw [hsize, hfront] at htake
  rw [hput]
  refine ⟨?_, ?_, ?_, hfit, ?_, ?_, ?_, ?_, ?_⟩
  · exact congrArg (fun row : Row α =>
      { row with
        charOffsets := overwrite r.charOffsets (cols (upTo (x - 1) gs)) (columnsFrom (units (upTo (x - 1) gs)) [g]) })
      hw.row
  · show (overwrite _ _ _).length = _
    rw [length_overwrite, hr.offsets, length_offsetsFrom, hr.columns]
    rw [hsize, hr.offsets, length_offsetsFrom, hr.columns]
    omega
  · rw [cols_append]
    rfl
  · rw [units_append]
    show units (upTo (x - 1) gs) + (g.text.length + 0) = h.chBeg + len
    omega
  · show overwrite (List.take (cols (upTo (x - 1) gs) + g.width) (overwrite _ _ _)) (cols (upTo (x - 1) gs))
      (iota h.leadingSpaces h.chBegDirty) = _
    rw [htake, columnsFrom_append, Nat.zero_add, hleading, hdirty]
    by_cases hcut : x - cols (upTo x gs) = 0
    · rw [hcut]
      exact overwrite_nil _ _
    · -- the cut glyph's first column is written once more
      have hone : x - cols (upTo x gs) = 1 := by omega
      have hsame := upTo_of_cut hcut hx
      have hiota : iota 1 (units (upTo x gs)) = [units (upTo (x - 1) gs)] := by
        rw [hsame]
        show [u16 (units (upTo x gs) + 0)] = _
        rw [Nat.add_zero, u16_of_lt]
        rw [hsame] at hprefix
        omega
      rw [hone, hiota]
      exact overwrite_middle (m := [units (upTo (x - 1) gs)]) (length_columnsFrom 0 _).symm rfl
  · rw [hleading]
    left
    show cols (upTo (x - 1) gs) + _ ≤ cols (upTo (x - 1) gs) + g.width
    omega
  · have hold := hw.text
    rw [List.take_zero, List.append_nil] at hold
    show r.chars.take h.chBegDirty ++ (List.replicate h.leadingSpaces space ++ h.chars.take len) = _
    rw [← List.append_assoc, hold, textOf_append, textOf_cons, textOf_nil, List.append_nil, htext, ← List.append_assoc,
      ← textOf_lead]
  · intro k hk
    show (overwrite _ _ _).drop k = _
    rw [drop_overwrite hinside (by rw [hsize]; exact hk)]

/-- A text that begins with no ASCII character. -/
lemma replaceTextUnicode_laidOut (hr : r.Holds gs) (cwd : Clustering) {limit : ℕ} (hlt : x < limit)
    (hlimit : limit ≤ r.columnCount) (hcount : r.columnCount < 0x8000) (hw : Writing h r (lead gs x) 0 0)
    (hrow : h.row = r) (hcolBeg : h.colBeg = x) (hcolEnd : h.colEnd = x) (hcolLimit : h.colLimit = limit)
    (hdirty : h.chBegDirty = units (upTo x gs)) (hleading : h.leadingSpaces = x - cols (upTo x gs))
    (hchars : 0 < h.chars.length)
    (hshort : units (unicodeFront cwd gs x limit h.chars) < 0x8000) :
    ∃ it, LaidOut h (h.replaceTextUnicode cwd 0) r (unicodeFront cwd gs x limit h.chars) it := by
  subst hrow hcolBeg hcolLimit
  have hxcols : h.colBeg ≤ cols gs := by
    rw [hr.columns]
    omega
  have hgs := hr.short
  have hleadLe := units_lead_le hxcols
  have hlePrev := cols_upTo_le (h.colBeg - 1) gs
  have hchBeg : h.chBeg = units (lead gs h.colBeg) := by
    have htaken := hw.taken
    omega
  obtain ⟨hprev, hprevOffset⟩ := previous_column hr hxcols
  have hcharsPrev : (h.row.chars.drop (units (upTo (h.colBeg - 1) gs))).take
      (h.chBeg - units (upTo (h.colBeg - 1) gs)) = charsPrev gs h.colBeg := by rw [hchBeg, charsPrev_eq hr hxcols]
  unfold replaceTextUnicode
  rw [if_pos rfl]
  dsimp only
  rw [hprev, hprevOffset, hcharsPrev]
  unfold unicodeFront at hshort ⊢
  by_cases hjoin : 0 < (cwd.join (charsPrev gs h.colBeg) h.chars).1
  · rw [dif_pos hjoin] at hshort ⊢
    rw [if_pos hjoin]
    have hwidth : (joined cwd gs h.colBeg h.chars hjoin).width = max 1 (cwd.join (charsPrev gs h.colBeg) h.chars).2 := rfl
    have hwidthLe := (joined cwd gs h.colBeg h.chars hjoin).width_le
    have hjoinLe := cwd.join_le (charsPrev gs h.colBeg) h.chars
    have hnew : u16 (cols (upTo (h.colBeg - 1) gs) + max 1 (cwd.join (charsPrev gs h.colBeg) h.chars).2) =
        cols (upTo (h.colBeg - 1) gs) + (joined cwd gs h.colBeg h.chars hjoin).width := by
      rw [hwidth]
      exact Nat.mod_eq_of_lt (by omega)
    rw [hnew]
    by_cases hfit : h.colLimit < cols (upTo (h.colBeg - 1) gs) + (joined cwd gs h.colBeg h.chars hjoin).width
    · -- only at the first column: before any other one there is room for two columns
      rw [if_pos hfit]
      rw [if_pos hfit] at hshort ⊢
      have hfirst : h.colBeg = 0 := by omega
      have hnil : upTo (h.colBeg - 1) gs = [] := by
        by_contra hne
        have hpos := cols_pos hne
        omega
      have hlead : lead gs h.colBeg = [] := by
        rw [hfirst] at hnil ⊢
        have hnil' : upTo 0 gs = [] := hnil
        rw [lead, hnil']
        rfl
      have hspaces : h.leadingSpaces = 0 := by rw [hleading, hfirst, Nat.zero_sub]
      rw [hlead] at hw
      rw [hnil]
      have hcut : Writing { h with colBegDirty := 0, colEnd := 0 } h.row [] 0 0 := by
        have htaken := hw.taken
        have htext := hw.text
        refine ⟨hw.row, hw.length, rfl, Nat.zero_le _, htaken, ?_, .inr hspaces, htext, hw.untouched⟩
        show overwrite (h.row.charOffsets.take 0) 0 (iota h.leadingSpaces h.chBegDirty) = []
        rw [hspaces]
        exact overwrite_nil _ _
      refine ⟨0, ⟨rfl, rfl, rfl, rfl, rfl, rfl⟩, ⟨0, hcut.marked _ _, Nat.zero_le _⟩, rfl, Nat.zero_le _, ?_, Nat.zero_le _⟩
      rw [if_neg (by omega)]
    · rw [if_neg hfit]
      rw [if_neg hfit] at hshort ⊢
      have hjoined := joined_writing hr hxcols cwd hw hdirty hleading hjoin (by omega) (by omega)
      have hwidthPos := (joined cwd gs h.colBeg h.chars hjoin).width_pos
      generalize joined cwd gs h.colBeg h.chars hjoin = g at *
      generalize (cwd.join (charsPrev gs h.colBeg) h.chars).1 = len at *
      have hputEnd : ({ h with colBegDirty := cols (upTo (h.colBeg - 1) gs), colEnd := cols (upTo (h.colBeg - 1) gs) }.put
          (units (upTo (h.colBeg - 1) gs)) (cols (upTo (h.colBeg - 1) gs) + g.width)).colEnd =
          cols (upTo (h.colBeg - 1) gs) + g.width := by
        show max (cols (upTo (h.colBeg - 1) gs) + 1) (cols (upTo (h.colBeg - 1) gs) + g.width) = _
        omega
      generalize hput : { h with colBegDirty := cols (upTo (h.colBeg - 1) gs), colEnd := cols (upTo (h.colBeg - 1) gs) }.put
          (units (upTo (h.colBeg - 1) gs)) (cols (upTo (h.colBeg - 1) gs) + g.width) = t at *
      have htchars : t.chars = h.chars := by rw [← hput]; rfl
      have htlimit : t.colLimit = h.colLimit := by rw [← hput]; rfl
      have htkeeps : Keeps h t := by
        rw [← hput]
        exact ⟨rfl, rfl, rfl, rfl, rfl, rfl⟩
      have hroom : h.colLimit - (cols (upTo (h.colBeg - 1) gs) + g.width) = t.colLimit - t.colEnd := by rw [htlimit, hputEnd]
      have hassoc : upTo (h.colBeg - 1) gs ++ g :: cwd.glyphs h.chars len h.chars.length len (t.colLimit - t.colEnd) =
          (upTo (h.colBeg - 1) gs ++ [g]) ++ cwd.glyphs t.chars len h.chars.length len (t.colLimit - t.colEnd) := by
        rw [htchars]
        simp
      rw [hroom, hassoc] at hshort ⊢
      rw [units_append] at hshort
      have hlaid := replaceClusters_laidOut cwd len h.chars.length hjoined (by omega) hcount (by omega)
        (by omega) (by omega) (.inl (by omega)) (by rw [htchars]; omega) (by rw [htchars]; omega) hshort
      exact ⟨_, hlaid.after htkeeps⟩
  · rw [dif_neg hjoin] at hshort ⊢
    rw [if_neg hjoin]
    rw [units_append] at hshort
    have hroom : h.colLimit - h.colBeg = h.colLimit - h.colEnd := by rw [hcolEnd]
    rw [hroom] at hshort ⊢
    exact ⟨_, replaceClusters_laidOut cwd 0 _ hw (by omega) hcount (by omega) (Nat.zero_le _) (Nat.zero_le _)
      (.inr hchars) (Nat.zero_le _) (Nat.sub_le _ _) hshort⟩

/-- **The text is laid out.** -/
theorem replaceText_laidOut (hr : r.Holds gs) (cwd : Clustering) {limit : ℕ}
    (hx : r.clampedColumnInclusive columnBegin = x) (hlimit : r.clampedColumnInclusive columnLimit = limit)
    (hlt : x < limit) (hchars : 0 < chars.length) (hcount : r.columnCount < 0x8000)
    (hshort : units (textFront cwd gs x limit chars) < 0x8000) :
    ∃ it, LaidOut (create r columnBegin columnLimit chars) ((create r columnBegin columnLimit chars).replaceText cwd) r
      (textFront cwd gs x limit chars) it := by
  have hlimitLe : limit ≤ r.columnCount := hlimit ▸ Nat.min_le_right _ _
  have hxcols : x ≤ cols gs := by
    rw [hr.columns]
    omega
  have hleadLe := units_lead_le hxcols
  have hgs := hr.short
  obtain ⟨hdirty, hleading, hback, hchBeg, hcolEnd, hw⟩ :=
    @create_writing _ _ _ _ _ columnLimit hr hx (by omega) chars
  have hcharsEq : (create r columnBegin columnLimit chars).chars = chars := rfl
  have hcolLimit : (create r columnBegin columnLimit chars).colLimit = limit := hlimit
  have hcolBeg : (create r columnBegin columnLimit chars).colBeg = x := hx
  have hrow : (create r columnBegin columnLimit chars).row = r := rfl
  generalize create r columnBegin columnLimit chars = h at *
  subst hcharsEq
  have hn : h.asciiFront.length = asciiLength h.chars (limit - x) := by
    rw [asciiFront, hcolLimit, hcolBeg]
    rfl
  have hroom : h.colLimit - h.colBeg = limit - x := by rw [hcolLimit, hcolBeg]
  obtain ⟨hnChars, hnRoom⟩ := Nat.le_min.mp (asciiLength_le h.chars (limit - x))
  unfold replaceText
  dsimp only
  rw [hn, hroom]
  unfold textFront at hshort ⊢
  generalize asciiLength h.chars (limit - x) = n at *
  by_cases hmore : n < min h.chars.length (limit - x)
  · rw [if_pos hmore] at hshort ⊢
    rw [if_pos hmore]
    obtain ⟨hltChars, hltRoom⟩ := Nat.lt_min.mp hmore
    clear hmore
    by_cases hzero : n = 0
    · subst hzero
      rw [if_pos rfl] at hshort ⊢
      have hsame : { h with
          row := { h.row with charOffsets := overwrite h.row.charOffsets h.colEnd (iota 0 h.chBeg) }
          colEnd := h.colEnd + 0 } = h := by
        rw [show iota 0 h.chBeg = [] from rfl, overwrite_nil]
        rfl
      rw [hsame]
      exact replaceTextUnicode_laidOut hr cwd hlt hlimitLe hcount hw hrow hcolBeg hcolEnd hcolLimit hdirty hleading
        hchars hshort
    · rw [if_neg hzero] at hshort ⊢
      unfold replaceTextUnicode
      rw [if_neg hzero]
      have htake : min (n - 1) h.chars.length = n - 1 := Nat.min_eq_left (by omega)
      simp only [units_append, units_narrows, List.length_take, htake] at hshort
      have hascii := hw.ascii (n := n) (m := n - 1) (Nat.sub_le n 1) (by omega) (by omega) (by omega)
      have hback' : h.colEnd + n - 1 = h.colEnd + (n - 1) := by omega
      dsimp only
      rw [hback']
      generalize ht : { h with
          row := { h.row with charOffsets := overwrite h.row.charOffsets h.colEnd (iota n h.chBeg) }
          colEnd := h.colEnd + (n - 1) } = t at *
      have hkeeps : Keeps h t := by
        rw [← ht]
        exact ⟨rfl, rfl, rfl, rfl, rfl, rfl⟩
      have htEnd : t.colEnd = x + (n - 1) := by
        rw [← ht, ← hcolEnd]
      have htLimit : t.colLimit = limit := hkeeps.colLimit.trans hcolLimit
      have hassoc : lead gs x ++ (narrows (h.chars.take (n - 1)) ++ cwd.glyphs h.chars (n - 1) h.chars.length (n - 1)
          (limit - (x + (n - 1)))) = lead gs x ++ narrows (h.chars.take (n - 1)) ++
            cwd.glyphs t.chars (n - 1) h.chars.length (n - 1) (t.colLimit - t.colEnd) := by
        rw [hkeeps.chars, htLimit, htEnd, List.append_assoc]
      rw [hassoc]
      have hlaid := replaceClusters_laidOut cwd (n - 1) h.chars.length hascii (by omega) hcount
        (by omega) (by omega) (by omega) (.inr (by rw [hkeeps.chars]; omega)) (by rw [hkeeps.chars]; omega)
        (by rw [hkeeps.chars]; omega) (by
          rw [hkeeps.chars, htLimit, htEnd]
          simp only [units_append, units_narrows, List.length_take, htake]
          omega)
      exact ⟨_, hlaid.after hkeeps⟩
  · rw [if_neg hmore] at hshort ⊢
    rw [if_neg hmore]
    have hdone : h.chars.length ≤ n ∨ limit - x ≤ n := by omega
    clear hmore
    simp only [units_append, units_narrows, List.length_take, Nat.min_eq_left hnChars] at hshort
    have hascii := hw.ascii (n := n) (m := n) (le_refl n) (by omega) (by omega) (by omega)
    have hcols : cols (lead gs x ++ narrows (h.chars.take n)) = h.colEnd + n := by
      rw [cols_append, cols_lead, cols_narrows, List.length_take, Nat.min_eq_left hnChars, hcolEnd]
    refine ⟨n, ⟨rfl, rfl, rfl, rfl, rfl, rfl⟩, ⟨h.colEnd + n, hascii.marked _ _, le_refl _⟩, rfl, by omega, ?_, ?_⟩
    · rw [hcols]
      show h.colEnd + n = if n = h.chars.length then h.colEnd + n else h.colLimit
      split
      · rfl
      · omega
    · rw [hcols]
      omega

end Text

end WriteHelper

end VT7.Buffer
