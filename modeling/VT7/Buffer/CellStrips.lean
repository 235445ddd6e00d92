import Mathlib.Algebra.BigOperators.Group.Finset.Basic
import Mathlib.Algebra.Order.BigOperators.Group.Finset
import VT7.Buffer.RowRuns
import VT7.Lib.Cells

/-!
# The cells of a row

The glyphs of a row as a strip of cells.  `ReplaceCharacters`, `CopyTextFrom` and `WriteCells` are laid over the strip;
how long the text is can be read from its cells.
-/

namespace VT7.Buffer

open VT7.Lib.Cells
open VT7.Lib.Filling

abbrev GlyphCell := Cell (List UInt16)

/-- The cells of a glyph. -/
def Glyph.cells (g : Glyph) : List GlyphCell :=
  if g.width = 2 then [⟨g.text, .leading⟩, ⟨g.text, .trailing⟩] else [⟨g.text, .whole⟩]

def cellsOf (gs : List Glyph) : List GlyphCell := gs.flatMap Glyph.cells

/-- The strip the glyphs stand for. -/
def stripOf (gs : List Glyph) (x : ℕ) : GlyphCell := (cellsOf gs).getD x (.blank [space])

/-- The code units that begin in a cell. -/
def weight (c : GlyphCell) : ℕ := if c.half = .trailing then 0 else c.text.length

/-! ### Strips of glyphs -/

section Strips

variable {gs a b new : List Glyph} {g : Glyph} {x y k : ℕ}

lemma length_cells (g : Glyph) : g.cells.length = g.width := by
  have hpos := g.width_pos
  have hle := g.width_le
  unfold Glyph.cells
  split
  · next h => rw [h]; rfl
  · next h =>
    show 1 = g.width
    omega

lemma cellsOf_cons (g : Glyph) (gs : List Glyph) : cellsOf (g :: gs) = g.cells ++ cellsOf gs := rfl

lemma cellsOf_append (a b : List Glyph) : cellsOf (a ++ b) = cellsOf a ++ cellsOf b := List.flatMap_append

lemma length_cellsOf (gs : List Glyph) : (cellsOf gs).length = cols gs := by
  induction gs with
  | nil => rfl
  | cons g gs ih => rw [cellsOf_cons, List.length_append, length_cells, ih, cols_cons]

lemma stripOf_left (h : y < cols a) : stripOf (a ++ b) y = stripOf a y := by
  unfold stripOf
  rw [cellsOf_append, List.getD_append _ _ _ _ (by rwa [length_cellsOf])]

lemma stripOf_right (h : cols a ≤ y) : stripOf (a ++ b) y = stripOf b (y - cols a) := by
  unfold stripOf
  rw [cellsOf_append, List.getD_append_right _ _ _ _ (by rwa [length_cellsOf]), length_cellsOf]

lemma stripOf_behind (h : cols gs ≤ y) : stripOf gs y = .blank [space] := by
  unfold stripOf
  exact List.getD_eq_default _ _ (by rwa [length_cellsOf])

lemma stripOf_blanks (n y : ℕ) : stripOf (blanks n) y = .blank [space] := by
  induction n generalizing y with
  | zero => exact stripOf_behind (Nat.zero_le y)
  | succ n ih =>
    have hcons : blanks (n + 1) = [Glyph.blank] ++ blanks n := rfl
    rw [hcons]
    rcases Nat.eq_zero_or_pos y with rfl | hpos
    · rfl
    · rw [stripOf_right hpos, ih]

/-- The cells of the glyph behind the glyphs `a`. -/
lemma stripOf_at (a : List Glyph) (g : Glyph) (rest : List Glyph) :
    stripOf (a ++ g :: rest) (cols a) = (if g.width = 2 then ⟨g.text, .leading⟩ else ⟨g.text, .whole⟩) ∧
      (g.width = 2 → stripOf (a ++ g :: rest) (cols a + 1) = ⟨g.text, .trailing⟩) := by
  rw [stripOf_right (Nat.le_refl _), stripOf_right (Nat.le_add_right _ 1), Nat.sub_self, Nat.add_sub_cancel_left]
  unfold stripOf
  rw [cellsOf_cons]
  unfold Glyph.cells
  refine ⟨?_, fun h => ?_⟩
  · split <;> rfl
  · rw [if_pos h]
    rfl

lemma first_ne_trailing (gs : List Glyph) : (stripOf gs 0).half ≠ .trailing := by
  cases gs with
  | nil => exact nofun
  | cons g gs =>
    have h := (stripOf_at [] g gs).1
    rw [List.nil_append, cols_nil] at h
    rw [h]
    split <;> exact nofun

lemma paired_stripOf (gs : List Glyph) : Paired (stripOf gs) := by
  induction gs with
  | nil => exact fun x => ⟨⟨nofun, nofun⟩, nofun⟩
  | cons g gs ih =>
    have hfirst := first_ne_trailing gs
    have hat := stripOf_at [] g gs
    rw [List.nil_append, cols_nil] at hat
    have hcons : g :: gs = [g] ++ gs := rfl
    have hcols : cols [g] = g.width := rfl
    intro x
    rcases Nat.lt_or_ge x g.width with hlt | hge
    · have hpos := g.width_pos
      have hle := g.width_le
      by_cases hwide : g.width = 2
      · rw [if_pos hwide] at hat
        rcases Nat.eq_zero_or_pos x with rfl | hx
        · rw [hat.1, hat.2 hwide]
          exact ⟨⟨fun _ => rfl, fun _ => rfl⟩, fun _ => rfl⟩
        · have hx1 : x = 1 := by omega
          subst hx1
          rw [hat.2 hwide, hcons, stripOf_right (by rw [hcols]; omega), hcols, hwide]
          exact ⟨⟨nofun, fun h => absurd h hfirst⟩, nofun⟩
      · have hx0 : x = 0 := by omega
        have hone : g.width = 1 := by omega
        subst hx0
        rw [hat.1, if_neg hwide, hcons, stripOf_right (by rw [hcols]; omega), hcols, hone]
        exact ⟨⟨nofun, fun h => absurd h hfirst⟩, nofun⟩
    · rw [hcons, stripOf_right (by rwa [hcols]), stripOf_right (by rw [hcols]; omega), hcols, Nat.succ_sub hge]
      exact ih (x - g.width)

lemma fits_stripOf (gs : List Glyph) : Fits (cols gs) (stripOf gs) :=
  ⟨paired_stripOf gs, first_ne_trailing gs, fun y hy => by rw [stripOf_behind hy]; rfl⟩

/-- The glyphs before a column end there, or the column is the second one of a glyph. -/
lemma upTo_cases (hx : x ≤ cols gs) : cols (upTo x gs) = x ∧ (stripOf gs x).half ≠ .trailing ∨
    cols (upTo x gs) + 1 = x ∧ (stripOf gs x).half = .trailing := by
  have hle := cols_upTo_le x gs
  rcases upTo_spec x gs with hall | ⟨g, rest, hsplit, hover⟩
  · rw [hall] at hle ⊢
    have heq : cols gs = x := by omega
    refine .inl ⟨heq, ?_⟩
    rw [stripOf_behind (by omega)]
    exact nofun
  · have hwidth := g.width_le
    have hat := stripOf_at (upTo x gs) g rest
    rw [← hsplit] at hat
    rcases Nat.lt_or_eq_of_le hle with hlt | heq
    · have hnext : cols (upTo x gs) + 1 = x := by omega
      refine .inr ⟨hnext, ?_⟩
      have htwo := hat.2 (by omega)
      rw [hnext] at htwo
      rw [htwo]
    · refine .inl ⟨heq, ?_⟩
      have hone := hat.1
      rw [heq] at hone
      rw [hone]
      split <;> exact nofun

/-- The glyphs from a column on begin there, or the column is the second one of a glyph. -/
lemma beyond_cases (hk : k ≤ cols gs) : ∃ p, gs = p ++ beyond k gs ∧
    (cols p = k ∧ (stripOf gs k).half ≠ .trailing ∨ cols p = k + 1 ∧ (stripOf gs k).half = .trailing) := by
  induction gs generalizing k with
  | nil =>
    obtain rfl : k = 0 := by simpa using hk
    exact ⟨[], rfl, .inl ⟨rfl, nofun⟩⟩
  | cons g gs ih =>
    have hwidth := g.width_le
    have hpos := g.width_pos
    have hcons : g :: gs = [g] ++ gs := rfl
    have hcols : cols [g] = g.width := rfl
    rcases Nat.eq_zero_or_pos k with rfl | hk0
    · exact ⟨[], by rw [beyond_zero]; rfl, .inl ⟨rfl, first_ne_trailing _⟩⟩
    · have hbeyond : beyond k (g :: gs) = beyond (k - g.width) gs := by rw [beyond, if_neg (by omega)]
      rw [cols_cons] at hk
      rcases Nat.lt_or_ge k g.width with hlt | hge
      · -- the second column of `g`
        have htwo : g.width = 2 := by omega
        have hk1 : k = 1 := by omega
        have hat := (stripOf_at [] g gs).2 htwo
        rw [List.nil_append, cols_nil, Nat.zero_add] at hat
        refine ⟨[g], ?_, .inr ⟨by rw [hcols]; omega, by rw [hk1, hat]⟩⟩
        rw [hbeyond, Nat.sub_eq_zero_of_le hlt.le, beyond_zero]
        rfl
      · obtain ⟨p, hsplit, hcases⟩ := ih (k := k - g.width) (by omega)
        have hstrip : stripOf (g :: gs) k = stripOf gs (k - g.width) := by
          rw [hcons, stripOf_right (by rwa [hcols]), hcols]
        rw [hbeyond, hstrip]
        refine ⟨g :: p, by rw [List.cons_append, ← hsplit], ?_⟩
        rw [cols_cons]
        exact hcases.imp (fun h => ⟨by omega, h.2⟩) (fun h => ⟨by omega, h.2⟩)

/-- **What is written is laid over the strip.** -/
theorem stripOf_overlaid (hx : x + cols new ≤ k) (hk : k ≤ cols gs) :
    stripOf (overlaid gs x k new) = laid [space] (stripOf gs) (fun y => stripOf new (y - x)) x k := by
  obtain ⟨p, hsplit, hp⟩ := beyond_cases hk
  obtain ⟨rest, hrest⟩ := upTo_isPrefix x gs
  have hu := @upTo_cases gs x (by omega)
  have hcols := congrArg cols hsplit
  rw [cols_append] at hcols
  have hparts : overlaid gs x k new = (upTo x gs ++ blanks (x - cols (upTo x gs))) ++ (new ++
      (blanks (cols p - (x + cols new)) ++ beyond k gs)) := by
    unfold overlaid
    rw [show cols gs - cols (beyond k gs) = cols p by omega, List.append_assoc]
  have hlead : cols (upTo x gs ++ blanks (x - cols (upTo x gs))) = x := by
    rw [cols_append, cols_blanks]
    omega
  rw [hparts]
  funext y
  rcases Nat.lt_or_ge y x with hyx | hxy
  · rw [stripOf_left (by rwa [hlead])]
    rcases Nat.lt_or_ge y (cols (upTo x gs)) with hyu | huy
    · have hsame : stripOf (upTo x gs) y = stripOf gs y := by
        rw [← stripOf_left (b := rest) hyu, hrest]
      rw [stripOf_left hyu, hsame]
      rcases Nat.lt_or_eq_of_le (Nat.succ_le_of_lt hyx) with hlt | heq
      · exact (laid_of_lt hlt).symm
      · rw [laid_before heq, if_neg]
        rcases hu with ⟨-, hne⟩ | ⟨hbefore, -⟩
        · exact hne
        · omega
    · -- the first column of a glyph that is cut
      rcases hu with ⟨hend, -⟩ | ⟨hbefore, htrailing⟩
      · omega
      · rw [stripOf_right huy, stripOf_blanks, laid_before (by omega), if_pos htrailing]
  · rw [stripOf_right (by rwa [hlead]), hlead]
    rcases Nat.lt_or_ge (y - x) (cols new) with hnew | hnew
    · rw [stripOf_left hnew, laid_inside hxy (by omega)]
    · rw [stripOf_right hnew]
      rcases Nat.lt_or_ge y (cols p) with hyp | hpy
      · rw [stripOf_left (by rw [cols_blanks]; omega), stripOf_blanks]
        rcases Nat.lt_or_ge y k with hyk | hky
        · rw [laid_inside hxy hyk, stripOf_behind hnew]
        · rcases hp with ⟨hend, -⟩ | ⟨hover, htrailing⟩
          · omega
          · have heq : y = k := by omega
            rw [heq, laid_at_end (by omega), if_pos htrailing]
      · have hindex : y - x - cols new - (cols p - (x + cols new)) = y - cols p := by
          rcases hp with ⟨hend, -⟩ | ⟨hover, -⟩ <;> omega
        have hsame : stripOf (beyond k gs) (y - cols p) = stripOf gs y := by
          rw [← stripOf_right (a := p) hpy, ← hsplit]
        rw [stripOf_right (by rw [cols_blanks]; omega), cols_blanks, hindex, hsame]
        rcases hp with ⟨hend, hne⟩ | ⟨hover, -⟩
        · rcases Nat.lt_or_eq_of_le hpy with hlt | heq
          · exact (laid_of_gt (by omega) (by omega)).symm
          · rw [← heq, hend, laid_at_end (by omega), if_neg hne]
        · exact (laid_of_gt (by omega) (by omega)).symm

lemma cols_overlaid (hx : x + cols new ≤ k) (hk : k ≤ cols gs) : cols (overlaid gs x k new) = cols gs := by
  obtain ⟨p, hsplit, hp⟩ := beyond_cases hk
  have hle := cols_upTo_le x gs
  have hcols := congrArg cols hsplit
  rw [cols_append] at hcols
  unfold overlaid
  simp only [cols_append, cols_blanks]
  omega

open Finset in
/-- The length of the text, cell by cell. -/
lemma units_eq_sum (gs : List Glyph) : units gs = ∑ y ∈ range (cols gs), weight (stripOf gs y) := by
  induction gs with
  | nil => rfl
  | cons g gs ih =>
    have hwidth := g.width_le
    have hpos := g.width_pos
    have hcols : cols [g] = g.width := rfl
    have hat := stripOf_at [] g gs
    rw [List.nil_append, cols_nil, Nat.zero_add] at hat
    have hrest : ∀ y, stripOf (g :: gs) (g.width + y) = stripOf gs y := by
      intro y
      rw [show g :: gs = [g] ++ gs from rfl, stripOf_right (by rw [hcols]; omega), hcols, Nat.add_sub_cancel_left]
    rw [units_cons, cols_cons, sum_range_add, ih]
    simp only [hrest]
    congr 1
    by_cases hwide : g.width = 2
    · rw [hwide, sum_range_succ, sum_range_succ, sum_range_zero, hat.1, hat.2 hwide, if_pos hwide]
      show g.text.length = 0 + g.text.length + 0
      omega
    · rw [show g.width = 1 by omega, sum_range_succ, sum_range_zero, hat.1, if_neg hwide]
      exact (Nat.zero_add _).symm

end Strips

/-! ### Rows -/

section Rows

variable {α : Type} {r : Row α} {gs : List Glyph} {f : ℕ → GlyphCell} {x : ℕ}

namespace DbcsAttribute

def half : DbcsAttribute → Half
  | .single => .whole
  | .leading => .leading
  | .trailing => .trailing

end DbcsAttribute

/-- `DbcsAttrAt`. -/
def Row.dbcsAttrAt (r : Row α) (column : ℕ) : DbcsAttribute :=
  let col := r.clampedColumn column
  if isTrailer (r.charOffsets.getD col 0) then .trailing
  else if isTrailer (r.charOffsets.getD (col + 1) 0) then .leading
  else .single

/-- The row shows the strip. -/
def Row.Shows (r : Row α) (f : ℕ → GlyphCell) : Prop := ∃ gs, r.Holds gs ∧ stripOf gs = f

lemma Row.Shows.fits (h : r.Shows f) : Fits r.columnCount f := by
  obtain ⟨gs, hholds, rfl⟩ := h
  rw [← hholds.columns]
  exact fits_stripOf gs

/-- The glyph that covers a column. -/
lemma covering (hx : x < cols gs) : ∃ u g rest, gs = u ++ g :: rest ∧ cols u ≤ x ∧ x < cols u + g.width := by
  have hle := cols_upTo_le x gs
  rcases upTo_spec x gs with hall | ⟨g, rest, hsplit, hover⟩
  · rw [hall] at hle
    omega
  · exact ⟨upTo x gs, g, rest, hsplit, hle, hover⟩

/-- **A cell as it is read from the row.** -/
theorem Row.Holds.cell_eq (hr : r.Holds gs) (hx : x < r.columnCount) :
    (⟨r.glyphAt x, (r.dbcsAttrAt x).half⟩ : GlyphCell) = stripOf gs x := by
  have hcolumns := hr.columns
  have hshort := hr.short
  obtain ⟨u, g, rest, rfl, hle, hover⟩ := @covering gs x (by omega)
  have hwidth := g.width_le
  have hall : cols (u ++ g :: rest) = cols u + (g.width + cols rest) := by rw [cols_append, cols_cons]
  have hfront : u ++ [g] <+: u ++ g :: rest := ⟨rest, by rw [List.append_assoc]; rfl⟩
  have hu : u <+: u ++ g :: rest := ⟨g :: rest, rfl⟩
  have hend : cols (u ++ [g]) = cols u + g.width := by rw [cols_append]; rfl
  have hunits : units (u ++ [g]) = units u + g.text.length := by rw [units_append]; rfl
  have hclamp : r.clampedColumn x = x := Nat.min_eq_left (by omega)
  have hleader := isTrailer_of_isPrefix hr hu
  have hnext := isTrailer_of_isPrefix hr hfront
  rw [hend] at hnext
  have htrailer : g.width = 2 → isTrailer (r.charOffsets.getD (cols u + 1) 0) = true := by
    intro hwide
    have := units_le_of_isPrefix hu
    rw [hr.offsets, getD_offsetsFrom_trailer 0 u g rest hwide]
    exact isTrailer_trailer (by omega)
  have hfirst : r.uncheckedCharOffset x = units u := by
    have hupTo : upTo x (u ++ g :: rest) = u := fitting_eq Glyph.width g rest hle hover
    rw [hr.uncheckedCharOffset (by omega), hupTo]
  have hstep : stepForward r.charOffsets (x + 1) = cols (u ++ [g]) := by
    rw [hend]
    rcases Nat.lt_or_eq_of_le (Nat.succ_le_of_lt hover) with hlt | heq
    · obtain ⟨p, hsplit, hstep, hlo, hhi⟩ := stepForward_spec 0 (u ++ g :: rest) (by simpa using hshort) (k := x + 1)
        (by omega)
      have hp := isTrailer_of_isPrefix hr (f := p) ⟨_, hsplit.symm⟩
      have hx : x = cols u := by omega
      rw [hr.offsets, hstep]
      rcases Nat.lt_or_eq_of_le hlo with hlo' | hlo'
      · omega
      · rw [← hlo', hx, htrailer (by omega)] at hp
        exact nomatch hp
    · have hat := stepForward_offsetsFrom (o := 0) (u ++ [g]) rest (by rw [List.append_assoc]; simpa using hshort)
      rw [List.append_assoc, hend] at hat
      rw [hr.offsets, show x + 1 = cols u + g.width from heq]
      exact hat
  have hglyph : r.glyphAt x = g.text := by
    have hlast : r.uncheckedCharOffset (cols (u ++ [g])) = units (u ++ [g]) := by
      rw [hr.uncheckedCharOffset (by rw [hend]; omega), upTo_cols_of_isPrefix hfront]
    have hpart := Row.Holds.text_part (a := u) (b := [g]) (c := rest) hr
    unfold Row.glyphAt
    dsimp only
    rw [hclamp, hfirst, hstep, hlast, hunits, Nat.add_sub_cancel_left]
    simpa using hpart
  have hat := stripOf_at u g rest
  rw [hglyph]
  unfold Row.dbcsAttrAt
  dsimp only
  rw [hclamp]
  rcases Nat.lt_or_eq_of_le hle with hlt | rfl
  · have hx : x = cols u + 1 := by omega
    rw [hx, htrailer (by omega), hat.2 (by omega)]
    rfl
  · rw [hleader, hat.1]
    by_cases hwide : g.width = 2
    · rw [htrailer hwide, if_pos hwide]
      rfl
    · rw [show cols u + 1 = cols u + g.width by omega, hnext, if_neg hwide]
      rfl

/-! ### Writing a cell -/

/-- A glyph for which there is room. -/
lemma glyphWritten_eq {wide : Bool} {chars : List UInt16} (hchars : chars ≠ []) (hroom : x + (wide.toNat + 1) ≤ cols gs) :
    glyphWritten gs x wide chars = overlaid gs x (x + (wide.toNat + 1))
      [⟨chars, wide.toNat + 1, hchars, two_width_pos wide, two_width_le wide⟩] := by
  unfold glyphWritten
  rw [dif_pos ⟨hchars, by omega⟩]
  generalize hg : (⟨chars, wide.toNat + 1, hchars, two_width_pos wide, two_width_le wide⟩ : Glyph) = g
  have hwidth : g.width = wide.toNat + 1 := by rw [← hg]
  have hfront : charactersFront gs x g = lead gs x ++ [g] := if_neg (by omega)
  have hcols : cols (lead gs x ++ [g]) = x + (wide.toNat + 1) := by
    rw [cols_append, cols_lead, ← hwidth]
    rfl
  have hend : textEnd gs (lead gs x ++ [g]) x (cols gs) g.text = x + (wide.toNat + 1) := by
    unfold textEnd
    rw [if_pos (by rw [units_append]; rfl), hcols]
  rw [charactersWritten, hfront, hend, closed, hcols, overlaid, lead]
  simp only [List.append_assoc, cols_cons, cols_nil, Nat.add_zero, hwidth]

lemma cols_glyphWritten {wide : Bool} {chars : List UInt16} (hchars : chars ≠ []) (hroom : x + (wide.toNat + 1) ≤ cols gs) :
    cols (glyphWritten gs x wide chars) = cols gs := by
  rw [glyphWritten_eq hchars hroom]
  exact cols_overlaid (by rw [cols_cons, cols_nil]) hroom

/-- A glyph for which there is room is laid over the strip. -/
lemma stripOf_glyphWritten {wide : Bool} {chars : List UInt16} (hchars : chars ≠ []) (hroom : x + (wide.toNat + 1) ≤ cols gs) :
    stripOf (glyphWritten gs x wide chars) = laid [space] (stripOf gs)
      (fun y => if wide then Lib.Cells.wide chars x y else ⟨chars, .whole⟩) x (x + (wide.toNat + 1)) := by
  rw [glyphWritten_eq hchars hroom, stripOf_overlaid (by rw [cols_cons, cols_nil]) hroom]
  refine laid_congr fun y hy hlt => ?_
  have hat := stripOf_at [] ⟨chars, wide.toNat + 1, hchars, two_width_pos wide, two_width_le wide⟩ []
  rw [List.nil_append, cols_nil, Nat.zero_add] at hat
  cases wide with
  | false =>
    have hyx : y - x = 0 := by
      have : (false : Bool).toNat = 0 := rfl
      omega
    rw [hyx, hat.1]
    rfl
  | true =>
    show _ = Lib.Cells.wide chars x y
    unfold Lib.Cells.wide
    rcases Nat.lt_or_eq_of_le hy with hxy | rfl
    · have hyx : y - x = 1 := by
        have : (true : Bool).toNat = 1 := rfl
        omega
      rw [hyx, hat.2 rfl, if_neg (by omega)]
    · rw [Nat.sub_self, hat.1]
      exact (if_pos rfl).trans (if_pos rfl).symm

/-- **A cell written to the row is painted on its strip.** -/
lemma stripOf_cellWritten {view : OutputCellView α} (hchars : view.chars ≠ []) (hposition : view.position = 0)
    (hx : x < cols gs) : stripOf (cellWritten gs view x (cols gs - 1)) =
      paint [space] (cols gs) (stripOf gs) x ⟨view.chars, view.dbcsAttr.half⟩ := by
  have hspace : [space] ≠ [] := List.cons_ne_nil _ _
  unfold cellWritten paint
  cases view.dbcsAttr with
  | single =>
    show stripOf (glyphWritten gs x false view.chars) = _
    rw [stripOf_glyphWritten hchars (show x + 1 ≤ _ by omega)]
    rfl
  | leading =>
    show stripOf (if x = cols gs - 1 then _ else _) = if x + 1 = cols gs then _ else _
    by_cases hlast : x + 1 = cols gs
    · rw [if_pos (by omega), if_pos hlast, stripOf_glyphWritten hspace (show x + 1 ≤ _ by omega)]
      rfl
    · rw [if_neg (by omega), if_neg hlast, stripOf_glyphWritten hchars (show x + 2 ≤ _ by omega)]
      rfl
  | trailing =>
    show stripOf (if x = 0 then _ else if view.position = 0 then _ else _) = if x = 0 then _ else _
    by_cases hfirst : x = 0
    · rw [if_pos hfirst, if_pos hfirst, stripOf_glyphWritten hspace (show x + 1 ≤ _ by omega)]
      rfl
    · rw [if_neg hfirst, if_neg hfirst, if_pos hposition, stripOf_glyphWritten hchars (show x - 1 + 2 ≤ _ by omega),
        show x - 1 + ((true : Bool).toNat + 1) = x + 1 by simp; omega]
      rfl

/-! ### Attributes -/

lemma replaceCharacters_attr {r' : Row α} {c w : ℕ} {chars : List UInt16} (h : r.replaceCharacters c w chars = .ok r') :
    r'.attr = r.attr := by
  unfold Row.replaceCharacters at h
  dsimp only at h
  split at h
  · cases h
    rfl
  · obtain ⟨h', hfinish, hok⟩ := ok_of_bind h
    cases hok
    rw [finish_kept hfinish]
    show _ = r.attr
    unfold WriteHelper.replaceCharacters
    dsimp only
    split <;> rfl

lemma writeCell_attr {view : OutputCellView α} {i final : ℕ} {result : Row α × Bool}
    (h : r.writeCell view i final = .ok result) : result.1.attr = r.attr := by
  unfold Row.writeCell Row.clearCell at h
  cases hdbcs : view.dbcsAttr with
  | single =>
    rw [hdbcs] at h
    obtain ⟨r', hr', hok⟩ := ok_of_bind h
    cases hok
    exact replaceCharacters_attr hr'
  | leading =>
    rw [hdbcs] at h
    dsimp only at h
    split at h
    all_goals
      obtain ⟨r', hr', hok⟩ := ok_of_bind h
      have hattr : r'.attr = r.attr := replaceCharacters_attr hr'
      cases hok
      exact hattr
  | trailing =>
    rw [hdbcs] at h
    dsimp only at h
    split at h
    · obtain ⟨r', hr', hok⟩ := ok_of_bind h
      cases hok
      exact replaceCharacters_attr hr'
    · split at h
      · obtain ⟨r', hr', hok⟩ := ok_of_bind h
        cases hok
        exact replaceCharacters_attr hr'
      · cases h
        rfl

lemma cols_cellWritten {view : OutputCellView α} (hchars : view.chars ≠ []) (hposition : view.position = 0)
    (hx : x < cols gs) : cols (cellWritten gs view x (cols gs - 1)) = cols gs := by
  have hspace : [space] ≠ [] := List.cons_ne_nil _ _
  unfold cellWritten
  cases view.dbcsAttr with
  | single => exact cols_glyphWritten hchars (show x + 1 ≤ _ by omega)
  | leading =>
    show cols (if x = cols gs - 1 then _ else _) = _
    split
    · exact cols_glyphWritten hspace (show x + 1 ≤ _ by omega)
    · exact cols_glyphWritten hchars (show x + 2 ≤ _ by omega)
  | trailing =>
    show cols (if x = 0 then _ else if view.position = 0 then _ else _) = _
    rw [if_pos hposition]
    split
    · exact cols_glyphWritten hspace (show x + 1 ≤ _ by omega)
    · exact cols_glyphWritten hchars (show x - 1 + 2 ≤ _ by omega)

/-- The loop of `WriteCells` with one cell. -/
lemma writeCells_one [DecidableEq α] {view : OutputCellView α} (hx : x < r.columnCount)
    (hstored : view.textAttrBehavior = .stored) {r' : Row α} {moved : Bool}
    (hok : r.writeCell view x (r.columnCount - 1) = .ok (r', moved)) :
    r.writeCells [view] x none none = .ok (r'.replaceAttr x (x + 1) view.textAttr) := by
  have hbounds : ¬(r.columnCount ≤ x ∨ r.columnCount ≤ (none : Option ℕ).getD 0) := by
    show ¬(r.columnCount ≤ x ∨ r.columnCount ≤ 0)
    omega
  have hfinal : ¬r.columnCount - 1 < x := by omega
  have hloop : Row.writeCellsLoop none (r.columnCount - 1) [view] view.textAttr 0 x x r =
      .ok (r'.replaceAttr x (x + 1) view.textAttr) := by
    unfold Row.writeCellsLoop
    rw [if_neg hfinal]
    simp only [hstored, reduceCtorEq, decide_false, decide_true, Bool.false_or, if_true, if_false, hok]
    have hwrap : (if x = r.columnCount - 1 then { r' with wrapForced := (none : Option Bool).getD r'.wrapForced } else r') =
        r' := ite_self _
    show (do
      if moved then
        Row.writeCellsLoop none (r.columnCount - 1) [] view.textAttr 1 x (x + 1)
          (if x = r.columnCount - 1 then { r' with wrapForced := (none : Option Bool).getD r'.wrapForced } else r')
      else _ : Except BufferError (Row α)) = _
    rw [hwrap]
    cases moved <;> rfl
  unfold Row.writeCells
  rw [if_neg hbounds]
  dsimp only [Option.getD_none]
  rw [hloop]

open Finset in
/-- **One cell through `WriteCells`.** -/
theorem Row.Shows.writeCells [DecidableEq α] {view : OutputCellView α} (hr : r.Shows f) (hcount : r.columnCount < 0x8000)
    (hx : x < r.columnCount) (hchars : view.chars ≠ []) (hposition : view.position = 0)
    (hstored : view.textAttrBehavior = .stored)
    (hshort : ∑ y ∈ range r.columnCount,
      weight (paint [space] r.columnCount f x ⟨view.chars, view.dbcsAttr.half⟩ y) < 0x8000) :
    ∃ r', r.writeCells [view] x none none = .ok r' ∧
      r'.Shows (paint [space] r.columnCount f x ⟨view.chars, view.dbcsAttr.half⟩) ∧
      r'.columnCount = r.columnCount ∧ r'.attr = overwrite r.attr x [view.textAttr] := by
  obtain ⟨gs, hholds, rfl⟩ := hr
  have hcolumns := hholds.columns
  have hx' : x < cols gs := by omega
  have hunits := units_eq_sum (cellWritten gs view x (cols gs - 1))
  rw [cols_cellWritten hchars hposition hx', stripOf_cellWritten hchars hposition hx', hcolumns] at hunits
  rw [← hunits] at hshort
  rw [← hcolumns] at hshort
  obtain ⟨r', moved, hok, hholds', hcount'⟩ := writeCell_written hholds hcount view hshort
  refine ⟨r'.replaceAttr x (x + 1) view.textAttr, writeCells_one hx hstored (by rw [← hcolumns]; exact hok),
    ⟨_, hholds'.replaceAttr _ _ _, ?_⟩, hcount', ?_⟩
  · rw [stripOf_cellWritten hchars hposition hx', hcolumns]
  · have hattr : r'.attr = r.attr := writeCell_attr hok
    show overwrite r'.attr x _ = _
    rw [hattr, Nat.add_sub_cancel_left]
    rfl

/-! ### Copying text -/

lemma upTo_blanks {n m : ℕ} (h : n ≤ m) : upTo n (blanks m) = blanks n := by
  rcases Nat.lt_or_eq_of_le h with hlt | rfl
  · have hsplit : blanks m = blanks n ++ Glyph.blank :: blanks (m - n - 1) := by
      rw [blanks, blanks, blanks, ← List.replicate_succ, ← List.replicate_add]
      congr 1
      omega
    rw [hsplit]
    exact fitting_eq Glyph.width Glyph.blank _ (cols_blanks n).le (by
      show n < cols (blanks n) + 1
      rw [cols_blanks]
      omega)
  · exact fitting_of_le Glyph.width (cols_blanks n).le

open Finset in
/-- **Spaces from a row of spaces.** -/
theorem Row.Shows.copyBlanks {scratch : Row α} {l e : ℕ} (hr : r.Shows f) (hcount : r.columnCount < 0x8000)
    (hscratch : scratch.Holds (blanks r.columnCount)) (hle : l < e) (he : e ≤ r.columnCount)
    (hshort : ∑ y ∈ range r.columnCount, weight (erase [space] f l e y) < 0x8000) :
    ∃ r' result, r.copyTextFrom { source := scratch, columnBegin := l, columnLimit := e, sourceColumnBegin := l } =
        .ok (r', result) ∧ r'.Shows (erase [space] f l e) ∧ r'.columnCount = r.columnCount ∧ r'.attr = r.attr := by
  obtain ⟨gs, hholds, rfl⟩ := hr
  have hcolumns := hholds.columns
  have hwidth := hscratch.columns
  rw [cols_blanks] at hwidth
  generalize hstate : ({ source := scratch, columnBegin := l, columnLimit := e, sourceColumnBegin := l } :
    RowCopyTextFromState α) = state
  have hsource : state.source = scratch := by rw [← hstate]
  have hsplit : blanks r.columnCount = blanks l ++ blanks (r.columnCount - l) := by
    rw [blanks, blanks, blanks, ← List.replicate_add, Nat.add_sub_cancel' (by omega)]
  have hbegin : r.clampedColumnInclusive state.columnBegin = l := by
    rw [← hstate]
    exact Nat.min_eq_left (show l ≤ r.columnCount by omega)
  have hlimit : r.clampedColumnInclusive state.columnLimit = e := by
    rw [← hstate]
    exact Nat.min_eq_left he
  have hroom : room r state = e - l := by rw [room, hbegin, hlimit]
  have hread : readable state (blanks l) = r.columnCount - l := by
    rw [readable, cols_blanks, hsource, ← hwidth, ← hstate]
    show min coordTypeMax _ - l = _
    unfold coordTypeMax
    omega
  have havailable : available state (blanks l) (blanks (r.columnCount - l)) = blanks (r.columnCount - l) := by
    rw [available, hread, upTo_blanks (Nat.le_refl _)]
  have hfitting : fitting r state (blanks l) (blanks (r.columnCount - l)) = blanks (e - l) := by
    rw [fitting, havailable, hroom, upTo_blanks (by omega)]
  have hdirty : copyDirty r state (blanks l) = e := by
    rw [copyDirty, hbegin, hroom, hread]
    omega
  have hstrip : stripOf (overlaid gs l e (blanks (e - l))) = erase [space] (stripOf gs) l e := by
    rw [stripOf_overlaid (by rw [cols_blanks]; omega) (by omega)]
    exact laid_congr fun y _ _ => stripOf_blanks _ _
  have hcols : cols (overlaid gs l e (blanks (e - l))) = cols gs :=
    cols_overlaid (by rw [cols_blanks]; omega) (by omega)
  have hunits := units_eq_sum (overlaid gs l e (blanks (e - l)))
  rw [hcols, hstrip, hcolumns] at hunits
  have hne : available state (blanks l) (blanks (r.columnCount - l)) ≠ [] := by
    rw [havailable]
    exact List.ne_nil_of_length_pos (by rw [blanks, List.length_replicate]; omega)
  obtain ⟨r', result, hok, hholds', hfields⟩ := @copyTextFrom_holds _ r state (blanks l) (blanks (r.columnCount - l))
    (by rw [hsource, ← hsplit]; exact hscratch) (by rw [cols_blanks, ← hstate]) gs hholds hne (by omega)
    (by rw [← hstate]) (by rw [hbegin, hdirty, hfitting, hunits]; exact hshort)
  rw [hbegin, hdirty, hfitting] at hholds'
  exact ⟨r', result, hok, ⟨_, hholds', hstrip⟩, by rw [hfields], by rw [hfields]⟩

/-- The strip behind `CopyFrom`, from a row whose readable columns are `limit`. -/
def copied (limit : ℕ) (d s : ℕ → GlyphCell) : ℕ → GlyphCell :=
  if limit = 0 ∨ limit = 1 ∧ (s 0).half = .leading then d
  else laid [space] d (fun y => if y + 1 = limit ∧ (s y).half = .leading then .blank [space] else s y) 0 limit

lemma resizeTrailingExtent_self (attr : List α) : resizeTrailingExtent attr attr.length = attr := by
  unfold resizeTrailingExtent
  split
  · next h => exact (List.getLast?_eq_none_iff.mp h).symm
  · rw [List.take_length, Nat.sub_self, List.replicate_zero, List.append_nil]

lemma getReadableColumnCount_le (r : Row α) : r.getReadableColumnCount ≤ r.columnCount := by
  unfold Row.getReadableColumnCount
  split <;> omega

/-- The glyphs that end before a column, as a strip. -/
lemma stripOf_upTo (hx : x ≤ cols gs) {y : ℕ} (hy : y < x) :
    stripOf (upTo x gs) y = if y + 1 = x ∧ (stripOf gs y).half = .leading then .blank [space] else stripOf gs y := by
  obtain ⟨rest, hrest⟩ := upTo_isPrefix x gs
  have hpair := (paired_stripOf gs y).1
  rcases Nat.lt_or_ge y (cols (upTo x gs)) with hlt | hge
  · have hsame : stripOf (upTo x gs) y = stripOf gs y := by rw [← stripOf_left (b := rest) hlt, hrest]
    rw [hsame, if_neg]
    rintro ⟨hend, hleading⟩
    rw [hend] at hpair
    rcases upTo_cases hx with ⟨-, hne⟩ | ⟨hbefore, -⟩
    · exact hne (hpair.mp hleading)
    · omega
  · rcases upTo_cases hx with ⟨hall, -⟩ | ⟨hbefore, htrailing⟩
    · omega
    · have hend : y + 1 = x := by omega
      rw [hend] at hpair
      rw [stripOf_behind hge, if_pos ⟨hend, hpair.mpr htrailing⟩]

lemma upTo_eq_nil_iff (hx : x ≤ cols gs) : upTo x gs = [] ↔ x = 0 ∨ x = 1 ∧ (stripOf gs 0).half = .leading := by
  have hnil : upTo x gs = [] ↔ cols (upTo x gs) = 0 :=
    ⟨fun h => by rw [h]; rfl, fun h => by
      by_contra hne
      have := cols_pos hne
      omega⟩
  have hpair := (paired_stripOf gs 0).1
  rw [hnil]
  rcases upTo_cases hx with ⟨hall, hne⟩ | ⟨hbefore, htrailing⟩
  · rw [hall]
    refine ⟨.inl, fun h => h.elim id fun ⟨h1, hleading⟩ => ?_⟩
    rw [h1] at hne
    exact absurd (hpair.mp hleading) hne
  · refine ⟨fun h => .inr ⟨by omega, ?_⟩, fun h => by omega⟩
    rw [show x = 0 + 1 by omega] at htrailing
    exact hpair.mpr htrailing

/-- The flag of the destination behind `CopyFrom` into `width` columns. -/
def copiedPadding (width limit : ℕ) (d s : ℕ → GlyphCell) (padded : Bool) : Bool :=
  if limit = 0 ∨ limit = 1 ∧ (s 0).half = .leading then padded
  else if limit = width then false
  else if limit + 1 = width ∧ (d limit).half = .trailing then true
  else padded

/-- How far the columns behind a copy are written, as far as the last column is concerned. -/
lemma dirty_eq_cols_iff {limit : ℕ} (hlimit : limit ≤ cols gs) : cols gs - cols (beyond limit gs) = cols gs ↔
    limit = cols gs ∨ limit + 1 = cols gs ∧ (stripOf gs limit).half = .trailing := by
  obtain ⟨p, hsplit, hp⟩ := beyond_cases hlimit
  have hcols := congrArg cols hsplit
  rw [cols_append] at hcols
  constructor
  · intro h
    exact hp.imp (fun hp => by omega) (fun hp => ⟨by omega, hp.2⟩)
  · rintro (h | ⟨h, htrailing⟩)
    · rcases hp with hp | hp <;> omega
    · rcases hp with hp | hp
      · exact absurd htrailing hp.2
      · omega

open Finset in
/-- **`CopyFrom`.** -/
theorem Row.Shows.copyFrom_all {source : Row α} {s : ℕ → GlyphCell} (hr : r.Shows f) (hs : source.Shows s)
    (hsame : source.columnCount = r.columnCount) (hattr : source.attr.length = r.columnCount)
    (hshort : ∑ y ∈ range r.columnCount, weight (copied source.getReadableColumnCount f s y) < 0x8000) :
    ∃ r', r.copyFrom source = .ok r' ∧ r'.Shows (copied source.getReadableColumnCount f s) ∧
      r' = { r with
        chars := r'.chars
        charOffsets := r'.charOffsets
        attr := source.attr
        lineRendition := source.lineRendition
        wrapForced := source.wrapForced
        doubleBytePadded := copiedPadding r.columnCount source.getReadableColumnCount f s r.doubleBytePadded } := by
  obtain ⟨gs, hholds, rfl⟩ := hr
  obtain ⟨glyphs, hsource, rfl⟩ := hs
  have hcolumns := hholds.columns
  have hcolumns' := hsource.columns
  have hreadable := getReadableColumnCount_le source
  generalize hlimit : source.getReadableColumnCount = limit at *
  generalize hrow : ({ r with lineRendition := source.lineRendition, wrapForced := source.wrapForced } : Row α) = row
  have hholdsRow : row.Holds gs := by
    rw [← hrow]
    exact hholds.congr rfl rfl rfl
  have hcountRow : row.columnCount = r.columnCount := by rw [← hrow]
  generalize hstate : ({ source, sourceColumnLimit := limit } : RowCopyTextFromState α) = state
  have hread : readable state [] = limit := by
    rw [readable, ← hstate]
    show min limit source.columnCount - 0 = limit
    omega
  have havailable : available state [] glyphs = upTo limit glyphs := by rw [available, hread]
  have hroom : r.columnCount < 0x10000 → room row state = r.columnCount := by
    intro hsmall
    rw [room, ← hstate, ← hcountRow]
    show min coordTypeMax row.columnCount - min 0 row.columnCount = _
    unfold coordTypeMax
    omega
  have hbegin : row.clampedColumnInclusive state.columnBegin = 0 := by
    rw [← hstate]
    exact Nat.zero_min _
  have hresize : resizeTrailingExtent source.attr r.columnCount = source.attr := by rw [← hattr, resizeTrailingExtent_self]
  have hnothing := @upTo_eq_nil_iff glyphs limit (by omega)
  have hcopy : ∃ r' result, row.copyTextFrom state = .ok (r', result) ∧ r'.Shows (copied limit (stripOf gs) (stripOf glyphs)) ∧
      r' = { row with
        chars := r'.chars
        charOffsets := r'.charOffsets
        doubleBytePadded := copiedPadding r.columnCount limit (stripOf gs) (stripOf glyphs) r.doubleBytePadded } := by
    have hpadded : row.doubleBytePadded = r.doubleBytePadded := by rw [← hrow]
    unfold copied at hshort ⊢
    unfold copiedPadding
    by_cases hnil : upTo limit glyphs = []
    · rw [if_pos (hnothing.mp hnil)] at hshort ⊢
      rw [if_pos (hnothing.mp hnil)]
      have heq := @copyTextFrom_eq _ row state [] glyphs (by rw [← hstate]; exact hsource) (by rw [← hstate]; rfl)
      rw [if_neg fun h => h.1 (havailable.trans hnil)] at heq
      exact ⟨row, _, heq, ⟨gs, hholdsRow, rfl⟩, by rw [← hpadded]⟩
    · rw [if_neg fun h => hnil (hnothing.mpr h)] at hshort ⊢
      rw [if_neg fun h => hnil (hnothing.mpr h)]
      have hroom := hroom hholds.columns_lt
      have hfitting : fitting row state [] glyphs = upTo limit glyphs := by
        rw [fitting, havailable, hroom, upTo_min, Nat.min_eq_right (by omega)]
      have hdirty : copyDirty row state [] = limit := by
        rw [copyDirty, hbegin, hroom, hread]
        omega
      have hfit : 0 + cols (upTo limit glyphs) ≤ limit := by
        rw [Nat.zero_add]
        exact cols_upTo_le _ _
      have hstrip : stripOf (overlaid gs 0 limit (upTo limit glyphs)) = laid [space] (stripOf gs)
          (fun y => if y + 1 = limit ∧ (stripOf glyphs y).half = .leading then .blank [space] else stripOf glyphs y) 0
          limit := by
        rw [stripOf_overlaid hfit (by omega)]
        refine laid_congr fun y _ hy => ?_
        rw [Nat.sub_zero]
        exact stripOf_upTo (by omega) hy
      have hunits := units_eq_sum (overlaid gs 0 limit (upTo limit glyphs))
      rw [cols_overlaid hfit (by omega), hstrip, hcolumns] at hunits
      have hpos : 0 < r.columnCount := by
        by_contra hzero
        exact hnil ((hnothing.mpr (.inl (by omega))))
      obtain ⟨r', result, hok, hholds', hfields⟩ := @copyTextFrom_holds _ row state [] glyphs
        (by rw [← hstate]; exact hsource) (by rw [← hstate]; rfl) gs hholdsRow (by rw [havailable]; exact hnil)
        (by omega) (by rw [← hstate]) (by rw [hbegin, hdirty, hfitting, hunits]; exact hshort)
      rw [hbegin, hdirty, hfitting] at hholds'
      rw [hbegin, hdirty, hfitting, hcountRow, hpadded, Nat.zero_add] at hfields
      have hlast := @dirty_eq_cols_iff gs limit (by omega)
      rw [hcolumns] at hlast
      have hflag : (if cols gs - cols (beyond limit gs) = r.columnCount then
            decide (cols (upTo limit glyphs) < r.columnCount) else r.doubleBytePadded) =
          if limit = r.columnCount then false
          else if limit + 1 = r.columnCount ∧ (stripOf gs limit).half = .trailing then true
          else r.doubleBytePadded := by
        rw [hcolumns]
        by_cases hall : limit = r.columnCount
        · -- all columns are copied
          have hwhole : cols (upTo limit glyphs) = r.columnCount := by
            rw [show upTo limit glyphs = glyphs from fitting_of_le Glyph.width (show cols glyphs ≤ limit by omega), hcolumns', hsame]
          rw [if_pos (hlast.mpr (.inl hall)), if_pos hall, hwhole]
          exact decide_eq_false (lt_irrefl _)
        rw [if_neg hall]
        have hshorter : cols (upTo limit glyphs) < r.columnCount := by omega
        by_cases hcut : limit + 1 = r.columnCount ∧ (stripOf gs limit).half = .trailing
        · rw [if_pos (hlast.mpr (.inr hcut)), if_pos hcut]
          exact decide_eq_true hshorter
        · rw [if_neg fun h => (hlast.mp h).elim hall hcut, if_neg hcut]
      rw [hflag] at hfields
      exact ⟨r', result, hok, ⟨_, hholds', hstrip⟩, hfields.trans (by rw [hcountRow])⟩
  obtain ⟨r', result, hok, ⟨gs', hholds', hstrip⟩, hfields⟩ := hcopy
  have hcount' : r'.columnCount = r.columnCount := by rw [hfields]; exact hcountRow
  refine ⟨{ r' with attr := source.attr }, ?_, ⟨gs', hholds'.congr rfl rfl rfl, hstrip⟩, ?_⟩
  · unfold Row.copyFrom
    dsimp only
    rw [hrow, hlimit, hstate, hok]
    show Except.ok { r' with attr := resizeTrailingExtent source.attr r'.columnCount } = _
    rw [hcount', hresize]
  · rw [hfields, ← hrow]

open Finset in
/-- `CopyFrom`, as far as the cells and the attributes are concerned. -/
theorem Row.Shows.copyFrom {source : Row α} {s : ℕ → GlyphCell} (hr : r.Shows f) (hs : source.Shows s)
    (hsame : source.columnCount = r.columnCount) (hattr : source.attr.length = r.columnCount)
    (hshort : ∑ y ∈ range r.columnCount, weight (copied source.getReadableColumnCount f s y) < 0x8000) :
    ∃ r', r.copyFrom source = .ok r' ∧ r'.Shows (copied source.getReadableColumnCount f s) ∧
      r'.columnCount = r.columnCount ∧ r'.attr = source.attr := by
  obtain ⟨r', hok, hshows, hfields⟩ := hr.copyFrom_all hs hsame hattr hshort
  exact ⟨r', hok, hshows, by rw [hfields], by rw [hfields]⟩

end Rows

end VT7.Buffer
