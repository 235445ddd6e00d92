import Mathlib.Data.Nat.Bitwise
import VT7.Buffer.Row
import VT7.Lib.Filling

/-!
# The glyphs of a row

A row stands for a list of glyphs that fill its columns, each one or two columns wide (`Row.Holds`).
This is what the offsets say when they are in order: a glyph's first column has the offset of its text
and the other column the same offset with the flag.
-/

namespace VT7.Buffer

open VT7.Lib.Filling

structure Glyph where
  text : List UInt16
  width : ℕ
  text_ne_nil : text ≠ []
  width_pos : 1 ≤ width
  width_le : width ≤ 2
deriving DecidableEq

namespace Glyph

lemma length_pos (g : Glyph) : 1 ≤ g.text.length := List.length_pos_iff.mpr g.text_ne_nil

lemma unit_ne_nil (unit : UInt16) : [unit] ≠ [] := List.cons_ne_nil _ _
lemma one_le_one : 1 ≤ 1 := le_refl 1
lemma one_le_two : 1 ≤ 2 := Nat.le_succ 1
lemma two_le_two : 2 ≤ 2 := le_refl 2

/-- A glyph of one code unit and one column. -/
def narrow (unit : UInt16) : Glyph := ⟨[unit], 1, unit_ne_nil unit, one_le_one, one_le_two⟩

/-- A glyph of one code unit and two columns. -/
def wide (unit : UInt16) : Glyph := ⟨[unit], 2, unit_ne_nil unit, one_le_two, two_le_two⟩

/-- An empty cell. -/
def blank : Glyph := narrow space

@[simp] lemma blank_text : blank.text = [space] := rfl
@[simp] lemma blank_width : blank.width = 1 := rfl

end Glyph

/-- The columns of the glyphs. -/
def cols (gs : List Glyph) : ℕ := total Glyph.width gs

/-- The code units of the glyphs. -/
def units (gs : List Glyph) : ℕ := total (fun g => g.text.length) gs

def textOf (gs : List Glyph) : List UInt16 := gs.flatMap Glyph.text

def blanks (n : ℕ) : List Glyph := List.replicate n Glyph.blank

/-- The glyphs before the one at column `n`, or all of them. -/
abbrev upTo (n : ℕ) (gs : List Glyph) : List Glyph := fitting Glyph.width n gs

@[simp] lemma cols_nil : cols [] = 0 := rfl

@[simp] lemma cols_cons (g : Glyph) (gs : List Glyph) : cols (g :: gs) = g.width + cols gs := rfl

@[simp] lemma cols_append (gs gs' : List Glyph) : cols (gs ++ gs') = cols gs + cols gs' :=
  total_append _ gs gs'

@[simp] lemma units_nil : units [] = 0 := rfl

@[simp] lemma units_cons (g : Glyph) (gs : List Glyph) : units (g :: gs) = g.text.length + units gs := rfl

@[simp] lemma units_append (gs gs' : List Glyph) : units (gs ++ gs') = units gs + units gs' :=
  total_append _ gs gs'

@[simp] lemma textOf_nil : textOf [] = [] := rfl

@[simp] lemma textOf_cons (g : Glyph) (gs : List Glyph) : textOf (g :: gs) = g.text ++ textOf gs := rfl

@[simp] lemma textOf_append (gs gs' : List Glyph) : textOf (gs ++ gs') = textOf gs ++ textOf gs' := by
  simp [textOf]

@[simp] lemma length_textOf (gs : List Glyph) : (textOf gs).length = units gs := by
  induction gs with
  | nil => rfl
  | cons g gs ih => simp [ih]

@[simp] lemma cols_blanks (n : ℕ) : cols (blanks n) = n := by simp [blanks, cols]

@[simp] lemma units_blanks (n : ℕ) : units (blanks n) = n := by simp [blanks, units]

@[simp] lemma textOf_blanks (n : ℕ) : textOf (blanks n) = List.replicate n space := by
  induction n with
  | zero => rfl
  | succ n ih => rw [blanks, List.replicate_succ, textOf_cons, ← blanks, ih]; rfl

lemma cols_upTo_le (n : ℕ) (gs : List Glyph) : cols (upTo n gs) ≤ n := total_fitting_le _ n gs

lemma upTo_isPrefix (n : ℕ) (gs : List Glyph) : upTo n gs <+: gs := fitting_isPrefix _ n gs

/-- The glyphs before a column, and the glyph that goes over it. -/
lemma upTo_spec (n : ℕ) (gs : List Glyph) :
    upTo n gs = gs ∨ ∃ g rest, gs = upTo n gs ++ g :: rest ∧ n < cols (upTo n gs) + g.width :=
  fitting_spec Glyph.width n gs

lemma length_le_cols (gs : List Glyph) : gs.length ≤ cols gs :=
  length_le_total Glyph.width fun g _ => g.width_pos

lemma cols_pos {gs : List Glyph} (h : gs ≠ []) : 0 < cols gs :=
  (List.length_pos_iff.mpr h).trans_le (length_le_cols gs)

lemma length_le_units (gs : List Glyph) : gs.length ≤ units gs :=
  length_le_total (fun g : Glyph => g.text.length) fun g _ => g.length_pos

/-! ### Single offsets -/

lemma isTrailer_of_lt {o : ℕ} (h : o < 0x8000) : isTrailer o = false :=
  Nat.testBit_lt_two_pow (i := 15) h

lemma isTrailer_trailer {o : ℕ} (h : o < 0x8000) : isTrailer (o + 0x8000) = true := by
  have := Nat.testBit_two_pow_add_eq o 15
  rw [Nat.testBit_lt_two_pow (i := 15) h] at this
  rw [isTrailer, Nat.add_comm]
  simpa using this

lemma and_mask (o : ℕ) : o &&& charOffsetsMask = o % 0x8000 := Nat.and_two_pow_sub_one_eq_mod o 15

lemma and_trailer (o : ℕ) : o &&& charOffsetsTrailer = (isTrailer o).toNat * 0x8000 := Nat.and_two_pow o 15

lemma u16_of_lt {n : ℕ} (h : n < 0x8000) : u16 n = n := Nat.mod_eq_of_lt (by omega)

lemma or_trailer {o : ℕ} (h : o < 0x8000) : o ||| 0x8000 = o + 0x8000 := by
  have := Nat.two_pow_add_eq_or_of_lt (i := 15) h 1
  rw [Nat.or_comm]
  simp only [Nat.mul_one] at this
  rw [show (0x8000 : ℕ) = 2 ^ 15 from rfl, ← this, Nat.add_comm]

lemma copyOffset_leader {o d : ℕ} (h : o < 0x8000) : copyOffset d o = u16 (o + d) := by
  rw [copyOffset, and_mask, and_trailer, isTrailer_of_lt h, Nat.mod_eq_of_lt h]
  exact Nat.or_zero _

lemma copyOffset_trailer {o d : ℕ} (h : o < 0x8000) (hd : u16 (o + d) < 0x8000) :
    copyOffset d (o + 0x8000) = u16 (o + d) + 0x8000 := by
  rw [copyOffset, and_mask, and_trailer, isTrailer_trailer h, show (o + 0x8000) % 0x8000 = o by omega]
  exact or_trailer hd

/-! ### The offsets of glyphs -/

/-- One offset for every column. -/
def columnsFrom : ℕ → List Glyph → List ℕ
  | _, [] => []
  | o, g :: gs => o :: (List.replicate (g.width - 1) (o + 0x8000) ++ columnsFrom (o + g.text.length) gs)

/-- With the offset behind the last glyph. -/
def offsetsFrom (o : ℕ) (gs : List Glyph) : List ℕ := columnsFrom o gs ++ [o + units gs]

@[simp] lemma columnsFrom_nil (o : ℕ) : columnsFrom o [] = [] := rfl

@[simp] lemma length_columnsFrom (o : ℕ) (gs : List Glyph) : (columnsFrom o gs).length = cols gs := by
  induction gs generalizing o with
  | nil => rfl
  | cons g gs ih =>
    have := g.width_pos
    simp only [columnsFrom, List.length_cons, List.length_append, List.length_replicate, ih, cols_cons]
    omega

@[simp] lemma length_offsetsFrom (o : ℕ) (gs : List Glyph) : (offsetsFrom o gs).length = cols gs + 1 := by
  simp [offsetsFrom]

lemma columnsFrom_append (o : ℕ) (gs gs' : List Glyph) :
    columnsFrom o (gs ++ gs') = columnsFrom o gs ++ columnsFrom (o + units gs) gs' := by
  induction gs generalizing o with
  | nil => simp
  | cons g gs ih => simp [columnsFrom, ih, Nat.add_assoc]

lemma offsetsFrom_append (o : ℕ) (gs gs' : List Glyph) :
    offsetsFrom o (gs ++ gs') = columnsFrom o gs ++ offsetsFrom (o + units gs) gs' := by
  simp [offsetsFrom, columnsFrom_append, Nat.add_assoc]

lemma offsetsFrom_cons (o : ℕ) (g : Glyph) (gs : List Glyph) :
    offsetsFrom o (g :: gs) =
      o :: (List.replicate (g.width - 1) (o + 0x8000) ++ offsetsFrom (o + g.text.length) gs) := by
  simp [offsetsFrom, columnsFrom, Nat.add_assoc]

lemma columnsFrom_blanks (o n : ℕ) : columnsFrom o (blanks n) = (List.range n).map (o + ·) := by
  induction n with
  | zero => rfl
  | succ n ih =>
    have h : blanks (n + 1) = blanks n ++ [Glyph.blank] := List.replicate_succ'
    rw [h, columnsFrom_append, ih, List.range_succ, List.map_append, units_blanks]
    rfl

/-- Splitting the offsets where a glyph begins. -/
lemma drop_offsetsFrom (o : ℕ) (gs gs' : List Glyph) :
    (offsetsFrom o (gs ++ gs')).drop (cols gs) = offsetsFrom (o + units gs) gs' := by
  rw [offsetsFrom_append, ← length_columnsFrom o gs, List.drop_left]

lemma take_offsetsFrom (o : ℕ) (gs gs' : List Glyph) :
    (offsetsFrom o (gs ++ gs')).take (cols gs) = columnsFrom o gs := by
  rw [offsetsFrom_append, ← length_columnsFrom o gs, List.take_left]

/-- The offset where a glyph, or the end, begins. -/
lemma getD_offsetsFrom (o : ℕ) (gs gs' : List Glyph) :
    (offsetsFrom o (gs ++ gs')).getD (cols gs) 0 = o + units gs := by
  rw [offsetsFrom_append, ← length_columnsFrom o gs, List.getD_append_right _ _ _ _ (le_refl _), Nat.sub_self]
  cases gs' with
  | nil => rfl
  | cons g gs' => rfl

/-- The offset of the other column of a glyph. -/
lemma getD_offsetsFrom_trailer (o : ℕ) (gs : List Glyph) (g : Glyph) (gs' : List Glyph) (hg : g.width = 2) :
    (offsetsFrom o (gs ++ g :: gs')).getD (cols gs + 1) 0 = o + units gs + 0x8000 := by
  rw [offsetsFrom_append, ← length_columnsFrom o gs, List.getD_append_right _ _ _ _ (Nat.le_add_right _ 1),
    Nat.add_sub_cancel_left, offsetsFrom_cons, hg]
  rfl

/-- The loop back over trailers stops where the glyph of a column begins. -/
lemma stepBack_offsetsFrom {o : ℕ} {gs : List Glyph} (h : o + units gs < 0x8000) {k : ℕ} (hk : k ≤ cols gs) :
    stepBack (offsetsFrom o gs) k = cols (upTo k gs) := by
  rcases upTo_spec k gs with hall | ⟨g, rest, hsplit, hg⟩
  · have hle := cols_upTo_le k gs
    rw [hall] at hle ⊢
    obtain rfl : k = cols gs := le_antisymm hk hle
    have hget := getD_offsetsFrom o gs []
    rw [List.append_nil] at hget
    cases hcols : cols gs with
    | zero => rfl
    | succ n => rw [stepBack, ← hcols, hget, isTrailer_of_lt h, hcols]; rfl
  · have hle := cols_upTo_le k gs
    generalize upTo k gs = f at hsplit hg hle ⊢
    have hunits : o + units f < 0x8000 := by
      rw [hsplit, units_append] at h
      omega
    have hget := getD_offsetsFrom o f (g :: rest)
    have hleader : stepBack (offsetsFrom o gs) (cols f) = cols f := by
      rw [hsplit]
      cases hcols : cols f with
      | zero => rfl
      | succ n => rw [stepBack, ← hcols, hget, isTrailer_of_lt hunits, hcols]; rfl
    have hwidth := g.width_le
    rcases Nat.eq_or_lt_of_le hle with heq | hlt
    · rw [← heq, hleader]
    · -- the column is the second one of `g`
      obtain rfl : k = cols f + 1 := by omega
      have htrailer := getD_offsetsFrom_trailer o f g rest (by omega)
      rw [← hsplit] at htrailer
      rw [stepBack, htrailer, isTrailer_trailer hunits]
      exact hleader

/-- The loop forward over trailers does nothing where a glyph begins. -/
lemma stepForward_offsetsFrom {o : ℕ} (gs gs' : List Glyph) (h : o + units (gs ++ gs') < 0x8000) :
    stepForward (offsetsFrom o (gs ++ gs')) (cols gs) = cols gs := by
  have hunits : o + units gs < 0x8000 := by
    rw [units_append] at h
    omega
  have hhead : ∃ tail, offsetsFrom (o + units gs) gs' = (o + units gs) :: tail := by
    cases gs' with
    | nil => exact ⟨[], rfl⟩
    | cons g gs' => exact ⟨_, offsetsFrom_cons _ _ _⟩
  obtain ⟨tail, htail⟩ := hhead
  rw [stepForward, drop_offsetsFrom, htail, List.takeWhile_cons, isTrailer_of_lt hunits]
  rfl

/-- Offsets that are moved stay the offsets of the same glyphs. -/
lemma map_copyOffset_columnsFrom (o o' d : ℕ) (gs : List Glyph) (h : o + units gs < 0x8000)
    (h' : o' + units gs < 0x8000) (hd : u16 (o + d) = o') :
    (columnsFrom o gs).map (copyOffset d) = columnsFrom o' gs := by
  induction gs generalizing o o' with
  | nil => rfl
  | cons g gs ih =>
    simp only [units_cons] at h h'
    have hlead : copyOffset d o = o' := by rw [copyOffset_leader (by omega), hd]
    have htrail : copyOffset d (o + 0x8000) = o' + 0x8000 := by
      rw [copyOffset_trailer (by omega) (by omega), hd]
    have hnext : u16 (o + g.text.length + d) = o' + g.text.length := by
      unfold u16 at hd ⊢
      omega
    rw [columnsFrom, columnsFrom, List.map_cons, List.map_append, List.map_replicate, hlead, htrail,
      ih _ _ (by omega) (by omega) hnext]

end VT7.Buffer
