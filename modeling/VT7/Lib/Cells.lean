import Mathlib.Order.Nat
import Mathlib.Tactic.Basic

/-!
# Strips of cells

A strip shows characters that take one cell or two.  Cells that are laid over a strip may cut a wide character of it; a
blank takes the place of the half that is left (`laid`).  `paint` writes one cell of another strip, and both halves with
it where the cell is one of them.

`paint_pasted` and `paint_pasted_back` say what painting the cells of a range one after the other leaves, from the left
and from the right.
-/

namespace VT7.Lib.Cells

/-- What a cell shows of its character. -/
inductive Half
  | whole
  | leading
  | trailing
deriving DecidableEq

structure Cell (τ : Type) where
  text : τ
  half : Half
deriving DecidableEq

variable {τ : Type}

/-- A blank is a whole character. -/
def Cell.blank (space : τ) : Cell τ := ⟨space, .whole⟩

@[simp] lemma blank_half (space : τ) : (Cell.blank space).half = .whole := rfl

/-- The halves of a wide character are next to each other. -/
def Paired (c : ℕ → Cell τ) : Prop :=
  ∀ x, ((c x).half = .leading ↔ (c (x + 1)).half = .trailing) ∧
    ((c x).half = .leading → (c (x + 1)).text = (c x).text)

/-- A strip of `width` cells. -/
structure Fits (width : ℕ) (c : ℕ → Cell τ) : Prop where
  paired : Paired c
  first : (c 0).half ≠ .trailing
  behind : ∀ y, width ≤ y → (c y).half = .whole

/-- The cells of `s` from `lo` up to `hi`, laid over the strip `d`. -/
def laid (space : τ) (d s : ℕ → Cell τ) (lo hi y : ℕ) : Cell τ :=
  if y < lo then if y + 1 = lo ∧ (d lo).half = .trailing then .blank space else d y
  else if y < hi then s y
  else if y = hi ∧ (d y).half = .trailing then .blank space else d y

/-- The wide character whose first half is at `x`. -/
def wide (text : τ) (x y : ℕ) : Cell τ := if y = x then ⟨text, .leading⟩ else ⟨text, .trailing⟩

/-- A cell is written into a strip of `width` cells.  A half for which there is no room becomes a blank. -/
def paint (space : τ) (width : ℕ) (c : ℕ → Cell τ) (x : ℕ) (cell : Cell τ) : ℕ → Cell τ :=
  match cell.half with
  | .whole => laid space c (fun _ => cell) x (x + 1)
  | .leading =>
    if x + 1 = width then laid space c (fun _ => .blank space) x (x + 1)
    else laid space c (wide cell.text x) x (x + 2)
  | .trailing =>
    if x = 0 then laid space c (fun _ => .blank space) x (x + 1)
    else laid space c (wide cell.text (x - 1)) (x - 1) (x + 1)

/-! ### Laying -/

section Laying

variable {space : τ} {c d s t : ℕ → Cell τ} {lo hi x : ℕ}

lemma laid_of_lt {y : ℕ} (h : y + 1 < lo) : laid space d s lo hi y = d y := by
  unfold laid
  rw [if_pos (by omega), if_neg (by omega)]

lemma laid_inside {y : ℕ} (hlo : lo ≤ y) (hhi : y < hi) : laid space d s lo hi y = s y := by
  unfold laid
  rw [if_neg (by omega), if_pos hhi]

lemma laid_of_gt {y : ℕ} (hle : lo ≤ hi) (h : hi < y) : laid space d s lo hi y = d y := by
  unfold laid
  rw [if_neg (by omega), if_neg (by omega), if_neg (by omega)]

lemma laid_at_end (hle : lo ≤ hi) :
    laid space d s lo hi hi = if (d hi).half = .trailing then .blank space else d hi := by
  unfold laid
  rw [if_neg (by omega), if_neg (by omega)]
  simp only [true_and]

lemma laid_before {y : ℕ} (h : y + 1 = lo) :
    laid space d s lo hi y = if (d lo).half = .trailing then .blank space else d y := by
  unfold laid
  rw [if_pos (by omega)]
  simp only [h, true_and]

lemma laid_end_ne (hle : lo ≤ hi) : (laid space d s lo hi hi).half ≠ .trailing := by
  rw [laid_at_end hle]
  split
  · simp
  · assumption

lemma laid_congr (h : ∀ y, lo ≤ y → y < hi → s y = t y) : laid space d s lo hi = laid space d t lo hi := by
  funext y
  unfold laid
  split
  · rfl
  · split
    · exact h y (by omega) (by omega)
    · rfl

/-- Cells laid behind the ones that have just been laid. -/
theorem laid_laid_right (hlo : lo ≤ x) (hx : x ≤ hi) {e : ℕ} (he : hi ≤ e) (hcut : x < hi → (s x).half ≠ .trailing) :
    laid space (laid space d s lo hi) t x e = laid space d (fun y => if y < x then s y else t y) lo e := by
  have hclean : (laid space d s lo hi x).half ≠ .trailing := by
    rcases Nat.lt_or_eq_of_le hx with hlt | rfl
    · rw [laid_inside hlo hlt]
      exact hcut hlt
    · exact laid_end_ne hlo
  funext y
  rcases Nat.lt_or_ge y x with hyx | hxy
  · have hfront : laid space (laid space d s lo hi) t x e y = laid space d s lo hi y := by
      rw [laid, if_pos hyx, if_neg fun h => hclean h.2]
    rw [hfront]
    rcases Nat.lt_or_ge y lo with hylo | hylo
    · rw [laid, laid, if_pos hylo, if_pos hylo]
    · rw [laid_inside hylo (by omega), laid_inside hylo (by omega), if_pos hyx]
  · rcases Nat.lt_or_ge y e with hye | hye
    · rw [laid_inside hxy hye, laid_inside (by omega) hye, if_neg (by omega)]
    · have hend : laid space d s lo hi e = if hi = e ∧ (d e).half = .trailing then .blank space else d e := by
        rcases Nat.lt_or_eq_of_le he with hlt | rfl
        · rw [laid_of_gt (by omega) hlt, if_neg (by omega)]
        · rw [laid_at_end (by omega)]
          simp only [true_and]
      rcases Nat.lt_or_eq_of_le hye with hlt | rfl
      · rw [laid_of_gt (by omega) hlt, laid_of_gt (by omega) hlt, laid_of_gt (by omega) (by omega)]
      · rw [laid_at_end hxy, laid_at_end (by omega), hend]
        by_cases hcutEnd : hi = e ∧ (d e).half = .trailing
        · rw [if_pos hcutEnd, if_pos hcutEnd.2]
          rfl
        · rw [if_neg hcutEnd]

/-- Cells laid before the ones that have just been laid. -/
theorem laid_laid_left (hd : Paired d) {b : ℕ} (hb : b ≤ lo) (hx : lo ≤ x) (hhi : x ≤ hi)
    (hcut : x < hi → (s x).half ≠ .trailing) (hfirst : b = lo → lo < hi → (s lo).half ≠ .trailing) :
    laid space (laid space d s lo hi) t b x = laid space d (fun y => if y < x then t y else s y) b hi := by
  have hclean : (laid space d s lo hi x).half ≠ .trailing := by
    rcases Nat.lt_or_eq_of_le hhi with hlt | rfl
    · rw [laid_inside hx hlt]
      exact hcut hlt
    · exact laid_end_ne hx
  have hbefore : ∀ y, y + 1 = b → laid space (laid space d s lo hi) t b x y =
      if (d b).half = .trailing then .blank space else d y := by
    intro y hy
    rw [laid_before hy]
    rcases Nat.lt_or_eq_of_le hb with hlt | rfl
    · rw [laid_of_lt (y := y) (by omega)]
      rcases Nat.lt_or_eq_of_le (Nat.succ_le_of_lt hlt) with hlt' | hnext
      · rw [laid_of_lt hlt']
      · -- The cell at `b` may have lost its other half, and then it was no trailing half.
        have hpair := (hd b).1
        rw [show b + 1 = lo from hnext] at hpair
        rw [laid_before hnext]
        by_cases hlo : (d lo).half = .trailing
        · rw [if_pos hlo, hpair.mpr hlo]
          rfl
        · rw [if_neg hlo]
    · have hkept : (laid space d s b hi b).half ≠ .trailing := by
        rcases Nat.lt_or_ge b hi with hlt | hge
        · rw [laid_inside (Nat.le_refl b) hlt]
          exact hfirst rfl hlt
        · have hsame : hi = b := by omega
          rw [hsame]
          exact laid_end_ne (Nat.le_refl b)
      rw [if_neg hkept, laid_before hy]
  funext y
  rcases Nat.lt_or_ge y b with hyb | hby
  · rcases Nat.lt_or_eq_of_le (Nat.succ_le_of_lt hyb) with hlt | heq
    · rw [laid_of_lt hlt, laid_of_lt hlt, laid_of_lt (Nat.lt_of_lt_of_le hlt hb)]
    · rw [hbefore y heq, laid_before heq]
  · rcases Nat.lt_or_ge y x with hyx | hxy
    · rw [laid_inside hby hyx, laid_inside hby (Nat.lt_of_lt_of_le hyx hhi), if_pos hyx]
    · have hback : laid space (laid space d s lo hi) t b x y = laid space d s lo hi y := by
        rw [laid, if_neg (by omega), if_neg (by omega), if_neg]
        rintro ⟨rfl, h⟩
        exact hclean h
      have hloy : ¬y < lo := by omega
      have hyb : ¬y < b := by omega
      have hyx : ¬y < x := by omega
      rw [hback, laid, laid, if_neg hloy, if_neg hyb]
      simp only [if_neg hyx]

end Laying

/-! ### Painting a range -/

/-- A cell as it is painted. -/
def shown (space : τ) (width : ℕ) (s : ℕ → Cell τ) (y : ℕ) : Cell τ :=
  if y = 0 ∧ (s y).half = .trailing ∨ y + 1 = width ∧ (s y).half = .leading then .blank space else s y

/-- The first cell that is painted. -/
def low (s : ℕ → Cell τ) (a : ℕ) : ℕ := if (s a).half = .trailing ∧ 0 < a then a - 1 else a

/-- The end of the painted cells. -/
def high (width : ℕ) (s : ℕ → Cell τ) (e : ℕ) : ℕ := if (s (e - 1)).half = .leading ∧ e < width then e + 1 else e

/-- The strip `d` when the cells of the strip `s` from `a` up to `e` have been painted over it. -/
def pasted (space : τ) (width : ℕ) (d s : ℕ → Cell τ) (a e : ℕ) : ℕ → Cell τ :=
  if e ≤ a then d else laid space d (shown space width s) (low s a) (high width s e)

section Painting

variable {space : τ} {width : ℕ} {d s : ℕ → Cell τ} {a e k : ℕ}

lemma low_le (s : ℕ → Cell τ) (a : ℕ) : low s a ≤ a := by
  unfold low
  split
  · exact Nat.sub_le a 1
  · exact Nat.le_refl a

lemma le_low (s : ℕ → Cell τ) (a : ℕ) : a ≤ low s a + 1 := by
  unfold low
  split <;> omega

lemma high_le (width : ℕ) (s : ℕ → Cell τ) (e : ℕ) : high width s e ≤ e + 1 := by
  unfold high
  split <;> omega

lemma le_high (width : ℕ) (s : ℕ → Cell τ) (e : ℕ) : e ≤ high width s e := by
  unfold high
  split
  · exact Nat.le_succ e
  · exact Nat.le_refl e

lemma Fits.last (hd : Fits width d) {y : ℕ} (hy : y + 1 = width) : (d y).half ≠ .leading := by
  intro h
  have htrailing := (hd.paired y).1.mp h
  rw [hd.behind (y + 1) (by omega)] at htrailing
  exact nomatch htrailing

lemma cell_eq {cell : Cell τ} {half : Half} (h : cell.half = half) : ⟨cell.text, half⟩ = cell := by
  rw [← h]

/-- Both halves of a wide character of the strip. -/
lemma wide_eq (hs : Paired s) {x y : ℕ} (h : (s x).half = .leading) (hxy : x ≤ y) (hy : y < x + 2) :
    wide (s x).text x y = s y := by
  unfold wide
  split
  · next heq =>
    rw [heq]
    exact cell_eq h
  · next hne =>
    have hnext : y = x + 1 := by omega
    rw [hnext, ← (hs x).2 h]
    exact cell_eq ((hs x).1.mp h)

lemma shown_of_not {y : ℕ} (hfirst : y = 0 → (s y).half ≠ .trailing) (hlast : y + 1 = width → (s y).half ≠ .leading) :
    shown space width s y = s y := by
  unfold shown
  rw [if_neg]
  rintro (⟨h0, h⟩ | ⟨h1, h⟩)
  · exact hfirst h0 h
  · exact hlast h1 h

/-- A wide character for which there is room. -/
lemma shown_wide (hs : Paired s) {x y : ℕ} (h : (s x).half = .leading) (hroom : x + 1 < width) (hxy : x ≤ y)
    (hy : y < x + 2) : shown space width s y = wide (s x).text x y := by
  rw [wide_eq hs h hxy hy]
  have htrailing := (hs x).1.mp h
  rcases Nat.lt_or_eq_of_le hxy with hlt | heq
  · have hnext : y = x + 1 := by omega
    subst hnext
    exact shown_of_not (fun h0 => by omega) (fun _ => by rw [htrailing]; exact nofun)
  · subst heq
    exact shown_of_not (fun _ => by rw [h]; exact nofun) (fun hlast => by omega)

/-- What painting one cell lays. -/
lemma paint_eq (hs : Paired s) (hk : k < width) (c : ℕ → Cell τ) :
    paint space width c k (s k) = laid space c (shown space width s) (low s k) (high width s (k + 1)) := by
  unfold low high paint
  rw [Nat.add_sub_cancel]
  cases h : (s k).half with
  | whole =>
    simp only [reduceCtorEq, false_and, if_false]
    refine laid_congr fun y hy hlt => ?_
    have hyk : y = k := by omega
    subst hyk
    exact (shown_of_not (fun _ => by rw [h]; exact nofun) (fun _ => by rw [h]; exact nofun)).symm
  | leading =>
    simp only [reduceCtorEq, false_and, if_false, true_and]
    split
    · next hlast =>
      rw [if_neg (by omega)]
      refine laid_congr fun y hy hlt => ?_
      have hyk : y = k := by omega
      subst hyk
      exact (if_pos (.inr ⟨hlast, h⟩)).symm
    · next hlast =>
      rw [if_pos (by omega)]
      exact laid_congr fun y hy hlt => (shown_wide hs h (by omega) hy (by omega)).symm
  | trailing =>
    simp only [reduceCtorEq, false_and, if_false, true_and]
    split
    · next hfirst =>
      rw [if_neg (by omega)]
      refine laid_congr fun y hy hlt => ?_
      have hyk : y = k := by omega
      subst hyk
      exact (if_pos (.inl ⟨hfirst, h⟩)).symm
    · next hfirst =>
      rw [if_pos (by omega)]
      have hbefore : k - 1 + 1 = k := by omega
      have hpair := hs (k - 1)
      rw [hbefore] at hpair
      have hleading := hpair.1.mpr h
      rw [hpair.2 hleading]
      exact laid_congr fun y hy hlt => (shown_wide hs hleading (by omega) hy (by omega)).symm

lemma pasted_of_lt (h : a < e) :
    pasted space width d s a e = laid space d (shown space width s) (low s a) (high width s e) :=
  if_neg (by omega)

lemma pasted_self : pasted space width d s a a = d := if_pos (Nat.le_refl a)

/-- The first half of a wide character that goes on in the range is not cut. -/
lemma shown_ne_trailing {y : ℕ} (h : (s y).half ≠ .trailing) : (shown space width s y).half ≠ .trailing := by
  unfold shown
  split
  · simp
  · exact h

lemma merged : (fun y => if y < k then shown space width s y else shown space width s y) = shown space width s := by
  funext y
  exact ite_self _

/-- **From the left**: the next cell of the range is painted. -/
theorem paint_pasted (hs : Paired s) (hak : a ≤ k) (hk : k < width) :
    paint space width (pasted space width d s a k) k (s k) = pasted space width d s a (k + 1) := by
  rw [paint_eq hs hk, pasted_of_lt (Nat.lt_succ_of_le hak)]
  rcases Nat.lt_or_eq_of_le hak with hlt | rfl
  · have hlow : low s a ≤ low s k := by
      have := low_le s a
      unfold low at this ⊢
      split <;> split <;> omega
    have hpair := hs (k - 1)
    rw [Nat.sub_add_cancel (by omega)] at hpair
    have hhigh : low s k ≤ high width s k ∧ high width s k ≤ high width s (k + 1) := by
      have := low_le s k
      have := le_high width s k
      refine ⟨by omega, ?_⟩
      unfold high
      rw [Nat.add_sub_cancel]
      split <;> split <;> omega
    rw [pasted_of_lt hlt, laid_laid_right hlow hhigh.1 hhigh.2, merged]
    -- Only the second half of a character of the strip has its first half painted again.
    intro hinside
    refine shown_ne_trailing ?_
    by_cases htrailing : (s k).half = .trailing
    · have hfirst : low s k = k - 1 := if_pos ⟨htrailing, by omega⟩
      rw [hfirst, hpair.1.mpr htrailing]
      exact nofun
    · have hfirst : low s k = k := if_neg fun h => htrailing h.1
      rwa [hfirst]
  · rw [pasted_self]

/-- **From the right**: the cell before the range is painted. -/
theorem paint_pasted_back (hd : Paired d) (hs : Paired s) (hke : k < e) (he : e ≤ width) :
    paint space width (pasted space width d s (k + 1) e) k (s k) = pasted space width d s k e := by
  rw [paint_eq hs (by omega), pasted_of_lt hke]
  rcases Nat.lt_or_eq_of_le (Nat.succ_le_of_lt hke) with hlt | rfl
  · have hpair := hs k
    have hlow : low s k ≤ low s (k + 1) := by
      unfold low
      split <;> split <;> omega
    have hhigh : low s (k + 1) ≤ high width s (k + 1) ∧ high width s (k + 1) ≤ high width s e := by
      have hle := low_le s (k + 1)
      have := le_high width s (k + 1)
      have := le_high width s e
      refine ⟨by omega, ?_⟩
      unfold high at *
      rw [Nat.add_sub_cancel]
      split <;> omega
    rw [pasted_of_lt hlt, laid_laid_left hd hlow hhigh.1 hhigh.2, merged]
    · intro hinside
      refine shown_ne_trailing ?_
      unfold high
      rw [Nat.add_sub_cancel]
      split
      · next h =>
        intro htrailing
        have := (hs (k + 1)).1.mpr htrailing
        rw [hpair.1.mp h.1] at this
        exact nomatch this
      · next h =>
        intro htrailing
        have hleading := hpair.1.mpr htrailing
        refine h ⟨hleading, by omega⟩
    · intro hsame hinside
      refine shown_ne_trailing fun htrailing => ?_
      have hle := low_le s k
      have hnext : (s (k + 1)).half = .trailing ∧ 0 < k + 1 := by
        by_contra hnot
        have hlow' : low s (k + 1) = k + 1 := if_neg hnot
        omega
      have hlow' : low s (k + 1) = k := if_pos hnext
      rw [hlow', hpair.1.mpr hnext.1] at htrailing
      exact nomatch htrailing
  · rw [pasted_self]

/-! ### What a painted range leaves -/

lemma pasted_left {y : ℕ} (h : y + 2 < a) : pasted space width d s a e y = d y := by
  unfold pasted
  split
  · rfl
  · have := le_low s a
    exact laid_of_lt (by omega)

lemma pasted_right {y : ℕ} (h : e + 1 < y) : pasted space width d s a e y = d y := by
  unfold pasted
  split
  · rfl
  · have := low_le s a
    have := le_high width s e
    have := high_le width s e
    exact laid_of_gt (by omega) (by omega)

/-- Behind the range a cell may have lost its first half. -/
lemma pasted_next (hlt : a < e) {y : ℕ} (h : e < y) : pasted space width d s a e y = d y ∨
    pasted space width d s a e y = .blank space ∧ (d y).half = .trailing := by
  have hlow := low_le s a
  have := high_le width s e
  rw [pasted_of_lt hlt, laid, if_neg (by omega), if_neg (by omega)]
  split
  · next hcut => exact .inr ⟨rfl, hcut.2⟩
  · exact .inl rfl

lemma pasted_inside {y : ℕ} (ha : a ≤ y) (he : y < e) : pasted space width d s a e y = shown space width s y := by
  have := low_le s a
  have := le_high width s e
  rw [pasted_of_lt (by omega)]
  exact laid_inside (by omega) (by omega)

/-- Painting the strip over itself changes nothing. -/
theorem pasted_same (hd : Fits width d) : pasted space width d d a e = d := by
  unfold pasted
  split
  · rfl
  · next hlt =>
    funext y
    unfold laid
    split
    · rw [if_neg]
      rintro ⟨-, hcut⟩
      -- The range begins with the first half of the character.
      unfold low at hcut
      split at hcut
      · next h =>
        have hpair := (hd.paired (a - 1)).1
        rw [Nat.sub_add_cancel h.2] at hpair
        rw [hpair.mpr h.1] at hcut
        exact nomatch hcut
      · next h =>
        rcases Nat.eq_zero_or_pos a with rfl | hpos
        · exact hd.first hcut
        · exact h ⟨hcut, hpos⟩
    · split
      · exact shown_of_not (fun h0 => by rw [h0]; exact hd.first) hd.last
      · rw [if_neg]
        rintro ⟨hend, hcut⟩
        unfold high at hend
        split at hend
        · next h =>
          have htrailing := (hd.paired (e - 1)).1.mp h.1
          have hleading := (hd.paired e).1.mpr (hend ▸ hcut)
          rw [Nat.sub_add_cancel (by omega), hleading] at htrailing
          exact nomatch htrailing
        · next h =>
          rw [hend] at hcut
          have hleading := (hd.paired (e - 1)).1.mpr (by rwa [Nat.sub_add_cancel (by omega)])
          refine h ⟨hleading, ?_⟩
          by_contra hge
          rw [hd.behind e (by omega)] at hcut
          exact nomatch hcut

/-- The cell with the other half of the character. -/
def otherHalf (c : ℕ → Cell τ) (y : ℕ) : Option ℕ :=
  match (c y).half with
  | .whole => none
  | .leading => some (y + 1)
  | .trailing => some (y - 1)

/-- A cell is as it was, or it has lost its other half, which was one of the cells from `a` up to `e`. -/
def Keeps (space : τ) (a e : ℕ) (d f : ℕ → Cell τ) (y : ℕ) : Prop :=
  f y = d y ∨ f y = .blank space ∧ ∃ x, otherHalf d y = some x ∧ a ≤ x ∧ x < e

/-- What is laid over a strip keeps the cells outside. -/
lemma laid_keeps {lo hi y : ℕ} (hd : Paired d) (hlt : lo < hi)
    (hy : ¬(lo ≤ y ∧ y < hi)) : Keeps space lo hi d (laid space d s lo hi) y := by
  rcases Nat.lt_or_ge y lo with hlo | hlo
  · rcases Nat.lt_or_eq_of_le (Nat.succ_le_of_lt hlo) with hbefore | hnext
    · exact .inl (laid_of_lt hbefore)
    · unfold Keeps
      rw [laid_before hnext]
      split
      · next hcut =>
        have hleading := (hd y).1.mpr (by rwa [show y + 1 = lo from hnext])
        refine .inr ⟨rfl, y + 1, ?_, hnext.ge, by omega⟩
        unfold otherHalf
        rw [hleading]
      · exact .inl rfl
  · rcases Nat.lt_or_eq_of_le (show hi ≤ y by omega) with hbehind | rfl
    · exact .inl (laid_of_gt hlt.le hbehind)
    · unfold Keeps
      rw [laid_at_end hlt.le]
      split
      · next hcut =>
        refine .inr ⟨rfl, hi - 1, ?_, by omega, by omega⟩
        unfold otherHalf
        rw [hcut]
      · exact .inl rfl

/-- Before the range. -/
theorem pasted_before (hd : Paired d) (hlt : a < e) {y : ℕ} (hy : y < a)
    (hborder : (s a).half = .trailing → 0 < a → s (a - 1) = d (a - 1)) (hs : Paired s) (hroom : a < width) :
    Keeps space a e d (pasted space width d s a e) y := by
  unfold Keeps
  rw [pasted_of_lt hlt]
  by_cases htrailing : (s a).half = .trailing
  · have hlow : low s a = a - 1 := if_pos ⟨htrailing, by omega⟩
    have hleading : (s (a - 1)).half = .leading := by
      have hpair := (hs (a - 1)).1
      rw [Nat.sub_add_cancel (by omega)] at hpair
      exact hpair.mpr htrailing
    have hsame := hborder htrailing (by omega)
    have hle := le_high width s e
    left
    rw [hlow]
    rcases Nat.lt_or_ge (y + 1) a with hlt' | hge
    · rcases Nat.lt_or_ge (y + 2) a with hlt'' | hge'
      · exact laid_of_lt (by omega)
      · rw [laid_before (by omega), ← hsame, hleading]
        exact if_neg nofun
    · have hya : y = a - 1 := by omega
      subst hya
      rw [laid_inside (Nat.le_refl _) (by omega), ← hsame]
      exact shown_of_not (fun _ => by rw [hleading]; exact nofun) (fun _ => by omega)
  · have hlow : low s a = a := if_neg fun h => htrailing h.1
    rw [hlow]
    rcases Nat.lt_or_ge (y + 1) a with hlt' | hge
    · exact .inl (laid_of_lt hlt')
    · have hya : y + 1 = a := by omega
      rw [laid_before hya]
      split
      · next hcut =>
        have hleading := (hd y).1.mpr (hya ▸ hcut)
        refine .inr ⟨rfl, a, ?_, Nat.le_refl a, hlt⟩
        unfold otherHalf
        rw [hleading]
        exact congrArg some hya
      · exact .inl rfl

/-- Behind the range. -/
theorem pasted_behind (hd : Paired d) (hlt : a < e) {y : ℕ} (hy : e ≤ y)
    (hborder : (s (e - 1)).half = .leading → e < width → s e = d e) (hs : Paired s) :
    Keeps space a e d (pasted space width d s a e) y := by
  have hlow := low_le s a
  unfold Keeps
  rw [pasted_of_lt hlt]
  by_cases hleading : (s (e - 1)).half = .leading ∧ e < width
  · have hhigh : high width s e = e + 1 := if_pos hleading
    have htrailing : (s e).half = .trailing := by
      have hpair := (hs (e - 1)).1.mp hleading.1
      rwa [Nat.sub_add_cancel (by omega)] at hpair
    have hsame := hborder hleading.1 hleading.2
    left
    rw [hhigh]
    rcases Nat.lt_or_ge y (e + 1) with hlt' | hge
    · have hye : y = e := by omega
      subst hye
      rw [laid_inside (by omega) (by omega), ← hsame]
      exact shown_of_not (fun h0 => by omega) (fun _ => by rw [htrailing]; exact nofun)
    · rcases Nat.lt_or_eq_of_le hge with hlt'' | heq
      · exact laid_of_gt (by omega) hlt''
      · rw [← heq, laid_at_end (by omega)]
        refine if_neg fun hnext => ?_
        have hpair := (hd e).1.mpr hnext
        rw [← hsame, htrailing] at hpair
        exact nomatch hpair
  · have hhigh : high width s e = e := if_neg hleading
    rw [hhigh]
    rcases Nat.lt_or_eq_of_le hy with hlt' | heq
    · exact .inl (laid_of_gt (by omega) hlt')
    · subst heq
      rw [laid_at_end (by omega)]
      split
      · next hcut =>
        refine .inr ⟨rfl, e - 1, ?_, by omega, by omega⟩
        unfold otherHalf
        rw [hcut]
      · exact .inl rfl

lemma pasted_border_left (space : τ) (d : ℕ → Cell τ) (hs : Paired s) (hlt : a < e) (hroom : a < width)
    (h : (s a).half = .trailing) (hpos : 0 < a) :
    pasted space width d s a e (a - 1) = s (a - 1) ∧ (s (a - 1)).half = .leading := by
  have hlow : low s a = a - 1 := if_pos ⟨h, hpos⟩
  have hle := le_high width s e
  have hleading : (s (a - 1)).half = .leading := by
    have hpair := (hs (a - 1)).1
    rw [Nat.sub_add_cancel hpos] at hpair
    exact hpair.mpr h
  rw [pasted_of_lt hlt, hlow, laid_inside (Nat.le_refl _) (by omega)]
  exact ⟨shown_of_not (fun _ => by rw [hleading]; exact nofun) (fun _ => by omega), hleading⟩

lemma pasted_border_right (space : τ) (d : ℕ → Cell τ) (hs : Paired s) (hlt : a < e)
    (h : (s (e - 1)).half = .leading) (hroom : e < width) :
    pasted space width d s a e e = s e ∧ (s e).half = .trailing := by
  have hhigh : high width s e = e + 1 := if_pos ⟨h, hroom⟩
  have hlow := low_le s a
  have htrailing : (s e).half = .trailing := by
    have hpair := (hs (e - 1)).1.mp h
    rwa [Nat.sub_add_cancel (by omega)] at hpair
  rw [pasted_of_lt hlt, hhigh, laid_inside (by omega) (by omega)]
  exact ⟨shown_of_not (fun h0 => by omega) (fun _ => by rw [htrailing]; exact nofun), htrailing⟩

/-- The cells from `l` up to `r` of a strip `d` have been given up for the strip `s`: what of `s` goes to the cells from
`a` up to `e` is there, the other cells are blank, and nothing else has changed.  A half whose other half goes elsewhere
may be a blank. -/
structure Moved (space : τ) (l r a e : ℕ) (d s f : ℕ → Cell τ) : Prop where
  outside : ∀ y, y < l ∨ r ≤ y → Keeps space l r d f y
  moved : ∀ y, a ≤ y → y < e →
    f y = s y ∨ f y = .blank space ∧ ((s y).half = .trailing ∧ y = a ∨ (s y).half = .leading ∧ y + 1 = e)
  revealed : ∀ y, l ≤ y → y < r → y < a ∨ e ≤ y → f y = .blank space

/-- Nothing that is painted goes over the first cell, or it is there already. -/
def LeftClear (d s : ℕ → Cell τ) (a : ℕ) : Prop := (s a).half = .trailing → 0 < a → s (a - 1) = d (a - 1)

/-- Nothing that is painted goes over the last cell, or it is there already. -/
def RightClear (width : ℕ) (d s : ℕ → Cell τ) (e : ℕ) : Prop := (s (e - 1)).half = .leading → e < width → s e = d e

lemma Keeps.mono {l r l' r' y : ℕ} {f : ℕ → Cell τ} (h : Keeps space l r d f y) (hl : l' ≤ l) (hr : r ≤ r') :
    Keeps space l' r' d f y :=
  h.imp id fun ⟨hblank, x, hx, hlx, hxr⟩ => ⟨hblank, x, hx, hl.trans hlx, hxr.trans_le hr⟩

lemma Keeps.eq {l r y : ℕ} {f : ℕ → Cell τ} (h : Keeps space l r d f y) (hhalf : (f y).half ≠ .whole) : f y = d y := by
  rcases h with h | ⟨h, -⟩
  · exact h
  · rw [h] at hhalf
    exact absurd rfl hhalf

lemma shown_moved (hwidth : e ≤ width) {y : ℕ} (ha : a ≤ y) (he : y < e) :
    shown space width s y = s y ∨ shown space width s y = .blank space ∧
      ((s y).half = .trailing ∧ y = a ∨ (s y).half = .leading ∧ y + 1 = e) := by
  unfold shown
  split
  · next h =>
    refine .inr ⟨rfl, h.imp (fun h0 => ⟨h0.2, by omega⟩) (fun h1 => ⟨h1.2, by omega⟩)⟩
  · exact .inl rfl

/-- **A range painted over the same range**: it keeps to itself exactly when nothing goes over its borders. -/
theorem pasted_moved_iff (hd : Fits width d) (hs : Paired s) (hlt : a < e) (hwidth : e ≤ width) :
    Moved space a e a e d s (pasted space width d s a e) ↔ LeftClear d s a ∧ RightClear width d s e := by
  constructor
  · intro h
    refine ⟨fun htrailing hpos => ?_, fun hleading hroom => ?_⟩
    · obtain ⟨hpainted, hhalf⟩ := pasted_border_left space d hs hlt (show a < width by omega) htrailing hpos
      rw [← hpainted]
      exact (h.outside (a - 1) (.inl (by omega))).eq (by rw [hpainted, hhalf]; exact nofun)
    · obtain ⟨hpainted, hhalf⟩ := pasted_border_right space d hs hlt hleading hroom
      rw [← hpainted]
      exact (h.outside e (.inr (Nat.le_refl e))).eq (by rw [hpainted, hhalf]; exact nofun)
  · rintro ⟨hleft, hright⟩
    refine ⟨fun y hy => ?_, fun y ha he => ?_, fun y ha he hnot => by omega⟩
    · rcases hy with hy | hy
      · exact pasted_before hd.paired hlt hy hleft hs (by omega)
      · exact pasted_behind hd.paired hlt hy hright hs
    · rw [pasted_inside ha he]
      exact shown_moved hwidth ha he

/-! ### Blanks behind a painted range -/

/-- The cells from `lo` up to `hi` become blanks. -/
def erase (space : τ) (c : ℕ → Cell τ) (lo hi : ℕ) : ℕ → Cell τ := laid space c (fun _ => .blank space) lo hi

/-- The half at the end of the range goes with the blanks. -/
lemma erase_end (hs : Paired s) (hlt : a < e) (hroom : e < width) (r : ℕ) :
    erase space (pasted space width d s a e) e r (e - 1) =
      if (s (e - 1)).half = .leading then .blank space else shown space width s (e - 1) := by
  unfold erase
  rw [laid_before (by omega)]
  by_cases hleading : (s (e - 1)).half = .leading
  · obtain ⟨hpainted, hhalf⟩ := pasted_border_right space d hs hlt hleading hroom
    rw [if_pos hleading, hpainted, if_pos hhalf]
  · have hhigh : high width s e = e := if_neg fun h => hleading h.1
    have hlow := low_le s a
    have hne : (pasted space width d s a e e).half ≠ .trailing := by
      rw [pasted_of_lt hlt, hhigh]
      exact laid_end_ne (by omega)
    rw [if_neg hleading, if_neg hne]
    exact pasted_inside (by omega) (by omega)

/-- A range that nothing goes to. -/
lemma erase_moved (hd : Fits width d) {l r : ℕ} (hlt : l < r) : Moved space l r l l d s (erase space d l r) := by
  refine ⟨fun y hy => ?_, fun y hl hl' => by omega, fun y hl hr _ => laid_inside hl hr⟩
  rcases hy with hy | hy
  · rcases Nat.lt_or_eq_of_le (Nat.succ_le_of_lt hy) with hlt' | heq
    · exact .inl (laid_of_lt hlt')
    · unfold Keeps erase
      rw [laid_before heq]
      split
      · next hcut =>
        have hleading := (hd.paired y).1.mpr (by rw [show y + 1 = l from heq]; exact hcut)
        refine .inr ⟨rfl, l, ?_, Nat.le_refl l, hlt⟩
        unfold otherHalf
        rw [hleading]
        exact congrArg some heq
      · exact .inl rfl
  · rcases Nat.lt_or_eq_of_le hy with hlt' | rfl
    · exact .inl (laid_of_gt hlt.le hlt')
    · unfold Keeps erase
      rw [laid_at_end hlt.le]
      split
      · next hcut =>
        refine .inr ⟨rfl, r - 1, ?_, by omega, by omega⟩
        unfold otherHalf
        rw [hcut]
      · exact .inl rfl

/-- **A range moved to the left**, to the cells before `e`. -/
theorem erase_moved_iff (hd : Fits width d) (hs : Paired s) {r : ℕ} (hlt : a < e) (her : e < r) (hwidth : r ≤ width) :
    Moved space a r a e d s (erase space (pasted space width d s a e) e r) ↔ LeftClear d s a := by
  have hbefore : ∀ y, y + 1 < e → erase space (pasted space width d s a e) e r y = pasted space width d s a e y :=
    fun y hy => laid_of_lt hy
  constructor
  · intro h htrailing hpos
    obtain ⟨hpainted, hhalf⟩ := pasted_border_left space d hs hlt (show a < width by omega) htrailing hpos
    rw [← hbefore (a - 1) (by omega)] at hpainted
    rw [← hpainted]
    exact (h.outside (a - 1) (.inl (by omega))).eq (by rw [hpainted, hhalf]; exact nofun)
  · intro hleft
    refine ⟨fun y hy => ?_, fun y ha he => ?_, fun y ha hr hnot => laid_inside (by omega) hr⟩
    · rcases hy with hy | hy
      · have hkeeps : Keeps space a e d (pasted space width d s a e) y :=
          pasted_before hd.paired hlt hy hleft hs (by omega)
        have hsame := hbefore y (by omega)
        unfold Keeps at hkeeps ⊢
        rw [hsame]
        exact Keeps.mono hkeeps (Nat.le_refl a) her.le
      · have hpast : pasted space width d s a e y = d y ∨
            pasted space width d s a e y = .blank space ∧ (d y).half = .trailing := pasted_next hlt (by omega)
        rcases Nat.lt_or_eq_of_le hy with hlt' | rfl
        · left
          rw [erase, laid_of_gt her.le hlt']
          exact pasted_right (by omega)
        · have hcut (h : (d r).half = .trailing) : ∃ x, otherHalf d r = some x ∧ a ≤ x ∧ x < r := by
            refine ⟨r - 1, ?_, by omega, by omega⟩
            unfold otherHalf
            rw [h]
          unfold Keeps erase
          rw [laid_at_end her.le]
          rcases hpast with hsame | ⟨hblank, htrailing⟩
          · rw [hsame]
            split
            · next h => exact .inr ⟨rfl, hcut h⟩
            · exact .inl rfl
          · rw [hblank, if_neg nofun]
            exact .inr ⟨rfl, hcut htrailing⟩
    · rcases Nat.lt_or_eq_of_le (Nat.succ_le_of_lt he) with hlt' | heq
      · rw [hbefore y hlt', pasted_inside ha he]
        exact shown_moved (by omega) ha he
      · have hye : y = e - 1 := by omega
        rw [hye, erase_end hs hlt (by omega) r]
        split
        · next hleading => exact .inr ⟨rfl, .inr ⟨hleading, by omega⟩⟩
        · exact shown_moved (by omega) (by omega) (by omega)

/-- Before the blanks a cell may have lost its second half. -/
lemma erase_before (hd : Paired d) (hs : Paired s) {l : ℕ} (hla : l < a) (hlt : a < e) (hroom : a < width) {y : ℕ}
    (hy : y + 1 = l) : erase space (pasted space width d s a e) l a y =
      if (d l).half = .trailing then .blank space else d y := by
  have hlow := le_low s a
  have hhigh := le_high width s e
  unfold erase
  rw [laid_before hy]
  by_cases hlast : low s a = l
  · have htrailing : (s a).half = .trailing ∧ 0 < a := by
      by_contra hnot
      have hlow' : low s a = a := if_neg hnot
      omega
    have hla' : a - 1 = l := by
      have hlow' : low s a = a - 1 := if_pos htrailing
      omega
    obtain ⟨hpainted, hleading⟩ := pasted_border_left space d hs hlt hroom htrailing.1 htrailing.2
    rw [hla'] at hpainted hleading
    rw [hpainted, hleading, if_neg nofun, pasted_of_lt hlt, hlast, laid_before hy]
  · have hy' : pasted space width d s a e y = d y := by
      rw [pasted_of_lt hlt]
      exact laid_of_lt (by omega)
    rw [hy']
    have hl : pasted space width d s a e l = d l ∨
        pasted space width d s a e l = .blank space ∧ (d l).half = .leading := by
      rw [pasted_of_lt hlt, laid, if_pos (by omega)]
      split
      · next hcut => exact .inr ⟨rfl, (hd l).1.mpr (by rw [hcut.1]; exact hcut.2)⟩
      · exact .inl rfl
    rcases hl with hsame | ⟨hblank, hleading⟩
    · rw [hsame]
    · rw [hblank, hleading, if_neg nofun, if_neg nofun]

/-- **A range moved to the right**, to the cells from `a` on. -/
theorem erase_moved_iff' (hd : Fits width d) (hs : Paired s) {l : ℕ} (hla : l < a) (hlt : a < e) (hwidth : e ≤ width) :
    Moved space l e a e d s (erase space (pasted space width d s a e) l a) ↔ RightClear width d s e := by
  have hbehind : ∀ y, a < y → erase space (pasted space width d s a e) l a y = pasted space width d s a e y :=
    fun y hy => laid_of_gt hla.le hy
  constructor
  · intro h hleading hroom
    obtain ⟨hpainted, hhalf⟩ := pasted_border_right space d hs hlt hleading hroom
    rw [← hbehind e hlt] at hpainted
    rw [← hpainted]
    exact (h.outside e (.inr (Nat.le_refl e))).eq (by rw [hpainted, hhalf]; exact nofun)
  · intro hright
    refine ⟨fun y hy => ?_, fun y ha he => ?_, fun y hl hr hnot => laid_inside hl (by omega)⟩
    · rcases hy with hy | hy
      · rcases Nat.lt_or_eq_of_le (Nat.succ_le_of_lt hy) with hlt' | heq
        · left
          rw [erase, laid_of_lt hlt']
          exact pasted_left (by omega)
        · unfold Keeps
          rw [erase_before hd.paired hs hla hlt (by omega) heq]
          split
          · next hcut =>
            have hleading := (hd.paired y).1.mpr (by rw [show y + 1 = l from heq]; exact hcut)
            refine .inr ⟨rfl, l, ?_, Nat.le_refl l, by omega⟩
            unfold otherHalf
            rw [hleading]
            exact congrArg some heq
          · exact .inl rfl
      · have hkeeps : Keeps space a e d (pasted space width d s a e) y :=
          pasted_behind hd.paired hlt hy hright hs
        have hsame := hbehind y (by omega)
        unfold Keeps at hkeeps ⊢
        rw [hsame]
        exact Keeps.mono hkeeps hla.le (Nat.le_refl e)
    · rcases Nat.lt_or_eq_of_le ha with hlt' | rfl
      · rw [hbehind y hlt', pasted_inside ha he]
        exact shown_moved hwidth ha he
      · unfold erase
        rw [laid_at_end hla.le, pasted_inside ha he]
        rcases @shown_moved τ space width s _ e hwidth _ ha he with hsame | ⟨hblank, hcut⟩
        · rw [hsame]
          split
          · next h => exact .inr ⟨rfl, .inl ⟨h, rfl⟩⟩
          · exact .inl rfl
        · rw [hblank, if_neg nofun]
          exact .inr ⟨rfl, hcut⟩

end Painting

end VT7.Lib.Cells
