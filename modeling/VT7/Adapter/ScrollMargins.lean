import VT7.Adapter.ScrolledRows

/-!
# Scrolling inside margins

The four transfers of the two functions, and what the functions leave: `scrollRectVertically_iff` and
`scrollRectHorizontally_iff` say exactly when a scroll keeps to its rectangle.
-/

namespace VT7.Adapter

open VT7.Buffer
open VT7.Lib.Cells
open VT7.Types (Rect)
open VT7.Types.Viewport

variable {α : Type}

/-! ### Short texts -/

lemma weight_blank : weight (.blank [space]) = 1 := rfl

lemma weight_erase_le (f : ℕ → GlyphCell) (lo hi x : ℕ) : weight (erase [space] f lo hi x) ≤ max (weight (f x)) 1 := by
  unfold erase laid
  split
  · split
    · rw [weight_blank]
      omega
    · omega
  · split
    · rw [weight_blank]
      omega
    · split
      · rw [weight_blank]
        omega
      · omega

lemma weight_pasted_le (width : ℕ) (d s : ℕ → GlyphCell) (a e x : ℕ) :
    weight (pasted [space] width d s a e x) ≤ weight (d x) + weight (s x) + 1 := by
  unfold pasted
  split
  · omega
  · unfold laid shown
    split
    · split
      · rw [weight_blank]
        omega
      · omega
    · split
      · split
        · rw [weight_blank]
          omega
        · omega
      · split
        · rw [weight_blank]
          omega
        · omega

lemma weight_copied_le (limit : ℕ) (d s : ℕ → GlyphCell) (x : ℕ) :
    weight (copied limit d s x) ≤ weight (d x) + weight (s x) + 1 := by
  unfold copied
  split
  · omega
  · unfold laid
    dsimp only
    rw [if_neg (by omega)]
    split
    · split
      · rw [weight_blank]
        omega
      · omega
    · split
      · rw [weight_blank]
        omega
      · omega

open Finset in
lemma sum_weight_le {width bound : ℕ} {d s f : ℕ → GlyphCell} (hf : ∀ x, weight (f x) ≤ weight (d x) + weight (s x) + 1)
    (hs : ∑ x ∈ range width, weight (s x) ≤ bound + width) :
    ∑ x ∈ range width, weight (f x) ≤ ∑ x ∈ range width, weight (d x) + bound + 2 * width := by
  have hsum : ∑ x ∈ range width, weight (f x) ≤ ∑ x ∈ range width, (weight (d x) + weight (s x) + 1) :=
    sum_le_sum fun x _ => hf x
  rw [sum_add_distrib, sum_add_distrib, ← card_eq_sum_ones, card_range] at hsum
  omega

open Finset in
/-- A moved strip has at most blanks in addition. -/
lemma sum_shifted_le {width : ℕ} {s : ℕ → GlyphCell} (hbehind : ∀ x, width ≤ x → s x = .blank [space]) {dx : ℤ}
    (hdx : |dx| ≤ width) : ∑ x ∈ range width, weight (shifted dx s x) ≤ ∑ x ∈ range width, weight (s x) + width := by
  rcases le_or_gt 0 dx with hpos | hneg
  · obtain ⟨k, rfl⟩ := Int.eq_ofNat_of_zero_le hpos
    rw [abs_of_nonneg hpos] at hdx
    obtain ⟨w, rfl⟩ := Nat.exists_eq_add_of_le (show k ≤ width by omega)
    have hblanks : ∑ x ∈ range k, weight (shifted k s x) = k := by
      rw [sum_congr rfl fun x hx => show weight (shifted k s x) = 1 by
        have hlt := mem_range.mp hx
        unfold shifted
        rw [if_pos (by omega)]
        rfl]
      rw [← card_eq_sum_ones, card_range]
    have hmoved : ∀ x, weight (shifted k s (k + x)) = weight (s x) := fun x => by
      rw [shifted_of_eq (u := x) (by omega)]
    rw [sum_range_add, hblanks, sum_congr rfl fun x _ => hmoved x]
    have hsub : ∑ x ∈ range w, weight (s x) ≤ ∑ x ∈ range (k + w), weight (s x) :=
      sum_le_sum_of_subset (range_subset_range.mpr (by omega))
    omega
  · obtain ⟨k, hk⟩ := Int.eq_ofNat_of_zero_le (show 0 ≤ -dx by omega)
    rw [abs_of_neg hneg, hk] at hdx
    have hmoved : ∀ x, weight (shifted dx s x) = weight (s (k + x)) := fun x => by
      rw [shifted_of_eq (u := k + x) (by omega)]
    have hfront := sum_range_add (fun x => weight (s x)) k width
    have hback := sum_range_add (fun x => weight (s x)) width k
    have hblanks : ∑ x ∈ range k, weight (s (width + x)) = k := by
      rw [sum_congr rfl fun x _ => show weight (s (width + x)) = 1 by rw [hbehind _ (by omega)]; rfl]
      rw [← card_eq_sum_ones, card_range]
    rw [sum_congr rfl fun x _ => hmoved x]
    rw [Nat.add_comm k width] at hfront
    omega

/-! ### The four transfers -/

open Finset in
/-- A rectangle of a buffer with this content. -/
structure Setting (b : TextBuffer α) (width height l t r m : ℕ) (cells : ℕ → ℕ → GlyphCell)
    (attrs : ℕ → ℕ → Option α) : Prop where
  displays : b.Displays width height cells attrs
  columns : l < r
  right : r ≤ width
  lines : t < m
  bottom : m ≤ height
  short : ∀ y v, t ≤ y → y < m → t ≤ v → v < m →
    ∑ x ∈ range width, weight (cells y x) + ∑ x ∈ range width, weight (cells v x) + 2 * width < 0x8000

namespace Setting

variable {b : TextBuffer α} {width height l t r m : ℕ} {cells : ℕ → ℕ → GlyphCell} {attrs : ℕ → ℕ → Option α}

lemma width_lt (S : Setting b width height l t r m cells attrs) : width < 0x8000 := by
  have hshort := S.short t t (Nat.le_refl t) S.lines (Nat.le_refl t) S.lines
  omega

lemma fits (S : Setting b width height l t r m cells attrs) {y : ℕ} (hy : y < m) : Fits width (cells y) :=
  (S.displays.rows y (by have := S.bottom; omega)).fits

open Finset in
lemma short_of (S : Setting b width height l t r m cells attrs) {y v : ℕ} (hty : t ≤ y) (hym : y < m) (htv : t ≤ v)
    (hvm : v < m) (dx : ℤ) (hdx : |dx| ≤ width) {f : ℕ → GlyphCell}
    (hf : ∀ x, weight (f x) ≤ weight (cells y x) + weight (shifted dx (cells v) x) + 1) :
    ∑ x ∈ range width, weight (f x) < 0x8000 := by
  have hshort := S.short y v hty hym htv hvm
  have hbehind : ∀ x, width ≤ x → cells v x = .blank [space] := fun x hx =>
    (S.displays.rows v (by have := S.bottom; omega)).behind hx
  have hsum := sum_weight_le hf (sum_shifted_le hbehind hdx)
  omega

/-- The cells of the row `v` go to the row `y`, moved by `dx`. -/
lemma short_pasted (S : Setting b width height l t r m cells attrs) {y v : ℕ} (hty : t ≤ y) (hym : y < m) (htv : t ≤ v)
    (hvm : v < m) {dx : ℤ} (hdx : |dx| ≤ width) (a e : ℕ) :
    ∑ x ∈ Finset.range width, weight (pasted [space] width (cells y) (shifted dx (cells v)) a e x) < 0x8000 :=
  S.short_of hty hym htv hvm dx hdx fun _ => weight_pasted_le _ _ _ _ _ _

/-- Lines move up. -/
def up (S : Setting b width height l t r m cells attrs) (k : ℕ) (hk : t + k < m) : Transfer α where
  width := width
  height := height
  left := l
  top := t
  columns := r - l
  lines := m - t - k
  forward := true
  cells := cells
  attrs := attrs
  source y := shifted 0 (cells (y + k))
  sourceAttrs y := attrs (y + k)
  columns_pos := by have := S.columns; omega
  lines_pos := by omega
  right_le := by have := S.columns; have := S.right; omega
  bottom_le := by have := S.bottom; omega
  width_lt := S.width_lt
  paired y _ hy := paired_shifted (S.fits (by omega)) 0
  short y hty hy a e := S.short_pasted hty (by omega) (by omega) (by omega) (by rw [abs_zero]; omega) a e

/-- Lines move down. -/
def down (S : Setting b width height l t r m cells attrs) (k : ℕ) (hk : t + k < m) : Transfer α where
  width := width
  height := height
  left := l
  top := t + k
  columns := r - l
  lines := m - t - k
  forward := false
  cells := cells
  attrs := attrs
  source y := shifted 0 (cells (y - k))
  sourceAttrs y := attrs (y - k)
  columns_pos := by have := S.columns; omega
  lines_pos := by omega
  right_le := by have := S.columns; have := S.right; omega
  bottom_le := by have := S.bottom; omega
  width_lt := S.width_lt
  paired y _ hy := paired_shifted (S.fits (by omega)) 0
  short y hty hy a e := S.short_pasted (by omega) (by omega) (by omega) (by omega) (by rw [abs_zero]; omega) a e

/-- Columns move to the left. -/
def leftward (S : Setting b width height l t r m cells attrs) (k : ℕ) (hk : l + k < r) : Transfer α where
  width := width
  height := height
  left := l
  top := t
  columns := r - l - k
  lines := m - t
  forward := true
  cells := cells
  attrs := attrs
  source y := shifted (-k) (cells y)
  sourceAttrs y x := attrs y (x + k)
  columns_pos := by omega
  lines_pos := by have := S.lines; omega
  right_le := by have := S.right; omega
  bottom_le := by have := S.lines; have := S.bottom; omega
  width_lt := S.width_lt
  paired y _ hy := paired_shifted (S.fits (by omega)) _
  short y hty hy a e := S.short_pasted hty (by omega) hty (by omega)
    (by rw [abs_neg, Nat.abs_cast]; have := S.right; omega) a e

/-- Columns move to the right. -/
def rightward (S : Setting b width height l t r m cells attrs) (k : ℕ) (hk : l + k < r) : Transfer α where
  width := width
  height := height
  left := l + k
  top := t
  columns := r - l - k
  lines := m - t
  forward := false
  cells := cells
  attrs := attrs
  source y := shifted k (cells y)
  sourceAttrs y x := attrs y (x - k)
  columns_pos := by omega
  lines_pos := by have := S.lines; omega
  right_le := by have := S.right; omega
  bottom_le := by have := S.lines; have := S.bottom; omega
  width_lt := S.width_lt
  paired y _ hy := paired_shifted (S.fits (by omega)) _
  short y hty hy a e := S.short_pasted hty (by omega) hty (by omega)
    (by rw [Nat.abs_cast]; have := S.right; omega) a e

/-! ### Every cell is there when it is read -/

variable (S : Setting b width height l t r m cells attrs) {k : ℕ}

lemma up_finds (hk : t + k < m) (hpos : 0 < k) {j : ℕ} (hj : j < (S.up k hk).size) : (S.up k hk).Finds l (t + k) j j := by
  have hrow : t ≤ (S.up k hk).row j ∧ (S.up k hk).row j < t + (m - t - k) := Transfer.row_mem hj
  have hcolumn : _ ∧ (S.up k hk).column j < l + (r - l) := Transfer.column_mem hj
  have hbottom := S.bottom
  have hright := S.right
  have hcolumns := S.columns
  have hkept := Transfer.after_of_rank (T := S.up k hk) (k := j) (y := (S.up k hk).row j + k) fun _ _ => by
    have hrank : (S.up k hk).row j - t = j / (S.up k hk).columns := Transfer.rank_row hj
    show j / (S.up k hk).columns < (S.up k hk).row j + k - t
    omega
  refine .of rfl ?_ ?_ ?_ ⟨congrFun hkept.1 _, congrFun hkept.2 _⟩ (congrFun (shifted_zero _) _).symm rfl
  · show t + k + (S.up k hk).number j / (r - l) = t + (S.up k hk).number j / (r - l) + k
    omega
  · show (S.up k hk).column j < width
    omega
  · show (S.up k hk).row j + k < height
    omega

lemma down_finds (hk : t + k < m) {j : ℕ} (hj : j < (S.down k hk).size) : (S.down k hk).Finds l t j j := by
  have hrow : t + k ≤ (S.down k hk).row j ∧ (S.down k hk).row j < t + k + (m - t - k) := Transfer.row_mem hj
  have hcolumn : _ ∧ (S.down k hk).column j < l + (r - l) := Transfer.column_mem hj
  have hbottom := S.bottom
  have hright := S.right
  have hcolumns := S.columns
  have hkept : (S.down k hk).cellsAfter j ((S.down k hk).row j - k) = cells ((S.down k hk).row j - k) ∧
      (S.down k hk).attrsAfter j ((S.down k hk).row j - k) = attrs ((S.down k hk).row j - k) := by
    rcases Nat.eq_zero_or_pos k with rfl | hpos
    · exact Transfer.after_of_same (T := S.down 0 hk) (S.fits (by omega)) (shifted_zero _) rfl
    · refine Transfer.after_of_rank (T := S.down k hk) (k := j) fun htop' _ => ?_
      have hrank : m - t - k - 1 - ((S.down k hk).row j - (t + k)) = j / (S.down k hk).columns := Transfer.rank_row hj
      have htop'' : t + k ≤ (S.down k hk).row j - k := htop'
      show j / (S.down k hk).columns < m - t - k - 1 - ((S.down k hk).row j - k - (t + k))
      omega
  refine .of rfl ?_ ?_ ?_ ⟨congrFun hkept.1 _, congrFun hkept.2 _⟩ (congrFun (shifted_zero _) _).symm rfl
  · show t + (S.down k hk).number j / (r - l) = t + k + (S.down k hk).number j / (r - l) - k
    generalize (S.down k hk).number j / (r - l) = i
    omega
  · show (S.down k hk).column j < width
    omega
  · show (S.down k hk).row j - k < height
    omega

lemma leftward_finds (hk : l + k < r) (hpos : 0 < k) {j : ℕ} (hj : j < (S.leftward k hk).size) :
    (S.leftward k hk).Finds (l + k) t j (j - 1) := by
  have hrow : t ≤ (S.leftward k hk).row j ∧ (S.leftward k hk).row j < t + (m - t) := Transfer.row_mem hj
  have hcolumn : _ ∧ (S.leftward k hk).column j < l + (r - l - k) := Transfer.column_mem hj
  have hbottom := S.bottom
  have hright := S.right
  refine .of ?_ rfl ?_ ?_ (Transfer.after_of_apart hj ?_) (shifted_of_eq ?_).symm rfl
  · show l + k + (S.leftward k hk).number j % (r - l - k) = l + (S.leftward k hk).number j % (r - l - k) + k
    omega
  · show (S.leftward k hk).column j + k < width
    omega
  · show (S.leftward k hk).row j < height
    omega
  · show (S.leftward k hk).column j < (S.leftward k hk).column j + k
    omega
  · omega

lemma rightward_finds (hk : l + k < r) {j : ℕ} (hj : j < (S.rightward k hk).size) :
    (S.rightward k hk).Finds l t j (j - 1) := by
  have hrow : t ≤ (S.rightward k hk).row j ∧ (S.rightward k hk).row j < t + (m - t) := Transfer.row_mem hj
  have hcolumn : l + k ≤ (S.rightward k hk).column j ∧ (S.rightward k hk).column j < l + k + (r - l - k) :=
    Transfer.column_mem hj
  have hbottom := S.bottom
  have hright := S.right
  have hkept : (S.rightward k hk).cellsAfter (j - 1) ((S.rightward k hk).row j) ((S.rightward k hk).column j - k) =
        cells ((S.rightward k hk).row j) ((S.rightward k hk).column j - k) ∧
      (S.rightward k hk).attrsAfter (j - 1) ((S.rightward k hk).row j) ((S.rightward k hk).column j - k) =
        attrs ((S.rightward k hk).row j) ((S.rightward k hk).column j - k) := by
    rcases Nat.eq_zero_or_pos k with rfl | hpos
    · have hsame := Transfer.after_of_same (T := S.rightward 0 hk) (k := j - 1) (y := (S.rightward 0 hk).row j)
        (S.fits (by omega)) (shifted_zero _) rfl
      exact ⟨congrFun hsame.1 _, congrFun hsame.2 _⟩
    · refine Transfer.after_of_apart hj ?_
      show (S.rightward k hk).column j - k < (S.rightward k hk).column j
      omega
  refine .of ?_ rfl ?_ ?_ hkept (shifted_of_eq (by omega)).symm rfl
  · show l + (S.rightward k hk).number j % (r - l - k) = l + k + (S.rightward k hk).number j % (r - l - k) - k
    generalize (S.rightward k hk).number j % (r - l - k) = i
    omega
  · show (S.rightward k hk).column j - k < width
    omega
  · show (S.rightward k hk).row j < height
    omega

/-! ### What is filled behind it -/

lemma reaches_self (l r : ℕ) : Reaches l r l r 0 := fun x => by omega

/-- The rows that a scroll reveals. -/
lemma revealed_iff {delta : ℤ} {top k : ℕ} (hk : (k : ℤ) = min |delta| (m - t))
    (htop : (top : ℤ) = if 0 < delta then (t : ℤ) else m - k) {y : ℕ} (hy : t ≤ y ∧ y < m) :
    top ≤ y ∧ y < top + k ↔ ¬((t : ℤ) ≤ y - delta ∧ (y : ℤ) - delta < m) := by
  split at htop
  · next hpos =>
    rw [abs_of_pos hpos] at hk
    omega
  · next hneg =>
    rw [abs_of_nonpos (by omega)] at hk
    omega

include S in
/-- **The fill behind a vertical scroll**, and what is left to show of the rows that have moved. -/
theorem vertical_tail (delta : ℤ) (cwd : Clustering) (eraseAttributes : α) {b₁ : TextBuffer α}
    {cells₁ : ℕ → ℕ → GlyphCell} {attrs₁ : ℕ → ℕ → Option α} (hb₁ : b₁.Displays width height cells₁ attrs₁)
    (hstill : ∀ y : ℕ, ¬((t ≤ y ∧ y < m) ∧ (t : ℤ) ≤ y - delta ∧ (y : ℤ) - delta < m) →
      cells₁ y = cells y ∧ attrs₁ y = attrs y)
    (hmoved : ∀ y v : ℕ, t ≤ y → y < m → t ≤ v → v < m → v + delta = y →
      ∀ x, attrs₁ y x = if l ≤ x ∧ x < r then attrs v x else attrs y x) :
    ∃ b₂, (do
        let eraseTop : ℤ := if 0 < delta then (t : ℤ) else m - min |delta| (m - t)
        let eraseRect : Rect := ⟨l, eraseTop, r, eraseTop + min |delta| (m - t)⟩
        let textBuffer ← (b₁.fillRect cwd eraseRect [space] eraseAttributes).mapError WriteCellsError.buffer
        .ok (textBuffer.resetLineRenditionRange eraseRect.top eraseRect.bottom)) = .ok b₂ ∧ Content b₂ ∧
      (ScrolledBy b b₂ ⟨l, t, r, m⟩ ⟨0, delta⟩ eraseAttributes ↔
        ∀ y v : ℕ, t ≤ y → y < m → t ≤ v → v < m → v + delta = y →
          Moved [space] l r l r (cells y) (cells v) (cells₁ y)) := by
  have htm := S.lines
  have hlr := S.columns
  have hright := S.right
  have hbottom := S.bottom
  obtain ⟨k, hk⟩ := Int.eq_ofNat_of_zero_le (show 0 ≤ min |delta| ((m : ℤ) - t) by
    have := abs_nonneg delta
    omega)
  obtain ⟨top, htop⟩ := Int.eq_ofNat_of_zero_le (show 0 ≤ (if 0 < delta then (t : ℤ) else m - k) by
    split <;> omega)
  have hrevealed := fun y => @revealed_iff t m delta top k hk.symm htop.symm y
  have hspan : t ≤ top ∧ top + k ≤ m := by
    split at htop <;> omega
  have herased : ∀ {y}, top ≤ y ∧ y < top + k → cells₁ y = cells y ∧ attrs₁ y = attrs y := fun {y} hy =>
    hstill y fun h => (hrevealed y h.1).mp hy h.2
  obtain ⟨b₂, hfill, hb₂⟩ := hb₁.fillRect S.width_lt cwd hlr hright (show top ≤ top + k by omega) (by omega)
    eraseAttributes fun z hlo hhi => by
      rw [(herased ⟨hlo, hhi⟩).1]
      refine S.short_of (y := z) (v := z) (by omega) (by omega) (by omega) (by omega) 0 (by rw [abs_zero]; omega)
        fun x => ?_
      have := weight_erase_le (cells z) l r x
      omega
  have hreset := hb₂.resetLineRenditionFrom (show top + k ≤ height by omega)
  refine ⟨TextBuffer.resetLineRenditionFrom k top b₂, ?_, content_of_displays hreset, ?_⟩
  · rw [hk, htop]
    dsimp only
    rw [show (top : ℤ) + k = (top + k : ℕ) by omega, hfill]
    show Except.ok (b₂.resetLineRenditionRange top (top + k : ℕ)) = _
    unfold TextBuffer.resetLineRenditionRange
    rw [show (((top + k : ℕ) : ℤ) - top).toNat = k by omega]
  · rw [scrolledBy_iff S.displays hreset hright hbottom (reaches_self l r)]
    · refine ⟨fun h y v hty hym htv hvm hvy => ?_, fun h y hty hym => ⟨fun v htv hvm hvy => ?_, fun hnone => ?_⟩⟩
      · have hrow := (h y hty hym).1 v htv hvm hvy
        rwa [shifted_zero, if_neg (fun hin => (hrevealed y ⟨hty, hym⟩).mp hin (by omega))] at hrow
      · rw [shifted_zero, if_neg (fun hin => (hrevealed y ⟨hty, hym⟩).mp hin (by omega))]
        exact h y v hty hym htv hvm hvy
      · have hin : top ≤ y ∧ y < top + k := (hrevealed y ⟨hty, hym⟩).mpr fun h' => by
          obtain ⟨v, hv⟩ := Int.eq_ofNat_of_zero_le (show 0 ≤ (y : ℤ) - delta by omega)
          exact hnone v (by omega) (by omega) (by omega)
        rw [if_pos hin, (herased hin).1]
        exact erase_moved (S.fits hym) hlr
    · refine ⟨fun x y hnot => ?_, fun x y u v hxy huv hux hvy => ?_, fun x y hxy hnot => ?_⟩
      · by_cases hin : (t ≤ y ∧ y < m) ∧ (t : ℤ) ≤ y - delta ∧ (y : ℤ) - delta < m
        · obtain ⟨v, hv⟩ := Int.eq_ofNat_of_zero_le (show 0 ≤ (y : ℤ) - delta by omega)
          have hx : ¬(l ≤ x ∧ x < r) := fun hx => hnot ⟨hx, hin.1⟩
          rw [if_neg fun h => hx h.2, hmoved y v hin.1.1 hin.1.2 (by omega) (by omega) (by omega), if_neg hx]
        · rw [if_neg, (hstill y hin).2]
          intro hrow
          exact hnot ⟨hrow.2, by omega⟩
      · have hux' : u = x := by omega
        rw [if_neg fun h => (hrevealed y hxy.2).mp h.1 (by omega),
          hmoved y v hxy.2.1 hxy.2.2 huv.2.1 huv.2.2 hvy, if_pos hxy.1, hux']
      · rw [if_pos ⟨(hrevealed y hxy.2).mpr fun h => hnot ⟨by omega, h⟩, hxy.1⟩]
    · intro y hy
      rw [if_neg (by omega)]
      exact (hstill y fun h => hy h.1).1

/-! ### Vertical scrolls -/

/-- What the first part of `_ScrollRectVertically` leaves. -/
structure MovedRows (S : Setting b width height l t r m cells attrs) (delta : ℤ) (b₁ : TextBuffer α)
    (cells₁ : ℕ → ℕ → GlyphCell) (attrs₁ : ℕ → ℕ → Option α) : Prop where
  displays : b₁.Displays width height cells₁ attrs₁
  still : ∀ y : ℕ, ¬((t ≤ y ∧ y < m) ∧ (t : ℤ) ≤ y - delta ∧ (y : ℤ) - delta < m) →
    cells₁ y = cells y ∧ attrs₁ y = attrs y
  attrs : ∀ y v : ℕ, t ≤ y → y < m → t ≤ v → v < m → v + delta = y →
    ∀ x, attrs₁ y x = if l ≤ x ∧ x < r then attrs v x else attrs y x
  cells : ∀ y v : ℕ, t ≤ y → y < m → t ≤ v → v < m → v + delta = y → cells₁ y =
    if r - l = width ∧ delta ≠ 0 then copied (b.getRow v).getReadableColumnCount (cells y) (cells v)
    else pasted [space] width (cells y) (cells v) l r

/-- Nothing is copied. -/
lemma MovedRows.none {delta : ℤ} (hdelta : (m : ℤ) - t ≤ |delta|) : S.MovedRows delta b cells attrs := by
  have hout : ∀ y v : ℕ, t ≤ y → y < m → t ≤ v → v < m → (v : ℤ) + delta ≠ y := fun y v _ _ _ _ h => by
    rcases abs_cases delta with ⟨habs, _⟩ | ⟨habs, _⟩ <;> omega
  exact ⟨S.displays, fun y _ => ⟨rfl, rfl⟩, fun y v hty hym htv hvm hvy => absurd hvy (hout y v hty hym htv hvm),
    fun y v hty hym htv hvm hvy => absurd hvy (hout y v hty hym htv hvm)⟩

/-- Every row is copied to itself. -/
lemma MovedRows.same : S.MovedRows 0 b cells attrs := by
  refine ⟨S.displays, fun y _ => ⟨rfl, rfl⟩, fun y v _ _ _ _ hvy x => ?_, fun y v _ _ _ hvm hvy => ?_⟩
  · have hsame : v = y := by omega
    rw [hsame, ite_self]
  · have hsame : v = y := by omega
    rw [if_neg fun h => h.2 rfl, hsame]
    exact (pasted_same (S.fits (by omega))).symm

/-- The rows from `top` to `bottom` have got others. -/
lemma MovedRows.of_pasted {delta : ℤ} (hnarrower : r - l ≠ width) {b₁ : TextBuffer α} {top bottom : ℕ} {source : ℕ → ℕ}
    (hrows : ∀ y : ℕ, top ≤ y ∧ y < bottom ↔ (t ≤ y ∧ y < m) ∧ (t : ℤ) ≤ y - delta ∧ (y : ℤ) - delta < m)
    (hsource : ∀ y, top ≤ y ∧ y < bottom → (source y : ℤ) = y - delta)
    (hb₁ : b₁.Displays width height
      (fun y => if top ≤ y ∧ y < bottom then pasted [space] width (cells y) (shifted 0 (cells (source y))) l r
        else cells y)
      fun y x => if (top ≤ y ∧ y < bottom) ∧ l ≤ x ∧ x < r then attrs (source y) x else attrs y x) :
    ∃ cells₁ attrs₁, S.MovedRows delta b₁ cells₁ attrs₁ := by
  refine ⟨_, _, hb₁, fun y hy => ⟨?_, funext fun x => ?_⟩, fun y v hty hym htv hvm hvy x => ?_,
    fun y v hty hym htv hvm hvy => ?_⟩
  · exact if_neg fun h => hy ((hrows y).mp h)
  · exact if_neg fun h => hy ((hrows y).mp h.1)
  · have hin := (hrows y).mpr (by omega)
    obtain rfl : source y = v := by have := hsource y hin; omega
    simp only [hin, and_self, true_and]
  · have hin := (hrows y).mpr (by omega)
    obtain rfl : source y = v := by have := hsource y hin; omega
    rw [if_pos hin, if_neg fun h => hnarrower h.1, shifted_zero]

lemma MovedRows.up {k : ℕ} (hk : t + k < m) (hnarrower : r - l ≠ width) {b₁ : TextBuffer α}
    (hb₁ : b₁.Displays width height ((S.up k hk).cellsAfter (S.up k hk).size)
      ((S.up k hk).attrsAfter (S.up k hk).size)) : ∃ cells₁ attrs₁, S.MovedRows (-k) b₁ cells₁ attrs₁ :=
  have hcolumns := S.columns
  MovedRows.of_pasted S hnarrower (fun y => show t ≤ y ∧ y < m - k ↔ _ by omega)
    (fun y _ => show ((y + k : ℕ) : ℤ) = y - -k by omega)
    ((S.up k hk).displays_size hb₁ (show l + (r - l) = r by omega) (show t + (m - t - k) = m - k by omega))

lemma MovedRows.down {k : ℕ} (hk : t + k < m) (hnarrower : r - l ≠ width) {b₁ : TextBuffer α}
    (hb₁ : b₁.Displays width height ((S.down k hk).cellsAfter (S.down k hk).size)
      ((S.down k hk).attrsAfter (S.down k hk).size)) : ∃ cells₁ attrs₁, S.MovedRows k b₁ cells₁ attrs₁ :=
  have hcolumns := S.columns
  MovedRows.of_pasted S hnarrower (fun y => show t + k ≤ y ∧ y < m ↔ _ by omega)
    (fun y _ => show ((y - k : ℕ) : ℤ) = y - k by omega)
    ((S.down k hk).displays_size hb₁ (show l + (r - l) = r by omega) (show t + k + (m - t - k) = m by omega))

/-- Whole rows are copied. -/
lemma MovedRows.rows (delta step y₀ : ℤ) (rest : ℕ) (hfull : r - l = width) (hne : delta ≠ 0)
    (hstep : step = 1 ∧ delta < 0 ∨ step = -1 ∧ 0 < delta)
    (hrows : ∀ y : ℤ, 0 ≤ (y - delta - y₀) * step ∧ (y - delta - y₀) * step < rest ↔
      (t ≤ y ∧ y < m) ∧ (t : ℤ) ≤ y - delta ∧ y - delta < m)
    (hrest : ∀ i : ℕ, i < rest → (t : ℤ) ≤ y₀ + i * step ∧ y₀ + i * step < m ∧
      (t : ℤ) ≤ y₀ + i * step + delta ∧ y₀ + i * step + delta < m) :
    ∃ b₁ cells₁ attrs₁, TextBuffer.scrollRowsFrom delta step rest y₀ b = .ok b₁ ∧ S.MovedRows delta b₁ cells₁ attrs₁ := by
  have hcolumns := S.columns
  have hright := S.right
  have hbottom := S.bottom
  obtain ⟨b₁, hok, hwidth, hheight, hscrolled⟩ := S.displays.scrollRowsFrom (y := y₀) hstep
    (fun i hi => by have := hrest i hi; omega) (fun i hi => by have := hrest i hi; omega)
    fun z hz v hv hzv hlo hhi => by
      rw [← hzv] at hlo hhi
      have hin := (hrows z).mp ⟨hlo, hhi⟩
      exact S.short_of (y := z) (v := v) (by omega) (by omega) (by omega) (by omega) 0 (by rw [abs_zero]; omega)
        fun x => by
        rw [shifted_zero]
        exact weight_copied_le _ _ _ _
  refine ⟨b₁, fun y => if (t ≤ y ∧ y < m) ∧ (t : ℤ) ≤ y - delta ∧ (y : ℤ) - delta < m then
      copied (b.getRow ((y : ℤ) - delta).toNat).getReadableColumnCount (cells y) (cells ((y : ℤ) - delta).toNat)
    else cells y, fun y => if (t ≤ y ∧ y < m) ∧ (t : ℤ) ≤ y - delta ∧ (y : ℤ) - delta < m then
      attrs ((y : ℤ) - delta).toNat else attrs y, hok, ⟨⟨hwidth, hheight, fun y hy => ?_⟩, fun y hy => ?_,
        fun y v hty hym htv hvm hvy x => ?_, fun y v hty hym htv hvm hvy => ?_⟩⟩
  · have hrow := hscrolled y hy
    by_cases hin : (t ≤ y ∧ y < m) ∧ (t : ℤ) ≤ y - delta ∧ (y : ℤ) - delta < m
    · obtain ⟨v, hv⟩ := Int.eq_ofNat_of_zero_le (show 0 ≤ (y : ℤ) - delta by omega)
      have hreached := (hrows y).mpr ⟨by omega, hin.2⟩
      rw [if_pos hin, if_pos hin, hv, Int.toNat_natCast]
      rw [hv] at hreached
      exact hrow.1 v (by omega) hv hreached.1 hreached.2
    · rw [if_neg hin, if_neg hin, hrow.2 fun h => hin (by have := (hrows y).mp h; omega)]
      exact S.displays.rows y hy
  · rw [if_neg hy, if_neg hy]
    exact ⟨rfl, rfl⟩
  · have hv : ((y : ℤ) - delta).toNat = v := by omega
    rw [if_pos (by omega), hv]
    split
    · rfl
    · next hx =>
      have hbeyond : width ≤ x := by omega
      rw [← (S.displays.rows v (by omega)).attributes, ← (S.displays.rows y (by omega)).attributes,
        List.getElem?_eq_none (by rw [(S.displays.rows v (by omega)).length]; exact hbeyond),
        List.getElem?_eq_none (by rw [(S.displays.rows y (by omega)).length]; exact hbeyond)]
  · have hv : ((y : ℤ) - delta).toNat = v := by omega
    rw [if_pos (by omega), if_pos ⟨hfull, hne⟩, hv]

variable [DecidableEq α]

/-- A walk starts at the side to which the content goes. -/
lemma determineWalkDirection_eq (source target : Types.Point) (width height width' height' : ℤ) :
    determineWalkDirection (fromDimensions source width height) (fromDimensions target width' height') =
      direction (target.before source) := rfl

include S in
lemma moveLines_eq {delta : ℤ} {k : ℕ} (habs : |delta| = k) (hk : t + k < m) : moveLines b ⟨l, t, r, m⟩ delta =
    let top : ℤ := if 0 < delta then t else t + k
    let target : ℤ := if 0 < delta then t + k else t
    if r - l = width then
      (b.scrollRows top (m - t - k : ℕ) delta).mapError .buffer
    else
      let srcView := fromDimensions ⟨l, top⟩ (r - l : ℕ) (m - t - k : ℕ)
      let dstView := fromDimensions ⟨l, target⟩ (r - l : ℕ) (m - t - k : ℕ)
      let walkDirection := determineWalkDirection srcView dstView
      copyCells srcView dstView walkDirection ((r - l) * (m - t - k)) (srcView.getWalkOrigin walkDirection)
        (dstView.getWalkOrigin walkDirection) b := by
  have hcolumns := S.columns
  have hwidth : (⟨l, t, r, m⟩ : Rect).width = (r - l : ℕ) := by
    show (r : ℤ) - l = _
    omega
  have hheight : (⟨l, t, r, m⟩ : Rect).height = (m - t : ℕ) := by
    show (m : ℤ) - t = _
    omega
  have habsolute : min |delta| ((m - t : ℕ) : ℤ) = k := by omega
  have hrest : ((m - t : ℕ) : ℤ) - k = (m - t - k : ℕ) := by omega
  have hsize : (((r - l : ℕ) : ℤ) * (m - t - k : ℕ)).toNat = (r - l) * (m - t - k) := by
    rw [← Nat.cast_mul, Int.toNat_natCast]
  unfold moveLines
  rw [hwidth, hheight, S.displays.width_eq]
  dsimp only
  rw [habsolute, if_pos (by omega), hrest, hsize]
  rcases lt_or_ge 0 delta with hpos | hneg
  · have hdelta : delta = k := by rw [← habs, abs_of_pos hpos]
    simp only [hpos, if_true, Nat.cast_inj, ← hdelta]
  · have hdelta : -(k : ℤ) = delta := by rw [← habs, abs_of_nonpos hneg, neg_neg]
    have htop : (t : ℤ) + k + delta = t := by omega
    simp only [not_lt_of_ge hneg, if_false, Nat.cast_inj, hdelta, htop]

omit [DecidableEq α] in
lemma MovedRows.rows_up {k : ℕ} (hk : t + k < m) (hpos : 0 < k) (hfull : r - l = width) :
    ∃ b₁ cells₁ attrs₁, b.scrollRows (t + k) (m - t - k : ℕ) (-k) = .ok b₁ ∧ S.MovedRows (-k) b₁ cells₁ attrs₁ := by
  obtain ⟨b₁, cells₁, attrs₁, hok, hmoved⟩ := MovedRows.rows S (-k) 1 (t + k) (m - t - k) hfull (by omega) (.inl ⟨rfl, by omega⟩) (fun y => by omega) fun i hi => by omega
  refine ⟨b₁, cells₁, attrs₁, ?_, hmoved⟩
  unfold TextBuffer.scrollRows
  rw [if_neg (by omega)]
  dsimp only
  rw [if_pos (by omega), show (max (0 : ℤ) (m - t - k : ℕ)).toNat = m - t - k by omega]
  exact hok

omit [DecidableEq α] in
lemma MovedRows.rows_down {k : ℕ} (hk : t + k < m) (hpos : 0 < k) (hfull : r - l = width) :
    ∃ b₁ cells₁ attrs₁, b.scrollRows t (m - t - k : ℕ) k = .ok b₁ ∧ S.MovedRows k b₁ cells₁ attrs₁ := by
  obtain ⟨b₁, cells₁, attrs₁, hok, hmoved⟩ := MovedRows.rows S k (-1) (t + (m - t - k : ℕ) - 1)
    (m - t - k) hfull (by omega) (.inr ⟨rfl, by omega⟩) (fun y => by omega) fun i hi => by omega
  refine ⟨b₁, cells₁, attrs₁, ?_, hmoved⟩
  unfold TextBuffer.scrollRows
  rw [if_neg (by omega)]
  dsimp only
  rw [if_neg (by omega), show max (0 : ℤ) (m - t - k : ℕ) = (m - t - k : ℕ) by omega, Int.toNat_natCast]
  exact hok

/-- **The first part of `_ScrollRectVertically`.** -/
theorem moveLines_spec (delta : ℤ) :
    ∃ b₁ cells₁ attrs₁, moveLines b ⟨l, t, r, m⟩ delta = .ok b₁ ∧ S.MovedRows delta b₁ cells₁ attrs₁ := by
  have hcolumns := S.columns
  have hlines := S.lines
  rcases lt_or_ge |delta| ((m : ℤ) - t) with hlt | hge
  · obtain ⟨k, hk⟩ := Int.eq_ofNat_of_zero_le (abs_nonneg delta)
    have hroom : t + k < m := by omega
    rw [moveLines_eq S hk hroom]
    dsimp only
    rcases lt_trichotomy delta 0 with hneg | rfl | hpos
    · have hdelta : delta = -k := by rw [← hk, abs_of_neg hneg, neg_neg]
      rw [if_neg hneg.not_gt, if_neg hneg.not_gt]
      by_cases hfull : r - l = width
      · obtain ⟨b₁, cells₁, attrs₁, hok, hmoved⟩ := MovedRows.rows_up S hroom (by omega) hfull
        rw [if_pos hfull, hdelta, hok]
        exact ⟨b₁, cells₁, attrs₁, rfl, hmoved⟩
      · obtain ⟨b₁, hok, hb₁⟩ := (S.up k hroom).copyCells_all S.displays fun j hj => S.up_finds hroom (by omega) hj
        have hbefore : (⟨l, t⟩ : Types.Point).before ⟨l, t + k⟩ = true := by
          unfold Types.Point.before
          simp
          omega
        rw [if_neg hfull, determineWalkDirection_eq, hbefore]
        obtain ⟨cells₁, attrs₁, hmoved⟩ := MovedRows.up S hroom hfull hb₁
        exact ⟨b₁, cells₁, attrs₁, hok, hdelta ▸ hmoved⟩
    · obtain rfl : k = 0 := by
        rw [abs_zero] at hk
        omega
      rw [if_neg (lt_irrefl 0), if_neg (lt_irrefl 0)]
      by_cases hfull : r - l = width
      · rw [if_pos hfull]
        exact ⟨b, cells, attrs, rfl, MovedRows.same S⟩
      · obtain ⟨b₁, hok, hb₁⟩ := (S.down 0 hroom).copyCells_all S.displays fun j hj => S.down_finds hroom hj
        have hbefore : (⟨l, t⟩ : Types.Point).before ⟨l, t⟩ = false := by
          unfold Types.Point.before
          simp
        have htop : (t : ℤ) + (0 : ℕ) = t := by omega
        rw [if_neg hfull, htop, determineWalkDirection_eq, hbefore]
        exact ⟨b₁, (MovedRows.down S hroom hfull hb₁).imp fun _ h => h.imp fun _ h => ⟨hok, h⟩⟩
    · have hdelta : delta = k := by rw [← hk, abs_of_pos hpos]
      rw [if_pos hpos, if_pos hpos]
      by_cases hfull : r - l = width
      · obtain ⟨b₁, cells₁, attrs₁, hok, hmoved⟩ := MovedRows.rows_down S hroom (by omega) hfull
        rw [if_pos hfull, hdelta, hok]
        exact ⟨b₁, cells₁, attrs₁, rfl, hmoved⟩
      · obtain ⟨b₁, hok, hb₁⟩ := (S.down k hroom).copyCells_all S.displays fun j hj => S.down_finds hroom hj
        have hbefore : (⟨l, t + k⟩ : Types.Point).before ⟨l, t⟩ = false := by
          unfold Types.Point.before
          simp
        rw [if_neg hfull, determineWalkDirection_eq, hbefore]
        obtain ⟨cells₁, attrs₁, hmoved⟩ := MovedRows.down S hroom hfull hb₁
        exact ⟨b₁, cells₁, attrs₁, hok, hdelta ▸ hmoved⟩
  · have hheight : ¬min |delta| ((m : ℤ) - t) < (m : ℤ) - t := by omega
    exact ⟨b, cells, attrs, if_neg hheight, MovedRows.none S hge⟩

omit [DecidableEq α] in
include S in
lemma copied_moved_iff (hfull : r - l = width) {y v : ℕ} (hym : y < m) (hvm : v < m) :
    Moved [space] l r l r (cells y) (cells v) (copied (b.getRow v).getReadableColumnCount (cells y) (cells v)) ↔
      CopyComplete b y v := by
  have hcolumns := S.columns
  have hright := S.right
  have hbottom := S.bottom
  obtain rfl : l = 0 := by omega
  obtain rfl : r = width := by omega
  have hlimit : (b.getRow v).getReadableColumnCount ≤ r := by
    rw [← (S.displays.rows v (by omega)).columns]
    exact getReadableColumnCount_le _
  rw [moved_all_iff (S.fits hvm) (fun x hx => copied_behind (S.fits hym) hlimit hx)]
  exact copyComplete_iff S.displays (by omega) (by omega)

include S in
/-- **A vertical scroll.** -/
theorem vertical (cwd : Clustering) (eraseAttributes : α) (delta : ℤ) :
    ∃ b₂, scrollRectVertically cwd eraseAttributes b ⟨l, t, r, m⟩ delta = .ok b₂ ∧ Content b₂ ∧
      (ScrolledBy b b₂ ⟨l, t, r, m⟩ ⟨0, delta⟩ eraseAttributes ↔
        BordersClear b ⟨l, t, r, m⟩ ⟨0, delta⟩ ∧ RowsComplete b ⟨l, t, r, m⟩ delta) := by
  obtain ⟨b₁, cells₁, attrs₁, hok, hmoved⟩ := moveLines_spec S delta
  obtain ⟨b₂, htail, hcontent, hscrolled⟩ :=
    S.vertical_tail delta cwd eraseAttributes hmoved.displays hmoved.still hmoved.attrs
  refine ⟨b₂, ?_, hcontent, hscrolled.trans ?_⟩
  · unfold scrollRectVertically
    rw [hok]
    exact htail
  have hcolumns := S.columns
  have hright := S.right
  have hbottom := S.bottom
  have hfits := fun y (hy : y < m) => S.fits hy
  have hwidth : (⟨l, t, r, m⟩ : Rect).width = b.width ↔ r - l = width := by
    rw [S.displays.width_eq]
    show (r : ℤ) - l = width ↔ _
    omega
  have hcell : ∀ {x y}, x < width → y < m → b.cell x y = cells y x := fun hx hy =>
    (S.displays.rows _ (by omega)).cell_eq hx
  rw [bordersClear_iff S.displays hright hbottom (reaches_self l r)]
  simp only [shifted_zero, true_implies, hcolumns]
  unfold RowsComplete
  rw [hwidth]
  constructor
  · intro h
    refine ⟨fun y v hty hym htv hvm hvy => ?_, fun hfull hne y v (hty : (t : ℤ) ≤ y) (hym : (y : ℤ) < m)
      (htv : (t : ℤ) ≤ v) (hvm : (v : ℤ) < m) hvy => ?_⟩
    · have hrow := h y v hty hym htv hvm hvy
      rw [hmoved.cells y v hty hym htv hvm hvy] at hrow
      by_cases hcopied : r - l = width ∧ delta ≠ 0
      · exact ⟨fun _ hpos => by omega, fun _ hroom => by omega⟩
      · rw [if_neg hcopied, pasted_moved_iff (hfits y hym) (hfits v hvm).paired hcolumns hright] at hrow
        exact hrow
    · have hrow := h y v (by omega) (by omega) (by omega) (by omega) hvy
      rw [hmoved.cells y v (by omega) (by omega) (by omega) (by omega) hvy, if_pos ⟨hfull, hne⟩] at hrow
      exact (copied_moved_iff S hfull (by omega) (by omega)).mp hrow
  · rintro ⟨hclear, hcomplete⟩ y v hty hym htv hvm hvy
    rw [hmoved.cells y v hty hym htv hvm hvy]
    by_cases hcopied : r - l = width ∧ delta ≠ 0
    · rw [if_pos hcopied]
      exact (copied_moved_iff S hcopied.1 hym hvm).mpr
        (hcomplete hcopied.1 hcopied.2 y v (Int.ofNat_le.mpr hty) (Int.ofNat_lt.mpr hym) (Int.ofNat_le.mpr htv)
          (Int.ofNat_lt.mpr hvm) hvy)
    · rw [if_neg hcopied, pasted_moved_iff (hfits y hym) (hfits v hvm).paired hcolumns hright]
      exact hclear y v hty hym htv hvm hvy

/-! ### Horizontal scrolls -/

include S in
lemma moveColumns_eq {delta : ℤ} {k : ℕ} (habs : |delta| = k) (hk : l + k < r) : moveColumns b ⟨l, t, r, m⟩ delta =
    let left : ℤ := if 0 < delta then l else l + k
    let target : ℤ := if 0 < delta then l + k else l
    let source := fromDimensions ⟨left, t⟩ (r - l - k : ℕ) (m - t : ℕ)
    let target := fromDimensions ⟨target, t⟩ (r - l - k : ℕ) (m - t : ℕ)
    let walkDirection := determineWalkDirection source target
    (do
      let next ← b.getCellDataAt (source.getWalkOrigin walkDirection)
      moveCells source target walkDirection ((r - l - k) * (m - t)) (source.getWalkOrigin walkDirection)
        (target.getWalkOrigin walkDirection) next b) := by
  have hlines := S.lines
  have hwidth : (⟨l, t, r, m⟩ : Rect).width = (r - l : ℕ) := by
    show (r : ℤ) - l = _
    omega
  have hheight : (⟨l, t, r, m⟩ : Rect).height = (m - t : ℕ) := by
    show (m : ℤ) - t = _
    omega
  have habsolute : min |delta| ((r - l : ℕ) : ℤ) = k := by omega
  have hrest : ((r - l : ℕ) : ℤ) - k = (r - l - k : ℕ) := by omega
  have hsize : (((r - l - k : ℕ) : ℤ) * (m - t : ℕ)).toNat = (r - l - k) * (m - t) := by
    rw [← Nat.cast_mul, Int.toNat_natCast]
  unfold moveColumns
  rw [hwidth, hheight]
  dsimp only
  rw [habsolute, if_pos (by omega), hrest, hsize, offset_fromDimensions]
  dsimp only
  rw [Int.add_zero]
  rcases lt_or_ge 0 delta with hpos | hneg
  · simp only [hpos, if_true]
  · have hleft : (l : ℤ) + k + -k = l := by omega
    simp only [not_lt_of_ge hneg, if_false, hleft]

include S in
/-- Columns move to the left. -/
theorem moveColumns_left {k : ℕ} (hk : l + k < r) (hpos : 0 < k) :
    ∃ b₁, moveColumns b ⟨l, t, r, m⟩ (-k) = .ok b₁ ∧ b₁.Displays width height
      (fun y => if t ≤ y ∧ y < m then pasted [space] width (cells y) (shifted (-k) (cells y)) l (r - k) else cells y)
      fun y x => if (t ≤ y ∧ y < m) ∧ l ≤ x ∧ x < r - k then attrs y (x + k) else attrs y x := by
  have hlines := S.lines
  have hright := S.right
  have hbottom := S.bottom
  obtain ⟨next, b₁, hread, hok, hb₁⟩ := (S.leftward k hk).moveCells_all S.displays
    (fun j hj => S.leftward_finds hk hpos hj) (by show l + k + (r - l - k) ≤ width; omega)
    (by show t + (m - t) ≤ height; omega)
  have hbefore : (⟨l, t⟩ : Types.Point).before ⟨l + k, t⟩ = true := by
    unfold Types.Point.before
    simp
    omega
  refine ⟨b₁, ?_, (S.leftward k hk).displays_size hb₁ (show l + (r - l - k) = r - k by omega)
    (show t + (m - t) = m by omega)⟩
  rw [moveColumns_eq S (by rw [abs_neg, Nat.abs_cast]) hk]
  dsimp only
  rw [if_neg (by omega), if_neg (by omega), determineWalkDirection_eq, hbefore]
  rw [Nat.cast_add] at hread
  show (b.getCellDataAt _ >>= _) = _
  erw [hread]
  exact hok

include S in
/-- Columns move to the right. -/
theorem moveColumns_right {k : ℕ} (hk : l + k < r) :
    ∃ b₁, moveColumns b ⟨l, t, r, m⟩ k = .ok b₁ ∧ b₁.Displays width height
      (fun y => if t ≤ y ∧ y < m then pasted [space] width (cells y) (shifted k (cells y)) (l + k) r else cells y)
      fun y x => if (t ≤ y ∧ y < m) ∧ l + k ≤ x ∧ x < r then attrs y (x - k) else attrs y x := by
  have hlines := S.lines
  have hright := S.right
  have hbottom := S.bottom
  obtain ⟨next, b₁, hread, hok, hb₁⟩ := (S.rightward k hk).moveCells_all S.displays
    (fun j hj => S.rightward_finds hk hj) (by show l + (r - l - k) ≤ width; omega)
    (by show t + (m - t) ≤ height; omega)
  have hbefore : (⟨l + k, t⟩ : Types.Point).before ⟨l, t⟩ = false := by
    unfold Types.Point.before
    simp
  have hleft : (if (0 : ℤ) < k then (l : ℤ) else l + k) = l := by split <;> omega
  have htarget : (if (0 : ℤ) < k then (l : ℤ) + k else l) = l + k := by split <;> omega
  refine ⟨b₁, ?_, (S.rightward k hk).displays_size hb₁ (show l + k + (r - l - k) = r by omega)
    (show t + (m - t) = m by omega)⟩
  rw [moveColumns_eq S (Nat.abs_cast k) hk]
  dsimp only
  rw [hleft, htarget, determineWalkDirection_eq, hbefore]
  show (b.getCellDataAt _ >>= _) = _
  erw [hread]
  exact hok

omit [DecidableEq α] in
include S in
/-- A horizontal scroll is settled row by row. -/
lemma horizontal_iff {delta : ℤ} {eraseAttributes : α} {b₂ : TextBuffer α} {cells₂ : ℕ → ℕ → GlyphCell}
    {attrs₂ : ℕ → ℕ → Option α} (hb₂ : b₂.Displays width height cells₂ attrs₂) {a e : ℕ}
    (hrange : Reaches l r a e delta) (hattrs : AttributesMoved l t r m delta 0 attrs attrs₂ eraseAttributes)
    (hstill : ∀ y, ¬(t ≤ y ∧ y < m) → cells₂ y = cells y)
    (hrows : ∀ y, t ≤ y → y < m → (Moved [space] l r a e (cells y) (shifted delta (cells y)) (cells₂ y) ↔
      (a = l → a < e → LeftClear (cells y) (shifted delta (cells y)) l) ∧
      (e = r → a < e → RightClear width (cells y) (shifted delta (cells y)) r))) :
    ScrolledBy b b₂ ⟨l, t, r, m⟩ ⟨delta, 0⟩ eraseAttributes ↔ BordersClear b ⟨l, t, r, m⟩ ⟨delta, 0⟩ := by
  rw [scrolledBy_iff S.displays hb₂ S.right S.bottom hrange hattrs hstill,
    bordersClear_iff S.displays S.right S.bottom hrange]
  refine ⟨fun h y v hty hym htv hvm hvy => ?_, fun h y hty hym => ⟨fun v htv hvm hvy => ?_, fun hnone => ?_⟩⟩
  · obtain rfl : v = y := by omega
    exact (hrows v hty hym).mp ((h v hty hym).1 v htv hvm hvy)
  · obtain rfl : v = y := by omega
    exact (hrows v hty hym).mpr (h v v hty hym htv hvm hvy)
  · exact absurd (by omega) (hnone y hty hym)

omit [DecidableEq α] in
include S in
/-- The columns from `left` up to `left + k` are filled. -/
lemma horizontal_fill (cwd : Clustering) (eraseAttributes : α) {b₁ : TextBuffer α} {cells₁ : ℕ → ℕ → GlyphCell}
    {attrs₁ : ℕ → ℕ → Option α} (hb₁ : b₁.Displays width height cells₁ attrs₁) (dx : ℤ) (hdx : |dx| ≤ width)
    (hweight : ∀ y, t ≤ y → y < m → ∀ x,
      weight (cells₁ y x) ≤ weight (cells y x) + weight (shifted dx (cells y) x) + 1)
    (left k : ℕ) (hpos : 0 < k) (hright : left + k ≤ r) :
    ∃ b₂, b₁.fillRect cwd ⟨left, t, left + k, m⟩ [space] eraseAttributes = .ok b₂ ∧ b₂.Displays width height
      (fun y => if t ≤ y ∧ y < m then erase [space] (cells₁ y) left (left + k) else cells₁ y)
      fun y x => if (t ≤ y ∧ y < m) ∧ left ≤ x ∧ x < left + k then some eraseAttributes else attrs₁ y x := by
  have hright' := S.right
  obtain ⟨b₂, hfill, hb₂⟩ := hb₁.fillRect S.width_lt cwd (show left < left + k by omega) (by omega) S.lines.le S.bottom
    eraseAttributes fun z hlo hhi => S.short_of hlo hhi hlo hhi dx hdx fun x => by
      have := weight_erase_le (cells₁ z) left (left + k) x
      have := hweight z hlo hhi x
      omega
  rw [Nat.cast_add] at hfill
  exact ⟨b₂, hfill, hb₂⟩

include S in
/-- **A horizontal scroll.** -/
theorem horizontal (cwd : Clustering) (eraseAttributes : α) (delta : ℤ) :
    ∃ b₂, scrollRectHorizontally cwd eraseAttributes b ⟨l, t, r, m⟩ delta = .ok b₂ ∧
      (ScrolledBy b b₂ ⟨l, t, r, m⟩ ⟨delta, 0⟩ eraseAttributes ↔ BordersClear b ⟨l, t, r, m⟩ ⟨delta, 0⟩) := by
  have hcolumns := S.columns
  have hright := S.right
  have hfits := fun y (hy : y < m) => S.fits hy
  have htail : ∀ {left k : ℕ} {b₁ b₂ : TextBuffer α}, min |delta| ((r : ℤ) - l) = k →
      (if 0 < delta then (l : ℤ) else r - k) = left → moveColumns b ⟨l, t, r, m⟩ delta = .ok b₁ →
      b₁.fillRect cwd ⟨left, t, left + k, m⟩ [space] eraseAttributes = .ok b₂ →
      scrollRectHorizontally cwd eraseAttributes b ⟨l, t, r, m⟩ delta = .ok b₂ := by
    intro left k b₁ b₂ hk hleft hmove hfill
    unfold scrollRectHorizontally
    rw [hmove]
    show (b₁.fillRect cwd ⟨if 0 < delta then (l : ℤ) else r - min |delta| ((r : ℤ) - l), t,
      (if 0 < delta then (l : ℤ) else r - min |delta| ((r : ℤ) - l)) + min |delta| ((r : ℤ) - l), m⟩ [space]
        eraseAttributes).mapError WriteCellsError.buffer = _
    rw [hk, hleft, hfill]
    rfl
  rcases lt_or_ge |delta| ((r : ℤ) - l) with hlt | hge
  · obtain ⟨k, hk⟩ := Int.eq_ofNat_of_zero_le (abs_nonneg delta)
    have hroom : l + k < r := by omega
    have habsolute : min |delta| ((r : ℤ) - l) = k := by omega
    have hdx : |delta| ≤ width := by omega
    rcases lt_trichotomy delta 0 with hneg | rfl | hpos
    · obtain rfl : delta = -k := by rw [← hk, abs_of_neg hneg, neg_neg]
      have hkpos : 0 < k := by omega
      have hspan : r - k + k = r := by omega
      obtain ⟨b₁, hmove, hb₁⟩ := moveColumns_left S hroom hkpos
      obtain ⟨b₂, hfill, hb₂⟩ := horizontal_fill S cwd eraseAttributes hb₁ _ hdx (fun y hty hym x => by
        rw [if_pos ⟨hty, hym⟩]
        exact weight_pasted_le _ _ _ _ _ _) _ _ hkpos hspan.le
      refine ⟨b₂, htail habsolute (by rw [if_neg hneg.not_gt]; omega) hmove hfill,
        horizontal_iff S (a := l) (e := r - k) hb₂ (fun x => by omega) ⟨fun x y hnot => ?_,
          fun x y u v hxy huv hux hvy => ?_, fun x y hxy hnot => ?_⟩ (fun y hy => ?_) fun y hty hym => ?_⟩
      · rw [if_neg (by omega), if_neg (by omega)]
      · obtain rfl : v = y := by omega
        obtain rfl : u = x + k := by omega
        rw [if_neg (by omega), if_pos (by omega)]
      · rw [if_pos (by omega)]
      · rw [if_neg hy, if_neg hy]
      · rw [if_pos ⟨hty, hym⟩, if_pos ⟨hty, hym⟩, hspan,
          erase_moved_iff (hfits y hym) (paired_shifted (hfits y hym) _) (by omega) (by omega) hright]
        exact ⟨fun h => ⟨fun _ _ => h, fun hend => by omega⟩, fun h => h.1 rfl (by omega)⟩
    · obtain rfl : k = 0 := by
        rw [abs_zero] at hk
        omega
      obtain ⟨b₁, hmove, hb₁⟩ := moveColumns_right S hroom
      have hnothing : b₁.fillRect cwd ⟨r, t, r + (0 : ℕ), m⟩ [space] eraseAttributes = .ok b₁ := by
        have hinvalid : (⟨r, t, r + (0 : ℕ), m⟩ : Rect).isValid = false := by
          unfold Rect.isValid
          simp
        unfold TextBuffer.fillRect
        rw [hinvalid]
        rfl
      refine ⟨b₁, htail habsolute (by rw [if_neg (lt_irrefl 0)]; omega) hmove hnothing,
        horizontal_iff S (a := l) (e := r) hb₁ (fun x => by omega) ⟨fun x y hnot => ?_,
          fun x y u v hxy huv hux hvy => ?_, fun x y hxy hnot => by omega⟩ (fun y hy => if_neg hy) fun y hty hym => ?_⟩
      · rw [if_neg (by omega)]
      · obtain rfl : v = y := by omega
        obtain rfl : u = x := by omega
        rw [if_pos (by omega), Nat.sub_zero]
      · have hsame : shifted (0 : ℕ) (cells y) = cells y := shifted_zero _
        rw [if_pos ⟨hty, hym⟩, hsame, shifted_zero, pasted_same (hfits y hym)]
        exact ⟨fun _ => ⟨fun _ _ _ _ => rfl, fun _ _ _ _ => rfl⟩, fun _ =>
          ⟨fun x _ => .inl rfl, fun x _ _ => .inl rfl, fun x hlx hxr hnot => by omega⟩⟩
    · obtain rfl : delta = k := by rw [← hk, abs_of_pos hpos]
      have hkpos : 0 < k := by omega
      obtain ⟨b₁, hmove, hb₁⟩ := moveColumns_right S hroom
      obtain ⟨b₂, hfill, hb₂⟩ := horizontal_fill S cwd eraseAttributes hb₁ _ hdx (fun y hty hym x => by
        rw [if_pos ⟨hty, hym⟩]
        exact weight_pasted_le _ _ _ _ _ _) l k hkpos hroom.le
      refine ⟨b₂, htail habsolute (if_pos hpos) hmove hfill,
        horizontal_iff S (a := l + k) (e := r) hb₂ (fun x => by omega) ⟨fun x y hnot => ?_,
          fun x y u v hxy huv hux hvy => ?_, fun x y hxy hnot => ?_⟩ (fun y hy => ?_) fun y hty hym => ?_⟩
      · rw [if_neg (by omega), if_neg (by omega)]
      · obtain rfl : v = y := by omega
        obtain rfl : u = x - k := by omega
        rw [if_neg (by omega), if_pos (by omega)]
      · rw [if_pos (by omega)]
      · rw [if_neg hy, if_neg hy]
      · rw [if_pos ⟨hty, hym⟩, if_pos ⟨hty, hym⟩,
          erase_moved_iff' (hfits y hym) (paired_shifted (hfits y hym) _) (by omega) hroom hright]
        exact ⟨fun h => ⟨fun hstart => by omega, fun _ _ => h⟩, fun h => h.2 rfl hroom⟩
  · -- The whole rectangle is filled.
    have habsolute : min |delta| ((r : ℤ) - l) = (r - l : ℕ) := by omega
    have hspan : l + (r - l) = r := by omega
    have hmove : moveColumns b ⟨l, t, r, m⟩ delta = .ok b := by
      unfold moveColumns
      exact if_neg (show ¬min |delta| ((r : ℤ) - l) < (r : ℤ) - l by omega)
    have hfar : ∀ x u : ℕ, l ≤ x → x < r → l ≤ u → u < r → (u : ℤ) + delta ≠ x := fun x u _ _ _ _ h => by
      rcases abs_cases delta with ⟨habs, _⟩ | ⟨habs, _⟩ <;> omega
    obtain ⟨b₂, hfill, hb₂⟩ := horizontal_fill S cwd eraseAttributes S.displays 0 (by rw [abs_zero]; omega)
      (fun y hty hym x => by omega) l (r - l) (by omega) hspan.le
    refine ⟨b₂, htail habsolute (by split <;> omega) hmove hfill,
      horizontal_iff S (a := l) (e := l) hb₂ (fun x => ?_) ⟨fun x y hnot => ?_, fun x y u v hxy huv hux hvy => ?_,
        fun x y hxy hnot => ?_⟩ (fun y hy => ?_) fun y hty hym => ?_⟩
    · refine ⟨fun h => by omega, fun h => ?_⟩
      obtain ⟨u, hu⟩ := Int.eq_ofNat_of_zero_le (show 0 ≤ (x : ℤ) - delta by omega)
      exact absurd (show (u : ℤ) + delta = x by omega) (hfar x u h.1.1 h.1.2 (by omega) (by omega))
    · rw [if_neg (by omega)]
    · exact absurd hux (hfar x u hxy.1.1 hxy.1.2 huv.1.1 huv.1.2)
    · rw [if_pos (by omega)]
    · rw [if_neg hy]
    · rw [if_pos ⟨hty, hym⟩, hspan]
      exact ⟨fun _ => ⟨fun _ h => by omega, fun _ h => by omega⟩, fun _ => erase_moved (hfits y hym) hcolumns⟩

end Setting

variable [DecidableEq α]

omit [DecidableEq α] in
/-- The rows and the rectangle of the hypotheses as a setting. -/
lemma setting_of {b : TextBuffer α} {rect : Rect} (hcontent : Content b) (hvalid : rect.isValid = true)
    (hright : rect.right ≤ b.width) (hbottom : rect.bottom ≤ b.height) (hshort : ShortTexts b rect) :
    ∃ l t r m : ℕ, rect = ⟨l, t, r, m⟩ ∧
      Setting b b.width b.height l t r m (strip b) fun y x => b.attributes x y := by
  obtain ⟨left, top, right, bottom⟩ := rect
  unfold Rect.isValid at hvalid
  simp only [Bool.and_eq_true, decide_eq_true_eq] at hvalid
  obtain ⟨⟨⟨hleft, htop⟩, hcolumns⟩, hlines⟩ := hvalid
  obtain ⟨l, rfl⟩ := Int.eq_ofNat_of_zero_le hleft
  obtain ⟨t, rfl⟩ := Int.eq_ofNat_of_zero_le htop
  obtain ⟨r, rfl⟩ := Int.eq_ofNat_of_zero_le (show 0 ≤ right by omega)
  obtain ⟨m, rfl⟩ := Int.eq_ofNat_of_zero_le (show 0 ≤ bottom by omega)
  refine ⟨l, t, r, m, rfl, hcontent.displays, by omega, Int.ofNat_le.mp hright, by omega, Int.ofNat_le.mp hbottom,
    fun y v hty hym htv hvm => ?_⟩
  have hrows := hcontent.displays.rows
  have hbottom' : m ≤ b.height := Int.ofNat_le.mp hbottom
  rw [← (hrows y (by omega)).charSize_eq, ← (hrows v (by omega)).charSize_eq]
  exact hshort y v (Int.ofNat_le.mpr hty) (Int.ofNat_lt.mpr hym) (Int.ofNat_le.mpr htv) (Int.ofNat_lt.mpr hvm)

/-- **When a scroll keeps to its rectangle.** -/
theorem scrollRect_keeps_iff (cwd : Clustering) (eraseAttributes : α) (b : TextBuffer α) (rect : Rect) (delta : ℤ)
    (hcontent : Content b) (hvalid : rect.isValid = true) (hright : rect.right ≤ b.width)
    (hbottom : rect.bottom ≤ b.height) (hshort : ShortTexts b rect) :
    (∃ b', scrollRectVertically cwd eraseAttributes b rect delta = .ok b' ∧
      (ScrolledBy b b' rect ⟨0, delta⟩ eraseAttributes ↔
        BordersClear b rect ⟨0, delta⟩ ∧ RowsComplete b rect delta)) ∧
    ∃ b', scrollRectHorizontally cwd eraseAttributes b rect delta = .ok b' ∧
      (ScrolledBy b b' rect ⟨delta, 0⟩ eraseAttributes ↔ BordersClear b rect ⟨delta, 0⟩) := by
  obtain ⟨l, t, r, m, rfl, S⟩ := setting_of hcontent hvalid hright hbottom hshort
  obtain ⟨b', hok, -, hiff⟩ := S.vertical cwd eraseAttributes delta
  exact ⟨⟨b', hok, hiff⟩, S.horizontal cwd eraseAttributes delta⟩

/-- A vertical scroll leaves rows that are in order. -/
lemma scrollRectVertically_content (cwd : Clustering) (eraseAttributes : α) {b : TextBuffer α} {rect : Rect} (delta : ℤ)
    (hcontent : Content b) (hvalid : rect.isValid = true) (hright : rect.right ≤ b.width)
    (hbottom : rect.bottom ≤ b.height) (hshort : ShortTexts b rect) :
    ∃ b', scrollRectVertically cwd eraseAttributes b rect delta = .ok b' ∧ Content b' := by
  obtain ⟨l, t, r, m, rfl, S⟩ := setting_of hcontent hvalid hright hbottom hshort
  obtain ⟨b', hok, hcontent', -⟩ := S.vertical cwd eraseAttributes delta
  exact ⟨b', hok, hcontent'⟩

/-! ### A wide character at the border -/

/-- The row "abcd". -/
def letters : Row ℕ where
  chars := [0x61, 0x62, 0x63, 0x64]
  charOffsets := [0, 1, 2, 3, 4]
  attr := [0, 0, 0, 0]
  columnCount := 4
  lineRendition := .singleWidth
  wrapForced := false
  doubleBytePadded := false
  promptData := none

/-- A wide character between two letters. -/
def letterWide : Row ℕ where
  chars := [0x61, 0x4e2d, 0x64]
  charOffsets := [0, 1, 0x8001, 2, 3]
  attr := [0, 0, 0, 0]
  columnCount := 4
  lineRendition := .singleWidth
  wrapForced := false
  doubleBytePadded := false
  promptData := none

def twoRows : TextBuffer ℕ where
  rows y := if y = 0 then letters else letterWide
  width := 4
  height := 2
  firstRow := 0
  initialAttributes := 0
  cursorX := 0
  cursorY := 0

lemma letters_holds : letters.Holds [.narrow 0x61, .narrow 0x62, .narrow 0x63, .narrow 0x64] :=
  ⟨rfl, rfl, rfl, by decide⟩

lemma letterWide_holds : letterWide.Holds [.narrow 0x61, .wide 0x4e2d, .narrow 0x64] :=
  ⟨rfl, rfl, rfl, by decide⟩

lemma twoRows_content : Content twoRows := by
  refine .of_rows fun y (hy : y < 2) => ?_
  obtain rfl | rfl : y = 0 ∨ y = 1 := by omega
  · exact ⟨_, letters_holds, rfl, rfl⟩
  · exact ⟨_, letterWide_holds, rfl, rfl⟩

theorem scrollRect_keeps_iff_twoRows :
    (∃ b', scrollRectVertically wholeText 1 twoRows ⟨0, 0, 2, 2⟩ (-1) = .ok b' ∧
      (ScrolledBy twoRows b' ⟨0, 0, 2, 2⟩ ⟨0, -1⟩ 1 ↔
        BordersClear twoRows ⟨0, 0, 2, 2⟩ ⟨0, -1⟩ ∧ RowsComplete twoRows ⟨0, 0, 2, 2⟩ (-1))) ∧
    ∃ b', scrollRectHorizontally wholeText 1 twoRows ⟨0, 0, 2, 2⟩ (-1) = .ok b' ∧
      (ScrolledBy twoRows b' ⟨0, 0, 2, 2⟩ ⟨-1, 0⟩ 1 ↔ BordersClear twoRows ⟨0, 0, 2, 2⟩ ⟨-1, 0⟩) :=
  scrollRect_keeps_iff wholeText 1 twoRows ⟨0, 0, 2, 2⟩ (-1) twoRows_content (by decide) (by decide) (by decide)
    fun y v _ hy _ hv => by
      have hy : y = 0 ∨ y = 1 := by
        have : (y : ℤ) < 2 := hy
        omega
      have hv : v = 0 ∨ v = 1 := by
        have : (v : ℤ) < 2 := hv
        omega
      rcases hy with rfl | rfl <;> rcases hv with rfl | rfl <;> decide

/-- The wide character is written over the letter behind the rectangle. -/
theorem scrollRectVertically_overwrites : ¬∀ (b : TextBuffer ℕ) (rect : Rect) (delta : ℤ), Content b →
    rect.isValid = true → rect.right ≤ b.width → rect.bottom ≤ b.height →
    ∃ b', scrollRectVertically wholeText 1 b rect delta = .ok b' ∧ ScrolledBy b b' rect ⟨0, delta⟩ 1 := by
  intro h
  obtain ⟨b', hok, hscrolled⟩ := h twoRows ⟨0, 0, 2, 2⟩ (-1) twoRows_content (by decide) (by decide) (by decide)
  have hcell : (scrollRectVertically wholeText 1 twoRows ⟨0, 0, 2, 2⟩ (-1)).toOption.map (fun b => b.cell 2 0) =
      some ⟨[0x4e2d], .trailing⟩ := by decide
  rw [hok] at hcell
  have hafter : b'.cell 2 0 = ⟨[0x4e2d], .trailing⟩ := Option.some.inj hcell
  have hbefore : twoRows.cell 2 0 = ⟨[0x63], .whole⟩ := by decide
  obtain ⟨-, hsame | ⟨hblank, -⟩⟩ := hscrolled.outside 2 (by decide) 0 (by decide) (by decide)
  · rw [hafter, hbefore] at hsame
    exact nomatch hsame
  · rw [hafter] at hblank
    exact nomatch hblank

end VT7.Adapter
