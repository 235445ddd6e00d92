import VT7.Adapter.ScrolledRenditions

/-!
# Whole rows that go from one place to another

A scroll of whole rows, the rotation of the rows of the buffer (`IncrementCircularBuffer`), and the wrap flag of a row,
which shows in no cell.
-/

namespace VT7.Buffer.TextBuffer

variable {α : Type} (b : TextBuffer α)

/-- `IncrementCircularBuffer`. -/
def incrementCircularBuffer (fillAttributes : α) : TextBuffer α :=
  let b := b.setRowByOffset 0 ((b.getRowByOffset 0).reset fillAttributes)
  let firstRow := b.firstRow + 1
  { b with firstRow := if b.height ≤ firstRow then 0 else firstRow }

/-- `SetWrapForced` of a row. -/
def setWrapForced (y : ℤ) (wrapForced : Bool) : TextBuffer α :=
  b.setRowByOffset y ((b.getRowByOffset y).setWrapForced wrapForced)

/-- `SetPosition` of the cursor. -/
def setPosition (position : Types.Point) : TextBuffer α := { b with cursorX := position.x, cursorY := position.y }

end VT7.Buffer.TextBuffer

namespace VT7.Adapter

open VT7.Buffer
open VT7.Lib.Cells
open VT7.Types (Rect)

variable {α : Type}

/-! ### Rows that go from one buffer to another -/

section Rows

variable {b b' b'' : TextBuffer α} {u v z : ℕ}

/-- The row is a blank one. -/
structure Blank (b : TextBuffer α) (eraseAttributes : α) (z : ℕ) : Prop where
  cells : ∀ x < b.width, b.cell x z = .blank [space]
  attributes : ∀ x < b.width, b.attributes x z = some eraseAttributes
  lineRendition : (b.getRow z).lineRendition = .singleWidth

lemma Shows.of_row (h : b'.getRow z = b.getRow v) : Shows b v b' z := by
  refine ⟨fun x _ => ?_, fun x _ => ?_, ?_⟩
  · unfold TextBuffer.cell
    rw [h]
  · unfold TextBuffer.attributes
    rw [h]
  · rw [h]

lemma Shows.trans (h : Shows b v b' z) (hwidth : b'.width = b.width) (h' : Shows b' z b'' u) : Shows b v b'' u := by
  refine ⟨fun x hx => ?_, fun x hx => ?_, ?_⟩
  · rw [h'.cells x (hwidth ▸ hx), h.cells x hx]
  · rw [h'.attributes x (hwidth ▸ hx), h.attributes x hx]
  · rw [h'.lineRendition, h.lineRendition]

lemma Shows.setPosition (h : Shows b v b' z) (position : Types.Point) : Shows b v (b'.setPosition position) z :=
  ⟨h.cells, h.attributes, h.lineRendition⟩

lemma otherHalf_lt (hc : Content b) (hv : v < b.height) {x x' : ℕ} (hx : x < b.width)
    (hother : otherHalf (fun x => b.cell x v) x = some x') : x' < b.width := by
  have hfits := (hc.displays.rows v hv).fits
  have hcell : strip b v x = b.cell x v := if_pos hx
  unfold otherHalf at hother
  dsimp only at hother
  rw [← hcell] at hother
  cases hhalf : (strip b v x).half with
  | whole =>
    rw [hhalf] at hother
    cases hother
  | leading =>
    rw [hhalf] at hother
    cases hother
    by_contra hlast
    exact hfits.last (show x + 1 = b.width by omega) hhalf
  | trailing =>
    rw [hhalf] at hother
    cases hother
    omega

lemma reset_displays {r : Row α} (eraseAttributes : α) (hwidth : r.columnCount < 0x8000) :
    (r.reset eraseAttributes).Displays r.columnCount (fun _ => .blank [space])
      fun x => (List.replicate r.columnCount eraseAttributes)[x]? :=
  @create_displays _ eraseAttributes _ hwidth _ (@List.length_replicate _ r.columnCount eraseAttributes)

lemma Blank.of_reset {r : Row α} {eraseAttributes : α} (hlt : b.width < 0x8000) (hwidth : r.columnCount = b.width)
    (h : b.getRow z = r.reset eraseAttributes) : Blank b eraseAttributes z := by
  have hrow := @reset_displays _ r eraseAttributes (hwidth ▸ hlt)
  rw [← h, hwidth] at hrow
  refine ⟨fun x hx => hrow.cell_eq hx, fun x hx => ?_, by rw [h]; rfl⟩
  exact (hrow.attributes x).trans (List.getElem?_replicate_of_lt hx)

variable [DecidableEq α]

/-- **A scroll of whole rows.** -/
theorem scroll_rows (hc : Content b) (hs : Short b) (cwd : Clustering) (eraseAttributes : α) {t m : ℕ} {delta : ℤ}
    (htm : t < m) (hm : m ≤ b.height) (hwidth : 0 < b.width)
    (hcomplete : RowsComplete b ⟨0, t, b.width, m⟩ delta) :
    ∃ b', scrollRectVertically cwd eraseAttributes b ⟨0, t, b.width, m⟩ delta = .ok b' ∧
      b' = { b with rows := b'.rows } ∧
      (∀ z < b.height, ¬(t ≤ z ∧ z < m) → Shows b z b' z) ∧
      (∀ v z : ℕ, t ≤ z → z < m → t ≤ v → v < m → v + delta = z → Shows b v b' z) ∧
      ∀ z : ℕ, t ≤ z → z < m → ¬((t : ℤ) ≤ z - delta ∧ z - delta < m) → Blank b' eraseAttributes z := by
  have hvalid : (⟨0, t, b.width, m⟩ : Rect).isValid = true := by
    unfold Rect.isValid
    simp only [Bool.and_eq_true, decide_eq_true_eq]
    omega
  obtain ⟨l, t', r, m', hrect, S⟩ := setting_of hc hvalid le_rfl (Int.ofNat_le.mpr hm)
    (hs.shortTexts (Int.ofNat_le.mpr hm))
  rw [Rect.mk.injEq] at hrect
  obtain rfl : l = 0 := by omega
  obtain rfl : t' = t := by omega
  obtain rfl : r = b.width := by omega
  obtain rfl : m' = m := by omega
  obtain ⟨b', hok, -, hiff⟩ := S.vertical cwd eraseAttributes delta
  -- No border of a row has cells behind it.
  have hborders : BordersClear b ⟨((0 : ℕ) : ℤ), t', b.width, m'⟩ ⟨0, delta⟩ := by
    intro x y u v hxy _ hux _
    exact ⟨fun _ hx hpos => by dsimp only at hx; omega, fun _ hx hroom => by dsimp only at hx; omega⟩
  have hscrolled := hiff.mpr ⟨hborders, hcomplete⟩
  obtain ⟨hsame, hrenditions⟩ := scrollRectVertically_lineRendition hc hs (Int.natCast_nonneg t')
    (Int.ofNat_le.mpr htm.le) (Int.ofNat_le.mpr hm) hok
  have hwidth' : b'.width = b.width := by rw [hsame]
  have hfull : (⟨((0 : ℕ) : ℤ), t', b.width, m'⟩ : Rect).width = b.width := Int.sub_zero _
  have hinside : ∀ {x z : ℕ}, x < b.width → t' ≤ z → z < m' →
      (⟨((0 : ℕ) : ℤ), t', b.width, m'⟩ : Rect).Contains ⟨x, z⟩ := fun {x z} hx hz hz' => by
    unfold Rect.Contains
    dsimp only
    omega
  refine ⟨b', hok, hsame, fun z hz hout => ?_, fun v z hz hz' hv hv' hvz => ?_, fun z hz hz' hnone => ?_⟩
  · have hnot : ∀ x' : ℕ, ¬(⟨((0 : ℕ) : ℤ), t', b.width, m'⟩ : Rect).Contains ⟨x', z⟩ := fun x' h => by
      have hrow := h.2.2
      dsimp only at hrow
      omega
    refine ⟨fun x hx => ?_, fun x hx => (hscrolled.outside x hx z hz (hnot x)).1, ?_⟩
    · obtain ⟨-, hcell | ⟨-, x', -, hin⟩⟩ := hscrolled.outside x hx z hz (hnot x)
      · exact hcell
      · exact absurd hin (hnot x')
    · rw [hrenditions z hz]
      unfold scrolledRendition
      rw [if_neg (by dsimp only; omega)]
  · have hmoved := fun x hx => hscrolled.moved x z x v (hinside hx hz hz') (hinside hx hv hv') (Int.add_zero _) hvz
    refine ⟨fun x hx => ?_, fun x hx => (hmoved x hx).1, ?_⟩
    · obtain ⟨-, hcell | ⟨-, x', hother, hout⟩⟩ := hmoved x hx
      · exact hcell
      · have hlt := otherHalf_lt hc (hv'.trans_le hm) hx hother
        exact absurd ⟨hinside hlt hv hv', by rw [Int.add_zero]; exact hinside hlt hz hz'⟩ hout
    · rw [hrenditions z (hz'.trans_le hm)]
      unfold scrolledRendition
      rw [hfull, if_pos (by dsimp only; omega), if_pos (by dsimp only; omega), if_pos rfl,
        show ((z : ℤ) - delta).toNat = v by omega]
  · have hrevealed := fun x hx => hscrolled.revealed x z (hinside hx hz hz') fun h => hnone (by
      have hrow := h.2.2
      dsimp only at hrow
      omega)
    refine ⟨fun x hx => (hrevealed x (hwidth' ▸ hx)).2, fun x hx => (hrevealed x (hwidth' ▸ hx)).1, ?_⟩
    rw [hrenditions z (hz'.trans_le hm)]
    unfold scrolledRendition
    rw [if_pos (by dsimp only; omega), if_neg (by dsimp only; omega)]

end Rows

/-! ### Rows that differ in their wrap flag -/

/-- The rows of `b'` are those of `b`, up to their wrap flags. -/
structure SameUpToWrap (b b' : TextBuffer α) : Prop where
  same : b' = { b with rows := b'.rows }
  rows : ∀ p, ∃ wrapForced, b'.rows p = (b.rows p).setWrapForced wrapForced

namespace SameUpToWrap

variable {b b' : TextBuffer α}

lemma setWrapForced (b : TextBuffer α) (y : ℤ) (wrapForced : Bool) :
    SameUpToWrap b (b.setWrapForced y wrapForced) := by
  refine ⟨rfl, fun p => ?_⟩
  unfold TextBuffer.setWrapForced TextBuffer.setRowByOffset TextBuffer.setRow TextBuffer.getRowByOffset
    TextBuffer.getRow
  dsimp only
  rcases eq_or_ne p (b.rowOffset (y % b.height).toNat) with rfl | hne
  · rw [Function.update_self]
    exact ⟨wrapForced, rfl⟩
  · rw [Function.update_of_ne hne]
    exact ⟨(b.rows p).wrapForced, rfl⟩

lemma getRow (h : SameUpToWrap b b') (y : ℕ) : ∃ wrapForced, b'.getRow y = (b.getRow y).setWrapForced wrapForced := by
  have hoffset : b'.rowOffset y = b.rowOffset y := by rw [h.same]; rfl
  unfold TextBuffer.getRow
  rw [hoffset]
  exact h.rows _

lemma cell (h : SameUpToWrap b b') (x y : ℕ) : b'.cell x y = b.cell x y := by
  obtain ⟨w, hrow⟩ := h.getRow y
  unfold TextBuffer.cell
  rw [hrow]
  rfl

lemma attributes (h : SameUpToWrap b b') (x y : ℕ) : b'.attributes x y = b.attributes x y := by
  obtain ⟨w, hrow⟩ := h.getRow y
  unfold TextBuffer.attributes
  rw [hrow]
  rfl

lemma shows (h : SameUpToWrap b b') (y : ℕ) : Shows b y b' y := by
  refine ⟨fun x _ => h.cell x y, fun x _ => h.attributes x y, ?_⟩
  obtain ⟨w, hrow⟩ := h.getRow y
  rw [hrow]
  rfl

lemma width (h : SameUpToWrap b b') : b'.width = b.width := by rw [h.same]

lemma height (h : SameUpToWrap b b') : b'.height = b.height := by rw [h.same]

lemma content (h : SameUpToWrap b b') (hc : Content b) : Content b' := .of_rows fun y hy => by
  obtain ⟨w, hrow⟩ := h.getRow y
  rw [h.height] at hy
  obtain ⟨gs, hholds⟩ := hc.rows y hy
  rw [hrow, h.width]
  exact ⟨gs, hholds.congr rfl rfl rfl, hc.columns y hy, hc.attributes y hy⟩

lemma short (h : SameUpToWrap b b') (hs : Short b) : Short b' := by
  intro y hy
  obtain ⟨w, hrow⟩ := h.getRow y
  rw [hrow, h.width]
  exact hs y (h.height ▸ hy)

lemma copyComplete (h : SameUpToWrap b b') (y v : ℕ) : CopyComplete b' y v ↔ CopyComplete b y v := by
  obtain ⟨w, hrow⟩ := h.getRow v
  have hlimit : (b'.getRow v).getReadableColumnCount = (b.getRow v).getReadableColumnCount := by
    rw [hrow]
    rfl
  unfold CopyComplete
  simp only [h.cell, hlimit, h.width]

lemma rowsComplete (h : SameUpToWrap b b') (rect : Rect) (delta : ℤ) :
    RowsComplete b' rect delta ↔ RowsComplete b rect delta := by
  unfold RowsComplete
  simp only [h.copyComplete, h.width]

lemma bordersClear (h : SameUpToWrap b b') (rect : Rect) (d : Types.Point) :
    BordersClear b' rect d ↔ BordersClear b rect d := by
  unfold BordersClear
  simp only [h.cell, h.width]

lemma incrementCircularBuffer (h : SameUpToWrap b b') (eraseAttributes : α) :
    SameUpToWrap (b.incrementCircularBuffer eraseAttributes) (b'.incrementCircularBuffer eraseAttributes) := by
  obtain ⟨hsame, hrows⟩ := h
  generalize b'.rows = rows at *
  subst hsame
  refine ⟨rfl, fun p => ?_⟩
  unfold TextBuffer.incrementCircularBuffer TextBuffer.setRowByOffset TextBuffer.setRow TextBuffer.getRowByOffset
    TextBuffer.getRow TextBuffer.rowOffset
  dsimp only
  rcases eq_or_ne p ((b.firstRow + (0 % b.height : ℤ).toNat) % b.height) with rfl | hne
  · obtain ⟨w, hrow⟩ := hrows ((b.firstRow + (0 % b.height : ℤ).toNat) % b.height)
    rw [Function.update_self, Function.update_self, hrow]
    exact ⟨false, rfl⟩
  · rw [Function.update_of_ne hne, Function.update_of_ne hne]
    exact hrows p

end SameUpToWrap

/-! ### Rotated rows -/

section Rotated

variable {b : TextBuffer α} {eraseAttributes : α}

lemma getRow_incrementCircularBuffer (hfirst : b.firstRow < b.height) {y : ℕ} (hy : y < b.height) :
    (b.incrementCircularBuffer eraseAttributes).getRow y =
      if y + 1 = b.height then (b.getRow 0).reset eraseAttributes else b.getRow (y + 1) := by
  have hindex : ((0 : ℤ) % b.height).toNat = 0 := by rw [Int.zero_emod]; rfl
  have hoffset : (b.incrementCircularBuffer eraseAttributes).rowOffset y = b.rowOffset (y + 1) := by
    unfold TextBuffer.rowOffset
    show ((if b.height ≤ b.firstRow + 1 then 0 else b.firstRow + 1) + y) % b.height = _
    split
    · rw [show b.firstRow + (y + 1) = b.height + y by omega, Nat.add_mod_left, Nat.zero_add]
    · rw [Nat.add_right_comm, Nat.add_assoc]
  have hrows : (b.incrementCircularBuffer eraseAttributes).getRow y =
      (b.setRow 0 ((b.getRow 0).reset eraseAttributes)).getRow (y + 1) := by
    unfold TextBuffer.getRow
    rw [hoffset]
    unfold TextBuffer.incrementCircularBuffer TextBuffer.setRowByOffset TextBuffer.getRowByOffset
    rw [hindex]
    rfl
  rw [hrows]
  split
  · next hlast =>
    have hsame : (b.setRow 0 ((b.getRow 0).reset eraseAttributes)).getRow (y + 1) =
        (b.setRow 0 ((b.getRow 0).reset eraseAttributes)).getRow 0 := by
      unfold TextBuffer.getRow TextBuffer.rowOffset TextBuffer.setRow
      dsimp only
      rw [hlast, Nat.add_mod_right, Nat.add_zero]
    rw [hsame, TextBuffer.getRow_setRow_self]
  · exact TextBuffer.getRow_setRow_of_ne (by omega) (by omega) (by omega) _

lemma width_lt (hs : Short b) (hheight : 0 < b.height) : b.width < 0x8000 := by
  have hrow := hs 0 hheight
  omega

lemma Content.setRowByOffset (hc : Content b) (hpos : 0 < b.height) (row : ℤ) {r : Row α}
    (hr : ∃ gs, r.Holds gs ∧ r.columnCount = b.width ∧ r.attr.length = b.width) : Content (b.setRowByOffset row r) := by
  have hlt := Int.emod_lt_of_pos row (show (0 : ℤ) < b.height by omega)
  have hnonneg := Int.emod_nonneg row (show (b.height : ℤ) ≠ 0 by omega)
  refine .of_rows fun y hy => ?_
  change y < b.height at hy
  unfold TextBuffer.setRowByOffset
  rcases eq_or_ne y (row % b.height).toNat with rfl | hne
  · rw [TextBuffer.getRow_setRow_self]
    exact hr
  · rw [TextBuffer.getRow_setRow_of_ne (by omega) hy hne]
    obtain ⟨gs, hgs⟩ := hc.rows y hy
    exact ⟨gs, hgs, hc.columns y hy, hc.attributes y hy⟩

lemma Content.reset (hc : Content b) (hs : Short b) {y : ℕ} (hy : y < b.height) (eraseAttributes : α) :
    ∃ gs, ((b.getRow y).reset eraseAttributes).Holds gs ∧ (b.getRow y).columnCount = b.width ∧
      ((b.getRow y).reset eraseAttributes).attr.length = b.width := by
  have hwidth := hc.columns y hy
  exact ⟨_, reset_holds (hwidth ▸ width_lt hs (Nat.zero_lt_of_lt hy)) eraseAttributes, hwidth,
    List.length_replicate.trans hwidth⟩

lemma content_incrementCircularBuffer (hc : Content b) (hs : Short b) (hfirst : b.firstRow < b.height) :
    Content (b.incrementCircularBuffer eraseAttributes) := .of_rows fun y hy => by
  rw [getRow_incrementCircularBuffer hfirst hy]
  split
  · exact hc.reset hs (Nat.zero_lt_of_lt hfirst) eraseAttributes
  · have hlt : y + 1 < b.height := by
      have : y < b.height := hy
      omega
    obtain ⟨gs, hgs⟩ := hc.rows _ hlt
    exact ⟨gs, hgs, hc.columns _ hlt, hc.attributes _ hlt⟩

lemma short_incrementCircularBuffer (hc : Content b) (hs : Short b) (hfirst : b.firstRow < b.height) :
    Short (b.incrementCircularBuffer eraseAttributes) := by
  intro y hy
  have hy' : y < b.height := hy
  rw [getRow_incrementCircularBuffer hfirst hy]
  split
  · have hpos : 0 < b.height := Nat.zero_lt_of_lt hfirst
    have hwidth := hc.columns 0 hpos
    have hrow := hs 0 hpos
    have hblank := reset_holds (hwidth ▸ width_lt hs hpos : (b.getRow 0).columnCount < 0x8000) eraseAttributes
    rw [hblank.charSize, units_blanks, hwidth]
    show max b.width b.width + 2 * b.width < 0x4000
    omega
  · exact hs (y + 1) (by omega)

end Rotated

end VT7.Adapter
