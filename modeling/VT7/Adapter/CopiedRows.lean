import VT7.Adapter.ScrollMargins

/-!
# Rows that are copied whole

`CopyFrom` copies the columns of a row that can be read.  A row that is copied shows its source exactly when the
columns behind those agree already (`CopyWhole`); `scrollRows_exact_iff` says so for all rows of a `ScrollRows`.
-/

namespace VT7.Adapter

open VT7.Buffer
open VT7.Lib.Cells

variable {α : Type}

/-- The row `z` of `b'` looks like the row `v` of `b`. -/
structure Shows (b : TextBuffer α) (v : ℕ) (b' : TextBuffer α) (z : ℕ) : Prop where
  cells : ∀ x < b.width, b'.cell x z = b.cell x v
  attributes : ∀ x < b.width, b'.attributes x z = b.attributes x v
  lineRendition : (b'.getRow z).lineRendition = (b.getRow v).lineRendition

/-- It is wrapped like that row, too. -/
structure SameRow (b : TextBuffer α) (v : ℕ) (b' : TextBuffer α) (z : ℕ) : Prop extends Shows b v b' z where
  wrapForced : (b'.getRow z).wrapForced = (b.getRow v).wrapForced

/-- `ScrollRows` has copied its rows, and left the others alone. -/
structure RowsScrolled (b b' : TextBuffer α) (firstRow size delta : ℤ) : Prop where
  copied : ∀ v z : ℕ, firstRow ≤ v → v < firstRow + size → (z : ℤ) = v + delta →
    SameRow b v b' z ∧ (b'.getRow z).doubleBytePadded = (b.getRow v).doubleBytePadded
  kept : ∀ z < b.height, ¬(firstRow + delta ≤ z ∧ z < firstRow + size + delta) → b'.getRow z = b.getRow z

/-- The flag of the row `y` is right behind a copy of the row `v`: it is set or cleared with the last column, and left
alone where the copy ends before it. -/
def PaddingComplete (b : TextBuffer α) (y v : ℕ) : Prop :=
  let limit := (b.getRow v).getReadableColumnCount
  if limit = 0 ∨ limit = 1 ∧ (b.cell 0 v).half = .leading then
    (b.getRow y).doubleBytePadded = (b.getRow v).doubleBytePadded
  else if limit = b.width then (b.getRow v).doubleBytePadded = false
  else if limit + 1 = b.width ∧ (b.cell limit y).half = .trailing then (b.getRow v).doubleBytePadded = true
  else (b.getRow y).doubleBytePadded = (b.getRow v).doubleBytePadded

open Finset in
/-- The row `y` has room for what `CopyFrom` makes of it and the row `v`. -/
def CopyFits (b : TextBuffer α) (y v : ℕ) : Prop :=
  ∑ x ∈ range b.width, weight (copied (b.getRow v).getReadableColumnCount (strip b y) (strip b v) x) < 0x8000

/-! ### One row -/

section Row

variable {b : TextBuffer α} {y v : ℕ}

/-- Where a row is copied completely, the copy is as long as the source. -/
lemma CopyComplete.fits (h : Content b) (hy : y < b.height) (hv : v < b.height) (hcopy : CopyComplete b y v) :
    CopyFits b y v := by
  have hrow := h.displays.rows v hv
  obtain ⟨gs, hholds, -⟩ := hrow.shows
  have hshort := hholds.short
  rw [← hholds.charSize, hrow.charSize_eq] at hshort
  unfold CopyFits
  rw [Finset.sum_congr rfl fun x hx =>
    congrArg weight ((copyComplete_iff h.displays hy hv).mpr hcopy x (Finset.mem_range.mp hx))]
  exact hshort

/-- The row `r` is what `CopyFrom` makes of the row `y` and the row `v`. -/
structure Copied (b : TextBuffer α) (y v : ℕ) (r : Row α) : Prop where
  displays : r.Displays b.width (copied (b.getRow v).getReadableColumnCount (strip b y) (strip b v))
    fun x => b.attributes x v
  lineRendition : r.lineRendition = (b.getRow v).lineRendition
  wrapForced : r.wrapForced = (b.getRow v).wrapForced
  doubleBytePadded : r.doubleBytePadded = copiedPadding b.width (b.getRow v).getReadableColumnCount (strip b y) (strip b v)
    (b.getRow y).doubleBytePadded

lemma CopyFits.copyFrom (h : Content b) (hy : y < b.height) (hv : v < b.height) (hfits : CopyFits b y v) :
    ∃ r, (b.getRow y).copyFrom (b.getRow v) = .ok r ∧ Copied b y v r := by
  have hrow := h.displays.rows y hy
  have hsource := h.displays.rows v hv
  have hcolumns := hrow.columns
  obtain ⟨r, hok, hshows, hfields⟩ := hrow.shows.copyFrom_all hsource.shows (hsource.columns.trans hcolumns.symm)
    (hsource.length.trans hcolumns.symm) (by rw [hcolumns]; exact hfits)
  rw [hcolumns] at hfields
  refine ⟨r, hok, ⟨hshows, ?_, ?_, fun x => ?_⟩, ?_, ?_, ?_⟩
  · rw [hfields]
  · rw [hfields]
    exact hsource.length
  · rw [hfields]
    exact hsource.attributes x
  all_goals rw [hfields]

/-- **A copied row shows its source** exactly when it has been copied completely. -/
lemma Copied.sameRow_iff (h : Content b) (hy : y < b.height) (hv : v < b.height) {b' : TextBuffer α}
    (hcopied : Copied b y v (b'.getRow y)) : SameRow b v b' y ↔ CopyComplete b y v := by
  rw [← copyComplete_iff h.displays hy hv]
  have hcell : ∀ x < b.width, b'.cell x y =
      copied (b.getRow v).getReadableColumnCount (strip b y) (strip b v) x := fun x hx => hcopied.displays.cell_eq hx
  have hsource : ∀ x < b.width, b.cell x v = strip b v x := fun x hx => (if_pos hx).symm
  constructor
  · intro hsame x hx
    rw [← hcell x hx, ← hsource x hx]
    exact hsame.cells x hx
  · intro hcomplete
    refine ⟨⟨fun x hx => ?_, fun x _ => hcopied.displays.attributes x, hcopied.lineRendition⟩, hcopied.wrapForced⟩
    rw [hcell x hx, hsource x hx]
    exact hcomplete x hx

lemma Copied.padding_iff (h : Content b) (hv : v < b.height) {r : Row α} (hcopied : Copied b y v r) :
    r.doubleBytePadded = (b.getRow v).doubleBytePadded ↔ PaddingComplete b y v := by
  have hlimit : (b.getRow v).getReadableColumnCount ≤ b.width := by
    rw [← h.columns v hv]
    exact getReadableColumnCount_le _
  rw [hcopied.doubleBytePadded]
  unfold copiedPadding PaddingComplete
  dsimp only
  generalize (b.getRow v).getReadableColumnCount = limit at hlimit ⊢
  have hfirst : limit = 1 → strip b v 0 = b.cell 0 v := fun hone => if_pos (by omega)
  have hcut : limit + 1 = b.width → strip b y limit = b.cell limit y := fun hlast => if_pos (by omega)
  have hfirst' : limit = 1 ∧ (strip b v 0).half = .leading ↔ limit = 1 ∧ (b.cell 0 v).half = .leading :=
    and_congr_right fun hone => by rw [hfirst hone]
  have hcut' : limit + 1 = b.width ∧ (strip b y limit).half = .trailing ↔
      limit + 1 = b.width ∧ (b.cell limit y).half = .trailing := and_congr_right fun hlast => by rw [hcut hlast]
  simp only [hfirst', hcut']
  split
  · exact Iff.rfl
  split
  · exact eq_comm
  split
  · exact eq_comm
  · exact Iff.rfl

end Row

/-! ### All rows -/

section Rows

variable {b : TextBuffer α} {firstRow size delta : ℤ}

/-- The row `v` is one of those that are moved, and goes to `z`. -/
def Goes (firstRow size delta : ℤ) (v z : ℕ) : Prop := firstRow ≤ v ∧ v < firstRow + size ∧ (z : ℤ) = v + delta

/-- The rows are copied in an order in which none is lost. -/
lemma scrollRows_rows (hdelta : delta ≠ 0) (hfirst : 0 ≤ firstRow) (hlast : firstRow + size ≤ b.height)
    (hfirst' : 0 ≤ firstRow + delta) (hlast' : firstRow + size + delta ≤ b.height) {rows : ℕ → Row α}
    (hcopy : ∀ v z, Goes firstRow size delta v z → (b.getRow z).copyFrom (b.getRow v) = .ok (rows z)) :
    ∃ b', b.scrollRows firstRow size delta = .ok b' ∧ b' = { b with rows := b'.rows } ∧
      (∀ v z, Goes firstRow size delta v z → b'.getRow z = rows z) ∧
      ∀ z < b.height, ¬(firstRow + delta ≤ z ∧ z < firstRow + size + delta) → b'.getRow z = b.getRow z := by
  have hrest : ∀ i : ℕ, i < (max 0 size).toNat ↔ (i : ℤ) < size := fun i => by omega
  unfold TextBuffer.scrollRows
  rw [if_neg hdelta]
  dsimp only
  rcases lt_or_gt_of_ne hdelta with hneg | hpos
  · rw [if_pos hneg]
    obtain ⟨b', hok, hsame, hresult⟩ := @TextBuffer.scrollRowsFrom_rows _ b delta 1 firstRow
      (max 0 size).toNat rows (.inl ⟨rfl, hneg⟩) (fun i hi => by have := (hrest i).mp hi; omega)
      (fun i hi => by have := (hrest i).mp hi; omega)
      (fun z _ v _ hzv hlo hhi => hcopy v z ⟨by omega, by omega, by omega⟩)
    refine ⟨b', hok, hsame, fun v z hgoes => ?_, fun z hz hout => ?_⟩
    · obtain ⟨hlo, hhi, hzv⟩ := hgoes
      exact (hresult z (by omega)).1 v (by omega) (by omega) (by omega) (by omega)
    · exact (hresult z hz).2 (by omega)
  · rw [if_neg (by omega)]
    obtain ⟨b', hok, hsame, hresult⟩ := @TextBuffer.scrollRowsFrom_rows _ b delta (-1)
      (firstRow + max 0 size - 1) (max 0 size).toNat rows (.inr ⟨rfl, hpos⟩)
      (fun i hi => by have := (hrest i).mp hi; omega) (fun i hi => by have := (hrest i).mp hi; omega)
      (fun z _ v _ hzv hlo hhi => hcopy v z ⟨by omega, by omega, by omega⟩)
    refine ⟨b', hok, hsame, fun v z hgoes => ?_, fun z hz hout => ?_⟩
    · obtain ⟨hlo, hhi, hzv⟩ := hgoes
      exact (hresult z (by omega)).1 v (by omega) (by omega) (by omega) (by omega)
    · exact (hresult z hz).2 (by omega)

/-- Every row is copied completely, and its flag with it. -/
def CopiesWhole (b : TextBuffer α) (firstRow size delta : ℤ) : Prop :=
  delta ≠ 0 → ∀ v z, Goes firstRow size delta v z → CopyComplete b z v ∧ PaddingComplete b z v

/-- Every row that is moved is copied from its source as it was. -/
lemma scrollRows_copied (h : Content b) (hdelta : delta ≠ 0) (hfirst : 0 ≤ firstRow)
    (hlast : firstRow + size ≤ b.height) (hfirst' : 0 ≤ firstRow + delta) (hlast' : firstRow + size + delta ≤ b.height)
    (hfits : ∀ v z, Goes firstRow size delta v z → CopyFits b z v) :
    ∃ b', b.scrollRows firstRow size delta = .ok b' ∧ b' = { b with rows := b'.rows } ∧
      (∀ v z, Goes firstRow size delta v z → Copied b z v (b'.getRow z)) ∧
      ∀ z < b.height, ¬(firstRow + delta ≤ z ∧ z < firstRow + size + delta) → b'.getRow z = b.getRow z := by
  have hrow : ∀ z, ∃ r : Row α, ∀ v, Goes firstRow size delta v z →
      (b.getRow z).copyFrom (b.getRow v) = .ok r ∧ Copied b z v r := by
    intro z
    by_cases hpair : ∃ v, Goes firstRow size delta v z
    · obtain ⟨v, hgoes⟩ := hpair
      have hrange := hgoes
      obtain ⟨hlo, hhi, hzv⟩ := hrange
      obtain ⟨r, hok, hcopied⟩ := (hfits v z hgoes).copyFrom h (by omega) (by omega)
      refine ⟨r, fun u hu => ?_⟩
      obtain rfl : u = v := by
        have := hu.2.2
        omega
      exact ⟨hok, hcopied⟩
    · exact ⟨b.getRow z, fun v hgoes => absurd ⟨v, hgoes⟩ hpair⟩
  choose rows hrows using hrow
  obtain ⟨b', hok, hsame, hmoved, hkept⟩ := scrollRows_rows hdelta hfirst hlast hfirst' hlast'
    fun v z hgoes => (hrows z v hgoes).1
  refine ⟨b', hok, hsame, fun v z hgoes => ?_, hkept⟩
  rw [hmoved v z hgoes]
  exact (hrows z v hgoes).2

lemma scrollRows_iff (h : Content b) (hfirst : 0 ≤ firstRow) (hlast : firstRow + size ≤ b.height)
    (hfirst' : 0 ≤ firstRow + delta) (hlast' : firstRow + size + delta ≤ b.height)
    (hfits : delta ≠ 0 → ∀ v z, Goes firstRow size delta v z → CopyFits b z v) :
    ∃ b', b.scrollRows firstRow size delta = .ok b' ∧
      (RowsScrolled b b' firstRow size delta ↔ CopiesWhole b firstRow size delta) := by
  by_cases hdelta : delta = 0
  · refine ⟨b, if_pos hdelta, iff_of_true ⟨fun v z _ _ hzv => ?_, fun z _ _ => rfl⟩ fun h0 => absurd hdelta h0⟩
    obtain rfl : z = v := by omega
    exact ⟨⟨⟨fun _ _ => rfl, fun _ _ => rfl, rfl⟩, rfl⟩, rfl⟩
  have hrange : ∀ {v z}, Goes firstRow size delta v z → v < b.height ∧ z < b.height := by
    rintro v z ⟨hlo, hhi, hzv⟩
    omega
  obtain ⟨b', hok, -, hcopied, hkept⟩ := scrollRows_copied h hdelta hfirst hlast hfirst' hlast' (hfits hdelta)
  refine ⟨b', hok, ?_⟩
  constructor
  · intro hscrolled _ v z hgoes
    obtain ⟨hv, hz⟩ := hrange hgoes
    obtain ⟨hsame, hpadded⟩ := hscrolled.copied v z hgoes.1 hgoes.2.1 hgoes.2.2
    have hrow := hcopied v z hgoes
    exact ⟨(hrow.sameRow_iff h hz hv).mp hsame, (hrow.padding_iff h hv).mp hpadded⟩
  · intro hwhole
    refine ⟨fun v z hlo hhi hzv => ?_, hkept⟩
    obtain ⟨hv, hz⟩ := hrange ⟨hlo, hhi, hzv⟩
    obtain ⟨hcomplete, hpadding⟩ := hwhole hdelta v z ⟨hlo, hhi, hzv⟩
    have hrow := hcopied v z ⟨hlo, hhi, hzv⟩
    exact ⟨(hrow.sameRow_iff h hz hv).mpr hcomplete, (hrow.padding_iff h hv).mpr hpadding⟩

/-- **When rows are scrolled exactly**: when each is copied whole, and, unless a copy is too long for its row, only
then. -/
theorem scrollRows_exact_iff (h : Content b) (hfirst : 0 ≤ firstRow) (hlast : firstRow + size ≤ b.height)
    (hfirst' : 0 ≤ firstRow + delta) (hlast' : firstRow + size + delta ≤ b.height) :
    (CopiesWhole b firstRow size delta →
      ∃ b', b.scrollRows firstRow size delta = .ok b' ∧ RowsScrolled b b' firstRow size delta) ∧
    ((∀ v z, Goes firstRow size delta v z → CopyFits b z v) →
      ∃ b', b.scrollRows firstRow size delta = .ok b' ∧
        (RowsScrolled b b' firstRow size delta ↔ CopiesWhole b firstRow size delta)) := by
  constructor
  · intro hwhole
    obtain ⟨b', hok, hiff⟩ := scrollRows_iff h hfirst hlast hfirst' hlast' fun hdelta v z hgoes => by
      have hgoes' := hgoes
      obtain ⟨hlo, hhi, hzv⟩ := hgoes'
      exact (hwhole hdelta v z hgoes).1.fits h (by omega) (by omega)
    exact ⟨b', hok, hiff.mpr hwhole⟩
  · intro hfits
    exact scrollRows_iff h hfirst hlast hfirst' hlast' fun _ => hfits

end Rows

/-! ### A padded row -/

/-- The row "xyz": the wide character behind it has gone to the next row. -/
def padded : Row ℕ where
  chars := [0x78, 0x79, 0x7a, 0x20]
  charOffsets := [0, 1, 2, 3, 4]
  attr := [0, 0, 0, 0]
  columnCount := 4
  lineRendition := .singleWidth
  wrapForced := true
  doubleBytePadded := true
  promptData := none

def paddedBelow : TextBuffer ℕ where
  rows y := if y = 0 then letters else padded
  width := 4
  height := 2
  firstRow := 0
  initialAttributes := 0
  cursorX := 0
  cursorY := 0

lemma padded_holds : padded.Holds [.narrow 0x78, .narrow 0x79, .narrow 0x7a, .blank] :=
  ⟨rfl, rfl, rfl, by decide⟩

lemma paddedBelow_content : Content paddedBelow := by
  refine .of_rows fun y (hy : y < 2) => ?_
  obtain rfl | rfl : y = 0 ∨ y = 1 := by omega
  · exact ⟨_, letters_holds, rfl, rfl⟩
  · exact ⟨_, padded_holds, rfl, rfl⟩

/-- The letters are copied over the padded row. -/
theorem scrollRows_exact_iff_down :
    ∃ b', paddedBelow.scrollRows 0 1 1 = .ok b' ∧ RowsScrolled paddedBelow b' 0 1 1 := by
  refine (scrollRows_exact_iff paddedBelow_content (by decide) (by decide) (by decide) (by decide)).1 ?_
  rintro - v z ⟨hlo, hhi, hz⟩
  obtain rfl : v = 0 := by omega
  obtain rfl : z = 1 := by omega
  constructor
  · unfold CopyComplete
    decide
  · unfold PaddingComplete
    decide

/-- The last letter stays behind the row that is copied over it. -/
theorem scrollRows_leaves_letter : ¬∀ (b : TextBuffer ℕ) (firstRow size delta : ℤ), Content b → 0 ≤ firstRow →
    firstRow + size ≤ b.height → 0 ≤ firstRow + delta → firstRow + size + delta ≤ b.height →
    ∃ b', b.scrollRows firstRow size delta = .ok b' ∧ RowsScrolled b b' firstRow size delta := by
  intro h
  obtain ⟨b', hok, hscrolled⟩ := h paddedBelow 1 1 (-1) paddedBelow_content (by decide) (by decide) (by decide) (by decide)
  have hcell : (paddedBelow.scrollRows 1 1 (-1)).toOption.map (fun b => b.cell 3 0) = some ⟨[0x64], .whole⟩ := by
    decide
  rw [hok] at hcell
  have hafter : b'.cell 3 0 = ⟨[0x64], .whole⟩ := Option.some.inj hcell
  have hsame := (hscrolled.copied 1 0 (by decide) (by decide) (by decide)).1.cells 3 (by decide)
  rw [hafter] at hsame
  exact absurd hsame (by decide)

end VT7.Adapter
