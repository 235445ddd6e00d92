import VT7.Adapter.GraphicsOptions
import VT7.Adapter.RectAreas
import VT7.Adapter.Transfers
import VT7.Buffer.Renditions

/-!
# Copied areas

`CopyRectangularArea` copies a rectangle of one page to a place on the same page or on another one, cell by cell.  A
`Block` says which cells these are; on single-width lines of narrow glyphs the loop moves all of them at once
(`copyArea_run`), whether the two places overlap or not.
-/

namespace VT7.Adapter

open VT7.Buffer
open VT7.Lib.Cells
open VT7.Types (Rect)
open VT7.Types.Viewport

variable {α : Type}

section Loop

variable [DecidableEq α]

/-- The loop of `CopyRectangularArea`.  Without a source of its own, the cells are read from the buffer that they are
written to.  The positions that are read are kept in `reads`. -/
def copyArea (source : Option (TextBuffer α)) (srcView dstView : Types.Viewport) (walkDirection : ℤ) :
    ℕ → (srcPos dstPos : Types.Point) → (next : OutputCellView α) → (reads : List Types.Point) → TextBuffer α →
      Except WriteCellsError (TextBuffer α × List Types.Point)
  | 0, _, _, _, _, _ => .error (.buffer .unfinished)
  | iterations + 1, srcPos, dstPos, next, reads, target => do
    let current := next
    let currentSrcPos := srcPos
    let (srcPos, _) := srcView.walkInBounds srcPos walkDirection
    let next ← (source.getD target).getCellDataAt srcPos
    -- What is offscreen on a double width line is not copied.
    let target ← (if currentSrcPos.x < (source.getD target).getLineWidth currentSrcPos.y then
        target.writeLine [current] dstPos none none
      else .ok target : Except WriteCellsError (TextBuffer α))
    let (dstPos, inBounds) := dstView.walkInBounds dstPos walkDirection
    if inBounds then copyArea source srcView dstView walkDirection iterations srcPos dstPos next (srcPos :: reads) target
    else .ok (target, srcPos :: reads)

/-- What `CopyRectangularArea` does with the rectangles. -/
def copyRect (source : Option (TextBuffer α)) (srcRect dstRect : Rect) (target : TextBuffer α) :
    Except WriteCellsError (TextBuffer α × List Types.Point) := do
  let srcView := fromDimensions srcRect.origin dstRect.width dstRect.height
  let dstView := fromDimensions dstRect.origin dstRect.width dstRect.height
  let walkDirection := determineWalkDirection srcView dstView
  let srcPos := srcView.getWalkOrigin walkDirection
  let dstPos := dstView.getWalkOrigin walkDirection
  let next ← (source.getD target).getCellDataAt srcPos
  copyArea source srcView dstView walkDirection (dstRect.width * dstRect.height).toNat srcPos dstPos next [srcPos] target

end Loop

/-! ### Blocks -/

/-- The place that is read from, the place that is written to, and the order. -/
structure Block where
  l : ℕ
  t : ℕ
  left : ℕ
  top : ℕ
  columns : ℕ
  lines : ℕ
  columns_pos : 0 < columns
  lines_pos : 0 < lines
  forward : Bool

namespace Block

variable (B : Block)

def size : ℕ := B.columns * B.lines

/-- The number of the cell that is copied in step `k`. -/
def number (k : ℕ) : ℕ := visited B.forward B.columns B.lines k

/-- The cell has been written after `k` steps. -/
def Written (k x y : ℕ) : Prop :=
  ((B.left ≤ x ∧ x < B.left + B.columns) ∧ B.top ≤ y ∧ y < B.top + B.lines) ∧
    B.number ((y - B.top) * B.columns + (x - B.left)) < k

instance (k x y : ℕ) : Decidable (B.Written k x y) := inferInstanceAs (Decidable (_ ∧ _))

/-- What is at a place after `k` steps. -/
def after {β : Type} (source target : ℕ → ℕ → β) (k y x : ℕ) : β :=
  if B.Written k x y then source (B.t + (y - B.top)) (B.l + (x - B.left)) else target y x

section Order

variable {B} {k x y : ℕ}

lemma size_pos : 0 < B.size := Nat.mul_pos B.columns_pos B.lines_pos

lemma number_lt (hk : k < B.size) : B.number k < B.size := by
  unfold number visited
  unfold size at hk ⊢
  split <;> omega

lemma number_number (hk : k < B.size) : B.number (B.number k) = k := by
  unfold number visited
  unfold size at hk
  split <;> omega

lemma index_lt (hx : x < B.columns) (hy : y < B.lines) : y * B.columns + x < B.size := by
  have hrows := Nat.mul_le_mul_right B.columns (Nat.succ_le_of_lt hy)
  rw [Nat.succ_mul, Nat.mul_comm B.lines] at hrows
  unfold size
  omega

lemma index_div (hx : x < B.columns) : (y * B.columns + x) / B.columns = y := by
  rw [Nat.mul_comm, Nat.mul_add_div B.columns_pos, Nat.div_eq_of_lt hx, Nat.add_zero]

lemma index_mod (hx : x < B.columns) : (y * B.columns + x) % B.columns = x := by
  rw [Nat.mul_comm, Nat.mul_add_mod, Nat.mod_eq_of_lt hx]

lemma column_lt (n : ℕ) : n % B.columns < B.columns := Nat.mod_lt n B.columns_pos

lemma line_lt (hk : k < B.size) : B.number k / B.columns < B.lines := Nat.div_lt_of_lt_mul (number_lt hk)

/-- A step writes one cell. -/
lemma written_succ (hk : k < B.size) : B.Written (k + 1) x y ↔
    B.Written k x y ∨ x = B.left + B.number k % B.columns ∧ y = B.top + B.number k / B.columns := by
  have hmod := @column_lt B (B.number k)
  have hdiv := line_lt hk
  have hsplit := Nat.div_add_mod' (B.number k) B.columns
  unfold Written
  constructor
  · rintro ⟨⟨hx, hy⟩, hlt⟩
    rcases Nat.lt_or_eq_of_le (Nat.le_of_lt_succ hlt) with hlt | heq
    · exact .inl ⟨⟨hx, hy⟩, hlt⟩
    · have hindex := @index_lt B (x - B.left) (y - B.top) (by omega) (by omega)
      rw [← heq, number_number hindex, index_mod (by omega), index_div (by omega)]
      omega
  · rintro (⟨hin, hlt⟩ | ⟨hx, hy⟩)
    · exact ⟨hin, by omega⟩
    · refine ⟨⟨⟨hx ▸ Nat.le_add_right _ _, hx ▸ Nat.add_lt_add_left hmod _⟩,
        hy ▸ Nat.le_add_right _ _, hy ▸ Nat.add_lt_add_left hdiv _⟩, ?_⟩
      rw [hx, hy, Nat.add_sub_cancel_left, Nat.add_sub_cancel_left, hsplit, number_number hk]
      omega

lemma Written.mono {k' : ℕ} (h : B.Written k x y) (hle : k ≤ k') : B.Written k' x y := ⟨h.1, h.2.trans_le hle⟩

lemma not_written_zero : ¬B.Written 0 x y := fun h => by have := h.2; omega

/-- At the end the place is written. -/
lemma written_size : B.Written B.size x y ↔
    (B.left ≤ x ∧ x < B.left + B.columns) ∧ B.top ≤ y ∧ y < B.top + B.lines := by
  constructor
  · exact And.left
  · intro h
    exact ⟨h, number_lt (index_lt (by omega) (by omega))⟩

/-- **What a step reads has not been written yet**, if the order is the one for the two places. -/
lemma not_written_source (hforward : B.forward = true ↔ B.top < B.t ∨ B.top = B.t ∧ B.left < B.l) (hk : k < B.size) :
    ¬B.Written k (B.l + B.number k % B.columns) (B.t + B.number k / B.columns) := by
  rintro ⟨⟨hx, hy⟩, hlt⟩
  have hmod := @column_lt B (B.number k)
  have hsplit := Nat.div_add_mod' (B.number k) B.columns
  have hindex := @index_lt B (B.l + B.number k % B.columns - B.left) (B.t + B.number k / B.columns - B.top)
    (by omega) (by omega)
  have hk' := number_number hk
  generalize hq : B.number k / B.columns = q at *
  generalize hr : B.number k % B.columns = r at *
  -- The line that is written has a number below or above the one that is read, or the same one.
  have hrows : ∀ a b : ℕ, a < b → a * B.columns + B.columns ≤ b * B.columns := fun a b hab => by
    have := Nat.mul_le_mul_right B.columns (Nat.succ_le_of_lt hab)
    rwa [Nat.succ_mul] at this
  have hsame : B.top = B.t → B.t + q - B.top = q := fun h => by omega
  cases hmode : B.forward with
  | true =>
    have hplace := hforward.mp hmode
    unfold number visited at hlt hk' hsplit
    rw [hmode, if_pos rfl] at hlt
    rw [hmode, if_pos rfl, if_pos rfl] at hk'
    rw [hmode, if_pos rfl] at hsplit
    rcases hplace with htop | ⟨htop, hleft⟩
    · have := hrows q (B.t + q - B.top) (by omega)
      omega
    · rw [hsame htop] at hlt
      omega
  | false =>
    have hplace : ¬(B.top < B.t ∨ B.top = B.t ∧ B.left < B.l) := fun h => by
      rw [hforward.mpr h] at hmode
      cases hmode
    unfold size at hindex hk
    unfold number visited at hlt hsplit
    rw [hmode, if_neg nofun] at hlt hsplit
    rcases Nat.lt_or_ge B.t B.top with htop | htop
    · have := hrows (B.t + q - B.top) q (by omega)
      omega
    · have htop' : B.top = B.t := by omega
      rw [hsame htop'] at hlt hindex
      omega

end Order

end Block

/-! ### Narrow glyphs -/

/-- A narrow cell over narrow cells. -/
lemma paint_whole {τ : Type} {space : τ} {width x : ℕ} {c : ℕ → Cell τ} {cell : Cell τ} (hc : ∀ y, (c y).half = .whole)
    (hcell : cell.half = .whole) : paint space width c x cell = Function.update c x cell := by
  funext y
  unfold paint
  rw [hcell]
  dsimp only
  unfold laid
  rw [hc x, hc y]
  rcases Nat.lt_trichotomy y x with hlt | rfl | hgt
  · rw [if_pos hlt, if_neg (fun h => nomatch h.2), Function.update_of_ne hlt.ne]
  · rw [if_neg (Nat.lt_irrefl y), if_pos (Nat.lt_succ_self y), Function.update_self]
  · rw [if_neg (by omega), if_neg (by omega), if_neg (fun h => nomatch h.2), Function.update_of_ne hgt.ne']

/-- The rows are single-width lines of narrow glyphs, each of at most `units` code units. -/
structure Narrow (units : ℕ) (b : TextBuffer α) (width height : ℕ) (cells : ℕ → ℕ → GlyphCell)
    (attrs : ℕ → ℕ → Option α) : Prop where
  displays : b.Displays width height cells attrs
  whole : ∀ y < height, ∀ x, (cells y x).half = .whole
  light : ∀ y < height, ∀ x, weight (cells y x) ≤ units
  single : ∀ y < height, (b.getRow y).lineRendition = .singleWidth

namespace Block

variable {B : Block} {width height k : ℕ} {source target : ℕ → ℕ → GlyphCell} {sourceAttrs attrs : ℕ → ℕ → Option α}

/-- What holds of the buffer that is written to, after `k` steps. -/
structure Holds (B : Block) (width height : ℕ) (source target : ℕ → ℕ → GlyphCell)
    (sourceAttrs attrs : ℕ → ℕ → Option α) (original : TextBuffer α) (k : ℕ) (b : TextBuffer α) : Prop where
  same : b = { original with rows := b.rows }
  displays : b.Displays width height (B.after source target k) (B.after sourceAttrs attrs k)
  single : ∀ y < height, (b.getRow y).lineRendition = .singleWidth

/-- What the loop relies on. -/
structure Fits (B : Block) (units width height sourceHeight : ℕ) (source target : ℕ → ℕ → GlyphCell) : Prop where
  source_right : B.l + B.columns ≤ width
  source_bottom : B.t + B.lines ≤ sourceHeight
  right : B.left + B.columns ≤ width
  bottom : B.top + B.lines ≤ height
  width_lt : width < 0x8000
  whole : ∀ y < height, ∀ x, (target y x).half = .whole
  source_whole : ∀ y < sourceHeight, ∀ x, (source y x).half = .whole
  room : units * width < 0x8000
  light : ∀ y < height, ∀ x, weight (target y x) ≤ units
  source_light : ∀ y < sourceHeight, ∀ x, weight (source y x) ≤ units

/-- The cell of a step, as it is read. -/
structure Read (B : Block) (source : ℕ → ℕ → GlyphCell) (sourceAttrs : ℕ → ℕ → Option α) (k : ℕ)
    (view : OutputCellView α) : Prop where
  cell : (⟨view.chars, view.dbcsAttr.half⟩ : GlyphCell) =
    source (B.t + B.number k / B.columns) (B.l + B.number k % B.columns)
  chars : view.chars ≠ []
  attr : some view.textAttr = sourceAttrs (B.t + B.number k / B.columns) (B.l + B.number k % B.columns)
  stored : view.textAttrBehavior = .stored
  position : view.position = 0

/-- The place of one step changes, the others do not. -/
lemma after_succ {β : Type} (source target : ℕ → ℕ → β) (hk : k < B.size) :
    B.after source target (k + 1) = Function.update (B.after source target k) (B.top + B.number k / B.columns)
      (Function.update (B.after source target k (B.top + B.number k / B.columns)) (B.left + B.number k % B.columns)
        (source (B.t + B.number k / B.columns) (B.l + B.number k % B.columns))) := by
  funext y x
  unfold after
  by_cases hplace : x = B.left + B.number k % B.columns ∧ y = B.top + B.number k / B.columns
  · rw [if_pos ((written_succ hk).mpr (.inr hplace)), hplace.1, hplace.2, Function.update_self, Function.update_self,
      Nat.add_sub_cancel_left, Nat.add_sub_cancel_left]
  · have hiff : B.Written (k + 1) x y ↔ B.Written k x y := (written_succ hk).trans (or_iff_left hplace)
    simp only [hiff]
    rcases eq_or_ne y (B.top + B.number k / B.columns) with rfl | hne
    · rw [Function.update_self, Function.update_of_ne (fun h => hplace ⟨h, rfl⟩)]
    · rw [Function.update_of_ne hne]

lemma after_zero {β : Type} (source target : ℕ → ℕ → β) : B.after source target 0 = target := by
  funext y x
  exact if_neg not_written_zero

lemma after_of_not_written {β : Type} {source target : ℕ → ℕ → β} {x y : ℕ} (h : ¬B.Written k x y) :
    B.after source target k y x = target y x := if_neg h

section Fitting

variable {units sourceHeight : ℕ} (F : B.Fits units width height sourceHeight source target)
include F

lemma Fits.after_whole {y : ℕ} (hy : y < height) (x : ℕ) : (B.after source target k y x).half = .whole := by
  unfold after
  split
  · next hwritten =>
    have hin := hwritten.1
    have := F.source_bottom
    exact F.source_whole _ (by omega) _
  · exact F.whole y hy x

lemma Fits.after_light {y : ℕ} (hy : y < height) :
    ∑ x ∈ Finset.range width, weight (B.after source target k y x) < 0x8000 := by
  have hcell : ∀ x ∈ Finset.range width, weight (B.after source target k y x) ≤ units := by
    intro x _
    unfold after
    split
    · next hwritten =>
      have hin := hwritten.1
      have := F.source_bottom
      exact F.source_light _ (by omega) _
    · exact F.light y hy x
  have hsum := Finset.sum_le_sum hcell
  rw [Finset.sum_const_nat (fun _ _ => rfl), Finset.card_range, Nat.mul_comm] at hsum
  exact hsum.trans_lt F.room

/-- **One cell is written.** -/
theorem Fits.write [DecidableEq α] {original b : TextBuffer α}
    (hb : B.Holds width height source target sourceAttrs attrs original k b)
    (hk : k < B.size) {view : OutputCellView α} (hview : B.Read source sourceAttrs k view) :
    ∃ b', b.writeLine [view] ⟨(B.left + B.number k % B.columns : ℕ), (B.top + B.number k / B.columns : ℕ)⟩ none none =
        .ok b' ∧ B.Holds width height source target sourceAttrs attrs original (k + 1) b' := by
  have hmod := @column_lt B (B.number k)
  have hdiv := line_lt hk
  have hright := F.right
  have hbottom := F.bottom
  have hx : B.left + B.number k % B.columns < width := (Nat.add_lt_add_left hmod _).trans_le hright
  have hy : B.top + B.number k / B.columns < height := (Nat.add_lt_add_left hdiv _).trans_le hbottom
  have hy' : B.t + B.number k / B.columns < sourceHeight := (Nat.add_lt_add_left hdiv _).trans_le F.source_bottom
  have hpaint : paint [space] width (B.after source target k (B.top + B.number k / B.columns))
      (B.left + B.number k % B.columns) (source (B.t + B.number k / B.columns) (B.l + B.number k % B.columns)) =
        B.after source target (k + 1) (B.top + B.number k / B.columns) := by
    rw [paint_whole (F.after_whole hy) (F.source_whole _ hy' _), after_succ source target hk, Function.update_self]
  obtain ⟨b', hok, hdisplays⟩ := hb.displays.writeLine hx hy F.width_lt hview.cell
    (by rw [← hview.cell]; exact hview.chars) hview.position hview.stored (by rw [hpaint]; exact F.after_light hy)
  rw [hpaint, hview.attr] at hdisplays
  have hsame := TextBuffer.writeLine_lineRendition hok
  refine ⟨b', hok, ?_, ?_, fun y hy => ?_⟩
  · rw [hsame.same, hb.same]
  · have hcells : Function.update (B.after source target k) (B.top + B.number k / B.columns)
        (B.after source target (k + 1) (B.top + B.number k / B.columns)) = B.after source target (k + 1) := by
      rw [after_succ source target hk, Function.update_self]
    rw [hcells, ← after_succ sourceAttrs attrs hk] at hdisplays
    exact hdisplays
  · rw [hsame.lineRendition y (hb.displays.height_eq.symm ▸ hy)]
    exact hb.single y hy

end Fitting

end Block

/-! ### The loop -/

namespace Block

variable {B : Block} {units width height sourceHeight k m : ℕ} {cells target : ℕ → ℕ → GlyphCell}
  {sourceAttrs attrs : ℕ → ℕ → Option α} {source : Option (TextBuffer α)} {original b : TextBuffer α}

/-- The position of a step in a place. -/
lemma position_place (l t k : ℕ) : position l t B.columns (B.number k) =
    ⟨(l + B.number k % B.columns : ℕ), (t + B.number k / B.columns : ℕ)⟩ := position_natCast _ _ _ _

/-- What can be read, as long as the steps before `k` have been done. -/
structure Source (B : Block) (width height : ℕ) (cells target : ℕ → ℕ → GlyphCell)
    (sourceAttrs attrs : ℕ → ℕ → Option α) (original : TextBuffer α) (source : Option (TextBuffer α)) : Prop where
  read : ∀ k b, B.Holds width height cells target sourceAttrs attrs original k b → ∀ j, k ≤ j → j < B.size →
    ∃ view, (source.getD b).getCellDataAt (position B.l B.t B.columns (B.number j)) = .ok view ∧
      B.Read cells sourceAttrs j view
  onscreen : ∀ k b, B.Holds width height cells target sourceAttrs attrs original k b → ∀ j < B.size,
    (position B.l B.t B.columns (B.number j)).x <
      (source.getD b).getLineWidth (position B.l B.t B.columns (B.number j)).y

lemma getLineWidth_single {b : TextBuffer α} {y : ℕ} (hy : y < b.height)
    (hsingle : (b.getRow y).lineRendition = .singleWidth) : b.getLineWidth y = b.width := by
  have hrow : b.isDoubleWidthLine y = false := by
    unfold TextBuffer.isDoubleWidthLine TextBuffer.getRowByOffset
    rw [Int.emod_eq_of_lt (by omega) (by omega), Int.toNat_natCast, hsingle]
    rfl
  unfold TextBuffer.getLineWidth
  rw [hrow]
  rfl

lemma read_of_displays {j W H : ℕ} {c : ℕ → ℕ → GlyphCell} {a : ℕ → ℕ → Option α} (hb : b.Displays W H c a)
    (hx : B.l + B.number j % B.columns < W) (hy : B.t + B.number j / B.columns < H)
    (hcell : c (B.t + B.number j / B.columns) (B.l + B.number j % B.columns) =
      cells (B.t + B.number j / B.columns) (B.l + B.number j % B.columns))
    (hattr : a (B.t + B.number j / B.columns) (B.l + B.number j % B.columns) =
      sourceAttrs (B.t + B.number j / B.columns) (B.l + B.number j % B.columns)) :
    ∃ view, b.getCellDataAt (position B.l B.t B.columns (B.number j)) = .ok view ∧ B.Read cells sourceAttrs j view := by
  obtain ⟨view, hok, hview, htext, hstored, hposition⟩ := hb.getCellDataAt hx hy
  have hchars := (hb.rows _ hy).text_ne_nil (B.l + B.number j % B.columns)
  rw [position_place]
  rw [← hview] at hchars
  exact ⟨view, hok, ⟨hview.trans hcell, hchars, htext.trans hattr, hstored, hposition⟩⟩

lemma source_lt (F : B.Fits units width height sourceHeight cells target) {j : ℕ} (hj : j < B.size) :
    B.l + B.number j % B.columns < width ∧ B.t + B.number j / B.columns < sourceHeight :=
  ⟨(Nat.add_lt_add_left (column_lt _) _).trans_le F.source_right,
    (Nat.add_lt_add_left (line_lt hj) _).trans_le F.source_bottom⟩

/-- The cells of another buffer stay as they are. -/
theorem source_other (F : B.Fits units width height sourceHeight cells target) {s : TextBuffer α}
    (hs : s.Displays width sourceHeight cells sourceAttrs)
    (hsingle : ∀ y < sourceHeight, (s.getRow y).lineRendition = .singleWidth) :
    B.Source width height cells target sourceAttrs attrs original (some s) := by
  constructor
  · intro k b _ j _ hj
    have hlt := source_lt F hj
    exact read_of_displays hs hlt.1 hlt.2 rfl rfl
  · intro k b _ j hj
    have hlt := source_lt F hj
    rw [position_place, Option.getD_some, getLineWidth_single (hs.height_eq ▸ hlt.2) (hsingle _ hlt.2), hs.width_eq]
    exact Int.ofNat_lt.mpr hlt.1

/-- In the same buffer, the order of the walk keeps what is still to be read. -/
theorem source_same (F : B.Fits units width height height target target)
    (hforward : B.forward = true ↔ B.top < B.t ∨ B.top = B.t ∧ B.left < B.l) :
    B.Source width height target target attrs attrs original (none : Option (TextBuffer α)) := by
  constructor
  · intro k b hb j hkj hj
    have hlt := source_lt F hj
    have hunwritten : ¬B.Written k (B.l + B.number j % B.columns) (B.t + B.number j / B.columns) :=
      fun h => not_written_source hforward hj (h.mono hkj)
    exact read_of_displays hb.displays hlt.1 hlt.2 (after_of_not_written hunwritten)
      (after_of_not_written hunwritten)
  · intro k b hb j hj
    have hlt := source_lt F hj
    rw [position_place, Option.getD_none, getLineWidth_single (hb.displays.height_eq ▸ hlt.2) (hb.single _ hlt.2),
      hb.displays.width_eq]
    exact Int.ofNat_lt.mpr hlt.1

variable [DecidableEq α]

/-- One turn of the loop. -/
lemma copyArea_succ {b' : TextBuffer α} {srcView dstView : Types.Viewport} {walkDirection : ℤ}
    {srcPos dstPos : Types.Point} {next view : OutputCellView α} {reads : List Types.Point} {p q : Types.Point × Bool}
    (n : ℕ) (hsrc : srcView.walkInBounds srcPos walkDirection = p)
    (hread : (source.getD b).getCellDataAt p.1 = .ok view) (honscreen : srcPos.x < (source.getD b).getLineWidth srcPos.y)
    (hwrite : b.writeLine [next] dstPos none none = .ok b') (hdst : dstView.walkInBounds dstPos walkDirection = q) :
    copyArea source srcView dstView walkDirection (n + 1) srcPos dstPos next reads b =
      if q.2 then copyArea source srcView dstView walkDirection n p.1 q.1 view (p.1 :: reads) b'
      else .ok (b', p.1 :: reads) := by
  subst hsrc hdst
  rw [copyArea]
  show ((source.getD b).getCellDataAt (srcView.walkInBounds srcPos walkDirection).1 >>= _) = _
  rw [hread]
  show ((if srcPos.x < (source.getD b).getLineWidth srcPos.y then b.writeLine [next] dstPos none none
    else .ok b) >>= _) = _
  rw [if_pos honscreen, hwrite]
  rfl

/-- The positions of the place that is read. -/
def ReadsInside (B : Block) (reads : List Types.Point) : Prop :=
  ∀ p ∈ reads, ∃ j < B.size, p = position B.l B.t B.columns (B.number j)

/-- **The loop**, from the step `k` on. -/
theorem copyArea_run (F : B.Fits units width height sourceHeight cells target)
    (hsource : B.Source width height cells target sourceAttrs attrs original source) (hm : 0 < m) (hk : k + m = B.size)
    (hb : B.Holds width height cells target sourceAttrs attrs original k b) {next : OutputCellView α}
    (hnext : B.Read cells sourceAttrs k next) {reads : List Types.Point} (hreads : B.ReadsInside reads) :
    ∃ b' reads', copyArea source (fromDimensions ⟨B.l, B.t⟩ B.columns B.lines)
        (fromDimensions ⟨B.left, B.top⟩ B.columns B.lines) (direction B.forward) m
        (position B.l B.t B.columns (B.number k)) (position B.left B.top B.columns (B.number k)) next reads b =
          .ok (b', reads') ∧
      B.Holds width height cells target sourceAttrs attrs original B.size b' ∧ B.ReadsInside reads' := by
  have hsize : B.size = B.columns * B.lines := rfl
  induction m generalizing k b next reads with
  | zero => omega
  | succ m ih =>
    have hlt : k < B.size := by omega
    obtain ⟨b', hwrite, hb'⟩ := F.write hb hlt hnext
    rw [← position_place] at hwrite
    obtain ⟨view, hread, hview⟩ := hsource.read k b hb (min (k + 1) (B.size - 1)) (by omega) (by omega)
    have hstep := fun reads => @copyArea_succ _ source b _ b' _ _ _ _ _ next _ reads _ _ m
      (walkInBounds_visited hlt B.forward) hread (hsource.onscreen k b hb k hlt) hwrite
      (walkInBounds_visited hlt B.forward)
    have hreads' : B.ReadsInside (position B.l B.t B.columns (B.number (min (k + 1) (B.size - 1))) :: reads) := by
      intro p hp
      rcases List.mem_cons.mp hp with rfl | hp
      · exact ⟨_, by omega, rfl⟩
      · exact hreads p hp
    rcases Nat.eq_zero_or_pos m with rfl | hpos
    · refine ⟨b', _, (hstep reads).trans (if_neg ?_), (show B.size = k + 1 by omega) ▸ hb', hreads'⟩
      rw [decide_eq_true_eq]
      omega
    · have hnext' : min (k + 1) (B.size - 1) = k + 1 := by omega
      rw [hnext'] at hview hreads'
      obtain ⟨b'', reads'', hrest, hb'', hreads''⟩ := ih hpos (by omega) hb' hview hreads'
      refine ⟨b'', reads'', ((hstep reads).trans (if_pos (decide_eq_true (by omega)))).trans ?_, hb'', hreads''⟩
      rw [← hsize, hnext']
      exact hrest

omit [DecidableEq α] in
lemma determineWalkDirection_block (hforward : B.forward = true ↔ B.top < B.t ∨ B.top = B.t ∧ B.left < B.l) :
    determineWalkDirection (fromDimensions ⟨B.l, B.t⟩ B.columns B.lines)
      (fromDimensions ⟨B.left, B.top⟩ B.columns B.lines) = direction B.forward := by
  unfold determineWalkDirection direction
  refine if_congr ?_ rfl rfl
  rw [hforward]
  unfold Types.Point.before fromDimensions Types.Viewport.origin
  simp only [Bool.or_eq_true, Bool.and_eq_true, decide_eq_true_eq]
  omega

/-- **The copy as a whole**. -/
theorem copyRect_run (F : B.Fits units width height sourceHeight cells target)
    (hsource : B.Source width height cells target sourceAttrs attrs b source)
    (hforward : B.forward = true ↔ B.top < B.t ∨ B.top = B.t ∧ B.left < B.l)
    (hb : b.Displays width height target attrs) (hsingle : ∀ y < height, (b.getRow y).lineRendition = .singleWidth)
    {srcRect dstRect : Rect} (hsrc : srcRect.origin = ⟨B.l, B.t⟩) (hdst : dstRect.origin = ⟨B.left, B.top⟩)
    (hcolumns : dstRect.width = B.columns) (hlines : dstRect.height = B.lines) :
    ∃ b' reads, copyRect source srcRect dstRect b = .ok (b', reads) ∧
      B.Holds width height cells target sourceAttrs attrs b B.size b' ∧ B.ReadsInside reads := by
  have hb₀ : B.Holds width height cells target sourceAttrs attrs b 0 b := by
    refine ⟨rfl, ?_, hsingle⟩
    rw [after_zero, after_zero]
    exact hb
  have hfirst : B.ReadsInside [position B.l B.t B.columns (B.number 0)] := by
    intro p hp
    rw [List.mem_singleton.mp hp]
    exact ⟨0, size_pos, rfl⟩
  obtain ⟨next, hread, hnext⟩ := hsource.read 0 b hb₀ 0 le_rfl size_pos
  obtain ⟨b', reads, hrun, hb', hreads⟩ := copyArea_run F hsource size_pos (Nat.zero_add _) hb₀ hnext hfirst
  refine ⟨b', reads, ?_, hb', hreads⟩
  unfold copyRect
  dsimp only
  have hsize : (dstRect.width * dstRect.height).toNat = B.size := by
    rw [hcolumns, hlines]
    rfl
  rw [hsize, hsrc, hdst, hcolumns, hlines, determineWalkDirection_block hforward,
    getWalkOrigin_visited B.columns_pos B.lines_pos, getWalkOrigin_visited B.columns_pos B.lines_pos]
  show ((source.getD b).getCellDataAt (position B.l B.t B.columns (B.number 0)) >>= _) = _
  rw [hread]
  exact hrun

end Block

end VT7.Adapter
