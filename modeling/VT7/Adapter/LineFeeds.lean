import VT7.Adapter.RectAreas
import VT7.Adapter.WholeRows

/-!
# Line feeds

`_DoLineFeed` moves the cursor down.  On the last row of the margins it scrolls instead, in one of five ways: a
rectangle of the page is scrolled, the viewport is panned, or the rows of the buffer are rotated; a lower part of the
page that is not inside the margins is copied back after a pan or a rotation.

The attributes for erased cells are a parameter (`_GetEraseAttributes`).
-/

namespace VT7.Adapter

open VT7.Buffer
open VT7.Lib.Cells
open VT7.Types (Rect)

variable {α : Type} {size : PageSize}

/-- What printing reads and writes. -/
structure PrintDispatch (α : Type) (size : PageSize) where
  /-- The buffer of the page, and the position of its cursor. -/
  text : TextBuffer α
  /-- The first row of the page, which is the one of the viewport. -/
  top : ℕ
  scrollMargins : ScrollMargins
  /-- `_coordDelayedAt` of the cursor. -/
  delayedAt : Option Types.Point

namespace PrintDispatch

variable (d : PrintDispatch α size)

def frame : PageFrame := ⟨d.top, d.top + size.height, d.text.width⟩

def position : Types.Point := ⟨d.text.cursorX, d.text.cursorY⟩

/-- The cursor is moved, in the buffer as it has become. -/
def withCursor (text : TextBuffer α) (position : Types.Point) : PrintDispatch α size :=
  { d with text := text.setPosition position, delayedAt := none }

variable [DecidableEq α] (cwd : Clustering) (eraseAttributes : α)

/-- `_DoLineFeed`, and whether the viewport has moved. -/
def doLineFeed (withReturn wrapForced : Bool) : Except WriteCellsError (PrintDispatch α size × Bool) :=
  let page := d.frame
  let pageWidth := page.width
  let bufferHeight := d.text.height
  let (scrollMargins, topMargin, bottomMargin) := d.scrollMargins.getVerticalMargins page true
  let (scrollMargins, leftMargin, rightMargin) := scrollMargins.getHorizontalMargins pageWidth
  let d := { d with scrollMargins }
  let currentPosition := d.position
  let textBuffer := d.text.setWrapForced currentPosition.y wrapForced
  let clampToMargin := (topMargin : ℤ) ≤ currentPosition.y ∧ currentPosition.y ≤ bottomMargin ∧
    (leftMargin : ℤ) ≤ currentPosition.x
  let newX : ℤ := if withReturn then if clampToMargin then leftMargin else 0 else currentPosition.x
  if currentPosition.y ≠ bottomMargin ∨ newX < leftMargin ∨ rightMargin < newX then
    let newPosition : Types.Point := ⟨newX, min (currentPosition.y + 1) (page.bottom - 1)⟩
    .ok (d.withCursor textBuffer (textBuffer.clampPositionWithinLine newPosition), false)
  else if page.top < topMargin ∨ 0 < leftMargin ∨ rightMargin < (pageWidth : ℤ) - 1 then do
    let textBuffer ← scrollRectVertically cwd eraseAttributes textBuffer
      ⟨leftMargin, topMargin, rightMargin + 1, bottomMargin + 1⟩ (-1)
    .ok (d.withCursor textBuffer ⟨newX, currentPosition.y⟩, false)
  else if page.bottom < bufferHeight then do
    let newY := currentPosition.y + 1
    let textBuffer ← (if bottomMargin < page.bottom - 1 then
        scrollRectVertically cwd eraseAttributes textBuffer ⟨0, bottomMargin + 1, pageWidth, page.bottom + 1⟩ 1
      else .ok (textBuffer.setRowByOffset newY ((textBuffer.getRowByOffset newY).reset eraseAttributes)) :
        Except WriteCellsError (TextBuffer α))
    .ok ({ d with top := page.top + 1 }.withCursor textBuffer ⟨newX, newY⟩, true)
  else do
    let textBuffer := textBuffer.incrementCircularBuffer eraseAttributes
    let textBuffer ← (if bottomMargin < page.bottom - 1 then
        scrollRectVertically cwd eraseAttributes textBuffer ⟨0, bottomMargin, pageWidth, bufferHeight⟩ 1
      else .ok textBuffer : Except WriteCellsError (TextBuffer α))
    .ok (d.withCursor textBuffer ⟨newX, currentPosition.y⟩, false)

/-! ### Margins -/

section Margins

variable {d}

omit [DecidableEq α] in
lemma frame_height : d.frame.height = (⟨0, size.height, size.width⟩ : PageFrame).height := by
  unfold frame PageFrame.height
  push_cast
  omega

omit [DecidableEq α] in
lemma resetVertical_frame :
    d.scrollMargins.resetVertical d.frame = d.scrollMargins.resetVertical ⟨0, size.height, size.width⟩ := by
  unfold ScrollMargins.resetVertical
  rw [frame_height]

omit [DecidableEq α] in
lemma getVerticalMargins_frame :
    ((d.scrollMargins.getVerticalMargins d.frame true).2.1 : ℤ) = (d.scrollMargins.box size).top + d.top ∧
      (d.scrollMargins.getVerticalMargins d.frame true).2.2 = (d.scrollMargins.box size).bottom + d.top := by
  unfold ScrollMargins.getVerticalMargins ScrollMargins.box ScrollMargins.verticalMargins
  rw [resetVertical_frame, frame_height]
  exact ⟨Nat.cast_add _ _, rfl⟩

omit [DecidableEq α] in
lemma getHorizontalMargins_frame (hwidth : d.text.width = size.width) :
    ((((d.scrollMargins.getVerticalMargins d.frame true).1.getHorizontalMargins d.text.width).2.1 : ℤ) =
        (d.scrollMargins.box size).left) ∧
      ((d.scrollMargins.getVerticalMargins d.frame true).1.getHorizontalMargins d.text.width).2.2 =
        (d.scrollMargins.box size).right := by
  have hmargins : ((d.scrollMargins.getVerticalMargins d.frame true).1.getHorizontalMargins d.text.width).2 =
      (d.scrollMargins.resetHorizontal size.width).horizontalMargins size.width := by
    rw [hwidth]
    exact ScrollMargins.getHorizontalMargins_resetVertical _ _
  rw [hmargins]
  exact ⟨rfl, rfl⟩

end Margins

end PrintDispatch

/-! ### What a page shows -/

/-- The cells, the attributes and the line renditions of a page. -/
structure PageView (α : Type) where
  cell : ℕ → ℕ → GlyphCell
  attributes : ℕ → ℕ → Option α
  lineRendition : ℕ → LineRendition

/-- The page that begins in a row of the buffer. -/
def pageView (b : TextBuffer α) (top : ℕ) : PageView α where
  cell x y := b.cell x (top + y)
  attributes x y := b.attributes x (top + y)
  lineRendition y := (b.getRow (top + y)).lineRendition

def PrintDispatch.view (d : PrintDispatch α size) : PageView α := pageView d.text d.top

namespace MarginBox

variable (box : MarginBox size)

/-- The cell is inside the margins. -/
def Inside (x y : ℕ) : Prop := (box.left ≤ x ∧ x ≤ box.right) ∧ box.top ≤ y ∧ y ≤ box.bottom

instance (x y : ℕ) : Decidable (box.Inside x y) := inferInstanceAs (Decidable (_ ∧ _))

/-- The margins leave out no columns. -/
def FullWidth : Prop := box.left = 0 ∧ box.right = size.width - 1

instance : Decidable box.FullWidth := inferInstanceAs (Decidable (_ ∧ _))

end MarginBox

/-- **The region inside the margins has been scrolled up by one row.**  A wide character that a border of the region
cuts may leave a blank.  Without left and right margins the line renditions are scrolled too. -/
structure ScrolledUp (box : MarginBox size) (eraseAttributes : α) (v v' : PageView α) : Prop where
  outside : ∀ x < size.width, ∀ y < size.height, ¬box.Inside x y → v'.attributes x y = v.attributes x y ∧
    (v'.cell x y = v.cell x y ∨ v'.cell x y = .blank [space] ∧
      ∃ x' : ℕ, otherHalf (fun x => v.cell x y) x = some x' ∧ box.Inside x' y)
  moved : ∀ x y : ℕ, box.Inside x y → y < box.bottom → v'.attributes x y = v.attributes x (y + 1) ∧
    (v'.cell x y = v.cell x (y + 1) ∨ v'.cell x y = .blank [space] ∧
      ∃ x' : ℕ, otherHalf (fun x => v.cell x (y + 1)) x = some x' ∧ ¬box.Inside x' (y + 1))
  revealed : ∀ x y : ℕ, box.Inside x y → y = box.bottom →
    v'.attributes x y = some eraseAttributes ∧ v'.cell x y = .blank [space]
  lineRendition : ∀ y < size.height, v'.lineRendition y =
    if y = box.bottom then .singleWidth
    else if box.FullWidth ∧ box.top ≤ y ∧ y < box.bottom then v.lineRendition (y + 1)
    else v.lineRendition y

section Views

variable {b b' : TextBuffer α} {top top' : ℕ} {box : MarginBox size} {eraseAttributes : α}

lemma SameUpToWrap.pageView (h : SameUpToWrap b b') : pageView b' top = pageView b top := by
  unfold VT7.Adapter.pageView
  rw [PageView.mk.injEq]
  refine ⟨?_, ?_, ?_⟩
  · funext x y
    exact h.cell x _
  · funext x y
    exact h.attributes x _
  · funext y
    exact (h.shows _).lineRendition

/-- **Rows that go up.** -/
lemma ScrolledUp.of_rows (hfull : box.FullWidth) (htop : box.top = 0) (hwidth : b.width = size.width)
    (hwidth' : b'.width = size.width) (hup : ∀ y : ℕ, y < box.bottom → Shows b (top + y + 1) b' (top' + y))
    (hbelow : ∀ y : ℕ, box.bottom < y → y < size.height → Shows b (top + y) b' (top' + y))
    (hblank : ∀ y : ℕ, y = box.bottom → Blank b' eraseAttributes (top' + y)) :
    ScrolledUp box eraseAttributes (pageView b top) (pageView b' top') := by
  obtain ⟨hleft, hright⟩ := hfull
  have hinside : ∀ {x y : ℕ}, x < size.width → (box.Inside x y ↔ (y : ℤ) ≤ box.bottom) := fun {x y} hx => by
    unfold MarginBox.Inside
    omega
  have hcolumn : ∀ {x y : ℕ}, box.Inside x y → x < size.width := fun {x y} h => by
    have hlt := box.right_lt
    have hle := h.1.2
    omega
  refine ⟨fun x hx y hy hout => ?_, fun x y hin hy => ?_, fun x y hin hy => ?_, fun y hy => ?_⟩
  · rw [hinside hx] at hout
    have hrow := hbelow y (by omega) hy
    exact ⟨hrow.attributes x (hwidth ▸ hx), .inl (hrow.cells x (hwidth ▸ hx))⟩
  · have hrow := hup y hy
    exact ⟨hrow.attributes x (hwidth ▸ hcolumn hin), .inl (hrow.cells x (hwidth ▸ hcolumn hin))⟩
  · have hrow := hblank y hy
    exact ⟨hrow.attributes x (hwidth' ▸ hcolumn hin), hrow.cells x (hwidth' ▸ hcolumn hin)⟩
  · rcases lt_trichotomy (y : ℤ) box.bottom with hlt | heq | hgt
    · rw [if_neg hlt.ne, if_pos ⟨⟨hleft, hright⟩, by omega, hlt⟩]
      exact (hup y hlt).lineRendition
    · rw [if_pos heq]
      exact (hblank y heq).lineRendition
    · rw [if_neg hgt.ne', if_neg (by omega)]
      exact (hbelow y hgt hy).lineRendition

end Views

namespace PrintDispatch

/-- The page lies in its buffer, whose rows are in order. -/
structure Sound (d : PrintDispatch α size) : Prop where
  width : d.text.width = size.width
  inside : d.top + size.height ≤ d.text.height
  firstRow : d.text.firstRow < d.text.height
  content : Content d.text
  short : Short d.text

/-- The margins of the page. -/
def box (d : PrintDispatch α size) : MarginBox size := d.scrollMargins.box size

/-- The cursor is on the last row inside the margins. -/
structure OnBottom (d : PrintDispatch α size) : Prop where
  row : d.position.y = d.box.bottom + d.top
  left : d.box.left ≤ d.position.x
  right : d.position.x ≤ d.box.right

/-- The region inside the margins, in the buffer. -/
def region (d : PrintDispatch α size) : Rect :=
  ⟨d.box.left, d.box.top + d.top, d.box.right + 1, d.box.bottom + d.top + 1⟩

lemma Sound.region {d : PrintDispatch α size} (hs : d.Sound) : d.region.isValid = true ∧ d.region.right ≤ d.text.width ∧
    d.region.bottom ≤ d.text.height := by
  have hwidth := hs.width
  have hin := hs.inside
  have hleft := d.box.left_nonneg
  have hle := d.box.left_le
  have hright := d.box.right_lt
  have htop := d.box.top_nonneg
  have hle' := d.box.top_le
  have hbottom := d.box.bottom_lt
  unfold Rect.isValid PrintDispatch.region
  simp only [Bool.and_eq_true, decide_eq_true_eq]
  omega

/-- The region is all of the page from its top on, as wide as the page. -/
def FromTop (d : PrintDispatch α size) : Prop := d.box.FullWidth ∧ d.box.top = 0

instance (d : PrintDispatch α size) : Decidable d.FromTop := inferInstanceAs (Decidable (_ ∧ _))

/-- The copies that a line feed makes are complete, and they stay inside the region. -/
def CopiesClean (d : PrintDispatch α size) (eraseAttributes : α) : Prop :=
  if ¬d.FromTop then BordersClear d.text d.region ⟨0, -1⟩ ∧ RowsComplete d.text d.region (-1)
  else if d.top + size.height < d.text.height then
    RowsComplete d.text ⟨0, d.box.bottom + d.top + 1, size.width, d.top + size.height + 1⟩ 1
  else RowsComplete (d.text.incrementCircularBuffer eraseAttributes)
    ⟨0, d.box.bottom + d.top, size.width, d.text.height⟩ 1

section Feeding

variable {d : PrintDispatch α size} {eraseAttributes : α} {cwd : Clustering} {withReturn wrapForced : Bool}

/-- Where the cursor goes on a line feed on the last row. -/
def returned (d : PrintDispatch α size) (withReturn : Bool) : ℤ := if withReturn then d.box.left else d.position.x

/-- The column that a line feed goes to. -/
def feedColumn (d : PrintDispatch α size) (withReturn : Bool) : ℤ :=
  if withReturn then
    if d.box.top + d.top ≤ d.position.y ∧ d.position.y ≤ d.box.bottom + d.top ∧ d.box.left ≤ d.position.x then
      d.box.left
    else 0
  else d.position.x

/-- What scrolls for a line feed that goes to the column `newX`. -/
def scrollForFeed [DecidableEq α] (d : PrintDispatch α size) (cwd : Clustering) (eraseAttributes : α)
    (textBuffer : TextBuffer α) (newX : ℤ) : Except WriteCellsError (PrintDispatch α size × Bool) :=
  let scrollMargins := d.scrollMargins.read size
  if ¬d.FromTop then do
    let textBuffer ← scrollRectVertically cwd eraseAttributes textBuffer d.region (-1)
    .ok ({ d with scrollMargins }.withCursor textBuffer ⟨newX, d.position.y⟩, false)
  else if d.top + size.height < d.text.height then do
    let textBuffer ← (if d.box.bottom + 1 < size.height then
        scrollRectVertically cwd eraseAttributes textBuffer
          ⟨0, d.box.bottom + d.top + 1, size.width, d.top + size.height + 1⟩ 1
      else .ok (textBuffer.setRowByOffset (d.position.y + 1)
        ((textBuffer.getRowByOffset (d.position.y + 1)).reset eraseAttributes)) :
        Except WriteCellsError (TextBuffer α))
    .ok ({ d with scrollMargins, top := d.top + 1 }.withCursor textBuffer ⟨newX, d.position.y + 1⟩, true)
  else (do
    let textBuffer ← (if d.box.bottom + 1 < size.height then
        scrollRectVertically cwd eraseAttributes (textBuffer.incrementCircularBuffer eraseAttributes)
          ⟨0, d.box.bottom + d.top, size.width, d.text.height⟩ 1
      else .ok (textBuffer.incrementCircularBuffer eraseAttributes) : Except WriteCellsError (TextBuffer α))
    .ok ({ d with scrollMargins }.withCursor textBuffer ⟨newX, d.position.y⟩, false))

/-- **A line feed** moves the cursor down, or it scrolls, on the last row inside the margins. -/
theorem doLineFeed_eq [DecidableEq α] (hwidth : d.text.width = size.width) :
    d.doLineFeed cwd eraseAttributes withReturn wrapForced =
      let textBuffer := d.text.setWrapForced d.position.y wrapForced
      let newX := d.feedColumn withReturn
      if d.position.y ≠ d.box.bottom + d.top ∨ newX < d.box.left ∨ d.box.right < newX then
        .ok ({ d with scrollMargins := d.scrollMargins.read size }.withCursor textBuffer
          (textBuffer.clampPositionWithinLine ⟨newX, min (d.position.y + 1) (d.top + size.height - 1)⟩), false)
      else d.scrollForFeed cwd eraseAttributes textBuffer newX := by
  have hvertical := @getVerticalMargins_frame _ _ d
  have hhorizontal := getHorizontalMargins_frame hwidth
  have hread : ((d.scrollMargins.getVerticalMargins d.frame true).1.getHorizontalMargins d.text.width).1 =
      d.scrollMargins.read size := by
    unfold ScrollMargins.getVerticalMargins ScrollMargins.getHorizontalMargins ScrollMargins.read
    rw [resetVertical_frame, hwidth]
  have hbounds := d.box.top_le
  have hbounds' := d.box.left_le
  unfold doLineFeed
  dsimp only
  have hframe : d.frame.width = d.text.width := rfl
  have hframe' : (d.frame.top : ℤ) = d.top := rfl
  have hframe'' : d.frame.bottom = d.top + size.height := rfl
  have hposition : ({ d with scrollMargins := d.scrollMargins.read size } : PrintDispatch α size).position =
      d.position := rfl
  rw [hframe]
  change _ = d.box.top + _ ∧ _ = d.box.bottom + _ at hvertical
  generalize d.scrollMargins.getVerticalMargins d.frame true = vertical at *
  obtain ⟨m₁, topMargin, bottomMargin⟩ := vertical
  dsimp only at *
  generalize m₁.getHorizontalMargins d.text.width = horizontal at *
  obtain ⟨m₂, leftMargin, rightMargin⟩ := horizontal
  dsimp only at *
  subst hread
  obtain ⟨htop, hbottom⟩ := hvertical
  obtain ⟨hleft, hright⟩ := hhorizontal
  change (leftMargin : ℤ) = d.box.left at hleft
  change rightMargin = d.box.right at hright
  have hcolumn : (if withReturn = true then
      if (topMargin : ℤ) ≤ d.position.y ∧ d.position.y ≤ bottomMargin ∧ (leftMargin : ℤ) ≤ d.position.x
      then (leftMargin : ℤ) else 0 else d.position.x) = d.feedColumn withReturn := by
    rw [htop, hbottom, hleft]
    rfl
  have hend : (d.frame.bottom : ℤ) = d.top + size.height := Nat.cast_add _ _
  rw [hposition, hcolumn, hend, hright, hleft, hbottom]
  by_cases hmoves : d.position.y ≠ d.box.bottom + d.top ∨ d.feedColumn withReturn < d.box.left ∨
      d.box.right < d.feedColumn withReturn
  · rw [if_pos hmoves, if_pos hmoves]
  rw [if_neg hmoves, if_neg hmoves]
  have hregion : (⟨d.box.left, topMargin, d.box.right + 1, d.box.bottom + d.top + 1⟩ : Rect) = d.region := by
    rw [htop]
    rfl
  have hbranch : (d.frame.top < topMargin ∨ 0 < leftMargin ∨ d.box.right < (d.text.width : ℤ) - 1) ↔ ¬d.FromTop := by
    have hroom := d.box.right_lt
    have hleft' := d.box.left_nonneg
    have htop' := d.box.top_nonneg
    unfold FromTop MarginBox.FullWidth
    omega
  have hlower : d.box.bottom + d.top < (d.top : ℤ) + size.height - 1 ↔ d.box.bottom + 1 < size.height := by
    omega
  unfold scrollForFeed
  by_cases hfrom : ¬d.FromTop
  · rw [if_pos (hbranch.mpr hfrom), if_pos hfrom, hregion]
  · rw [if_neg (mt hbranch.mp hfrom), if_neg hfrom]
    simp only [hlower]
    rw [hframe'', hwidth]
    rfl

/-- **A line feed on the last row scrolls**, in one of five ways. -/
theorem doLineFeed_bottom [DecidableEq α] (hs : d.Sound) (hb : d.OnBottom) :
    d.doLineFeed cwd eraseAttributes withReturn wrapForced =
      let scrollMargins := d.scrollMargins.read size
      let textBuffer := d.text.setWrapForced d.position.y wrapForced
      if ¬d.FromTop then do
        let textBuffer ← scrollRectVertically cwd eraseAttributes textBuffer d.region (-1)
        .ok ({ d with scrollMargins }.withCursor textBuffer ⟨d.returned withReturn, d.position.y⟩, false)
      else if d.top + size.height < d.text.height then do
        let textBuffer ← (if d.box.bottom + 1 < size.height then
            scrollRectVertically cwd eraseAttributes textBuffer
              ⟨0, d.box.bottom + d.top + 1, size.width, d.top + size.height + 1⟩ 1
          else .ok (textBuffer.setRowByOffset (d.position.y + 1)
            ((textBuffer.getRowByOffset (d.position.y + 1)).reset eraseAttributes)) :
            Except WriteCellsError (TextBuffer α))
        .ok ({ d with scrollMargins, top := d.top + 1 }.withCursor textBuffer
          ⟨d.returned withReturn, d.position.y + 1⟩, true)
      else (do
        let textBuffer ← (if d.box.bottom + 1 < size.height then
            scrollRectVertically cwd eraseAttributes (textBuffer.incrementCircularBuffer eraseAttributes)
              ⟨0, d.box.bottom + d.top, size.width, d.text.height⟩ 1
          else .ok (textBuffer.incrementCircularBuffer eraseAttributes) : Except WriteCellsError (TextBuffer α))
        .ok ({ d with scrollMargins }.withCursor textBuffer ⟨d.returned withReturn, d.position.y⟩, false)) := by
  have hrow := hb.row
  have hcolumns := hb.left
  have hcolumns' := hb.right
  have hbounds := d.box.top_le
  have hbounds' := d.box.left_le
  have hinside : d.box.top + d.top ≤ d.position.y ∧ d.position.y ≤ d.box.bottom + d.top ∧
      d.box.left ≤ d.position.x := by
    omega
  have hcolumn : d.feedColumn withReturn = d.returned withReturn := by
    cases withReturn with
    | false => rfl
    | true => exact if_pos hinside
  have hbetween : d.box.left ≤ d.returned withReturn ∧ d.returned withReturn ≤ d.box.right := by
    unfold returned
    split <;> omega
  rw [doLineFeed_eq hs.width]
  dsimp only
  rw [hcolumn, if_neg (by omega)]
  rfl

end Feeding

end PrintDispatch

end VT7.Adapter
