import VT7.Adapter.CopiedAreas

/-!
# Copied pages

What `CopyRectangularArea` has to do with the cells of the pages, and what it does: an area with cells is copied at once
(`copiesAtOnce_cells`).
-/

namespace VT7.Adapter

open VT7.Buffer
open VT7.Lib.Cells
open VT7.Types (Rect)

variable {α : Type}

/-! ### The dispatch function -/

namespace AreaDispatch

variable {size : PageSize} [DecidableEq α] (defaultAttributes : α) (d : AreaDispatch α size)

/-- `CopyRectangularArea`, and the positions it reads.  Pages with one number have one buffer. -/
def copyRectangularArea (top left bottom right page dstTop dstLeft dstPage : ℤ) :
    Except WriteCellsError (AreaDispatch α size × List Types.Point) :=
  let src := d.pages.get defaultAttributes page
  let dst := d.pages.get defaultAttributes dstPage
  let (scrollMargins, srcRect) :=
    calculateRectArea d.scrollMargins d.originMode (CursorDispatch.frame size src) top left bottom right
  let dstBottom := dstTop + srcRect.height - 1
  let dstRight := dstLeft + srcRect.width - 1
  let (scrollMargins, dstRect) :=
    calculateRectArea scrollMargins d.originMode (CursorDispatch.frame size dst) dstTop dstLeft dstBottom dstRight
  let d := { d with scrollMargins }
  if dstRect.isValid && (dstRect.origin ≠ srcRect.origin || src.number ≠ dst.number) then do
    let source := if src.number = dst.number then none else some src.buffer.text
    let (text, reads) ← copyRect source srcRect dstRect dst.buffer.text
    .ok ({ d with pages := d.pages.writeRows defaultAttributes dstPage text.rows }, reads)
  else .ok (d, [])

/-- DECCRA, as `ActionCsiDispatch` calls it. -/
def deccra (parameters : VTParameters) : Except WriteCellsError (AreaDispatch α size × List Types.Point) :=
  d.copyRectangularArea defaultAttributes (vtInt (parameters.at 0)) (vtInt (parameters.at 1))
    (valueOr (parameters.at 2) 0) (valueOr (parameters.at 3) 0) (vtInt (parameters.at 4)) (vtInt (parameters.at 5))
    (vtInt (parameters.at 6)) (vtInt (parameters.at 7))

end AreaDispatch

/-! ### What a copy has to do -/

namespace PageManager

variable {size : PageSize} (defaultAttributes : α) (m : PageManager α size)

/-- The two numbers stand for one page. -/
def samePage (p q : ℤ) : Bool := !m.isMainBuffer || clampPage p = clampPage q

/-- What is in a cell of the buffer of a page. -/
def content (p : ℤ) (x y : ℕ) : GlyphCell × Option α :=
  ((m.get defaultAttributes p).buffer.text.cell x y, (m.get defaultAttributes p).buffer.text.attributes x y)

/-- All pages hold narrow glyphs on single-width lines. -/
structure NarrowPages (units : ℕ) : Prop where
  room : units * size.width < 0x8000
  narrow : ∀ p, ∃ cells attrs, Narrow units (m.get defaultAttributes p).buffer.text size.width
    (m.get defaultAttributes p).buffer.text.height cells attrs

variable {defaultAttributes m} {p q : ℤ}

lemma get_eq_of_same (h : m.samePage p q = true) : m.get defaultAttributes p = m.get defaultAttributes q := by
  unfold samePage at h
  cases hmain : m.isMainBuffer with
  | false => rw [get_alternate hmain, get_alternate hmain]
  | true =>
    rw [hmain] at h
    have hpage : clampPage p = clampPage q := by simpa using h
    rw [← get_clampPage, ← get_clampPage m q, hpage]

lemma samePage_comm : m.samePage p q = m.samePage q p := by
  unfold samePage
  congr 1
  exact decide_eq_decide.mpr eq_comm

lemma number_eq_iff (h : m.Sound) :
    (m.get defaultAttributes p).number = (m.get defaultAttributes q).number ↔ m.samePage p q = true := by
  unfold samePage
  rcases h.get_cases defaultAttributes p with ⟨hmain, hp⟩ | ⟨hi, -, hp⟩ | ⟨hi, -, hp⟩ <;>
    rcases h.get_cases defaultAttributes q with ⟨hmain', hq⟩ | ⟨hi', -, hq⟩ | ⟨hi', -, hq⟩
  · simp [hp, hq, hmain]
  · exact absurd (hmain.symm.trans hi'.main) (by decide)
  · exact absurd (hmain.symm.trans hi'.main) (by decide)
  · exact absurd (hmain'.symm.trans hi.main) (by decide)
  · simp [hp, hq, hi.main]
  · simp [hp, hq, hi.main]
  · exact absurd (hmain'.symm.trans hi.main) (by decide)
  · simp [hp, hq, hi.main]
  · simp [hp, hq, hi.main]

end PageManager

namespace AreaDispatch

variable {size : PageSize} (d : AreaDispatch α size) (parameters : VTParameters)

def sourcePage : ℤ := vtInt (parameters.at 4)
def destinationPage : ℤ := vtInt (parameters.at 7)

/-- The area that is asked for. -/
def sourceArea : Rect :=
  (d.scrollMargins.box size).area d.originMode (vtInt (parameters.at 0)) (vtInt (parameters.at 1))
    (valueOr (parameters.at 2) 0) (valueOr (parameters.at 3) 0)

/-- Where it goes to, in the page. -/
def destination : Types.Point where
  x := min (vtInt (parameters.at 6) + (d.scrollMargins.box size).xOffset d.originMode)
    ((d.scrollMargins.box size).xMaximum d.originMode) - 1
  y := min (vtInt (parameters.at 5) + (d.scrollMargins.box size).yOffset d.originMode)
    ((d.scrollMargins.box size).yMaximum d.originMode) - 1

/-- The cell of the destination page corresponds to a cell of the area. -/
def Receives (x y : ℤ) : Prop :=
  ((d.destination parameters).x ≤ x ∧ x < (d.destination parameters).x + (d.sourceArea parameters).width ∧
      x < (d.scrollMargins.box size).xMaximum d.originMode) ∧
    (d.destination parameters).y ≤ y ∧ y < (d.destination parameters).y + (d.sourceArea parameters).height ∧
      y < (d.scrollMargins.box size).yMaximum d.originMode

instance (x y : ℤ) : Decidable (d.Receives parameters x y) := inferInstanceAs (Decidable (_ ∧ _))

/-- The column and the line of the buffer of the source page that correspond to a cell. -/
def originColumn (x : ℕ) : ℕ := (x - (d.destination parameters).x + (d.sourceArea parameters).left).toNat

def originLine (defaultAttributes : α) (y : ℕ) : ℕ :=
  (y - (d.pages.get defaultAttributes (destinationPage parameters)).top - (d.destination parameters).y +
    (d.sourceArea parameters).top + (d.pages.get defaultAttributes (sourcePage parameters)).top).toNat

/-- **What a copy has to do**: the cells that correspond to a cell of the area get what was there before the call, all
others stay, and nothing outside of the source page is read. -/
def CopiesAtOnce [DecidableEq α] (defaultAttributes : α) : Prop :=
  ∃ d' reads, d.deccra defaultAttributes parameters = .ok (d', reads) ∧
    (∀ p ∈ reads, (0 ≤ p.x ∧ p.x < size.width) ∧
      (d.pages.get defaultAttributes (sourcePage parameters)).top ≤ p.y ∧
      p.y < (d.pages.get defaultAttributes (sourcePage parameters)).top + size.height) ∧
    ∀ q, ∀ y < (d.pages.get defaultAttributes q).buffer.text.height, ∀ x < size.width,
      d'.pages.content defaultAttributes q x y =
        if d.pages.samePage q (destinationPage parameters) ∧
            d.Receives parameters x (y - (d.pages.get defaultAttributes q).top) then
          d.pages.content defaultAttributes (sourcePage parameters) (d.originColumn parameters x)
            (d.originLine parameters defaultAttributes y)
        else d.pages.content defaultAttributes q x y

end AreaDispatch

/-! ### The copy of an area -/

namespace AreaDispatch

variable {size : PageSize} {defaultAttributes : α} {d : AreaDispatch α size} {parameters : VTParameters}

/-- The rectangle that is written to, as `CopyRectangularArea` calculates it. -/
def destinationArea (d : AreaDispatch α size) (parameters : VTParameters) : Rect :=
  (d.scrollMargins.box size).area d.originMode (vtInt (parameters.at 5)) (vtInt (parameters.at 6))
    (vtInt (parameters.at 5) + (d.sourceArea parameters).height - 1)
    (vtInt (parameters.at 6) + (d.sourceArea parameters).width - 1)

theorem destinationArea_origin : (d.destinationArea parameters).origin = d.destination parameters := rfl

lemma below_width (r : Rect) (top : ℤ) : (r.below top).width = r.width := rfl

lemma below_height (r : Rect) (top : ℤ) : (r.below top).height = r.height := by
  unfold Rect.below Rect.height
  dsimp only
  omega

/-- The rectangle is not empty, and it is not where the cells come from. -/
def Executes (d : AreaDispatch α size) (parameters : VTParameters) : Prop :=
  ((d.destinationArea parameters).left < (d.destinationArea parameters).right ∧
      (d.destinationArea parameters).top < (d.destinationArea parameters).bottom) ∧
    ¬(d.pages.samePage (sourcePage parameters) (destinationPage parameters) = true ∧
      d.destination parameters = (d.sourceArea parameters).origin)

instance (d : AreaDispatch α size) (parameters : VTParameters) : Decidable (d.Executes parameters) :=
  inferInstanceAs (Decidable (_ ∧ _))

theorem destinationArea_inside (d : AreaDispatch α size) (parameters : VTParameters) :
    0 ≤ (d.destinationArea parameters).top ∧ 0 ≤ (d.destinationArea parameters).left ∧
      (d.destinationArea parameters).bottom ≤ size.height ∧ (d.destinationArea parameters).right ≤ size.width :=
  (d.scrollMargins.box size).area_inside d.originMode (vtInt_pos _) (vtInt_pos _) _ _

theorem sourceArea_inside (d : AreaDispatch α size) (parameters : VTParameters) :
    0 ≤ (d.sourceArea parameters).top ∧ 0 ≤ (d.sourceArea parameters).left ∧
      (d.sourceArea parameters).bottom ≤ size.height ∧ (d.sourceArea parameters).right ≤ size.width :=
  (d.scrollMargins.box size).area_inside d.originMode (vtInt_pos _) (vtInt_pos _) _ _

/-- The condition of `CopyRectangularArea`, on absolute coordinates. -/
theorem executes_iff (hs : d.pages.Sound) :
    (((d.destinationArea parameters).below
        (d.pages.get defaultAttributes (destinationPage parameters)).top).isValid &&
      (((d.destinationArea parameters).below (d.pages.get defaultAttributes (destinationPage parameters)).top).origin ≠
          ((d.sourceArea parameters).below (d.pages.get defaultAttributes (sourcePage parameters)).top).origin ||
        (d.pages.get defaultAttributes (sourcePage parameters)).number ≠
          (d.pages.get defaultAttributes (destinationPage parameters)).number)) = true ↔ d.Executes parameters := by
  obtain ⟨htop, hleft, -, -⟩ := destinationArea_inside d parameters
  have hnumber := @PageManager.number_eq_iff _ _ defaultAttributes _ (sourcePage parameters) (destinationPage parameters) hs
  have hvalid : ((d.destinationArea parameters).below
      (d.pages.get defaultAttributes (destinationPage parameters)).top).isValid = true ↔
        (d.destinationArea parameters).left < (d.destinationArea parameters).right ∧
          (d.destinationArea parameters).top < (d.destinationArea parameters).bottom := by
    unfold Rect.isValid Rect.below
    simp only [Bool.and_eq_true, decide_eq_true_eq]
    omega
  unfold Executes
  rw [Bool.and_eq_true, hvalid, Bool.or_eq_true, decide_eq_true_eq, decide_eq_true_eq]
  refine and_congr_right fun _ => ?_
  rw [Ne, Ne, hnumber]
  by_cases hsame : d.pages.samePage (sourcePage parameters) (destinationPage parameters) = true
  · have hget := @PageManager.get_eq_of_same _ _ defaultAttributes _ _ _ hsame
    have horigin : ((d.destinationArea parameters).below
          (d.pages.get defaultAttributes (destinationPage parameters)).top).origin =
        ((d.sourceArea parameters).below (d.pages.get defaultAttributes (destinationPage parameters)).top).origin ↔
          d.destination parameters = (d.sourceArea parameters).origin := by
      rw [← destinationArea_origin]
      unfold Rect.below Rect.origin
      simp
    rw [hget, horigin]
    simp [hsame]
  · simp [hsame]

/-- The dispatch function on the areas. -/
theorem deccra_eq [DecidableEq α] (hs : d.pages.Sound) : d.deccra defaultAttributes parameters =
    let src := d.pages.get defaultAttributes (sourcePage parameters)
    let dst := d.pages.get defaultAttributes (destinationPage parameters)
    let scrollMargins := (d.scrollMargins.read size).read size
    if d.Executes parameters then do
      let (text, reads) ← copyRect (if d.pages.samePage (sourcePage parameters) (destinationPage parameters) then none
          else some src.buffer.text) ((d.sourceArea parameters).below src.top)
        ((d.destinationArea parameters).below dst.top) dst.buffer.text
      .ok ({ d with
        pages := d.pages.writeRows defaultAttributes (destinationPage parameters) text.rows
        scrollMargins }, reads)
    else .ok ({ d with scrollMargins }, []) := by
  have hsrc := calculateRectArea_eq d.scrollMargins d.originMode (d.pages.get defaultAttributes (sourcePage parameters))
    (hs.get_width defaultAttributes _) (vtInt (parameters.at 0)) (vtInt (parameters.at 1)) (valueOr (parameters.at 2) 0)
    (valueOr (parameters.at 3) 0)
  have hdst := calculateRectArea_eq (d.scrollMargins.read size) d.originMode
    (d.pages.get defaultAttributes (destinationPage parameters)) (hs.get_width defaultAttributes _)
    (vtInt (parameters.at 5)) (vtInt (parameters.at 6))
    (vtInt (parameters.at 5) + (d.sourceArea parameters).height - 1)
    (vtInt (parameters.at 6) + (d.sourceArea parameters).width - 1)
  have hheight := below_height (d.sourceArea parameters) (d.pages.get defaultAttributes (sourcePage parameters)).top
  have hwidth := below_width (d.sourceArea parameters) (d.pages.get defaultAttributes (sourcePage parameters)).top
  have hexecutes := @executes_iff _ _ defaultAttributes _ parameters hs
  have hnumber := @PageManager.number_eq_iff _ _ defaultAttributes _ (sourcePage parameters) (destinationPage parameters) hs
  rw [ScrollMargins.box_read] at hdst
  change _ = (_, (d.sourceArea parameters).below _) at hsrc
  change _ = (_, (d.destinationArea parameters).below _) at hdst
  unfold deccra copyRectangularArea
  dsimp only
  unfold sourcePage destinationPage at *
  rw [hsrc]
  dsimp only
  rw [hheight, hwidth, hdst]
  dsimp only
  by_cases hruns : d.Executes parameters
  · rw [if_pos hruns, if_pos (hexecutes.mpr hruns)]
    simp only [hnumber]
  · rw [if_neg hruns, if_neg (fun h => hruns (hexecutes.mp h))]

end AreaDispatch

/-! ### The copied block -/

namespace AreaDispatch

variable {size : PageSize} {defaultAttributes : α} {d : AreaDispatch α size} {parameters : VTParameters}

/-- The cells that are copied when the function writes. -/
def block (d : AreaDispatch α size) (parameters : VTParameters) (defaultAttributes : α) (h : d.Executes parameters) :
    Block where
  l := (d.sourceArea parameters).left.toNat
  t := (d.pages.get defaultAttributes (sourcePage parameters)).top + (d.sourceArea parameters).top.toNat
  left := (d.destination parameters).x.toNat
  top := (d.pages.get defaultAttributes (destinationPage parameters)).top + (d.destination parameters).y.toNat
  columns := (d.destinationArea parameters).width.toNat
  lines := (d.destinationArea parameters).height.toNat
  columns_pos := by
    have := h.1.1
    unfold Rect.width
    omega
  lines_pos := by
    have := h.1.2
    unfold Rect.height
    omega
  forward := decide ((d.pages.get defaultAttributes (destinationPage parameters)).top + (d.destination parameters).y.toNat <
      (d.pages.get defaultAttributes (sourcePage parameters)).top + (d.sourceArea parameters).top.toNat ∨
    (d.pages.get defaultAttributes (destinationPage parameters)).top + (d.destination parameters).y.toNat =
        (d.pages.get defaultAttributes (sourcePage parameters)).top + (d.sourceArea parameters).top.toNat ∧
      (d.destination parameters).x.toNat < (d.sourceArea parameters).left.toNat)

lemma content_of_displays {b : TextBuffer α} {width height x y : ℕ} {cells : ℕ → ℕ → GlyphCell}
    {attrs : ℕ → ℕ → Option α} (h : b.Displays width height cells attrs) (hx : x < width) (hy : y < height) :
    (b.cell x y, b.attributes x y) = (cells y x, attrs y x) :=
  Prod.ext ((h.rows y hy).cell_eq hx) ((h.rows y hy).attributes x)

/-- The block in the coordinates of the rectangles. -/
lemma block_place (h : d.Executes parameters) :
    ((d.block parameters defaultAttributes h).l : ℤ) = (d.sourceArea parameters).left ∧
    ((d.block parameters defaultAttributes h).t : ℤ) =
      (d.sourceArea parameters).top + (d.pages.get defaultAttributes (sourcePage parameters)).top ∧
    ((d.block parameters defaultAttributes h).left : ℤ) = (d.destinationArea parameters).left ∧
    ((d.block parameters defaultAttributes h).top : ℤ) =
      (d.destinationArea parameters).top + (d.pages.get defaultAttributes (destinationPage parameters)).top ∧
    ((d.block parameters defaultAttributes h).columns : ℤ) = (d.destinationArea parameters).width ∧
    ((d.block parameters defaultAttributes h).lines : ℤ) = (d.destinationArea parameters).height := by
  obtain ⟨htop, hleft, -, -⟩ := destinationArea_inside d parameters
  obtain ⟨htop', hleft', -, -⟩ := sourceArea_inside d parameters
  have hrange := h.1
  have hx : (d.destination parameters).x = (d.destinationArea parameters).left := rfl
  have hy : (d.destination parameters).y = (d.destinationArea parameters).top := rfl
  unfold block Rect.width Rect.height
  dsimp only
  rw [hx, hy]
  omega

lemma block_forward (h : d.Executes parameters) : (d.block parameters defaultAttributes h).forward = true ↔
    (d.block parameters defaultAttributes h).top < (d.block parameters defaultAttributes h).t ∨
      (d.block parameters defaultAttributes h).top = (d.block parameters defaultAttributes h).t ∧
        (d.block parameters defaultAttributes h).left < (d.block parameters defaultAttributes h).l := decide_eq_true_iff

variable [DecidableEq α]

/-- **The block is copied at once**, if it can be read. -/
theorem copyRect_block {units : ℕ} (hs : d.pages.Sound) (hwidth : size.width < 0x8000)
    (hn : d.pages.NarrowPages defaultAttributes units) (h : d.Executes parameters)
    (hright : (d.block parameters defaultAttributes h).l + (d.block parameters defaultAttributes h).columns ≤ size.width)
    (hbottom : (d.block parameters defaultAttributes h).t + (d.block parameters defaultAttributes h).lines ≤
      (d.pages.get defaultAttributes (sourcePage parameters)).top + size.height) :
    ∃ text reads, copyRect (if d.pages.samePage (sourcePage parameters) (destinationPage parameters) then none
          else some (d.pages.get defaultAttributes (sourcePage parameters)).buffer.text)
        ((d.sourceArea parameters).below (d.pages.get defaultAttributes (sourcePage parameters)).top)
        ((d.destinationArea parameters).below (d.pages.get defaultAttributes (destinationPage parameters)).top)
        (d.pages.get defaultAttributes (destinationPage parameters)).buffer.text = .ok (text, reads) ∧
      text = { (d.pages.get defaultAttributes (destinationPage parameters)).buffer.text with rows := text.rows } ∧
      (∀ y < (d.pages.get defaultAttributes (destinationPage parameters)).buffer.text.height, ∀ x < size.width,
        (text.cell x y, text.attributes x y) =
          if (d.block parameters defaultAttributes h).Written (d.block parameters defaultAttributes h).size x y then
            d.pages.content defaultAttributes (sourcePage parameters)
              ((d.block parameters defaultAttributes h).l + (x - (d.block parameters defaultAttributes h).left))
              ((d.block parameters defaultAttributes h).t + (y - (d.block parameters defaultAttributes h).top))
          else d.pages.content defaultAttributes (destinationPage parameters) x y) ∧
      (d.block parameters defaultAttributes h).ReadsInside reads := by
  obtain ⟨htop, hleft, hinside, hinside'⟩ := destinationArea_inside d parameters
  obtain ⟨htop', hleft', -, -⟩ := sourceArea_inside d parameters
  have hsrcHeight := hs.get_inside defaultAttributes (sourcePage parameters)
  have hdstHeight := hs.get_inside defaultAttributes (destinationPage parameters)
  obtain ⟨cells', attrs', hsrc⟩ := hn.narrow (sourcePage parameters)
  -- One page has one strip of cells.
  obtain ⟨cells, attrs, hdst, hcells⟩ : ∃ cells attrs, Narrow units
      (d.pages.get defaultAttributes (destinationPage parameters)).buffer.text size.width
      (d.pages.get defaultAttributes (destinationPage parameters)).buffer.text.height cells attrs ∧
      (d.pages.samePage (sourcePage parameters) (destinationPage parameters) = true → cells = cells' ∧ attrs = attrs') := by
    by_cases hsame : d.pages.samePage (sourcePage parameters) (destinationPage parameters) = true
    · rw [← @PageManager.get_eq_of_same _ _ defaultAttributes _ _ _ hsame]
      exact ⟨cells', attrs', hsrc, fun _ => ⟨rfl, rfl⟩⟩
    · obtain ⟨cells, attrs, hdst⟩ := hn.narrow (destinationPage parameters)
      exact ⟨cells, attrs, hdst, fun h => absurd h hsame⟩
  obtain ⟨hBl, hBt, hBleft, hBtop, hBcolumns, hBlines⟩ := @block_place _ _ defaultAttributes _ _ h
  have hforward := @block_forward _ _ defaultAttributes _ _ h
  generalize d.block parameters defaultAttributes h = B at *
  have hplace : B.left + B.columns ≤ size.width ∧ B.top + B.lines ≤
      (d.pages.get defaultAttributes (destinationPage parameters)).buffer.text.height := by
    unfold Rect.width at hBcolumns
    unfold Rect.height at hBlines
    omega
  have F : B.Fits units size.width (d.pages.get defaultAttributes (destinationPage parameters)).buffer.text.height
      (d.pages.get defaultAttributes (sourcePage parameters)).buffer.text.height cells' cells :=
    ⟨hright, hbottom.trans hsrcHeight, hplace.1, hplace.2, hwidth, hdst.whole, hsrc.whole, hn.room, hdst.light, hsrc.light⟩
  have hsource : B.Source size.width (d.pages.get defaultAttributes (destinationPage parameters)).buffer.text.height cells'
      cells attrs' attrs (d.pages.get defaultAttributes (destinationPage parameters)).buffer.text
      (if d.pages.samePage (sourcePage parameters) (destinationPage parameters) then none
        else some (d.pages.get defaultAttributes (sourcePage parameters)).buffer.text) := by
    by_cases hsame : d.pages.samePage (sourcePage parameters) (destinationPage parameters) = true
    · obtain ⟨rfl, rfl⟩ := hcells hsame
      rw [if_pos hsame]
      rw [@PageManager.get_eq_of_same _ _ defaultAttributes _ _ _ hsame] at F
      exact Block.source_same F hforward
    · rw [if_neg hsame]
      exact Block.source_other F hsrc.displays hsrc.single
  have hsrcOrigin : ((d.sourceArea parameters).below
      (d.pages.get defaultAttributes (sourcePage parameters)).top).origin = ⟨B.l, B.t⟩ := by
    rw [hBl, hBt]
    rfl
  have hdstOrigin : ((d.destinationArea parameters).below
      (d.pages.get defaultAttributes (destinationPage parameters)).top).origin = ⟨B.left, B.top⟩ := by
    rw [hBleft, hBtop]
    rfl
  obtain ⟨text, reads, hok, htext, hreads⟩ := Block.copyRect_run F hsource hforward hdst.displays hdst.single hsrcOrigin
    hdstOrigin (by rw [hBcolumns]; rfl) (by rw [hBlines]; exact below_height _ _)
  refine ⟨text, reads, hok, htext.same, fun y hy x hx => ?_, hreads⟩
  rw [content_of_displays htext.displays hx hy]
  unfold Block.after
  by_cases hwritten : B.Written B.size x y
  · have hin := hwritten.1
    rw [if_pos hwritten, if_pos hwritten, if_pos hwritten]
    exact (content_of_displays hsrc.displays (by omega) (by omega)).symm
  · rw [if_neg hwritten, if_neg hwritten, if_neg hwritten]
    exact (content_of_displays hdst.displays hx hy).symm

end AreaDispatch

/-! ### When a copy does what it has to -/

namespace AreaDispatch

variable {size : PageSize} {defaultAttributes : α} {d : AreaDispatch α size} {parameters : VTParameters}

/-- The area that is asked for is not empty. -/
def AsksForCells (d : AreaDispatch α size) (parameters : VTParameters) : Prop :=
  (d.sourceArea parameters).left < (d.sourceArea parameters).right ∧
    (d.sourceArea parameters).top < (d.sourceArea parameters).bottom

/-- There are rows to write: the area has rows, or the last row of the destination is taken for an omitted one, or it is
behind the last one of the page. -/
def HasRows (d : AreaDispatch α size) (parameters : VTParameters) : Prop :=
  0 < (d.sourceArea parameters).height ∨ vtInt (parameters.at 5) + (d.sourceArea parameters).height - 1 = 0 ∨
    (d.scrollMargins.box size).yMaximum d.originMode ≤
      vtInt (parameters.at 5) + (d.sourceArea parameters).height - 1 + (d.scrollMargins.box size).yOffset d.originMode

/-- There are columns to write. -/
def HasColumns (d : AreaDispatch α size) (parameters : VTParameters) : Prop :=
  0 < (d.sourceArea parameters).width ∨ vtInt (parameters.at 6) + (d.sourceArea parameters).width - 1 = 0 ∨
    (d.scrollMargins.box size).xMaximum d.originMode ≤
      vtInt (parameters.at 6) + (d.sourceArea parameters).width - 1 + (d.scrollMargins.box size).xOffset d.originMode

/-- The area is where it goes to. -/
def InPlace (d : AreaDispatch α size) (parameters : VTParameters) : Prop :=
  d.pages.samePage (sourcePage parameters) (destinationPage parameters) = true ∧
    d.destination parameters = (d.sourceArea parameters).origin

lemma hasRows_iff : (d.destinationArea parameters).top < (d.destinationArea parameters).bottom ↔ d.HasRows parameters := by
  have hlimits := (d.scrollMargins.box size).yLimits d.originMode
  have hpos := vtInt_pos (parameters.at 5)
  unfold destinationArea HasRows MarginBox.area
  dsimp only
  split_ifs <;> omega

lemma hasColumns_iff :
    (d.destinationArea parameters).left < (d.destinationArea parameters).right ↔ d.HasColumns parameters := by
  have hlimits := (d.scrollMargins.box size).xLimits d.originMode
  have hpos := vtInt_pos (parameters.at 6)
  unfold destinationArea HasColumns MarginBox.area
  dsimp only
  split_ifs <;> omega

theorem executes_eq : d.Executes parameters ↔
    (d.HasColumns parameters ∧ d.HasRows parameters) ∧ ¬d.InPlace parameters := by
  unfold Executes InPlace
  rw [hasRows_iff, hasColumns_iff]

/-- Behind its origin, the destination ends with the area or with the page. -/
lemma destinationArea_ends (h : d.AsksForCells parameters) :
    (d.destinationArea parameters).right = min ((d.destination parameters).x + (d.sourceArea parameters).width)
        ((d.scrollMargins.box size).xMaximum d.originMode) ∧
      (d.destinationArea parameters).bottom = min ((d.destination parameters).y + (d.sourceArea parameters).height)
        ((d.scrollMargins.box size).yMaximum d.originMode) := by
  have hxlimits := (d.scrollMargins.box size).xLimits d.originMode
  have hylimits := (d.scrollMargins.box size).yLimits d.originMode
  have hx := vtInt_pos (parameters.at 6)
  have hy := vtInt_pos (parameters.at 5)
  have hcolumns : 0 < (d.sourceArea parameters).width := Int.sub_pos.mpr h.1
  have hrows : 0 < (d.sourceArea parameters).height := Int.sub_pos.mpr h.2
  unfold destinationArea destination MarginBox.area
  dsimp only
  split_ifs <;> omega

lemma not_receives (h : ¬d.AsksForCells parameters) (x y : ℤ) : ¬d.Receives parameters x y := by
  unfold AsksForCells at h
  unfold Receives Rect.width Rect.height
  omega

/-- A cell receives what is in the block. -/
lemma receives_iff (h : d.AsksForCells parameters) {x y : ℤ} : d.Receives parameters x y ↔
    ((d.destinationArea parameters).left ≤ x ∧ x < (d.destinationArea parameters).right) ∧
      (d.destinationArea parameters).top ≤ y ∧ y < (d.destinationArea parameters).bottom := by
  have hends := destinationArea_ends h
  have hx : (d.destination parameters).x = (d.destinationArea parameters).left := rfl
  have hy : (d.destination parameters).y = (d.destinationArea parameters).top := rfl
  unfold Receives
  omega

/-- What is on the pages when the rows of one have been written. -/
theorem content_writeRows {m : PageManager α size} (hs : m.Sound) {p : ℤ} {text : TextBuffer α}
    (htext : text = { (m.get defaultAttributes p).buffer.text with rows := text.rows }) (q : ℤ) (x y : ℕ) :
    (m.writeRows defaultAttributes p text.rows).content defaultAttributes q x y =
      if m.samePage q p then (text.cell x y, text.attributes x y) else m.content defaultAttributes q x y := by
  have hwritten := hs.writeRows defaultAttributes p text.rows
  by_cases hsame : m.samePage q p = true
  · have hsame' : (m.writeRows defaultAttributes p text.rows).samePage q p = true := by
      unfold PageManager.samePage at hsame ⊢
      rw [hwritten.isMainBuffer]
      exact hsame
    rw [if_pos hsame]
    unfold PageManager.content
    rw [PageManager.get_eq_of_same hsame', hwritten.page]
    unfold PageBuffer.withRows
    dsimp only
    rw [← htext]
  · rw [if_neg hsame]
    unfold PageManager.samePage at hsame
    simp only [Bool.or_eq_true, Bool.not_eq_true', decide_eq_true_eq, not_or, Bool.not_eq_false] at hsame
    unfold PageManager.content
    rw [hwritten.others hsame.1 q hsame.2]

section Copying

variable [DecidableEq α]

/-- The dispatch function when it writes. -/
theorem deccra_runs (hs : d.pages.Sound) (hruns : d.Executes parameters) {text : TextBuffer α} {reads : List Types.Point}
    (hok : copyRect (if d.pages.samePage (sourcePage parameters) (destinationPage parameters) then none
          else some (d.pages.get defaultAttributes (sourcePage parameters)).buffer.text)
        ((d.sourceArea parameters).below (d.pages.get defaultAttributes (sourcePage parameters)).top)
        ((d.destinationArea parameters).below (d.pages.get defaultAttributes (destinationPage parameters)).top)
        (d.pages.get defaultAttributes (destinationPage parameters)).buffer.text = .ok (text, reads)) :
    d.deccra defaultAttributes parameters = .ok ({ d with
      pages := d.pages.writeRows defaultAttributes (destinationPage parameters) text.rows
      scrollMargins := (d.scrollMargins.read size).read size }, reads) := by
  rw [deccra_eq hs]
  dsimp only
  rw [if_pos hruns, hok]
  rfl

/-- Nothing is done. -/
theorem copiesAtOnce_idle (hs : d.pages.Sound) (hidle : ¬d.Executes parameters)
    (h : d.AsksForCells parameters → d.InPlace parameters) : d.CopiesAtOnce parameters defaultAttributes := by
  refine ⟨_, _, (deccra_eq hs).trans (if_neg hidle), fun p hp => (nomatch hp), fun q y _ x _ => ?_⟩
  by_cases hcells : d.AsksForCells parameters
  · obtain ⟨hsame, hplace⟩ := h hcells
    split
    · next hreceives =>
      -- The cell comes from where it is.
      have hpage := @PageManager.get_eq_of_same _ _ defaultAttributes _ _ _ hreceives.1
      have hpage' := @PageManager.get_eq_of_same _ _ defaultAttributes _ _ _ hsame
      have hx : d.originColumn parameters x = x := by
        unfold originColumn
        rw [hplace]
        unfold Rect.origin
        dsimp only
        omega
      have hy : d.originLine parameters defaultAttributes y = y := by
        unfold originLine
        rw [hplace, hpage']
        unfold Rect.origin
        dsimp only
        omega
      rw [hx, hy]
      unfold PageManager.content
      rw [hpage, hpage']
    · rfl
  · rw [if_neg (fun hreceives => not_receives hcells _ _ hreceives.2)]

/-- **An area with cells is copied at once.** -/
theorem copiesAtOnce_cells {units : ℕ} (hs : d.pages.Sound) (hwidth : size.width < 0x8000)
    (hn : d.pages.NarrowPages defaultAttributes units) (hcells : d.AsksForCells parameters) :
    d.CopiesAtOnce parameters defaultAttributes := by
  by_cases hruns : d.Executes parameters
  swap
  · refine copiesAtOnce_idle hs hruns fun _ => ?_
    rw [executes_eq] at hruns
    by_contra hplace
    exact hruns ⟨⟨.inl (Int.sub_pos.mpr hcells.1), .inl (Int.sub_pos.mpr hcells.2)⟩, hplace⟩
  obtain ⟨hsrcTop, hsrcLeft, hsrcBottom, hsrcRight⟩ := sourceArea_inside d parameters
  have hends := destinationArea_ends hcells
  have hx : (d.destination parameters).x = (d.destinationArea parameters).left := rfl
  have hy : (d.destination parameters).y = (d.destinationArea parameters).top := rfl
  obtain ⟨hl, ht, hleft, htop, hcolumns, hlines⟩ := @block_place _ _ defaultAttributes _ _ hruns
  have hrun := copyRect_block hs hwidth hn hruns (by unfold Rect.width at *; omega) (by unfold Rect.height at *; omega)
  generalize d.block parameters defaultAttributes hruns = B at *
  obtain ⟨text, reads, hok, htext, hcontent, hreads⟩ := hrun
  refine ⟨_, reads, deccra_runs hs hruns hok, fun p hp => ?_, fun q y hqy x hqx => ?_⟩
  · obtain ⟨j, hj, rfl⟩ := hreads p hp
    have hcolumn := @Block.column_lt B (B.number j)
    have hline := Block.line_lt hj
    rw [Block.position_place]
    dsimp only
    unfold Rect.width at hcolumns
    unfold Rect.height at hlines
    unfold Rect.width Rect.height at hends
    generalize B.number j % B.columns = r at *
    generalize B.number j / B.columns = r' at *
    omega
  · dsimp only
    rw [content_writeRows hs htext]
    by_cases hsame : d.pages.samePage q (destinationPage parameters) = true
    · have hpage := @PageManager.get_eq_of_same _ _ defaultAttributes _ _ _ hsame
      rw [hpage] at hqy ⊢
      rw [if_pos hsame, hcontent y hqy x hqx]
      by_cases hin : B.Written B.size x y
      · have hplace := Block.written_size.mp hin
        have hreceives : d.Receives parameters x
            (y - (d.pages.get defaultAttributes (destinationPage parameters)).top) := by
          rw [receives_iff hcells]
          unfold Rect.width at hcolumns
          unfold Rect.height at hlines
          omega
        have hcolumn : d.originColumn parameters x = B.l + (x - B.left) := by
          unfold originColumn
          omega
        have hline : d.originLine parameters defaultAttributes y = B.t + (y - B.top) := by
          unfold originLine
          omega
        rw [if_pos hin, if_pos ⟨hsame, hreceives⟩, hcolumn, hline]
      · have hreceives : ¬d.Receives parameters x
            (y - (d.pages.get defaultAttributes (destinationPage parameters)).top) := by
          rw [receives_iff hcells]
          rw [Block.written_size] at hin
          unfold Rect.width at hcolumns
          unfold Rect.height at hlines
          omega
        rw [if_neg hin, if_neg fun h => hreceives h.2]
        unfold PageManager.content
        rw [hpage]
    · rw [if_neg hsame, if_neg fun h => hsame h.1]

end Copying

end AreaDispatch

end VT7.Adapter
