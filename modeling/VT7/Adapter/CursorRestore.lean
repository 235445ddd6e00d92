import Mathlib.Logic.Relation
import VT7.Adapter.MarginBoxes

/-!
# Saving and restoring the cursor

A restore is a movement to the saved position.  Whatever was done since the cursor was saved, it is restored exactly if
a movement from where the cursor is reaches the position (`restore_iff`).
-/

namespace VT7.Adapter

open VT7.Buffer

namespace CursorDispatch

open PageManager

variable {α : Type} {size : PageSize} {defaultAttributes : α} {d s : CursorDispatch α size}

/-- The cursor in its page. -/
def position (defaultAttributes : α) (d : CursorDispatch α size) : Types.Point :=
  ⟨(d.activePage defaultAttributes).position.1, (d.activePage defaultAttributes).position.2⟩

/-- The width of a line of the active page. -/
def lineWidth (defaultAttributes : α) (d : CursorDispatch α size) (y : ℤ) : ℤ :=
  (d.activePage defaultAttributes).buffer.text.getLineWidth (y + (d.activePage defaultAttributes).top)

theorem getVerticalMargins_fst (m : ScrollMargins) (page : Page α) (absolute : Bool) :
    (m.getVerticalMargins (frame size page) absolute).1 = m.resetVertical ⟨0, size.height, size.width⟩ :=
  ScrollMargins.resetVertical_frame page

/-- The margins are compared with the cursor in its page, or in the buffer. -/
theorem rowInMargins_add (top bottom left right offset row : ℤ) (cursor : Types.Point) :
    rowInMargins (top + offset) (bottom + offset) left right cursor (row + offset) =
      rowInMargins top bottom left right ⟨cursor.x, cursor.y - offset⟩ row + offset := by
  unfold rowInMargins
  dsimp only
  split_ifs <;> omega

theorem colInMargins_add (top bottom left right offset row col : ℤ) (cursor : Types.Point) :
    colInMargins (top + offset) (bottom + offset) left right cursor (row + offset) col =
      colInMargins top bottom left right ⟨cursor.x, cursor.y - offset⟩ row col := by
  unfold colInMargins
  dsimp only
  split_ifs <;> omega

/-- What a movement to an absolute position does. -/
structure Landed (defaultAttributes : α) (d r : CursorDispatch α size) (position : Types.Point) : Prop where
  written : Written defaultAttributes d.pages r.pages
    ⟨position.x, position.y + (d.activePage defaultAttributes).top⟩ (d.activePage defaultAttributes).attributes
  originMode : r.originMode = d.originMode
  delayEOLWrap : r.delayEOLWrap = false
  box : r.scrollMargins.box size = d.scrollMargins.box size
  savedCursorState : r.savedCursorState = d.savedCursorState

theorem cursorPosition_landed (h : d.pages.Sound) (line column : ℤ) :
    Landed defaultAttributes d (d.cursorPosition defaultAttributes line column)
      ((d.scrollMargins.box size).landing d.originMode (d.lineWidth defaultAttributes) (d.position defaultAttributes)
        (line - 1) (column - 1)) := by
  have hwidth : (d.activePage defaultAttributes).buffer.text.width = size.width := h.activePage_width
  obtain ⟨htop, hbottom⟩ := @ScrollMargins.getVerticalMargins_absolute _ d.scrollMargins size
    (d.activePage defaultAttributes)
  have hleft : (((d.scrollMargins.getVerticalMargins (frame size (d.activePage defaultAttributes)) true).1.getHorizontalMargins
      size.width).2.1 : ℤ) = (d.scrollMargins.box size).left := by
    rw [getVerticalMargins_fst]
    rw [ScrollMargins.getHorizontalMargins_resetVertical]
    rfl
  have hright : ((d.scrollMargins.getVerticalMargins (frame size (d.activePage defaultAttributes)) true).1.getHorizontalMargins
      size.width).2.2 = (d.scrollMargins.box size).right := by
    rw [getVerticalMargins_fst]
    rw [ScrollMargins.getHorizontalMargins_resetVertical]
    rfl
  have hmargins : ((d.scrollMargins.getVerticalMargins (frame size (d.activePage defaultAttributes)) true).1.getHorizontalMargins
      size.width).1.box size = d.scrollMargins.box size := by
    rw [getVerticalMargins_fst]
    exact ScrollMargins.box_resetHorizontal.trans ScrollMargins.box_resetVertical
  unfold cursorPosition cursorMovePosition
  dsimp only
  rw [hwidth]
  refine ⟨h.writeActive_of_eq ?_ _, rfl, rfl, hmargins, rfl⟩
  rw [htop, hbottom, hleft, hright]
  have hrow : ∀ base : ℤ, max ((d.activePage defaultAttributes).top : ℤ)
      (min (base + (d.activePage defaultAttributes).top + (line - 1))
        ((frame size (d.activePage defaultAttributes)).bottom - 1)) =
      max 0 (min (base + (line - 1)) (size.height - 1)) + (d.activePage defaultAttributes).top := by
    intro base
    unfold frame
    push_cast
    omega
  unfold Offset.absolute MarginBox.landing MarginBox.landingColumn MarginBox.landingRow
  cases hmode : d.originMode with
  | false =>
    have hrow' := hrow 0
    rw [zero_add] at hrow'
    simp only [Bool.or_self, Bool.false_eq_true, if_false, if_true, hrow', zero_add]
    rfl
  | true =>
    simp only [Bool.or_true, if_true, hrow, rowInMargins_add, colInMargins_add]
    rfl

/-- The line width goes by the rendition of the row. -/
theorem lineWidth_row (h : d.pages.Sound) {y : ℕ} (hy : y < size.height) : d.lineWidth defaultAttributes y =
    ((size.width >>> if ((d.activePage defaultAttributes).row y).lineRendition ≠ .singleWidth then 1 else 0 : ℕ) : ℤ) := by
  have hinside : (d.activePage defaultAttributes).top + size.height ≤
      (d.activePage defaultAttributes).buffer.text.height := h.activePage_inside
  have hwidth : (d.activePage defaultAttributes).buffer.text.width = size.width := h.activePage_width
  have hrow : (d.activePage defaultAttributes).buffer.text.getRowByOffset
      ((y : ℤ) + (d.activePage defaultAttributes).top) = (d.activePage defaultAttributes).row y := by
    unfold TextBuffer.getRowByOffset Page.row
    rw [Int.emod_eq_of_lt (by omega) (by omega)]
    congr 1
    omega
  unfold lineWidth TextBuffer.getLineWidth TextBuffer.isDoubleWidthLine
  rw [hrow, hwidth]
  simp only [decide_eq_true_eq]

theorem lineWidth_le (h : d.pages.Sound) (y : ℤ) : d.lineWidth defaultAttributes y ≤ size.width := by
  have hwidth : (d.activePage defaultAttributes).buffer.text.width = size.width := h.activePage_width
  unfold lineWidth TextBuffer.getLineWidth
  rw [hwidth]
  exact_mod_cast (Nat.shiftRight_le _ _)

/-- An operation after the cursor was saved.  It saves no other one, stays in the buffer, and leaves the size of the page,
the margins and the width of the line with the saved position as they are. -/
structure Keeps (page row : ℤ) (defaultAttributes : α) (d d' : CursorDispatch α size) : Prop where
  sound : d'.pages.Sound
  isMainBuffer : d'.pages.isMainBuffer = d.pages.isMainBuffer
  savedCursorState : d'.savedCursorState = d.savedCursorState
  box : d'.scrollMargins.box size = d.scrollMargins.box size
  rendition : ∀ y : ℕ, row = y → y < size.height →
    ((d'.pages.get defaultAttributes page).row y).lineRendition =
      ((d.pages.get defaultAttributes page).row y).lineRendition

theorem Keeps.refl (h : d.pages.Sound) (page row : ℤ) : Keeps page row defaultAttributes d d :=
  ⟨h, rfl, rfl, rfl, fun _ _ _ => rfl⟩

theorem Keeps.trans {d₁ d₂ d₃ : CursorDispatch α size} {page row : ℤ} (h : Keeps page row defaultAttributes d₁ d₂)
    (h' : Keeps page row defaultAttributes d₂ d₃) : Keeps page row defaultAttributes d₁ d₃ where
  sound := h'.sound
  isMainBuffer := h'.isMainBuffer.trans h.isMainBuffer
  savedCursorState := h'.savedCursorState.trans h.savedCursorState
  box := h'.box.trans h.box
  rendition y hrow hy := (h'.rendition y hrow hy).trans (h.rendition y hrow hy)

/-- Cursor movements are such operations. -/
theorem keeps_cursorPosition (h : d.pages.Sound) (line column page row : ℤ) :
    Keeps page row defaultAttributes d (d.cursorPosition defaultAttributes line column) := by
  have hlanded := @cursorPosition_landed _ _ defaultAttributes _ h line column
  refine ⟨hlanded.written.sound, hlanded.written.isMainBuffer, hlanded.savedCursorState, hlanded.box, fun y _ _ => ?_⟩
  exact congrArg Row.lineRendition (h.writeActive_row _ _ page y)

/-- What operations keep one after the other. -/
theorem keeps_run {d' : CursorDispatch α size} {page row : ℤ} (h : d.pages.Sound)
    (hrun : Relation.ReflTransGen (Keeps page row defaultAttributes) d d') : Keeps page row defaultAttributes d d' := by
  induction hrun with
  | refl => exact .refl h page row
  | tail _ hstep ih => exact ih.trans hstep

/-- What is to be restored. -/
structure SameCursor (defaultAttributes : α) (s r : CursorDispatch α size) : Prop where
  page : (r.activePage defaultAttributes).number = (s.activePage defaultAttributes).number
  position : r.position defaultAttributes = s.position defaultAttributes
  originMode : r.originMode = s.originMode
  delayEOLWrap : r.delayEOLWrap = s.delayEOLWrap
  attributes : (r.activePage defaultAttributes).attributes = (s.activePage defaultAttributes).attributes

/-- What is saved. -/
theorem cursorSaveState_saved (h : s.pages.Sound) : (s.cursorSaveState defaultAttributes).savedCursorState =
    { row := (s.position defaultAttributes).y - (if s.originMode then (s.scrollMargins.box size).top else 0) + 1
      column := (s.position defaultAttributes).x - (if s.originMode then (s.scrollMargins.box size).left else 0) + 1
      page := (s.activePage defaultAttributes).number
      isDelayedEOLWrap := s.delayEOLWrap
      isOriginModeRelative := s.originMode
      attributes := (s.activePage defaultAttributes).attributes } := by
  have hwidth : (s.activePage defaultAttributes).buffer.text.width = size.width := h.activePage_width
  have htop : (((s.scrollMargins.getHorizontalMargins size.width).1.getVerticalMargins
      (frame size (s.activePage defaultAttributes)) false).2.1 : ℤ) = (s.scrollMargins.box size).top := by
    rw [ScrollMargins.getVerticalMargins_relative]
    exact congrArg MarginBox.top ScrollMargins.box_resetHorizontal
  have hleft : ((s.scrollMargins.getHorizontalMargins size.width).2.1 : ℤ) = (s.scrollMargins.box size).left := rfl
  unfold cursorSaveState
  dsimp only
  rw [hwidth]
  cases hmode : s.originMode with
  | false =>
    simp only [Bool.false_eq_true, if_false, Int.sub_zero]
    rfl
  | true =>
    simp only [if_true, htop, hleft]
    rfl

theorem cursorSaveState_box (h : s.pages.Sound) :
    (s.cursorSaveState defaultAttributes).scrollMargins.box size = s.scrollMargins.box size := by
  have hwidth : (s.activePage defaultAttributes).buffer.text.width = size.width := h.activePage_width
  unfold cursorSaveState
  dsimp only
  rw [hwidth]
  cases s.originMode with
  | false => rfl
  | true =>
    refine Eq.trans ?_ ScrollMargins.box_resetHorizontal
    refine Eq.trans ?_ ScrollMargins.box_resetVertical
    exact congrArg (fun m => m.box size) (getVerticalMargins_fst _ _ false)

/-- The first two steps of a restore. -/
def arrived (defaultAttributes : α) (d : CursorDispatch α size) : CursorDispatch α size :=
  { d with
    originMode := d.savedCursorState.isOriginModeRelative
    pages := d.pages.moveTo defaultAttributes d.savedCursorState.page d.pageCursorCoupling }

/-- What a restore does: it moves to the page, and in it to the position. -/
structure Restored (defaultAttributes : α) (d r : CursorDispatch α size) : Prop where
  page : (r.activePage defaultAttributes).number = ((d.arrived defaultAttributes).activePage defaultAttributes).number
  position : r.position defaultAttributes =
    (d.scrollMargins.box size).landing d.savedCursorState.isOriginModeRelative
      ((d.arrived defaultAttributes).lineWidth defaultAttributes) ((d.arrived defaultAttributes).position defaultAttributes)
      (d.savedCursorState.row - 1) (d.savedCursorState.column - 1)
  originMode : r.originMode = d.savedCursorState.isOriginModeRelative
  delayEOLWrap : r.delayEOLWrap = d.savedCursorState.isDelayedEOLWrap
  attributes : (r.activePage defaultAttributes).attributes = d.savedCursorState.attributes

theorem cursorRestoreState_restored (h : (d.arrived defaultAttributes).pages.Sound) :
    Restored defaultAttributes d (d.cursorRestoreState defaultAttributes) := by
  have hlanded := @cursorPosition_landed _ _ defaultAttributes _ h d.savedCursorState.row d.savedCursorState.column
  generalize hpoint : (((d.arrived defaultAttributes).scrollMargins.box size).landing _ _ _ _ _) = point at hlanded
  have hpage := hlanded.written.page
  have hwritten := @PageManager.Sound.writeActive _ _ defaultAttributes _ hlanded.written.sound
    ⟨point.x, point.y + ((d.arrived defaultAttributes).activePage defaultAttributes).top⟩ d.savedCursorState.attributes
  -- The attributes are written where the cursor has been set.
  have hrestored : (d.cursorRestoreState defaultAttributes).pages =
      ((d.arrived defaultAttributes).cursorPosition defaultAttributes d.savedCursorState.row
        d.savedCursorState.column).pages.writeActive defaultAttributes
          ⟨point.x, point.y + ((d.arrived defaultAttributes).activePage defaultAttributes).top⟩
          d.savedCursorState.attributes := by
    have hx := congrArg (fun page => page.buffer.text.cursorX) hpage
    have hy := congrArg (fun page => page.buffer.text.cursorY) hpage
    dsimp only [PageBuffer.withCursor] at hx hy
    rw [← hx, ← hy]
    unfold cursorRestoreState
    dsimp only
    split <;> rfl
  have hrpage := hwritten.page
  rw [← hrestored, hpage] at hrpage
  have hdelay : (d.cursorRestoreState defaultAttributes).delayEOLWrap = d.savedCursorState.isDelayedEOLWrap := by
    have hreset := hlanded.delayEOLWrap
    unfold cursorRestoreState
    dsimp only
    split
    · next htrue => exact htrue.symm
    · next hfalse => exact hreset.trans (Bool.eq_false_iff.mpr hfalse).symm
  have hmode : (d.cursorRestoreState defaultAttributes).originMode = d.savedCursorState.isOriginModeRelative := by
    have hmode := hlanded.originMode
    unfold cursorRestoreState
    dsimp only
    split <;> exact hmode
  refine ⟨(congrArg Page.number hrpage).trans rfl, ?_, hmode, hdelay, (congrArg Page.attributes hrpage).trans rfl⟩
  have hposition : (d.cursorRestoreState defaultAttributes).position defaultAttributes = point := by
    unfold position activePage
    rw [hrpage]
    unfold Page.position PageBuffer.withCursor
    exact congrArg (Types.Point.mk point.x) (add_sub_cancel_right point.y _)
  rw [hposition, ← hpoint]
  rfl

/-- A position can be reached or not, whatever the widths of the other lines are. -/
theorem reachable_congr {box : MarginBox size} {originMode : Bool} {lineWidth lineWidth' : ℤ → ℤ}
    {cursor position : Types.Point}
    (h : 0 ≤ position.y → position.y < size.height → lineWidth position.y = lineWidth' position.y)
    (hreachable : box.Reachable originMode lineWidth cursor position) :
    box.Reachable originMode lineWidth' cursor position := by
  have heq := h hreachable.top_le hreachable.lt_bottom
  constructor
  · exact hreachable.top_le
  · exact hreachable.lt_bottom
  · exact heq ▸ hreachable.lt_width
  · exact heq ▸ hreachable.nonneg
  · exact hreachable.rows
  · exact heq ▸ hreachable.columns

/-- **Saving and restoring the cursor.**  Whatever is done in between, the page, the position, the origin mode, the delayed
wrap and the attributes are restored, exactly if a movement from where the cursor is reaches the position. -/
theorem restore_iff {s d : CursorDispatch α size} (hs : s.pages.Sound)
    (hrun : Relation.ReflTransGen (Keeps (s.activePage defaultAttributes).number (s.position defaultAttributes).y
      defaultAttributes) (s.cursorSaveState defaultAttributes) d) :
    SameCursor defaultAttributes s (d.cursorRestoreState defaultAttributes) ↔
      (s.scrollMargins.box size).Reachable s.originMode (s.lineWidth defaultAttributes) (d.position defaultAttributes)
        (s.position defaultAttributes) := by
  have hkept := keeps_run (show (s.cursorSaveState defaultAttributes).pages.Sound from hs) hrun
  have hsaved := hkept.savedCursorState.trans (cursorSaveState_saved hs)
  have hbox := hkept.box.trans (cursorSaveState_box hs)
  have harrived := @PageManager.Sound.moveTo _ _ defaultAttributes _ hkept.sound d.savedCursorState.page d.pageCursorCoupling
  have hrestored := cursorRestoreState_restored (show (d.arrived defaultAttributes).pages.Sound from harrived.sound)
  have hpage : d.savedCursorState.page = (s.activePage defaultAttributes).number := congrArg CursorState.page hsaved
  have hmode : d.savedCursorState.isOriginModeRelative = s.originMode := congrArg CursorState.isOriginModeRelative hsaved
  have hrow : d.savedCursorState.row - 1 =
      (s.position defaultAttributes).y - if s.originMode then (s.scrollMargins.box size).top else 0 := by
    rw [congrArg CursorState.row hsaved, add_sub_cancel_right]
  have hcolumn : d.savedCursorState.column - 1 =
      (s.position defaultAttributes).x - if s.originMode then (s.scrollMargins.box size).left else 0 := by
    rw [congrArg CursorState.column hsaved, add_sub_cancel_right]
  have hnumber : ((d.arrived defaultAttributes).activePage defaultAttributes).number =
      (s.activePage defaultAttributes).number := by
    refine harrived.number.trans ?_
    rw [hkept.isMainBuffer, hpage]
    exact hs.clampPage_number
  have hcursor : (d.arrived defaultAttributes).position defaultAttributes = d.position defaultAttributes :=
    congrArg (fun p : ℤ × ℤ => Types.Point.mk p.1 p.2) harrived.position
  have hline : 0 ≤ (s.position defaultAttributes).y → (s.position defaultAttributes).y < size.height →
      (d.arrived defaultAttributes).lineWidth defaultAttributes (s.position defaultAttributes).y =
        s.lineWidth defaultAttributes (s.position defaultAttributes).y := by
    intro htop hbottom
    obtain ⟨y, hy⟩ := Int.eq_ofNat_of_zero_le htop
    have hlt : y < size.height := by omega
    have hrendition := hkept.rendition y hy hlt
    have harrivedRow : ((d.arrived defaultAttributes).activePage defaultAttributes).row y =
        (d.pages.get defaultAttributes d.savedCursorState.page).row y := harrived.row y hlt
    rw [hpage] at harrivedRow
    rw [← harrivedRow] at hrendition
    rw [show ((s.cursorSaveState defaultAttributes).pages.get defaultAttributes (s.activePage defaultAttributes).number) =
      s.activePage defaultAttributes from hs.get_number] at hrendition
    rw [hy, lineWidth_row harrived.sound hlt, lineWidth_row hs hlt]
    exact congrArg (fun r => ((size.width >>> if r ≠ .singleWidth then 1 else 0 : ℕ) : ℤ)) hrendition
  have hposition := hrestored.position
  rw [hbox, hmode, hcursor, hrow, hcolumn] at hposition
  have hiff := @MarginBox.landing_iff _ (s.scrollMargins.box size) s.originMode
    ((d.arrived defaultAttributes).lineWidth defaultAttributes) (d.position defaultAttributes)
    (s.position defaultAttributes) (lineWidth_le harrived.sound _)
  rw [← hposition] at hiff
  constructor
  · intro hsame
    exact reachable_congr hline (hiff.mp hsame.position)
  · intro hreachable
    constructor
    · exact hrestored.page.trans hnumber
    · exact hiff.mpr (reachable_congr (fun h h' => (hline h h').symm) hreachable)
    · exact hrestored.originMode.trans hmode
    · exact hrestored.delayEOLWrap.trans (congrArg CursorState.isDelayedEOLWrap hsaved)
    · exact hrestored.attributes.trans (congrArg CursorState.attributes hsaved)

/-! ### A page of four lines -/

def fourLines : PageSize := ⟨4, 4, by decide, by decide⟩

/-- Origin mode without margins, the cursor in the last line. -/
def lastLine : CursorDispatch ℕ fourLines where
  pages :=
    { screen := ⟨⟨{ TextBuffer.create 4 4 0 with cursorY := 3 }, 0, .initial⟩, 0, by decide⟩
      isMainBuffer := true
      activePageNumber := 1
      visiblePageNumber := 1
      buffers := fun _ => none }
  scrollMargins := ⟨0, 0, 0, 0⟩
  originMode := true
  pageCursorCoupling := false
  delayEOLWrap := false
  savedCursorState := ⟨1, 1, 1, false, false, 0⟩

theorem lastLine_sound : lastLine.pages.Sound :=
  ⟨fun _ => ⟨rfl, isPage_one, isPage_one, fun _ _ h => nomatch h⟩, rfl⟩

/-- The cursor goes to the first line and is restored. -/
theorem restore_iff_lastLine : SameCursor 0 lastLine
    (((lastLine.cursorSaveState 0).cursorPosition 0 1 1).cursorRestoreState 0) :=
  (restore_iff lastLine_sound
    (.single (@keeps_cursorPosition _ _ 0 (lastLine.cursorSaveState 0) lastLine_sound 1 1 _ _))).mpr
      ⟨by decide, by decide, by decide, by decide, fun _ _ _ => by decide, fun _ _ _ => by decide⟩

/-- Saved before the margins were set, restored behind them: the cursor is outside, in origin mode. -/
def outside : CursorDispatch ℕ fourLines :=
  let d := { lastLine.cursorSaveState 0 with scrollMargins := ⟨0, 1, 0, 2⟩, originMode := false }
  (d.cursorPosition 0 4 1).cursorRestoreState 0

/-- From inside the margins, the cursor does not come back to a position outside. -/
theorem outside_lost : outside.originMode = true ∧ outside.position 0 = ⟨0, 3⟩ ∧
    ∃ d, Relation.ReflTransGen (Keeps (outside.activePage 0).number (outside.position 0).y 0)
        (outside.cursorSaveState 0) d ∧
      (d.cursorRestoreState 0).position 0 = ⟨0, 2⟩ ∧ ¬ SameCursor 0 outside (d.cursorRestoreState 0) := by
  have hsound : outside.pages.Sound := ⟨fun _ => ⟨rfl, isPage_one, isPage_one, fun _ _ h => nomatch h⟩, rfl⟩
  have hposition : outside.position 0 = ⟨0, 3⟩ := by decide
  have hlost : (((outside.cursorSaveState 0).cursorPosition 0 1 1).cursorRestoreState 0).position 0 = ⟨0, 2⟩ := by decide
  refine ⟨by decide, hposition, _, .single (@keeps_cursorPosition _ _ 0 (outside.cursorSaveState 0) hsound 1 1 _ _), hlost, fun hsame => ?_⟩
  have := hsame.position
  rw [hlost, hposition] at this
  exact absurd this (by decide)

end CursorDispatch

end VT7.Adapter
