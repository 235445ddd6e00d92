import VT7.Adapter.FeedForms
import VT7.Adapter.WrittenRows

/-!
# Printed text

`_WriteToBuffer` writes a text row after row.  An iteration of its loop first acts on a delayed wrap, then writes what
goes into the row, and discards a cluster that finds no room.  The loop ends (`PrintLoop.run_ends`) unless the cursor is
below the margins of a page that is one column wide and ends with a double-width row (`Stuck`).  Where the rows have room
(`HasRoom`) nothing is thrown, and all that is taken of the text and not discarded stands in the rows
(`PrintStep.Writes`).

A run of the loop lists what its iterations did (`PrintStep`).  The notification of new text is left out.
-/

namespace VT7.Adapter

open VT7.Buffer

variable {α : Type} {size : PageSize}

/-- The modes and the attributes that printing reads. -/
structure PrintSettings (α : Type) where
  /-- `Mode::AutoWrap`. -/
  wrapAtEOL : Bool
  /-- `Mode::InsertReplace`. -/
  insertReplace : Bool
  attributes : α
  /-- `_GetEraseAttributes`. -/
  eraseAttributes : α

/-- The variables of `_WriteToBuffer`. -/
structure PrintLoop (α : Type) (size : PageSize) where
  dispatch : PrintDispatch α size
  topMargin : ℕ
  bottomMargin : ℤ
  rightMargin : ℤ
  columnLimit : ℤ
  text : List UInt16

/-- What one iteration does behind the delayed wrap. -/
structure PrintStep (α : Type) (size : PageSize) where
  before : PrintLoop α size
  after : PrintLoop α size
  /-- A glyph is thrown away. -/
  discards : Bool

namespace PrintLoop

/-- `_WriteToBuffer` up to its loop. -/
def start (d : PrintDispatch α size) (string : List UInt16) : PrintLoop α size :=
  let (scrollMargins, topMargin, bottomMargin) := d.scrollMargins.getVerticalMargins d.frame true
  let (scrollMargins, _, rightMargin) := scrollMargins.getHorizontalMargins d.text.width
  let lineWidth := d.text.getLineWidth d.position.y
  { dispatch := { d with scrollMargins }
    topMargin
    bottomMargin
    rightMargin
    columnLimit :=
      if d.position.x ≤ rightMargin ∧ (topMargin : ℤ) ≤ d.position.y ∧ d.position.y ≤ bottomMargin then
        min lineWidth (rightMargin + 1)
      else lineWidth
    text := string }

variable [DecidableEq α] (settings : PrintSettings α) (cwd : Clustering) (s : PrintLoop α size)

/-- The line feed of a delayed wrap. -/
def wrapLine : Except WriteCellsError (PrintLoop α size) := do
  let (d, viewportMoved) ← s.dispatch.doLineFeed cwd settings.eraseAttributes true true
  let (scrollMargins, topMargin, bottomMargin) :=
    if viewportMoved then d.scrollMargins.getVerticalMargins d.frame true
    else (d.scrollMargins, s.topMargin, s.bottomMargin)
  let lineWidth := d.text.getLineWidth d.position.y
  .ok
    { s with
      dispatch := { d with scrollMargins }
      topMargin
      bottomMargin
      columnLimit :=
        if (topMargin : ℤ) ≤ d.position.y ∧ d.position.y ≤ bottomMargin then min lineWidth (s.rightMargin + 1)
        else lineWidth }

/-- The delayed wrap, which counts only where the cursor has stayed. -/
def wrapDelayed : Except WriteCellsError (PrintLoop α size) :=
  match s.dispatch.delayedAt with
  | none => .ok s
  | some delayedCursorPosition =>
    if settings.wrapAtEOL then
      let s := { s with dispatch := { s.dispatch with delayedAt := none } }
      if delayedCursorPosition = s.dispatch.position then s.wrapLine settings cwd else .ok s
    else .ok s

omit [DecidableEq α] in
/-- `Insert` or `Replace`, at the cursor. -/
def write : Except BufferError (TextBuffer α × RowWriteResult) :=
  let d := s.dispatch
  if settings.insertReplace then
    d.text.insert cwd d.position.y settings.attributes s.text d.position.x s.columnLimit
  else d.text.replace cwd d.position.y settings.attributes s.text d.position.x s.columnLimit

omit [DecidableEq α] in
/-- What follows a write that has left `text` and `state`. -/
def advance (text : TextBuffer α) (state : RowWriteResult) : PrintStep α size :=
  let columnBegin := s.dispatch.position.x
  let isWrapping := s.columnLimit ≤ state.columnEnd
  let x : ℤ := if isWrapping then s.columnLimit - 1 else state.columnEnd
  let d := s.dispatch.withCursor text ⟨x, s.dispatch.position.y⟩
  let discards := isWrapping && state.text = s.text && (columnBegin = 0 || !settings.wrapAtEOL)
  let rest := if discards then state.text.drop (cwd.next state.text 0 0).1 else state.text
  let d := if isWrapping && settings.wrapAtEOL then { d with delayedAt := some d.position } else d
  { before := s, after := { s with dispatch := d, text := rest }, discards }

/-- One iteration. -/
def iterate : Except WriteCellsError (PrintStep α size) := do
  let s ← s.wrapDelayed settings cwd
  let (text, state) ← (s.write settings cwd).mapError .buffer
  .ok (s.advance settings cwd text state)

/-- The loop, with what its iterations did and the exception that has ended it; nothing, if it takes more iterations. -/
def run (s : PrintLoop α size) : ℕ → Option (List (PrintStep α size) × PrintLoop α size × Option WriteCellsError)
  | 0 => none
  | fuel + 1 =>
    if s.text.isEmpty then some ([], s, none)
    else
      match s.iterate settings cwd with
      | .error e => some ([], s, some e)
      | .ok step => (step.after.run fuel).map fun rest => (step :: rest.1, rest.2)

end PrintLoop

/-! ### Positions -/

namespace PrintDispatch

variable {d d' : PrintDispatch α size}

/-- The page is one column wide, and the cursor is below the margins while the last row is double-width. -/
def Stuck (d : PrintDispatch α size) : Prop :=
  size.width = 1 ∧ d.box.bottom + d.top < d.position.y ∧
    (d.text.getRow (d.top + size.height - 1)).lineRendition ≠ .singleWidth

instance (d : PrintDispatch α size) : Decidable d.Stuck := inferInstanceAs (Decidable (_ ∧ _))

/-- The line feeds that go down before one scrolls or stays on the last row. -/
def rowsToGo (d : PrintDispatch α size) : ℕ :=
  (if d.position.y ≤ d.box.bottom + d.top then d.box.bottom + d.top - d.position.y
    else d.top + size.height - 1 - d.position.y).toNat

lemma OnPage.exists_row (h : d.OnPage) : ∃ y : ℕ, d.position.y = y ∧ y < d.text.height := by
  have hfirst := h.first
  have hlast := h.last
  have hinside := h.inside
  obtain ⟨y, hy⟩ := Int.eq_ofNat_of_zero_le (show 0 ≤ d.position.y by omega)
  exact ⟨y, hy, by omega⟩

/-- The width of the cursor's line. -/
lemma OnPage.lineWidth (h : d.OnPage) : (d.text.getLineWidth d.position.y = size.width ∨
    d.text.getLineWidth d.position.y = (size.width / 2 : ℕ) ∧
      ∀ y : ℕ, d.position.y = y → (d.text.getRow y).lineRendition ≠ .singleWidth) := by
  obtain ⟨y, hy, hlt⟩ := h.exists_row
  rw [hy, getLineWidth_eq d.text hlt, h.width]
  split
  · exact .inl rfl
  · next hdouble =>
    refine .inr ⟨rfl, fun z hz => ?_⟩
    rw [← Int.ofNat_inj.mp hz]
    exact hdouble

lemma OnPage.rowsToGo_le (h : d.OnPage) : d.rowsToGo ≤ size.height := by
  have hfirst := h.first
  have hlast := h.last
  have hbottom := d.box.bottom_lt
  unfold rowsToGo
  split <;> omega

lemma feedColumn_cases (d : PrintDispatch α size) : d.feedColumn true = 0 ∨
    d.feedColumn true = d.box.left ∧ 0 < d.box.left ∧ d.position.y ≤ d.box.bottom + d.top := by
  have hleft := d.box.left_nonneg
  have hreturn : d.feedColumn true = if d.box.top + d.top ≤ d.position.y ∧ d.position.y ≤ d.box.bottom + d.top ∧
    d.box.left ≤ d.position.x then d.box.left else 0 := rfl
  rw [hreturn]
  split <;> omega

/-- A line feed leaves the cursor in the first column, or with two columns before the margin, or goes down. -/
lemma Fed.progress {viewportMoved : Bool} (hfed : Fed d d' (d.feedColumn true) viewportMoved) (h : d.OnPage)
    (hfree : ¬d.Stuck) :
    (d'.position.x = 0 ∨ 0 ≤ d'.position.x ∧ d'.position.x < d'.box.right ∧ d'.position.y = d'.box.bottom + d'.top ∧
        d'.text.getLineWidth d'.position.y = size.width) ∨
      d'.rowsToGo < d.rowsToGo := by
  have hwidth := size.width_pos
  have hcolumn := feedColumn_cases d
  have hfirst := h.first
  have hlast := h.last
  have hbox := hfed.box
  have hright := d.box.right_lt
  have hleft := d.box.left_le
  by_cases hmoves : d.Moves (d.feedColumn true)
  · obtain ⟨rfl, hrows, hy, hx⟩ := hfed.moves hmoves
    have htop : d'.top = d.top := hfed.top
    have hdown : d.position.y ≠ d.box.bottom + d.top → d.position.y < d.top + size.height - 1 →
        d'.rowsToGo < d.rowsToGo := by
      intro hne hlt
      unfold rowsToGo
      rw [hbox, htop, hy]
      have hbottom := d.box.bottom_lt
      split_ifs <;> omega
    rcases hcolumn with hzero | ⟨hmargin, hpos, hinside⟩
    · rw [hzero] at hx hmoves
      by_cases hroom : 1 ≤ d'.text.getLineWidth d'.position.y
      · left
        left
        omega
      · right
        -- a line without columns: half of a page that is one column wide
        rcases hfed.page.lineWidth with hsingle | ⟨hdouble, hrow⟩
        · omega
        have hone : size.width = 1 := by omega
        have hne : d.position.y ≠ d.box.bottom + d.top := by
          unfold Moves at hmoves
          have hnonneg := d.box.left_nonneg
          omega
        refine hdown hne ?_
        by_contra hlow
        have hbottom := d.box.bottom_lt
        have hinside := h.inside
        have hlastRow := hrow (d.top + size.height - 1) (by omega)
        rw [hrows _ (by omega)] at hlastRow
        exact hfree ⟨hone, by omega, hlastRow⟩
    · right
      have hbottom := d.box.bottom_lt
      unfold Moves at hmoves
      exact hdown (by omega) (by omega)
  · left
    obtain ⟨hposition, hline⟩ := hfed.scrolls hmoves
    have hx : d'.position.x = d.feedColumn true := congrArg Types.Point.x hposition
    have hy : d'.position.y = d'.box.bottom + d'.top := congrArg Types.Point.y hposition
    rcases hcolumn with hzero | ⟨hmargin, hpos, -⟩
    · left
      omega
    · right
      have hlt := ScrollMargins.box_left_lt (.inl hpos : 0 < d.box.left ∨ d.box.right < size.width - 1)
      change d.box.left < d.box.right at hlt
      rw [hx, hbox]
      exact ⟨by omega, by omega, hbox ▸ hy, hline⟩

/-- Reading the margins again leaves the dispatcher where it is. -/
lemma Fed.readMargins {viewportMoved : Bool} {newX : ℤ} (hfed : Fed d d' newX viewportMoved) {m : ScrollMargins}
    (hbox : m.box size = d'.box) : Fed d { d' with scrollMargins := m } newX viewportMoved := by
  have hbox' : ({ d' with scrollMargins := m } : PrintDispatch α size).box = d'.box := hbox
  have hscrolls := hfed.scrolls
  have hpage := hfed.page
  rw [← hbox'] at hscrolls
  exact ⟨⟨hpage.width, hpage.inside, hpage.firstRow, hpage.uniform, hpage.first, hpage.last⟩, hbox'.trans hfed.box,
    hfed.top, hfed.moves, hscrolls⟩

/-- A page that was not stuck is not stuck behind a line feed. -/
lemma Fed.free {viewportMoved : Bool} (hfed : Fed d d' (d.feedColumn true) viewportMoved) (h : d.OnPage)
    (hfree : ¬d.Stuck) : ¬d'.Stuck := by
  rintro ⟨hone, hbelow, hrow⟩
  rw [hfed.box, hfed.top] at hbelow
  by_cases hmoves : d.Moves (d.feedColumn true)
  · obtain ⟨rfl, hrows, hy, hx⟩ := hfed.moves hmoves
    have htop : d'.top = d.top := hfed.top
    have hinside := h.inside
    have hpos := size.height_pos
    rw [htop, hrows _ (by omega)] at hrow
    refine hfree ⟨hone, ?_, hrow⟩
    have hnonneg := d.box.left_nonneg
    have hle := d.box.left_le
    have hlt := d.box.right_lt
    have hcolumn := feedColumn_cases d
    have hne : d.position.y ≠ d.box.bottom + d.top := by
      unfold Moves at hmoves
      omega
    change _ < d'.position.y at hbelow
    simp only [Bool.toNat_false, Nat.add_zero] at hbelow
    omega
  · obtain ⟨hposition, -⟩ := hfed.scrolls hmoves
    have hy : d'.position.y = d'.box.bottom + d'.top := congrArg Types.Point.y hposition
    rw [hfed.box, hfed.top] at hy
    omega

end PrintDispatch

/-! ### What an iteration does -/

/-- The iterations from `s` on, up to `last`: each acts on a delayed wrap, which leaves the text alone, and goes on with
what the one before it has left. -/
def Follows [DecidableEq α] (settings : PrintSettings α) (cwd : Clustering) (s : PrintLoop α size) :
    List (PrintStep α size) → PrintLoop α size → Prop
  | [], last => s = last
  | step :: log, last => s.wrapDelayed settings cwd = .ok step.before ∧ step.before.text = s.text ∧
      Follows settings cwd step.after log last

/-- A step takes the front of the text.  It discards one cluster only: without autowrap one that does not fit into the
rest of the line, or one that is wider than the whole line. -/
structure PrintStep.Sound (cwd : Clustering) (wrapAtEOL : Bool) (step : PrintStep α size) : Prop where
  rest : step.after.text <:+ step.before.text
  discards : step.discards = true → step.after.text = step.before.text.drop (cwd.next step.before.text 0 0).1 ∧
    (wrapAtEOL = false ∧ step.before.columnLimit - max step.before.dispatch.position.x 0 <
        (max 1 (cwd.next step.before.text 0 0).2 : ℕ) ∨
      step.before.dispatch.text.getLineWidth step.before.dispatch.position.y <
        (max 1 (cwd.next step.before.text 0 0).2 : ℕ))

namespace PrintLoop

/-- The cursor's row. -/
def row (s : PrintLoop α size) : Row α := s.dispatch.text.getRowByOffset s.dispatch.position.y

/-- The columns a write begins and ends at, inside the row. -/
def column (s : PrintLoop α size) : ℕ := min s.dispatch.position.x.toNat s.dispatch.text.width
def limit (s : PrintLoop α size) : ℕ := min s.columnLimit.toNat s.dispatch.text.width

/-- A write into a row of these glyphs throws nothing: the row gets no text it has no room for, a cluster that joins the
glyph before the cursor does not end before it, and nothing is inserted to the left of the page. -/
structure Fits (settings : PrintSettings α) (cwd : Clustering) (s : PrintLoop α size) (gs : List Glyph) : Prop where
  room : units (written cwd gs s.column s.limit s.text) < 0x8000
  joined : s.column ≤ writtenEnd cwd gs s.column s.limit s.text
  inserts : settings.insertReplace = true → 0 ≤ s.dispatch.position.x ∧
    2 * units (written cwd gs s.column s.limit s.text) + units gs + 4 * s.dispatch.text.width < 0x8000

/-- The next iteration wraps. -/
def Waits (settings : PrintSettings α) (s : PrintLoop α size) : Prop :=
  settings.wrapAtEOL = true ∧ s.dispatch.delayedAt = some s.dispatch.position

instance (settings : PrintSettings α) (s : PrintLoop α size) : Decidable (s.Waits settings) :=
  inferInstanceAs (Decidable (_ ∧ _))

/-- The next iteration throws nothing. -/
def HasRoom [DecidableEq α] (settings : PrintSettings α) (cwd : Clustering) (s : PrintLoop α size) : Prop :=
  s.text ≠ [] → (s.Waits settings → Short s.dispatch.text) ∧
    ∀ s' gs, s.wrapDelayed settings cwd = .ok s' → s'.row.Holds gs → s'.Fits settings cwd gs

end PrintLoop

/-- **What a step writes**: no row but the cursor's changes, and this one has what has been taken of the text, behind the
glyphs before the cursor.  A step that discards a glyph takes nothing else. -/
def PrintStep.Writes (cwd : Clustering) (insertReplace : Bool) (step : PrintStep α size) : Prop :=
  ∃ gs gs' r, step.before.row.Holds gs ∧ r.Holds gs' ∧
    step.after.dispatch.text = (step.before.dispatch.text.setRowByOffset step.before.dispatch.position.y r).setPosition
      step.after.dispatch.position ∧
    Printed cwd insertReplace gs step.before.column step.before.limit step.before.text
      (if step.discards then step.before.text else step.after.text) gs'

namespace PrintLoop

/-- What holds between iterations. -/
structure Inv (s : PrintLoop α size) : Prop where
  page : s.dispatch.OnPage
  topMargin : (s.topMargin : ℤ) = s.dispatch.box.top + s.dispatch.top
  bottomMargin : s.bottomMargin = s.dispatch.box.bottom + s.dispatch.top
  rightMargin : s.rightMargin = s.dispatch.box.right
  nonneg : 0 ≤ s.columnLimit
  limit_le : s.columnLimit ≤ s.dispatch.text.getLineWidth s.dispatch.position.y
  narrow : s.columnLimit = s.dispatch.text.getLineWidth s.dispatch.position.y ∨ 2 ≤ s.columnLimit

/-- In the first column, or with room for a wide glyph, some of the text goes away. -/
def Ready (s : PrintLoop α size) : Prop :=
  s.dispatch.position.x = 0 ∨ 0 ≤ s.dispatch.position.x ∧ 2 ≤ s.columnLimit - s.dispatch.position.x

section Iterations

variable {settings : PrintSettings α} {cwd : Clustering} {s s' : PrintLoop α size} {d : PrintDispatch α size}

lemma columnLimit_bounds (h : d.OnPage) (c : Prop) [Decidable c] {limit : ℤ}
    (hlimit : limit = if c then min (d.text.getLineWidth d.position.y) (d.box.right + 1)
      else d.text.getLineWidth d.position.y) :
    0 ≤ limit ∧ limit ≤ d.text.getLineWidth d.position.y ∧
      (limit = d.text.getLineWidth d.position.y ∨ 2 ≤ limit) := by
  have hwidth := h.lineWidth
  have hnonneg := d.box.left_nonneg
  have hle := d.box.left_le
  have hlt := d.box.right_lt
  have hmargins : d.box.right < size.width - 1 → d.box.left < d.box.right := fun hnarrow =>
    ScrollMargins.box_left_lt (.inr hnarrow)
  have hline : 0 ≤ d.text.getLineWidth d.position.y ∧ d.text.getLineWidth d.position.y ≤ size.width := by omega
  rw [hlimit]
  split <;> omega

lemma start_inv (h : d.OnPage) (string : List UInt16) :
    (start d string).Inv ∧ (start d string).text = string ∧ (start d string).dispatch.box = d.box ∧
      (start d string).dispatch.text = d.text ∧ (start d string).dispatch.top = d.top := by
  obtain ⟨htop, hbottom⟩ := @PrintDispatch.getVerticalMargins_frame _ _ d
  obtain ⟨-, hright⟩ := PrintDispatch.getHorizontalMargins_frame h.width
  have hbox : (((d.scrollMargins.getVerticalMargins d.frame true).1.getHorizontalMargins d.text.width).1).box size =
      d.box := by
    show (((d.scrollMargins.resetVertical d.frame).resetHorizontal d.text.width)).box size = d.box
    rw [h.width, ScrollMargins.box_resetHorizontal, PrintDispatch.resetVertical_frame, ScrollMargins.box_resetVertical]
    rfl
  have hpage : (start d string).dispatch.OnPage :=
    ⟨h.width, h.inside, h.firstRow, h.uniform, h.first, h.last⟩
  have hbox' : (start d string).dispatch.box = d.box := hbox
  have hright' : (start d string).rightMargin = d.box.right := hright
  have hlimit : (start d string).columnLimit = if d.position.x ≤ (start d string).rightMargin ∧
      ((start d string).topMargin : ℤ) ≤ d.position.y ∧ d.position.y ≤ (start d string).bottomMargin
      then min (d.text.getLineWidth d.position.y) ((start d string).dispatch.box.right + 1)
      else d.text.getLineWidth d.position.y := by
    rw [hbox', ← hright']
    rfl
  obtain ⟨hnonneg, hle, hnarrow⟩ := columnLimit_bounds hpage _ hlimit
  refine ⟨⟨hpage, ?_, ?_, ?_, hnonneg, hle, hnarrow⟩, rfl, hbox', rfl, rfl⟩
  · rw [hbox']
    exact htop
  · rw [hbox']
    exact hbottom
  · rw [hbox']
    exact hright

variable [DecidableEq α]

/-- **The line feed of a delayed wrap.** -/
lemma wrapLine_spec (hs : s.Inv) (hok : s.wrapLine settings cwd = .ok s') :
    s'.Inv ∧ s'.text = s.text ∧ ∃ viewportMoved,
      PrintDispatch.Fed s.dispatch s'.dispatch (s.dispatch.feedColumn true) viewportMoved ∧
        (s'.dispatch.position.y = s'.dispatch.box.bottom + s'.dispatch.top → s'.columnLimit =
          min (s'.dispatch.text.getLineWidth s'.dispatch.position.y) (s'.dispatch.box.right + 1)) := by
  obtain ⟨⟨d, viewportMoved⟩, hfeed, hok⟩ := ok_of_bind hok
  have hfed := PrintDispatch.doLineFeed_fed hs.page hfeed
  obtain ⟨m, topMargin, bottomMargin, hread, hbox, htop, hbottom⟩ :
      ∃ (m : ScrollMargins) (topMargin : ℕ) (bottomMargin : ℤ), (if viewportMoved then d.scrollMargins.getVerticalMargins d.frame true
        else (d.scrollMargins, s.topMargin, s.bottomMargin)) = (m, topMargin, bottomMargin) ∧ m.box size = d.box ∧
      (topMargin : ℤ) = d.box.top + d.top ∧ bottomMargin = d.box.bottom + d.top := by
    cases viewportMoved with
    | false =>
      have htop : d.top = s.dispatch.top := hfed.top
      refine ⟨d.scrollMargins, s.topMargin, s.bottomMargin, rfl, rfl, ?_, ?_⟩
      · rw [hfed.box, htop]
        exact hs.topMargin
      · rw [hfed.box, htop]
        exact hs.bottomMargin
    | true =>
      obtain ⟨htop, hbottom⟩ := @PrintDispatch.getVerticalMargins_frame _ _ d
      refine ⟨_, _, _, rfl, ?_, htop, hbottom⟩
      show (d.scrollMargins.resetVertical d.frame).box size = d.box
      rw [PrintDispatch.resetVertical_frame, ScrollMargins.box_resetVertical]
      rfl
  dsimp only at hok
  rw [hread] at hok
  cases hok
  have hfed' := hfed.readMargins hbox
  have hbox' : ({ d with scrollMargins := m } : PrintDispatch α size).box = d.box := hbox
  have hright : s.rightMargin = ({ d with scrollMargins := m } : PrintDispatch α size).box.right := by
    rw [hs.rightMargin, hfed'.box]
  obtain ⟨hnonneg, hle, hnarrow⟩ := @columnLimit_bounds _ _ _ hfed'.page
    ((topMargin : ℤ) ≤ d.position.y ∧ d.position.y ≤ bottomMargin) _ _ (by rw [← hright])
  refine ⟨⟨hfed'.page, ?_, ?_, hright, hnonneg, hle, hnarrow⟩, rfl, viewportMoved, hfed', fun hy => ?_⟩
  · rw [hbox']
    exact htop
  · rw [hbox']
    exact hbottom
  · have hle := d.box.top_le
    change d.position.y = ({ d with scrollMargins := m } : PrintDispatch α size).box.bottom + d.top at hy
    rw [hbox'] at hy
    dsimp only
    rw [if_pos ⟨by omega, by omega⟩, hright]
    rfl

omit [DecidableEq α] in
lemma Inv.resetDelay (hs : s.Inv) :
    ({ s with dispatch := { s.dispatch with delayedAt := none } } : PrintLoop α size).Inv :=
  have hpage := hs.page
  ⟨⟨hpage.width, hpage.inside, hpage.firstRow, hpage.uniform, hpage.first, hpage.last⟩, hs.topMargin, hs.bottomMargin,
    hs.rightMargin, hs.nonneg, hs.limit_le, hs.narrow⟩

/-- **The delayed wrap** makes room for some of the text, or the cursor goes down. -/
lemma wrapDelayed_spec (hs : s.Inv) (hfree : settings.wrapAtEOL = true → ¬s.dispatch.Stuck)
    (hok : s.wrapDelayed settings cwd = .ok s') :
    s'.Inv ∧ s'.text = s.text ∧ (settings.wrapAtEOL = true → ¬s'.dispatch.Stuck) ∧
      (s.Waits settings → s'.Ready ∨ s'.dispatch.rowsToGo < s.dispatch.rowsToGo) := by
  unfold wrapDelayed at hok
  split at hok
  · next hnone =>
    cases hok
    refine ⟨hs, rfl, hfree, fun hwaits => ?_⟩
    rw [hwaits.2] at hnone
    cases hnone
  · next position hdelayed =>
    by_cases hwrap : settings.wrapAtEOL = true
    swap
    · rw [if_neg hwrap] at hok
      cases hok
      exact ⟨hs, rfl, hfree, fun hwaits => absurd hwaits.1 hwrap⟩
    rw [if_pos hwrap] at hok
    have hs₁ := hs.resetDelay
    dsimp only at hok
    split at hok
    · obtain ⟨hs', htext, viewportMoved, hfed, hlimit⟩ := wrapLine_spec hs₁ hok
      refine ⟨hs', htext, fun _ => hfed.free hs₁.page (hfree hwrap), fun _ => ?_⟩
      refine (hfed.progress hs₁.page (hfree hwrap)).imp ?_ id
      rintro (hzero | ⟨hnonneg, hlt, hrow, hline⟩)
      · exact .inl hzero
      · have hright := s'.dispatch.box.right_lt
        rw [hline] at hlimit
        exact .inr ⟨hnonneg, by rw [hlimit hrow]; omega⟩
    · next hleft =>
      cases hok
      refine ⟨hs₁, rfl, hfree, fun hwaits => ?_⟩
      rw [hwaits.2] at hdelayed
      exact absurd (Option.some.inj hdelayed).symm hleft

lemma wrapDelayed_error (hs : s.Inv) {error : WriteCellsError} (hok : s.wrapDelayed settings cwd = .error error) :
    error ≠ .buffer .unfinished := by
  unfold wrapDelayed at hok
  split at hok
  · cases hok
  split at hok
  · dsimp only at hok
    split at hok
    · rcases error_of_bind hok with hfeed | ⟨fed, -, hok⟩
      · exact PrintDispatch.doLineFeed_error hs.resetDelay.page hfeed
      · cases hok
    · cases hok
  · cases hok

omit [DecidableEq α] in
/-- What a write takes of the text. -/
lemma write_takes (hm : cwd.MeasuresAscii) (hwidth : size.width < 0x8000) (h : s.dispatch.OnPage) {text : TextBuffer α}
    {state : RowWriteResult} (hok : s.write settings cwd = .ok (text, state)) :
    TextBuffer.Wrote s.dispatch.text text ∧ Takes cwd s.text (min s.dispatch.position.x.toNat s.dispatch.text.width)
      (min s.columnLimit.toNat s.dispatch.text.width) state := by
  have hpos : 0 < s.dispatch.text.height := Nat.zero_lt_of_lt h.firstRow
  have hwidth' : s.dispatch.text.width < 0x8000 := h.width ▸ hwidth
  unfold write at hok
  dsimp only at hok
  split at hok
  · exact TextBuffer.insert_takes hm h.uniform hpos hwidth' hok
  · exact TextBuffer.replace_takes hm h.uniform hpos hwidth' hok

omit [DecidableEq α] in
/-- Only the text of the cursor's row and its column change. -/
lemma advance_dispatch (s : PrintLoop α size) (text : TextBuffer α) (state : RowWriteResult) : ∃ x delayedAt,
    (s.advance settings cwd text state).after = { s with
      dispatch := { s.dispatch.withCursor text ⟨x, s.dispatch.position.y⟩ with delayedAt }
      text := (s.advance settings cwd text state).after.text } := by
  unfold advance
  dsimp only
  split
  · exact ⟨_, _, rfl⟩
  · exact ⟨_, _, rfl⟩

omit [DecidableEq α] in
lemma advance_inv (settings : PrintSettings α) (cwd : Clustering) {text : TextBuffer α} (hs : s.Inv)
    (hwrote : TextBuffer.Wrote s.dispatch.text text) (state : RowWriteResult) :
    (s.advance settings cwd text state).after.Inv ∧
      ((s.advance settings cwd text state).after.dispatch.Stuck ↔ s.dispatch.Stuck) ∧
      (s.advance settings cwd text state).after.dispatch.rowsToGo = s.dispatch.rowsToGo := by
  obtain ⟨x, delayedAt, hadvance⟩ := @advance_dispatch _ _ settings cwd s text state
  rw [hadvance]
  have hpage := hs.page
  obtain ⟨y, hy, hlt⟩ := hpage.exists_row
  have hwidth : text.width = s.dispatch.text.width := by rw [hwrote.keeps.same]
  have hline : text.getLineWidth s.dispatch.position.y = s.dispatch.text.getLineWidth s.dispatch.position.y := by
    rw [hy]
    exact getLineWidth_congr hwidth hwrote.keeps.height hlt (hwrote.keeps.lineRendition y hlt)
  have hfirstRow : text.firstRow < s.dispatch.text.height := by
    rw [hwrote.keeps.same]
    exact hpage.firstRow
  have hpage' := @PrintDispatch.OnPage.withCursor _ _ _ _ hpage s.dispatch.scrollMargins s.dispatch.top
    ⟨x, s.dispatch.position.y⟩ hwidth hwrote.keeps.height hfirstRow hwrote.uniform hpage.inside hpage.first hpage.last
  refine ⟨⟨⟨hpage'.width, hpage'.inside, hpage'.firstRow, hpage'.uniform, hpage'.first, hpage'.last⟩, hs.topMargin,
    hs.bottomMargin, hs.rightMargin, hs.nonneg, hs.limit_le.trans_eq hline.symm, ?_⟩, ?_, rfl⟩
  · exact hs.narrow.imp (fun hlimit => hlimit.trans hline.symm) id
  · have hinside := hpage.inside
    have hpos := size.height_pos
    have hlast := hwrote.keeps.lineRendition (s.dispatch.top + size.height - 1) (by omega)
    show size.width = 1 ∧ _ ∧ (text.getRow (s.dispatch.top + size.height - 1)).lineRendition ≠ .singleWidth ↔ _
    rw [hlast]
    rfl

omit [DecidableEq α] in
lemma advance_discards (s : PrintLoop α size) (text : TextBuffer α) (state : RowWriteResult) :
    (s.advance settings cwd text state).discards = (decide (s.columnLimit ≤ state.columnEnd) &&
      decide (state.text = s.text) && (decide (s.dispatch.position.x = 0) || !settings.wrapAtEOL)) := rfl

omit [DecidableEq α] in
lemma advance_rest (s : PrintLoop α size) (text : TextBuffer α) (state : RowWriteResult) :
    (s.advance settings cwd text state).after.text = if (s.advance settings cwd text state).discards then
      state.text.drop (cwd.next state.text 0 0).1 else state.text := rfl

omit [DecidableEq α] in
/-- **What an iteration does with its text**: some of it goes away, or the loop waits. -/
lemma advance_spec (settings : PrintSettings α) (text : TextBuffer α) {state : RowWriteResult} (hs : s.Inv)
    (htext : s.text ≠ []) (htakes : Takes cwd s.text (min s.dispatch.position.x.toNat s.dispatch.text.width)
      (min s.columnLimit.toNat s.dispatch.text.width) state) :
    (s.advance settings cwd text state).Sound cwd settings.wrapAtEOL ∧
      ((s.advance settings cwd text state).after.text.length < s.text.length ∨
        (s.advance settings cwd text state).after.Waits settings ∧ ¬s.Ready ∧
          (s.advance settings cwd text state).after.text = s.text) := by
  have hpage := hs.page
  have hwidth := hpage.width
  have hline := hpage.lineWidth
  have hlimit := hs.limit_le
  have hnonneg := hs.nonneg
  have hglyph := cwd.next_width s.text 0 0
  by_cases hsame : state.text = s.text
  swap
  · -- some of the text has been written
    have hdiscards : (s.advance settings cwd text state).discards = false := by
      rw [advance_discards, decide_eq_false hsame, Bool.and_false, Bool.false_and]
    have hrest : (s.advance settings cwd text state).after.text = state.text := by
      rw [advance_rest, hdiscards]
      rfl
    refine ⟨⟨hrest ▸ htakes.rest, fun htrue => ?_⟩, .inl ?_⟩
    · rw [hdiscards] at htrue
      cases htrue
    · rw [hrest]
      exact lt_of_le_of_ne htakes.rest.length_le fun hlength => hsame (htakes.rest.eq_of_length hlength)
  have hroom := htakes.stays hsame htext
  have hwraps : s.columnLimit ≤ state.columnEnd := by
    have hfull := htakes.full (hsame ▸ htext)
    omega
  by_cases hdrop : s.dispatch.position.x = 0 ∨ settings.wrapAtEOL = false
  · have hdiscards : (s.advance settings cwd text state).discards = true := by
      rw [advance_discards, decide_eq_true hwraps, decide_eq_true hsame]
      rcases hdrop with hzero | hoff
      · rw [decide_eq_true hzero]
        rfl
      · rw [hoff, Bool.not_false, Bool.or_true]
        rfl
    have hrest : (s.advance settings cwd text state).after.text = s.text.drop (cwd.next s.text 0 0).1 := by
      rw [advance_rest, hdiscards, hsame]
      rfl
    have hpos := cwd.next_pos s.text 0 0 (List.length_pos_iff.mpr htext)
    have hlength := List.length_pos_iff.mpr htext
    refine ⟨⟨hrest ▸ List.drop_suffix _ _, fun _ => ⟨hrest, ?_⟩⟩, .inl ?_⟩
    · show settings.wrapAtEOL = false ∧
        s.columnLimit - max s.dispatch.position.x 0 < (max 1 (cwd.next s.text 0 0).2 : ℕ) ∨
        s.dispatch.text.getLineWidth s.dispatch.position.y < (max 1 (cwd.next s.text 0 0).2 : ℕ)
      rcases hdrop with hzero | hoff
      · right
        have hnarrow := hs.narrow
        omega
      · left
        exact ⟨hoff, by omega⟩
    · rw [hrest, List.length_drop]
      omega
  · rw [not_or, Bool.not_eq_false] at hdrop
    have hdiscards : (s.advance settings cwd text state).discards = false := by
      rw [advance_discards, decide_eq_false hdrop.1, hdrop.2]
      simp
    have hrest : (s.advance settings cwd text state).after.text = s.text := by
      rw [advance_rest, hdiscards]
      exact hsame
    refine ⟨⟨hrest ▸ List.suffix_rfl, fun htrue => ?_⟩, .inr ⟨?_, ?_, hrest⟩⟩
    · rw [hdiscards] at htrue
      cases htrue
    · refine ⟨hdrop.2, ?_⟩
      unfold advance
      dsimp only
      rw [if_pos (by rw [decide_eq_true hwraps, hdrop.2]; rfl)]
      rfl
    · rintro (hzero | ⟨hfirst, hready⟩)
      · exact hdrop.1 hzero
      · omega

/-- The iterations that are left, at most. -/
def potential (settings : PrintSettings α) (s : PrintLoop α size) : ℕ :=
  s.text.length * (size.height + 2) + if s.Waits settings then s.dispatch.rowsToGo else size.height + 1

/-- **One iteration.** -/
theorem iterate_spec (hm : cwd.MeasuresAscii) (hwidth : size.width < 0x8000) (hs : s.Inv)
    (hfree : settings.wrapAtEOL = true → ¬s.dispatch.Stuck) (htext : s.text ≠ []) {step : PrintStep α size}
    (hok : s.iterate settings cwd = .ok step) :
    step.after.Inv ∧ (settings.wrapAtEOL = true → ¬step.after.dispatch.Stuck) ∧
      s.wrapDelayed settings cwd = .ok step.before ∧ step.before.text = s.text ∧ step.Sound cwd settings.wrapAtEOL ∧
      step.after.potential settings < s.potential settings := by
  obtain ⟨s₁, hwrapped, hok⟩ := ok_of_bind hok
  obtain ⟨hs₁, htext₁, hfree₁, hready⟩ := wrapDelayed_spec hs hfree hwrapped
  obtain ⟨⟨text, state⟩, hwrote, hok⟩ := ok_of_bind hok
  have hpage := hs₁.page
  have htakes := write_takes hm hwidth hpage (mapError_eq_ok hwrote)
  obtain ⟨hs', hfree', hrows⟩ := advance_inv settings cwd hs₁ htakes.1 state
  obtain ⟨hsound, hprogress⟩ := advance_spec settings text hs₁ (htext₁ ▸ htext) htakes.2
  have hbefore : (s₁.advance settings cwd text state).before = s₁ := rfl
  have hstep : s₁.advance settings cwd text state = step := Except.ok.inj hok
  rw [hstep] at hs' hfree' hrows hsound hprogress hbefore
  refine ⟨hs', fun hwrap => mt hfree'.mp (hfree₁ hwrap), hbefore ▸ hwrapped, hbefore ▸ htext₁, hsound, ?_⟩
  have hrows' := hs'.page.rowsToGo_le
  have hle := hpage.rowsToGo_le
  unfold potential
  rcases hprogress with hless | ⟨hwaits, hready', hsame⟩
  · have hmul := Nat.mul_le_mul_right (size.height + 2) (show step.after.text.length + 1 ≤ s.text.length by
      rw [← htext₁]
      exact hless)
    rw [Nat.add_one_mul] at hmul
    split <;> omega
  · rw [hsame.trans htext₁, if_pos hwaits]
    by_cases hwait : s.Waits settings
    · rw [if_pos hwait]
      have hless := (hready hwait).resolve_left hready'
      omega
    · rw [if_neg hwait]
      omega

lemma iterate_error (hs : s.Inv) {error : WriteCellsError} (hok : s.iterate settings cwd = .error error) :
    error ≠ .buffer .unfinished := by
  rcases error_of_bind hok with hwrapped | ⟨s₁, -, hok⟩
  · exact wrapDelayed_error hs hwrapped
  rcases error_of_bind hok with hwritten | ⟨wrote, -, hok⟩
  · refine mapError_error hwritten fun e he => ?_
    unfold write at he
    dsimp only at he
    split at he
    · exact TextBuffer.insert_error he
    · exact TextBuffer.replace_error he
  · cases hok

/-- The delayed wrap throws nothing where the rows that its line feed copies are short. -/
lemma wrapDelayed_content (settings : PrintSettings α) (cwd : Clustering) (hs : s.Inv)
    (hcontent : Content s.dispatch.text) (hshort : s.Waits settings → Short s.dispatch.text) :
    ∃ s', s.wrapDelayed settings cwd = .ok s' ∧ Content s'.dispatch.text := by
  have hpage := hs.page
  unfold wrapDelayed
  split
  · exact ⟨s, rfl, hcontent⟩
  · next position hdelayed =>
    split
    · next hwrap =>
      dsimp only
      split
      · next hat =>
        obtain ⟨d, viewportMoved, hfeed, hcontent'⟩ := PrintDispatch.doLineFeed_content
          (d := { s.dispatch with delayedAt := none })
          ⟨hpage.width, hpage.inside, hpage.firstRow, hcontent, hshort ⟨hwrap, hat ▸ hdelayed⟩⟩ cwd
          settings.eraseAttributes true true
        exact ⟨_, bind_of_ok hfeed, hcontent'⟩
      · exact ⟨_, rfl, hcontent⟩
    · exact ⟨s, rfl, hcontent⟩

omit [DecidableEq α] in
/-- A write with room for its text. -/
lemma write_room (hwidth : size.width < 0x8000) (hpage : s.dispatch.OnPage) (hcontent : Content s.dispatch.text)
    {gs : List Glyph} (hr : s.row.Holds gs) (hfits : s.Fits settings cwd gs) : ∃ r gs' state,
      s.write settings cwd = .ok (s.dispatch.text.setRowByOffset s.dispatch.position.y r, state) ∧
        r.Full gs' s.dispatch.text.width ∧
        Printed cwd settings.insertReplace gs s.column s.limit s.text state.text gs' := by
  have hpos := Nat.zero_lt_of_lt hpage.firstRow
  have hwidth' : s.dispatch.text.width < 0x8000 := hpage.width ▸ hwidth
  obtain ⟨hroom, hjoined, hinserts⟩ := hfits
  unfold write
  dsimp only
  cases hmode : settings.insertReplace with
  | true =>
    obtain ⟨hbegin, hlonger⟩ := hinserts hmode
    exact TextBuffer.insert_puts hcontent hpos hr cwd settings.attributes hbegin rfl rfl hwidth' hlonger hjoined
  | false =>
    exact TextBuffer.replace_puts hcontent hpos hr cwd settings.attributes rfl rfl hwidth' hroom hjoined

omit [DecidableEq α] in
/-- What a write has left of the text. -/
lemma advance_left (settings : PrintSettings α) (cwd : Clustering) (s : PrintLoop α size) (text : TextBuffer α)
    (state : RowWriteResult) : (if (s.advance settings cwd text state).discards then s.text
      else (s.advance settings cwd text state).after.text) = state.text := by
  rw [advance_rest]
  split
  · next hdiscards =>
    rw [advance_discards, Bool.and_eq_true, Bool.and_eq_true, decide_eq_true_eq, decide_eq_true_eq] at hdiscards
    exact hdiscards.1.2.symm
  · rfl

/-- **One iteration with room for its text** throws nothing and writes what it takes. -/
theorem iterate_room (hwidth : size.width < 0x8000) (hs : s.Inv)
    (hfree : settings.wrapAtEOL = true → ¬s.dispatch.Stuck) (htext : s.text ≠ []) (hcontent : Content s.dispatch.text)
    (hroom : s.HasRoom settings cwd) : ∃ step, s.iterate settings cwd = .ok step ∧
      step.Writes cwd settings.insertReplace ∧ Content step.after.dispatch.text := by
  obtain ⟨hshort, hfits⟩ := hroom htext
  obtain ⟨s₁, hwrapped, hcontent₁⟩ := wrapDelayed_content settings cwd hs hcontent hshort
  obtain ⟨hs₁, -⟩ := wrapDelayed_spec hs hfree hwrapped
  have hpos := Nat.zero_lt_of_lt hs₁.page.firstRow
  obtain ⟨gs, hr⟩ := hcontent₁.rows _ (TextBuffer.index_lt hpos s₁.dispatch.position.y)
  obtain ⟨r, gs', state, hwritten, hfull, hprinted⟩ := write_room hwidth hs₁.page hcontent₁ hr (hfits s₁ gs hwrapped hr)
  obtain ⟨x, delayedAt, hadvance⟩ := @advance_dispatch _ _ settings cwd s₁
    (s₁.dispatch.text.setRowByOffset s₁.dispatch.position.y r) state
  refine ⟨_, (bind_of_ok hwrapped).trans (bind_of_ok (b := (_, state)) (by rw [hwritten]; rfl)),
    ⟨gs, gs', r, hr, hfull.holds, ?_, ?_⟩, ?_⟩
  · rw [hadvance]
    rfl
  · exact (advance_left settings cwd s₁ _ state).symm ▸ hprinted
  · rw [hadvance]
    exact PrintDispatch.content_withCursor s₁.dispatch
      (hcontent₁.setRowByOffset hpos _ ⟨gs', hfull.holds, hfull.columns, hfull.attributes⟩) _

/-- **The loop ends**, within its potential, and has gone through the text in order. -/
theorem run_ends (hm : cwd.MeasuresAscii) (hwidth : size.width < 0x8000) {fuel : ℕ} (hs : s.Inv)
    (hfree : settings.wrapAtEOL = true → ¬s.dispatch.Stuck) (hfuel : s.potential settings < fuel) :
    ∃ log last error, s.run settings cwd fuel = some (log, last, error) ∧ Follows settings cwd s log last ∧
      (∀ step ∈ log, step.Sound cwd settings.wrapAtEOL) ∧ (error = none → last.text = []) ∧
      error ≠ some (.buffer .unfinished) := by
  induction fuel generalizing s with
  | zero => omega
  | succ fuel ih =>
    unfold run
    split
    · next hempty =>
      rw [List.isEmpty_iff] at hempty
      exact ⟨[], s, none, rfl, rfl, List.forall_mem_nil _, fun _ => hempty, nofun⟩
    · next hmore =>
      rw [List.isEmpty_iff] at hmore
      cases hiterate : s.iterate settings cwd with
      | error e =>
        refine ⟨[], s, some e, rfl, rfl, List.forall_mem_nil _, nofun, ?_⟩
        intro hunfinished
        exact iterate_error hs hiterate (Option.some.inj hunfinished)
      | ok step =>
        obtain ⟨hs', hfree', hwrapped, htext, hsound, hless⟩ := iterate_spec hm hwidth hs hfree hmore hiterate
        obtain ⟨log, last, error, hrun, hfollows, hlog, hend, hfinished⟩ := ih hs' hfree' (by omega)
        refine ⟨step :: log, last, error, ?_, ⟨hwrapped, htext, hfollows⟩, ?_, hend, hfinished⟩
        · dsimp only
          rw [hrun]
          rfl
        · exact List.forall_mem_cons.mpr ⟨hsound, hlog⟩

/-- **The loop writes the text**: where every iteration has room, none throws and all of them write what they take. -/
theorem run_writes (hm : cwd.MeasuresAscii) (hwidth : size.width < 0x8000) {fuel : ℕ} (hs : s.Inv)
    (hfree : settings.wrapAtEOL = true → ¬s.dispatch.Stuck) (hcontent : Content s.dispatch.text)
    {log : List (PrintStep α size)} {last : PrintLoop α size} {error : Option WriteCellsError}
    (hrun : s.run settings cwd fuel = some (log, last, error))
    (hroom : ∀ t ∈ s :: log.map PrintStep.after, t.HasRoom settings cwd) :
    error = none ∧ ∀ step ∈ log, step.Writes cwd settings.insertReplace := by
  induction fuel generalizing s log with
  | zero => cases hrun
  | succ fuel ih =>
    unfold run at hrun
    split at hrun
    · cases hrun
      exact ⟨rfl, List.forall_mem_nil _⟩
    · next hmore =>
      rw [List.isEmpty_iff] at hmore
      obtain ⟨step, hiterate, hwrites, hcontent'⟩ := iterate_room hwidth hs hfree hmore hcontent
        (hroom s List.mem_cons_self)
      obtain ⟨hs', hfree', -⟩ := iterate_spec hm hwidth hs hfree hmore hiterate
      rw [hiterate] at hrun
      obtain ⟨⟨log', rest⟩, hrest, heq⟩ := Option.map_eq_some_iff.mp hrun
      cases heq
      obtain ⟨herror, hlog⟩ := ih hs' hfree' hcontent' hrest fun t ht => hroom t (List.mem_cons_of_mem s ht)
      exact ⟨herror, List.forall_mem_cons.mpr ⟨hwrites, hlog⟩⟩

end Iterations

end PrintLoop

end VT7.Adapter
