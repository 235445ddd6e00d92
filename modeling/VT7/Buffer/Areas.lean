import VT7.Buffer.CellStrips
import VT7.Buffer.TextBuffer
import VT7.Types.Viewport

/-!
# Areas of the text buffer

The operations of a `TextBuffer` on rows and cells: `GetCellDataAt`, `WriteLine`, `FillRect` and `ScrollRows`.  Images
and redraws are left out.

`TextBuffer.Displays` says what the cells and the attributes of all rows are; each operation has a lemma that says what
is displayed behind it.
-/

namespace VT7.Buffer

open VT7.Lib.Cells
open VT7.Types (Rect)

variable {α : Type}

namespace Row

variable (r : Row α)

def setLineRendition (lineRendition : LineRendition) : Row α := { r with lineRendition }

def replaceAttributes (beginIndex endIndex : ℕ) (newAttr : α) : Row α :=
  r.replaceAttr (r.clampedColumnInclusive beginIndex) (r.clampedColumnInclusive endIndex) newAttr

end Row

namespace TextBuffer

variable (b : TextBuffer α)

/-- `GetRowByOffset`.  An index below 0 counts from the end. -/
def getRowByOffset (index : ℤ) : Row α := b.getRow (index % b.height).toNat

/-- A change of the row `GetMutableRowByOffset` gives. -/
def setRowByOffset (index : ℤ) (row : Row α) : TextBuffer α := b.setRow (index % b.height).toNat row

/-- A row filled with whitespace and the given attributes. -/
def getScratchpadRow (attributes : α) : Row α := .create b.width attributes

def getSize : Types.Viewport := .fromDimensions ⟨0, 0⟩ b.width b.height

/-- The cell that `GetCellDataAt` points to. -/
def getCellDataAt (position : Types.Point) : Except WriteCellsError (OutputCellView α) :=
  if !b.getSize.isInBounds position then .error .invalidArgument
  else
    let row := b.getRowByOffset position.y
    .ok
      { chars := row.glyphAt position.x.toNat
        dbcsAttr := row.dbcsAttrAt position.x.toNat
        -- A row has attributes for all its columns.
        textAttr := row.attr.getD position.x.toNat b.initialAttributes
        textAttrBehavior := .stored
        position := 0 }

def writeLine [DecidableEq α] (givenIt : List (OutputCellView α)) (target : Types.Point) (wrap : Option Bool)
    (limitRight : Option ℕ) : Except WriteCellsError (TextBuffer α) :=
  if !b.getSize.isInBounds target then .ok b
  else do
    let row ← (b.getRowByOffset target.y).writeCells givenIt target.x.toNat wrap limitRight
    .ok (b.setRowByOffset target.y row)

/-- The scratchpad row, filled with copies of `fill` from `columnEnd` on. -/
def fillScratchpad (cwd : Clustering) (fill : List UInt16) (right : ℕ) :
    ℕ → (columnEnd : ℕ) → Row α → Except BufferError (Row α)
  | 0, _, _ => .error .unfinished
  | iterations + 1, columnEnd, scratchpad =>
    if columnEnd < right then do
      let (scratchpad, state) ← scratchpad.replaceText cwd
        { text := fill, columnBegin := columnEnd, columnLimit := right }
      fillScratchpad cwd fill right iterations state.columnEnd scratchpad
    else .ok scratchpad

/-- The rows from `y` on, `rest` of them, filled from the scratchpad row. -/
def fillRows (scratchpad : Row α) (attributes : α) (left right : ℕ) :
    ℕ → (y : ℤ) → TextBuffer α → Except BufferError (TextBuffer α)
  | 0, _, b => .ok b
  | rest + 1, y, b => do
    let (r, _) ← (b.getRowByOffset y).copyTextFrom
      { source := scratchpad, columnBegin := left, columnLimit := right, sourceColumnBegin := left }
    fillRows scratchpad attributes left right rest (y + 1)
      (b.setRowByOffset y (r.replaceAttributes left right attributes))

def fillRect (cwd : Clustering) (rect : Rect) (fill : List UInt16) (attributes : α) :
    Except BufferError (TextBuffer α) :=
  if !rect.isValid || fill.isEmpty then .ok b
  else do
    let left := rect.left.toNat
    let right := rect.right.toNat
    let scratchpad ← if fill ≠ [space] then
        fillScratchpad cwd fill right (right - left + 1) left (b.getScratchpadRow attributes)
      else .ok (b.getScratchpadRow attributes)
    fillRows scratchpad attributes left right rect.height.toNat rect.top b

/-- `CopyRow` within the buffer. -/
def copyRow (srcRowIndex dstRowIndex : ℤ) : Except BufferError (TextBuffer α) :=
  -- A row copied from itself stays as it is.
  if srcRowIndex % b.height = dstRowIndex % b.height then .ok b
  else do
    let row ← (b.getRowByOffset dstRowIndex).copyFrom (b.getRowByOffset srcRowIndex)
    .ok (b.setRowByOffset dstRowIndex row)

/-- The loop of `ScrollRows`, for `rest` rows. -/
def scrollRowsFrom (delta step : ℤ) : ℕ → (y : ℤ) → TextBuffer α → Except BufferError (TextBuffer α)
  | 0, _, b => .ok b
  | rest + 1, y, b => do
    let b ← b.copyRow y (y + delta)
    scrollRowsFrom delta step rest (y + step) b

def scrollRows (firstRow size delta : ℤ) : Except BufferError (TextBuffer α) :=
  if delta = 0 then .ok b
  else
    let size := max 0 size
    if delta < 0 then scrollRowsFrom delta 1 size.toNat firstRow b
    else scrollRowsFrom delta (-1) size.toNat (firstRow + size - 1) b

/-- `ResetLineRenditionRange`, from `row` on for `rest` rows. -/
def resetLineRenditionFrom : ℕ → (row : ℤ) → TextBuffer α → TextBuffer α
  | 0, _, b => b
  | rest + 1, row, b =>
    resetLineRenditionFrom rest (row + 1) (b.setRowByOffset row ((b.getRowByOffset row).setLineRendition .singleWidth))

def resetLineRenditionRange (startRow endRow : ℤ) : TextBuffer α :=
  resetLineRenditionFrom (endRow - startRow).toNat startRow b

/-! ### Cells as they are read -/

/-- The cell at a column of a row. -/
def cell (x y : ℕ) : GlyphCell := ⟨(b.getRow y).glyphAt x, ((b.getRow y).dbcsAttrAt x).half⟩

def attributes (x y : ℕ) : Option α := (b.getRow y).attr[x]?

end TextBuffer

/-- The row shows the strip `f` in `width` columns, with the attributes `g`. -/
structure Row.Displays (r : Row α) (width : ℕ) (f : ℕ → GlyphCell) (g : ℕ → Option α) : Prop where
  shows : r.Shows f
  columns : r.columnCount = width
  length : r.attr.length = width
  attributes : ∀ x, r.attr[x]? = g x

/-- A blank row. -/
lemma create_displays {defaultAttributes : α} {n : ℕ} (hn : n < 0x8000) {attr : List α} (hlength : attr.length = n) :
    ({ Row.create n defaultAttributes with attr } : Row α).Displays n (fun _ => .blank [space]) (fun x => attr[x]?) where
  shows := ⟨blanks n, (create_holds hn defaultAttributes).congr rfl rfl rfl, funext fun y => stripOf_blanks n y⟩
  columns := rfl
  length := hlength
  attributes _ := rfl

/-- The rows display these cells and attributes. -/
structure TextBuffer.Displays (b : TextBuffer α) (width height : ℕ) (cells : ℕ → ℕ → GlyphCell)
    (attrs : ℕ → ℕ → Option α) : Prop where
  width_eq : b.width = width
  height_eq : b.height = height
  rows : ∀ y < height, (b.getRow y).Displays width (cells y) (attrs y)

lemma getElem?_overwrite {β : Type} {l xs : List β} {i : ℕ} (h : i + xs.length ≤ l.length) (k : ℕ) :
    (overwrite l i xs)[k]? = if i ≤ k ∧ k < i + xs.length then xs[k - i]? else l[k]? := by
  have htake : (l.take i).length = i := by rw [List.length_take]; omega
  unfold overwrite
  rw [List.append_assoc]
  rcases Nat.lt_or_ge k i with hlt | hge
  · rw [List.getElem?_append_left (by omega), List.getElem?_take_of_lt hlt, if_neg (by omega)]
  · rw [List.getElem?_append_right (by omega), htake]
    rcases Nat.lt_or_ge k (i + xs.length) with hlt | hge'
    · rw [List.getElem?_append_left (by omega), if_pos ⟨hge, hlt⟩]
    · rw [List.getElem?_append_right (by omega), List.getElem?_drop, if_neg (by omega)]
      congr 1
      omega

lemma stripOf_text_ne_nil (gs : List Glyph) (x : ℕ) : (stripOf gs x).text ≠ [] := by
  unfold stripOf
  rw [List.getD_eq_getElem?_getD]
  cases hget : (cellsOf gs)[x]? with
  | none => exact List.cons_ne_nil _ _
  | some c =>
    obtain ⟨g, -, hc⟩ := List.mem_flatMap.mp (List.mem_of_getElem? hget)
    unfold Glyph.cells at hc
    split at hc
    · rcases List.mem_cons.mp hc with rfl | hc
      · exact g.text_ne_nil
      · rw [List.mem_singleton.mp hc]
        exact g.text_ne_nil
    · rw [List.mem_singleton.mp hc]
      exact g.text_ne_nil

/-! ### Copying rows -/

namespace TextBuffer

section CopyingRows

variable {b : TextBuffer α}

lemma copyRow_eq {v y : ℕ} (hv : v < b.height) (hy : y < b.height) (hne : v ≠ y) :
    b.copyRow v y = ((b.getRow y).copyFrom (b.getRow v)).map (b.setRow y) := by
  have hmod : ∀ u : ℕ, u < b.height → ((u : ℤ) % b.height).toNat = u := fun u hu => by
    rw [Int.emod_eq_of_lt (by omega) (by omega), Int.toNat_natCast]
  have hother : ¬((v : ℤ) % b.height = (y : ℤ) % b.height) := by
    rw [Int.emod_eq_of_lt (by omega) (by omega), Int.emod_eq_of_lt (by omega) (by omega)]
    omega
  unfold copyRow getRowByOffset setRowByOffset
  rw [if_neg hother, hmod y hy, hmod v hv]
  cases (b.getRow y).copyFrom (b.getRow v) <;> rfl

/-- **Rows are copied one after the other**, in an order in which none is overwritten before it is copied. -/
lemma scrollRowsFrom_rows {delta step y : ℤ} {rest : ℕ} {rows : ℕ → Row α}
    (hstep : step = 1 ∧ delta < 0 ∨ step = -1 ∧ 0 < delta)
    (hsource : ∀ i < rest, 0 ≤ y + i * step ∧ y + i * step < b.height)
    (htarget : ∀ i < rest, 0 ≤ y + i * step + delta ∧ y + i * step + delta < b.height)
    (hcopy : ∀ z < b.height, ∀ v < b.height, (z : ℤ) - delta = v → 0 ≤ (v - y) * step → (v - y) * step < rest →
      (b.getRow z).copyFrom (b.getRow v) = .ok (rows z)) :
    ∃ b', scrollRowsFrom delta step rest y b = .ok b' ∧ b' = { b with rows := b'.rows } ∧ ∀ z < b.height,
      (∀ v < b.height, (z : ℤ) - delta = v → 0 ≤ (v - y) * step → (v - y) * step < rest → b'.getRow z = rows z) ∧
      (¬(0 ≤ (z - delta - y) * step ∧ (z - delta - y) * step < rest) → b'.getRow z = b.getRow z) := by
  induction rest generalizing y b with
  | zero => exact ⟨b, rfl, rfl, fun z _ => ⟨fun v _ _ hlo hhi => by omega, fun _ => rfl⟩⟩
  | succ rest ih =>
    have hs := hsource 0 (by omega)
    have ht := htarget 0 (by omega)
    rw [Nat.cast_zero, Int.zero_mul, Int.add_zero] at hs ht
    obtain ⟨v, rfl⟩ := Int.eq_ofNat_of_zero_le hs.1
    obtain ⟨w, hw⟩ := Int.eq_ofNat_of_zero_le ht.1
    have hvlt : v < b.height := by omega
    have hwlt : w < b.height := by omega
    have hnext : ∀ i : ℕ, (v : ℤ) + step + i * step = v + (i + 1 : ℕ) * step := fun i => by
      rw [Nat.cast_add, Nat.cast_one, Int.add_mul, Int.one_mul]
      omega
    have hback : ∀ u : ℤ, (u - (v + step)) * step = (u - v) * step - 1 := fun u => by
      rcases hstep with ⟨rfl, -⟩ | ⟨rfl, -⟩ <;> omega
    have hfirst : b.copyRow v w = .ok (b.setRow w (rows w)) := by
      rw [copyRow_eq hvlt hwlt (by omega), hcopy w hwlt v hvlt (by omega) (by rw [Int.sub_self, Int.zero_mul])
        (by rw [Int.sub_self, Int.zero_mul]; omega)]
      rfl
    -- A row that is still to be copied is not the one that has just been written.
    have hlater : ∀ u : ℕ, 0 ≤ ((u : ℤ) - (v + step)) * step → u ≠ w := fun u hu => by
      rcases hstep with ⟨rfl, hdelta⟩ | ⟨rfl, hdelta⟩ <;> omega
    have hkept : ∀ u < b.height, u ≠ w → (b.setRow w (rows w)).getRow u = b.getRow u := fun u hu huw =>
      getRow_setRow_of_ne hwlt hu huw (rows w)
    obtain ⟨b', hrest, hsame, hrows⟩ := @ih (b.setRow w (rows w)) (v + step)
      (fun i hi => by rw [hnext]; exact hsource (i + 1) (by omega))
      (fun i hi => by rw [hnext]; exact htarget (i + 1) (by omega))
      (fun z hz u hu hzu hlo hhi => by
        have hzw : z ≠ w := fun hzw => by
          rcases hstep with ⟨rfl, hdelta⟩ | ⟨rfl, hdelta⟩ <;> omega
        rw [hkept z hz hzw, hkept u hu (hlater u hlo)]
        rw [hback] at hlo hhi
        exact hcopy z hz u hu hzu (by omega) (by omega))
    refine ⟨b', ?_, hsame, fun z hz => ⟨fun u hu hzu hlo hhi => ?_, fun hout => ?_⟩⟩
    · unfold scrollRowsFrom
      show (do
        let b ← b.copyRow v (v + delta)
        scrollRowsFrom delta step rest (v + step) b : Except BufferError (TextBuffer α)) = _
      rw [show (v : ℤ) + delta = w from hw, hfirst]
      exact hrest
    · rcases eq_or_ne u v with rfl | huv
      · have hzw : z = w := by omega
        have hzero : (z : ℤ) - delta - u = 0 := by omega
        subst hzw
        rw [(hrows z hz).2 (by rw [hback, hzero]; omega), getRow_setRow_self]
      · refine (hrows z hz).1 u hu hzu ?_ (by rw [hback]; omega)
        rw [hback]
        rcases hstep with ⟨rfl, -⟩ | ⟨rfl, -⟩ <;> omega
    · have hzw : z ≠ w := fun hzw => hout (by
        rcases hstep with ⟨rfl, -⟩ | ⟨rfl, -⟩ <;> omega)
      rw [(hrows z hz).2 (by rw [hback]; omega), hkept z hz hzw]

end CopyingRows

end TextBuffer

section Displaying

variable {b : TextBuffer α} {width height x y : ℕ} {cells : ℕ → ℕ → GlyphCell} {attrs : ℕ → ℕ → Option α}
variable {r : Row α} {f : ℕ → GlyphCell} {g : ℕ → Option α}

namespace Row.Displays

lemma fits (h : r.Displays width f g) : Fits width f := by
  rw [← h.columns]
  exact h.shows.fits

lemma cell_eq (h : r.Displays width f g) (hx : x < width) :
    (⟨r.glyphAt x, (r.dbcsAttrAt x).half⟩ : GlyphCell) = f x := by
  obtain ⟨gs, hholds, hstrip⟩ := h.shows
  rw [← hstrip]
  exact hholds.cell_eq (by rwa [h.columns])

lemma behind (h : r.Displays width f g) (hx : width ≤ x) : f x = .blank [space] := by
  obtain ⟨gs, hholds, hstrip⟩ := h.shows
  rw [← hstrip]
  exact stripOf_behind (by rwa [hholds.columns, h.columns])

lemma text_ne_nil (h : r.Displays width f g) (x : ℕ) : (f x).text ≠ [] := by
  obtain ⟨gs, -, hstrip⟩ := h.shows
  rw [← hstrip]
  exact stripOf_text_ne_nil gs x

open Finset in
lemma charSize_eq (h : r.Displays width f g) : r.charSize = ∑ x ∈ range width, weight (f x) := by
  obtain ⟨gs, hholds, hstrip⟩ := h.shows
  rw [hholds.charSize, units_eq_sum, hholds.columns, h.columns, hstrip]

/-- Columns that are written get the attribute. -/
lemma replaceAttributes (h : r.Displays width f g) {r' : Row α} {f' : ℕ → GlyphCell} (hshows : r'.Shows f')
    (hcount : r'.columnCount = width) (hattr : r'.attr = r.attr) {left right : ℕ} (hleft : left < right)
    (hright : right ≤ width) (attr : α) : (r'.replaceAttributes left right attr).Displays width f'
      (fun x => if left ≤ x ∧ x < right then some attr else g x) := by
  have hlength := h.length
  have hreplaced : (r'.replaceAttributes left right attr).attr =
      overwrite r.attr left (List.replicate (right - left) attr) := by
    unfold Row.replaceAttributes Row.replaceAttr Row.clampedColumnInclusive
    rw [hcount, Nat.min_eq_left (by omega), Nat.min_eq_left hright, hattr]
  refine ⟨?_, hcount, ?_, fun x => ?_⟩
  · obtain ⟨gs, hholds, hstrip⟩ := hshows
    exact ⟨gs, hholds.replaceAttr _ _ _, hstrip⟩
  · rw [hreplaced, length_overwrite (by rw [List.length_replicate]; omega), hlength]
  · rw [hreplaced, getElem?_overwrite (by rw [List.length_replicate]; omega), List.length_replicate,
      Nat.add_sub_cancel' hleft.le, h.attributes]
    split
    · next hin => rw [List.getElem?_replicate, if_pos (by omega)]
    · rfl

end Row.Displays

/-- An area that is not empty. -/
lemma rect_of_lt {left top right bottom : ℕ} (hleft : left < right) (htop : top < bottom) :
    (⟨left, top, right, bottom⟩ : Rect).isValid = true ∧
      (⟨left, top, right, bottom⟩ : Rect).height.toNat = bottom - top := by
  unfold Rect.isValid Rect.height
  simp only [Bool.and_eq_true, decide_eq_true_eq]
  omega

namespace TextBuffer.Displays

lemma isInBounds (h : b.Displays width height cells attrs) (hx : x < width) (hy : y < height) :
    b.getSize.isInBounds ⟨x, y⟩ = true := by
  have hwidth := h.width_eq
  have hheight := h.height_eq
  unfold getSize Types.Viewport.fromDimensions Types.Viewport.isInBounds
  simp only [Bool.and_eq_true, decide_eq_true_eq]
  omega

lemma getRowByOffset (h : b.Displays width height cells attrs) (hy : y < height) :
    b.getRowByOffset y = b.getRow y := by
  unfold TextBuffer.getRowByOffset
  rw [h.height_eq, Int.emod_eq_of_lt (by omega) (by omega), Int.toNat_natCast]

lemma setRowByOffset (h : b.Displays width height cells attrs) (hy : y < height) (row : Row α) :
    b.setRowByOffset y row = b.setRow y row := by
  unfold TextBuffer.setRowByOffset
  rw [h.height_eq, Int.emod_eq_of_lt (by omega) (by omega), Int.toNat_natCast]

/-- One row is replaced. -/
lemma setRow (h : b.Displays width height cells attrs) (hy : y < height) (hrow : r.Displays width f g) :
    (b.setRow y r).Displays width height (Function.update cells y f) (Function.update attrs y g) := by
  refine ⟨h.width_eq, h.height_eq, fun z hz => ?_⟩
  rcases eq_or_ne z y with rfl | hne
  · rwa [getRow_setRow_self, Function.update_self, Function.update_self]
  · have hheight := h.height_eq
    rw [getRow_setRow_of_ne (by omega) (by omega) hne, Function.update_of_ne hne, Function.update_of_ne hne]
    exact h.rows z hz

/-- **A cell is read.** -/
lemma getCellDataAt (h : b.Displays width height cells attrs) (hx : x < width) (hy : y < height) :
    ∃ view, b.getCellDataAt ⟨x, y⟩ = .ok view ∧ (⟨view.chars, view.dbcsAttr.half⟩ : GlyphCell) = cells y x ∧
      some view.textAttr = attrs y x ∧ view.textAttrBehavior = .stored ∧ view.position = 0 := by
  have hrow := h.rows y hy
  have hlength := hrow.length
  refine ⟨_, by
    unfold TextBuffer.getCellDataAt
    rw [h.isInBounds hx hy]
    rfl, ?_, ?_, rfl, rfl⟩
  · rw [h.getRowByOffset hy]
    exact hrow.cell_eq hx
  · dsimp only
    rw [h.getRowByOffset hy, ← hrow.attributes, List.getD_eq_getElem?_getD, Int.toNat_natCast,
      List.getElem?_eq_getElem (by omega)]
    rfl

open Finset in
/-- **A cell is written.** -/
lemma writeLine [DecidableEq α] (h : b.Displays width height cells attrs) (hx : x < width) (hy : y < height)
    (hcount : width < 0x8000) {view : OutputCellView α} {c : GlyphCell}
    (hview : (⟨view.chars, view.dbcsAttr.half⟩ : GlyphCell) = c) (hchars : c.text ≠ []) (hposition : view.position = 0)
    (hstored : view.textAttrBehavior = .stored)
    (hshort : ∑ z ∈ range width, weight (paint [space] width (cells y) x c z) < 0x8000) :
    ∃ b', b.writeLine [view] ⟨x, y⟩ none none = .ok b' ∧
      b'.Displays width height (Function.update cells y (paint [space] width (cells y) x c))
        (Function.update attrs y (Function.update (attrs y) x (some view.textAttr))) := by
  have hrow := h.rows y hy
  have hcolumns := hrow.columns
  have hlength := hrow.length
  subst hview
  obtain ⟨r', hok, hshows, hcount', hattr⟩ := hrow.shows.writeCells (by omega) (show x < _ by omega) hchars
    hposition hstored (by rw [hcolumns]; exact hshort)
  refine ⟨b.setRow y r', ?_, h.setRow hy ⟨?_, by omega, ?_, fun z => ?_⟩⟩
  · unfold TextBuffer.writeLine
    rw [h.isInBounds hx hy]
    show (do
      let row ← (b.getRowByOffset y).writeCells [view] (x : ℤ).toNat none none
      Except.ok (b.setRowByOffset y row) : Except WriteCellsError (TextBuffer α)) = _
    rw [h.getRowByOffset hy, Int.toNat_natCast, hok]
    show Except.ok (b.setRowByOffset y r') = _
    rw [h.setRowByOffset hy]
  · rwa [hcolumns] at hshows
  · rw [hattr, length_overwrite (by rw [List.length_singleton]; omega), hlength]
  · rw [hattr, getElem?_overwrite (by rw [List.length_singleton]; omega)]
    rcases eq_or_ne z x with rfl | hne
    · rw [if_pos (by rw [List.length_singleton]; omega), Function.update_self, Nat.sub_self]
      rfl
    · rw [if_neg (by rw [List.length_singleton]; omega), Function.update_of_ne hne, hrow.attributes]

open Finset in
/-- One row is filled. -/
lemma fillRow (h : b.Displays width height cells attrs) (hy : y < height) (hcount : width < 0x8000) {left right : ℕ}
    (hleft : left < right) (hright : right ≤ width) (attr : α)
    (hshort : ∑ z ∈ range width, weight (erase [space] (cells y) left right z) < 0x8000) :
    ∃ r result, (b.getRow y).copyTextFrom
        { source := b.getScratchpadRow attr, columnBegin := left, columnLimit := right, sourceColumnBegin := left } =
          .ok (r, result) ∧
      (r.replaceAttributes left right attr).Displays width (erase [space] (cells y) left right)
        (fun x => if left ≤ x ∧ x < right then some attr else attrs y x) := by
  have hrow := h.rows y hy
  have hcolumns := hrow.columns
  have hlength := hrow.length
  have hscratch : (b.getScratchpadRow attr).Holds (blanks (b.getRow y).columnCount) := by
    unfold getScratchpadRow
    rw [hcolumns, h.width_eq]
    exact create_holds hcount attr
  obtain ⟨r, result, hok, hshows, hcount', hattr⟩ := hrow.shows.copyBlanks (by omega) hscratch hleft (by omega)
    (by rw [hcolumns]; exact hshort)
  exact ⟨r, result, hok, hrow.replaceAttributes hshows (hcount'.trans hcolumns) hattr hleft hright attr⟩

/-- The rows from `y` on are filled, each as a copy of the scratchpad fills it. -/
lemma fillRows (h : b.Displays width height cells attrs) {left right : ℕ} {attr : α} {scratchpad : Row α}
    {cells' : ℕ → ℕ → GlyphCell} {attrs' : ℕ → ℕ → Option α} {rest : ℕ} (hy : y + rest ≤ height)
    (hfill : ∀ z, y ≤ z → z < y + rest → ∃ r result, (b.getRow z).copyTextFrom
      { source := scratchpad, columnBegin := left, columnLimit := right, sourceColumnBegin := left } = .ok (r, result) ∧
      (r.replaceAttributes left right attr).Displays width (cells' z) (attrs' z)) :
    ∃ b', TextBuffer.fillRows scratchpad attr left right rest y b = .ok b' ∧ b'.width = width ∧ b'.height = height ∧
      ∀ z < height, (y ≤ z ∧ z < y + rest → (b'.getRow z).Displays width (cells' z) (attrs' z)) ∧
        (¬(y ≤ z ∧ z < y + rest) → b'.getRow z = b.getRow z) := by
  induction rest generalizing y b cells attrs with
  | zero => exact ⟨b, rfl, h.width_eq, h.height_eq, fun z _ => ⟨fun hin => by omega, fun _ => rfl⟩⟩
  | succ rest ih =>
    have hheight := h.height_eq
    obtain ⟨r, result, hok, hfilled⟩ := hfill y (Nat.le_refl y) (by omega)
    have hnext := h.setRow (show y < height by omega) hfilled
    obtain ⟨b', hrest, hwidth, hheight', hrows⟩ := ih hnext (y := y + 1) (by omega) fun z hlo hhi => by
      rw [getRow_setRow_of_ne (by omega) (by omega) (by omega)]
      exact hfill z (by omega) (by omega)
    refine ⟨b', ?_, hwidth, hheight', fun z hz => ⟨fun hin => ?_, fun hout => ?_⟩⟩
    · unfold TextBuffer.fillRows
      rw [h.getRowByOffset (by omega), hok]
      show TextBuffer.fillRows scratchpad attr left right rest (↑y + 1)
        (b.setRowByOffset y (r.replaceAttributes left right attr)) = _
      rw [h.setRowByOffset (by omega)]
      exact hrest
    · rcases eq_or_ne z y with rfl | hne
      · rw [(hrows z hz).2 (by omega), getRow_setRow_self]
        exact hfilled
      · exact (hrows z hz).1 (by omega)
    · rw [(hrows z hz).2 (by omega), getRow_setRow_of_ne (by omega) (by omega) (by omega)]

open Finset in
/-- **An area is filled with spaces.** -/
theorem fillRect (h : b.Displays width height cells attrs) (hcount : width < 0x8000) (cwd : Clustering)
    {left top right bottom : ℕ} (hleft : left < right) (hright : right ≤ width) (htop : top ≤ bottom)
    (hbottom : bottom ≤ height) (attr : α)
    (hshort : ∀ z, top ≤ z → z < bottom → ∑ x ∈ range width, weight (erase [space] (cells z) left right x) < 0x8000) :
    ∃ b', b.fillRect cwd ⟨left, top, right, bottom⟩ [space] attr = .ok b' ∧
      b'.Displays width height (fun z => if top ≤ z ∧ z < bottom then erase [space] (cells z) left right else cells z)
        fun z x => if (top ≤ z ∧ z < bottom) ∧ left ≤ x ∧ x < right then some attr else attrs z x := by
  rcases Nat.lt_or_eq_of_le htop with hlt | rfl
  · obtain ⟨b', hok, hwidth, hheight, hrows⟩ := h.fillRows (show top + (bottom - top) ≤ height by omega)
      fun z hlo hhi => h.fillRow (show z < height by omega) hcount hleft hright attr (hshort z hlo (by omega))
    rw [Nat.add_sub_cancel' htop] at hrows
    refine ⟨b', ?_, hwidth, hheight, fun z hz => ?_⟩
    · obtain ⟨hvalid, hrest⟩ := rect_of_lt hleft hlt
      unfold TextBuffer.fillRect
      rw [hvalid, hrest]
      exact hok
    · by_cases hin : top ≤ z ∧ z < bottom
      · simp only [hin, and_self, true_and, if_true]
        exact (hrows z hz).1 hin
      · simp only [hin, false_and, if_false]
        rw [(hrows z hz).2 hin]
        exact h.rows z hz
  · have hinvalid : (⟨left, top, right, top⟩ : Rect).isValid = false := by
      unfold Rect.isValid
      simp
    have hnone : ∀ z, ¬(top ≤ z ∧ z < top) := fun z => by omega
    refine ⟨b, ?_, h.width_eq, h.height_eq, fun z hz => ?_⟩
    · unfold TextBuffer.fillRect
      rw [hinvalid]
      rfl
    · simp only [hnone, false_and, if_false]
      exact h.rows z hz

open Finset in
/-- One row is copied. -/
lemma copyFrom (h : b.Displays width height cells attrs) {v : ℕ} (hv : v < height) (hy : y < height)
    (hshort : ∑ x ∈ range width,
      weight (copied (b.getRow v).getReadableColumnCount (cells y) (cells v) x) < 0x8000) :
    ∃ r, (b.getRow y).copyFrom (b.getRow v) = .ok r ∧
      r.Displays width (copied (b.getRow v).getReadableColumnCount (cells y) (cells v)) (attrs v) := by
  have hrow := h.rows y hy
  have hsource := h.rows v hv
  have hcolumns := hrow.columns
  obtain ⟨r, hok, hshows, hcount', hattr⟩ := hrow.shows.copyFrom hsource.shows
    (hsource.columns.trans hcolumns.symm) (hsource.length.trans hcolumns.symm) (by rw [hcolumns]; exact hshort)
  refine ⟨r, hok, hshows, hcount'.trans hcolumns, ?_, fun x => ?_⟩
  · rw [hattr]
    exact hsource.length
  · rw [hattr]
    exact hsource.attributes x

open Finset in
/-- The rows behind a scroll. -/
lemma scrollRowsFrom (h : b.Displays width height cells attrs) {delta step y : ℤ} {rest : ℕ}
    (hstep : step = 1 ∧ delta < 0 ∨ step = -1 ∧ 0 < delta)
    (hsource : ∀ i < rest, 0 ≤ y + i * step ∧ y + i * step < height)
    (htarget : ∀ i < rest, 0 ≤ y + i * step + delta ∧ y + i * step + delta < height)
    (hshort : ∀ z < height, ∀ v < height, (z : ℤ) - delta = v → 0 ≤ (v - y) * step → (v - y) * step < rest →
      ∑ x ∈ range width, weight (copied (b.getRow v).getReadableColumnCount (cells z) (cells v) x) < 0x8000) :
    ∃ b', TextBuffer.scrollRowsFrom delta step rest y b = .ok b' ∧ b'.width = width ∧ b'.height = height ∧
      ∀ z < height,
        (∀ v < height, (z : ℤ) - delta = v → 0 ≤ (v - y) * step → (v - y) * step < rest →
          (b'.getRow z).Displays width (copied (b.getRow v).getReadableColumnCount (cells z) (cells v)) (attrs v)) ∧
        (¬(0 ≤ (z - delta - y) * step ∧ (z - delta - y) * step < rest) → b'.getRow z = b.getRow z) := by
  have hheight := h.height_eq
  have hrow : ∀ z, ∃ r : Row α, z < height → ∀ v < height, (z : ℤ) - delta = v → 0 ≤ (v - y) * step →
      (v - y) * step < rest → (b.getRow z).copyFrom (b.getRow v) = .ok r ∧
        r.Displays width (copied (b.getRow v).getReadableColumnCount (cells z) (cells v)) (attrs v) := by
    intro z
    by_cases hpair : ∃ v < height, z < height ∧ (z : ℤ) - delta = v ∧ 0 ≤ (v - y) * step ∧ (v - y) * step < rest
    · obtain ⟨v, hv, hz, hzv, hlo, hhi⟩ := hpair
      obtain ⟨r, hok, hdisplays⟩ := h.copyFrom hv hz (hshort z hz v hv hzv hlo hhi)
      refine ⟨r, fun _ u hu hzu _ _ => ?_⟩
      obtain rfl : u = v := by omega
      exact ⟨hok, hdisplays⟩
    · exact ⟨b.getRow z, fun hz v hv hzv hlo hhi => absurd ⟨v, hv, hz, hzv, hlo, hhi⟩ hpair⟩
  choose rows hrows using hrow
  obtain ⟨b', hok, hsame, hresult⟩ := @TextBuffer.scrollRowsFrom_rows _ b delta step y rest rows hstep
    (by rw [hheight]; exact hsource) (by rw [hheight]; exact htarget)
    (by rw [hheight]; exact fun z hz v hv hzv hlo hhi => (hrows z hz v hv hzv hlo hhi).1)
  rw [hheight] at hresult
  refine ⟨b', hok, by rw [hsame]; exact h.width_eq, by rw [hsame]; exact hheight, fun z hz => ⟨?_, (hresult z hz).2⟩⟩
  intro v hv hzv hlo hhi
  rw [(hresult z hz).1 v hv hzv hlo hhi]
  exact (hrows z hz v hv hzv hlo hhi).2

lemma resetLineRenditionFrom (h : b.Displays width height cells attrs) {rest : ℕ} (hy : y + rest ≤ height) :
    (TextBuffer.resetLineRenditionFrom rest y b).Displays width height cells attrs := by
  induction rest generalizing y b with
  | zero => exact h
  | succ rest ih =>
    have hrow := h.rows y (by omega)
    have hreset : ((b.getRow y).setLineRendition .singleWidth).Displays width (cells y) (attrs y) := by
      obtain ⟨gs, hholds, hstrip⟩ := hrow.shows
      exact ⟨⟨gs, hholds.congr rfl rfl rfl, hstrip⟩, hrow.columns, hrow.length, hrow.attributes⟩
    have hnext := h.setRow (show y < height by omega) hreset
    rw [Function.update_eq_self, Function.update_eq_self] at hnext
    unfold TextBuffer.resetLineRenditionFrom
    rw [h.getRowByOffset (by omega), h.setRowByOffset (by omega)]
    exact ih hnext (y := y + 1) (by omega)

end TextBuffer.Displays

end Displaying

end VT7.Buffer
