import VT7.Adapter.GraphicsOptions
import VT7.Adapter.RectAreas
import VT7.Buffer.Areas

/-!
# Changed attributes

`ChangeAttributesRectangularArea` finds out what a list of options does from two probes, and changes the cells of a
rectangle or of a stream of lines by masks.  The masks do what the options do to any attributes, and the cells that
change are those of the area.
-/

namespace VT7.Buffer.Row

variable {α : Type} {r : Row α} {columns columns' : ℕ → Prop} [DecidablePred columns] [DecidablePred columns'] {f : α → α}

/-- The attributes of some columns are changed. -/
def mapAttr (r : Row α) (columns : ℕ → Prop) [DecidablePred columns] (f : α → α) : Row α :=
  { r with attr := r.attr.mapIdx fun x a => if columns x then f a else a }

theorem getElem?_mapAttr (x : ℕ) :
    (r.mapAttr columns f).attr[x]? = r.attr[x]?.map fun a => if columns x then f a else a :=
  List.getElem?_mapIdx

theorem mapAttr_congr (h : ∀ x < r.attr.length, (columns x ↔ columns' x)) :
    r.mapAttr columns f = r.mapAttr columns' f := by
  unfold mapAttr
  congr 1
  refine List.ext_getElem? fun x => ?_
  rw [List.getElem?_mapIdx, List.getElem?_mapIdx]
  rcases Nat.lt_or_ge x r.attr.length with hx | hx
  · simp only [h x hx]
  · rw [List.getElem?_eq_none hx]
    rfl

theorem mapAttr_none (h : ∀ x < r.attr.length, ¬columns x) : r.mapAttr columns f = r := by
  unfold mapAttr
  have hsame : (r.attr.mapIdx fun x a => if columns x then f a else a) = r.attr := by
    refine List.ext_getElem? fun x => ?_
    rw [List.getElem?_mapIdx]
    rcases Nat.lt_or_ge x r.attr.length with hx | hx
    · simp only [h x hx, if_false, Option.map_id']
    · rw [List.getElem?_eq_none hx]
      rfl
  rw [hsame]

/-- Columns that are changed one after the other. -/
theorem mapAttr_mapAttr (h : ∀ x, ¬(columns x ∧ columns' x)) :
    (r.mapAttr columns f).mapAttr columns' f = r.mapAttr (fun x => columns x ∨ columns' x) f := by
  unfold mapAttr
  dsimp only
  congr 1
  refine List.ext_getElem? fun x => ?_
  rw [List.getElem?_mapIdx, List.getElem?_mapIdx, List.getElem?_mapIdx, Option.map_map]
  refine congrFun (congrArg Option.map (funext fun a => ?_)) _
  dsimp only [Function.comp]
  have := h x
  split_ifs <;> tauto

theorem mapAttr_length : (r.mapAttr columns f).attr.length = r.attr.length := List.length_mapIdx

end VT7.Buffer.Row

namespace VT7.Adapter

open VT7.Buffer
open VT7.Parser (VTParameter)
open VT7.Types

structure ChangeOps where
  andAttrMask : CharacterAttributes := .all
  xorAttrMask : CharacterAttributes := 0
  foreground : Option TextColor := none
  background : Option TextColor := none
  underlineColor : Option TextColor := none

namespace ChangeOps

/-- The attributes of one cell, in `_ChangeRectAttributes`. -/
def change (changeOps : ChangeOps) (attr : TextAttribute TextColor) : TextAttribute TextColor :=
  let attr := { attr with attrs := attr.attrs &&& changeOps.andAttrMask ^^^ changeOps.xorAttrMask }
  let attr := match changeOps.foreground with
    | some foreground => attr.setForeground foreground
    | none => attr
  let attr := match changeOps.background with
    | some background => attr.setBackground background
    | none => attr
  match changeOps.underlineColor with
  | some underlineColor => attr.setUnderlineColor underlineColor
  | none => attr

def allAttrsOff : TextAttribute TextColor where
  foreground := {}
  background := {}
  underlineColor := {}

def allAttrsOn : TextAttribute TextColor where
  attrs := .all
  foreground := .rgb 0 0 0
  background := .rgb 0 0 0
  underlineColor := .rgb 0 0 0

/-- A colour has been set if the default one is not the default any more, or black is. -/
def changed (off on : TextColor) : Option TextColor := if !off.isDefault || on.isDefault then some off else none

/-- The operations that `ChangeAttributesRectangularArea` finds. -/
def ofOptions (attrs : VTParameters) : ChangeOps :=
  let allAttrsOff := applyGraphicsOptions attrs allAttrsOff
  let allAttrsOn := applyGraphicsOptions attrs allAttrsOn
  let orAttrMask := allAttrsOff.attrs
  let andAttrMask := allAttrsOn.attrs
  { andAttrMask := andAttrMask &&& ~~~orAttrMask
    xorAttrMask := orAttrMask
    foreground := changed allAttrsOff.foreground allAttrsOn.foreground
    background := changed allAttrsOff.background allAttrsOn.background
    underlineColor := changed allAttrsOff.underlineColor allAttrsOn.underlineColor }

end ChangeOps

section Cells

variable (changeOps : ChangeOps)

/-- The columns of a row from `col` on, `rest` of them. -/
def changeColumns : (rest col : ℕ) → Row (TextAttribute TextColor) → Row (TextAttribute TextColor)
  | 0, _, r => r
  | rest + 1, col, r =>
    -- A row has attributes for all its columns.
    let attr := r.attr.getD (r.clampedColumn col) ChangeOps.allAttrsOff
    changeColumns rest (col + 1) (r.replaceAttributes col (col + 1) (changeOps.change attr))

def changeLines (left width : ℕ) : (rest : ℕ) → (row : ℤ) → TextBuffer (TextAttribute TextColor) →
    TextBuffer (TextAttribute TextColor)
  | 0, _, b => b
  | rest + 1, row, b =>
    changeLines left width rest (row + 1)
      (b.setRowByOffset row (changeColumns changeOps width left (b.getRowByOffset row)))

/-- `_ChangeRectAttributes`. -/
def changeRectAttributes (b : TextBuffer (TextAttribute TextColor)) (changeRect : Rect) :
    TextBuffer (TextAttribute TextColor) :=
  if changeRect.isValid then
    changeLines changeOps changeRect.left.toNat changeRect.width.toNat changeRect.height.toNat changeRect.top b
  else b

/-- The lines of a stream: the first one from `left` on, the last one up to `right`, those in between as a whole. -/
def changeStreamAttributes (b : TextBuffer (TextAttribute TextColor)) (pageWidth : ℤ) (changeRect : Rect) :
    TextBuffer (TextAttribute TextColor) :=
  let b := changeRectAttributes changeOps b ⟨changeRect.left, changeRect.top, pageWidth, changeRect.top + 1⟩
  let b := changeRectAttributes changeOps b ⟨0, changeRect.top + 1, pageWidth, changeRect.bottom - 1⟩
  changeRectAttributes changeOps b ⟨0, changeRect.bottom - 1, changeRect.right, changeRect.bottom⟩

/-- `_ChangeRectOrStreamAttributes`, for a rectangle that has been calculated. -/
def changeArea (rectangularChangeExtent : Bool) (pageWidth : ℤ) (changeRect : Rect)
    (b : TextBuffer (TextAttribute TextColor)) : TextBuffer (TextAttribute TextColor) :=
  let lineCount := changeRect.height
  if rectangularChangeExtent || lineCount = 1 then changeRectAttributes changeOps b changeRect
  else if 1 < lineCount ∧ changeRect.left < changeRect.right then changeStreamAttributes changeOps b pageWidth changeRect
  else b

end Cells

namespace AreaDispatch

variable {size : PageSize} (defaultAttributes : TextAttribute TextColor)
  (d : AreaDispatch (TextAttribute TextColor) size)

/-- `_ChangeRectOrStreamAttributes`. -/
def changeRectOrStreamAttributes (top left bottom right : ℤ) (changeOps : ChangeOps) :
    AreaDispatch (TextAttribute TextColor) size :=
  let page := d.pages.activePage defaultAttributes
  let (scrollMargins, changeRect) :=
    calculateRectArea d.scrollMargins d.originMode (CursorDispatch.frame size page) top left bottom right
  let text := changeArea changeOps d.rectangularChangeExtent page.buffer.text.width changeRect page.buffer.text
  { d with
    pages := d.pages.writeRows defaultAttributes d.pages.activePageNumber text.rows
    scrollMargins }

def changeAttributesRectangularArea (top left bottom right : ℤ) (attrs : VTParameters) :
    AreaDispatch (TextAttribute TextColor) size :=
  d.changeRectOrStreamAttributes defaultAttributes top left bottom right (.ofOptions attrs)

/-- DECCARA, as `ActionCsiDispatch` calls it. -/
def deccara (parameters : VTParameters) : AreaDispatch (TextAttribute TextColor) size :=
  d.changeAttributesRectangularArea defaultAttributes (vtInt (parameters.at 0)) (vtInt (parameters.at 1))
    (valueOr (parameters.at 2) 0) (valueOr (parameters.at 3) 0) (parameters.subspan 4)

end AreaDispatch

/-! ### The masks -/

namespace ChangeOps

theorem changed_getD (color : Option TextColor) (a : TextColor) :
    (changed (color.getD {}) (color.getD (.rgb 0 0 0))).getD a = color.getD a := by
  cases color with
  | none => rfl
  | some color =>
    unfold changed
    simp only [Option.getD_some]
    cases color.isDefault <;> rfl

theorem change_eq (changeOps : ChangeOps) (a : TextAttribute TextColor) : changeOps.change a =
    { a with
      attrs := a.attrs &&& changeOps.andAttrMask ^^^ changeOps.xorAttrMask
      foreground := changeOps.foreground.getD a.foreground
      background := changeOps.background.getD a.background
      underlineColor := changeOps.underlineColor.getD a.underlineColor } := by
  unfold change
  cases changeOps.foreground <;> cases changeOps.background <;> cases changeOps.underlineColor <;> rfl

/-- **The masks do what the options do**, to any attributes. -/
theorem ofOptions_change (attrs : VTParameters) (a : TextAttribute TextColor) :
    (ofOptions attrs).change a = applyGraphicsOptions attrs a := by
  obtain ⟨u, hu⟩ := applyGraphicsOptions_update attrs
  have hall : CharacterAttributes.all = BitVec.allOnes 16 := by decide
  rw [change_eq, hu]
  unfold ofOptions
  rw [hu, hu]
  unfold RenditionUpdate.apply allAttrsOff allAttrsOn
  simp only [changed_getD, hall, Lib.BitUpdate.apply_probes]

end ChangeOps

/-! ### The cells -/

section Spans

variable {changeOps : ChangeOps} {r : Row (TextAttribute TextColor)}

/-- The columns are changed one after the other. -/
theorem changeColumns_eq {rest col : ℕ} (hcount : r.columnCount = r.attr.length) (hend : col + rest ≤ r.columnCount) :
    changeColumns changeOps rest col r = r.mapAttr (fun x => col ≤ x ∧ x < col + rest) changeOps.change := by
  induction rest generalizing col r with
  | zero =>
    unfold changeColumns
    rw [Row.mapAttr_none fun x _ => by omega]
  | succ rest ih =>
    have hclamp : r.clampedColumn col = col := by
      unfold Row.clampedColumn
      omega
    have hfirst : r.replaceAttributes col (col + 1)
        (changeOps.change (r.attr.getD (r.clampedColumn col) ChangeOps.allAttrsOff)) =
          r.mapAttr (fun x => x = col) changeOps.change := by
      unfold Row.replaceAttributes Row.replaceAttr Row.clampedColumnInclusive Row.mapAttr
      rw [hclamp, Nat.min_eq_left (by omega), Nat.min_eq_left (by omega), Nat.add_sub_cancel_left]
      congr 1
      refine List.ext_getElem? fun x => ?_
      rw [getElem?_overwrite (by simp; omega), List.getElem?_mapIdx]
      rcases eq_or_ne x col with rfl | hne
      · have hx : x < r.attr.length := by omega
        simp [hx]
      · rw [if_neg (by simp; omega)]
        simp [hne]
    have hcount' : (r.mapAttr (fun x => x = col) changeOps.change).columnCount =
        (r.mapAttr (fun x => x = col) changeOps.change).attr.length := by
      rw [Row.mapAttr_length]
      exact hcount
    have hend' : col + 1 + rest ≤ (r.mapAttr (fun x => x = col) changeOps.change).columnCount :=
      le_of_eq_of_le (by omega) hend
    unfold changeColumns
    dsimp only
    rw [hfirst, ih hcount' hend', Row.mapAttr_mapAttr fun x => by omega]
    exact Row.mapAttr_congr fun x _ => by omega

/-- All rows of the buffer have attributes for all their columns. -/
def Covered (b : TextBuffer (TextAttribute TextColor)) : Prop :=
  ∀ y < b.height, (b.getRow y).columnCount = b.width ∧ (b.getRow y).attr.length = b.width

/-- The cells of an area are changed, and nothing else. -/
structure CellsChanged (f : TextAttribute TextColor → TextAttribute TextColor) (area : ℕ → ℕ → Prop)
    [∀ x y, Decidable (area x y)] (b b' : TextBuffer (TextAttribute TextColor)) : Prop where
  same : b' = { b with rows := b'.rows }
  rows : ∀ y < b.height, b'.getRow y = (b.getRow y).mapAttr (fun x => area x y) f

namespace CellsChanged

variable {f : TextAttribute TextColor → TextAttribute TextColor} {area area' : ℕ → ℕ → Prop}
  [∀ x y, Decidable (area x y)] [∀ x y, Decidable (area' x y)] {b b' b'' : TextBuffer (TextAttribute TextColor)}

theorem height (h : CellsChanged f area b b') : b'.height = b.height := by rw [h.same]

theorem width (h : CellsChanged f area b b') : b'.width = b.width := by rw [h.same]

theorem covered (h : CellsChanged f area b b') (hb : Covered b) : Covered b' := by
  intro y hy
  rw [h.height] at hy
  rw [h.rows y hy, h.width, Row.mapAttr_length]
  exact hb y hy

theorem congr (h : CellsChanged f area b b') (hb : Covered b)
    (harea : ∀ y < b.height, ∀ x < b.width, (area x y ↔ area' x y)) : CellsChanged f area' b b' := by
  refine ⟨h.same, fun y hy => ?_⟩
  rw [h.rows y hy]
  exact Row.mapAttr_congr fun x hx => harea y hy x ((hb y hy).2 ▸ hx)

theorem none (hb : Covered b) (harea : ∀ y < b.height, ∀ x < b.width, ¬area x y) : CellsChanged f area b b := by
  refine ⟨rfl, fun y hy => ?_⟩
  exact (Row.mapAttr_none fun x hx => harea y hy x ((hb y hy).2 ▸ hx)).symm

/-- Two areas apart from each other, one after the other. -/
theorem andThen (h : CellsChanged f area b b') (h' : CellsChanged f area' b' b'')
    (hapart : ∀ x y, ¬(area x y ∧ area' x y)) : CellsChanged f (fun x y => area x y ∨ area' x y) b b'' := by
  refine ⟨?_, fun y hy => ?_⟩
  · rw [h'.same, h.same]
  · rw [h'.rows y (h.height ▸ hy), h.rows y hy]
    exact Row.mapAttr_mapAttr fun x => hapart x y

end CellsChanged

lemma row_index {height : ℕ} {y : ℕ} (hy : y < height) : ((y : ℤ) % height).toNat = y := by
  rw [Int.emod_eq_of_lt (by omega) (by omega), Int.toNat_natCast]

/-- The lines are changed one after the other. -/
theorem changeLines_changed {left width rest row : ℕ} {b : TextBuffer (TextAttribute TextColor)} (hb : Covered b)
    (hright : left + width ≤ b.width) (hbottom : row + rest ≤ b.height) :
    CellsChanged changeOps.change (fun x y => (left ≤ x ∧ x < left + width) ∧ row ≤ y ∧ y < row + rest) b
      (changeLines changeOps left width rest row b) := by
  induction rest generalizing row b with
  | zero => exact .none hb fun y _ x _ => by omega
  | succ rest ih =>
    have hrow : row < b.height := by omega
    have hindex := row_index hrow
    have hline : changeColumns changeOps width left (b.getRowByOffset row) =
        (b.getRow row).mapAttr (fun x => left ≤ x ∧ x < left + width) changeOps.change := by
      unfold TextBuffer.getRowByOffset
      rw [hindex]
      exact changeColumns_eq ((hb row hrow).1.trans (hb row hrow).2.symm) (hright.trans_eq (hb row hrow).1.symm)
    have hfirst : CellsChanged changeOps.change (fun x y => (left ≤ x ∧ x < left + width) ∧ y = row) b
        (b.setRowByOffset row (changeColumns changeOps width left (b.getRowByOffset row))) := by
      refine ⟨rfl, fun y hy => ?_⟩
      unfold TextBuffer.setRowByOffset
      rw [hindex, hline]
      rcases eq_or_ne y row with rfl | hne
      · rw [TextBuffer.getRow_setRow_self]
        exact Row.mapAttr_congr fun x _ => by tauto
      · rw [TextBuffer.getRow_setRow_of_ne hrow hy hne]
        exact (Row.mapAttr_none fun x _ h => hne h.2).symm
    have hrest := ih (hfirst.covered hb) (hright.trans_eq hfirst.width.symm)
      (show row + 1 + rest ≤ _ from le_of_eq_of_le (by omega) (hbottom.trans_eq hfirst.height.symm))
    unfold changeLines
    rw [show ((row : ℤ) + 1) = ((row + 1 : ℕ) : ℤ) from rfl]
    refine (hfirst.andThen hrest fun x y => by omega).congr hb fun y _ x _ => by omega

/-- **The rectangle is changed.** -/
theorem changeRectAttributes_changed {b : TextBuffer (TextAttribute TextColor)} (hb : Covered b) {r : Rect}
    (hleft : 0 ≤ r.left) (htop : 0 ≤ r.top) (hright : r.right ≤ b.width) (hbottom : r.bottom ≤ b.height) :
    CellsChanged changeOps.change (fun x y => r.Contains ⟨x, y⟩) b (changeRectAttributes changeOps b r) := by
  unfold changeRectAttributes
  by_cases hvalid : r.isValid = true
  · have hsize : r.left < r.right ∧ r.top < r.bottom := by
      unfold Rect.isValid at hvalid
      simp only [Bool.and_eq_true, decide_eq_true_eq] at hvalid
      omega
    have htop' : r.top = (r.top.toNat : ℕ) := (Int.toNat_of_nonneg htop).symm
    rw [if_pos hvalid, htop']
    unfold Rect.width Rect.height
    refine (changeLines_changed hb (by omega) (by omega)).congr hb fun y _ x _ => ?_
    unfold Rect.Contains
    dsimp only
    omega
  · rw [if_neg hvalid]
    refine .none hb fun y _ x _ => ?_
    unfold Rect.isValid at hvalid
    unfold Rect.Contains
    simp only [Bool.and_eq_true, decide_eq_true_eq] at hvalid
    dsimp only
    omega

/-- The cells of a rectangle, or from its first cell to its last one in reading order.  A stream whose last column is on
the left of its first one is ignored. -/
def InArea (rectangularChangeExtent : Bool) (r : Rect) (p : Types.Point) : Prop :=
  if rectangularChangeExtent then r.Contains p
  else r.left < r.right ∧ ¬p.before r.origin ∧ ¬Types.Point.before ⟨r.right - 1, r.bottom - 1⟩ p

instance (rectangularChangeExtent : Bool) (r : Rect) (p : Types.Point) : Decidable (InArea rectangularChangeExtent r p) := by
  unfold InArea
  infer_instance

lemma not_before_iff (p q : Types.Point) : ¬p.before q ↔ q.y < p.y ∨ q.y = p.y ∧ q.x ≤ p.x := by
  unfold Types.Point.before
  simp only [Bool.or_eq_true, Bool.and_eq_true, decide_eq_true_eq]
  omega

theorem inArea_below (rectangularChangeExtent : Bool) (r : Rect) (top x y : ℤ) :
    InArea rectangularChangeExtent (r.below top) ⟨x, y + top⟩ ↔ InArea rectangularChangeExtent r ⟨x, y⟩ := by
  unfold InArea Rect.below
  cases rectangularChangeExtent with
  | true =>
    simp only [if_true]
    unfold Rect.Contains
    dsimp only
    omega
  | false =>
    simp only [Bool.false_eq_true, if_false, not_before_iff]
    unfold Rect.origin
    dsimp only
    omega

/-- A stream of several lines. -/
theorem changeStreamAttributes_changed {b : TextBuffer (TextAttribute TextColor)} (hb : Covered b) {r : Rect}
    (hleft : 0 ≤ r.left) (htop : 0 ≤ r.top) (hright : r.right ≤ b.width) (hbottom : r.bottom ≤ b.height)
    (hlines : 1 < r.height) (hcolumns : r.left < r.right) :
    CellsChanged changeOps.change (fun x y => InArea false r ⟨x, y⟩) b
      (changeStreamAttributes changeOps b b.width r) := by
  unfold Rect.height at hlines
  have hfirst := @changeRectAttributes_changed changeOps b hb ⟨r.left, r.top, b.width, r.top + 1⟩ hleft htop le_rfl
    (by dsimp only; omega)
  have hmiddle := @changeRectAttributes_changed changeOps _ (hfirst.covered hb) ⟨0, r.top + 1, b.width, r.bottom - 1⟩
    le_rfl (by dsimp only; omega) (by dsimp only; rw [hfirst.width]) (by dsimp only; rw [hfirst.height]; omega)
  have hlast := @changeRectAttributes_changed changeOps _ (hmiddle.covered (hfirst.covered hb))
    ⟨0, r.bottom - 1, r.right, r.bottom⟩ le_rfl (by dsimp only; omega)
    (by rw [hmiddle.width, hfirst.width]; exact hright) (by rw [hmiddle.height, hfirst.height]; exact hbottom)
  unfold changeStreamAttributes
  refine ((hfirst.andThen hmiddle fun x y => ?_).andThen hlast fun x y => ?_).congr hb fun y _ x hx => ?_
  · unfold Rect.Contains
    dsimp only
    omega
  · unfold Rect.Contains
    dsimp only
    omega
  · unfold InArea Rect.Contains
    simp only [Bool.false_eq_true, if_false, not_before_iff]
    unfold Rect.origin
    dsimp only
    omega

/-- **The area is changed**, a rectangle or a stream. -/
theorem changeArea_changed {b : TextBuffer (TextAttribute TextColor)} (hb : Covered b) (rectangularChangeExtent : Bool)
    {r : Rect} (hleft : 0 ≤ r.left) (htop : 0 ≤ r.top) (hright : r.right ≤ b.width) (hbottom : r.bottom ≤ b.height) :
    CellsChanged changeOps.change (fun x y => InArea rectangularChangeExtent r ⟨x, y⟩) b
      (changeArea changeOps rectangularChangeExtent b.width r b) := by
  unfold changeArea
  dsimp only
  cases rectangularChangeExtent with
  | true => exact changeRectAttributes_changed hb hleft htop hright hbottom
  | false =>
    by_cases hone : r.height = 1
    · rw [if_pos (by simpa using hone)]
      refine (changeRectAttributes_changed hb hleft htop hright hbottom).congr hb fun y _ x _ => ?_
      unfold Rect.height at hone
      unfold InArea Rect.Contains
      simp only [Bool.false_eq_true, if_false, not_before_iff]
      unfold Rect.origin
      dsimp only
      omega
    · rw [if_neg (by simpa using hone)]
      by_cases hstream : 1 < r.height ∧ r.left < r.right
      · rw [if_pos hstream]
        exact changeStreamAttributes_changed hb hleft htop hright hbottom hstream.1 hstream.2
      · rw [if_neg hstream]
        refine .none hb fun y _ x _ => ?_
        unfold Rect.height at hone hstream
        unfold InArea
        simp only [Bool.false_eq_true, if_false, not_before_iff]
        unfold Rect.origin
        dsimp only
        omega

end Spans

/-! ### The page -/

namespace AreaDispatch

variable {size : PageSize} {defaultAttributes : TextAttribute TextColor} {d : AreaDispatch (TextAttribute TextColor) size}

/-- The attributes of the cells of an area of the active page are changed, and nothing else on any page. -/
structure AttributesChanged (defaultAttributes : TextAttribute TextColor) (d d' : AreaDispatch (TextAttribute TextColor) size)
    (f : TextAttribute TextColor → TextAttribute TextColor) (area : Types.Point → Prop) [DecidablePred area] : Prop where
  attributes : ∀ y < size.height, ∀ x < size.width, ((d'.pages.activePage defaultAttributes).row y).attr[x]? =
    ((d.pages.activePage defaultAttributes).row y).attr[x]?.map fun a => if area ⟨x, y⟩ then f a else a
  text : ∀ y < size.height, (d'.pages.activePage defaultAttributes).row y =
    { (d.pages.activePage defaultAttributes).row y with attr := ((d'.pages.activePage defaultAttributes).row y).attr }
  outside : ∀ z < (d.pages.activePage defaultAttributes).buffer.text.height,
    z < (d.pages.activePage defaultAttributes).top ∨ (d.pages.activePage defaultAttributes).top + size.height ≤ z →
    (d'.pages.activePage defaultAttributes).buffer.text.getRow z =
      (d.pages.activePage defaultAttributes).buffer.text.getRow z
  page : ∃ rows, d'.pages.activePage defaultAttributes =
    { d.pages.activePage defaultAttributes with
      buffer := (d.pages.activePage defaultAttributes).buffer.withRows rows }
  others : d.pages.isMainBuffer = true → ∀ p, PageManager.clampPage p ≠ PageManager.clampPage d.pages.activePageNumber →
    d'.pages.get defaultAttributes p = d.pages.get defaultAttributes p

/-- The area that the parameters ask for, with defaults and inside the page. -/
def requestedArea (d : AreaDispatch (TextAttribute TextColor) size) (parameters : VTParameters) : Rect :=
  (d.scrollMargins.box size).area d.originMode (vtInt (parameters.at 0)) (vtInt (parameters.at 1))
    (valueOr (parameters.at 2) 0) (valueOr (parameters.at 3) 0)

/-- **The masks are the options, and the cells are those of the area.** -/
theorem deccara_changes (hs : d.pages.Sound) (hb : Covered (d.pages.activePage defaultAttributes).buffer.text)
    (parameters : VTParameters) :
    (∀ a, (ChangeOps.ofOptions (parameters.subspan 4)).change a = applyGraphicsOptions (parameters.subspan 4) a) ∧
      AttributesChanged defaultAttributes d (d.deccara defaultAttributes parameters)
        (applyGraphicsOptions (parameters.subspan 4))
        (InArea d.rectangularChangeExtent (d.requestedArea parameters)) := by
  refine ⟨ChangeOps.ofOptions_change _, ?_⟩
  have hchange : (ChangeOps.ofOptions (parameters.subspan 4)).change = applyGraphicsOptions (parameters.subspan 4) :=
    funext (ChangeOps.ofOptions_change _)
  have hwidth := @PageManager.Sound.activePage_width _ _ defaultAttributes _ hs
  have hheight := @PageManager.Sound.activePage_inside _ _ defaultAttributes _ hs
  obtain ⟨htop, hleft, hbottom, hright⟩ := (d.scrollMargins.box size).area_inside d.originMode
    (vtInt_pos (parameters.at 0)) (vtInt_pos (parameters.at 1)) (valueOr (parameters.at 2) 0) (valueOr (parameters.at 3) 0)
  have hrect := calculateRectArea_eq d.scrollMargins d.originMode (d.pages.activePage defaultAttributes) hwidth
    (vtInt (parameters.at 0)) (vtInt (parameters.at 1)) (valueOr (parameters.at 2) 0) (valueOr (parameters.at 3) 0)
  have hcells := @changeArea_changed (ChangeOps.ofOptions (parameters.subspan 4)) _ hb d.rectangularChangeExtent
    ((d.requestedArea parameters).below (d.pages.activePage defaultAttributes).top) hleft
    (by unfold Rect.below requestedArea; dsimp only; omega) (hwidth ▸ hright)
    (by unfold Rect.below requestedArea; dsimp only; omega)
  rw [hchange] at hcells
  generalize htext : changeArea _ _ _ _ _ = text at hcells
  have hpages : (d.deccara defaultAttributes parameters).pages =
      d.pages.writeRows defaultAttributes d.pages.activePageNumber text.rows := by
    unfold deccara changeAttributesRectangularArea changeRectOrStreamAttributes
    dsimp only
    rw [hrect, ← htext]
    rfl
  have hwritten := hs.writeRows defaultAttributes d.pages.activePageNumber text.rows
  have hpage : (d.deccara defaultAttributes parameters).pages.activePage defaultAttributes =
      { d.pages.activePage defaultAttributes with
        buffer := (d.pages.activePage defaultAttributes).buffer.withRows text.rows } := by
    rw [hpages]
    unfold PageManager.activePage
    rw [hwritten.activePageNumber]
    exact hwritten.page
  have hbuffer : ((d.deccara defaultAttributes parameters).pages.activePage defaultAttributes).buffer.text = text := by
    rw [hpage]
    exact hcells.same.symm
  have htop' : ((d.deccara defaultAttributes parameters).pages.activePage defaultAttributes).top =
      (d.pages.activePage defaultAttributes).top := by rw [hpage]
  have hrow : ∀ y < size.height, ((d.deccara defaultAttributes parameters).pages.activePage defaultAttributes).row y =
      ((d.pages.activePage defaultAttributes).row y).mapAttr
        (fun x => InArea d.rectangularChangeExtent (d.requestedArea parameters) ⟨x, y⟩)
        (applyGraphicsOptions (parameters.subspan 4)) := by
    intro y hy
    unfold Page.row
    rw [hbuffer, htop', hcells.rows _ (by omega)]
    refine Row.mapAttr_congr fun x _ => ?_
    have hbelow := inArea_below d.rectangularChangeExtent (d.requestedArea parameters)
      (d.pages.activePage defaultAttributes).top x y
    push_cast
    rw [Int.add_comm]
    exact hbelow
  constructor
  · intro y hy x _
    rw [hrow y hy, Row.getElem?_mapAttr]
  · intro y hy
    rw [hrow y hy]
    rfl
  · intro z hz hout
    rw [hbuffer, hcells.rows z hz]
    refine Row.mapAttr_none fun x _ => ?_
    unfold InArea Rect.Contains Rect.below requestedArea
    simp only [not_before_iff]
    unfold Rect.origin
    dsimp only
    split_ifs <;> omega
  · exact ⟨_, hpage⟩
  · intro hmain p hp
    rw [hpages]
    exact hwritten.others hmain p hp

/-! ### Streams that end on the left of where they begin -/

lemma twoLines_width : 0 < 4 := by decide

lemma twoLines_height : 0 < 2 := by decide

def twoLines : PageSize := ⟨4, 2, twoLines_width, twoLines_height⟩

/-- Two lines of four columns, in stream mode. -/
def streaming : AreaDispatch (TextAttribute TextColor) twoLines where
  pages :=
    { screen := ⟨.create twoLines ChangeOps.allAttrsOff, 0, by decide⟩
      isMainBuffer := true
      activePageNumber := 1
      visiblePageNumber := 1
      buffers := fun _ => none }
  scrollMargins := ⟨0, 0, 0, 0⟩
  originMode := false
  rectangularChangeExtent := false

theorem streaming_sound : streaming.pages.Sound :=
  ⟨fun _ => ⟨rfl, PageManager.isPage_one, PageManager.isPage_one, fun _ _ h => nomatch h⟩, rfl⟩

theorem streaming_covered : Covered (streaming.pages.activePage ChangeOps.allAttrsOff).buffer.text := by
  intro y _
  exact ⟨rfl, rfl⟩

/-- From 1;3 to 2;3, curly underlines. -/
def toTheRight : VTParameters where
  params := [some 1, some 3, some 2, some 3, some 4]
  subParams := [some 3]
  subParamRanges := [(0, 0), (0, 0), (0, 0), (0, 0), (0, 1)]

theorem deccara_changes_toTheRight :
    (∀ a, (ChangeOps.ofOptions (toTheRight.subspan 4)).change a = applyGraphicsOptions (toTheRight.subspan 4) a) ∧
      AttributesChanged ChangeOps.allAttrsOff streaming (streaming.deccara ChangeOps.allAttrsOff toTheRight)
        (applyGraphicsOptions (toTheRight.subspan 4))
        (InArea streaming.rectangularChangeExtent (streaming.requestedArea toTheRight)) :=
  deccara_changes streaming_sound streaming_covered toTheRight

/-- From 1;3 to 2;2, reversed. -/
def toTheLeft : VTParameters where
  params := [some 1, some 3, some 2, some 2, some 7]

/-- The last cell of the first line is between the two cells, and it does not change. -/
theorem stream_ignored :
    ¬Types.Point.before ⟨3, 0⟩ (streaming.requestedArea toTheLeft).origin ∧
    ¬Types.Point.before ⟨(streaming.requestedArea toTheLeft).right - 1, (streaming.requestedArea toTheLeft).bottom - 1⟩
      ⟨3, 0⟩ ∧
    ((streaming.pages.activePage ChangeOps.allAttrsOff).row 0).attr[3]? = some ChangeOps.allAttrsOff ∧
    (((streaming.deccara ChangeOps.allAttrsOff toTheLeft).pages.activePage ChangeOps.allAttrsOff).row 0).attr[3]? =
      some ChangeOps.allAttrsOff ∧
    applyGraphicsOptions (toTheLeft.subspan 4) ChangeOps.allAttrsOff ≠ ChangeOps.allAttrsOff := by
  refine ⟨by decide, by decide, by decide, by decide, ?_⟩
  unfold applyGraphicsOptions
  rw [applyGraphicsOptionsFrom, applyGraphicsOptionsFrom]
  decide

end AreaDispatch

end VT7.Adapter
