import VT7.Adapter.CopiedPages

/-!
# Copies of empty areas

The rows and columns that are written are counted by the same helper that replaces zeros by the end of the page.  An area
without cells may so become one with cells, and then what is copied shows on a page with a single mark.
-/

namespace VT7.Adapter

open VT7.Buffer
open VT7.Lib.Cells
open VT7.Types (Rect TextAttribute TextColor)
open VT7.Types.Viewport

variable {α : Type}

/-! ### When it does not -/

namespace Block

variable {B : Block} {source : Option (TextBuffer α)} {b b' : TextBuffer α} {k m : ℕ} {reads reads' : List Types.Point}
  {next : OutputCellView α} [DecidableEq α]

/-- A loop that ends has read the whole place. -/
theorem copyArea_reads (hm : 0 < m) (hk : k + m = B.size)
    (hok : copyArea source (fromDimensions ⟨B.l, B.t⟩ B.columns B.lines)
        (fromDimensions ⟨B.left, B.top⟩ B.columns B.lines) (direction B.forward) m
        (position B.l B.t B.columns (B.number k)) (position B.left B.top B.columns (B.number k)) next reads b =
          .ok (b', reads')) :
    (∀ p ∈ reads, p ∈ reads') ∧
      ∀ j, k < j → j < B.size → position B.l B.t B.columns (B.number j) ∈ reads' := by
  have hsize : B.size = B.columns * B.lines := rfl
  induction m generalizing k b next reads with
  | zero => omega
  | succ m ih =>
    have hlt : k < B.columns * B.lines := by omega
    unfold copyArea number at hok
    rw [walkInBounds_visited hlt B.forward, walkInBounds_visited hlt B.forward] at hok
    dsimp only at hok
    obtain ⟨view, -, hok⟩ := ok_of_bind hok
    obtain ⟨written, -, hok⟩ := ok_of_bind hok
    rcases Nat.eq_zero_or_pos m with rfl | hpos
    · rw [if_neg (by rw [decide_eq_true_eq]; omega)] at hok
      cases hok
      exact ⟨fun p hp => List.mem_cons_of_mem _ hp, fun j hj hj' => by omega⟩
    · rw [if_pos (by rw [decide_eq_true_eq]; omega), Nat.min_eq_left (by omega)] at hok
      obtain ⟨hkept, hlater⟩ := ih hpos (by omega) hok
      refine ⟨fun p hp => hkept p (List.mem_cons_of_mem _ hp), fun j hj hj' => ?_⟩
      rcases eq_or_ne j (k + 1) with rfl | hne
      · exact hkept _ (List.mem_cons_self ..)
      · exact hlater j (by omega) hj'

/-- A copy that succeeds has read the last cell of the place. -/
theorem copyRect_reads {srcRect dstRect : Rect} (hsrc : srcRect.origin = ⟨B.l, B.t⟩)
    (hdst : dstRect.origin = ⟨B.left, B.top⟩) (hcolumns : dstRect.width = B.columns) (hlines : dstRect.height = B.lines)
    (hforward : B.forward = true ↔ B.top < B.t ∨ B.top = B.t ∧ B.left < B.l)
    (hok : copyRect source srcRect dstRect b = .ok (b', reads)) :
    (⟨(B.l + B.columns - 1 : ℕ), (B.t + B.lines - 1 : ℕ)⟩ : Types.Point) ∈ reads := by
  have hcolumn : B.columns - 1 < B.columns := by have := B.columns_pos; omega
  have hline : B.lines - 1 < B.lines := by have := B.lines_pos; omega
  have hlast := index_lt hcolumn hline
  have hposition : position B.l B.t B.columns (B.number (B.number ((B.lines - 1) * B.columns + (B.columns - 1)))) =
      ⟨(B.l + B.columns - 1 : ℕ), (B.t + B.lines - 1 : ℕ)⟩ := by
    rw [position_place, number_number hlast, index_mod hcolumn, index_div hcolumn, Nat.add_sub_assoc B.columns_pos,
      Nat.add_sub_assoc B.lines_pos]
  unfold copyRect at hok
  dsimp only at hok
  have hsize : (dstRect.width * dstRect.height).toNat = B.size := by
    rw [hcolumns, hlines]
    rfl
  rw [hsize, hsrc, hdst, hcolumns, hlines, determineWalkDirection_block hforward,
    getWalkOrigin_visited B.columns_pos B.lines_pos, getWalkOrigin_visited B.columns_pos B.lines_pos] at hok
  obtain ⟨next, -, hok⟩ := ok_of_bind hok
  obtain ⟨hkept, hlater⟩ := copyArea_reads size_pos (Nat.zero_add _) hok
  rw [← hposition]
  rcases Nat.eq_zero_or_pos (B.number ((B.lines - 1) * B.columns + (B.columns - 1))) with hzero | hpos
  · rw [hzero]
    exact hkept _ (List.mem_singleton.mpr rfl)
  · exact hlater _ hpos (number_lt hlast)

end Block

/-! ### One marked cell -/

section Marked

variable {size : PageSize} {defaultAttributes other : α} {isMainBuffer : Bool} {p : ℤ} {x y : ℕ}

/-- A blank row, with other attributes in one column. -/
def markedRow (size : PageSize) (defaultAttributes other : α) (x : ℕ) : Row α :=
  { Row.create size.width defaultAttributes with attr := (List.replicate size.width defaultAttributes).set x other }

def markedText (size : PageSize) (defaultAttributes other : α) (x y : ℕ) : TextBuffer α :=
  (TextBuffer.create size.width size.height defaultAttributes).setRow y (markedRow size defaultAttributes other x)

/-- Blank pages, but for one cell of the page `p`, which is on the screen. -/
def marked (size : PageSize) (defaultAttributes other : α) (isMainBuffer : Bool) (p : ℤ) (x y : ℕ) : PageManager α size where
  screen := ⟨⟨markedText size defaultAttributes other x y, defaultAttributes, .initial⟩, 0,
    (Nat.zero_add size.height).trans_le (le_max_left _ _)⟩
  isMainBuffer := isMainBuffer
  activePageNumber := PageManager.clampPage p
  visiblePageNumber := PageManager.clampPage p
  buffers := fun _ => none

variable (hwidth : size.width < 0x8000)
include hwidth

lemma narrow_create : Narrow 1 (TextBuffer.create size.width size.height defaultAttributes) size.width size.height
    (fun _ _ => .blank [space]) (fun _ x => (List.replicate size.width defaultAttributes)[x]?) where
  displays := by
    refine ⟨max_eq_left size.width_pos, max_eq_left size.height_pos, fun y _ => ?_⟩
    have hrow : (TextBuffer.create size.width size.height defaultAttributes).getRow y =
        Row.create size.width defaultAttributes := congrArg (Row.create · _) (max_eq_left size.width_pos)
    rw [hrow]
    exact @create_displays _ defaultAttributes _ hwidth _ List.length_replicate
  whole _ _ _ := rfl
  light _ _ _ := le_rfl
  single _ _ := rfl

lemma narrow_marked (hy : y < size.height) : Narrow 1 (markedText size defaultAttributes other x y) size.width size.height
    (fun _ _ => .blank [space])
    (Function.update (fun _ x => (List.replicate size.width defaultAttributes)[x]?) y
      fun x' => ((List.replicate size.width defaultAttributes).set x other)[x']?) where
  displays := by
    have hrow := @create_displays _ defaultAttributes _ hwidth ((List.replicate size.width defaultAttributes).set x other)
      (by rw [List.length_set, List.length_replicate])
    have hset := (@narrow_create _ _ defaultAttributes hwidth).displays.setRow hy hrow
    rwa [Function.update_eq_self] at hset
  whole _ _ _ := rfl
  light _ _ _ := le_rfl
  single z hz := by
    rcases eq_or_ne z y with rfl | hne
    · unfold markedText
      rw [TextBuffer.getRow_setRow_self]
      rfl
    · have hheight : (TextBuffer.create size.width size.height defaultAttributes).height = size.height :=
        max_eq_left size.height_pos
      unfold markedText
      rw [TextBuffer.getRow_setRow_of_ne (by omega) (by omega) hne]
      rfl

omit hwidth in
lemma marked_sound : (marked size defaultAttributes other isMainBuffer p x y).Sound where
  inv h := ⟨h, PageManager.isPage_clampPage p, PageManager.isPage_clampPage p, fun _ _ h => nomatch h⟩
  width := max_eq_left size.width_pos

omit hwidth in
lemma marked_get (q : ℤ) : ((marked size defaultAttributes other isMainBuffer p x y).get defaultAttributes q).top = 0 ∧
    ((marked size defaultAttributes other isMainBuffer p x y).get defaultAttributes q).buffer.text =
      if (marked size defaultAttributes other isMainBuffer p x y).samePage q p then
        markedText size defaultAttributes other x y
      else TextBuffer.create size.width size.height defaultAttributes := by
  unfold PageManager.get PageManager.samePage marked
  cases isMainBuffer with
  | false => exact ⟨rfl, rfl⟩
  | true =>
    by_cases hpage : PageManager.clampPage q = PageManager.clampPage p
    · simp [hpage]
    · simp only [hpage, Bool.not_true, Bool.false_eq_true, if_false, decide_false, Bool.or_false]
      exact ⟨trivial, rfl⟩

lemma marked_narrow (hy : y < size.height) :
    (marked size defaultAttributes other isMainBuffer p x y).NarrowPages defaultAttributes 1 where
  room := by omega
  narrow q := by
    rw [(marked_get q).2]
    split
    · have hmarked := @narrow_marked _ _ defaultAttributes other x _ hwidth hy
      rw [hmarked.displays.height_eq]
      exact ⟨_, _, hmarked⟩
    · have hcreate := @narrow_create _ _ defaultAttributes hwidth
      rw [hcreate.displays.height_eq]
      exact ⟨_, _, hcreate⟩

lemma marked_content (hy : y < size.height) {q : ℤ} {x' y' : ℕ} (hx' : x' < size.width) (hy' : y' < size.height) :
    ((marked size defaultAttributes other isMainBuffer p x y).content defaultAttributes q x' y').2 =
      some (if (marked size defaultAttributes other isMainBuffer p x y).samePage q p ∧ x' = x ∧ y' = y then other
        else defaultAttributes) := by
  unfold PageManager.content
  dsimp only
  rw [(marked_get q).2]
  by_cases hsame : (marked size defaultAttributes other isMainBuffer p x y).samePage q p = true
  · have hattr := ((@narrow_marked _ _ defaultAttributes other x _ hwidth hy).displays.rows y' hy').attributes x'
    rw [if_pos hsame]
    refine hattr.trans ?_
    rcases eq_or_ne y' y with rfl | hne
    · rw [Function.update_self]
      rcases eq_or_ne x' x with rfl | hne
      · rw [List.getElem?_set_self (by rwa [List.length_replicate]), if_pos ⟨hsame, rfl, rfl⟩]
      · rw [List.getElem?_set_ne hne.symm, List.getElem?_replicate_of_lt hx', if_neg fun h => hne h.2.1]
    · rw [Function.update_of_ne hne, List.getElem?_replicate_of_lt hx', if_neg fun h => hne h.2.2]
  · have hattr := ((@narrow_create _ _ defaultAttributes hwidth).displays.rows y' hy').attributes x'
    rw [if_neg hsame, if_neg fun h => hsame h.1]
    exact hattr.trans (List.getElem?_replicate_of_lt hx')

end Marked

/-! ### The exact condition -/

namespace AreaDispatch

variable {size : PageSize} {defaultAttributes : α} {d : AreaDispatch α size} {parameters : VTParameters}

/-- The place that is read lies in the page it is read from. -/
theorem block_inside [DecidableEq α] (hs : d.pages.Sound) (hruns : d.Executes parameters)
    (hcopies : d.CopiesAtOnce parameters defaultAttributes) :
    (d.block parameters defaultAttributes hruns).l + (d.block parameters defaultAttributes hruns).columns ≤ size.width ∧
      (d.block parameters defaultAttributes hruns).t + (d.block parameters defaultAttributes hruns).lines ≤
        (d.pages.get defaultAttributes (sourcePage parameters)).top + size.height := by
  obtain ⟨d', reads, hok, hinside, -⟩ := hcopies
  rw [deccra_eq hs] at hok
  dsimp only at hok
  rw [if_pos hruns] at hok
  obtain ⟨⟨text, reads'⟩, hcopy, hok⟩ := ok_of_bind hok
  cases hok
  obtain ⟨hl, ht, hleft, htop, hcolumns, hlines⟩ := @block_place _ _ defaultAttributes _ _ hruns
  have hforward := @block_forward _ _ defaultAttributes _ _ hruns
  generalize d.block parameters defaultAttributes hruns = B at *
  have hlast := Block.copyRect_reads (by rw [hl, ht]; rfl) (by rw [hleft, htop]; rfl) (by rw [hcolumns]; rfl)
    (by rw [hlines]; exact below_height _ _) hforward hcopy
  have hin := hinside _ hlast
  have hcolumns' := B.columns_pos
  have hlines' := B.lines_pos
  dsimp only at hin
  omega

/-- The corner of an area is in the page, even if the area is empty. -/
lemma sourceArea_corner (d : AreaDispatch α size) (parameters : VTParameters) :
    (d.sourceArea parameters).left < size.width ∧ (d.sourceArea parameters).top < size.height := by
  have hx := (d.scrollMargins.box size).xLimits d.originMode
  have hy := (d.scrollMargins.box size).yLimits d.originMode
  unfold sourceArea MarginBox.area
  dsimp only
  omega

/-- The copy is right whatever is on the pages, and whichever of them are shown. -/
def CopiesAlways [DecidableEq α] (d : AreaDispatch α size) (parameters : VTParameters) (defaultAttributes : α) : Prop :=
  ∀ pages : PageManager α size, pages.isMainBuffer = d.pages.isMainBuffer → pages.Sound →
    (∃ units, pages.NarrowPages defaultAttributes units) →
      ({ d with pages } : AreaDispatch α size).CopiesAtOnce parameters defaultAttributes

section Showing

variable {pages : PageManager α size} (h : pages.isMainBuffer = d.pages.isMainBuffer)
include h

lemma samePage_congr (p q : ℤ) : pages.samePage p q = d.pages.samePage p q := by
  unfold PageManager.samePage
  rw [h]

lemma inPlace_congr : ({ d with pages } : AreaDispatch α size).InPlace parameters ↔ d.InPlace parameters := by
  unfold InPlace
  rw [← samePage_congr h]
  rfl

lemma executes_congr : ({ d with pages } : AreaDispatch α size).Executes parameters ↔
    (d.HasColumns parameters ∧ d.HasRows parameters) ∧ ¬d.InPlace parameters := by
  rw [executes_eq, inPlace_congr h]
  rfl

end Showing

/-- **An empty area is not copied at once**, when there are cells to write: one mark shows it. -/
theorem not_copiesAtOnce_marked [DecidableEq α] {other : α} (hother : other ≠ defaultAttributes)
    (hwidth : size.width < 0x8000) (hempty : ¬d.AsksForCells parameters) (hruns : d.Executes parameters)
    (hpages : d.pages = marked size defaultAttributes other d.pages.isMainBuffer (sourcePage parameters)
      (d.sourceArea parameters).left.toNat (d.sourceArea parameters).top.toNat) :
    ¬d.CopiesAtOnce parameters defaultAttributes := by
  intro hcopies
  have hcorner := sourceArea_corner d parameters
  obtain ⟨hsrcTop, hsrcLeft, -, -⟩ := sourceArea_inside d parameters
  obtain ⟨hdstTop, hdstLeft, hdstBottom, hdstRight⟩ := destinationArea_inside d parameters
  have hs : d.pages.Sound := hpages ▸ marked_sound
  have hn : d.pages.NarrowPages defaultAttributes 1 := hpages ▸ marked_narrow hwidth (by omega)
  have htops (p : ℤ) : (d.pages.get defaultAttributes p).top = 0 := hpages ▸ (marked_get p).1
  have hmark {p : ℤ} {x y : ℕ} (hx : x < size.width) (hy : y < size.height) :
      (d.pages.content defaultAttributes p x y).2 = some (if d.pages.samePage p (sourcePage parameters) ∧
        x = (d.sourceArea parameters).left.toNat ∧ y = (d.sourceArea parameters).top.toNat then other
          else defaultAttributes) := by
    rw [hpages]
    exact marked_content hwidth (by omega) hx hy
  have hself (p : ℤ) : d.pages.samePage p p = true := by
    unfold PageManager.samePage
    rw [decide_eq_true rfl, Bool.or_true]
  obtain ⟨hright, hbottom⟩ := block_inside hs hruns hcopies
  obtain ⟨text, reads, hok, htext, hcontent, -⟩ := copyRect_block hs hwidth hn hruns hright hbottom
  obtain ⟨d', reads', hok', -, hcells⟩ := hcopies
  rw [deccra_runs hs hruns hok] at hok'
  cases hok'
  obtain ⟨hl, ht, hleft, htop, -, -⟩ := @block_place _ _ defaultAttributes _ _ hruns
  have hinside := hs.get_inside defaultAttributes (destinationPage parameters)
  have hrange := hruns.1
  rw [htops] at ht htop hinside
  generalize d.block parameters defaultAttributes hruns = B at *
  -- The first cell of the destination gets the mark, although it does not correspond to any cell.
  have hcolumn : B.left < size.width := by omega
  have hline : B.top < size.height := by omega
  have hwritten : B.Written B.size B.left B.top :=
    Block.written_size.mpr ⟨⟨le_rfl, Nat.lt_add_of_pos_right B.columns_pos⟩, le_rfl, Nat.lt_add_of_pos_right B.lines_pos⟩
  have hcell := hcontent B.top (by omega) B.left hcolumn
  rw [if_pos hwritten, Nat.sub_self, Nat.sub_self, Nat.add_zero, Nat.add_zero] at hcell
  have hkept := hcells (destinationPage parameters) B.top (by omega) B.left hcolumn
  rw [if_neg fun h => not_receives hempty _ _ h.2, content_writeRows hs htext, if_pos (hself _), hcell] at hkept
  have hattr := congrArg Prod.snd hkept
  rw [hmark (by omega) (by omega), hmark hcolumn hline, if_pos ⟨hself _, by omega, by omega⟩, Option.some_inj] at hattr
  split at hattr
  · next hsource =>
    refine hruns.2 ⟨?_, ?_⟩
    · rw [PageManager.samePage_comm]
      exact hsource.1
    · rw [← destinationArea_origin]
      unfold Rect.origin
      rw [Types.Point.mk.injEq]
      omega
  · exact hother hattr

/-- **When the copy is right for every content of the pages.** -/
theorem copiesAlways_iff_of_ne [DecidableEq α] {other : α} (hother : other ≠ defaultAttributes)
    (hwidth : size.width < 0x8000) : d.CopiesAlways parameters defaultAttributes ↔
      d.AsksForCells parameters ∨ ¬(d.HasColumns parameters ∧ d.HasRows parameters) ∨ d.InPlace parameters := by
  constructor
  · intro halways
    by_contra hcondition
    simp only [not_or, not_not] at hcondition
    obtain ⟨hempty, hrange, hplace⟩ := hcondition
    have hcorner := sourceArea_corner d parameters
    obtain ⟨hsrcTop, hsrcLeft, -, -⟩ := sourceArea_inside d parameters
    obtain ⟨pages, hpages⟩ : ∃ pages, pages = marked size defaultAttributes other d.pages.isMainBuffer
      (sourcePage parameters) (d.sourceArea parameters).left.toNat (d.sourceArea parameters).top.toNat := ⟨_, rfl⟩
    have hmain : pages.isMainBuffer = d.pages.isMainBuffer := by
      rw [hpages]
      rfl
    have hruns := (executes_congr hmain).mpr ⟨hrange, hplace⟩
    have hs : pages.Sound := hpages ▸ marked_sound
    have hn : pages.NarrowPages defaultAttributes 1 := hpages ▸ marked_narrow hwidth (by omega)
    rw [← hmain] at hpages
    exact @not_copiesAtOnce_marked _ _ _ { d with pages } parameters _ other hother hwidth hempty hruns hpages
      (halways pages hmain hs ⟨1, hn⟩)
  · rintro hcondition pages hmain hs ⟨units, hn⟩
    by_cases hcells : d.AsksForCells parameters
    · exact copiesAtOnce_cells hs hwidth hn hcells
    · refine copiesAtOnce_idle hs (fun hruns => ?_) (fun h => absurd h hcells)
      obtain ⟨hrange, hplace⟩ := (executes_congr hmain).mp hruns
      rcases hcondition with h | h | h
      · exact hcells h
      · exact h hrange
      · exact hplace h

end AreaDispatch

namespace AreaDispatch

variable {size : PageSize}

/-- **When the cells of an area are copied at once**: if there are cells, or nothing to write. -/
theorem copiesAlways_iff (d : AreaDispatch (TextAttribute TextColor) size) (parameters : VTParameters)
    (defaultAttributes : TextAttribute TextColor) (hwidth : size.width < 0x8000) :
    d.CopiesAlways parameters defaultAttributes ↔
      d.AsksForCells parameters ∨ ¬(d.HasColumns parameters ∧ d.HasRows parameters) ∨ d.InPlace parameters := by
  have hother : ({ defaultAttributes with attrs := ~~~defaultAttributes.attrs } : TextAttribute TextColor) ≠
      defaultAttributes := by
    intro h
    have hbit := congrArg (fun a : TextAttribute TextColor => a.attrs.getLsbD 0) h
    simp at hbit
  exact copiesAlways_iff_of_ne hother hwidth

/-! ### An area that ends before it begins -/

lemma smallPage_width : 0 < 4 := by decide

lemma smallPage_height : 0 < 2 := by decide

def smallPage : PageSize := ⟨4, 2, smallPage_width, smallPage_height⟩

def plain : TextAttribute TextColor where
  foreground := {}
  background := {}
  underlineColor := {}

def marker : TextAttribute TextColor := { plain with attrs := 1 }

/-- A mark at the beginning of the second line. -/
def withMark : AreaDispatch (TextAttribute TextColor) smallPage where
  pages := marked smallPage plain marker true 1 0 1
  scrollMargins := ⟨0, 0, 0, 0⟩
  originMode := false
  rectangularChangeExtent := false

/-- From the lines 2 to 1, to line 5 and column 3. -/
def upsideDown : VTParameters where
  params := [some 2, some 1, some 1, some 1, some 1, some 5, some 3, some 1]

theorem copiesAlways_iff_upsideDown : withMark.CopiesAlways upsideDown plain ↔
    withMark.AsksForCells upsideDown ∨ ¬(withMark.HasColumns upsideDown ∧ withMark.HasRows upsideDown) ∨
      withMark.InPlace upsideDown :=
  copiesAlways_iff withMark upsideDown plain (by decide)

/-- The area has no lines, and the mark is copied to the end of the last line. -/
theorem emptyArea_copied :
    (withMark.sourceArea upsideDown).height = 0 ∧ (withMark.pages.content plain 1 2 1).2 =
      some plain ∧
    ∃ d reads, withMark.deccra plain upsideDown = .ok (d, reads) ∧
      (d.pages.content plain 1 2 1).2 = some marker := by
  refine ⟨by decide, by decide, _, _, rfl, by decide⟩

end AreaDispatch

end VT7.Adapter
