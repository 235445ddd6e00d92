import Mathlib.Data.Int.Order.Basic
import VT7.Buffer.TextBuffer
import VT7.Lib.Run

/-!
# The pages of the terminal

`PageManager`: six pages share the main buffer.  The visible page is in the viewport of the main buffer, the others are
in buffers of their own, which are created when a page is first needed.  `MoveTo` swaps the contents when the visible
page changes, and takes the cursor and the attributes to the new active page.

`CopyRow` copies a row exactly.  A page is read through `PageManager.get`.
-/

namespace VT7.Adapter

open VT7.Buffer

/-- The size of a viewport. -/
structure PageSize where
  width : ℕ
  height : ℕ
  width_pos : 0 < width
  height_pos : 0 < height
deriving DecidableEq

/-- What `Cursor::CopyProperties` copies beside the position. -/
structure CursorProperties where
  isVisible : Bool
  isBlinking : Bool
  size : ℕ
  type : ℕ
  isDouble : Bool
deriving DecidableEq

/-- A cursor that has just been constructed. -/
def CursorProperties.initial : CursorProperties := ⟨true, true, 0, 0, false⟩

/-- A `TextBuffer` with its cursor and its current attributes. -/
structure PageBuffer (α : Type) where
  text : TextBuffer α
  currentAttributes : α
  properties : CursorProperties

namespace PageBuffer

variable {α : Type}

/-- `GetSize().Dimensions()` is the size. -/
def hasSize (b : PageBuffer α) (size : PageSize) : Bool := b.text.width = size.width && b.text.height = size.height

/-- The constructor. -/
def create (size : PageSize) (attributes : α) : PageBuffer α where
  text := .create size.width size.height attributes
  currentAttributes := attributes
  properties := .initial

/-- `CopyRow`, into another buffer. -/
def copyRow (src : PageBuffer α) (srcRowIndex dstRowIndex : ℕ) (dst : PageBuffer α) : PageBuffer α :=
  { dst with text := dst.text.setRow dstRowIndex (src.text.getRow srcRowIndex) }

/-- A loop of `CopyRow` over `count` rows. -/
def copyRows (src : PageBuffer α) (srcTop dstTop : ℕ) : ℕ → PageBuffer α → PageBuffer α
  | 0, dst => dst
  | count + 1, dst => src.copyRow (srcTop + count) (dstTop + count) (copyRows src srcTop dstTop count dst)

/-- `ResizeTraditional`. -/
def resizeTraditional (b : PageBuffer α) (size : PageSize) : PageBuffer α :=
  let newBuffer := create size b.currentAttributes
  let copyableRows := min b.text.height size.height
  let srcRow := if (size.height : ℤ) ≤ b.text.cursorY then (b.text.cursorY - size.height + 1).toNat else 0
  let newBuffer := b.copyRows srcRow 0 copyableRows newBuffer
  { b with text := { newBuffer.text with cursorX := b.text.cursorX, cursorY := b.text.cursorY } }

/-- `SetCurrentAttributes`, `CopyProperties` and `SetPosition`: the cursor of the old buffer, moved from the page that
begins at `oldTop` to the one that begins at `newTop`. -/
def takeCursor (newBuffer oldBuffer : PageBuffer α) (oldTop newTop : ℕ) : PageBuffer α where
  text := { newBuffer.text with
    cursorX := oldBuffer.text.cursorX
    cursorY := oldBuffer.text.cursorY - oldTop + newTop }
  currentAttributes := oldBuffer.currentAttributes
  properties := oldBuffer.properties

/-- `Cursor::SetIsVisible`. -/
def setIsVisible (b : PageBuffer α) (enable : Bool) : PageBuffer α :=
  { b with properties := { b.properties with isVisible := enable } }

end PageBuffer

/-- `PageManager::MAX_PAGES`. -/
def maxPages : ℤ := 6

/-- What the terminal shows: the main buffer with its viewport. -/
structure Screen (α : Type) (size : PageSize) where
  buffer : PageBuffer α
  /-- The top of the viewport. -/
  top : ℕ
  inside : top + size.height ≤ buffer.text.height

/-- A `Page`, with the buffer as it is. -/
structure Page (α : Type) where
  buffer : PageBuffer α
  top : ℕ
  number : ℤ

namespace Page

variable {α : Type}

/-- A row of the page. -/
def row (page : Page α) (y : ℕ) : Row α := page.buffer.text.getRow (page.top + y)

/-- The position of the cursor in the page. -/
def position (page : Page α) : ℤ × ℤ := (page.buffer.text.cursorX, page.buffer.text.cursorY - page.top)

def attributes (page : Page α) : α := page.buffer.currentAttributes

end Page

/-- `PageManager`, with the screen it asks the terminal for. -/
structure PageManager (α : Type) (size : PageSize) where
  screen : Screen α size
  isMainBuffer : Bool
  activePageNumber : ℤ
  visiblePageNumber : ℤ
  /-- The buffer of page `n` at `n - 1`. -/
  buffers : ℕ → Option (PageBuffer α)

namespace PageManager

variable {α : Type} {size : PageSize} (defaultAttributes : α)

/-- The buffer that `_getBuffer` gives. -/
def backing (m : PageManager α size) (pageNumber : ℤ) : PageBuffer α :=
  match m.buffers (pageNumber - 1).toNat with
  | none => .create size defaultAttributes
  | some buffer => if !buffer.hasSize size then buffer.resizeTraditional size else buffer

/-- A buffer is kept for the page. -/
def setBacking (m : PageManager α size) (pageNumber : ℤ) (buffer : PageBuffer α) : PageManager α size :=
  { m with buffers := Function.update m.buffers (pageNumber - 1).toNat (some buffer) }

/-- `_getBuffer`, which keeps what it creates. -/
def getBuffer (m : PageManager α size) (pageNumber : ℤ) : PageManager α size :=
  m.setBacking pageNumber (m.backing defaultAttributes pageNumber)

/-- The page number that is meant. -/
def clampPage (pageNumber : ℤ) : ℤ := min (max pageNumber 1) maxPages

/-- `Get`. -/
def get (m : PageManager α size) (pageNumber : ℤ) : Page α :=
  if !m.isMainBuffer then ⟨m.screen.buffer, m.screen.top, 1⟩
  else if clampPage pageNumber = m.visiblePageNumber then ⟨m.screen.buffer, m.screen.top, m.visiblePageNumber⟩
  else ⟨m.backing defaultAttributes (clampPage pageNumber), 0, clampPage pageNumber⟩

/-- `ActivePage`. -/
def activePage (m : PageManager α size) : Page α := m.get defaultAttributes m.activePageNumber

/-- Rows of the main buffer are replaced. -/
def setScreen (m : PageManager α size) (buffer : PageBuffer α) (h : buffer.text.height = m.screen.buffer.text.height) :
    PageManager α size :=
  { m with screen := ⟨buffer, m.screen.top, h ▸ m.screen.inside⟩ }

theorem copyRows_height (src : PageBuffer α) (srcTop dstTop count : ℕ) (dst : PageBuffer α) :
    (src.copyRows srcTop dstTop count dst).text.height = dst.text.height := by
  induction count with
  | zero => rfl
  | succ count ih => exact ih

/-- The two loops of `CopyRow`, and the new visible page. -/
def exchange (m : PageManager α size) (newPageNumber : ℤ) : PageManager α size :=
  let newBuffer := m.backing defaultAttributes newPageNumber
  let saveBuffer := m.backing defaultAttributes m.visiblePageNumber
  let saved := m.screen.buffer.copyRows m.screen.top 0 size.height saveBuffer
  let shown := newBuffer.copyRows 0 m.screen.top size.height m.screen.buffer
  let m := m.setBacking m.visiblePageNumber saved
  { m.setScreen shown (copyRows_height _ _ _ _ _) with visiblePageNumber := newPageNumber }

/-- The visible page is swapped out into its own buffer, and the new page into the main buffer. -/
def swap (m : PageManager α size) (newPageNumber : ℤ) : PageManager α size :=
  ((m.getBuffer defaultAttributes newPageNumber).getBuffer defaultAttributes m.visiblePageNumber).exchange
    defaultAttributes newPageNumber

/-- The buffer properties go from the old active page to the new one.  The buffers differ unless both pages are
background pages with one number. -/
def carry (m : PageManager α size) (wasVisible isVisible : Bool) (newPageNumber : ℤ) : PageManager α size :=
  match wasVisible, isVisible with
  | true, true => m
  | true, false =>
    let newBuffer := m.backing defaultAttributes newPageNumber
    let m := m.setBacking newPageNumber (newBuffer.takeCursor m.screen.buffer m.screen.top 0)
    m.setScreen (m.screen.buffer.setIsVisible false) rfl
  | false, true =>
    let m := m.getBuffer defaultAttributes m.activePageNumber
    let oldBuffer := m.backing defaultAttributes m.activePageNumber
    m.setScreen (m.screen.buffer.takeCursor oldBuffer 0 m.screen.top) rfl
  | false, false =>
    let m := (m.getBuffer defaultAttributes m.activePageNumber).getBuffer defaultAttributes newPageNumber
    let oldBuffer := m.backing defaultAttributes m.activePageNumber
    let newBuffer := m.backing defaultAttributes newPageNumber
    if m.activePageNumber ≠ newPageNumber then m.setBacking newPageNumber (newBuffer.takeCursor oldBuffer 0 0) else m

/-- `MoveTo`. -/
def moveTo (m : PageManager α size) (pageNumber : ℤ) (makeVisible : Bool) : PageManager α size :=
  if !m.isMainBuffer then m
  else
    let wasVisible : Bool := m.activePageNumber = m.visiblePageNumber
    let newPageNumber := clampPage pageNumber
    let m := if makeVisible && m.visiblePageNumber ≠ newPageNumber then m.swap defaultAttributes newPageNumber else m
    let isVisible : Bool := newPageNumber = m.visiblePageNumber
    { m.carry defaultAttributes wasVisible isVisible newPageNumber with activePageNumber := newPageNumber }

/-- `MoveRelative`; the sum is one of 32-bit integers. -/
def moveRelative (m : PageManager α size) (pageCount : ℤ) (makeVisible : Bool) : PageManager α size :=
  m.moveTo defaultAttributes ((m.activePageNumber + pageCount).bmod (2 ^ 32)) makeVisible

/-- `MakeActivePageVisible`. -/
def makeActivePageVisible (m : PageManager α size) : PageManager α size :=
  if m.activePageNumber ≠ m.visiblePageNumber then m.moveTo defaultAttributes m.activePageNumber true else m

end PageManager

/-! ### Rows -/

namespace PageBuffer

variable {α : Type}

/-- What copying rows leaves alone. -/
structure SameFrame (b b' : PageBuffer α) : Prop where
  width : b'.text.width = b.text.width
  height : b'.text.height = b.text.height
  cursorX : b'.text.cursorX = b.text.cursorX
  cursorY : b'.text.cursorY = b.text.cursorY
  attributes : b'.currentAttributes = b.currentAttributes

theorem copyRows_frame (src : PageBuffer α) (srcTop dstTop count : ℕ) (dst : PageBuffer α) :
    dst.SameFrame (src.copyRows srcTop dstTop count dst) := by
  induction count with
  | zero => exact ⟨rfl, rfl, rfl, rfl, rfl⟩
  | succ count ih => exact ⟨ih.width, ih.height, ih.cursorX, ih.cursorY, ih.attributes⟩

/-- **The rows are copied**, when the destination has room for them. -/
theorem getRow_copyRows (src : PageBuffer α) (srcTop : ℕ) {dstTop count : ℕ} {dst : PageBuffer α}
    (hroom : dstTop + count ≤ dst.text.height) {y : ℕ} (hy : y < count) :
    (src.copyRows srcTop dstTop count dst).text.getRow (dstTop + y) = src.text.getRow (srcTop + y) := by
  induction count with
  | zero => omega
  | succ count ih =>
    have hheight := (copyRows_frame src srcTop dstTop count dst).height
    simp only [copyRows, copyRow]
    rcases eq_or_ne y count with rfl | hne
    · exact TextBuffer.getRow_setRow_self _ _ _
    · rw [TextBuffer.getRow_setRow_of_ne (by omega) (by omega) (by omega)]
      exact ih (by omega) (by omega)

lemma hasSize_iff {b : PageBuffer α} {size : PageSize} :
    b.hasSize size = true ↔ b.text.width = size.width ∧ b.text.height = size.height := by
  simp [hasSize]

lemma SameFrame.hasSize {b b' : PageBuffer α} (h : b.SameFrame b') {size : PageSize} (hsize : b.hasSize size = true) :
    b'.hasSize size = true := by
  rw [hasSize_iff] at hsize ⊢
  rw [h.width, h.height]
  exact hsize

lemma hasSize_create (size : PageSize) (attributes : α) : (create size attributes).hasSize size = true := by
  have hwidth := size.width_pos
  have hheight := size.height_pos
  rw [hasSize_iff]
  exact ⟨max_eq_left hwidth, max_eq_left hheight⟩

end PageBuffer

namespace PageManager

open PageBuffer

variable {α : Type} {size : PageSize} {defaultAttributes : α} {m : PageManager α size}

/-- A page that there is. -/
def IsPage (p : ℤ) : Prop := 1 ≤ p ∧ p ≤ maxPages

lemma isPage_one : IsPage 1 := ⟨by decide, by decide⟩

lemma isPage_clampPage (p : ℤ) : IsPage (clampPage p) := by
  unfold IsPage clampPage maxPages
  omega

lemma clampPage_of_isPage {p : ℤ} (h : IsPage p) : clampPage p = p := by
  unfold IsPage maxPages at h
  unfold clampPage maxPages
  omega

/-- The buffers kept have the size of the page. -/
def Sized (m : PageManager α size) : Prop := ∀ index buffer, m.buffers index = some buffer → buffer.hasSize size = true

lemma Sized.backing (h : m.Sized) (defaultAttributes : α) (p : ℤ) : (m.backing defaultAttributes p).hasSize size = true := by
  unfold PageManager.backing
  split
  · exact hasSize_create _ _
  · next buffer hbuffer =>
    have hsize := h _ _ hbuffer
    rw [hsize]
    exact hsize

lemma Sized.setBacking (h : m.Sized) (p : ℤ) {buffer : PageBuffer α} (hbuffer : buffer.hasSize size = true) :
    (m.setBacking p buffer).Sized := by
  intro index other hother
  rcases eq_or_ne index (p - 1).toNat with rfl | hne
  · simp only [PageManager.setBacking, Function.update_self, Option.some.injEq] at hother
    rwa [← hother]
  · simp only [PageManager.setBacking, Function.update_of_ne hne] at hother
    exact h _ _ hother

lemma backing_setBacking_self (p : ℤ) {buffer : PageBuffer α} (hbuffer : buffer.hasSize size = true) :
    (m.setBacking p buffer).backing defaultAttributes p = buffer := by
  simp [PageManager.backing, PageManager.setBacking, hbuffer]

lemma backing_setBacking_of_ne {p q : ℤ} (hp : IsPage p) (hq : IsPage q) (hne : q ≠ p) (buffer : PageBuffer α) :
    (m.setBacking p buffer).backing defaultAttributes q = m.backing defaultAttributes q := by
  have hindex : (q - 1).toNat ≠ (p - 1).toNat := by
    unfold IsPage at hp hq
    omega
  simp only [PageManager.backing, PageManager.setBacking, Function.update_of_ne hindex]

lemma Sized.getBuffer (h : m.Sized) (defaultAttributes : α) (p : ℤ) : (m.getBuffer defaultAttributes p).Sized :=
  h.setBacking p (h.backing defaultAttributes p)

/-- Creating a buffer changes no page. -/
lemma Sized.backing_getBuffer (h : m.Sized) (defaultAttributes : α) {p q : ℤ} (hp : IsPage p) (hq : IsPage q) :
    (m.getBuffer defaultAttributes p).backing defaultAttributes q = m.backing defaultAttributes q := by
  unfold PageManager.getBuffer
  rcases eq_or_ne q p with rfl | hne
  · exact backing_setBacking_self q (h.backing defaultAttributes q)
  · exact backing_setBacking_of_ne hp hq hne _

/-- What the operations rely on. -/
structure Inv (m : PageManager α size) : Prop where
  main : m.isMainBuffer = true
  active : IsPage m.activePageNumber
  visible : IsPage m.visiblePageNumber
  sized : m.Sized

lemma get_visible (hi : m.Inv) {p : ℤ} (hshown : p = m.visiblePageNumber) :
    m.get defaultAttributes p = ⟨m.screen.buffer, m.screen.top, p⟩ := by
  unfold get
  subst hshown
  rw [hi.main, clampPage_of_isPage hi.visible, if_pos rfl]
  rfl

lemma get_background (hi : m.Inv) {p : ℤ} (hp : IsPage p) (hne : p ≠ m.visiblePageNumber) :
    m.get defaultAttributes p = ⟨m.backing defaultAttributes p, 0, p⟩ := by
  unfold get
  rw [hi.main, clampPage_of_isPage hp, if_neg hne]
  rfl

/-! ### The swap -/

/-- What `swap` does. -/
structure Swapped (defaultAttributes : α) (m m' : PageManager α size) (newPageNumber : ℤ) : Prop where
  main : m'.isMainBuffer = m.isMainBuffer
  active : m'.activePageNumber = m.activePageNumber
  visible : m'.visiblePageNumber = newPageNumber
  sized : m'.Sized
  top : m'.screen.top = m.screen.top
  frame : m.screen.buffer.SameFrame m'.screen.buffer
  shown : ∀ y < size.height, m'.screen.buffer.text.getRow (m.screen.top + y) =
    (m.backing defaultAttributes newPageNumber).text.getRow y
  saved : ∀ y < size.height, (m'.backing defaultAttributes m.visiblePageNumber).text.getRow y =
    m.screen.buffer.text.getRow (m.screen.top + y)
  others : ∀ p, IsPage p → p ≠ m.visiblePageNumber → m'.backing defaultAttributes p = m.backing defaultAttributes p

theorem exchange_spec (defaultAttributes : α) (hi : m.Inv) (newPageNumber : ℤ) :
    Swapped defaultAttributes m (m.exchange defaultAttributes newPageNumber) newPageNumber := by
  have hsize := hi.sized.backing defaultAttributes m.visiblePageNumber
  have hsaved : (m.screen.buffer.copyRows m.screen.top 0 size.height
      (m.backing defaultAttributes m.visiblePageNumber)).hasSize size = true := (copyRows_frame _ _ _ _ _).hasSize hsize
  refine ⟨rfl, rfl, rfl, hi.sized.setBacking _ hsaved, rfl, copyRows_frame _ _ _ _ _, fun y hy => ?_, fun y hy => ?_,
    fun p hp hnot => backing_setBacking_of_ne hi.visible hp hnot _⟩
  · show ((m.backing defaultAttributes newPageNumber).copyRows 0 m.screen.top size.height m.screen.buffer).text.getRow _ = _
    rw [getRow_copyRows _ _ m.screen.inside hy, Nat.zero_add]
  · show ((m.setBacking _ _).backing _ _).text.getRow _ = _
    rw [backing_setBacking_self _ hsaved, ← Nat.zero_add y,
      getRow_copyRows _ _ (by rw [(hasSize_iff.mp hsize).2, Nat.zero_add]) hy, Nat.zero_add]

/-- **The swap**: creating the buffers first changes no page. -/
theorem swap_spec (defaultAttributes : α) (hi : m.Inv) {newPageNumber : ℤ} (hnew : IsPage newPageNumber) :
    Swapped defaultAttributes m (m.swap defaultAttributes newPageNumber) newPageNumber := by
  have hsized := hi.sized.getBuffer defaultAttributes newPageNumber
  have hbacking : ∀ q, IsPage q → ((m.getBuffer defaultAttributes newPageNumber).getBuffer defaultAttributes
      m.visiblePageNumber).backing defaultAttributes q = m.backing defaultAttributes q := fun q hq =>
    (hsized.backing_getBuffer _ hi.visible hq).trans (hi.sized.backing_getBuffer _ hnew hq)
  have hi' : ((m.getBuffer defaultAttributes newPageNumber).getBuffer defaultAttributes m.visiblePageNumber).Inv :=
    ⟨hi.main, hi.active, hi.visible, hsized.getBuffer _ _⟩
  have h := exchange_spec defaultAttributes hi' newPageNumber
  exact ⟨h.main, h.active, h.visible, h.sized, h.top, h.frame, fun y hy => (h.shown y hy).trans (by rw [hbacking _ hnew]),
    h.saved, fun p hp hnot => (h.others p hp hnot).trans (hbacking p hp)⟩

/-! ### The properties -/

/-- The page that is active before a move. -/
def oldPage (defaultAttributes : α) (m : PageManager α size) (wasVisible : Bool) : Page α :=
  if wasVisible then ⟨m.screen.buffer, m.screen.top, m.activePageNumber⟩
  else ⟨m.backing defaultAttributes m.activePageNumber, 0, m.activePageNumber⟩

/-- What `carry` does. -/
structure Carried (defaultAttributes : α) (m m' : PageManager α size) (wasVisible : Bool) (newPageNumber : ℤ) : Prop where
  main : m'.isMainBuffer = m.isMainBuffer
  active : m'.activePageNumber = m.activePageNumber
  visible : m'.visiblePageNumber = m.visiblePageNumber
  sized : m'.Sized
  rows : ∀ p, IsPage p → ∀ y, (m'.get defaultAttributes p).row y = (m.get defaultAttributes p).row y
  position : (m'.get defaultAttributes newPageNumber).position = (oldPage defaultAttributes m wasVisible).position
  attributes : (m'.get defaultAttributes newPageNumber).attributes = (oldPage defaultAttributes m wasVisible).attributes

lemma position_takeCursor (newBuffer oldBuffer : PageBuffer α) (oldTop newTop : ℕ) (number number' : ℤ) :
    (⟨newBuffer.takeCursor oldBuffer oldTop newTop, newTop, number⟩ : Page α).position =
      (⟨oldBuffer, oldTop, number'⟩ : Page α).position := by
  simp [Page.position, takeCursor]

/-- A manager with the same texts shows the same rows. -/
lemma rows_of_texts {m' : PageManager α size} (hi : m.Inv) (hi' : m'.Inv)
    (hvisible : m'.visiblePageNumber = m.visiblePageNumber) (htop : m'.screen.top = m.screen.top)
    (hscreen : ∀ y, m'.screen.buffer.text.getRow y = m.screen.buffer.text.getRow y)
    (hbacking : ∀ p, IsPage p → ∀ y, (m'.backing defaultAttributes p).text.getRow y =
      (m.backing defaultAttributes p).text.getRow y) {p : ℤ} (hp : IsPage p) (y : ℕ) :
    (m'.get defaultAttributes p).row y = (m.get defaultAttributes p).row y := by
  by_cases hshown : p = m.visiblePageNumber
  · rw [get_visible hi hshown, get_visible hi' (hshown.trans hvisible.symm)]
    simp only [Page.row, htop, hscreen]
  · rw [get_background hi hp hshown, get_background hi' hp (hvisible ▸ hshown)]
    exact hbacking p hp _

theorem carry_spec (defaultAttributes : α) (hi : m.Inv) {newPageNumber : ℤ} (hnew : IsPage newPageNumber)
    (wasVisible isVisible : Bool) (hvisible : isVisible = true ↔ newPageNumber = m.visiblePageNumber) :
    Carried defaultAttributes m (m.carry defaultAttributes wasVisible isVisible newPageNumber) wasVisible newPageNumber := by
  cases wasVisible with
  | true =>
    cases isVisible with
    | true =>
      have hshown := hvisible.mp rfl
      refine ⟨rfl, rfl, rfl, hi.sized, fun _ _ _ => rfl, ?_, ?_⟩
      · show (m.get _ _).position = _
        rw [get_visible hi hshown]
        rfl
      · show (m.get _ _).attributes = _
        rw [get_visible hi hshown]
        rfl
    | false =>
      have hne : newPageNumber ≠ m.visiblePageNumber := fun h => nomatch hvisible.mpr h
      have htaken : ((m.backing defaultAttributes newPageNumber).takeCursor m.screen.buffer m.screen.top 0).hasSize size =
          true := hi.sized.backing defaultAttributes newPageNumber
      have hi' : (m.carry defaultAttributes true false newPageNumber).Inv :=
        ⟨hi.main, hi.active, hi.visible, hi.sized.setBacking _ htaken⟩
      have hself : (m.carry defaultAttributes true false newPageNumber).backing defaultAttributes newPageNumber =
          (m.backing defaultAttributes newPageNumber).takeCursor m.screen.buffer m.screen.top 0 :=
        backing_setBacking_self _ htaken
      refine ⟨rfl, rfl, rfl, hi'.sized, fun p hp y => rows_of_texts hi hi' rfl rfl (fun _ => rfl) (fun q hq y => ?_) hp y,
        ?_, ?_⟩
      · rcases eq_or_ne q newPageNumber with rfl | hother
        · rw [hself]
          rfl
        · show ((m.setBacking _ _).backing _ _).text.getRow y = _
          rw [backing_setBacking_of_ne hnew hq hother]
      · rw [get_background hi' hnew hne, hself]
        exact position_takeCursor _ _ _ _ _ _
      · rw [get_background hi' hnew hne, hself]
        rfl
  | false =>
    cases isVisible with
    | true =>
      have hshown := hvisible.mp rfl
      have hi' : (m.carry defaultAttributes false true newPageNumber).Inv :=
        ⟨hi.main, hi.active, hi.visible, hi.sized.getBuffer _ _⟩
      have hself : (m.carry defaultAttributes false true newPageNumber).screen.buffer =
          m.screen.buffer.takeCursor (m.backing defaultAttributes m.activePageNumber) 0 m.screen.top := by
        rw [← hi.sized.backing_getBuffer defaultAttributes hi.active hi.active]
        rfl
      refine ⟨rfl, rfl, rfl, hi'.sized, fun p hp y => rows_of_texts hi hi' rfl rfl (fun _ => rfl) (fun q hq y => ?_) hp y,
        ?_, ?_⟩
      · show ((m.getBuffer _ _).backing _ _).text.getRow y = _
        rw [hi.sized.backing_getBuffer _ hi.active hq]
      · rw [get_visible hi' hshown, hself]
        exact position_takeCursor _ _ _ _ _ _
      · rw [get_visible hi' hshown, hself]
        rfl
    | false =>
      have hne : newPageNumber ≠ m.visiblePageNumber := fun h => nomatch hvisible.mpr h
      have hsized := hi.sized.getBuffer defaultAttributes m.activePageNumber
      have hbacking : ∀ q, IsPage q → ((m.getBuffer defaultAttributes m.activePageNumber).getBuffer defaultAttributes
          newPageNumber).backing defaultAttributes q = m.backing defaultAttributes q := fun q hq =>
        (hsized.backing_getBuffer _ hnew hq).trans (hi.sized.backing_getBuffer _ hi.active hq)
      by_cases hmoved : m.activePageNumber ≠ newPageNumber
      · have htaken : ((m.backing defaultAttributes newPageNumber).takeCursor
            (m.backing defaultAttributes m.activePageNumber) 0 0).hasSize size = true :=
          hi.sized.backing defaultAttributes newPageNumber
        have heq : m.carry defaultAttributes false false newPageNumber =
            ((m.getBuffer defaultAttributes m.activePageNumber).getBuffer defaultAttributes newPageNumber).setBacking
              newPageNumber ((m.backing defaultAttributes newPageNumber).takeCursor
                (m.backing defaultAttributes m.activePageNumber) 0 0) := by
          rw [← hbacking _ hnew, ← hbacking _ hi.active]
          exact if_pos hmoved
        rw [heq]
        have hi' : (((m.getBuffer defaultAttributes m.activePageNumber).getBuffer defaultAttributes newPageNumber).setBacking
              newPageNumber ((m.backing defaultAttributes newPageNumber).takeCursor
                (m.backing defaultAttributes m.activePageNumber) 0 0)).Inv :=
          ⟨hi.main, hi.active, hi.visible, (hsized.getBuffer _ _).setBacking _ htaken⟩
        refine ⟨rfl, rfl, rfl, hi'.sized, fun p hp y => rows_of_texts hi hi' rfl rfl (fun _ => rfl) (fun q hq y => ?_) hp y,
          ?_, ?_⟩
        · rcases eq_or_ne q newPageNumber with rfl | hother
          · rw [backing_setBacking_self _ htaken]
            rfl
          · rw [backing_setBacking_of_ne hnew hq hother, hbacking q hq]
        · rw [get_background hi' hnew hne, backing_setBacking_self _ htaken]
          exact position_takeCursor _ _ _ _ _ _
        · rw [get_background hi' hnew hne, backing_setBacking_self _ htaken]
          rfl
      · have hsame := not_ne_iff.mp hmoved
        have heq : m.carry defaultAttributes false false newPageNumber =
            (m.getBuffer defaultAttributes m.activePageNumber).getBuffer defaultAttributes newPageNumber := if_neg hmoved
        rw [heq]
        have hi' : ((m.getBuffer defaultAttributes m.activePageNumber).getBuffer defaultAttributes newPageNumber).Inv :=
          ⟨hi.main, hi.active, hi.visible, hsized.getBuffer _ _⟩
        refine ⟨rfl, rfl, rfl, hi'.sized, fun p hp y => rows_of_texts hi hi' rfl rfl (fun _ => rfl) (fun q hq y => ?_) hp y,
          ?_, ?_⟩
        · rw [hbacking q hq]
        · rw [get_background hi' hnew hne, hbacking _ hnew, ← hsame]
          rfl
        · rw [get_background hi' hnew hne, hbacking _ hnew, ← hsame]
          rfl

/-! ### A move -/

lemma Swapped.inv {m' : PageManager α size} {newPageNumber : ℤ} (h : Swapped defaultAttributes m m' newPageNumber)
    (hi : m.Inv) (hnew : IsPage newPageNumber) : m'.Inv :=
  ⟨h.main.trans hi.main, h.active ▸ hi.active, h.visible ▸ hnew, h.sized⟩

/-- **The swap shows the same pages.** -/
theorem Swapped.rows {m' : PageManager α size} {newPageNumber : ℤ} (h : Swapped defaultAttributes m m' newPageNumber)
    (hi : m.Inv) (hnew : IsPage newPageNumber) (hne : m.visiblePageNumber ≠ newPageNumber) {p : ℤ} (hp : IsPage p) {y : ℕ}
    (hy : y < size.height) : (m'.get defaultAttributes p).row y = (m.get defaultAttributes p).row y := by
  have hi' := h.inv hi hnew
  by_cases hshown : p = newPageNumber
  · rw [get_visible hi' (hshown.trans h.visible.symm), get_background hi hp (hshown ▸ hne.symm)]
    show m'.screen.buffer.text.getRow (m'.screen.top + y) = _
    rw [h.top, h.shown y hy, hshown]
    simp only [Page.row, Nat.zero_add]
  · rw [get_background hi' hp (h.visible ▸ hshown)]
    by_cases hsaved : p = m.visiblePageNumber
    · rw [get_visible hi hsaved]
      simp only [Page.row, Nat.zero_add]
      rw [hsaved, h.saved y hy]
    · rw [get_background hi hp hsaved, h.others p hp hsaved]

/-- The swap leaves the properties of the active page where they are. -/
lemma Swapped.oldPage {m' : PageManager α size} {newPageNumber : ℤ} (h : Swapped defaultAttributes m m' newPageNumber)
    (hi : m.Inv) {wasVisible : Bool} (hwas : wasVisible = true ↔ m.activePageNumber = m.visiblePageNumber) :
    (oldPage defaultAttributes m' wasVisible).position = (oldPage defaultAttributes m wasVisible).position ∧
      (oldPage defaultAttributes m' wasVisible).attributes = (oldPage defaultAttributes m wasVisible).attributes := by
  cases wasVisible with
  | true =>
    simp only [PageManager.oldPage, if_true, Page.position, Page.attributes, h.top, h.frame.cursorX, h.frame.cursorY,
      h.frame.attributes, and_self]
  | false =>
    have hne : m.activePageNumber ≠ m.visiblePageNumber := fun h => nomatch hwas.mpr h
    have hsame := h.others m.activePageNumber hi.active hne
    simp only [PageManager.oldPage, Bool.false_eq_true, if_false, Page.position, Page.attributes, h.active, hsame, and_self]

lemma activePage_eq (hi : m.Inv) {wasVisible : Bool} (hwas : wasVisible = true ↔ m.activePageNumber = m.visiblePageNumber) :
    m.activePage defaultAttributes = oldPage defaultAttributes m wasVisible := by
  cases wasVisible with
  | true => exact get_visible hi (hwas.mp rfl)
  | false => exact get_background hi hi.active fun h => nomatch hwas.mpr h

/-- What a move does. -/
structure Moved (defaultAttributes : α) (m m' : PageManager α size) : Prop where
  inv : m'.Inv
  rows : ∀ p, IsPage p → ∀ y < size.height, (m'.get defaultAttributes p).row y = (m.get defaultAttributes p).row y
  position : (m'.activePage defaultAttributes).position = (m.activePage defaultAttributes).position
  attributes : (m'.activePage defaultAttributes).attributes = (m.activePage defaultAttributes).attributes

theorem Moved.refl (hi : m.Inv) : Moved defaultAttributes m m := ⟨hi, fun _ _ _ _ => rfl, rfl, rfl⟩

/-- **A move changes no page**, and takes the cursor and the attributes along. -/
theorem moveTo_moved (hi : m.Inv) (pageNumber : ℤ) (makeVisible : Bool) :
    Moved defaultAttributes m (m.moveTo defaultAttributes pageNumber makeVisible) := by
  have hnew := isPage_clampPage pageNumber
  have hwas : decide (m.activePageNumber = m.visiblePageNumber) = true ↔ m.activePageNumber = m.visiblePageNumber :=
    decide_eq_true_iff
  -- the contents first
  obtain ⟨m₁, hm₁, hi₁, hrows, hposition, hattributes⟩ : ∃ m₁, m₁ =
      (if (makeVisible && m.visiblePageNumber ≠ clampPage pageNumber) = true then
        m.swap defaultAttributes (clampPage pageNumber) else m) ∧ m₁.Inv ∧
      (∀ p, IsPage p → ∀ y < size.height, (m₁.get defaultAttributes p).row y = (m.get defaultAttributes p).row y) ∧
      (oldPage defaultAttributes m₁ (decide (m.activePageNumber = m.visiblePageNumber))).position =
        (m.activePage defaultAttributes).position ∧
      (oldPage defaultAttributes m₁ (decide (m.activePageNumber = m.visiblePageNumber))).attributes =
        (m.activePage defaultAttributes).attributes := by
    refine ⟨_, rfl, ?_⟩
    rw [activePage_eq hi hwas]
    split_ifs with hswap
    · rw [Bool.and_eq_true, decide_eq_true_iff] at hswap
      have h := swap_spec defaultAttributes hi hnew
      exact ⟨h.inv hi hnew, fun p hp y hy => h.rows hi hnew hswap.2 hp hy, h.oldPage hi hwas⟩
    · exact ⟨hi, fun _ _ _ _ => rfl, rfl, rfl⟩
  have h := carry_spec defaultAttributes hi₁ hnew (decide (m.activePageNumber = m.visiblePageNumber))
    (decide (clampPage pageNumber = m₁.visiblePageNumber)) decide_eq_true_iff
  have hmove : m.moveTo defaultAttributes pageNumber makeVisible =
      { m₁.carry defaultAttributes (decide (m.activePageNumber = m.visiblePageNumber))
          (decide (clampPage pageNumber = m₁.visiblePageNumber)) (clampPage pageNumber) with
        activePageNumber := clampPage pageNumber } := by
    unfold moveTo
    rw [hi.main, hm₁]
    rfl
  have hvisible : IsPage (m₁.carry defaultAttributes (decide (m.activePageNumber = m.visiblePageNumber))
      (decide (clampPage pageNumber = m₁.visiblePageNumber)) (clampPage pageNumber)).visiblePageNumber := by
    rw [h.visible]
    exact hi₁.visible
  rw [hmove]
  exact ⟨⟨h.main.trans hi₁.main, hnew, hvisible, h.sized⟩,
    fun p hp y hy => (h.rows p hp y).trans (hrows p hp y hy), h.position.trans hposition, h.attributes.trans hattributes⟩

end PageManager

/-! ### Runs -/

/-- What happens to the pages.  A write leaves any rows, cursor and attributes on the active page; on the visible page
it may scroll the viewport. -/
inductive PageEvent (α : Type) (size : PageSize)
  | moveTo (pageNumber : ℤ) (makeVisible : Bool)
  | moveRelative (pageCount : ℤ) (makeVisible : Bool)
  | makeActivePageVisible
  | writeVisible (screen : Screen α size)
  | writeBackground (buffer : PageBuffer α)

structure PageRun (α : Type) (size : PageSize) where
  pages : PageManager α size
  /-- The rows that were written last, by page. -/
  written : ℤ → ℕ → Row α

namespace PageRun

open PageManager

variable {α : Type} {size : PageSize} (defaultAttributes : α)

/-- The rows of the active page are written. -/
def write (r : PageRun α size) (pages : PageManager α size) (rows : ℕ → Row α) : PageRun α size :=
  ⟨pages, Function.update r.written r.pages.activePageNumber rows⟩

/-- **A step of the run.**  The active page is in the main buffer or in its own. -/
def step (r : PageRun α size) : PageEvent α size → Option (PageRun α size)
  | .moveTo pageNumber makeVisible =>
    some { r with pages := r.pages.moveTo defaultAttributes pageNumber makeVisible }
  | .moveRelative pageCount makeVisible =>
    some { r with pages := r.pages.moveRelative defaultAttributes pageCount makeVisible }
  | .makeActivePageVisible => some { r with pages := r.pages.makeActivePageVisible defaultAttributes }
  | .writeVisible screen =>
    if r.pages.activePageNumber = r.pages.visiblePageNumber then
      some (r.write { r.pages with screen := screen } fun y => screen.buffer.text.getRow (screen.top + y))
    else none
  | .writeBackground buffer =>
    if r.pages.activePageNumber ≠ r.pages.visiblePageNumber ∧ buffer.hasSize size = true then
      some (r.write (r.pages.setBacking r.pages.activePageNumber buffer) buffer.text.getRow)
    else none

/-- The pages before anything is written: the first page shows the screen, the others are blank. -/
def start (screen : Screen α size) : PageRun α size :=
  let pages : PageManager α size := ⟨screen, true, 1, 1, fun _ => none⟩
  ⟨pages, fun p => (pages.get defaultAttributes p).row⟩

/-- What every run keeps. -/
structure Inv (r : PageRun α size) : Prop where
  inv : r.pages.Inv
  rows : ∀ p, IsPage p → ∀ y < size.height, (r.pages.get defaultAttributes p).row y = r.written p y

variable {defaultAttributes} {r r' : PageRun α size}

theorem inv_start (screen : Screen α size) : Inv defaultAttributes (start defaultAttributes screen) :=
  ⟨⟨rfl, isPage_one, isPage_one, fun _ _ h => nomatch h⟩, fun _ _ _ _ => rfl⟩

lemma Inv.move (hi : Inv defaultAttributes r) {pages : PageManager α size} (h : Moved defaultAttributes r.pages pages) :
    Inv defaultAttributes { r with pages := pages } :=
  ⟨h.inv, fun p hp y hy => (h.rows p hp y hy).trans (hi.rows p hp y hy)⟩

/-- A write changes the active page only. -/
lemma Inv.write (hi : Inv defaultAttributes r) {pages : PageManager α size} {rows : ℕ → Row α} (hinv : pages.Inv)
    (hactive : ∀ y, (pages.get defaultAttributes r.pages.activePageNumber).row y = rows y)
    (hothers : ∀ p, IsPage p → p ≠ r.pages.activePageNumber → ∀ y,
      (pages.get defaultAttributes p).row y = (r.pages.get defaultAttributes p).row y) :
    Inv defaultAttributes (r.write pages rows) := by
  refine ⟨hinv, fun p hp y hy => ?_⟩
  simp only [PageRun.write]
  rcases eq_or_ne p r.pages.activePageNumber with rfl | hne
  · rw [Function.update_self]
    exact hactive y
  · rw [Function.update_of_ne hne, hothers p hp hne y]
    exact hi.rows p hp y hy

lemma makeActivePageVisible_moved {m : PageManager α size} (hi : m.Inv) :
    Moved defaultAttributes m (m.makeActivePageVisible defaultAttributes) := by
  unfold makeActivePageVisible
  split_ifs
  · exact moveTo_moved hi _ _
  · exact .refl hi

theorem inv_step (hi : Inv defaultAttributes r) {event : PageEvent α size} (h : r.step defaultAttributes event = some r') :
    Inv defaultAttributes r' := by
  cases event with
  | moveTo | moveRelative =>
    obtain rfl := Option.some.inj h
    exact hi.move (moveTo_moved hi.inv _ _)
  | makeActivePageVisible =>
    obtain rfl := Option.some.inj h
    exact hi.move (makeActivePageVisible_moved hi.inv)
  | writeVisible screen =>
    simp only [step] at h
    split_ifs at h with hshown
    obtain rfl := Option.some.inj h
    have hi' : PageManager.Inv { r.pages with screen := screen } :=
      ⟨hi.inv.main, hi.inv.active, hi.inv.visible, hi.inv.sized⟩
    refine hi.write hi' (fun y => ?_) fun p hp hne y => ?_
    · rw [get_visible hi' hshown]
      rfl
    · have hback := hshown ▸ hne
      rw [get_background hi' hp hback, get_background hi.inv hp hback]
      rfl
  | writeBackground buffer =>
    simp only [step] at h
    split_ifs at h with hshown
    obtain rfl := Option.some.inj h
    have hi' : (r.pages.setBacking r.pages.activePageNumber buffer).Inv :=
      ⟨hi.inv.main, hi.inv.active, hi.inv.visible, hi.inv.sized.setBacking _ hshown.2⟩
    refine hi.write hi' (fun y => ?_) fun p hp hne y => ?_
    · rw [get_background hi' hi.inv.active hshown.1, backing_setBacking_self _ hshown.2]
      simp only [Page.row, Nat.zero_add]
    · by_cases hvisible : p = r.pages.visiblePageNumber
      · rw [get_visible hi' hvisible, get_visible hi.inv hvisible]
        rfl
      · rw [get_background hi' hp hvisible, get_background hi.inv hp hvisible, backing_setBacking_of_ne hi.inv.active hp hne]

/-- **Paging loses nothing**: in every run each page shows the rows written to it last, the viewport shows the visible
page, the page numbers stay in range, and a move takes the cursor and the attributes along. -/
theorem pages_run (defaultAttributes : α) (screen : Screen α size) {events : List (PageEvent α size)}
    (hrun : Lib.Run.run (step defaultAttributes) (start defaultAttributes screen) events = some r) :
    (∀ p, IsPage p → ∀ y < size.height, (r.pages.get defaultAttributes p).row y = r.written p y) ∧
      (∀ y < size.height, r.pages.screen.buffer.text.getRow (r.pages.screen.top + y) =
        r.written r.pages.visiblePageNumber y) ∧
      IsPage r.pages.activePageNumber ∧ IsPage r.pages.visiblePageNumber ∧
      ∀ pages, ((∃ pageNumber makeVisible, pages = r.pages.moveTo defaultAttributes pageNumber makeVisible) ∨
          (∃ pageCount makeVisible, pages = r.pages.moveRelative defaultAttributes pageCount makeVisible) ∨
          pages = r.pages.makeActivePageVisible defaultAttributes) →
        (pages.activePage defaultAttributes).position = (r.pages.activePage defaultAttributes).position ∧
          (pages.activePage defaultAttributes).attributes = (r.pages.activePage defaultAttributes).attributes := by
  have hi := Lib.Run.run_invariant (fun _ _ _ h hi => inv_step hi h) hrun (inv_start screen)
  refine ⟨hi.rows, fun y hy => ?_, hi.inv.active, hi.inv.visible, fun pages hmove => ?_⟩
  · have h := hi.rows _ hi.inv.visible y hy
    rwa [get_visible hi.inv rfl] at h
  · have h : Moved defaultAttributes r.pages pages := by
      rcases hmove with ⟨pageNumber, makeVisible, rfl⟩ | ⟨pageCount, makeVisible, rfl⟩ | rfl
      · exact moveTo_moved hi.inv _ _
      · exact moveTo_moved hi.inv _ _
      · exact makeActivePageVisible_moved hi.inv
    exact ⟨h.position, h.attributes⟩

/-- A viewport of two columns and one row. -/
def smallSize : PageSize := ⟨2, 1, by decide, by decide⟩

/-- A screen with one row of scrollback. -/
def smallScreen : Screen ℕ smallSize := ⟨⟨.create 2 2 0, 0, .initial⟩, 1, by decide⟩

/-- The second page is written in the background and then shown. -/
theorem pages_run_shown : ∃ r, Lib.Run.run (step 0) (start 0 smallScreen)
    [.moveTo 2 false, .writeBackground (.create smallSize 7), .makeActivePageVisible, .moveRelative (-1) true] = some r ∧
      IsPage r.pages.visiblePageNumber := by
  have hsome : (Lib.Run.run (step 0) (start 0 smallScreen) [.moveTo 2 false, .writeBackground (.create smallSize 7),
      .makeActivePageVisible, .moveRelative (-1) true]).isSome = true := rfl
  obtain ⟨r, hrun⟩ := Option.isSome_iff_exists.mp hsome
  exact ⟨r, hrun, (pages_run 0 smallScreen hrun).2.2.2.1⟩

end PageRun

end VT7.Adapter
