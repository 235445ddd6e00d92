import VT7.Adapter.LineFeeds
import VT7.Adapter.ScrollForms

/-!
# What a line feed leaves of the page

Whatever the rows hold: the page stays inside its buffer and the cursor on a row of the page.  A line feed that scrolls
leaves the cursor on a single-width row (`Fed.scrolls`); any other changes no line rendition (`Fed.moves`).
-/

namespace VT7.Adapter

open VT7.Buffer
open VT7.Types (Rect)

variable {α : Type} {size : PageSize}

/-! ### Line widths -/

section Widths

variable {b b' : TextBuffer α} {y : ℕ}

lemma getRowByOffset_natCast (b : TextBuffer α) (hy : y < b.height) : b.getRowByOffset y = b.getRow y := by
  unfold TextBuffer.getRowByOffset
  rw [← Int.natCast_mod, Int.toNat_natCast, Nat.mod_eq_of_lt hy]

lemma getLineWidth_eq (b : TextBuffer α) (hy : y < b.height) :
    b.getLineWidth y = if (b.getRow y).lineRendition = .singleWidth then b.width else (b.width / 2 : ℕ) := by
  unfold TextBuffer.getLineWidth TextBuffer.isDoubleWidthLine
  rw [getRowByOffset_natCast b hy]
  by_cases hsingle : (b.getRow y).lineRendition = .singleWidth
  · rw [if_pos hsingle, if_neg (by simp [hsingle]), Nat.shiftRight_zero]
  · rw [if_neg hsingle, if_pos (by simp [hsingle]), Nat.shiftRight_eq_div_pow, Nat.pow_one]

lemma getLineWidth_congr (hwidth : b'.width = b.width) (hheight : b'.height = b.height) (hy : y < b.height)
    (hrow : (b'.getRow y).lineRendition = (b.getRow y).lineRendition) : b'.getLineWidth y = b.getLineWidth y := by
  rw [getLineWidth_eq b hy, getLineWidth_eq b' (hheight ▸ hy), hwidth, hrow]

end Widths

/-! ### Buffers that stay uniform -/

section Uniform

variable {b : TextBuffer α} {eraseAttributes : α}

lemma setWrapForced_keepsForm (b : TextBuffer α) (y : ℤ) (wrapForced : Bool) :
    TextBuffer.KeepsForm b (b.setWrapForced y wrapForced) :=
  .setRowByOffset y rfl

lemma setWrapForced_lineRendition (b : TextBuffer α) (y : ℤ) (wrapForced : Bool) :
    TextBuffer.KeepsRenditions b (b.setWrapForced y wrapForced) :=
  .setRowByOffset y rfl

lemma uniform_incrementCircularBuffer (h : b.Uniform) (hfirst : b.firstRow < b.height) :
    (b.incrementCircularBuffer eraseAttributes).Uniform := by
  intro y hy
  have hy : y < b.height := hy
  rw [getRow_incrementCircularBuffer hfirst hy]
  split
  · exact h 0 (Nat.zero_lt_of_lt hfirst)
  · exact h (y + 1) (by omega)

lemma firstRow_incrementCircularBuffer (hfirst : b.firstRow < b.height) :
    (b.incrementCircularBuffer eraseAttributes).firstRow < b.height := by
  show (if b.height ≤ b.firstRow + 1 then 0 else b.firstRow + 1) < b.height
  split <;> omega

end Uniform

namespace PrintDispatch

/-- The page lies in its buffer, with rows as wide as it is, and the cursor is on one of its rows. -/
structure OnPage (d : PrintDispatch α size) : Prop where
  width : d.text.width = size.width
  inside : d.top + size.height ≤ d.text.height
  firstRow : d.text.firstRow < d.text.height
  uniform : d.text.Uniform
  first : (d.top : ℤ) ≤ d.position.y
  last : d.position.y < d.top + size.height

/-- A line feed to the column `newX` does not scroll. -/
def Moves (d : PrintDispatch α size) (newX : ℤ) : Prop :=
  d.position.y ≠ d.box.bottom + d.top ∨ newX < d.box.left ∨ d.box.right < newX

instance (d : PrintDispatch α size) (newX : ℤ) : Decidable (d.Moves newX) := inferInstanceAs (Decidable (_ ∨ _))

/-- What a line feed to the column `newX` leaves. -/
structure Fed (d d' : PrintDispatch α size) (newX : ℤ) (viewportMoved : Bool) : Prop where
  page : d'.OnPage
  box : d'.box = d.box
  top : d'.top = d.top + viewportMoved.toNat
  moves : d.Moves newX → viewportMoved = false ∧
    (∀ y < d.text.height, (d'.text.getRow y).lineRendition = (d.text.getRow y).lineRendition) ∧
    d'.position.y = min (d.position.y + 1) (d.top + size.height - 1) ∧
    d'.position.x = min newX (d'.text.getLineWidth d'.position.y - 1)
  scrolls : ¬d.Moves newX → d'.position = ⟨newX, d'.box.bottom + d'.top⟩ ∧
    d'.text.getLineWidth d'.position.y = size.width

section Feeding

variable {d d' : PrintDispatch α size} {eraseAttributes : α} {cwd : Clustering} {withReturn wrapForced : Bool}
variable {textBuffer text : TextBuffer α} {newX : ℤ} {viewportMoved : Bool}

/-- A cursor is set on a row of the page, in a buffer that has kept its form. -/
lemma OnPage.withCursor (h : d.OnPage) {m : ScrollMargins} {top : ℕ} {position : Types.Point}
    (hwidth : text.width = d.text.width) (hheight : text.height = d.text.height)
    (hfirstRow : text.firstRow < d.text.height) (huniform : text.Uniform) (hinside : top + size.height ≤ d.text.height)
    (hfirst : (top : ℤ) ≤ position.y) (hlast : position.y < top + size.height) :
    ({ d with scrollMargins := m, top := top }.withCursor text position : PrintDispatch α size).OnPage where
  width := hwidth.trans h.width
  inside := hinside.trans_eq hheight.symm
  firstRow := hfirstRow.trans_eq hheight.symm
  uniform := huniform
  first := hfirst
  last := hlast

lemma OnPage.bottom (h : d.OnPage) : d.box.bottom + d.top < d.text.height ∧ 0 ≤ d.box.bottom := by
  have hinside := h.inside
  have hbottom := d.box.bottom_lt
  have htop := d.box.top_nonneg
  have htop' := d.box.top_le
  omega

/-- A page that has been scrolled, in a buffer whose row `y` is single-width. -/
lemma Fed.of_scroll (h : d.OnPage) (hstay : ¬d.Moves newX) (viewportMoved : Bool) (hwidth : text.width = d.text.width)
    (hheight : text.height = d.text.height) (hfirstRow : text.firstRow < d.text.height) (huniform : text.Uniform)
    (hinside : d.top + viewportMoved.toNat + size.height ≤ d.text.height) {y : ℕ}
    (hy : (y : ℤ) = d.box.bottom + (d.top + viewportMoved.toNat : ℕ))
    (hsingle : (text.getRow y).lineRendition = .singleWidth) :
    Fed d ({ d with scrollMargins := d.scrollMargins.read size, top := d.top + viewportMoved.toNat }.withCursor text
      ⟨newX, y⟩) newX viewportMoved := by
  have hbottom := d.box.bottom_lt
  have hnonneg := h.bottom.2
  have hbox := ScrollMargins.box_read d.scrollMargins size
  refine ⟨h.withCursor hwidth hheight hfirstRow huniform hinside ?_ ?_, hbox, rfl, fun hmoves => absurd hmoves hstay,
    fun _ => ⟨?_, ?_⟩⟩
  · show ((d.top + viewportMoved.toNat : ℕ) : ℤ) ≤ y
    omega
  · show (y : ℤ) < (d.top + viewportMoved.toNat : ℕ) + size.height
    omega
  · show (⟨newX, y⟩ : Types.Point) = ⟨newX, ((d.scrollMargins.read size).box size).bottom + _⟩
    rw [hbox, hy]
    rfl
  · show text.getLineWidth y = size.width
    rw [getLineWidth_eq text (by omega), if_pos hsingle, hwidth, h.width]

/-- **A line feed that scrolls.** -/
lemma scrollForFeed_fed [DecidableEq α] (h : d.OnPage) (hkept : TextBuffer.KeepsForm d.text textBuffer)
    (hstay : ¬d.Moves newX)
    (hok : d.scrollForFeed cwd eraseAttributes textBuffer newX = .ok (d', viewportMoved)) :
    Fed d d' newX viewportMoved := by
  have hrow : d.position.y = d.box.bottom + d.top := by
    unfold Moves at hstay
    omega
  obtain ⟨hlt, hnonneg⟩ := h.bottom
  have hinside := h.inside
  have hbottom := d.box.bottom_lt
  have hheight := hkept.height
  have hfirstRow : textBuffer.firstRow < d.text.height := by
    rw [hkept.same]
    exact h.firstRow
  obtain ⟨y, hy⟩ := Int.eq_ofNat_of_zero_le (show 0 ≤ d.box.bottom + d.top by omega)
  unfold scrollForFeed at hok
  dsimp only at hok
  split at hok
  · obtain ⟨text, hscrolled, hok⟩ := ok_of_bind hok
    cases hok
    have hlines : d.region.top < d.region.bottom := by
      have hle := d.box.top_le
      unfold region
      dsimp only
      omega
    obtain ⟨hkept', hsingle⟩ := scrollRectVertically_keepsForm (by rfl) hlines hscrolled
    have hline : (y : ℤ) = if 0 < (-1 : ℤ) then d.region.top else d.region.bottom - 1 := by
      rw [if_neg (by omega)]
      unfold region
      dsimp only
      omega
    rw [hrow, hy]
    exact Fed.of_scroll h hstay false (hkept.trans hkept').width (hkept.trans hkept').height
      (by rw [(hkept.trans hkept').same]; exact h.firstRow) ((hkept.trans hkept').uniform h.uniform)
      hinside hy.symm (hsingle y (by omega) hline)
  split at hok
  · next hroom =>
    obtain ⟨text, hscrolled, hok⟩ := ok_of_bind hok
    cases hok
    have hrow' : d.position.y + 1 = (y + 1 : ℕ) := by omega
    rw [hrow'] at hscrolled ⊢
    have hrevealed : TextBuffer.KeepsForm textBuffer text ∧ (text.getRow (y + 1)).lineRendition = .singleWidth := by
      split at hscrolled
      · next hlower =>
        obtain ⟨hkept', hsingle⟩ := scrollRectVertically_keepsForm (by rfl) (by dsimp only; omega) hscrolled
        exact ⟨hkept', hsingle (y + 1) (by omega) (by rw [if_pos (by omega)]; push_cast; omega)⟩
      · cases hscrolled
        refine ⟨.setRowByOffset _ rfl, ?_⟩
        unfold TextBuffer.setRowByOffset
        rw [← Int.natCast_mod, Int.toNat_natCast, Nat.mod_eq_of_lt (by omega), TextBuffer.getRow_setRow_self]
        rfl
    obtain ⟨hkept', hsingle⟩ := hrevealed
    exact Fed.of_scroll h hstay true (hkept.trans hkept').width (hkept.trans hkept').height
      (by rw [(hkept.trans hkept').same]; exact h.firstRow) ((hkept.trans hkept').uniform h.uniform)
      (by show d.top + 1 + size.height ≤ _; omega) (by show ((y + 1 : ℕ) : ℤ) = _ + ((d.top + 1 : ℕ) : ℤ); omega)
      hsingle
  · next hfull =>
    obtain ⟨text, hscrolled, hok⟩ := ok_of_bind hok
    cases hok
    rw [hrow, hy]
    have hfirst : textBuffer.firstRow < textBuffer.height := hheight ▸ hfirstRow
    have hrevealed : TextBuffer.KeepsForm (textBuffer.incrementCircularBuffer eraseAttributes) text ∧
        (text.getRow y).lineRendition = .singleWidth := by
      split at hscrolled
      · next hlower =>
        obtain ⟨hkept', hsingle⟩ := scrollRectVertically_keepsForm (by rfl) (by dsimp only; omega) hscrolled
        exact ⟨hkept', hsingle y (by show y < textBuffer.height; omega) (by rw [if_pos (by omega)]; exact hy.symm)⟩
      · cases hscrolled
        refine ⟨.refl _, ?_⟩
        rw [getRow_incrementCircularBuffer hfirst (by omega), if_pos (by omega)]
        rfl
    obtain ⟨hkept', hsingle⟩ := hrevealed
    have hfirstRow' : text.firstRow < d.text.height := by
      rw [hkept'.same, ← hheight]
      exact firstRow_incrementCircularBuffer hfirst
    exact Fed.of_scroll h hstay false (hkept'.width.trans hkept.width) (hkept'.height.trans hheight) hfirstRow'
      (hkept'.uniform (uniform_incrementCircularBuffer (hkept.uniform h.uniform) hfirst)) hinside hy.symm hsingle

lemma scrollForFeed_error [DecidableEq α] {error : WriteCellsError}
    (hok : d.scrollForFeed cwd eraseAttributes textBuffer newX = .error error) : error ≠ .buffer .unfinished := by
  have hwidth := size.width_pos
  unfold scrollForFeed at hok
  dsimp only at hok
  split at hok
  · rcases error_of_bind hok with hscrolled | ⟨text, -, hok⟩
    · refine scrollRectVertically_ends ?_ hscrolled
      have hle := d.box.left_le
      unfold Rect.width region
      dsimp only
      omega
    · cases hok
  split at hok
  · rcases error_of_bind hok with hscrolled | ⟨text, -, hok⟩
    · split at hscrolled
      · exact scrollRectVertically_ends (by unfold Rect.width; dsimp only; omega) hscrolled
      · cases hscrolled
    · cases hok
  · rcases error_of_bind hok with hscrolled | ⟨text, -, hok⟩
    · split at hscrolled
      · exact scrollRectVertically_ends (by unfold Rect.width; dsimp only; omega) hscrolled
      · cases hscrolled
    · cases hok

/-- **A line feed** keeps the page. -/
theorem doLineFeed_fed [DecidableEq α] (h : d.OnPage)
    (hok : d.doLineFeed cwd eraseAttributes withReturn wrapForced = .ok (d', viewportMoved)) :
    Fed d d' (d.feedColumn withReturn) viewportMoved := by
  have hkept := setWrapForced_keepsForm d.text d.position.y wrapForced
  have hrenditions := (setWrapForced_lineRendition d.text d.position.y wrapForced).lineRendition
  rw [doLineFeed_eq h.width] at hok
  dsimp only at hok
  generalize d.text.setWrapForced d.position.y wrapForced = textBuffer at *
  by_cases hmoves : d.Moves (d.feedColumn withReturn)
  · rw [if_pos (by exact hmoves)] at hok
    cases hok
    have hinside := h.inside
    have hfirst := h.first
    have hlast := h.last
    have hpos := size.height_pos
    exact {
      page := h.withCursor hkept.width hkept.height (by rw [hkept.same]; exact h.firstRow) (hkept.uniform h.uniform)
        hinside (by show (d.top : ℤ) ≤ min _ _; omega) (by show min _ _ < _; omega)
      box := ScrollMargins.box_read d.scrollMargins size
      top := rfl
      moves := fun _ => ⟨rfl, hrenditions, rfl, rfl⟩
      scrolls := fun hstay => absurd hmoves hstay }
  · rw [if_neg (by exact hmoves)] at hok
    exact scrollForFeed_fed h hkept hmoves hok

theorem doLineFeed_error [DecidableEq α] (h : d.OnPage) {error : WriteCellsError}
    (hok : d.doLineFeed cwd eraseAttributes withReturn wrapForced = .error error) : error ≠ .buffer .unfinished := by
  rw [doLineFeed_eq h.width] at hok
  dsimp only at hok
  split at hok
  · cases hok
  · exact scrollForFeed_error hok

/-! ### Rows in order -/

lemma content_withCursor (d : PrintDispatch α size) (hcontent : Content text) (position : Types.Point) :
    Content (d.withCursor text position).text := ⟨hcontent.rows, hcontent.columns, hcontent.attributes⟩

/-- **A line feed** of a page whose rows are in order throws nothing and leaves such rows. -/
theorem doLineFeed_content [DecidableEq α] (hs : d.Sound) (cwd : Clustering) (eraseAttributes : α)
    (withReturn wrapForced : Bool) : ∃ d' viewportMoved,
      d.doLineFeed cwd eraseAttributes withReturn wrapForced = .ok (d', viewportMoved) ∧ Content d'.text := by
  have h := SameUpToWrap.setWrapForced d.text d.position.y wrapForced
  have hcontent := h.content hs.content
  have hshort := h.short hs.short
  obtain ⟨hvalid, hright, hbottom⟩ := hs.region
  rw [← h.width] at hright
  rw [← h.height] at hbottom
  have hwidth := h.width.trans hs.width
  have hheight := h.height
  have hfirst : (d.text.setWrapForced d.position.y wrapForced).firstRow < d.text.height := by
    rw [h.same]
    exact hs.firstRow
  have hin := hs.inside
  have hpos := size.width_pos
  have hbox := d.box.top_nonneg
  have hbox' := d.box.top_le
  have hlines : 0 < (d.text.setWrapForced d.position.y wrapForced).height := hheight ▸ Nat.zero_lt_of_lt hfirst
  rw [doLineFeed_eq hs.width]
  dsimp only
  generalize d.text.setWrapForced d.position.y wrapForced = textBuffer at *
  split
  · exact ⟨_, _, rfl, content_withCursor _ hcontent _⟩
  unfold scrollForFeed
  dsimp only
  split
  · obtain ⟨b', hscrolled, hcontent'⟩ := scrollRectVertically_content cwd eraseAttributes (-1) hcontent hvalid hright
      hbottom (hshort.shortTexts hbottom)
    rw [hscrolled]
    exact ⟨_, _, rfl, content_withCursor _ hcontent' _⟩
  -- What is below the margins is copied back.
  have hlower : ∀ {b : TextBuffer α} (top bottom : ℤ), Content b → Short b → b.width = size.width → 0 ≤ top →
      top < bottom → bottom ≤ b.height → ∃ b', scrollRectVertically cwd eraseAttributes b ⟨0, top, size.width, bottom⟩ 1 =
        .ok b' ∧ Content b' := fun {b} top bottom hc hs' hw h0 hlt hle => by
    refine scrollRectVertically_content cwd eraseAttributes 1 hc ?_ (Int.ofNat_le.mpr hw.ge) hle (hs'.shortTexts hle)
    unfold Rect.isValid
    simp only [Bool.and_eq_true, decide_eq_true_eq]
    omega
  split
  · by_cases hmore : d.box.bottom + 1 < size.height
    · obtain ⟨b', hscrolled, hcontent'⟩ := hlower (d.box.bottom + d.top + 1) (d.top + size.height + 1) hcontent hshort
        hwidth (by omega) (by omega) (by omega)
      rw [if_pos hmore, hscrolled]
      exact ⟨_, _, rfl, content_withCursor _ hcontent' _⟩
    · rw [if_neg hmore]
      have hreset := hcontent.reset hshort (TextBuffer.index_lt hlines (d.position.y + 1)) eraseAttributes
      exact ⟨_, _, rfl, content_withCursor _ (hcontent.setRowByOffset hlines _ hreset) _⟩
  · have hrotated : Content (textBuffer.incrementCircularBuffer eraseAttributes) :=
      content_incrementCircularBuffer hcontent hshort (hheight ▸ hfirst)
    have hrotated' : Short (textBuffer.incrementCircularBuffer eraseAttributes) :=
      short_incrementCircularBuffer hcontent hshort (hheight ▸ hfirst)
    by_cases hmore : d.box.bottom + 1 < size.height
    · obtain ⟨b', hscrolled, hcontent'⟩ := hlower (d.box.bottom + d.top) d.text.height hrotated hrotated' hwidth
        (by omega) (by omega) (Int.ofNat_le.mpr hheight.ge)
      rw [if_pos hmore, hscrolled]
      exact ⟨_, _, rfl, content_withCursor _ hcontent' _⟩
    · rw [if_neg hmore]
      exact ⟨_, _, rfl, content_withCursor _ hrotated _⟩

end Feeding

end PrintDispatch

end VT7.Adapter
