import VT7.Adapter.LineFeeds

/-!
# What a line feed shows

On the last row of the margins, the page behind a line feed is the one before it with the region inside the margins
scrolled up, whichever way the line feed has taken.
-/

namespace VT7.Adapter

open VT7.Buffer
open VT7.Lib.Cells
open VT7.Types (Rect)

variable {α : Type} {size : PageSize}

namespace PrintDispatch

section Feeding

variable {d : PrintDispatch α size} {eraseAttributes : α}

/-! ### The five ways -/

section Ways

variable [DecidableEq α] {b : TextBuffer α}

/-- The rectangle of the margins is scrolled. -/
lemma scrollRegion_spec (cwd : Clustering) (hs : d.Sound) (h : SameUpToWrap d.text b)
    (hborders : BordersClear d.text d.region ⟨0, -1⟩) (hcomplete : RowsComplete d.text d.region (-1)) :
    ∃ b', scrollRectVertically cwd eraseAttributes b d.region (-1) = .ok b' ∧
      ScrolledUp d.box eraseAttributes d.view (pageView b' d.top) := by
  have hwidth := hs.width
  have hin := hs.inside
  have hbox := d.box.left_nonneg
  have hbox₁ := d.box.left_le
  have hbox₂ := d.box.right_lt
  have hbox₃ := d.box.top_nonneg
  have hbox₄ := d.box.top_le
  have hbox₅ := d.box.bottom_lt
  obtain ⟨hvalid, hright, hbottom⟩ := hs.region
  rw [← h.width] at hright
  rw [← h.height] at hbottom
  obtain ⟨l, t, r, m, hrect, S⟩ := setting_of (h.content hs.content) hvalid hright hbottom
    ((h.short hs.short).shortTexts hbottom)
  obtain ⟨b', hok, -, hiff⟩ := S.vertical cwd eraseAttributes (-1)
  rw [← hrect] at hok hiff
  have hscrolled := hiff.mpr ⟨(h.bordersClear _ _).mpr hborders, (h.rowsComplete _ _).mpr hcomplete⟩
  refine ⟨b', hok, ?_⟩
  obtain ⟨-, hrenditions⟩ := scrollRectVertically_lineRendition (h.content hs.content) (h.short hs.short)
    (by unfold region; dsimp only; omega) (by unfold region; dsimp only; omega) hbottom hok
  have hcontains : ∀ x y : ℕ, d.region.Contains ⟨x, (d.top + y : ℕ)⟩ ↔ d.box.Inside x y := fun x y => by
    unfold Rect.Contains region MarginBox.Inside
    dsimp only
    omega
  have hcolumn : ∀ {x y : ℕ}, d.box.Inside x y → x < size.width ∧ y < size.height := fun {x y} hin' => by
    have hle := hin'.1.2
    have hle' := hin'.2.2
    omega
  show ScrolledUp d.box eraseAttributes (pageView d.text d.top) _
  rw [← h.pageView]
  refine ⟨fun x hx y hy hout => ?_, fun x y hin' hy => ?_, fun x y hin' hy => ?_, fun y hy => ?_⟩
  · obtain ⟨hattributes, hcell⟩ := hscrolled.outside x (by rw [h.width, hwidth]; exact hx) (d.top + y)
      (by rw [h.height]; omega) (mt (hcontains x y).mp hout)
    refine ⟨hattributes, hcell.imp_right fun ⟨hblank, x', hother, hother'⟩ => ⟨hblank, x', hother, ?_⟩⟩
    exact (hcontains x' y).mp hother'
  · have hin'' : d.box.Inside x (y + 1) := ⟨hin'.1, by have := hin'.2; omega⟩
    obtain ⟨hattributes, hcell⟩ := hscrolled.moved x (d.top + y : ℕ) x (d.top + (y + 1) : ℕ) ((hcontains x y).mpr hin')
      ((hcontains x (y + 1)).mpr hin'') (Int.add_zero _) (by push_cast; omega)
    refine ⟨hattributes, hcell.imp_right fun ⟨hblank, x', hother, hout⟩ => ⟨hblank, x', hother, fun h' => hout ?_⟩⟩
    refine ⟨(hcontains x' (y + 1)).mpr h', ?_⟩
    rw [Int.add_zero]
    exact (hcontains x' y).mpr ⟨h'.1, hin'.2⟩
  · exact hscrolled.revealed x (d.top + y : ℕ) ((hcontains x y).mpr hin') fun hnone => by
      have hrow := hnone.2.2
      unfold region at hrow
      dsimp only at hrow
      push_cast at hrow
      omega
  · have hrendition := hrenditions (d.top + y) (by rw [h.height]; omega)
    have hfull : d.region.width = (b.width : ℤ) ↔ d.box.FullWidth := by
      rw [h.width, hwidth]
      unfold Rect.width region MarginBox.FullWidth
      dsimp only
      omega
    show (b'.getRow (d.top + y)).lineRendition = if _ then _ else if _ then (b.getRow (d.top + (y + 1))).lineRendition
      else (b.getRow (d.top + y)).lineRendition
    rw [hrendition]
    unfold scrolledRendition
    simp only [hfull]
    have hfrom : (d.region.top ≤ ((d.top + y : ℕ) : ℤ) ∧ ((d.top + y : ℕ) : ℤ) < d.region.bottom) ↔
        d.box.top ≤ y ∧ (y : ℤ) ≤ d.box.bottom := by
      unfold region
      dsimp only
      omega
    have hto : (d.region.top ≤ ((d.top + y : ℕ) : ℤ) - -1 ∧ ((d.top + y : ℕ) : ℤ) - -1 < d.region.bottom) ↔
        d.box.top ≤ y + 1 ∧ (y : ℤ) < d.box.bottom := by
      unfold region
      dsimp only
      omega
    simp only [hfrom, hto]
    rw [show (((d.top + y : ℕ) : ℤ) - -1).toNat = d.top + (y + 1) by omega]
    by_cases hrow : d.box.top ≤ y ∧ (y : ℤ) ≤ d.box.bottom
    · rw [if_pos hrow]
      by_cases hlast : (y : ℤ) = d.box.bottom
      · rw [if_neg (by omega), if_pos hlast]
      · rw [if_pos (by omega), if_neg hlast]
        exact if_congr (and_iff_left ⟨hrow.1, by omega⟩).symm rfl rfl
    · rw [if_neg hrow, if_neg (by omega), if_neg fun h => hrow ⟨h.2.1, h.2.2.le⟩]

/-- The viewport is panned, and what is below the margins is copied back. -/
lemma pan_spec (cwd : Clustering) (eraseAttributes : α) (hs : d.Sound) (hfrom : d.FromTop)
    (hroom : d.top + size.height < d.text.height) (h : SameUpToWrap d.text b)
    (hcomplete : RowsComplete d.text ⟨0, d.box.bottom + d.top + 1, size.width, d.top + size.height + 1⟩ 1) :
    ∃ b', (if d.box.bottom + 1 < size.height then
        scrollRectVertically cwd eraseAttributes b
          ⟨0, d.box.bottom + d.top + 1, size.width, d.top + size.height + 1⟩ 1
      else .ok (b.setRowByOffset (d.box.bottom + d.top + 1)
        ((b.getRowByOffset (d.box.bottom + d.top + 1)).reset eraseAttributes)) :
        Except WriteCellsError (TextBuffer α)) = .ok b' ∧
      ScrolledUp d.box eraseAttributes d.view (pageView b' (d.top + 1)) ∧ Shows d.text d.top b' d.top := by
  obtain ⟨hfull, htop⟩ := hfrom
  have hwidth := hs.width
  have hbwidth := h.width
  have hbheight := h.height
  have hcolumns := d.box.right_lt
  have hcolumns' := d.box.left_nonneg
  have hcolumns'' := d.box.left_le
  have hlt := d.box.bottom_lt
  have hnonneg := d.box.top_le
  have hnarrow : b.width < 0x8000 := width_lt (h.short hs.short) (by omega)
  obtain ⟨bottom, hbottom⟩ := Int.eq_ofNat_of_zero_le (show 0 ≤ d.box.bottom by omega)
  by_cases hlower : d.box.bottom + 1 < size.height
  · rw [if_pos hlower]
    have hrect : (⟨0, d.box.bottom + d.top + 1, size.width, d.top + size.height + 1⟩ : Rect) =
        ⟨0, (bottom + d.top + 1 : ℕ), b.width, (d.top + size.height + 1 : ℕ)⟩ := by
      rw [hbwidth, hwidth, hbottom]
      rfl
    rw [← h.rowsComplete, hrect] at hcomplete
    obtain ⟨b', hok, hsame, hstill, hmoved, hblank⟩ := scroll_rows (h.content hs.content) (h.short hs.short) cwd
      eraseAttributes (by omega) (by omega) (by omega) hcomplete
    have hshows : ∀ z < d.text.height, ¬(bottom + d.top + 1 ≤ z ∧ z < d.top + size.height + 1) →
        Shows d.text z b' z := fun z hz hout =>
      (h.shows z).trans h.width (hstill z (by rw [h.height]; exact hz) hout)
    refine ⟨b', hrect ▸ hok, ?_, hshows d.top (by omega) (by omega)⟩
    refine ScrolledUp.of_rows hfull htop hwidth (by rw [hsame]; exact hbwidth.trans hwidth) (fun y hy => ?_)
      (fun y hy hy' => ?_) fun y hy => ?_
    · rw [Nat.add_right_comm]
      exact hshows (d.top + 1 + y) (by omega) (by omega)
    · exact (h.shows _).trans h.width (hmoved (d.top + y) (d.top + 1 + y) (by omega) (by omega) (by omega) (by omega)
        (by omega))
    · exact hblank (d.top + 1 + y) (by omega) (by omega) (by omega)
  · rw [if_neg hlower]
    have hindex : ((d.box.bottom + d.top + 1) % (b.height : ℤ)).toNat = d.top + size.height := by
      rw [Int.emod_eq_of_lt (by omega) (by omega)]
      omega
    have hrows : ∀ z < d.text.height, z ≠ d.top + size.height →
        (b.setRowByOffset (d.box.bottom + d.top + 1)
          ((b.getRowByOffset (d.box.bottom + d.top + 1)).reset eraseAttributes)).getRow z = b.getRow z :=
        fun z hz hne => by
      unfold TextBuffer.setRowByOffset
      rw [hindex]
      exact TextBuffer.getRow_setRow_of_ne (by omega) (by omega) (by omega) _
    refine ⟨_, rfl, ?_, (h.shows _).trans h.width (.of_row (hrows d.top (by omega) (by omega)))⟩
    refine ScrolledUp.of_rows hfull htop hwidth (hbwidth.trans hwidth) (fun y hy => ?_) (fun y hy hy' => by omega)
      fun y hy => ?_
    · rw [Nat.add_right_comm]
      exact (h.shows _).trans h.width (.of_row (hrows _ (by omega) (by omega)))
    · refine Blank.of_reset (r := b.getRow (d.top + size.height)) ?_ ?_ ?_
      · exact hnarrow
      · exact (h.content hs.content).columns _ (by omega)
      · unfold TextBuffer.setRowByOffset TextBuffer.getRowByOffset
        rw [hindex, show d.top + 1 + y = d.top + size.height by omega, TextBuffer.getRow_setRow_self]

/-- The rows of the buffer are rotated, and what is below the margins is copied back. -/
lemma rotate_spec (cwd : Clustering) (hs : d.Sound) (hfrom : d.FromTop) (hroom : ¬d.top + size.height < d.text.height)
    (h : SameUpToWrap d.text b) (hcomplete : RowsComplete (d.text.incrementCircularBuffer eraseAttributes)
      ⟨0, d.box.bottom + d.top, size.width, d.text.height⟩ 1) :
    ∃ b', (if d.box.bottom + 1 < size.height then
        scrollRectVertically cwd eraseAttributes (b.incrementCircularBuffer eraseAttributes)
          ⟨0, d.box.bottom + d.top, size.width, d.text.height⟩ 1
      else .ok (b.incrementCircularBuffer eraseAttributes) : Except WriteCellsError (TextBuffer α)) = .ok b' ∧
      ScrolledUp d.box eraseAttributes d.view (pageView b' d.top) ∧
      (0 < d.top → Shows d.text d.top b' (d.top - 1)) := by
  obtain ⟨hfull, htop⟩ := hfrom
  have hwidth := hs.width
  have hbwidth := h.width
  have hbheight := h.height
  have hin := hs.inside
  have hfirst := hs.firstRow
  have hcolumns := d.box.right_lt
  have hcolumns' := d.box.left_nonneg
  have hcolumns'' := d.box.left_le
  have hlt := d.box.bottom_lt
  have hnonneg := d.box.top_le
  have hnarrow : b.width < 0x8000 := width_lt (h.short hs.short) (by omega)
  obtain ⟨bottom, hbottom⟩ := Int.eq_ofNat_of_zero_le (show 0 ≤ d.box.bottom by omega)
  have hincremented := h.incrementCircularBuffer eraseAttributes
  have hcontent := hincremented.content (content_incrementCircularBuffer hs.content hs.short hfirst)
  have hshort := hincremented.short (short_incrementCircularBuffer hs.content hs.short hfirst)
  have hup : ∀ z, z + 1 < d.text.height →
      Shows d.text (z + 1) (b.incrementCircularBuffer eraseAttributes) z := fun z hz => by
    have hrow : Shows d.text (z + 1) (d.text.incrementCircularBuffer eraseAttributes) z :=
      .of_row (by rw [getRow_incrementCircularBuffer hfirst (by omega), if_neg (by omega)])
    exact hrow.trans rfl (hincremented.shows z)
  by_cases hlower : d.box.bottom + 1 < size.height
  · rw [if_pos hlower]
    have hrect : (⟨0, d.box.bottom + d.top, size.width, d.text.height⟩ : Rect) =
        ⟨0, (bottom + d.top : ℕ), (b.incrementCircularBuffer eraseAttributes).width, d.text.height⟩ := by
      show _ = (⟨0, (bottom + d.top : ℕ), b.width, d.text.height⟩ : Rect)
      rw [hbwidth, hwidth, hbottom]
      rfl
    rw [← hincremented.rowsComplete, hrect] at hcomplete
    obtain ⟨b', hok, hsame, hstill, hmoved, hblank⟩ := scroll_rows hcontent hshort cwd eraseAttributes (by omega)
      (Nat.le_of_eq hbheight.symm) (show 0 < b.width by omega) hcomplete
    have hshows : ∀ z, z < bottom + d.top → Shows d.text (z + 1) b' z := fun z hz =>
      (hup z (by omega)).trans hbwidth (hstill z (show z < b.height by omega) (by omega))
    refine ⟨b', hrect ▸ hok, ?_, fun hpos => ?_⟩
    · refine ScrolledUp.of_rows hfull htop hwidth (by rw [hsame]; exact hbwidth.trans hwidth) (fun y hy => ?_)
        (fun y hy hy' => ?_) fun y hy => ?_
      · exact hshows (d.top + y) (by omega)
      · have hrow := hmoved (d.top + y - 1) (d.top + y) (by omega) (by omega) (by omega) (by omega) (by omega)
        have hrow' := hup (d.top + y - 1) (by omega)
        rw [Nat.sub_add_cancel (by omega)] at hrow'
        exact hrow'.trans hbwidth hrow
      · exact hblank (d.top + y) (by omega) (by omega) (by omega)
    · have hrow := hshows (d.top - 1) (by omega)
      rwa [Nat.sub_add_cancel hpos] at hrow
  · rw [if_neg hlower]
    refine ⟨_, rfl, ?_, fun hpos => ?_⟩
    · refine ScrolledUp.of_rows hfull htop hwidth (hbwidth.trans hwidth) (fun y hy => hup _ (by omega))
        (fun y hy hy' => by omega) fun y hy => ?_
      refine Blank.of_reset (r := b.getRow 0) ?_ ?_ ?_
      · exact hnarrow
      · exact (h.content hs.content).columns _ (by omega)
      · rw [getRow_incrementCircularBuffer (by rw [h.same]; exact hfirst) (by omega), if_pos (by omega)]
    · have hrow := hup (d.top - 1) (by omega)
      rwa [Nat.sub_add_cancel hpos] at hrow

/-- **A line feed on the last row of the margins** has one effect, whichever way it takes. -/
theorem doLineFeed_scrolls (hs : d.Sound) (hb : d.OnBottom) (hclean : d.CopiesClean eraseAttributes) (cwd : Clustering)
    (withReturn wrapForced : Bool) :
    ∃ d' moved, d.doLineFeed cwd eraseAttributes withReturn wrapForced = .ok (d', moved) ∧
      ScrolledUp d.box eraseAttributes d.view d'.view ∧
      d'.position.x = d.returned withReturn ∧ d'.position.y - d'.top = d.position.y - d.top ∧
      (d.FromTop → 0 < d'.top → Shows d.text d.top d'.text (d'.top - 1)) := by
  have hwrap := SameUpToWrap.setWrapForced d.text (d.box.bottom + d.top) wrapForced
  rw [doLineFeed_bottom hs hb, hb.row]
  unfold CopiesClean at hclean
  dsimp only
  by_cases hfrom : ¬d.FromTop
  · rw [if_pos hfrom] at hclean
    obtain ⟨b', hok, hscrolled⟩ := scrollRegion_spec cwd hs hwrap hclean.1 hclean.2
    rw [if_pos hfrom, hok]
    exact ⟨_, _, rfl, hscrolled, rfl, rfl, fun h => absurd h hfrom⟩
  · rw [if_neg hfrom] at hclean
    rw [if_neg hfrom]
    rw [not_not] at hfrom
    by_cases hroom : d.top + size.height < d.text.height
    · rw [if_pos hroom] at hclean
      obtain ⟨b', hok, hscrolled, hshows⟩ := pan_spec cwd eraseAttributes hs hfrom hroom
        hwrap hclean
      rw [if_pos hroom, hok]
      refine ⟨_, _, rfl, hscrolled, rfl, ?_, fun _ _ => hshows.setPosition _⟩
      show d.box.bottom + d.top + 1 - ((d.top + 1 : ℕ) : ℤ) = _
      push_cast
      omega
    · rw [if_neg hroom] at hclean
      obtain ⟨b', hok, hscrolled, hshows⟩ := rotate_spec cwd hs hfrom hroom hwrap hclean
      rw [if_neg hroom, hok]
      exact ⟨_, _, rfl, hscrolled, rfl, rfl, fun _ hpos => (hshows hpos).setPosition _⟩

end Ways

end Feeding

/-! ### A wide character on the border -/

/-- A wide character above four letters, and margins that have its leading half inside. -/
def wideAbove : PrintDispatch ℕ ⟨4, 2, Nat.zero_lt_succ 3, Nat.zero_lt_succ 1⟩ where
  text := { twoRows with firstRow := 1, cursorY := 1 }
  top := 0
  scrollMargins := ⟨0, 0, 1, 0⟩
  delayedAt := none

lemma wideAbove_sound : wideAbove.Sound := by
  refine ⟨rfl, Nat.le_refl 2, Nat.lt_succ_self 1, .of_rows fun y (hy : y < 2) => ?_, fun y (hy : y < 2) => ?_⟩
  · obtain rfl | rfl : y = 0 ∨ y = 1 := by omega
    · exact ⟨_, letterWide_holds, rfl, rfl⟩
    · exact ⟨_, letters_holds, rfl, rfl⟩
  · obtain rfl | rfl : y = 0 ∨ y = 1 := by omega
    · decide
    · decide

lemma wideAbove_onBottom : wideAbove.OnBottom := ⟨by decide, by decide, by decide⟩

lemma wideAbove_copiesClean : wideAbove.CopiesClean 1 := by
  unfold CopiesClean
  rw [if_pos (by decide)]
  refine ⟨fun x y u v hxy huv hux hvy => ?_, fun hwidth => absurd hwidth (by decide)⟩
  have hregion : wideAbove.region = ⟨0, 0, 2, 2⟩ := by decide
  rw [hregion] at hxy huv
  unfold Rect.Contains at hxy huv
  dsimp only at hxy huv hux hvy
  have hwhole : (wideAbove.text.cell u v).half = .whole := by
    obtain rfl : v = 1 := by omega
    obtain rfl | rfl : u = 0 ∨ u = 1 := by omega
    · decide
    · decide
  rw [hwhole]
  exact ⟨fun h => (nomatch h), fun h => (nomatch h)⟩

theorem doLineFeed_scrolls_wideAbove : ∃ d' moved,
    wideAbove.doLineFeed wholeText 1 true false = .ok (d', moved) ∧
      ScrolledUp wideAbove.box 1 wideAbove.view d'.view ∧
      d'.position.x = wideAbove.returned true ∧ d'.position.y - d'.top = wideAbove.position.y - wideAbove.top ∧
      (wideAbove.FromTop → 0 < d'.top → Shows wideAbove.text wideAbove.top d'.text (d'.top - 1)) :=
  doLineFeed_scrolls wideAbove_sound wideAbove_onBottom wideAbove_copiesClean wholeText true false

/-- The trailing half outside of the margins becomes a blank. -/
theorem doLineFeed_cutsWide : wideAbove.Sound ∧ wideAbove.OnBottom ∧ wideAbove.CopiesClean 1 ∧
    ¬∃ d' moved, wideAbove.doLineFeed wholeText 1 false false = .ok (d', moved) ∧
      ∀ x < 4, ∀ y < 2, ¬wideAbove.box.Inside x y → d'.view.cell x y = wideAbove.view.cell x y := by
  refine ⟨wideAbove_sound, wideAbove_onBottom, wideAbove_copiesClean, fun ⟨d', moved, hok, houtside⟩ => ?_⟩
  have hcell : (wideAbove.doLineFeed wholeText 1 false false).toOption.map (fun p => p.1.view.cell 2 0) =
      some (.blank [space]) := by decide
  rw [hok] at hcell
  have hafter : d'.view.cell 2 0 = .blank [space] := Option.some.inj hcell
  have hbefore : wideAbove.view.cell 2 0 = ⟨[0x4e2d], .trailing⟩ := by decide
  have hsame := houtside 2 (by decide) 0 (by decide) (by decide)
  rw [hafter, hbefore] at hsame
  exact nomatch hsame

end PrintDispatch

end VT7.Adapter
