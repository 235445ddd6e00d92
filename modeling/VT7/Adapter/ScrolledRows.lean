import VT7.Adapter.Transfers

/-!
# What a scroll leaves outside of its rectangle

A scrolled rectangle takes its content along and keeps to itself (`ScrolledBy`) exactly when no wide character is written
over its border (`BordersClear`) and, where whole rows are copied, all columns of the rows are copied (`RowsComplete`).

A row is compared as a strip of cells: `scrolledBy_iff` says what `ScrolledBy` asks of each row.
-/

namespace VT7.Adapter

open VT7.Buffer
open VT7.Lib.Cells
open VT7.Types (Rect)

variable {α : Type}

/-- The rows hold glyphs and have attributes for all columns. -/
structure Content (b : TextBuffer α) : Prop where
  rows : ∀ y < b.height, ∃ gs, (b.getRow y).Holds gs
  columns : ∀ y < b.height, (b.getRow y).columnCount = b.width
  attributes : ∀ y < b.height, (b.getRow y).attr.length = b.width

lemma Content.of_rows {b : TextBuffer α} (h : ∀ y < b.height, ∃ gs, (b.getRow y).Holds gs ∧
    (b.getRow y).columnCount = b.width ∧ (b.getRow y).attr.length = b.width) : Content b :=
  ⟨fun y hy => (h y hy).imp fun _ hrow => hrow.1, fun y hy => (h y hy).choose_spec.2.1,
    fun y hy => (h y hy).choose_spec.2.2⟩

/-- The texts of two rows together are no longer than the text of one row may be. -/
def ShortTexts (b : TextBuffer α) (rect : Rect) : Prop :=
  ∀ y v : ℕ, rect.top ≤ y → y < rect.bottom → rect.top ≤ v → v < rect.bottom →
    (b.getRow y).charSize + (b.getRow v).charSize + 2 * b.width < 0x8000

/-- The content of the rectangle has moved by `d`, the revealed cells are blank, and nothing else has changed.  A wide
character that is cut may leave a blank. -/
structure ScrolledBy (b b' : TextBuffer α) (rect : Rect) (d : Types.Point) (eraseAttributes : α) : Prop where
  outside : ∀ x < b.width, ∀ y < b.height, ¬rect.Contains ⟨x, y⟩ →
    b'.attributes x y = b.attributes x y ∧
      (b'.cell x y = b.cell x y ∨ b'.cell x y = .blank [space] ∧
        ∃ x' : ℕ, otherHalf (fun x => b.cell x y) x = some x' ∧ rect.Contains ⟨x', y⟩)
  moved : ∀ x y u v : ℕ, rect.Contains ⟨x, y⟩ → rect.Contains ⟨u, v⟩ → u + d.x = x → v + d.y = y →
    b'.attributes x y = b.attributes u v ∧
      (b'.cell x y = b.cell u v ∨ b'.cell x y = .blank [space] ∧
        ∃ u' : ℕ, otherHalf (fun x => b.cell x v) u = some u' ∧
          ¬(rect.Contains ⟨u', v⟩ ∧ rect.Contains ⟨u' + d.x, y⟩))
  revealed : ∀ x y : ℕ, rect.Contains ⟨x, y⟩ → ¬rect.Contains ⟨x - d.x, y - d.y⟩ →
    b'.attributes x y = some eraseAttributes ∧ b'.cell x y = .blank [space]

/-- Where half of a wide character goes to the border of the rectangle, its other half is there already, on the other
side of the border. -/
def BordersClear (b : TextBuffer α) (rect : Rect) (d : Types.Point) : Prop :=
  ∀ x y u v : ℕ, rect.Contains ⟨x, y⟩ → rect.Contains ⟨u, v⟩ → u + d.x = x → v + d.y = y →
    ((b.cell u v).half = .trailing → (x : ℤ) = rect.left → 0 < x → b.cell (u - 1) v = b.cell (x - 1) y) ∧
    ((b.cell u v).half = .leading → (x : ℤ) + 1 = rect.right → x + 1 < b.width → b.cell (u + 1) v = b.cell (x + 1) y)

/-- The columns of the row `v` that cannot be read are in the row `y` as they are in the row `v`. -/
def CopyComplete (b : TextBuffer α) (y v : ℕ) : Prop :=
  let limit := (b.getRow v).getReadableColumnCount
  if limit = 1 ∧ (b.cell 0 v).half = .leading then ∀ x < b.width, b.cell x y = b.cell x v
  else ∀ x < b.width, limit ≤ x →
    (if x = limit ∧ (b.cell x y).half = .trailing then .blank [space] else b.cell x y) = b.cell x v

/-- Where the rectangle is as wide as the page, its rows are copied completely. -/
def RowsComplete (b : TextBuffer α) (rect : Rect) (delta : ℤ) : Prop :=
  rect.width = b.width → delta ≠ 0 →
    ∀ y v : ℕ, rect.top ≤ y → y < rect.bottom → rect.top ≤ v → v < rect.bottom → v + delta = y → CopyComplete b y v

/-! ### The strips of a buffer -/

/-- The row `y` as it is read, with blanks behind it. -/
def strip (b : TextBuffer α) (y x : ℕ) : GlyphCell := if x < b.width then b.cell x y else .blank [space]

lemma Content.displays {b : TextBuffer α} (h : Content b) :
    b.Displays b.width b.height (strip b) fun y x => b.attributes x y := by
  refine ⟨rfl, rfl, fun y hy => ?_⟩
  obtain ⟨gs, hgs⟩ := h.rows y hy
  have hcolumns := h.columns y hy
  refine ⟨⟨gs, hgs, funext fun x => ?_⟩, hcolumns, h.attributes y hy, fun x => rfl⟩
  unfold strip
  split
  · next hx => exact (hgs.cell_eq (by omega)).symm
  · next hx =>
    rw [stripOf_behind]
    rw [hgs.columns, hcolumns]
    omega

lemma content_of_displays {b : TextBuffer α} {width height : ℕ} {cells : ℕ → ℕ → GlyphCell}
    {attrs : ℕ → ℕ → Option α} (h : b.Displays width height cells attrs) : Content b := .of_rows fun y hy => by
  have hrow := h.rows y (h.height_eq ▸ hy)
  obtain ⟨gs, hholds, -⟩ := hrow.shows
  rw [h.width_eq]
  exact ⟨gs, hholds, hrow.columns, hrow.length⟩

/-- A strip moved to the right, with blanks before it; a negative `dx` moves it to the left. -/
def shifted (dx : ℤ) (s : ℕ → GlyphCell) (x : ℕ) : GlyphCell :=
  if (x : ℤ) < dx then .blank [space] else s ((x : ℤ) - dx).toNat

lemma shifted_zero (s : ℕ → GlyphCell) : shifted 0 s = s := by
  funext x
  unfold shifted
  rw [if_neg (by omega), Int.sub_zero, Int.toNat_natCast]

lemma shifted_of_eq {dx : ℤ} {s : ℕ → GlyphCell} {x u : ℕ} (h : u + dx = x) : shifted dx s x = s u := by
  unfold shifted
  rw [if_neg (by omega)]
  congr 1
  omega

lemma paired_shifted {width : ℕ} {s : ℕ → GlyphCell} (hs : Fits width s) (dx : ℤ) : Paired (shifted dx s) := by
  intro x
  rcases lt_or_ge (x : ℤ) dx with hlt | hge
  · have hblank : shifted dx s x = .blank [space] := if_pos hlt
    rw [hblank]
    refine ⟨⟨nofun, fun htrailing => ?_⟩, nofun⟩
    rcases lt_or_ge ((x + 1 : ℕ) : ℤ) dx with hlt' | hge'
    · rw [shifted, if_pos hlt'] at htrailing
      exact nomatch htrailing
    · rw [shifted_of_eq (u := 0) (by omega)] at htrailing
      exact absurd htrailing hs.first
  · obtain ⟨u, hu⟩ := Int.eq_ofNat_of_zero_le (show 0 ≤ (x : ℤ) - dx by omega)
    rw [shifted_of_eq (show (u : ℤ) + dx = x by omega), shifted_of_eq (show ((u + 1 : ℕ) : ℤ) + dx = (x + 1 : ℕ) by omega)]
    exact hs.paired u

lemma otherHalf_congr {c c' : ℕ → GlyphCell} {x : ℕ} (h : c x = c' x) : otherHalf c x = otherHalf c' x := by
  unfold otherHalf
  rw [h]

/-! ### Row by row -/

section Rows

variable {width height l t r m a e : ℕ} {dx dy : ℤ}

/-- The columns from `a` up to `e` are the ones to which a cell between `l` and `r` moves. -/
def Reaches (l r a e : ℕ) (dx : ℤ) : Prop :=
  ∀ x : ℕ, a ≤ x ∧ x < e ↔ (l ≤ x ∧ x < r) ∧ (l : ℤ) ≤ x - dx ∧ (x : ℤ) - dx < r

/-- The other half of a cell does not come along. -/
lemma cut_iff {s : ℕ → GlyphCell} (hs : Fits width s) (hrange : Reaches l r a e dx) {x u : ℕ} (hx : a ≤ x ∧ x < e)
    (hu : u + dx = x) :
    (∃ u' : ℕ, otherHalf s u = some u' ∧ ¬((l ≤ u' ∧ u' < r) ∧ (l : ℤ) ≤ u' + dx ∧ (u' : ℤ) + dx < r)) ↔
      (s u).half = .trailing ∧ x = a ∨ (s u).half = .leading ∧ x + 1 = e := by
  have hhere := (hrange x).mp hx
  unfold otherHalf
  cases hhalf : (s u).half with
  | whole =>
    refine ⟨fun ⟨_, h, _⟩ => ?_, fun h => h.elim (fun h => nomatch h.1) fun h => nomatch h.1⟩
    exact nomatch h
  | leading =>
    have hnext := hrange (x + 1)
    refine ⟨fun ⟨u', h, hnot⟩ => .inr ⟨rfl, ?_⟩, fun h => ⟨u + 1, rfl, fun hin => ?_⟩⟩
    · cases h
      by_contra hne
      obtain ⟨⟨hl, hr⟩, hl', hr'⟩ := hnext.mp ⟨by omega, by omega⟩
      exact hnot ⟨⟨by omega, by omega⟩, by omega, by omega⟩
    · have hend : x + 1 = e := h.elim (fun h => nomatch h.1) fun h => h.2
      obtain ⟨⟨hl, hr⟩, hl', hr'⟩ := hin
      have hreach := hnext.mpr ⟨⟨by omega, by omega⟩, by omega, by omega⟩
      omega
  | trailing =>
    have hprev := hrange (x - 1)
    have hpos : 0 < u := Nat.pos_of_ne_zero fun h0 => hs.first (by rw [← h0, hhalf])
    refine ⟨fun ⟨u', h, hnot⟩ => .inl ⟨rfl, ?_⟩, fun h => ⟨u - 1, rfl, fun hin => ?_⟩⟩
    · cases h
      by_contra hne
      obtain ⟨⟨hl, hr⟩, hl', hr'⟩ := hprev.mp ⟨by omega, by omega⟩
      exact hnot ⟨⟨by omega, by omega⟩, by omega, by omega⟩
    · have hend : x = a := h.elim (fun h => h.2) fun h => nomatch h.1
      obtain ⟨⟨hl, hr⟩, hl', hr'⟩ := hin
      have hreach := hprev.mpr ⟨⟨by omega, by omega⟩, by omega, by omega⟩
      omega

variable {b b' : TextBuffer α} {cells cells' : ℕ → ℕ → GlyphCell} {attrs attrs' : ℕ → ℕ → Option α}

/-- What the attributes are behind a scroll. -/
structure AttributesMoved (l t r m : ℕ) (dx dy : ℤ) (attrs attrs' : ℕ → ℕ → Option α) (eraseAttributes : α) : Prop where
  outside : ∀ x y, ¬((l ≤ x ∧ x < r) ∧ t ≤ y ∧ y < m) → attrs' y x = attrs y x
  moved : ∀ x y u v : ℕ, (l ≤ x ∧ x < r) ∧ t ≤ y ∧ y < m → (l ≤ u ∧ u < r) ∧ t ≤ v ∧ v < m → u + dx = x → v + dy = y →
    attrs' y x = attrs v u
  revealed : ∀ x y : ℕ, (l ≤ x ∧ x < r) ∧ t ≤ y ∧ y < m →
    ¬((l ≤ (x : ℤ) - dx ∧ (x : ℤ) - dx < r) ∧ (t : ℤ) ≤ y - dy ∧ (y : ℤ) - dy < m) → attrs' y x = some eraseAttributes

/-- What a row of the rectangle shows. -/
def RowMoved (l t r m a e : ℕ) (dx dy : ℤ) (cells : ℕ → ℕ → GlyphCell) (f : ℕ → GlyphCell) (y : ℕ) : Prop :=
  (∀ v : ℕ, t ≤ v → v < m → v + dy = y → Moved [space] l r a e (cells y) (shifted dx (cells v)) f) ∧
    ((∀ v : ℕ, t ≤ v → v < m → (v : ℤ) + dy ≠ y) → Moved [space] l r l l (cells y) (cells y) f)

/-- **A scroll, row by row.** -/
theorem scrolledBy_iff (hb : b.Displays width height cells attrs) (hb' : b'.Displays width height cells' attrs')
    (hr : r ≤ width) (hm : m ≤ height) (hrange : Reaches l r a e dx) {eraseAttributes : α}
    (hattrs : AttributesMoved l t r m dx dy attrs attrs' eraseAttributes)
    (hrows : ∀ y, ¬(t ≤ y ∧ y < m) → cells' y = cells y) :
    ScrolledBy b b' ⟨l, t, r, m⟩ ⟨dx, dy⟩ eraseAttributes ↔
      ∀ y, t ≤ y → y < m → RowMoved l t r m a e dx dy cells (cells' y) y := by
  have hcell : ∀ {x y}, x < width → y < height → b.cell x y = cells y x := fun hx hy => (hb.rows _ hy).cell_eq hx
  have hcell' : ∀ {x y}, x < width → y < height → b'.cell x y = cells' y x := fun hx hy => (hb'.rows _ hy).cell_eq hx
  have hattr : ∀ {x y}, y < height → b.attributes x y = attrs y x := fun hy => (hb.rows _ hy).attributes _
  have hattr' : ∀ {x y}, y < height → b'.attributes x y = attrs' y x := fun hy => (hb'.rows _ hy).attributes _
  have hcontains : ∀ x y : ℤ, (⟨l, t, r, m⟩ : Rect).Contains ⟨x, y⟩ ↔ (l ≤ x ∧ x < r) ∧ t ≤ y ∧ y < m :=
    fun x y => ⟨fun h => ⟨⟨h.1, h.2.1⟩, h.2.2⟩, fun h => ⟨h.1.1, h.1.2, h.2⟩⟩
  have hother : ∀ {x y}, x < width → y < height → otherHalf (fun x => b.cell x y) x = otherHalf (cells y) x :=
    fun hx hy => otherHalf_congr (hcell hx hy)
  have hsource : ∀ y : ℕ, (∀ v : ℕ, t ≤ v → v < m → (v : ℤ) + dy ≠ y) ↔ ¬((t : ℤ) ≤ y - dy ∧ (y : ℤ) - dy < m) := by
    refine fun y => ⟨fun h hin => ?_, fun h v hv hv' heq => by omega⟩
    obtain ⟨v, hv⟩ := Int.eq_ofNat_of_zero_le (show 0 ≤ (y : ℤ) - dy by omega)
    exact h v (by omega) (by omega) (by omega)
  constructor
  · intro h y hty hym
    have hy : y < height := by omega
    have hout : ∀ x, x < l ∨ r ≤ x → Keeps [space] l r (cells y) (cells' y) x := by
      intro x hx
      rcases Nat.lt_or_ge x width with hxw | hxw
      · have hcellKept := (h.outside x (by rw [hb.width_eq]; exact hxw) y (by rw [hb.height_eq]; exact hy)
          (by rw [hcontains]; omega)).2
        rw [hcell hxw hy, hcell' hxw hy, hother hxw hy] at hcellKept
        refine hcellKept.imp id fun ⟨hblank, x', hx', hin⟩ => ⟨hblank, x', hx', ?_⟩
        rw [hcontains] at hin
        omega
      · exact .inl (((hb'.rows y hy).behind hxw).trans ((hb.rows y hy).behind hxw).symm)
    refine ⟨fun v htv hvm hvy => ⟨hout, fun x hax hxe => ?_, fun x hlx hxr hx => ?_⟩, fun hnone =>
      ⟨hout, fun x hlx hxl => by omega, fun x hlx hxr _ => ?_⟩⟩
    · have hin := (hrange x).mp ⟨hax, hxe⟩
      obtain ⟨u, hu⟩ := Int.eq_ofNat_of_zero_le (show 0 ≤ (x : ℤ) - dx by omega)
      have hux : (u : ℤ) + dx = x := by omega
      have hmoved := (h.moved x y u v (by rw [hcontains]; omega) (by rw [hcontains]; omega) hux hvy).2
      rw [hcell (by omega) (by omega), hcell' (by omega) hy, hother (by omega) (by omega)] at hmoved
      rw [shifted_of_eq hux]
      refine hmoved.imp id fun ⟨hblank, u', hu', hnot⟩ => ⟨hblank, ?_⟩
      refine (cut_iff (hb.rows v (by omega)).fits hrange ⟨hax, hxe⟩ hux).mp ⟨u', hu', fun hin' => hnot ?_⟩
      rw [hcontains, hcontains]
      dsimp only
      omega
    · have hblank := (h.revealed x y (by rw [hcontains]; omega) fun hin => by
        rw [hcontains] at hin
        have := (hrange x).mpr ⟨⟨hlx, hxr⟩, hin.1⟩
        omega).2
      rwa [hcell' (by omega) hy] at hblank
    · have hblank := (h.revealed x y (by rw [hcontains]; omega) fun hin => by
        rw [hcontains] at hin
        exact (hsource y).mp hnone hin.2).2
      rwa [hcell' (by omega) hy] at hblank
  · intro h
    refine ⟨fun x hx y hy hnot => ⟨?_, ?_⟩, fun x y u v hxy huv (hux : (u : ℤ) + dx = x) (hvy : (v : ℤ) + dy = y) =>
      ⟨?_, ?_⟩, fun x y hxy (hnot : ¬(⟨l, t, r, m⟩ : Rect).Contains ⟨x - dx, y - dy⟩) => ⟨?_, ?_⟩⟩
    · rw [hb.height_eq] at hy
      rw [hcontains] at hnot
      rw [hattr hy, hattr' hy]
      exact hattrs.outside x y (by omega)
    · rw [hb.width_eq] at hx
      rw [hb.height_eq] at hy
      rw [hcontains] at hnot
      rw [hcell hx hy, hcell' hx hy, hother hx hy]
      by_cases hin : t ≤ y ∧ y < m
      · have hkeeps : Keeps [space] l r (cells y) (cells' y) x := by
          by_cases hnone : ∀ v : ℕ, t ≤ v → v < m → (v : ℤ) + dy ≠ y
          · exact ((h y hin.1 hin.2).2 hnone).outside x (by omega)
          · push Not at hnone
            obtain ⟨v, htv, hvm, hvy⟩ := hnone
            exact ((h y hin.1 hin.2).1 v htv hvm hvy).outside x (by omega)
        refine hkeeps.imp id fun ⟨hblank, x', hx', hin'⟩ => ⟨hblank, x', hx', ?_⟩
        rw [hcontains]
        omega
      · rw [hrows y hin]
        exact .inl rfl
    · rw [hcontains] at hxy huv
      rw [hattr (by omega), hattr' (by omega)]
      exact hattrs.moved x y u v (by omega) (by omega) hux hvy
    · rw [hcontains] at hxy huv
      have hin : a ≤ x ∧ x < e := (hrange x).mpr (by omega)
      have hmoved := ((h y (by omega) (by omega)).1 v (by omega) (by omega) hvy).moved x hin.1 hin.2
      rw [shifted_of_eq hux] at hmoved
      rw [hcell (by omega) (by omega), hcell' (by omega) (by omega), hother (by omega) (by omega)]
      refine hmoved.imp id fun ⟨hblank, hcut⟩ => ⟨hblank, ?_⟩
      obtain ⟨u', hu', hnot⟩ := (cut_iff (hb.rows v (by omega)).fits hrange hin hux).mpr hcut
      refine ⟨u', hu', fun hin' => hnot ?_⟩
      rw [hcontains, hcontains] at hin'
      dsimp only at hin'
      omega
    · rw [hcontains] at hxy hnot
      rw [hattr' (by omega)]
      exact hattrs.revealed x y (by omega) (by omega)
    · rw [hcontains] at hxy hnot
      rw [hcell' (by omega) (by omega)]
      by_cases hnone : ∀ v : ℕ, t ≤ v → v < m → (v : ℤ) + dy ≠ y
      · exact ((h y (by omega) (by omega)).2 hnone).revealed x (by omega) (by omega) (by omega)
      · have hsome := (not_congr (hsource y)).mp hnone
        push Not at hnone
        obtain ⟨v, htv, hvm, hvy⟩ := hnone
        have hrow := (h y (by omega) (by omega)).1 v htv hvm hvy
        refine hrow.revealed x (by omega) (by omega) ?_
        by_contra hin
        have := (hrange x).mp (by omega)
        omega

/-- **The borders, row by row.** -/
theorem bordersClear_iff (hb : b.Displays width height cells attrs) (hr : r ≤ width) (hm : m ≤ height)
    (hrange : Reaches l r a e dx) :
    BordersClear b ⟨l, t, r, m⟩ ⟨dx, dy⟩ ↔
      ∀ y v : ℕ, t ≤ y → y < m → t ≤ v → v < m → v + dy = y →
        (a = l → a < e → LeftClear (cells y) (shifted dx (cells v)) l) ∧
        (e = r → a < e → RightClear width (cells y) (shifted dx (cells v)) r) := by
  have hcell : ∀ {x y}, x < width → y < height → b.cell x y = cells y x := fun hx hy => (hb.rows _ hy).cell_eq hx
  have hcontains : ∀ x y : ℤ, (⟨l, t, r, m⟩ : Rect).Contains ⟨x, y⟩ ↔ (l ≤ x ∧ x < r) ∧ t ≤ y ∧ y < m :=
    fun x y => ⟨fun h => ⟨⟨h.1, h.2.1⟩, h.2.2⟩, fun h => ⟨h.1.1, h.1.2, h.2⟩⟩
  have hfits : ∀ {v}, v < m → Fits width (cells v) := fun hv => (hb.rows _ (by omega)).fits
  constructor
  · intro h y v hty hym htv hvm hvy
    refine ⟨fun hal hae htrailing hpos => ?_, fun her hae hleading hroom => ?_⟩
    · have hin := (hrange l).mp (by omega)
      obtain ⟨u, hu⟩ := Int.eq_ofNat_of_zero_le (show 0 ≤ (l : ℤ) - dx by omega)
      have hul : (u : ℤ) + dx = l := by omega
      rw [shifted_of_eq hul] at htrailing
      have hupos : 0 < u := Nat.pos_of_ne_zero fun h0 => (hfits hvm).first (by rw [← h0, htrailing])
      have hclear := (h l y u v (by rw [hcontains]; omega) (by rw [hcontains]; omega) hul hvy).1
        (by rw [hcell (by omega) (by omega)]; exact htrailing) rfl hpos
      rw [hcell (by omega) (by omega), hcell (by omega) (by omega)] at hclear
      rw [shifted_of_eq (show ((u - 1 : ℕ) : ℤ) + dx = (l - 1 : ℕ) by omega)]
      exact hclear
    · have hin := (hrange (r - 1)).mp (by omega)
      obtain ⟨u, hu⟩ := Int.eq_ofNat_of_zero_le (show 0 ≤ ((r - 1 : ℕ) : ℤ) - dx by omega)
      have hur : (u : ℤ) + dx = (r - 1 : ℕ) := by omega
      rw [shifted_of_eq hur] at hleading
      have hulast : u + 1 < width := by
        have hne := (hfits hvm).last (y := u)
        have : u + 1 ≠ width := fun heq => hne heq hleading
        omega
      have hclear := (h (r - 1) y u v (by rw [hcontains]; omega) (by rw [hcontains]; omega) hur hvy).2
        (by rw [hcell (by omega) (by omega)]; exact hleading) (by show ((r - 1 : ℕ) : ℤ) + 1 = r; omega)
        (by rw [hb.width_eq]; omega)
      rw [Nat.sub_add_cancel (by omega), hcell (by omega) (by omega), hcell (by omega) (by omega)] at hclear
      rw [shifted_of_eq (show ((u + 1 : ℕ) : ℤ) + dx = r by omega)]
      exact hclear
  · intro h x y u v hxy huv (hux : (u : ℤ) + dx = x) (hvy : (v : ℤ) + dy = y)
    rw [hcontains] at hxy huv
    have hin := (hrange x).mpr (by omega)
    have hfirst := (hrange a).mp ⟨Nat.le_refl a, by omega⟩
    have hlast := (hrange (e - 1)).mp (by omega)
    have hrows := h y v (by omega) (by omega) (by omega) (by omega) hvy
    refine ⟨fun htrailing (hxl : (x : ℤ) = l) hpos => ?_, fun hleading (hxr : (x : ℤ) + 1 = r) hroom => ?_⟩
    · have hxl' : x = l := by omega
      rw [hcell (by omega) (by omega)] at htrailing
      have hupos : 0 < u := Nat.pos_of_ne_zero fun h0 => (hfits (show v < m by omega)).first (by rw [← h0, htrailing])
      have hclear := hrows.1 (by omega) (by omega)
      unfold LeftClear at hclear
      rw [← hxl', shifted_of_eq hux, shifted_of_eq (show ((u - 1 : ℕ) : ℤ) + dx = (x - 1 : ℕ) by omega)] at hclear
      rw [hcell (by omega) (by omega), hcell (by omega) (by omega)]
      exact hclear htrailing hpos
    · rw [hcell (by omega) (by omega)] at hleading
      rw [hb.width_eq] at hroom
      have hulast : u + 1 < width := by
        have hne := (hfits (show v < m by omega)).last (y := u)
        have : u + 1 ≠ width := fun heq => hne heq hleading
        omega
      have hclear := hrows.2 (by omega) (by omega)
      unfold RightClear at hclear
      rw [show r - 1 = x by omega, shifted_of_eq hux, show r = x + 1 by omega,
        shifted_of_eq (show ((u + 1 : ℕ) : ℤ) + dx = (x + 1 : ℕ) by omega)] at hclear
      rw [hcell (by omega) (by omega), hcell (by omega) (by omega)]
      exact hclear hleading hroom

/-! ### Whole rows -/

/-- Behind `CopyFrom` a row shows the other one when the columns that were not read agree. -/
lemma copied_eq_iff {d s : ℕ → GlyphCell} (hd : Fits width d) (hs : Fits width s) {limit : ℕ} (hlimit : limit ≤ width) :
    (∀ x < width, copied limit d s x = s x) ↔
      if limit = 1 ∧ (s 0).half = .leading then ∀ x < width, d x = s x
      else ∀ x < width, limit ≤ x → (if x = limit ∧ (d x).half = .trailing then .blank [space] else d x) = s x := by
  by_cases hone : limit = 1 ∧ (s 0).half = .leading
  · unfold copied
    rw [if_pos hone, if_pos (.inr hone)]
  · rw [if_neg hone]
    rcases Nat.eq_zero_or_pos limit with rfl | hpos
    · unfold copied
      rw [if_pos (.inl rfl)]
      refine forall_congr' fun x => imp_congr_right fun hx => ?_
      have hne : ¬(x = 0 ∧ (d x).half = .trailing) := by
        rintro ⟨h0, htrailing⟩
        exact hd.first (h0 ▸ htrailing)
      rw [if_neg hne]
      exact ⟨fun h _ => h, fun h => h (Nat.zero_le x)⟩
    · have hcopied : copied limit d s = laid [space] d
          (fun y => if y + 1 = limit ∧ (s y).half = .leading then .blank [space] else s y) 0 limit :=
        if_neg fun h => h.elim (fun h => by omega) hone
      have hbehind : ∀ x, limit ≤ x → copied limit d s x =
          if x = limit ∧ (d x).half = .trailing then .blank [space] else d x := by
        intro x hx
        rw [hcopied, laid, if_neg (by omega), if_neg (by omega)]
      refine ⟨fun h x hx hle => ?_, fun h x hx => ?_⟩
      · rw [← hbehind x hle]
        exact h x hx
      · rcases Nat.lt_or_ge x limit with hlt | hge
        · rw [hcopied, laid_inside (Nat.zero_le x) hlt]
          refine if_neg ?_
          rintro ⟨hend, hleading⟩
          have htrailing := (hs.paired x).1.mp hleading
          rcases Nat.lt_or_eq_of_le hlimit with hlt' | heq
          · have hcut := h limit hlt' (Nat.le_refl limit)
            rw [hend] at htrailing
            rw [← hcut] at htrailing
            split at htrailing
            · cases htrailing
            · next hnot => exact hnot ⟨rfl, htrailing⟩
          · exact hs.last (by omega) hleading
        · rw [hbehind x hge]
          exact h x hx hge

lemma copyComplete_iff {b : TextBuffer α} {cells : ℕ → ℕ → GlyphCell} {attrs : ℕ → ℕ → Option α}
    (hb : b.Displays width height cells attrs) {y v : ℕ} (hy : y < height) (hv : v < height) :
    (∀ x < width, copied (b.getRow v).getReadableColumnCount (cells y) (cells v) x = cells v x) ↔
      CopyComplete b y v := by
  have hlimit : (b.getRow v).getReadableColumnCount ≤ width := by
    rw [← (hb.rows v hv).columns]
    exact getReadableColumnCount_le _
  have hcell : ∀ {x y}, x < width → y < height → b.cell x y = cells y x := fun hx hy => (hb.rows _ hy).cell_eq hx
  rw [copied_eq_iff (hb.rows y hy).fits (hb.rows v hv).fits hlimit]
  unfold CopyComplete
  dsimp only
  rw [hb.width_eq]
  rcases Nat.eq_zero_or_pos width with rfl | hpos
  · have hnone : ∀ {P : ℕ → Prop}, (∀ x < 0, P x) ↔ True := by
      intro P
      exact iff_of_true (fun x hx => absurd hx (Nat.not_lt_zero x)) trivial
    simp only [hnone, ite_self]
  rw [hcell hpos hv]
  split
  · refine forall₂_congr fun x hx => ?_
    rw [hcell hx hy, hcell hx hv]
  · refine forall₂_congr fun x hx => ?_
    rw [hcell hx hy, hcell hx hv]

/-- A row of which all columns have moved shows the other one. -/
lemma moved_all_iff {d s f : ℕ → GlyphCell} (hs : Fits width s) (hbehind : ∀ x, width ≤ x → f x = d x) :
    Moved [space] 0 width 0 width d s f ↔ ∀ x < width, f x = s x := by
  refine ⟨fun h x hx => ?_, fun h => ⟨fun x hx => ?_, fun x _ hx => .inl (h x hx), fun x _ hx hnot => by omega⟩⟩
  · rcases h.moved x (Nat.zero_le x) hx with hsame | ⟨-, ⟨htrailing, h0⟩ | ⟨hleading, hend⟩⟩
    · exact hsame
    · exact absurd (h0 ▸ htrailing) hs.first
    · exact absurd hleading (hs.last hend)
  · exact .inl (hbehind x (by omega))

lemma copied_behind {d s : ℕ → GlyphCell} (hd : Fits width d) {limit x : ℕ} (hlimit : limit ≤ width) (hx : width ≤ x) :
    copied limit d s x = d x := by
  unfold copied
  split
  · rfl
  · unfold laid
    rw [if_neg (by omega), if_neg (by omega), if_neg]
    rintro ⟨-, htrailing⟩
    rw [hd.behind x hx] at htrailing
    exact nomatch htrailing

end Rows

end VT7.Adapter
