import VT7.Adapter.CopiedRows
import VT7.Buffer.Renditions

/-!
# Line renditions of rows that are scrolled

`_ScrollRectVertically` takes the renditions of its rows along where it copies whole rows, and leaves them where it copies
cells.  The rows that it reveals are single-width.
-/

namespace VT7.Adapter

open VT7.Buffer
open VT7.Lib.Cells
open VT7.Types (Rect)

variable {α : Type} {b b' : TextBuffer α}

/-- The rows of the buffer are short enough for any copies between them. -/
def Short (b : TextBuffer α) : Prop := ∀ y < b.height, max (b.getRow y).charSize b.width + 2 * b.width < 0x4000

lemma Short.shortTexts (h : Short b) {rect : Rect} (hbottom : rect.bottom ≤ b.height) : ShortTexts b rect := by
  intro y v _ hy _ hv
  have hrow := h y (by omega)
  have hrow' := h v (by omega)
  omega

lemma Content.copyFits (hc : Content b) (hs : Short b) {y v : ℕ} (hy : y < b.height) (hv : v < b.height) :
    CopyFits b y v := by
  have hrow := hs y hy
  have hrow' := hs v hv
  rw [(hc.displays.rows y hy).charSize_eq] at hrow
  rw [(hc.displays.rows v hv).charSize_eq] at hrow'
  unfold CopyFits
  have hsum := sum_weight_le (fun x => weight_copied_le (b.getRow v).getReadableColumnCount (strip b y) (strip b v) x)
    (Nat.le_add_right _ b.width)
  omega

/-- The line rendition of a row behind a scroll by `delta`. -/
def scrolledRendition (b : TextBuffer α) (rect : Rect) (delta : ℤ) (y : ℕ) : LineRendition :=
  if rect.top ≤ y ∧ y < rect.bottom then
    if rect.top ≤ y - delta ∧ y - delta < rect.bottom then
      if rect.width = b.width then (b.getRow (y - delta).toNat).lineRendition else (b.getRow y).lineRendition
    else .singleWidth
  else (b.getRow y).lineRendition

variable [DecidableEq α]

/-- What every write does, the loop does. -/
lemma copyCells_of_writes {R : TextBuffer α → TextBuffer α → Prop} {srcView dstView : Types.Viewport}
    {walkDirection : ℤ} {iterations : ℕ} {srcPos dstPos : Types.Point}
    (hok : copyCells srcView dstView walkDirection iterations srcPos dstPos b = .ok b')
    (hwrite : ∀ {b b' : TextBuffer α} {view pos}, b.writeLine [view] pos none none = .ok b' → R b b')
    (htrans : ∀ {b b' b''}, R b b' → R b' b'' → R b b'') : R b b' := by
  induction iterations generalizing srcPos dstPos b with
  | zero => cases hok
  | succ iterations ih =>
    unfold copyCells at hok
    obtain ⟨current, -, hok⟩ := ok_of_bind hok
    obtain ⟨written, hwritten, hok⟩ := ok_of_bind hok
    dsimp only at hok
    split at hok
    · exact htrans (hwrite hwritten) (ih hok)
    · cases hok
      exact hwrite hwritten

omit [DecidableEq α] in
lemma mapError_eq_ok {ε ε' β : Type} {x : Except ε β} {f : ε → ε'} {a : β} (h : x.mapError f = .ok a) : x = .ok a := by
  cases x with
  | error e => cases h
  | ok a' =>
    cases h
    rfl

/-- What the copies do to the renditions. -/
lemma moveLines_lineRendition (hc : Content b) (hs : Short b) {rect : Rect} {delta : ℤ} (htop : 0 ≤ rect.top)
    (hbottom : rect.bottom ≤ b.height) (hok : moveLines b rect delta = .ok b') :
    b' = { b with rows := b'.rows } ∧ ∀ y < b.height, (b'.getRow y).lineRendition =
      if ((rect.top ≤ y ∧ y < rect.bottom) ∧ rect.top ≤ y - delta ∧ y - delta < rect.bottom) ∧ rect.width = b.width then
        (b.getRow (y - delta).toNat).lineRendition
      else (b.getRow y).lineRendition := by
  have hheight : rect.height = rect.bottom - rect.top := rfl
  unfold moveLines at hok
  dsimp only at hok
  by_cases hroom : min |delta| rect.height < rect.height
  swap
  · rw [if_neg hroom] at hok
    cases hok
    refine ⟨rfl, fun y _ => (if_neg fun h => hroom ?_).symm⟩
    rcases abs_cases delta with ⟨habs, _⟩ | ⟨habs, _⟩ <;> omega
  rw [if_pos hroom] at hok
  have habs : min |delta| rect.height = |delta| := by omega
  rw [habs] at hok hroom
  by_cases hfull : rect.width = b.width
  · rw [if_pos hfull] at hok
    have hscrolled := mapError_eq_ok hok
    have hactual : (if 0 < delta then |delta| else -|delta|) = delta := by
      rcases abs_cases delta with ⟨h, _⟩ | ⟨h, _⟩ <;> split_ifs <;> omega
    rw [hactual] at hscrolled
    rcases eq_or_ne delta 0 with rfl | hdelta
    · unfold TextBuffer.scrollRows at hscrolled
      rw [if_pos rfl] at hscrolled
      cases hscrolled
      refine ⟨rfl, fun y _ => ?_⟩
      rw [Int.sub_zero, Int.toNat_natCast, ite_self]
    · have hrange : 0 ≤ (if 0 < delta then rect.top else rect.top + |delta|) + delta ∧
          (if 0 < delta then rect.top else rect.top + |delta|) + (rect.height - |delta|) + delta ≤ b.height ∧
          0 ≤ (if 0 < delta then rect.top else rect.top + |delta|) ∧
          (if 0 < delta then rect.top else rect.top + |delta|) + (rect.height - |delta|) ≤ b.height := by
        rcases abs_cases delta with ⟨h, _⟩ | ⟨h, _⟩ <;> split_ifs <;> omega
      have hgoes : ∀ v z : ℕ, Goes (if 0 < delta then rect.top else rect.top + |delta|) (rect.height - |delta|) delta v z ↔
          ((rect.top ≤ z ∧ z < rect.bottom) ∧ rect.top ≤ z - delta ∧ z - delta < rect.bottom) ∧ (v : ℤ) = z - delta := by
        intro v z
        unfold Goes
        rcases abs_cases delta with ⟨h, _⟩ | ⟨h, _⟩ <;> split_ifs <;> omega
      generalize (if 0 < delta then rect.top else rect.top + |delta|) = first at *
      generalize rect.height - |delta| = size at *
      obtain ⟨b'', hok', hsame, hcopied, hkept⟩ := scrollRows_copied hc hdelta hrange.2.2.1 hrange.2.2.2 hrange.1
        hrange.2.1 fun v z h => hc.copyFits hs (by have := h.2.2; have := h.1; have := h.2.1; omega)
          (by have := h.1; have := h.2.1; omega)
      obtain rfl : b' = b'' := Except.ok.inj (hscrolled.symm.trans hok')
      refine ⟨hsame, fun y hy => ?_⟩
      split
      · next hmoved =>
        exact (hcopied _ y ((hgoes _ y).mpr ⟨hmoved.1, by omega⟩)).lineRendition
      · next hstill =>
        rw [hkept y hy fun hin => ?_]
        refine hstill ⟨((hgoes (y - delta).toNat y).mp ⟨?_, ?_, ?_⟩).1, hfull⟩ <;> omega
  · rw [if_neg hfull] at hok
    have hkept := copyCells_of_writes hok TextBuffer.writeLine_lineRendition .trans
    refine ⟨hkept.same, fun y hy => ?_⟩
    rw [hkept.lineRendition y hy, if_neg fun h => hfull h.2]

/-- **The renditions behind a scroll.** -/
theorem scrollRectVertically_lineRendition (hc : Content b) (hs : Short b) {cwd : Clustering} {eraseAttributes : α}
    {rect : Rect} {delta : ℤ} (htop : 0 ≤ rect.top) (hlines : rect.top ≤ rect.bottom) (hbottom : rect.bottom ≤ b.height)
    (hok : scrollRectVertically cwd eraseAttributes b rect delta = .ok b') :
    b' = { b with rows := b'.rows } ∧
      ∀ y < b.height, (b'.getRow y).lineRendition = scrolledRendition b rect delta y := by
  unfold scrollRectVertically at hok
  obtain ⟨b₁, hmoved, hok⟩ := ok_of_bind hok
  obtain ⟨b₂, hfilled, hok⟩ := ok_of_bind hok
  obtain ⟨hsame, hrenditions⟩ := moveLines_lineRendition hc hs htop hbottom hmoved
  have hkept := TextBuffer.fillRect_lineRendition (mapError_eq_ok hfilled)
  have hheight : b₂.height = b.height := by rw [hkept.same, hsame]
  have hrect : rect.height = rect.bottom - rect.top := rfl
  cases hok
  unfold TextBuffer.resetLineRenditionRange
  dsimp only
  have hpos : 0 ≤ min |delta| rect.height := le_min (abs_nonneg delta) (by omega)
  have hrevealed : ∀ y : ℕ, (if 0 < delta then rect.top else rect.bottom - min |delta| rect.height) ≤ y ∧
      y < (if 0 < delta then rect.top else rect.bottom - min |delta| rect.height) + min |delta| rect.height ↔
        (rect.top ≤ y ∧ y < rect.bottom) ∧ ¬(rect.top ≤ y - delta ∧ y - delta < rect.bottom) := by
    intro y
    rcases abs_cases delta with ⟨h, _⟩ | ⟨h, _⟩ <;> split_ifs <;> omega
  have hspan : 0 ≤ (if 0 < delta then rect.top else rect.bottom - min |delta| rect.height) ∧
      (if 0 < delta then rect.top else rect.bottom - min |delta| rect.height) + min |delta| rect.height ≤ b.height := by
    split_ifs <;> omega
  obtain ⟨k, hk⟩ := Int.eq_ofNat_of_zero_le hpos
  obtain ⟨eraseTop, heraseTop⟩ := Int.eq_ofNat_of_zero_le hspan.1
  rw [heraseTop, hk] at hrevealed hspan
  rw [heraseTop, hk, add_sub_cancel_left, Int.toNat_natCast]
  obtain ⟨hreset, hrows⟩ := @TextBuffer.resetLineRenditionFrom_lineRendition _ b₂ k eraseTop (by omega)
  refine ⟨?_, fun y hy => ?_⟩
  · rw [hreset, hkept.same, hsame]
  · have hin := hrevealed y
    rw [hrows y (hheight ▸ hy), hkept.lineRendition y (by rw [hsame]; exact hy), hrenditions y hy]
    unfold scrolledRendition
    by_cases hlines : rect.top ≤ y ∧ y < rect.bottom
    · by_cases hsource : rect.top ≤ y - delta ∧ y - delta < rect.bottom
      · rw [if_neg (by omega), if_pos hlines, if_pos hsource]
        exact if_congr (and_iff_right ⟨hlines, hsource⟩) rfl rfl
      · rw [if_pos (by omega), if_pos hlines, if_neg hsource]
    · rw [if_neg (by omega), if_neg (fun h => hlines h.1.1), if_neg hlines]

end VT7.Adapter
