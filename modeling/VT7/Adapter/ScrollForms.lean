import VT7.Adapter.ScrolledRenditions
import VT7.Buffer.RowForms

/-!
# What a vertical scroll leaves of the buffer

Whatever the rows hold: the rows stay as wide as the buffer, the loop over cells goes through its rectangle once, and
the row that a scroll by one reveals is single-width.
-/

namespace VT7.Adapter

open VT7.Buffer
open VT7.Types (Rect)
open VT7.Types.Viewport

variable {α : Type} [DecidableEq α] {b b' : TextBuffer α}

omit [DecidableEq α] in
lemma mapError_error {error : WriteCellsError} {x : Except BufferError α} (hok : x.mapError .buffer = .error error)
    (hx : ∀ e, x = .error e → e ≠ .unfinished) : error ≠ .buffer .unfinished := by
  cases x with
  | error e =>
    cases hok
    exact fun hunfinished => hx e rfl (WriteCellsError.buffer.inj hunfinished)
  | ok a => cases hok

omit [DecidableEq α] in
lemma getCellDataAt_error {position : Types.Point} {error : WriteCellsError}
    (hok : b.getCellDataAt position = .error error) : error ≠ .buffer .unfinished := by
  unfold TextBuffer.getCellDataAt at hok
  split at hok
  · cases hok
    exact nofun
  · cases hok

/-- **The loop ends** with the last cell of its rectangle, from the step `k` on. -/
lemma copyCells_ends {srcView : Types.Viewport} {l t : ℤ} {w h k m : ℕ} {forward : Bool} {srcPos : Types.Point}
    (hm : 0 < m) (hk : k + m = w * h) {error : WriteCellsError}
    (hok : copyCells srcView (fromDimensions ⟨l, t⟩ w h) (direction forward) m srcPos
      (position l t w (visited forward w h k)) b = .error error) : error ≠ .buffer .unfinished := by
  induction m generalizing k b srcPos with
  | zero => omega
  | succ m ih =>
    unfold copyCells at hok
    rcases error_of_bind hok with hread | ⟨current, -, hok⟩
    · exact getCellDataAt_error hread
    rcases error_of_bind hok with hwritten | ⟨written, -, hok⟩
    · exact TextBuffer.writeLine_error hwritten
    dsimp only at hok
    rw [walkInBounds_visited (by omega)] at hok
    dsimp only at hok
    split at hok
    · next hmore =>
      have hlt := of_decide_eq_true hmore
      rw [Nat.min_eq_left (by omega)] at hok
      exact ih (by omega) (by omega) hok
    · cases hok

omit [DecidableEq α] in
lemma determineWalkDirection_direction (source target : Types.Viewport) :
    determineWalkDirection source target = direction (target.origin.before source.origin) := by
  unfold determineWalkDirection direction
  rfl

lemma moveLines_keepsForm {rect : Rect} {delta : ℤ} (hok : moveLines b rect delta = .ok b') :
    TextBuffer.KeepsForm b b' := by
  unfold moveLines at hok
  dsimp only at hok
  split at hok
  · split at hok
    · exact TextBuffer.scrollRows_keepsForm (mapError_eq_ok hok)
    · exact copyCells_of_writes hok TextBuffer.writeLine_keepsForm .trans
  · cases hok
    exact .refl b

lemma moveLines_ends {rect : Rect} {delta : ℤ} (hwidth : 0 < rect.width) {error : WriteCellsError}
    (hok : moveLines b rect delta = .error error) : error ≠ .buffer .unfinished := by
  unfold moveLines at hok
  dsimp only at hok
  split at hok
  · next hroom =>
    split at hok
    · exact mapError_error hok fun e he => (TextBuffer.scrollRows_error he).trans_ne nofun
    · obtain ⟨w, hw⟩ := Int.eq_ofNat_of_zero_le hwidth.le
      obtain ⟨h, hh⟩ := Int.eq_ofNat_of_zero_le (show 0 ≤ rect.height - min |delta| rect.height by omega)
      have hsize : ((w : ℤ) * h).toNat = w * h := by
        rw [← Nat.cast_mul]
        exact Int.toNat_natCast _
      have hpos : 0 < w := by omega
      have hpos' : 0 < h := by omega
      rw [hw, hh, hsize, determineWalkDirection_direction] at hok
      generalize Types.Point.before _ _ = forward at hok
      rw [@getWalkOrigin_visited _ _ w h hpos hpos' forward, @getWalkOrigin_visited _ _ w h hpos hpos' forward] at hok
      exact copyCells_ends (Nat.mul_pos hpos hpos') (Nat.zero_add _) hok
  · cases hok

/-- **A vertical scroll ends.** -/
theorem scrollRectVertically_ends {cwd : Clustering} {eraseAttributes : α} {rect : Rect} {delta : ℤ}
    (hwidth : 0 < rect.width) {error : WriteCellsError}
    (hok : scrollRectVertically cwd eraseAttributes b rect delta = .error error) : error ≠ .buffer .unfinished := by
  rcases error_of_bind hok with hmoved | ⟨b₁, -, hok⟩
  · exact moveLines_ends hwidth hmoved
  rcases error_of_bind hok with hfilled | ⟨b₂, -, hok⟩
  · exact mapError_error hfilled fun e he => (TextBuffer.fillSpaces_error he).trans_ne nofun
  · cases hok

/-- **A scroll by one row** keeps the form of the buffer, and the row that it reveals is single-width. -/
theorem scrollRectVertically_keepsForm {cwd : Clustering} {eraseAttributes : α} {rect : Rect} {delta : ℤ}
    (hdelta : |delta| = 1) (hlines : rect.top < rect.bottom)
    (hok : scrollRectVertically cwd eraseAttributes b rect delta = .ok b') :
    TextBuffer.KeepsForm b b' ∧ ∀ y : ℕ, y < b.height → (y : ℤ) = (if 0 < delta then rect.top else rect.bottom - 1) →
      (b'.getRow y).lineRendition = .singleWidth := by
  obtain ⟨b₁, hmoved, hok⟩ := ok_of_bind hok
  obtain ⟨b₂, hfilled, hok⟩ := ok_of_bind hok
  cases hok
  have hmin : min |delta| rect.height = 1 := by
    have hheight : rect.height = rect.bottom - rect.top := rfl
    omega
  have hkept := (moveLines_keepsForm hmoved).trans (TextBuffer.fillSpaces_keepsForm (mapError_eq_ok hfilled))
  unfold TextBuffer.resetLineRenditionRange
  dsimp only
  rw [hmin, add_sub_cancel_left]
  refine ⟨hkept.trans (TextBuffer.resetLineRenditionFrom_keepsForm _ _), fun y hy hline => ?_⟩
  rw [← hline]
  obtain ⟨-, hrows⟩ := @TextBuffer.resetLineRenditionFrom_lineRendition _ b₂ 1 y (by rw [hkept.height]; omega)
  exact (hrows y (by rw [hkept.height]; exact hy)).trans (if_pos ⟨Nat.le_refl y, Nat.lt_succ_self y⟩)

end VT7.Adapter
