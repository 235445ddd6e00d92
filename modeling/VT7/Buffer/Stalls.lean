import VT7.Buffer.Returns

/-!
# When `Reflow` does not return

In a buffer of one column a wide glyph of an old row is never copied.  Where no limit stops the copy loop of
that row, `Reflow` does not return, whatever number of iterations the row may take.
-/

namespace VT7.Buffer

open VT7.Lib.Filling

variable {α : Type} {c : ReflowInput α} {glyphs : ℕ → List Glyph} {y w h : ℕ} {s s' : ReflowState α}

/-- What every step of `Reflow` into rows of one column keeps. -/
structure ReflowState.Narrow (s : ReflowState α) (h : ℕ) : Prop where
  sized : s.Sized 1 h
  filled : s.Filled
  newX : s.newX ≤ 1

lemma ReflowState.Narrow.markRow (hs : s.Narrow h) : (s.markRow c y).Narrow h := by
  refine ⟨hs.sized.markRow, ?_, markRow_newX s ▸ hs.newX⟩
  unfold ReflowState.markRow
  split
  · obtain ⟨gs, hgs⟩ := hs.filled (s.newBuffer.rowOffset s.newY)
    exact hs.filled.setNewRow _ ⟨gs, hgs.congr rfl rfl rfl⟩
  · exact hs.filled

lemma ReflowState.Narrow.newline (hs : s.Narrow h) : s.newline.Narrow h :=
  ⟨⟨hs.sized.width, hs.sized.height, hs.sized.columns⟩, hs.filled, Nat.zero_le 1⟩

lemma ReflowState.Narrow.atRowStart (hs : s.Narrow h) : s.atRowStart.Narrow h := by
  unfold ReflowState.atRowStart
  split
  · exact hs.newline
  · exact hs

lemma bind_of_ok {ε β γ : Type} {first : Except ε β} {next : β → Except ε γ} {b : β} (h : first = .ok b) :
    (first >>= next) = next b := by
  rw [h]
  rfl

lemma bind_of_error {ε β γ : Type} {first : Except ε β} {next : β → Except ε γ} {error : ε}
    (h : first = .error error) : (first >>= next) = .error error := by
  rw [h]
  rfl

lemma copyFrom_one {r source : Row α} {gs gs' : List Glyph} (hr : r.Holds gs) (hcount : r.columnCount = 1)
    (hsource : source.Holds gs') : ∃ r', r.copyFrom source = .ok r' ∧ ∃ gs'', r'.Holds gs'' := by
  have hready : ({ r with lineRendition := source.lineRendition, wrapForced := source.wrapForced } :
      Row α).Holds gs := hr.congr rfl rfl rfl
  obtain ⟨r', result, hcopy, gs'', hholds⟩ := copyTextFrom_one (a := []) hready hcount
    { source, sourceColumnLimit := source.getReadableColumnCount } hsource rfl rfl
    (show 1 ≤ coordTypeMax by decide) rfl
  exact ⟨_, bind_of_ok hcopy, gs'', hholds.congr rfl rfl rfl⟩

lemma copyRendition_one (hold : c.oldBuffer.Holds glyphs) (hy : y < c.oldBuffer.height) (hs : s.Narrow h) :
    ∃ s', s.copyRendition c y = .ok s' ∧ s'.Narrow h ∧ s'.newYLimit = s.newYLimit := by
  have hstart := hs.atRowStart
  have hcount := hstart.sized.newRow
  obtain ⟨row, hrow, gs, hgs⟩ : ∃ row,
      (if s.atRowStart.newBuffer.height ≤ s.atRowStart.newY then
        s.atRowStart.newRow.reset s.atRowStart.newBuffer.initialAttributes
      else s.atRowStart.newRow).copyFrom (c.oldRow y) = .ok row ∧ ∃ gs, row.Holds gs := by
    split
    · exact copyFrom_one (reset_holds (hcount ▸ by decide) _) hcount (hold.rows y hy)
    · obtain ⟨gs, hgs⟩ := hstart.filled (s.atRowStart.newBuffer.rowOffset s.atRowStart.newY)
      exact copyFrom_one hgs hcount (hold.rows y hy)
  have hok : s.copyRendition c y = .ok (s.atRowStart.placeRendition c y (row.setWrapForced false)) := by
    unfold ReflowState.copyRendition
    dsimp only
    rw [hrow]
    rfl
  obtain ⟨hsized, hnewX, hlimit, -⟩ := copyRendition_keeps hs.sized hok
  have hset := hstart.filled.setNewRow (row.setWrapForced false) ⟨gs, hgs.congr rfl rfl rfl⟩
  refine ⟨_, hok, ⟨hsized, ?_, hnewX ▸ Nat.zero_le 1⟩, hlimit⟩
  intro i
  rw [placeRendition_newBuffer]
  exact hset i

section Runs

variable (hold : c.oldBuffer.Holds glyphs)

include hold

/-- A row goes through without an error, or its loop does not come to its end. -/
theorem copyRow_one (hy : y < c.oldBuffer.height) (iterations : ℕ) (hs : s.Narrow h)
    (hpast : (c.oldRow y).lineRendition = .singleWidth → y ≠ c.oldCursorPos.y) :
    s.copyRow c iterations y = .error .unfinished ∨
      ∃ s', s.copyRow c iterations y = .ok s' ∧ s'.Narrow h ∧ s'.newYLimit = s.newYLimit := by
  by_cases hsingle : (c.oldRow y).lineRendition = .singleWidth
  · have hmark := hs.markRow (c := c) (y := y)
    rw [copyRow_eq s iterations hsingle]
    rcases copyLoop_one (a := []) hold hy iterations rfl hmark.sized hmark.filled hmark.newX with
      hstalls | ⟨t, hloop, hsized, hfilled, hnewX, hlimit⟩
    · left
      rw [show ReflowState.copyLoop c y iterations (s.markRow c y) 0 = _ from hstalls]
      rfl
    · right
      have hdone : t.Narrow h := ⟨hsized, hfilled, hnewX⟩
      have hsame := (hlimit (hpast hsingle)).trans (markRow_newYLimit s)
      rw [show ReflowState.copyLoop c y iterations (s.markRow c y) 0 = _ from hloop]
      by_cases hwrap : (c.oldRow y).wrapForced
      · exact ⟨t, by simp [hwrap, bind, Except.bind], hdone, hsame⟩
      · exact ⟨t.newline, by simp [hwrap, bind, Except.bind], hdone.newline, hsame⟩
  · rw [copyRow_rendition s iterations hsingle]
    exact .inr (copyRendition_one hold hy hs)

/-- The row of a wide glyph that no limit protects. -/
theorem copyRow_stalls (hy : y < c.oldBuffer.height) (iterations : ℕ) (hs : s.Narrow h)
    (hnone : s.newYLimit = none) (hsingle : (c.oldRow y).lineRendition = .singleWidth)
    {p q : List Glyph} {g : Glyph} (hsplit : upTo (c.oldRowLimit y) (glyphs y) = p ++ g :: q) (hg : g.width = 2)
    (hbefore : y = c.oldCursorPos.y → 2 ≤ h ∧ cols p ≤ c.oldCursorPos.x) :
    s.copyRow c iterations y = .error .unfinished := by
  have hmark := hs.markRow (c := c) (y := y)
  have hlimit := (markRow_newYLimit (c := c) (y := y) s).trans hnone
  have hstalls : ReflowState.copyLoop c y iterations (s.markRow c y) 0 = .error .unfinished := by
    refine copyLoop_stalls (a := []) hold hy iterations rfl hmark.sized hmark.filled hmark.newX hsplit hg ?_
    by_cases hcursor : y = c.oldCursorPos.y
    · obtain ⟨htwo, hle⟩ := hbefore hcursor
      refine .inr ⟨hcursor, htwo, hle, fun limit hsome => ?_⟩
      rw [hlimit] at hsome
      cases hsome
    · exact .inl ⟨hcursor, hlimit⟩
  rw [copyRow_eq s iterations hsingle, hstalls]
  rfl

/-- The rows up to that row. -/
theorem copyRows_stalls (iterations rest : ℕ) {z : ℕ} (hs : s.Narrow h) (hnone : s.newYLimit = none)
    (hle : y ≤ z) (hlt : z < y + rest) (hz : z < c.oldBuffer.height)
    (hpast : ∀ k < z, (c.oldRow k).lineRendition = .singleWidth → k ≠ c.oldCursorPos.y)
    (hsingle : (c.oldRow z).lineRendition = .singleWidth)
    {p q : List Glyph} {g : Glyph} (hsplit : upTo (c.oldRowLimit z) (glyphs z) = p ++ g :: q) (hg : g.width = 2)
    (hbefore : z = c.oldCursorPos.y → 2 ≤ h ∧ cols p ≤ c.oldCursorPos.x) :
    ReflowState.copyRows c iterations rest s y = .error .unfinished := by
  induction rest generalizing s y with
  | zero => omega
  | succ rest ih =>
    have hbelow : s.belowLimit = true := by
      unfold ReflowState.belowLimit
      rw [hnone]
      rfl
    unfold ReflowState.copyRows
    rw [if_pos hbelow]
    by_cases hat : y = z
    · subst hat
      rw [copyRow_stalls hold hz iterations hs hnone hsingle hsplit hg hbefore]
      rfl
    · rcases copyRow_one hold (by omega) iterations hs (hpast y (by omega)) with hstalls | ⟨t, hok, hdone, hsame⟩
      · rw [hstalls]
        rfl
      · rw [hok]
        exact ih hdone (hsame.trans hnone) (by omega) (by omega)

end Runs

/-! ### `Reflow` -/

/-- The state `Reflow` starts with. -/
def ReflowState.start (newBuffer : TextBuffer α) (positionInfo : Option PositionInformation) : ReflowState α where
  newBuffer := newBuffer
  newX := 0
  newY := 0
  newYLimit := none
  newCursorPos := ⟨0, 0⟩
  positionInfo := positionInfo
  mutableViewportTop := positionInfo.map (·.mutableViewportTop)
  visibleViewportTop := positionInfo.map (·.visibleViewportTop)

lemma reflow_unfinished_iff (iterations : ℕ) (newBuffer : TextBuffer α) (info : Option PositionInformation) :
    reflow iterations c newBuffer info = .error .unfinished ↔
      ReflowState.copyRows c iterations c.oldHeight (.start newBuffer info) 0 = .error .unfinished := by
  constructor
  · intro herror
    rcases error_of_bind herror with hrows | ⟨next, -, hok⟩
    · exact hrows
    · cases hok
  · intro herror
    exact bind_of_error herror

lemma start_sized (hw : 1 ≤ w) (hh : 1 ≤ h) (attr : α) (info : Option PositionInformation) :
    (ReflowState.start (.create w h attr) info).Sized w h := by
  refine ⟨Nat.max_eq_left hw, Nat.max_eq_left hh, fun i => ?_⟩
  show (Row.create (max w 1) attr).columnCount = w
  rw [Nat.max_eq_left hw]
  rfl

lemma start_going (hw : 1 ≤ w) (hh : 1 ≤ h) (attr : α) (info : Option PositionInformation) :
    (ReflowState.start (.create w h attr) info).Going w h :=
  ⟨start_sized hw hh attr info, Nat.zero_le w, fun _ hsome => nomatch hsome⟩

lemma start_narrow (hh : 1 ≤ h) (attr : α) (info : Option PositionInformation) :
    (ReflowState.start (.create 1 h attr) info).Narrow h :=
  ⟨start_sized (le_refl 1) hh attr info, fun _ => ⟨_, create_holds (by decide) attr⟩, Nat.zero_le 1⟩

lemma oldHeight_le (hold : c.oldBuffer.Holds glyphs) : c.oldHeight ≤ c.oldBuffer.height := by
  have hcursor := oldCursorPos_y_lt hold
  have hpos := hold.height_pos
  have hsearch (top y : ℕ) : c.oldBuffer.lastRowWithTextFrom top y ≤ y := by
    induction y with
    | zero => exact le_refl 0
    | succ y ih =>
      unfold TextBuffer.lastRowWithTextFrom
      split
      · exact ih.trans (Nat.le_succ y)
      · exact le_refl _
  have hlast : c.oldBuffer.getLastNonSpaceCharacterY c.lastCharacterViewport ≤ c.oldBuffer.height - 1 :=
    (hsearch _ _).trans (Nat.min_le_right _ _)
  unfold ReflowInput.oldHeight
  omega

/-- `Reflow` into a buffer of width `w` and height `h` comes to its end. -/
def Returns (c : ReflowInput α) (w h : ℕ) (attr : α) (info : Option PositionInformation) (iterations : ℕ) : Prop :=
  reflow iterations c (.create w h attr) info ≠ .error .unfinished

/-- A wide glyph that is not behind the cursor stalls `Reflow` into one column. -/
lemma reflow_stalls (hold : c.oldBuffer.Holds glyphs) (hh : 1 ≤ h) (hbehind : ¬ WideBehindCursor c glyphs h)
    (attr : α) (info : Option PositionInformation) (iterations : ℕ) :
    reflow iterations c (.create 1 h attr) info = .error .unfinished := by
  by_contra hdone
  refine hbehind fun z hz hsingle p g q hsplit hg => ?_
  by_contra hbefore
  refine hdone ((reflow_unfinished_iff ..).mpr ?_)
  have hrows := oldHeight_le hold
  refine copyRows_stalls hold iterations c.oldHeight (start_narrow hh attr info) rfl (Nat.zero_le z) (by omega)
    (by omega) ?_ hsingle hsplit hg ?_
  · -- the cursor's row is not above the glyph's, or it has a rendition and sets no limit
    rintro k hk hrendition rfl
    exact hbefore ⟨hrendition, .inl hk⟩
  · intro hcursor
    have hcase := not_and.mp hbefore (hcursor ▸ hsingle)
    omega

/-- **`Reflow` returns, within `iterationBound` iterations for a row, exactly when the new buffer has two
columns or every wide glyph is behind the cursor.** -/
theorem reflow_returns_iff (hold : c.oldBuffer.Holds glyphs) (hw : 1 ≤ w) (hw' : w < 0x10000) (hh : 1 ≤ h)
    (attr : α) (info : Option PositionInformation) :
    ((∃ iterations, Returns c w h attr info iterations) ↔ 2 ≤ w ∨ WideBehindCursor c glyphs h) ∧
      ((∃ iterations, Returns c w h attr info iterations) →
        Returns c w h attr info (iterationBound c h)) := by
  have hreturns (hwide : 2 ≤ w ∨ WideBehindCursor c glyphs h) : Returns c w h attr info (iterationBound c h) := by
    intro herror
    rw [reflow_unfinished_iff] at herror
    exact copyRows_returns hold hw hw' hh hwide c.oldHeight (by omega) (oldHeight_le hold)
      (start_going hw hh attr info) (fun _ hlt => absurd hlt (Nat.not_lt_zero _)) herror
  have hstalls : (∃ iterations, Returns c w h attr info iterations) → 2 ≤ w ∨ WideBehindCursor c glyphs h := by
    rintro ⟨iterations, hdone⟩
    by_contra hneither
    obtain ⟨hnarrow, hbehind⟩ := not_or.mp hneither
    obtain rfl : w = 1 := by omega
    exact hdone (reflow_stalls hold hh hbehind attr info iterations)
  exact ⟨⟨hstalls, fun hwide => ⟨_, hreturns hwide⟩⟩, fun hsome => hreturns (hstalls hsome)⟩

/-! ### A wide glyph before the cursor -/

/-- A row of four columns: `a`, a wide glyph and `b`. -/
def wideInputRow : Row ℕ :=
  { Row.create 4 0 with chars := [97, 0x4e16, 98, 32], charOffsets := [0, 1, 0x8001, 2, 3] }

def wideRowGlyphs : List Glyph :=
  [.narrow 97, .wide 0x4e16, .narrow 98]

/-- A buffer of that row with the cursor on `b`. -/
def wideInput : ReflowInput ℕ where
  oldBuffer :=
    { rows := fun _ => wideInputRow, width := 4, height := 1, firstRow := 0, initialAttributes := 0, cursorX := 3, cursorY := 0 }

lemma wideInput_holds : wideInput.oldBuffer.Holds fun _ => wideRowGlyphs :=
  ⟨fun _ _ => ⟨rfl, rfl, rfl, by decide⟩, fun _ _ => rfl, by decide, by decide⟩

/-- Two columns are enough for it. -/
theorem reflow_returns_iff_wideInput :
    ((∃ iterations, Returns wideInput 2 9 0 none iterations) ↔
        2 ≤ 2 ∨ WideBehindCursor wideInput (fun _ => wideRowGlyphs) 9) ∧
      ((∃ iterations, Returns wideInput 2 9 0 none iterations) →
        Returns wideInput 2 9 0 none (iterationBound wideInput 9)) :=
  reflow_returns_iff wideInput_holds (by decide) (by decide) (by decide) 0 none

/-- One column is not. -/
theorem reflow_wideInput_stalls :
    wideInput.oldBuffer.Holds (fun _ => wideRowGlyphs) ∧
      ∀ iterations, reflow iterations wideInput (.create 1 9 0) none = .error .unfinished := by
  refine ⟨wideInput_holds, reflow_stalls wideInput_holds (by decide) (fun hbehind => ?_) 0 none⟩
  obtain ⟨-, hlt | ⟨-, htall | hlt⟩⟩ := hbehind 0 (by decide) rfl _ _ _
    (show _ = [wideRowGlyphs[0]] ++ wideRowGlyphs[1] :: [wideRowGlyphs[2]] by decide) rfl
  · exact absurd hlt (by decide)
  · exact absurd htall (by decide)
  · exact absurd hlt (by decide)

end VT7.Buffer
