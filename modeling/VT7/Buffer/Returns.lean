import VT7.Buffer.CopyLoop

/-!
# Whether `Reflow` returns

The copy loop of every old row together: a run of `Reflow` keeps the size of its rows and the limit near the
write position, so the loops end one after the other unless one of them stalls.
-/

namespace VT7.Buffer

open VT7.Lib.Filling

variable {α : Type} {c : ReflowInput α} {glyphs : ℕ → List Glyph} {y w h : ℕ} {s s' : ReflowState α}

/-- What every step of `Reflow` keeps. -/
structure ReflowState.Going (s : ReflowState α) (w h : ℕ) : Prop where
  sized : s.Sized w h
  newX : s.newX ≤ w
  limited : ∀ limit, s.newYLimit = some limit → h ≤ limit ∧ limit ≤ s.newY + h

/-- The limit that `s'` has when `s` had one. -/
def KeepsLimit (s s' : ReflowState α) : Prop := s.newYLimit.isSome → s'.newYLimit.isSome

lemma wrap_newYLimit (s : ReflowState α) : s.wrap.newYLimit = s.newYLimit := by
  unfold ReflowState.wrap
  split <;> rfl

lemma le_wrap_newY (s : ReflowState α) : s.newY ≤ s.wrap.newY := by
  unfold ReflowState.wrap
  split
  · exact Nat.le_succ _
  · exact le_refl _

lemma wrap_newX_le (hs : s.Going w h) (hw : 1 ≤ w) : s.wrap.newX < w := (hs.sized.wrap_newX hw).1

theorem copyLoop_keeps {a rest : List Glyph} (hold : c.oldBuffer.Holds glyphs) (hy : y < c.oldBuffer.height)
    (hw : 1 ≤ w) (hw' : w < 0x10000) (iterations : ℕ) (hsplit : glyphs y = a ++ rest) (hs : s.Going w h)
    (hok : ReflowState.copyLoop c y iterations s (cols a) = .ok s') :
    s'.Going w h ∧ KeepsLimit s s' ∧
      (y = c.oldCursorPos.y → cols a ≤ c.oldCursorPos.x → s.newYLimit = none → s'.newYLimit.isSome) := by
  induction iterations generalizing s a rest with
  | zero => cases hok
  | succ iterations ih =>
    rw [ReflowState.copyLoop_succ] at hok
    have hlimit := wrap_newYLimit s
    have hnewY := le_wrap_newY s
    split at hok
    · next hstop =>
      cases hok
      refine ⟨⟨hs.sized.wrap, (wrap_newX_le hs hw).le, ?_⟩, ?_, ?_⟩
      · intro limit hsome
        have := hs.limited limit (hlimit ▸ hsome)
        omega
      · intro hsome
        rwa [hlimit]
      · intro _ _ hnone
        simp [ReflowState.belowLimit, hlimit, hnone] at hstop
    · have hready := hs.sized.wrap.recycle
      have hlt := wrap_newX_le hs hw
      rw [← ReflowState.recycle_newX] at hlt
      rw [← ReflowState.recycle_newY s.wrap] at hnewY
      rw [← ReflowState.recycle_newYLimit] at hlimit
      generalize s.wrap.recycle = t at *
      obtain ⟨⟨next, oldX'⟩, hchunk, hrest⟩ := ok_of_bind hok
      obtain ⟨hsized, hadvances⟩ := copyChunk_advances hold hy hsplit hready hw' hlt hchunk
      have hle := copyChunk_newX_le hold hy hsplit hready hw' hlt hchunk
      have hkept : KeepsLimit s next := by
        intro hsome
        rw [hadvances.newYLimit]
        split
        · rfl
        · rwa [hlimit]
      have hset : y = c.oldCursorPos.y → cols a ≤ c.oldCursorPos.x → next.newYLimit.isSome := by
        intro hcursor hbefore
        rw [hadvances.newYLimit, if_pos ⟨hcursor, hbefore⟩]
        rfl
      have hgoing : next.Going w h := by
        refine ⟨hsized, hle, fun limit hsome => ?_⟩
        rw [hadvances.newYLimit] at hsome
        rw [hadvances.newY]
        split at hsome
        · have := Option.some.inj hsome
          omega
        · have := hs.limited limit (hlimit ▸ hsome)
          omega
      dsimp only at hrest
      split at hrest
      · next hmore =>
        have hoff := hadvances.oldX
        have hle' := oldRowLimit_le hold hy
        have hsome : pending c y a rest ≠ [] := by
          intro hnothing
          rw [if_pos hnothing] at hoff
          omega
        rw [if_neg hsome] at hoff
        obtain ⟨rest', hrest', -⟩ := pending_next (upTo_isPrefix (w - t.newX) (pending c y a rest))
        rw [hoff, ← cols_append] at hrest
        obtain ⟨hgoing', hkept', -⟩ := ih (by rw [hsplit, List.append_assoc, ← hrest']) hgoing hrest
        exact ⟨hgoing', fun hsome => hkept' (hkept hsome), fun hcursor hbefore _ => hkept' (hset hcursor hbefore)⟩
      · cases hrest
        exact ⟨hgoing, hkept, fun hcursor hbefore _ => hset hcursor hbefore⟩

/-! ### One old row -/

lemma copyFrom_columnCount {r r' source : Row α} (hcopy : r.copyFrom source = .ok r') :
    r'.columnCount = r.columnCount := by
  obtain ⟨⟨row, result⟩, hnext, hok⟩ := ok_of_bind hcopy
  cases hok
  have hcount := copyTextFrom_columnCount hnext
  exact hcount

lemma copyFrom_error {r source : Row α} {error : BufferError} (hcopy : r.copyFrom source = .error error) :
    error = .narrowing := by
  rcases error_of_bind hcopy with hnext | ⟨next, -, hok⟩
  · exact copyTextFrom_error hnext
  · cases hok

section Rendition

variable (s) (c : ReflowInput α) (y : ℕ) (row : Row α)

@[simp] lemma placeRendition_newX : (s.placeRendition c y row).newX = s.newX := by
  unfold ReflowState.placeRendition
  dsimp only
  rw [ReflowState.trackViewports_newX]
  split <;> rfl

@[simp] lemma placeRendition_newY : (s.placeRendition c y row).newY = s.newY + 1 := by
  unfold ReflowState.placeRendition
  dsimp only
  rw [ReflowState.trackViewports_newY]
  split <;> rfl

@[simp] lemma placeRendition_newYLimit : (s.placeRendition c y row).newYLimit = s.newYLimit := by
  unfold ReflowState.placeRendition
  dsimp only
  rw [ReflowState.trackViewports_newYLimit]
  split <;> rfl

@[simp] lemma placeRendition_newBuffer :
    (s.placeRendition c y row).newBuffer = (s.setNewRow row).newBuffer := by
  unfold ReflowState.placeRendition
  dsimp only
  rw [ReflowState.trackViewports_newBuffer]
  split <;> rfl

lemma atRowStart_newX : s.atRowStart.newX = 0 := by
  unfold ReflowState.atRowStart
  split
  · rfl
  · next hzero => exact not_not.mp hzero

lemma atRowStart_newYLimit : s.atRowStart.newYLimit = s.newYLimit := by
  unfold ReflowState.atRowStart
  split <;> rfl

lemma atRowStart_newBuffer : s.atRowStart.newBuffer = s.newBuffer := by
  unfold ReflowState.atRowStart
  split <;> rfl

lemma le_atRowStart_newY : s.newY ≤ s.atRowStart.newY := by
  unfold ReflowState.atRowStart
  split
  · exact Nat.le_succ _
  · exact le_refl _

end Rendition

lemma ReflowState.Sized.atRowStart (hs : s.Sized w h) : s.atRowStart.Sized w h := by
  have hsame := atRowStart_newBuffer s
  exact ⟨hsame ▸ hs.width, hsame ▸ hs.height, hsame ▸ hs.columns⟩

lemma copyRendition_error {error : BufferError} (herror : s.copyRendition c y = .error error) :
    error = .narrowing := by
  rcases error_of_bind herror with hcopy | ⟨row, -, hok⟩
  · exact copyFrom_error hcopy
  · cases hok

lemma copyRendition_keeps (hs : s.Sized w h) (hok : s.copyRendition c y = .ok s') :
    s'.Sized w h ∧ s'.newX = 0 ∧ s'.newYLimit = s.newYLimit ∧ s.newY ≤ s'.newY := by
  obtain ⟨row, hrow, hplace⟩ := ok_of_bind hok
  have hstart := hs.atRowStart
  have hcount : row.columnCount = w := by
    rw [copyFrom_columnCount hrow]
    split
    · exact hstart.newRow
    · exact hstart.newRow
  have hset := hstart.setNewRow (row.setWrapForced false) hcount
  have hle := le_atRowStart_newY s
  cases hplace
  refine ⟨⟨?_, ?_, ?_⟩, ?_, ?_, ?_⟩
  · rw [placeRendition_newBuffer]
    exact hset.width
  · rw [placeRendition_newBuffer]
    exact hset.height
  · rw [placeRendition_newBuffer]
    exact hset.columns
  · rw [placeRendition_newX]
    exact atRowStart_newX s
  · rw [placeRendition_newYLimit, atRowStart_newYLimit]
  · rw [placeRendition_newY]
    omega

/-! ### When a row stalls -/

/-- Every wide glyph that has to be copied is behind the cursor, whose row has no line rendition; in a
buffer of one row it may be in the cursor's row. -/
def WideBehindCursor (c : ReflowInput α) (glyphs : ℕ → List Glyph) (h : ℕ) : Prop :=
  ∀ y < c.oldHeight, (c.oldRow y).lineRendition = .singleWidth →
    ∀ p g q, upTo (c.oldRowLimit y) (glyphs y) = p ++ g :: q → g.width = 2 →
      (c.oldRow c.oldCursorPos.y).lineRendition = .singleWidth ∧
        (c.oldCursorPos.y < y ∨ y = c.oldCursorPos.y ∧ (h = 1 ∨ c.oldCursorPos.x < cols p))

/-- The iterations one row may take. -/
def iterationBound (c : ReflowInput α) (h : ℕ) : ℕ := 2 * c.oldBuffer.width + h + 3

/-- A row before the copy loop. -/
def ReflowState.markRow (s : ReflowState α) (c : ReflowInput α) (y : ℕ) : ReflowState α :=
  if (c.oldRow y).promptData.isSome then s.setNewRow { s.newRow with promptData := (c.oldRow y).promptData }
  else s

lemma copyRow_eq (s : ReflowState α) (iterations : ℕ) (hsingle : (c.oldRow y).lineRendition = .singleWidth) :
    s.copyRow c iterations y = ReflowState.copyLoop c y iterations (s.markRow c y) 0 >>= fun s =>
      .ok (if (c.oldRow y).wrapForced then s else s.newline) := by
  unfold ReflowState.copyRow
  rw [if_neg (not_not_intro hsingle)]
  rfl

lemma copyRow_rendition (s : ReflowState α) (iterations : ℕ)
    (hother : (c.oldRow y).lineRendition ≠ .singleWidth) :
    s.copyRow c iterations y = s.copyRendition c y := by
  unfold ReflowState.copyRow
  rw [if_pos hother]

lemma ReflowState.Sized.markRow (hs : s.Sized w h) : (s.markRow c y).Sized w h := by
  unfold ReflowState.markRow
  split
  · exact hs.setNewRow _ hs.newRow
  · exact hs

lemma markRow_newX (s : ReflowState α) : (s.markRow c y).newX = s.newX := by
  unfold ReflowState.markRow
  split <;> rfl

lemma markRow_newY (s : ReflowState α) : (s.markRow c y).newY = s.newY := by
  unfold ReflowState.markRow
  split <;> rfl

lemma markRow_newYLimit (s : ReflowState α) : (s.markRow c y).newYLimit = s.newYLimit := by
  unfold ReflowState.markRow
  split <;> rfl

lemma ReflowState.Going.markRow (hs : s.Going w h) : (s.markRow c y).Going w h := by
  refine ⟨hs.sized.markRow, markRow_newX s ▸ hs.newX, fun limit hlimit => ?_⟩
  rw [markRow_newY]
  exact hs.limited limit (markRow_newYLimit s ▸ hlimit)

lemma ReflowState.Going.newline (hs : s.Going w h) : s.newline.Going w h := by
  refine ⟨⟨hs.sized.width, hs.sized.height, hs.sized.columns⟩, Nat.zero_le w, fun limit hlimit => ?_⟩
  have := hs.limited limit hlimit
  show h ≤ limit ∧ limit ≤ s.newY + 1 + h
  omega

section Runs

variable (hold : c.oldBuffer.Holds glyphs) (hw : 1 ≤ w) (hw' : w < 0x10000)

include hold hw hw'

theorem copyRow_keeps (hy : y < c.oldBuffer.height) (iterations : ℕ) (hs : s.Going w h)
    (hok : s.copyRow c iterations y = .ok s') :
    s'.Going w h ∧ KeepsLimit s s' ∧
      (y = c.oldCursorPos.y → (c.oldRow y).lineRendition = .singleWidth → s.newYLimit = none →
        s'.newYLimit.isSome) := by
  by_cases hsingle : (c.oldRow y).lineRendition = .singleWidth
  · rw [copyRow_eq s iterations hsingle] at hok
    obtain ⟨t, hloop, hrest⟩ := ok_of_bind hok
    obtain ⟨hgoing, hkept, hset⟩ := copyLoop_keeps (a := []) hold hy hw hw' iterations rfl hs.markRow hloop
    have hlimit : s'.newYLimit = t.newYLimit := by
      cases hrest
      split <;> rfl
    refine ⟨?_, ?_, ?_⟩
    · cases hrest
      split
      · exact hgoing
      · exact hgoing.newline
    · intro hsome
      rw [hlimit]
      exact hkept (markRow_newYLimit s ▸ hsome)
    · intro hcursor _ hnone
      rw [hlimit]
      exact hset hcursor (Nat.zero_le _) (markRow_newYLimit s ▸ hnone)
  · rw [copyRow_rendition s iterations hsingle] at hok
    obtain ⟨hsized, hnewX, hlimit, hnewY⟩ := copyRendition_keeps hs.sized hok
    refine ⟨⟨hsized, by omega, fun limit hsome => ?_⟩, ?_, fun _ hother => absurd hother hsingle⟩
    · have := hs.limited limit (hlimit ▸ hsome)
      omega
    · intro hsome
      rwa [hlimit]

/-- A row that does not stall. -/
theorem copyRow_returns (hy : y < c.oldBuffer.height) (hy' : y < c.oldHeight) (hh : 1 ≤ h)
    (hwide : 2 ≤ w ∨ WideBehindCursor c glyphs h) (hs : s.Going w h)
    (hbehind : (c.oldRow c.oldCursorPos.y).lineRendition = .singleWidth → c.oldCursorPos.y < y →
      s.newYLimit.isSome) :
    s.copyRow c (iterationBound c h) y ≠ .error .unfinished := by
  by_cases hsingle : (c.oldRow y).lineRendition = .singleWidth
  · have hmark := hs.markRow (c := c) (y := y)
    have hlength : (pending c y [] (glyphs y)).length ≤ c.oldBuffer.width := by
      have hcols := cols_upTo_le (c.oldRowLimit y) (glyphs y)
      have hlimit := oldRowLimit_le hold hy
      exact (length_le_cols _).trans (hcols.trans hlimit)
    have hloop : ReflowState.copyLoop c y (iterationBound c h) (s.markRow c y) (cols []) ≠
        .error .unfinished := by
      by_cases htwo : 2 ≤ w
      · refine copyLoop_ends_of_two_le hold hy hw' htwo _ rfl hmark.sized hmark.newX ?_
        unfold iterationBound
        split <;> omega
      · obtain rfl : w = 1 := by omega
        have hpass := hwide.resolve_left htwo y hy' hsingle
        have hnarrow : (∀ p g q, upTo (c.oldRowLimit y) (glyphs y) = p ++ g :: q → g.width ≠ 2) →
            ∀ g ∈ pending c y [] (glyphs y), g.width = 1 := by
          intro hnone g hg
          obtain ⟨p, q, hpq⟩ := List.append_of_mem hg
          have hle := g.width_le
          have hpos := g.width_pos
          have := hnone p g q hpq
          omega
        rcases Nat.lt_trichotomy y c.oldCursorPos.y with hbefore | hat | hafter
        · refine copyLoop_ends_of_narrow hold hy _ rfl hmark.sized hmark.newX (hnarrow ?_) ?_
          · intro p g q hpq htwo'
            obtain ⟨-, hcase⟩ := hpass p g q hpq htwo'
            omega
          · unfold iterationBound
            omega
        · refine copyLoop_ends_at_cursor hold hy _ rfl hmark.sized hh hmark.newX hat
            (fun hlt => absurd hlt (Nat.not_lt_zero _)) ?_ ?_
          · intro p g q hpq hle
            by_contra hneither
            have hwidth := g.width_le
            have hpos := g.width_pos
            obtain ⟨-, hcase⟩ := hpass p g q hpq (by omega)
            rw [List.nil_append] at hle
            omega
          · unfold iterationBound
            omega
        · by_cases hcursor : (c.oldRow c.oldCursorPos.y).lineRendition = .singleWidth
          · obtain ⟨limit, hsome⟩ := Option.isSome_iff_exists.mp (hbehind hcursor hafter)
            obtain ⟨hle, hle'⟩ := hs.limited limit hsome
            refine copyLoop_ends_of_limit hold hy _ rfl hmark.sized hmark.newX
              ((markRow_newYLimit s).trans hsome) hle (.inl (by omega)) ?_
            rw [markRow_newY]
            unfold iterationBound
            omega
          · refine copyLoop_ends_of_narrow hold hy _ rfl hmark.sized hmark.newX (hnarrow ?_) ?_
            · intro p g q hpq htwo'
              exact absurd (hpass p g q hpq htwo').1 hcursor
            · unfold iterationBound
              omega
    rw [copyRow_eq s _ hsingle]
    intro herror
    rcases error_of_bind herror with hfirst | ⟨t, -, hok⟩
    · exact hloop hfirst
    · cases hok
  · rw [copyRow_rendition s _ hsingle]
    intro herror
    have hnarrowing := copyRendition_error herror
    cases hnarrowing

theorem copyRows_returns (hh : 1 ≤ h) (hwide : 2 ≤ w ∨ WideBehindCursor c glyphs h) (rest : ℕ)
    (hrest : y + rest ≤ c.oldHeight) (hheight : c.oldHeight ≤ c.oldBuffer.height) (hs : s.Going w h)
    (hbehind : (c.oldRow c.oldCursorPos.y).lineRendition = .singleWidth → c.oldCursorPos.y < y →
      s.newYLimit.isSome) :
    ReflowState.copyRows c (iterationBound c h) rest s y ≠ .error .unfinished := by
  induction rest generalizing s y with
  | zero => exact fun herror => nomatch herror
  | succ rest ih =>
    unfold ReflowState.copyRows
    split
    · intro herror
      rcases error_of_bind herror with hfirst | ⟨t, hok, hnext⟩
      · exact copyRow_returns hold hw hw' (by omega) (by omega) hh hwide hs hbehind hfirst
      · obtain ⟨hgoing, hkept, hset⟩ := copyRow_keeps hold hw hw' (by omega) _ hs hok
        refine ih (by omega) hgoing ?_ hnext
        intro hsingle hlt
        by_cases hat : y = c.oldCursorPos.y
        · cases hlimit : s.newYLimit with
          | none => exact hset hat (hat ▸ hsingle) hlimit
          | some limit =>
            refine hkept ?_
            rw [hlimit]
            rfl
        · exact hkept (hbehind hsingle (by omega))
    · exact fun herror => nomatch herror

end Runs

end VT7.Buffer
