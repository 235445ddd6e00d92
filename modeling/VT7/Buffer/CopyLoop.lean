import VT7.Buffer.RowCopy
import VT7.Buffer.TextBuffer

/-!
# Whether the copy loop comes to an end

An iteration of the copy loop copies glyphs, or it finds that the next glyph does not fit into the row and
wraps.  A row of two columns or more takes any glyph when it is empty, so the loop goes on.  A row of one
column never takes a wide glyph: the loop wraps again and again, until the limit that protects the cursor
stops it.  There is no limit before the cursor's row, and in it the limit moves with the loop until the
cursor's column is copied (`reflow_returns_iff`).
-/

namespace VT7.Buffer

open VT7.Lib.Filling

variable {α : Type}

/-- The rows of a buffer stand for these glyphs. -/
structure TextBuffer.Holds (b : TextBuffer α) (glyphs : ℕ → List Glyph) : Prop where
  rows : ∀ y < b.height, (b.getRow y).Holds (glyphs y)
  columns : ∀ y < b.height, (b.getRow y).columnCount = b.width
  width_pos : 1 ≤ b.width
  height_pos : 1 ≤ b.height

/-! ### The size of the rows -/

lemma copyTextFrom_columnCount {r r' : Row α} {state : RowCopyTextFromState α} {result : RowCopyTextFromResult}
    (hcopy : r.copyTextFrom state = .ok (r', result)) : r'.columnCount = r.columnCount := by
  rw [copyTextFrom_kept hcopy]

namespace ReflowState

/-- The new buffer has this size. -/
structure Sized (s : ReflowState α) (w h : ℕ) : Prop where
  width : s.newBuffer.width = w
  height : s.newBuffer.height = h
  columns : ∀ i, (s.newBuffer.rows i).columnCount = w

variable {s : ReflowState α} {w h : ℕ}

lemma Sized.newRow (hs : s.Sized w h) : s.newRow.columnCount = w := hs.columns _

lemma Sized.setNewRow (hs : s.Sized w h) (row : Row α) (hrow : row.columnCount = w) :
    (s.setNewRow row).Sized w h := by
  refine ⟨hs.width, hs.height, fun i => ?_⟩
  show (Function.update s.newBuffer.rows _ row i).columnCount = w
  by_cases hi : i = s.newBuffer.rowOffset s.newY
  · rw [hi, Function.update_self]
    exact hrow
  · rw [Function.update_of_ne hi]
    exact hs.columns i

lemma Sized.wrap (hs : s.Sized w h) : s.wrap.Sized w h := by
  unfold ReflowState.wrap
  split
  · have := hs.setNewRow (s.newRow.setWrapForced true) hs.newRow
    exact ⟨this.width, this.height, this.columns⟩
  · exact hs

section Track

variable (s) (oldY : ℕ)

@[simp] lemma trackViewports_newBuffer : (s.trackViewports oldY).newBuffer = s.newBuffer := by
  unfold trackViewports
  dsimp only
  split_ifs <;> rfl

@[simp] lemma trackViewports_newX : (s.trackViewports oldY).newX = s.newX := by
  unfold trackViewports
  dsimp only
  split_ifs <;> rfl

@[simp] lemma trackViewports_newY : (s.trackViewports oldY).newY = s.newY := by
  unfold trackViewports
  dsimp only
  split_ifs <;> rfl

@[simp] lemma trackViewports_newYLimit : (s.trackViewports oldY).newYLimit = s.newYLimit := by
  unfold trackViewports
  dsimp only
  split_ifs <;> rfl

@[simp] lemma trackViewports_newCursorPos : (s.trackViewports oldY).newCursorPos = s.newCursorPos := by
  unfold trackViewports
  dsimp only
  split_ifs <;> rfl

end Track

lemma Sized.recycle (hs : s.Sized w h) : s.recycle.Sized w h := by
  unfold ReflowState.recycle
  split
  · exact hs.setNewRow _ hs.newRow
  · exact hs

@[simp] lemma recycle_newX (s : ReflowState α) : s.recycle.newX = s.newX := by
  unfold recycle
  split <;> rfl

@[simp] lemma recycle_newY (s : ReflowState α) : s.recycle.newY = s.newY := by
  unfold recycle
  split <;> rfl

@[simp] lemma recycle_newYLimit (s : ReflowState α) : s.recycle.newYLimit = s.newYLimit := by
  unfold recycle
  split <;> rfl

/-- One iteration of the copy loop. -/
lemma copyLoop_succ (c : ReflowInput α) (oldY iterations : ℕ) (s : ReflowState α) (oldX : ℕ) :
    copyLoop c oldY (iterations + 1) s oldX =
      if s.wrap.reuses && !s.wrap.belowLimit then .ok s.wrap
      else s.wrap.recycle.copyChunk c oldY oldX >>= fun next =>
        if next.2 < c.oldRowLimit oldY then copyLoop c oldY iterations next.1 next.2 else .ok next.1 := rfl

end ReflowState

/-! ### Errors -/

lemma resizeChars_error {r : Row α} {d c e o : ℕ} {error : BufferError} (h : r.resizeChars d c e o = .error error) :
    error = .narrowing := by
  unfold Row.resizeChars at h
  dsimp only at h
  split_ifs at h
  cases h
  rfl

lemma error_of_bind {ε β γ : Type} {first : Except ε β} {next : β → Except ε γ} {error : ε}
    (h : (first >>= next) = .error error) : first = .error error ∨ ∃ b, first = .ok b ∧ next b = .error error := by
  cases first with
  | error e =>
    cases h
    exact .inl rfl
  | ok b => exact .inr ⟨b, rfl, h⟩

lemma finish_error {h : WriteHelper α} {error : BufferError} (hfinish : h.finish = .error error) :
    error = .narrowing := by
  rcases error_of_bind hfinish with hrow | ⟨row, -, hok⟩
  · split_ifs at hrow
    exact resizeChars_error hrow
  · cases hok

lemma copyTextFrom_error {r : Row α} {state : RowCopyTextFromState α} {error : BufferError}
    (hcopy : r.copyTextFrom state = .error error) : error = .narrowing := by
  unfold Row.copyTextFrom at hcopy
  dsimp only at hcopy
  split_ifs at hcopy
  all_goals
    rcases error_of_bind hcopy with hfinish | ⟨h, -, hok⟩
    · exact finish_error hfinish
    · cases hok

lemma copyChunk_error {c : ReflowInput α} {y oldX : ℕ} {s : ReflowState α} {error : BufferError}
    (hchunk : s.copyChunk c y oldX = .error error) : error = .narrowing := by
  rcases error_of_bind hchunk with hcopy | ⟨next, -, hok⟩
  · exact copyTextFrom_error hcopy
  · cases hok

/-! ### One chunk -/

section Chunk

variable {c : ReflowInput α} {glyphs : ℕ → List Glyph} {y w h : ℕ} {s s' : ReflowState α}
  {a rest : List Glyph}

lemma oldCursorPos_x_lt (hold : c.oldBuffer.Holds glyphs) : c.oldCursorPos.x < c.oldBuffer.width := by
  have := hold.width_pos
  unfold ReflowInput.oldCursorPos
  dsimp only
  omega

lemma oldCursorPos_y_lt (hold : c.oldBuffer.Holds glyphs) : c.oldCursorPos.y < c.oldBuffer.height := by
  have := hold.height_pos
  unfold ReflowInput.oldCursorPos
  dsimp only
  omega

lemma measureRight_le (r : Row α) : r.measureRight ≤ r.columnCount := by
  unfold Row.measureRight Row.getLastNonSpaceColumn Row.getReadableColumnCount
  split_ifs <;> omega

lemma oldRowLimit_le (hold : c.oldBuffer.Holds glyphs) (hy : y < c.oldBuffer.height) :
    c.oldRowLimit y ≤ c.oldBuffer.width := by
  have hmeasure := measureRight_le (c.oldRow y)
  rw [show (c.oldRow y).columnCount = c.oldBuffer.width from hold.columns y hy] at hmeasure
  have := oldCursorPos_x_lt hold
  unfold ReflowInput.oldRowLimit
  split <;> omega

/-- What a copy still has to copy of an old row, when the glyphs `rest` follow. -/
def pending (c : ReflowInput α) (y : ℕ) (a rest : List Glyph) : List Glyph :=
  upTo (c.oldRowLimit y - cols a) rest

/-- The state a chunk is copied with. -/
abbrev chunkState (c : ReflowInput α) (y x oldX : ℕ) : RowCopyTextFromState α :=
  { source := c.oldRow y, columnBegin := x, sourceColumnBegin := oldX, sourceColumnLimit := c.oldRowLimit y }

lemma available_chunk (hold : c.oldBuffer.Holds glyphs) (hy : y < c.oldBuffer.height) (x : ℕ) :
    available (chunkState c y x (cols a)) a rest = pending c y a rest := by
  have hlimit := oldRowLimit_le hold hy
  have hcolumns : (c.oldRow y).columnCount = c.oldBuffer.width := hold.columns y hy
  rw [available, readable, pending]
  dsimp only
  rw [hcolumns, Nat.min_eq_left hlimit]

lemma room_chunk {r : Row α} (hr : r.columnCount = w) (hw : w < 0x10000) {x : ℕ} (hx : x ≤ w) :
    room r (chunkState c y x (cols a)) = w - x := by
  show min coordTypeMax r.columnCount - min x r.columnCount = w - x
  rw [hr, Nat.min_eq_left hx, Nat.min_eq_right (show w ≤ coordTypeMax from (Nat.le_of_lt_succ hw).trans (by decide))]

/-- What a chunk does to the write position. -/
structure Advances (c : ReflowInput α) (y w h : ℕ) (s s' : ReflowState α) (a rest : List Glyph)
    (oldX' : ℕ) : Prop where
  newY : s'.newY = s.newY
  newX : s'.newX =
    if upTo (w - s.newX) (pending c y a rest) = pending c y a rest then
      s.newX + cols (pending c y a rest)
    else w
  oldX : oldX' =
    if pending c y a rest = [] then c.oldBuffer.width
    else cols a + cols (upTo (w - s.newX) (pending c y a rest))
  newYLimit : s'.newYLimit =
    if y = c.oldCursorPos.y ∧ cols a ≤ c.oldCursorPos.x then some (s.newY + h) else s.newYLimit

theorem copyChunk_advances (hold : c.oldBuffer.Holds glyphs) (hy : y < c.oldBuffer.height)
    (hsplit : glyphs y = a ++ rest) (hs : s.Sized w h) (hw : w < 0x10000) (hx : s.newX < w) {oldX' : ℕ}
    (hchunk : s.copyChunk c y (cols a) = .ok (s', oldX')) :
    s'.Sized w h ∧ Advances c y w h s s' a rest oldX' := by
  obtain ⟨⟨row, result⟩, hcopy, hok⟩ := ok_of_bind hchunk
  have hrows : (c.oldRow y).Holds (a ++ rest) := hsplit ▸ hold.rows y hy
  have hroom := room_chunk (c := c) (y := y) (a := a) hs.newRow hw hx.le
  obtain ⟨hend, hsourceEnd⟩ := @copyTextFrom_advance _ _ (chunkState c y s.newX (cols a)) _ _ hrows rfl
    (by rw [hroom]; omega) rfl _ _ hcopy
  have hcount : row.columnCount = w := (copyTextFrom_columnCount hcopy).trans hs.newRow
  have hbegin : s.newRow.clampedColumnInclusive s.newX = s.newX := by
    rw [Row.clampedColumnInclusive, hs.newRow]
    omega
  have hlimit : s.newRow.clampedColumnInclusive coordTypeMax = w := by
    rw [Row.clampedColumnInclusive, hs.newRow]
    unfold coordTypeMax
    omega
  have hfits : fitting s.newRow (chunkState c y s.newX (cols a)) a rest =
      upTo (w - s.newX) (pending c y a rest) := by
    rw [fitting, hroom, available_chunk hold hy]
  rw [available_chunk hold hy, hfits] at hend hsourceEnd
  dsimp only at hend hsourceEnd
  rw [hbegin, hlimit] at hend
  rw [show (c.oldRow y).columnCount = c.oldBuffer.width from hold.columns y hy] at hsourceEnd
  have hprefix : upTo (w - s.newX) (pending c y a rest) = pending c y a rest →
      s.newX + cols (upTo (w - s.newX) (pending c y a rest)) = s.newX + cols (pending c y a rest) := by
    intro heq
    rw [heq]
  cases hok
  have hsized := hs.setNewRow { row with
    attr := resizeTrailingExtent (row.attr.take s.newX ++ (c.oldRow y).attr.drop (cols a))
      s.newBuffer.width } hcount
  refine ⟨?_, ⟨?_, ?_, hsourceEnd, ?_⟩⟩
  · split_ifs
    all_goals
      refine ⟨?_, ?_, ?_⟩
      all_goals simp only [ReflowState.trackViewports_newBuffer]
      · exact hsized.width
      · exact hsized.height
      · exact hsized.columns
  · dsimp only
    rw [ReflowState.trackViewports_newY]
    split_ifs <;> rfl
  · dsimp only
    rw [hend]
    split_ifs with heq
    · exact hprefix heq
    · rfl
  · dsimp only
    rw [ReflowState.trackViewports_newYLimit, ← hs.height]
    split_ifs <;> rfl

/-- Behind a front part of what is pending, the rest is pending. -/
lemma pending_next {f : List Glyph} (hf : f <+: pending c y a rest) :
    ∃ rest', rest = f ++ rest' ∧ pending c y a rest = f ++ pending c y (a ++ f) rest' := by
  obtain ⟨rest', rfl⟩ : f <+: rest := hf.trans (fitting_isPrefix _ _ _)
  refine ⟨rest', rfl, ?_⟩
  have hle : cols f ≤ c.oldRowLimit y - cols a := by
    have hcols := cols_upTo_le (c.oldRowLimit y - cols a) (f ++ rest')
    obtain ⟨more, hmore⟩ := hf
    have hparts := congrArg cols hmore
    rw [cols_append] at hparts
    unfold pending at hparts
    omega
  have happ := fitting_append Glyph.width rest' hle
  rw [pending, pending, cols_append, ← Nat.sub_sub]
  exact happ

lemma upTo_ne_nil {n : ℕ} {g : Glyph} {gs : List Glyph} (h : g.width ≤ n) : upTo n (g :: gs) ≠ [] := by
  rw [upTo, VT7.Lib.Filling.fitting, if_pos h]
  exact List.cons_ne_nil _ _

/-- Where the write position is when an iteration copies. -/
lemma ReflowState.Sized.wrap_newX (hs : s.Sized w h) (hw : 1 ≤ w) :
    s.wrap.newX < w ∧ (s.wrap.newX = 0 ∨ s.wrap.newX = s.newX ∧ s.newX < w) := by
  unfold ReflowState.wrap
  rw [hs.width]
  split
  · exact ⟨hw, .inl rfl⟩
  · next hlt => exact ⟨by omega, .inr ⟨rfl, by omega⟩⟩

/-- The loop comes to its end when it does behind every chunk. -/
lemma copyLoop_step (hold : c.oldBuffer.Holds glyphs) (hy : y < c.oldBuffer.height) (hw : w < 0x10000)
    (hsplit : glyphs y = a ++ rest) (hs : s.Sized w h) (hlt : s.wrap.newX < w) (iterations : ℕ)
    (hnext : ∀ s' oldX', s'.Sized w h → Advances c y w h s.wrap.recycle s' a rest oldX' →
      oldX' < c.oldRowLimit y → ReflowState.copyLoop c y iterations s' oldX' ≠ .error .unfinished) :
    ReflowState.copyLoop c y (iterations + 1) s (cols a) ≠ .error .unfinished := by
  rw [ReflowState.copyLoop_succ]
  split
  · exact fun herror => nomatch herror
  · cases hchunk : s.wrap.recycle.copyChunk c y (cols a) with
    | error error =>
      intro herror
      rw [copyChunk_error hchunk] at herror
      cases herror
    | ok next =>
      obtain ⟨s', oldX'⟩ := next
      rw [← ReflowState.recycle_newX] at hlt
      obtain ⟨hsized, hadvances⟩ := copyChunk_advances hold hy hsplit hs.wrap.recycle hw hlt hchunk
      show (if oldX' < c.oldRowLimit y then ReflowState.copyLoop c y iterations s' oldX' else .ok s') ≠ _
      split_ifs with hmore
      · exact hnext s' oldX' hsized hadvances hmore
      · exact fun herror => nomatch herror

/-- A row of two columns takes the next glyph when it is empty. -/
theorem copyLoop_ends_of_two_le (hold : c.oldBuffer.Holds glyphs) (hy : y < c.oldBuffer.height)
    (hw : w < 0x10000) (htwo : 2 ≤ w) (iterations : ℕ) (hsplit : glyphs y = a ++ rest) (hs : s.Sized w h)
    (hx : s.newX ≤ w)
    (hiterations : 2 * (pending c y a rest).length + (if 0 < s.newX ∧ s.newX < w then 1 else 0) < iterations) :
    ReflowState.copyLoop c y iterations s (cols a) ≠ .error .unfinished := by
  induction iterations generalizing s a rest with
  | zero => omega
  | succ iterations ih =>
    obtain ⟨hlt, hwhere⟩ := hs.wrap_newX (by omega)
    refine copyLoop_step hold hy hw hsplit hs hlt iterations fun s' oldX' hsized hadvances hmore => ?_
    rw [← ReflowState.recycle_newX] at hlt hwhere
    generalize s.wrap.recycle = t at *
    have hlimit := oldRowLimit_le hold hy
    have hoff := hadvances.oldX
    have hnothing : pending c y a rest ≠ [] := by
      intro hnothing
      rw [if_pos hnothing] at hoff
      omega
    rw [if_neg hnothing] at hoff
    have hnewX := hadvances.newX
    have hprefix : upTo (w - t.newX) (pending c y a rest) <+: pending c y a rest := fitting_isPrefix _ _ _
    have hfitsle := cols_upTo_le (w - t.newX) (pending c y a rest)
    have hempty : t.newX = 0 → upTo (w - t.newX) (pending c y a rest) ≠ [] := by
      intro hzero
      cases hpending : pending c y a rest with
      | nil => exact absurd hpending hnothing
      | cons g gs => exact upTo_ne_nil (by have := g.width_le; omega)
    generalize hf : upTo (w - t.newX) (pending c y a rest) = f at *
    obtain ⟨rest', hrest, hpending⟩ := pending_next hprefix
    rw [hoff, ← cols_append]
    refine ih (by rw [hsplit, hrest, List.append_assoc]) hsized ?_ ?_
    · rw [hnewX]
      split_ifs with hall
      · rw [← hall]
        omega
      · exact le_refl _
    · have hlength := congrArg List.length hpending
      rw [List.length_append] at hlength
      by_cases hall : f = pending c y a rest
      · have hsame : f.length = (pending c y a rest).length := congrArg List.length hall
        have hpos := List.length_pos_iff.mpr hnothing
        have hflag : (if 0 < s'.newX ∧ s'.newX < w then 1 else 0) ≤ 1 := by
          split <;> omega
        omega
      · rw [if_neg hall] at hnewX
        rw [hnewX, if_neg (by omega)]
        by_cases hnone : f = []
        · -- the next glyph is wide and stands before the last column: the row is wrapped
          have hpos : t.newX ≠ 0 := fun hzero => hempty hzero hnone
          obtain ⟨heq, hlt'⟩ := hwhere.resolve_left hpos
          rw [if_pos ⟨by omega, hlt'⟩] at hiterations
          omega
        · have := List.length_pos_iff.mpr hnone
          omega

/-! ### A row of one column -/

lemma ReflowState.Sized.wrap_one (hs : s.Sized 1 h) (hx : s.newX ≤ 1) :
    s.wrap.newX = 0 ∧ s.wrap.newY = s.newY + s.newX ∧ s.wrap.newYLimit = s.newYLimit := by
  unfold ReflowState.wrap
  rw [hs.width]
  split
  · exact ⟨rfl, by show s.newY + 1 = _; omega, rfl⟩
  · exact ⟨by omega, by omega, rfl⟩

/-- The limit stops the loop. -/
lemma copyLoop_breaks (hs : s.Sized 1 h) (hx : s.newX ≤ 1) {limit : ℕ} (hlimit : s.newYLimit = some limit)
    (hreached : limit ≤ s.newY + s.newX) (hheight : h ≤ s.newY + s.newX) (iterations oldX : ℕ) :
    ReflowState.copyLoop c y (iterations + 1) s oldX = .ok s.wrap := by
  obtain ⟨hnewX, hnewY, hsame⟩ := hs.wrap_one hx
  have hreuses : s.wrap.reuses = true := by
    unfold ReflowState.reuses
    rw [hs.wrap.height, hnewX, hnewY]
    simpa using hheight
  have hbelow : s.wrap.belowLimit = false := by
    unfold ReflowState.belowLimit
    rw [hsame, hlimit, hnewY]
    simpa using hreached
  rw [ReflowState.copyLoop_succ, hreuses, hbelow]
  rfl

/-- What a chunk does to the write position when a row has one column. -/
lemma Advances.one (hold : c.oldBuffer.Holds glyphs) (hy : y < c.oldBuffer.height) {oldX' : ℕ}
    (hadvances : Advances c y 1 h s s' a rest oldX') (hx : s.newX = 0) (hmore : oldX' < c.oldRowLimit y) :
    s'.newX = 1 ∧ pending c y a rest ≠ [] ∧ oldX' = cols a + cols (upTo 1 (pending c y a rest)) := by
  have hlimit := oldRowLimit_le hold hy
  have hoff := hadvances.oldX
  have hnewX := hadvances.newX
  rw [hx] at hoff hnewX
  have hsome : pending c y a rest ≠ [] := by
    intro hnothing
    rw [if_pos hnothing] at hoff
    omega
  rw [if_neg hsome] at hoff
  refine ⟨?_, hsome, hoff⟩
  rw [hnewX]
  split_ifs with hall
  · have hle := cols_upTo_le 1 (pending c y a rest)
    have hpos := cols_pos hsome
    rw [Nat.sub_zero] at hall
    rw [hall] at hle
    omega
  · rfl

/-- The step, into rows of one column. -/
lemma copyLoop_step_one (hold : c.oldBuffer.Holds glyphs) (hy : y < c.oldBuffer.height)
    (hsplit : glyphs y = a ++ rest) (hs : s.Sized 1 h) (hx : s.newX ≤ 1) (iterations : ℕ)
    (hnext : ∀ s' f rest', f = upTo 1 (pending c y a rest) → glyphs y = a ++ f ++ rest' → s'.Sized 1 h →
      s'.newX = 1 → s'.newY = s.newY + s.newX →
      s'.newYLimit = (if y = c.oldCursorPos.y ∧ cols a ≤ c.oldCursorPos.x then some (s'.newY + h)
        else s.newYLimit) →
      pending c y a rest ≠ [] → pending c y a rest = f ++ pending c y (a ++ f) rest' →
      ReflowState.copyLoop c y iterations s' (cols (a ++ f)) ≠ .error .unfinished) :
    ReflowState.copyLoop c y (iterations + 1) s (cols a) ≠ .error .unfinished := by
  obtain ⟨hnewX, hnewY, hsame⟩ := hs.wrap_one hx
  refine copyLoop_step hold hy (by omega) hsplit hs (by omega) iterations fun s' oldX' hsized hadvances hmore => ?_
  rw [← ReflowState.recycle_newX] at hnewX
  rw [← ReflowState.recycle_newY] at hnewY
  rw [← ReflowState.recycle_newYLimit] at hsame
  obtain ⟨hone, hsome, hoff⟩ := hadvances.one hold hy hnewX hmore
  obtain ⟨rest', hrest, hpending⟩ := pending_next (upTo_isPrefix 1 (pending c y a rest))
  rw [hoff, ← cols_append]
  refine hnext s' _ rest' rfl (by rw [hsplit, List.append_assoc, ← hrest]) hsized hone
    (hadvances.newY.trans hnewY) ?_ hsome hpending
  rw [hadvances.newYLimit, hadvances.newY, hsame]

/-- With a limit that stays, the write position comes to it. -/
theorem copyLoop_ends_of_limit (hold : c.oldBuffer.Holds glyphs) (hy : y < c.oldBuffer.height) (iterations : ℕ)
    (hsplit : glyphs y = a ++ rest) (hs : s.Sized 1 h) (hx : s.newX ≤ 1) {limit : ℕ}
    (hlimit : s.newYLimit = some limit) (hheight : h ≤ limit)
    (hpast : y ≠ c.oldCursorPos.y ∨ c.oldCursorPos.x < cols a)
    (hiterations : limit - s.newY + (1 - s.newX) < iterations) :
    ReflowState.copyLoop c y iterations s (cols a) ≠ .error .unfinished := by
  induction iterations generalizing s a rest with
  | zero => omega
  | succ iterations ih =>
    by_cases hreached : limit ≤ s.newY + s.newX
    · rw [copyLoop_breaks hs hx hlimit hreached (hheight.trans hreached)]
      exact fun herror => nomatch herror
    · refine copyLoop_step_one hold hy hsplit hs hx iterations
        fun s' f rest' _ hsplit' hsized hone hnewY hkept _ _ => ?_
      rw [if_neg (by omega), hlimit] at hkept
      refine ih hsplit' hsized (by omega) hkept ?_ (by omega)
      rw [cols_append]
      omega

/-- A glyph of one column is all that fits into one column. -/
lemma upTo_one_of_narrow {g : Glyph} {gs : List Glyph} (h : g.width = 1) : upTo 1 (g :: gs) = [g] := by
  cases gs with
  | nil => simp [upTo, VT7.Lib.Filling.fitting, h]
  | cons g' gs =>
    have := g'.width_pos
    have hno : ¬ g'.width ≤ 0 := by omega
    simp [upTo, VT7.Lib.Filling.fitting, h, hno]

/-- Glyphs of one column go into rows of one column. -/
theorem copyLoop_ends_of_narrow (hold : c.oldBuffer.Holds glyphs) (hy : y < c.oldBuffer.height) (iterations : ℕ)
    (hsplit : glyphs y = a ++ rest) (hs : s.Sized 1 h) (hx : s.newX ≤ 1)
    (hnarrow : ∀ g ∈ pending c y a rest, g.width = 1)
    (hiterations : (pending c y a rest).length < iterations) :
    ReflowState.copyLoop c y iterations s (cols a) ≠ .error .unfinished := by
  induction iterations generalizing s a rest with
  | zero => omega
  | succ iterations ih =>
    refine copyLoop_step_one hold hy hsplit hs hx iterations
      fun s' f rest' hf hsplit' hsized hone _ _ hsome hpending => ?_
    obtain ⟨g, gs, hg⟩ := List.exists_cons_of_ne_nil hsome
    have hfirst : f = [g] := by
      rw [hf, hg]
      exact upTo_one_of_narrow (hnarrow g (by simp [hg]))
    have hlength := congrArg List.length hpending
    refine ih hsplit' hsized (by omega) ?_ ?_
    · intro g' hg'
      exact hnarrow g' (by rw [hpending]; exact List.mem_append_right _ hg')
    · rw [List.length_append, hfirst, List.length_singleton, ← hfirst] at hlength
      omega

/-- In the cursor's row, the glyphs before the cursor go into rows of one column; behind them the limit
stays. -/
theorem copyLoop_ends_at_cursor (hold : c.oldBuffer.Holds glyphs) (hy : y < c.oldBuffer.height) (iterations : ℕ)
    (hsplit : glyphs y = a ++ rest) (hs : s.Sized 1 h) (hh : 1 ≤ h) (hx : s.newX ≤ 1)
    (hcursor : y = c.oldCursorPos.y)
    (hlimit : c.oldCursorPos.x < cols a → ∃ limit, s.newYLimit = some limit ∧ h ≤ limit ∧ limit ≤ s.newY + h)
    (hnarrow : ∀ p g q, pending c y a rest = p ++ g :: q → cols (a ++ p) ≤ c.oldCursorPos.x →
      g.width = 1 ∨ h = 1)
    (hiterations : (pending c y a rest).length + h + 2 < iterations) :
    ReflowState.copyLoop c y iterations s (cols a) ≠ .error .unfinished := by
  induction iterations generalizing s a rest with
  | zero => omega
  | succ iterations ih =>
    by_cases hpast : c.oldCursorPos.x < cols a
    · obtain ⟨limit, hsome, hle, hle'⟩ := hlimit hpast
      exact copyLoop_ends_of_limit hold hy _ hsplit hs hx hsome hle (.inr hpast) (by omega)
    · refine copyLoop_step_one hold hy hsplit hs hx iterations
        fun s' f rest' hf hsplit' hsized hone _ hmoved hsome hpending => ?_
      rw [if_pos ⟨hcursor, by omega⟩] at hmoved
      obtain ⟨g, gs, hg⟩ := List.exists_cons_of_ne_nil hsome
      rcases hnarrow [] g gs hg (by simpa using Nat.le_of_not_lt hpast) with hwidth | rfl
      · have hfirst : f = [g] := by
          rw [hf, hg]
          exact upTo_one_of_narrow hwidth
        have hlength := congrArg List.length hpending
        rw [List.length_append, hfirst, List.length_singleton, ← hfirst] at hlength
        refine ih hsplit' hsized (by omega) (fun _ => ⟨_, hmoved, by omega, le_refl _⟩) ?_ (by omega)
        intro p g' q hsplit'' hle
        refine hnarrow (f ++ p) g' q (by rw [hpending, hsplit'', List.append_assoc]) ?_
        rwa [← List.append_assoc]
      · -- a buffer of one row ends behind the first chunk
        obtain ⟨more, rfl⟩ := Nat.exists_eq_add_of_lt (by omega : 0 < iterations)
        rw [copyLoop_breaks hsized (by omega) hmoved (by omega) (by omega)]
        exact fun herror => nomatch herror

/-! ### Rows of one column hold their glyphs -/

/-- Every row of the new buffer stands for some glyphs. -/
def ReflowState.Filled (s : ReflowState α) : Prop := ∀ i, ∃ gs, (s.newBuffer.rows i).Holds gs

lemma ReflowState.Filled.setNewRow (hs : s.Filled) (row : Row α) (hrow : ∃ gs, row.Holds gs) :
    (s.setNewRow row).Filled := by
  intro i
  show ∃ gs, (Function.update s.newBuffer.rows _ row i).Holds gs
  by_cases hi : i = s.newBuffer.rowOffset s.newY
  · rw [hi, Function.update_self]
    exact hrow
  · rw [Function.update_of_ne hi]
    exact hs i

lemma iota_succ_eq {n : ℕ} (hn : n < 0x8000) : iota (n + 1) 0 = offsetsFrom 0 (blanks n) := by
  rw [iota_eq (by omega)]
  have hsucc : blanks (n + 1) = blanks n ++ [Glyph.blank] := List.replicate_succ'
  rw [hsucc, columnsFrom_append, offsetsFrom]
  rfl

lemma reset_holds {r : Row α} (hr : r.columnCount < 0x8000) (attr : α) :
    (r.reset attr).Holds (blanks r.columnCount) := by
  refine ⟨by simp [Row.reset], iota_succ_eq hr, ?_, by simpa using hr⟩
  simp [Row.reset]

lemma create_holds {n : ℕ} (hn : n < 0x8000) (attr : α) : (Row.create n attr).Holds (blanks n) := by
  refine ⟨by simp [Row.create], iota_succ_eq hn, ?_, by simpa using hn⟩
  simp [Row.create]

/-- A row of one column holds one glyph. -/
lemma eq_singleton_of_cols {gs : List Glyph} (h : cols gs = 1) : ∃ g, gs = [g] ∧ g.width = 1 := by
  cases gs with
  | nil => simp at h
  | cons g gs =>
    rw [cols_cons] at h
    have hpos := g.width_pos
    have hnil : gs = [] := by
      by_contra hne
      have := cols_pos hne
      omega
    exact ⟨g, by rw [hnil], by rw [hnil] at h; simpa using h⟩

lemma Row.Holds.upTo_short {r : Row α} {gs : List Glyph} (hr : r.Holds (a ++ gs)) (n : ℕ) :
    units (upTo n gs) < 0x8000 := by
  have hshort := hr.short
  rw [units_append] at hshort
  have := units_le_of_isPrefix (upTo_isPrefix n gs)
  omega

/-- A copy into a row of one column does not throw. -/
lemma copyTextFrom_one {r : Row α} {gs : List Glyph} (hr : r.Holds gs) (hcount : r.columnCount = 1)
    (state : RowCopyTextFromState α) (hs : state.source.Holds (a ++ rest)) (hbeg : state.sourceColumnBegin = cols a)
    (hx : state.columnBegin = 0) (hlimit : 1 ≤ state.columnLimit) (hother : state.sourceIsThis = false) :
    ∃ r' result, r.copyTextFrom state = .ok (r', result) ∧ ∃ gs', r'.Holds gs' := by
  have hroom : room r state = 1 := by
    rw [room, Row.clampedColumnInclusive, Row.clampedColumnInclusive, hcount, hx]
    omega
  by_cases havailable : available state a rest = []
  · have hcopy := copyTextFrom_eq (r := r) hs hbeg
    rw [if_neg (not_and_of_not_left _ (not_not_intro havailable))] at hcopy
    exact ⟨r, _, hcopy, gs, hr⟩
  · obtain ⟨g, rfl, hg⟩ := eq_singleton_of_cols (hr.columns.trans hcount)
    have hbegin : r.clampedColumnInclusive state.columnBegin = 0 := by
      rw [Row.clampedColumnInclusive, hx]
      exact Nat.zero_min _
    have hread : 1 ≤ readable state a := by
      by_contra hzero
      have hcols := cols_upTo_le (readable state a) rest
      have := cols_pos havailable
      unfold available at this
      omega
    have hdirty : copyDirty r state a = 1 := by
      rw [copyDirty, hbegin, hroom]
      omega
    have hfits := hs.upTo_short (min 1 (readable state a))
    obtain ⟨r', result, hcopy, hholds, -⟩ := copyTextFrom_holds hs hbeg hr havailable (by omega) hother (by
      have hnone : upTo 0 [g] = [] := by
        rw [upTo, VT7.Lib.Filling.fitting, if_neg (by omega)]
      have hbeyond : beyond 1 [g] = [] := by
        rw [beyond, if_neg (by omega)]
        rfl
      rw [hbegin, hdirty, overlaid, hnone, hbeyond]
      simp only [units_append, units_blanks, units_nil, cols_nil, cols_cons, hg]
      rw [fitting, available, upTo_min, hroom]
      rcases List.eq_nil_or_concat (upTo (min 1 (readable state a)) rest) with hnil | ⟨f, g', hsome⟩
      · rw [hnil]
        simp
      · have hpos : 0 < cols (upTo (min 1 (readable state a)) rest) := cols_pos (by rw [hsome]; simp)
        omega)
    exact ⟨r', result, hcopy, _, hholds⟩

lemma ReflowState.Filled.wrap (hs : s.Filled) : s.wrap.Filled := by
  unfold ReflowState.wrap
  split
  · obtain ⟨gs, hgs⟩ := hs (s.newBuffer.rowOffset s.newY)
    exact hs.setNewRow (s.newRow.setWrapForced true) ⟨gs, hgs.congr rfl rfl rfl⟩
  · exact hs

lemma ReflowState.Filled.recycle (hs : s.Filled) (hw : w < 0x8000) (hsized : s.Sized w h) : s.recycle.Filled := by
  unfold ReflowState.recycle
  split
  · exact hs.setNewRow _ ⟨_, reset_holds (hsized.newRow ▸ hw) _⟩
  · exact hs

lemma copyChunk_one_ok (hold : c.oldBuffer.Holds glyphs) (hy : y < c.oldBuffer.height)
    (hsplit : glyphs y = a ++ rest) (hs : s.Sized 1 h) (hfilled : s.Filled) (hx : s.newX = 0) :
    ∃ s' oldX', s.copyChunk c y (cols a) = .ok (s', oldX') ∧ s'.Filled := by
  have hrows : (c.oldRow y).Holds (a ++ rest) := hsplit ▸ hold.rows y hy
  obtain ⟨gs, hgs⟩ := hfilled (s.newBuffer.rowOffset s.newY)
  obtain ⟨row, result, hcopy, gs', hgs'⟩ := copyTextFrom_one (r := s.newRow) hgs hs.newRow
    (chunkState c y s.newX (cols a)) hrows rfl hx (show 1 ≤ coordTypeMax by decide) rfl
  cases hchunk : s.copyChunk c y (cols a) with
  | error error =>
    rcases error_of_bind hchunk with herror | ⟨next, -, hok⟩
    · rw [show s.newRow.copyTextFrom _ = _ from hcopy] at herror
      cases herror
    · cases hok
  | ok next =>
    refine ⟨next.1, next.2, rfl, fun i => ?_⟩
    obtain ⟨copied, hsame, hok⟩ := ok_of_bind hchunk
    obtain rfl := Except.ok.inj (hcopy.symm.trans hsame)
    have hset := hfilled.setNewRow { row with
      attr := resizeTrailingExtent (row.attr.take s.newX ++ (c.oldRow y).attr.drop (cols a))
        s.newBuffer.width } ⟨gs', hgs'.congr rfl rfl rfl⟩
    cases hok
    dsimp only
    rw [ReflowState.trackViewports_newBuffer]
    split_ifs
    · exact hset i
    · exact hset i

lemma copyChunk_newX_le (hold : c.oldBuffer.Holds glyphs) (hy : y < c.oldBuffer.height)
    (hsplit : glyphs y = a ++ rest) (hs : s.Sized w h) (hw : w < 0x10000) (hx : s.newX < w) {oldX' : ℕ}
    (hchunk : s.copyChunk c y (cols a) = .ok (s', oldX')) : s'.newX ≤ w := by
  obtain ⟨-, hadvances⟩ := copyChunk_advances hold hy hsplit hs hw hx hchunk
  rw [hadvances.newX]
  split_ifs with hall
  · have hle := cols_upTo_le (w - s.newX) (pending c y a rest)
    rw [hall] at hle
    omega
  · exact le_refl _

/-- Into rows of one column the loop copies without an error, or it does not come to its end. -/
theorem copyLoop_one (hold : c.oldBuffer.Holds glyphs) (hy : y < c.oldBuffer.height) (iterations : ℕ)
    (hsplit : glyphs y = a ++ rest) (hs : s.Sized 1 h) (hfilled : s.Filled) (hx : s.newX ≤ 1) :
    ReflowState.copyLoop c y iterations s (cols a) = .error .unfinished ∨
      ∃ s', ReflowState.copyLoop c y iterations s (cols a) = .ok s' ∧ s'.Sized 1 h ∧ s'.Filled ∧ s'.newX ≤ 1 ∧
        (y ≠ c.oldCursorPos.y → s'.newYLimit = s.newYLimit) := by
  induction iterations generalizing s a rest with
  | zero => exact .inl rfl
  | succ iterations ih =>
    obtain ⟨hnewX, -, hsame⟩ := hs.wrap_one hx
    rw [ReflowState.copyLoop_succ]
    split
    · exact .inr ⟨s.wrap, rfl, hs.wrap, hfilled.wrap, by omega, fun _ => hsame⟩
    · have hready := hs.wrap.recycle
      have hfull := hfilled.wrap.recycle (by decide) hs.wrap
      rw [← ReflowState.recycle_newX] at hnewX
      rw [← ReflowState.recycle_newYLimit] at hsame
      generalize s.wrap.recycle = t at *
      obtain ⟨s', oldX', hchunk, hfull'⟩ := copyChunk_one_ok hold hy hsplit hready hfull hnewX
      obtain ⟨hsized, hadvances⟩ := copyChunk_advances hold hy hsplit hready (by omega) (by omega) hchunk
      have hle := copyChunk_newX_le hold hy hsplit hready (by omega) (by omega) hchunk
      have hkept : y ≠ c.oldCursorPos.y → s'.newYLimit = s.newYLimit := by
        intro hother
        rw [hadvances.newYLimit, if_neg (not_and_of_not_left _ hother), hsame]
      rw [hchunk]
      show (if oldX' < c.oldRowLimit y then ReflowState.copyLoop c y iterations s' oldX' else .ok s') = _ ∨
        ∃ s'', (if oldX' < c.oldRowLimit y then ReflowState.copyLoop c y iterations s' oldX' else .ok s') = _ ∧ _
      split_ifs with hmore
      · obtain ⟨-, -, hoff⟩ := hadvances.one hold hy hnewX hmore
        obtain ⟨rest', hrest, -⟩ := pending_next (upTo_isPrefix 1 (pending c y a rest))
        rw [hoff, ← cols_append]
        refine (ih (by rw [hsplit, List.append_assoc, ← hrest]) hsized hfull' hle).imp id ?_
        rintro ⟨s'', hok, hsized'', hfull'', hle'', hkept''⟩
        exact ⟨s'', hok, hsized'', hfull'', hle'', fun hother => (hkept'' hother).trans (hkept hother)⟩
      · exact .inr ⟨s', rfl, hsized, hfull', hle, hkept⟩

/-- **A wide glyph before the limit stalls the loop**, when there is no limit or it moves on with the
loop. -/
theorem copyLoop_stalls (hold : c.oldBuffer.Holds glyphs) (hy : y < c.oldBuffer.height) (iterations : ℕ)
    (hsplit : glyphs y = a ++ rest) (hs : s.Sized 1 h) (hfilled : s.Filled) (hx : s.newX ≤ 1)
    {p q : List Glyph} {g : Glyph} (hpending : pending c y a rest = p ++ g :: q) (hg : g.width = 2)
    (hlimit : y ≠ c.oldCursorPos.y ∧ s.newYLimit = none ∨
      y = c.oldCursorPos.y ∧ 2 ≤ h ∧ cols (a ++ p) ≤ c.oldCursorPos.x ∧
        ∀ limit, s.newYLimit = some limit → s.newY + 1 < limit) :
    ReflowState.copyLoop c y iterations s (cols a) = .error .unfinished := by
  induction iterations generalizing s a rest p with
  | zero => rfl
  | succ iterations ih =>
    obtain ⟨hnewX, hnewY, hsame⟩ := hs.wrap_one hx
    have hbelow : s.wrap.belowLimit = true := by
      unfold ReflowState.belowLimit
      rw [hsame]
      rcases hlimit with ⟨-, hnone⟩ | ⟨-, -, -, hmoves⟩
      · rw [hnone]
        rfl
      · rw [Option.all_eq_true]
        intro limit hsome
        have := hmoves limit hsome
        exact decide_eq_true (by omega)
    rw [ReflowState.copyLoop_succ, hbelow, Bool.not_true, Bool.and_false, if_neg Bool.false_ne_true]
    have hready := hs.wrap.recycle
    have hfull := hfilled.wrap.recycle (by decide) hs.wrap
    rw [← ReflowState.recycle_newX] at hnewX
    rw [← ReflowState.recycle_newYLimit] at hsame
    generalize s.wrap.recycle = t at *
    obtain ⟨s', oldX', hchunk, hfull'⟩ := copyChunk_one_ok hold hy hsplit hready hfull hnewX
    obtain ⟨hsized, hadvances⟩ := copyChunk_advances hold hy hsplit hready (by omega) (by omega) hchunk
    have hle := copyChunk_newX_le hold hy hsplit hready (by omega) (by omega) hchunk
    have hsome : pending c y a rest ≠ [] := by
      rw [hpending]
      simp
    have hoff := hadvances.oldX
    rw [if_neg hsome, hnewX, Nat.sub_zero] at hoff
    obtain ⟨rest', hrest, hnext⟩ := pending_next (upTo_isPrefix 1 (pending c y a rest))
    -- the wide glyph is still pending behind what was copied
    obtain ⟨p', hp', hpp⟩ : ∃ p', pending c y (a ++ upTo 1 (pending c y a rest)) rest' = p' ++ g :: q ∧
        p = upTo 1 (pending c y a rest) ++ p' := by
      cases p with
      | nil =>
        have hnone : upTo 1 (pending c y a rest) = [] := by
          rw [hpending, List.nil_append, upTo, VT7.Lib.Filling.fitting, if_neg (by omega)]
        rw [hnone, List.nil_append] at hnext
        exact ⟨[], by rw [hnone, ← hnext, hpending], by rw [hnone]; rfl⟩
      | cons first p =>
        by_cases hfirst : first.width = 1
        · have hone : upTo 1 (pending c y a rest) = [first] := by
            rw [hpending, List.cons_append]
            exact upTo_one_of_narrow hfirst
          rw [hone, hpending] at hnext
          refine ⟨p, ?_, by rw [hone]; rfl⟩
          rw [hone]
          simpa using hnext.symm
        · have hnone : upTo 1 (pending c y a rest) = [] := by
            have hpos := first.width_pos
            rw [hpending, List.cons_append, upTo, VT7.Lib.Filling.fitting, if_neg (by omega)]
          rw [hnone, List.nil_append] at hnext
          exact ⟨first :: p, by rw [hnone, ← hnext, hpending], by rw [hnone]; rfl⟩
    have hmore : oldX' < c.oldRowLimit y := by
      have htotal := cols_upTo_le (c.oldRowLimit y - cols a) rest
      rw [show upTo (c.oldRowLimit y - cols a) rest = pending c y a rest from rfl, hnext, cols_append, hp',
        cols_append, cols_cons] at htotal
      omega
    rw [hchunk]
    show (if oldX' < c.oldRowLimit y then ReflowState.copyLoop c y iterations s' oldX' else .ok s') = _
    rw [if_pos hmore, hoff, ← cols_append]
    refine ih (by rw [hsplit, List.append_assoc, ← hrest]) hsized hfull' hle hp' ?_
    rcases hlimit with ⟨hother, hnone⟩ | ⟨hcursor, htwo, hbefore, -⟩
    · refine .inl ⟨hother, ?_⟩
      rw [hadvances.newYLimit, if_neg (not_and_of_not_left _ hother), hsame, hnone]
    · refine .inr ⟨hcursor, htwo, ?_, ?_⟩
      · rw [List.append_assoc, ← hpp]
        exact hbefore
      · intro limit hlimit
        rw [cols_append] at hbefore
        rw [hadvances.newYLimit, if_pos ⟨hcursor, by omega⟩] at hlimit
        rw [hadvances.newY]
        have := Option.some.inj hlimit
        omega

end Chunk

end VT7.Buffer
