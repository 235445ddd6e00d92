import VT7.Buffer.Areas
import VT7.Buffer.ClusterPath

/-!
# The loop of `FillRect`

`FillRect` writes copies of a character into a blank scratchpad row, one after the other (`FillReached`).  A copy stands
alone behind the ones before it (`copies_reached`), or it joins the glyph before it and advances only where it makes a
narrow glyph wide; that glyph then stays (`FillStep.keeps`).
-/

namespace VT7.Buffer

open VT7.Lib.Cells
open WriteHelper

variable {α : Type}

/-! ### The glyphs behind the written ones are blank -/

section Blanks

variable {F F₀ : List Glyph} {p : Glyph} {m k : ℕ}

lemma beyond_blanks (n m : ℕ) : beyond n (blanks m) = blanks (m - n) := by
  induction m generalizing n with
  | zero =>
    rw [Nat.zero_sub]
    rfl
  | succ m ih =>
    have hcons : blanks (m + 1) = Glyph.blank :: blanks m := rfl
    rw [hcons, beyond]
    cases n with
    | zero => exact if_pos rfl
    | succ n =>
      rw [if_neg (Nat.succ_ne_zero n), Glyph.blank_width, Nat.add_sub_cancel, ih, Nat.add_sub_add_right]

lemma beyond_append {gs : List Glyph} (h : cols F ≤ k) : beyond k (F ++ gs) = beyond (k - cols F) gs := by
  induction F generalizing k with
  | nil => rfl
  | cons g F ih =>
    have hpos := g.width_pos
    rw [cols_cons] at h
    rw [List.cons_append, beyond, if_neg (by omega), ih (by omega), cols_cons, Nat.sub_sub]

lemma blanks_add (n m : ℕ) : blanks n ++ blanks m = blanks (n + m) := List.replicate_append_replicate

lemma lead_filled (F gs : List Glyph) : lead (F ++ gs) (cols F) = F := by
  unfold lead
  rw [upTo_cols_of_isPrefix (List.prefix_append F gs), Nat.sub_self]
  exact List.append_nil F

lemma upTo_last {gs : List Glyph} : upTo (cols (F₀ ++ [p]) - 1) (F₀ ++ [p] ++ gs) = F₀ := by
  have hpos := p.width_pos
  have hcols : cols (F₀ ++ [p]) = cols F₀ + p.width := by rw [cols_append]; rfl
  have hdown : F₀ <+: upTo (cols (F₀ ++ [p]) - 1) (F₀ ++ [p] ++ gs) :=
    prefix_upTo ((List.prefix_append F₀ [p]).trans (List.prefix_append _ gs)) (by omega)
  have hle := cols_upTo_le (cols (F₀ ++ [p]) - 1) (F₀ ++ [p] ++ gs)
  have hup : upTo (cols (F₀ ++ [p]) - 1) (F₀ ++ [p] ++ gs) <+: F₀ := by
    rcases List.prefix_or_prefix_of_prefix (upTo_isPrefix (cols (F₀ ++ [p]) - 1) (F₀ ++ [p] ++ gs))
      (List.prefix_append (F₀ ++ [p]) gs) with h | h
    · rcases List.prefix_concat_iff.mp h with heq | hprefix
      · rw [heq] at hle
        omega
      · exact hprefix
    · have hle' := cols_le_of_isPrefix h
      omega
  exact hup.eq_of_length_le hdown.length_le

/-- The row behind a write that leaves blanks behind it. -/
lemma closed_filled {front : List Glyph} (hF : cols F ≤ k) (hfront : cols front ≤ k) (hk : k ≤ cols F + m) :
    closed (F ++ blanks m) front k = front ++ blanks (cols F + m - cols front) := by
  unfold closed
  rw [beyond_append hF, beyond_blanks, cols_append, cols_blanks, cols_blanks, blanks_add]
  congr 2
  omega

lemma beyond_joined (hk : cols F₀ < k) :
    beyond k (F₀ ++ [p] ++ blanks m) = blanks (cols (F₀ ++ [p]) + m - max k (cols (F₀ ++ [p]))) := by
  have hcols : cols (F₀ ++ [p]) = cols F₀ + p.width := by rw [cols_append]; rfl
  rw [List.append_assoc, beyond_append hk.le]
  show beyond (k - cols F₀) (p :: blanks m) = _
  rw [beyond, if_neg (by omega), beyond_blanks]
  congr 1
  omega

/-- The row behind a write that joins the last glyph. -/
lemma closed_joined {j : Glyph} (hj : cols (F₀ ++ [j]) ≤ cols (F₀ ++ [p]) + m) :
    closed (F₀ ++ [p] ++ blanks m) (F₀ ++ [j]) (cols (F₀ ++ [j])) =
      F₀ ++ [j] ++ blanks (cols (F₀ ++ [p]) + m - cols (F₀ ++ [j])) := by
  have hpos := j.width_pos
  have hcols : cols (F₀ ++ [j]) = cols F₀ + j.width := by rw [cols_append]; rfl
  unfold closed
  rw [beyond_joined (by omega), cols_append (F₀ ++ [p]), cols_blanks, cols_blanks, blanks_add]
  congr 2
  omega

end Blanks

/-! ### One copy of the character -/

/-- The glyph of a character that stands alone. -/
def fillGlyph (cwd : Clustering) (c : UInt16) : Glyph :=
  if c < 0x80 then Glyph.narrow c else cwd.glyph [c] 0 0 Nat.one_pos

section Single

variable {cwd : Clustering} {c : UInt16} {gs F F₀ : List Glyph} {p : Glyph} {x limit room m : ℕ}

lemma next_single (cwd : Clustering) (c : UInt16) (start : ℕ) : (cwd.next [c] start 0).1 = 1 := by
  have hpos := cwd.next_pos [c] start 0 Nat.one_pos
  have hle := cwd.next_le [c] start 0 Nat.one_pos
  rw [List.length_singleton] at hle
  omega

lemma fillGlyph_text (cwd : Clustering) (c : UInt16) : (fillGlyph cwd c).text = [c] := by
  unfold fillGlyph
  split
  · rfl
  · show (List.drop 0 [c]).take (cwd.next [c] 0 0).1 = [c]
    rw [next_single]
    rfl

lemma clusters_single (hc : ¬c < 0x80) :
    cwd.clusters [c] room = if (fillGlyph cwd c).width ≤ room then [fillGlyph cwd c] else [] := by
  have hglyph : fillGlyph cwd c = cwd.glyph [c] 0 0 Nat.one_pos := if_neg hc
  have htext := fillGlyph_text cwd c
  unfold Clustering.clusters
  rw [hglyph] at htext ⊢
  show cwd.glyphs [c] 0 1 0 room = _
  unfold Clustering.glyphs
  rw [dif_pos (show 0 < [c].length from Nat.one_pos)]
  split
  · rw [htext]
    exact congrArg _ (Clustering.glyphs_end (Nat.le_refl _) 0)
  · rfl

lemma asciiLength_single (hroom : 0 < room) : asciiLength [c] room = if c < 0x80 then 1 else 0 := by
  obtain ⟨n, rfl⟩ := Nat.exists_eq_succ_of_ne_zero (Nat.ne_of_gt hroom)
  unfold asciiLength
  rw [List.take_succ_cons, List.take_nil, List.takeWhile_cons]
  split <;> simp_all

/-- The character does not join the glyph before it. -/
def Alone (cwd : Clustering) (c : UInt16) (F : List Glyph) : Prop :=
  c < 0x80 ∨ ∀ p ∈ F.getLast?, (cwd.join p.text [c]).1 = 0

lemma charsPrev_filled (gs : List Glyph) : charsPrev (F₀ ++ [p] ++ gs) (cols (F₀ ++ [p])) = p.text := by
  have hunits : units (F₀ ++ [p]) - units F₀ = p.text.length := by
    rw [units_append, Nat.add_sub_cancel_left]
    rfl
  have hdrop : (textOf (F₀ ++ [p]) ++ textOf gs).drop (units F₀) = p.text ++ textOf gs := by
    rw [← length_textOf F₀, textOf_append, List.append_assoc, List.drop_left, textOf_cons, textOf_nil, List.append_nil]
  unfold charsPrev
  rw [upTo_last, lead_filled, textOf_append, hdrop, hunits, List.take_left]

lemma Alone.before (h : Alone cwd c F) (gs : List Glyph) (hc : ¬c < 0x80) :
    cols F = 0 ∨ (cwd.join (charsPrev (F ++ gs) (cols F)) [c]).1 = 0 := by
  rcases List.eq_nil_or_concat F with rfl | ⟨F₀, p, rfl⟩
  · exact .inl rfl
  · right
    rw [List.concat_eq_append] at h ⊢
    rw [charsPrev_filled]
    exact h.resolve_left hc p (by rw [List.getLast?_concat]; rfl)

lemma textFront_alone (hm : cwd.MeasuresAscii) (hlt : cols F < limit) (halone : Alone cwd c F) :
    textFront cwd (F ++ gs) (cols F) limit [c] =
      F ++ if (fillGlyph cwd c).width ≤ limit - cols F then [fillGlyph cwd c] else [] := by
  have hroom : 0 < limit - cols F := by omega
  have hlength := @asciiLength_single c _ hroom
  unfold textFront
  rw [hlength]
  by_cases hc : c < 0x80
  · have hglyph : fillGlyph cwd c = Glyph.narrow c := if_pos hc
    have hwidth : (Glyph.narrow c).width = 1 := rfl
    rw [if_pos hc, List.length_singleton, if_neg (by omega), hglyph, hwidth, if_pos (by omega), lead_filled]
    rfl
  · rw [if_neg hc, List.length_singleton, if_pos (by omega), if_pos rfl,
      unicodeFront_clusters hm (List.cons_ne_nil _ _) (halone.before gs hc), clusters_single hc, lead_filled]

/-- The glyph that the character joins. -/
lemma textFront_joins (hc : ¬c < 0x80) (hlt : cols (F₀ ++ [p]) < limit)
    (hjoin : 0 < (cwd.join p.text [c]).1) :
    ∃ j : Glyph, j.text = p.text ++ [c] ∧ j.width = max 1 (cwd.join p.text [c]).2 ∧
      textFront cwd (F₀ ++ [p] ++ gs) (cols (F₀ ++ [p])) limit [c] = F₀ ++ [j] := by
  have hprev := @charsPrev_filled F₀ p gs
  have hle := cwd.join_le p.text [c]
  rw [List.length_singleton] at hle
  have hone : (cwd.join p.text [c]).1 = 1 := by omega
  have hjoin' : 0 < (cwd.join (charsPrev (F₀ ++ [p] ++ gs) (cols (F₀ ++ [p]))) [c]).1 := by rwa [hprev]
  refine ⟨joined cwd (F₀ ++ [p] ++ gs) (cols (F₀ ++ [p])) [c] hjoin', ?_, ?_, ?_⟩
  · show (textOf (lead _ _)).drop (units (upTo _ _)) ++ _ = _
    rw [hprev, hone, upTo_last, lead_filled, textOf_append, ← length_textOf F₀, List.drop_left, textOf_cons, textOf_nil,
      List.append_nil]
    rfl
  · show max 1 (cwd.join (charsPrev _ _) [c]).2 = _
    rw [hprev]
  · have hwidth := (joined cwd (F₀ ++ [p] ++ gs) (cols (F₀ ++ [p])) [c] hjoin').width_le
    have hcols : cols (F₀ ++ [p]) = cols F₀ + p.width := by rw [cols_append]; rfl
    have hp := p.width_pos
    have hlength := @asciiLength_single c (limit - cols (F₀ ++ [p])) (by omega)
    unfold textFront
    rw [hlength, if_neg hc, List.length_singleton, if_pos (by omega), if_pos rfl]
    unfold unicodeFront
    rw [dif_pos hjoin', upTo_last, if_neg (by omega), Clustering.glyphs_end (by
      rw [hprev, hone, List.length_singleton])]

end Single

/-! ### The loop -/

/-- No glyph has more code units than columns. -/
def Slim (gs : List Glyph) : Prop := ∀ g ∈ gs, g.text.length ≤ g.width

/-- What one iteration makes of the glyphs `F`, and the column it goes on from. -/
inductive FillStep (cwd : Clustering) (c : UInt16) (right : ℕ) : List Glyph → List Glyph → ℕ → Prop
  | alone {F} : Alone cwd c F → cols F + (fillGlyph cwd c).width ≤ right →
      FillStep cwd c right F (F ++ [fillGlyph cwd c]) (cols F + (fillGlyph cwd c).width)
  | full {F} : Alone cwd c F → right < cols F + (fillGlyph cwd c).width → FillStep cwd c right F F right
  | joins {F p j} : ¬c < 0x80 → 0 < (cwd.join p.text [c]).1 → j.text = p.text ++ [c] →
      j.width = max 1 (cwd.join p.text [c]).2 → FillStep cwd c right (F ++ [p]) (F ++ [j]) (cols F + j.width)

/-- The iterations of the loop that fills the scratchpad row, as far as they go. -/
inductive FillReached (cwd : Clustering) (fill : List UInt16) (left right : ℕ) (scratchpad : Row α) : ℕ → Row α → Prop
  | start : FillReached cwd fill left right scratchpad left scratchpad
  | next {col : ℕ} {row row' : Row α} {state : RowWriteResult} :
      FillReached cwd fill left right scratchpad col row → col < right →
      row.replaceText cwd { text := fill, columnBegin := col, columnLimit := right } = .ok (row', state) →
      FillReached cwd fill left right scratchpad state.columnEnd row'

/-- **Each iteration advances.** -/
def FillAdvances (cwd : Clustering) (fill : List UInt16) (left right : ℕ) (scratchpad : Row α) : Prop :=
  ∀ col row, FillReached cwd fill left right scratchpad col row → col < right →
    ∃ row' state, row.replaceText cwd { text := fill, columnBegin := col, columnLimit := right } = .ok (row', state) ∧
      col < state.columnEnd

/-- The scratchpad row behind some iterations. -/
structure Filling (F : List Glyph) (width right col : ℕ) (row : Row α) : Prop where
  holds : row.Holds (F ++ blanks (width - cols F))
  columns : row.columnCount = width
  slim : Slim F
  le : cols F ≤ right
  col_eq : cols F = col ∨ right ≤ col

section Loop

variable {cwd : Clustering} {c : UInt16} {fill : List UInt16} {F F' : List Glyph} {left right width col : ℕ}
variable {row row' scratchpad : Row α}

lemma units_le_cols {gs : List Glyph} (h : Slim gs) : units gs ≤ cols gs := by
  induction gs with
  | nil => exact Nat.le_refl 0
  | cons g gs ih =>
    have hg := h g List.mem_cons_self
    have hrest := ih fun g' hg' => h g' (List.mem_cons_of_mem g hg')
    rw [units_cons, cols_cons]
    omega

lemma slim_append {a b : List Glyph} (ha : Slim a) (hb : Slim b) : Slim (a ++ b) := fun g hg =>
  (List.mem_append.mp hg).elim (ha g) (hb g)

lemma slim_blanks (n : ℕ) : Slim (blanks n) := fun g hg => by
  rw [List.eq_of_mem_replicate hg]
  exact Nat.le_refl 1

lemma slim_fillGlyph (cwd : Clustering) (c : UInt16) : Slim [fillGlyph cwd c] := fun g hg => by
  rw [List.mem_singleton.mp hg, fillGlyph_text]
  exact (fillGlyph cwd c).width_pos

/-- **An iteration.** -/
lemma replaceText_fillStep (hm : cwd.MeasuresAscii) (c : UInt16) (h : Filling F width right col row)
    (hcol : col < right) (hright : right ≤ width) (hwidth : width + 2 < 0x8000) :
    ∃ F' row' state, row.replaceText cwd { text := [c], columnBegin := col, columnLimit := right } =
        .ok (row', state) ∧
      row'.Holds (F' ++ blanks (width - cols F')) ∧ row'.columnCount = width ∧
      FillStep cwd c right F F' state.columnEnd := by
  obtain rfl : cols F = col := h.col_eq.resolve_right (by omega)
  have hcolumns := h.columns
  have hslim := units_le_cols h.slim
  have hm' : cols F + (width - cols F) = width := by omega
  have hx : row.clampedColumnInclusive (cols F) = cols F := Nat.min_eq_left (by omega)
  have hlimit : row.clampedColumnInclusive right = right := Nat.min_eq_left (by omega)
  -- What is to be shown of each kind of iteration is what the front of the write is.
  have hwrite (front : List Glyph) {k : ℕ}
      (hwritten : textWritten cwd (F ++ blanks (width - cols F)) (cols F) right [c] =
        front ++ blanks (width - cols front))
      (hend : textEnd (F ++ blanks (width - cols F))
        (textFront cwd (F ++ blanks (width - cols F)) (cols F) right [c]) (cols F) right [c] = k)
      (hshort : units front + (width - cols front) < 0x8000) (hstep : FillStep cwd c right F front k) :
      ∃ F' row' state, row.replaceText cwd { text := [c], columnBegin := cols F, columnLimit := right } =
          .ok (row', state) ∧
        row'.Holds (F' ++ blanks (width - cols F')) ∧ row'.columnCount = width ∧
        FillStep cwd c right F F' state.columnEnd := by
    obtain ⟨row', state, hok, hholds, hcount, hcolumnEnd, -⟩ := replaceText_holds h.holds cwd
      { text := [c], columnBegin := cols F, columnLimit := right } hx hlimit hcol Nat.one_pos (by omega) (by
        show units (textWritten cwd _ (cols F) right [c]) < _
        rw [hwritten, units_append, units_blanks]
        exact hshort)
    refine ⟨front, row', state, hok, ?_, hcount.trans hcolumns, ?_⟩
    · rw [← hwritten]
      exact hholds
    · rw [hcolumnEnd, hend]
      exact hstep
  by_cases halone : Alone cwd c F
  · have hfront := @textFront_alone cwd c (blanks (width - cols F)) F right hm hcol halone
    by_cases hfit : (fillGlyph cwd c).width ≤ right - cols F
    · rw [if_pos hfit] at hfront
      have hcols : cols (F ++ [fillGlyph cwd c]) = cols F + (fillGlyph cwd c).width := by rw [cols_append]; rfl
      have hunits : units (F ++ [fillGlyph cwd c]) = units F + 1 := by
        rw [units_append, units_cons, fillGlyph_text]
        rfl
      have hend : textEnd (F ++ blanks (width - cols F)) (F ++ [fillGlyph cwd c]) (cols F) right [c] =
          cols F + (fillGlyph cwd c).width := by
        unfold textEnd
        rw [lead_filled, hunits, List.length_singleton, if_pos rfl, hcols]
      refine hwrite (F ++ [fillGlyph cwd c]) ?_ (by rw [hfront]; exact hend) (by omega)
        (.alone halone (by omega))
      unfold textWritten
      rw [hfront, hend, closed_filled (by omega) (by omega) (by omega), hm']
    · rw [if_neg hfit, List.append_nil] at hfront
      have hend : textEnd (F ++ blanks (width - cols F)) F (cols F) right [c] = right := by
        unfold textEnd
        rw [lead_filled, if_neg (by rw [List.length_singleton]; omega)]
      refine hwrite F ?_ (by rw [hfront]; exact hend) (by omega) (.full halone (by omega))
      unfold textWritten
      rw [hfront, hend, closed_filled (by omega) (by omega) (by omega), hm']
  · obtain ⟨hc, p, hp, hjoin⟩ : ¬c < 0x80 ∧ ∃ p ∈ F.getLast?, 0 < (cwd.join p.text [c]).1 := by
      unfold Alone at halone
      push Not at halone
      obtain ⟨hc, p, hp, hne⟩ := halone
      exact ⟨hc, p, hp, Nat.pos_of_ne_zero hne⟩
    obtain ⟨F₀, rfl⟩ := List.getLast?_eq_some_iff.mp hp
    obtain ⟨j, htext, hwidth', hfront⟩ :=
      @textFront_joins cwd c (blanks (width - cols (F₀ ++ [p]))) F₀ p right hc hcol hjoin
    have hp' := h.slim p (List.mem_append_right F₀ (List.mem_singleton_self p))
    have hcols : cols (F₀ ++ [p]) = cols F₀ + p.width := by rw [cols_append]; rfl
    have hcols' : cols (F₀ ++ [j]) = cols F₀ + j.width := by rw [cols_append]; rfl
    have hunits : units (F₀ ++ [p]) = units F₀ + p.text.length := by rw [units_append]; rfl
    have hunits' : units (F₀ ++ [j]) = units F₀ + (p.text.length + 1) := by
      rw [units_append, units_cons, htext, List.length_append]
      rfl
    have hslim₀ : units F₀ ≤ cols F₀ := units_le_cols fun g hg => h.slim g (List.mem_append_left _ hg)
    have hppos := p.width_pos
    have hple := p.width_le
    have hle := j.width_le
    have hpos := j.width_pos
    have hend : textEnd (F₀ ++ [p] ++ blanks (width - cols (F₀ ++ [p]))) (F₀ ++ [j]) (cols (F₀ ++ [p])) right [c] =
        cols F₀ + j.width := by
      unfold textEnd
      rw [lead_filled, hunits, hunits', Nat.add_assoc, List.length_singleton, if_pos rfl, hcols']
    refine hwrite (F₀ ++ [j]) ?_ (by rw [hfront]; exact hend) (by omega) (.joins hc hjoin htext hwidth')
    unfold textWritten
    rw [hfront, hend, ← hcols', @closed_joined F₀ p (width - cols (F₀ ++ [p])) j (by omega), hm']

/-- A glyph that is joined advances the column only where it becomes wide. -/
lemma FillStep.advance {k : ℕ} (h : FillStep cwd c right F F' k) (hslim : Slim F) (hcol : cols F < right)
    (hadvance : cols F < k) : Slim F' ∧ cols F' ≤ right ∧ (cols F' = k ∨ right ≤ k) := by
  cases h with
  | alone halone hfit =>
    have hcols : cols (F ++ [fillGlyph cwd c]) = cols F + (fillGlyph cwd c).width := by rw [cols_append]; rfl
    exact ⟨slim_append hslim (slim_fillGlyph cwd c), by omega, .inl hcols⟩
  | full halone hover => exact ⟨hslim, hcol.le, .inr (Nat.le_refl right)⟩
  | @joins F₀ p j hc hjoin htext hwidth =>
    have hp := hslim p (List.mem_append_right F₀ (List.mem_singleton_self p))
    have hcols : cols (F₀ ++ [p]) = cols F₀ + p.width := by rw [cols_append]; rfl
    have hcols' : cols (F₀ ++ [j]) = cols F₀ + j.width := by rw [cols_append]; rfl
    have hpos := p.width_pos
    have hle := j.width_le
    refine ⟨slim_append (fun g hg => hslim g (List.mem_append_left _ hg)) fun g hg => ?_, by omega, .inl hcols'⟩
    rw [List.mem_singleton.mp hg, htext, List.length_append, List.length_singleton]
    omega

/-- **An iteration that advances** is one more step. -/
lemma Filling.next (hm : cwd.MeasuresAscii) (h : Filling F width right col row) (hcol : col < right)
    (hright : right ≤ width) (hwidth : width + 2 < 0x8000) {state : RowWriteResult}
    (hok : row.replaceText cwd { text := [c], columnBegin := col, columnLimit := right } = .ok (row', state))
    (hadvance : col < state.columnEnd) :
    ∃ F', FillStep cwd c right F F' state.columnEnd ∧ Filling F' width right state.columnEnd row' := by
  obtain ⟨F', row₁, state₁, hok₁, hholds, hcolumns, hstep⟩ := replaceText_fillStep hm c h hcol hright hwidth
  obtain ⟨rfl, rfl⟩ := Prod.mk.inj (Except.ok.inj (hok₁.symm.trans hok))
  have hcolF : cols F = col := h.col_eq.resolve_right (by omega)
  obtain ⟨hslim, hle, hend⟩ := hstep.advance h.slim (by omega) (by omega)
  exact ⟨F', hstep, hholds, hcolumns, hslim, hle, hend⟩

/-- The loop goes through the iterations. -/
lemma fillScratchpad_reached {iterations : ℕ} (hreached : FillReached cwd fill left right scratchpad col row)
    (hok : TextBuffer.fillScratchpad cwd fill right iterations col row = .ok row') :
    ∃ col', FillReached cwd fill left right scratchpad col' row' ∧ right ≤ col' := by
  induction iterations generalizing col row with
  | zero => exact nomatch hok
  | succ iterations ih =>
    unfold TextBuffer.fillScratchpad at hok
    split at hok
    · next hcol =>
      obtain ⟨⟨next, state⟩, hwrite, hrest⟩ := ok_of_bind hok
      exact ih (.next hreached hcol hwrite) hrest
    · next hcol =>
      cases hok
      exact ⟨col, hreached, Nat.not_lt.mp hcol⟩

/-- **A loop that advances ends**, after no more iterations than there are columns. -/
lemma fillScratchpad_ends (hadvances : FillAdvances cwd fill left right scratchpad) {iterations : ℕ}
    (hreached : FillReached cwd fill left right scratchpad col row) (henough : right - col < iterations) :
    ∃ row', TextBuffer.fillScratchpad cwd fill right iterations col row = .ok row' := by
  induction iterations generalizing col row with
  | zero => exact absurd henough (Nat.not_lt_zero _)
  | succ iterations ih =>
    unfold TextBuffer.fillScratchpad
    by_cases hcol : col < right
    · obtain ⟨next, state, hok, hadvance⟩ := hadvances col row hreached hcol
      rw [if_pos hcol, hok]
      exact ih (.next hreached hcol hok) (by omega)
    · rw [if_neg hcol]
      exact ⟨row, rfl⟩

lemma filling_start {attr : α} (hleft : left ≤ right) (hright : right ≤ width) (hwidth : width < 0x8000) :
    Filling (blanks left) width right left (Row.create width attr) := by
  refine ⟨?_, rfl, slim_blanks left, ?_, .inl (cols_blanks left)⟩
  · rw [cols_blanks, blanks_add, Nat.add_sub_cancel' (by omega)]
    exact create_holds hwidth attr
  · rw [cols_blanks]
    exact hleft

/-- What each iteration that advances keeps holds of all of them. -/
lemma FillReached.invariant (Inv : ℕ → Row α → Prop) (hadvances : FillAdvances cwd fill left right scratchpad)
    (hstart : Inv left scratchpad)
    (hstep : ∀ {col row row' state}, Inv col row → col < right →
      row.replaceText cwd { text := fill, columnBegin := col, columnLimit := right } = .ok (row', state) →
      col < state.columnEnd → Inv state.columnEnd row')
    (hreached : FillReached cwd fill left right scratchpad col row) : Inv col row := by
  induction hreached with
  | start => exact hstart
  | next hreached hcol hok ih =>
    obtain ⟨next, state, hok', hadvance⟩ := hadvances _ _ hreached hcol
    obtain ⟨rfl, rfl⟩ := Prod.mk.inj (Except.ok.inj (hok'.symm.trans hok))
    exact hstep ih hcol hok hadvance

end Loop

/-! ### Copies that stand alone -/

/-- No copy joins what is before it. -/
def FillsAlone (cwd : Clustering) (c : UInt16) (left right : ℕ) : Prop :=
  c < 0x80 ∨
    (left = 0 ∨ (cwd.join [space] [c]).1 = 0) ∧
      (right - left ≤ (fillGlyph cwd c).width ∨ (cwd.join [c] [c]).1 = 0)

/-- The blanks of the row, and `k` copies behind them. -/
def copies (cwd : Clustering) (c : UInt16) (left k : ℕ) : List Glyph :=
  blanks left ++ List.replicate k (fillGlyph cwd c)

section Copies

variable {cwd : Clustering} {c : UInt16} {left right width col k : ℕ} {row : Row α} {attr : α}

lemma cols_replicate (k : ℕ) (g : Glyph) : cols (List.replicate k g) = k * g.width := by
  induction k with
  | zero => rw [Nat.zero_mul]; rfl
  | succ k ih => rw [List.replicate_succ, cols_cons, ih, Nat.succ_mul, Nat.add_comm]

lemma cols_copies : cols (copies cwd c left k) = left + k * (fillGlyph cwd c).width := by
  rw [copies, cols_append, cols_blanks, cols_replicate]

lemma copies_succ : copies cwd c left (k + 1) = copies cwd c left k ++ [fillGlyph cwd c] := by
  rw [copies, copies, List.append_assoc, ← List.replicate_succ']

lemma alone_blanks (hfirst : c < 0x80 ∨ left = 0 ∨ (cwd.join [space] [c]).1 = 0) : Alone cwd c (blanks left) := by
  refine hfirst.imp id fun hfirst p hp => ?_
  obtain rfl := List.eq_of_mem_replicate (List.mem_of_getLast? hp)
  refine hfirst.resolve_left fun hzero => ?_
  rw [hzero] at hp
  exact nomatch hp

lemma alone_copies (halone : FillsAlone cwd c left right) (hcol : cols (copies cwd c left k) < right) :
    Alone cwd c (copies cwd c left k) := by
  cases k with
  | zero =>
    have hblanks : copies cwd c left 0 = blanks left := List.append_nil _
    rw [hblanks]
    exact alone_blanks (halone.imp id And.left)
  | succ k =>
    refine halone.imp id fun hnext p hp => ?_
    rw [copies_succ, List.getLast?_concat] at hp
    obtain rfl := Option.some.inj hp
    rw [fillGlyph_text]
    refine hnext.2.resolve_left fun hone => ?_
    rw [cols_copies, Nat.add_one_mul] at hcol
    omega

/-- A copy that stands alone is written, unless one column is left and it needs two. -/
lemma FillStep.copies {F' : List Glyph} {n : ℕ} (h : FillStep cwd c right (copies cwd c left k) F' n)
    (halone : Alone cwd c (copies cwd c left k)) :
    F' = Buffer.copies cwd c left (k + 1) ∧ n = left + (k + 1) * (fillGlyph cwd c).width ∨
      F' = Buffer.copies cwd c left k ∧ n = right ∧ right < left + (k + 1) * (fillGlyph cwd c).width := by
  have hcols := @cols_copies cwd c left k
  generalize hF : Buffer.copies cwd c left k = F at h halone hcols
  rw [Nat.add_one_mul, ← Nat.add_assoc, ← hcols]
  cases h with
  | alone _ hfit => exact .inl ⟨by rw [copies_succ, hF], rfl⟩
  | full _ hover => exact .inr ⟨rfl, rfl, hover⟩
  | joins hc hjoin htext hwidth =>
    have hnone := halone.resolve_left hc _ (by rw [List.getLast?_concat]; rfl)
    omega

/-- **The loop writes copies**, as long as there is room for one. -/
lemma copies_reached (hm : cwd.MeasuresAscii) (halone : FillsAlone cwd c left right) (hleft : left < right)
    (hright : right ≤ width) (hwidth : width + 2 < 0x8000)
    (hreached : FillReached cwd [c] left right (Row.create width attr) col row) :
    ∃ k, Filling (copies cwd c left k) width right col row ∧
      (right ≤ col → right < left + (k + 1) * (fillGlyph cwd c).width) := by
  induction hreached with
  | start =>
    refine ⟨0, ?_, fun hle => by omega⟩
    have hblanks : copies cwd c left 0 = blanks left := List.append_nil _
    rw [hblanks]
    exact filling_start hleft.le hright (by omega)
  | next hreached hcol hok ih =>
    obtain ⟨k, hfilling, -⟩ := ih
    have hcolumn := hfilling.col_eq.resolve_right (by omega)
    have halone' := @alone_copies cwd c left right k halone (by omega)
    obtain ⟨F', row₁, state₁, hok₁, -, -, hstep⟩ := replaceText_fillStep hm c hfilling hcol hright hwidth
    obtain ⟨rfl, rfl⟩ := Prod.mk.inj (Except.ok.inj (hok₁.symm.trans hok))
    have hpos := (fillGlyph cwd c).width_pos
    have hcols := @cols_copies cwd c left k
    have hmul := Nat.add_one_mul k (fillGlyph cwd c).width
    have hadvance : cols (copies cwd c left k) < state₁.columnEnd := by
      rcases hstep.copies halone' with ⟨-, hn⟩ | ⟨-, hn, -⟩ <;> omega
    obtain ⟨F'', hstep', hnext⟩ := hfilling.next hm hcol hright hwidth hok (hcolumn ▸ hadvance)
    have hmul' := Nat.add_one_mul (k + 1) (fillGlyph cwd c).width
    rcases hstep'.copies halone' with ⟨rfl, hn⟩ | ⟨rfl, hn, hover⟩
    · have hle := hnext.le
      rw [cols_copies] at hle
      exact ⟨k + 1, hnext, fun hend => by omega⟩
    · exact ⟨k, hnext, fun _ => hover⟩

lemma copies_advance (hm : cwd.MeasuresAscii) (halone : FillsAlone cwd c left right) (hleft : left < right)
    (hright : right ≤ width) (hwidth : width + 2 < 0x8000) :
    FillAdvances cwd [c] left right (Row.create width attr) := by
  intro col row hreached hcol
  obtain ⟨k, hfilling, -⟩ := copies_reached hm halone hleft hright hwidth hreached
  have hcolumn := hfilling.col_eq.resolve_right (by omega)
  obtain ⟨F', row', state, hok, -, -, hstep⟩ := replaceText_fillStep hm c hfilling hcol hright hwidth
  have hpos := (fillGlyph cwd c).width_pos
  have hcols := @cols_copies cwd c left k
  have hmul := Nat.add_one_mul k (fillGlyph cwd c).width
  refine ⟨row', state, hok, ?_⟩
  rcases hstep.copies (@alone_copies cwd c left right k halone (by omega)) with ⟨-, hn⟩ | ⟨-, hn, -⟩ <;> omega

end Copies

/-! ### Copies that join what is before them -/

section Joining

variable {cwd : Clustering} {c : UInt16} {F F' A : List Glyph} {p j : Glyph} {left right width col n : ℕ} {row : Row α}
variable {attr : α}

/-- A copy that joins advances only where it makes a narrow glyph wide. -/
lemma FillStep.joined (h : FillStep cwd c right (A ++ [p]) F' n) (hc : ¬c < 0x80)
    (hjoin : 0 < (cwd.join p.text [c]).1) (hadvance : cols (A ++ [p]) < n) :
    ∃ j : Glyph, F' = A ++ [j] ∧ j.text = p.text ++ [c] ∧ j.width = 2 := by
  have halone : ¬Alone cwd c (A ++ [p]) := fun halone => by
    have hnone := halone.resolve_left hc p (by rw [List.getLast?_concat]; rfl)
    omega
  generalize hF : A ++ [p] = F at h hadvance halone
  cases h with
  | alone h' | full h' => exact absurd h' halone
  | @joins F₀ q j hc' hjoin' htext hwidth =>
    obtain ⟨rfl, hq⟩ := List.append_inj' hF rfl
    obtain rfl : p = q := List.singleton_inj.mp hq
    have hcols : cols (A ++ [p]) = cols A + p.width := by rw [cols_append]; rfl
    have hpos := p.width_pos
    have hle := j.width_le
    exact ⟨j, rfl, htext, by omega⟩

/-- **A wide glyph that is behind the loop's column stays.** -/
lemma FillStep.keeps (h : FillStep cwd c right F F' n) (hkept : A ++ [j] <+: F) (hj : j.width = 2)
    (hadvance : cols F < n) : A ++ [j] <+: F' := by
  cases h with
  | alone => exact hkept.trans (List.prefix_append F _)
  | full => exact hkept
  | @joins F₀ q j' hc hjoin htext hwidth =>
    rcases List.prefix_concat_iff.mp hkept with heq | hbefore
    · obtain ⟨rfl, hq⟩ := List.append_inj' heq rfl
      obtain rfl : j = q := List.singleton_inj.mp hq
      have hcols : cols (A ++ [j]) = cols A + j.width := by rw [cols_append]; rfl
      have hle := j'.width_le
      omega
    · exact hbefore.trans (List.prefix_append F₀ _)

/-- The first copy joins the space before the rectangle. -/
lemma joins_space_reached (hm : cwd.MeasuresAscii) (hc : ¬c < 0x80) (hpos : 0 < left)
    (hjoin : 0 < (cwd.join [space] [c]).1) (hleft : left < right) (hright : right ≤ width) (hwidth : width + 2 < 0x8000)
    (hadvances : FillAdvances cwd [c] left right (Row.create width attr))
    (hreached : FillReached cwd [c] left right (Row.create width attr) col row) (hend : right ≤ col) :
    ∃ F j, Filling F width right col row ∧ blanks (left - 1) ++ [j] <+: F ∧ j.width = 2 := by
  have hinv := hreached.invariant (fun col row => ∃ F, Filling F width right col row ∧
    (F = blanks left ∧ col = left ∨ ∃ j : Glyph, j.width = 2 ∧ blanks (left - 1) ++ [j] <+: F)) hadvances
    ⟨_, filling_start hleft.le hright (by omega), .inl ⟨rfl, rfl⟩⟩ (by
    intro col row row' state hinv hcol hok hadvance
    obtain ⟨F, hfilling, hcases⟩ := hinv
    obtain ⟨F', hstep, hnext⟩ := hfilling.next hm hcol hright hwidth hok hadvance
    have hcolumn := hfilling.col_eq.resolve_right (by omega)
    refine ⟨F', hnext, .inr ?_⟩
    rcases hcases with ⟨rfl, rfl⟩ | ⟨j, hj, hkept⟩
    · have hsplit : blanks col = blanks (col - 1) ++ [Glyph.blank] := by
        conv_lhs => rw [← Nat.sub_add_cancel hpos]
        exact List.replicate_succ'
      rw [hsplit] at hstep hcolumn
      obtain ⟨j, rfl, -, hj⟩ := hstep.joined hc hjoin (by omega)
      exact ⟨j, hj, List.prefix_rfl⟩
    · exact ⟨j, hj, hstep.keeps hkept hj (by omega)⟩)
  obtain ⟨F, hfilling, ⟨-, rfl⟩ | ⟨j, hj, hkept⟩⟩ := hinv
  · omega
  · exact ⟨F, j, hfilling, hkept, hj⟩

/-- The second copy joins the first. -/
lemma joins_copy_reached (hm : cwd.MeasuresAscii) (hc : ¬c < 0x80) (hfirst : left = 0 ∨ (cwd.join [space] [c]).1 = 0)
    (hroom : (fillGlyph cwd c).width < right - left) (hjoin : 0 < (cwd.join [c] [c]).1) (hright : right ≤ width)
    (hwidth : width + 2 < 0x8000) (hadvances : FillAdvances cwd [c] left right (Row.create width attr))
    (hreached : FillReached cwd [c] left right (Row.create width attr) col row) (hend : right ≤ col) :
    ∃ F j, Filling F width right col row ∧ blanks left ++ [j] <+: F ∧ j.width = 2 ∧ j.text = [c, c] := by
  have hpos := (fillGlyph cwd c).width_pos
  have hinv := hreached.invariant (fun col row => ∃ F, Filling F width right col row ∧
    (F = blanks left ∧ col = left ∨ F = blanks left ++ [fillGlyph cwd c] ∧ col = left + (fillGlyph cwd c).width ∨
      ∃ j : Glyph, j.width = 2 ∧ j.text = [c, c] ∧ blanks left ++ [j] <+: F)) hadvances
    ⟨_, filling_start (by omega) hright (by omega), .inl ⟨rfl, rfl⟩⟩ (by
    intro col row row' state hinv hcol hok hadvance
    obtain ⟨F, hfilling, hcases⟩ := hinv
    obtain ⟨F', hstep, hnext⟩ := hfilling.next hm hcol hright hwidth hok hadvance
    have hcolumn := hfilling.col_eq.resolve_right (by omega)
    refine ⟨F', hnext, .inr ?_⟩
    rcases hcases with ⟨rfl, rfl⟩ | ⟨rfl, rfl⟩ | ⟨j, hj, htext, hkept⟩
    · have hzero : blanks col = copies cwd c col 0 := (List.append_nil _).symm
      have hblanks := @alone_blanks cwd c col (.inr hfirst)
      rw [hzero] at hstep hblanks
      rcases hstep.copies hblanks with ⟨rfl, hn⟩ | ⟨-, -, hover⟩
      · exact .inl ⟨rfl, by omega⟩
      · omega
    · obtain ⟨j, rfl, htext, hj⟩ := hstep.joined hc (by rwa [fillGlyph_text]) (by omega)
      rw [fillGlyph_text] at htext
      exact .inr ⟨j, hj, htext, List.prefix_rfl⟩
    · exact .inr ⟨j, hj, htext, hstep.keeps hkept hj (by omega)⟩)
  obtain ⟨F, hfilling, ⟨-, rfl⟩ | ⟨-, rfl⟩ | ⟨j, hj, htext, hkept⟩⟩ := hinv
  · omega
  · omega
  · exact ⟨F, j, hfilling, hkept, hj, htext⟩

end Joining

end VT7.Buffer
