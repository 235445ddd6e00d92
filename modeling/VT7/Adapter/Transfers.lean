import VT7.Adapter.ScrollRects

/-!
# Cell by cell

Both loops take the cells for a rectangle of the buffer in the order of a walk.  A `Transfer` says which cells these are;
`Transfer.write` is one step, and `copyCells_run` and `moveCells_run` are the loops.  What is left to show about a loop is
that every cell is still there when it is read.
-/

namespace VT7.Adapter

open VT7.Buffer
open VT7.Lib.Cells
open VT7.Types.Viewport

open Finset in
/-- The cells `source` go to the rectangle with `columns` columns and `lines` lines at `left` and `top`. -/
structure Transfer (α : Type) where
  width : ℕ
  height : ℕ
  left : ℕ
  top : ℕ
  columns : ℕ
  lines : ℕ
  forward : Bool
  cells : ℕ → ℕ → GlyphCell
  attrs : ℕ → ℕ → Option α
  source : ℕ → ℕ → GlyphCell
  sourceAttrs : ℕ → ℕ → Option α
  columns_pos : 0 < columns
  lines_pos : 0 < lines
  right_le : left + columns ≤ width
  bottom_le : top + lines ≤ height
  width_lt : width < 0x8000
  paired : ∀ y, top ≤ y → y < top + lines → Paired (source y)
  short : ∀ y, top ≤ y → y < top + lines → ∀ a e,
    ∑ x ∈ range width, weight (pasted [space] width (cells y) (source y) a e x) < 0x8000

namespace Transfer

variable {α : Type} (T : Transfer α)

def size : ℕ := T.columns * T.lines
def number (k : ℕ) : ℕ := visited T.forward T.columns T.lines k

/-- The cell that is written in step `k`. -/
def row (k : ℕ) : ℕ := T.top + T.number k / T.columns
def column (k : ℕ) : ℕ := T.left + T.number k % T.columns

/-- How many rows are written before the row `y`. -/
def rank (y : ℕ) : ℕ := if T.forward then y - T.top else T.lines - 1 - (y - T.top)

/-- How many cells of the row `y` have been written after `k` steps. -/
def written (k y : ℕ) : ℕ := min T.columns (k - T.rank y * T.columns)

def begins (k y : ℕ) : ℕ := if T.forward then T.left else T.left + T.columns - T.written k y
def ends (k y : ℕ) : ℕ := if T.forward then T.left + T.written k y else T.left + T.columns

/-- What is displayed after `k` steps. -/
def cellsAfter (k y : ℕ) : ℕ → GlyphCell :=
  if T.top ≤ y ∧ y < T.top + T.lines then pasted [space] T.width (T.cells y) (T.source y) (T.begins k y) (T.ends k y)
  else T.cells y

def attrsAfter (k y x : ℕ) : Option α :=
  if (T.top ≤ y ∧ y < T.top + T.lines) ∧ T.begins k y ≤ x ∧ x < T.ends k y then T.sourceAttrs y x else T.attrs y x

/-! ### How far the walk has come -/

section Walking

variable {T} {k y : ℕ}

lemma div_lt_lines (hk : k < T.size) : k / T.columns < T.lines := Nat.div_lt_of_lt_mul hk

lemma row_eq (hk : k < T.size) : T.row k = T.top + if T.forward then k / T.columns else T.lines - 1 - k / T.columns := by
  unfold row number
  rw [(visited_div_mod hk T.forward).1]

lemma column_eq (hk : k < T.size) :
    T.column k = T.left + if T.forward then k % T.columns else T.columns - 1 - k % T.columns := by
  unfold column number
  rw [(visited_div_mod hk T.forward).2]

lemma row_mem (hk : k < T.size) : T.top ≤ T.row k ∧ T.row k < T.top + T.lines := by
  have hdiv := div_lt_lines hk
  rw [row_eq hk]
  generalize k / T.columns = i at *
  split <;> omega

lemma column_mem (hk : k < T.size) : T.left ≤ T.column k ∧ T.column k < T.left + T.columns := by
  have hmod := Nat.mod_lt k T.columns_pos
  rw [column_eq hk]
  generalize k % T.columns = i at *
  split <;> omega

lemma rank_row (hk : k < T.size) : T.rank (T.row k) = k / T.columns := by
  have hdiv := div_lt_lines hk
  rw [row_eq hk]
  generalize k / T.columns = i at *
  unfold rank
  split <;> omega

lemma eq_row_of_rank (hk : k < T.size) (hy : T.top ≤ y ∧ y < T.top + T.lines) (hrank : T.rank y = k / T.columns) :
    y = T.row k := by
  have hdiv := div_lt_lines hk
  rw [row_eq hk]
  generalize k / T.columns = i at *
  unfold rank at hrank
  by_cases hforward : T.forward = true
  · rw [if_pos hforward] at hrank ⊢
    omega
  · rw [if_neg hforward] at hrank ⊢
    omega

lemma written_row (hk : k < T.size) : T.written k (T.row k) = k % T.columns := by
  have hmod := Nat.mod_lt k T.columns_pos
  have hsplit := Nat.div_add_mod' k T.columns
  unfold written
  rw [rank_row hk]
  generalize k % T.columns = i at *
  omega

lemma written_succ_row (hk : k < T.size) : T.written (k + 1) (T.row k) = k % T.columns + 1 := by
  have hmod := Nat.mod_lt k T.columns_pos
  have hsplit := Nat.div_add_mod' k T.columns
  unfold written
  rw [rank_row hk]
  generalize k % T.columns = i at *
  omega

/-- In a step no other row is written. -/
lemma written_succ_of_ne (hk : k < T.size) (hy : T.top ≤ y ∧ y < T.top + T.lines) (hne : y ≠ T.row k) :
    T.written (k + 1) y = T.written k y := by
  have hmod := Nat.mod_lt k T.columns_pos
  have hsplit := Nat.div_add_mod' k T.columns
  have hrank : T.rank y ≠ k / T.columns := fun h => hne (eq_row_of_rank hk hy h)
  unfold written
  rcases Nat.lt_or_gt_of_ne hrank with hlt | hgt
  · have hrows := Nat.mul_le_mul_right T.columns (Nat.succ_le_of_lt hlt)
    rw [Nat.succ_mul] at hrows
    omega
  · have hrows := Nat.mul_le_mul_right T.columns (Nat.succ_le_of_lt hgt)
    rw [Nat.succ_mul] at hrows
    omega

/-- A row that comes later is as it was. -/
lemma written_of_rank (hrank : k / T.columns < T.rank y) : T.written k y = 0 := by
  have hmod := Nat.mod_lt k T.columns_pos
  have hsplit := Nat.div_add_mod' k T.columns
  have hrows := Nat.mul_le_mul_right T.columns (Nat.succ_le_of_lt hrank)
  rw [Nat.succ_mul] at hrows
  unfold written
  omega

lemma written_size (hy : T.top ≤ y ∧ y < T.top + T.lines) : T.written T.size y = T.columns := by
  have hpos := T.lines_pos
  have hrank : T.rank y + 1 ≤ T.lines := by
    unfold rank
    split <;> omega
  have hrows := Nat.mul_le_mul_right T.columns hrank
  rw [Nat.succ_mul, Nat.mul_comm T.lines] at hrows
  unfold written size
  omega

lemma cellsAfter_of_written (hwritten : T.written k y = 0) : T.cellsAfter k y = T.cells y := by
  unfold cellsAfter begins ends
  rw [hwritten]
  split
  · split
    · exact pasted_self
    · exact pasted_self
  · rfl

lemma attrsAfter_of_written (hwritten : T.written k y = 0) : T.attrsAfter k y = T.attrs y := by
  funext x
  unfold attrsAfter begins ends
  rw [hwritten]
  refine if_neg fun ⟨_, hlow, hhigh⟩ => ?_
  by_cases hforward : T.forward = true
  · rw [if_pos hforward] at hlow hhigh
    omega
  · rw [if_neg hforward] at hlow hhigh
    omega

/-- A row that is still to come. -/
lemma after_of_rank (h : T.top ≤ y → y < T.top + T.lines → k / T.columns < T.rank y) :
    T.cellsAfter k y = T.cells y ∧ T.attrsAfter k y = T.attrs y := by
  by_cases hin : T.top ≤ y ∧ y < T.top + T.lines
  · have hwritten := written_of_rank (h hin.1 hin.2)
    exact ⟨cellsAfter_of_written hwritten, attrsAfter_of_written hwritten⟩
  · refine ⟨if_neg hin, funext fun x => if_neg fun h => hin h.1⟩

/-- A row that gets its own cells. -/
lemma after_of_same (hd : Fits T.width (T.cells y)) (hs : T.source y = T.cells y) (ha : T.sourceAttrs y = T.attrs y) :
    T.cellsAfter k y = T.cells y ∧ T.attrsAfter k y = T.attrs y := by
  unfold cellsAfter
  refine ⟨?_, funext fun x => ?_⟩
  · rw [hs]
    split
    · exact pasted_same hd
    · rfl
  · unfold attrsAfter
    rw [ha, ite_self]

lemma cellsAfter_zero : T.cellsAfter 0 = T.cells := by
  funext y
  refine cellsAfter_of_written ?_
  unfold written
  omega

lemma attrsAfter_zero : T.attrsAfter 0 = T.attrs := by
  funext y
  refine attrsAfter_of_written ?_
  unfold written
  omega

lemma succ_div_cases (c j : ℕ) :
    j / c < (j + 1) / c ∨ (j + 1) / c = j / c ∧ (j + 1) % c = j % c + 1 := by
  have hle : j / c ≤ (j + 1) / c := Nat.div_le_div_right (Nat.le_succ j)
  rcases Nat.lt_or_eq_of_le hle with hlt | heq
  · exact .inl hlt
  · have hj := Nat.div_add_mod j c
    have hj' := Nat.div_add_mod (j + 1) c
    rw [← heq] at hj'
    exact .inr ⟨heq.symm, by omega⟩

/-- A cell apart from those that have been written in the row of the step. -/
lemma after_of_apart (hk : k < T.size) {x : ℕ} (hapart : if T.forward then T.column k < x else x < T.column k) :
    T.cellsAfter (k - 1) (T.row k) x = T.cells (T.row k) x ∧ T.attrsAfter (k - 1) (T.row k) x = T.attrs (T.row k) x := by
  cases k with
  | zero =>
    rw [Nat.zero_sub, cellsAfter_zero, attrsAfter_zero]
    exact ⟨rfl, rfl⟩
  | succ k =>
    rw [Nat.add_sub_cancel]
    have hk' : k < T.size := by omega
    have hrow := row_mem hk
    have hrank := rank_row hk
    rcases succ_div_cases T.columns k with hlater | ⟨hsame, hnext⟩
    · have hlater' := after_of_rank (T := T) (k := k) (y := T.row (k + 1)) fun _ _ => by omega
      exact ⟨congrFun hlater'.1 x, congrFun hlater'.2 x⟩
    · have hrowSame : T.row (k + 1) = T.row k := eq_row_of_rank hk' hrow (hrank.trans hsame)
      have hwritten := written_row hk'
      have hcolumn := column_eq hk
      have hmod := Nat.mod_lt (k + 1) T.columns_pos
      rw [hnext] at hcolumn hmod
      rw [hrowSame] at hrow ⊢
      unfold cellsAfter attrsAfter begins ends
      rw [if_pos hrow, hwritten]
      generalize k % T.columns = i at *
      by_cases hforward : T.forward = true
      · rw [if_pos hforward] at hcolumn hapart
        rw [if_pos hforward, if_pos hforward, pasted_right (by omega), if_neg (by omega)]
        exact ⟨rfl, rfl⟩
      · rw [if_neg hforward] at hcolumn hapart
        rw [if_neg hforward, if_neg hforward, pasted_left (by omega), if_neg (by omega)]
        exact ⟨rfl, rfl⟩

/-- **The whole rectangle is written.** -/
lemma cellsAfter_size (y : ℕ) : T.cellsAfter T.size y = if T.top ≤ y ∧ y < T.top + T.lines then
    pasted [space] T.width (T.cells y) (T.source y) T.left (T.left + T.columns) else T.cells y := by
  unfold cellsAfter begins ends
  split
  · next hy =>
    rw [written_size hy, Nat.add_sub_cancel, ite_self, ite_self]
  · rfl

lemma attrsAfter_size (y x : ℕ) : T.attrsAfter T.size y x =
    if (T.top ≤ y ∧ y < T.top + T.lines) ∧ T.left ≤ x ∧ x < T.left + T.columns then T.sourceAttrs y x
    else T.attrs y x := by
  unfold attrsAfter begins ends
  by_cases hy : T.top ≤ y ∧ y < T.top + T.lines
  · rw [written_size hy, Nat.add_sub_cancel, ite_self, ite_self]
  · rw [if_neg fun h => hy h.1, if_neg fun h => hy h.1]

/-- What is displayed behind the last step. -/
lemma displays_size {b : TextBuffer α} {right bottom : ℕ}
    (hb : b.Displays T.width T.height (T.cellsAfter T.size) (T.attrsAfter T.size)) (hright : T.left + T.columns = right)
    (hbottom : T.top + T.lines = bottom) : b.Displays T.width T.height
      (fun y => if T.top ≤ y ∧ y < bottom then pasted [space] T.width (T.cells y) (T.source y) T.left right else T.cells y)
      fun y x => if (T.top ≤ y ∧ y < bottom) ∧ T.left ≤ x ∧ x < right then T.sourceAttrs y x else T.attrs y x := by
  subst hright hbottom
  rwa [funext cellsAfter_size, funext₂ attrsAfter_size] at hb

end Walking

/-! ### One step -/

section Steps

variable {T} {k : ℕ} {b : TextBuffer α}

/-- The cell of the step, as it is read. -/
structure Holds (T : Transfer α) (k : ℕ) (view : OutputCellView α) : Prop where
  cell : (⟨view.chars, view.dbcsAttr.half⟩ : GlyphCell) = T.source (T.row k) (T.column k)
  chars : view.chars ≠ []
  attr : some view.textAttr = T.sourceAttrs (T.row k) (T.column k)
  stored : view.textAttrBehavior = .stored
  position : view.position = 0

/-- The painted cells of the row of the step. -/
lemma paint_row (hd : Paired (T.cells (T.row k))) (hk : k < T.size) :
    paint [space] T.width (T.cellsAfter k (T.row k)) (T.column k) (T.source (T.row k) (T.column k)) =
      T.cellsAfter (k + 1) (T.row k) := by
  have hrow := row_mem hk
  have hcolumn := column_mem hk
  have hright := T.right_le
  have hmod := Nat.mod_lt k T.columns_pos
  have hs := T.paired (T.row k) hrow.1 hrow.2
  unfold cellsAfter begins ends
  rw [if_pos hrow, if_pos hrow, written_row hk, written_succ_row hk, column_eq hk]
  cases hforward : T.forward with
  | true =>
    rw [if_pos rfl, if_pos rfl, if_pos rfl, if_pos rfl, ← Nat.add_assoc]
    exact paint_pasted hs (by omega) (by omega)
  | false =>
    rw [if_neg nofun, if_neg nofun, if_neg nofun, if_neg nofun]
    have hlow : T.left + T.columns - k % T.columns = T.left + (T.columns - 1 - k % T.columns) + 1 := by omega
    have hlow' : T.left + T.columns - (k % T.columns + 1) = T.left + (T.columns - 1 - k % T.columns) := by omega
    rw [hlow, hlow']
    exact paint_pasted_back hd hs (by omega) (by omega)

lemma attrs_row (hk : k < T.size) (x : ℕ) :
    Function.update (T.attrsAfter k (T.row k)) (T.column k) (T.sourceAttrs (T.row k) (T.column k)) x =
      T.attrsAfter (k + 1) (T.row k) x := by
  have hrow := row_mem hk
  have hcolumn := column_eq hk
  have hmod := Nat.mod_lt k T.columns_pos
  unfold attrsAfter begins ends
  rw [written_row hk, written_succ_row hk]
  rcases eq_or_ne x (T.column k) with rfl | hne
  · rw [Function.update_self, if_pos]
    generalize k % T.columns = i at *
    refine ⟨hrow, ?_⟩
    by_cases hforward : T.forward = true
    · rw [if_pos hforward] at hcolumn
      rw [if_pos hforward, if_pos hforward]
      omega
    · rw [if_neg hforward] at hcolumn
      rw [if_neg hforward, if_neg hforward]
      omega
  · rw [Function.update_of_ne hne]
    have hiff : ((T.top ≤ T.row k ∧ T.row k < T.top + T.lines) ∧
          (if T.forward then T.left else T.left + T.columns - k % T.columns) ≤ x ∧
          x < if T.forward then T.left + k % T.columns else T.left + T.columns) ↔
        ((T.top ≤ T.row k ∧ T.row k < T.top + T.lines) ∧
          (if T.forward then T.left else T.left + T.columns - (k % T.columns + 1)) ≤ x ∧
          x < if T.forward then T.left + (k % T.columns + 1) else T.left + T.columns) := by
      cases hforward : T.forward with
      | true =>
        rw [hforward, if_pos rfl] at hcolumn
        rw [if_pos rfl, if_pos rfl, if_pos rfl, if_pos rfl]
        omega
      | false =>
        rw [hforward, if_neg nofun] at hcolumn
        rw [if_neg nofun, if_neg nofun, if_neg nofun, if_neg nofun]
        omega
    simp only [hiff]

/-- **One cell is written.** -/
theorem write [DecidableEq α] (hb : b.Displays T.width T.height (T.cellsAfter k) (T.attrsAfter k))
    (hcells : ∀ y, T.top ≤ y → y < T.top + T.lines → Paired (T.cells y)) (hk : k < T.size) {view : OutputCellView α}
    (hview : T.Holds k view) : ∃ b', b.writeLine [view] ⟨T.column k, T.row k⟩ none none = .ok b' ∧
      b'.Displays T.width T.height (T.cellsAfter (k + 1)) (T.attrsAfter (k + 1)) := by
  have hrow := row_mem hk
  have hcolumn := column_mem hk
  have hright := T.right_le
  have hbottom := T.bottom_le
  have hpainted := paint_row (hcells _ hrow.1 hrow.2) hk
  have hshort := T.short (T.row k) hrow.1 hrow.2 (T.begins (k + 1) (T.row k)) (T.ends (k + 1) (T.row k))
  have hafter : T.cellsAfter (k + 1) (T.row k) = pasted [space] T.width (T.cells (T.row k)) (T.source (T.row k))
      (T.begins (k + 1) (T.row k)) (T.ends (k + 1) (T.row k)) := if_pos hrow
  obtain ⟨b', hok, hdisplays⟩ := hb.writeLine (show T.column k < T.width by omega) (show T.row k < T.height by omega)
    T.width_lt hview.cell (by rw [← hview.cell]; exact hview.chars) hview.position hview.stored
    (by rw [hpainted, hafter]; exact hshort)
  rw [hpainted, hview.attr] at hdisplays
  refine ⟨b', hok, hdisplays.width_eq, hdisplays.height_eq, fun y hy => ?_⟩
  have hrows := hdisplays.rows y hy
  rcases eq_or_ne y (T.row k) with rfl | hne
  · rw [Function.update_self, Function.update_self] at hrows
    exact ⟨hrows.shows, hrows.columns, hrows.length, fun x => by rw [hrows.attributes, attrs_row hk]⟩
  · rw [Function.update_of_ne hne, Function.update_of_ne hne] at hrows
    have hsame : T.cellsAfter (k + 1) y = T.cellsAfter k y ∧ T.attrsAfter (k + 1) y = T.attrsAfter k y := by
      by_cases hin : T.top ≤ y ∧ y < T.top + T.lines
      · have hwritten := written_succ_of_ne hk hin hne
        refine ⟨?_, funext fun x => ?_⟩
        · unfold cellsAfter begins ends
          rw [hwritten]
        · unfold attrsAfter begins ends
          rw [hwritten]
      · refine ⟨?_, funext fun x => ?_⟩
        · unfold cellsAfter
          rw [if_neg hin, if_neg hin]
        · unfold attrsAfter
          rw [if_neg fun h => hin h.1, if_neg fun h => hin h.1]
    rwa [hsame.1, hsame.2]

end Steps

/-! ### The loops -/

/-- The cell for the step `k` can be read after `k'` steps, `l` and `t` being the corner of what is read. -/
structure Finds (T : Transfer α) (l t k k' : ℕ) : Prop where
  column_lt : l + T.number k % T.columns < T.width
  row_lt : t + T.number k / T.columns < T.height
  cell : T.cellsAfter k' (t + T.number k / T.columns) (l + T.number k % T.columns) = T.source (T.row k) (T.column k)
  attr : T.attrsAfter k' (t + T.number k / T.columns) (l + T.number k % T.columns) = T.sourceAttrs (T.row k) (T.column k)

lemma Finds.of {T : Transfer α} {l t k k' u v : ℕ} (hu : l + T.number k % T.columns = u)
    (hv : t + T.number k / T.columns = v) (hcolumn : u < T.width) (hrow : v < T.height)
    (hkept : T.cellsAfter k' v u = T.cells v u ∧ T.attrsAfter k' v u = T.attrs v u)
    (hcell : T.cells v u = T.source (T.row k) (T.column k)) (hattr : T.attrs v u = T.sourceAttrs (T.row k) (T.column k)) :
    T.Finds l t k k' := by
  subst hu hv
  exact ⟨hcolumn, hrow, hkept.1.trans hcell, hkept.2.trans hattr⟩

section Iterations

variable [DecidableEq α] {srcView dstView : Types.Viewport} {walkDirection : ℤ} {srcPos dstPos : Types.Point}
variable {b b' : TextBuffer α} {view : OutputCellView α} {p q : Types.Point × Bool}

lemma copyCells_succ (n : ℕ) (hread : b.getCellDataAt srcPos = .ok view)
    (hwrite : b.writeLine [view] dstPos none none = .ok b') (hsrc : srcView.walkInBounds srcPos walkDirection = p)
    (hdst : dstView.walkInBounds dstPos walkDirection = q) :
    copyCells srcView dstView walkDirection (n + 1) srcPos dstPos b =
      if q.2 then copyCells srcView dstView walkDirection n p.1 q.1 b' else .ok b' := by
  subst hsrc hdst
  rw [copyCells, hread]
  show (b.writeLine [view] dstPos none none >>= _) = _
  rw [hwrite]
  rfl

lemma moveCells_succ (n : ℕ) {next : OutputCellView α} (hsrc : srcView.walkInBounds srcPos walkDirection = p)
    (hread : b.getCellDataAt p.1 = .ok view) (hwrite : b.writeLine [next] dstPos none none = .ok b')
    (hdst : dstView.walkInBounds dstPos walkDirection = q) :
    moveCells srcView dstView walkDirection (n + 1) srcPos dstPos next b =
      if q.2 then moveCells srcView dstView walkDirection n p.1 q.1 view b' else .ok b' := by
  subst hsrc hdst
  rw [moveCells]
  show (b.getCellDataAt (srcView.walkInBounds srcPos walkDirection).1 >>= _) = _
  rw [hread]
  show (b.writeLine [next] dstPos none none >>= _) = _
  rw [hwrite]
  rfl

end Iterations

section Loops

variable {T} {b : TextBuffer α} {k k' l t m : ℕ}

lemma Finds.read (hb : b.Displays T.width T.height (T.cellsAfter k') (T.attrsAfter k')) (h : T.Finds l t k k') :
    ∃ view, b.getCellDataAt (position l t T.columns (T.number k)) = .ok view ∧ T.Holds k view := by
  obtain ⟨view, hok, hcell, hattr, hstored, hposition⟩ := hb.getCellDataAt h.column_lt h.row_lt
  have hchars := (hb.rows _ h.row_lt).text_ne_nil (l + T.number k % T.columns)
  rw [position_natCast]
  rw [← hcell] at hchars
  exact ⟨view, hok, ⟨hcell.trans h.cell, hchars, hattr.trans h.attr, hstored, hposition⟩⟩

/-- The position that is written in step `k`. -/
lemma position_target (k : ℕ) : position T.left T.top T.columns (T.number k) = ⟨T.column k, T.row k⟩ :=
  position_natCast _ _ _ _

variable [DecidableEq α]

/-- **The loop of `_ScrollRectVertically`**, from the step `k` on. -/
theorem copyCells_run (hcells : ∀ y, T.top ≤ y → y < T.top + T.lines → Paired (T.cells y))
    (hfinds : ∀ k < T.size, T.Finds l t k k) (hm : 0 < m) (hk : k + m = T.size)
    (hb : b.Displays T.width T.height (T.cellsAfter k) (T.attrsAfter k)) :
    ∃ b', copyCells (fromDimensions ⟨l, t⟩ T.columns T.lines) (fromDimensions ⟨T.left, T.top⟩ T.columns T.lines)
        (direction T.forward) m (position l t T.columns (T.number k)) (position T.left T.top T.columns (T.number k)) b =
          .ok b' ∧
      b'.Displays T.width T.height (T.cellsAfter T.size) (T.attrsAfter T.size) := by
  induction m generalizing k b with
  | zero => omega
  | succ m ih =>
    have hlt : k < T.size := by omega
    obtain ⟨view, hread, hview⟩ := (hfinds k hlt).read hb
    obtain ⟨b', hwrite, hb'⟩ := write hb hcells hlt hview
    rw [← position_target] at hwrite
    have hstep := copyCells_succ m hread hwrite
      (walkInBounds_visited hlt T.forward) (walkInBounds_visited hlt T.forward)
    rcases Nat.eq_zero_or_pos m with rfl | hpos
    · have hlast : T.size = k + 1 := by omega
      refine ⟨b', hstep.trans (if_neg ?_), hlast ▸ hb'⟩
      rw [decide_eq_true_eq]
      exact fun hmore => absurd hlast (by unfold size; omega)
    · have hmore : k + 1 < T.columns * T.lines := by
        show k + 1 < T.size
        omega
      obtain ⟨b'', hrest, hb''⟩ := ih hpos (by omega) hb'
      refine ⟨b'', (hstep.trans (if_pos (decide_eq_true hmore))).trans ?_, hb''⟩
      rw [Nat.min_eq_left (by omega)]
      exact hrest

/-- **The loop of `_ScrollRectHorizontally`**, from the step `k` on: each cell is read before the one before it is
written. -/
theorem moveCells_run (hcells : ∀ y, T.top ≤ y → y < T.top + T.lines → Paired (T.cells y))
    (hfinds : ∀ k < T.size, T.Finds l t k (k - 1)) (hright : l + T.columns ≤ T.width)
    (hbottom : t + T.lines ≤ T.height) (hm : 0 < m) (hk : k + m = T.size) (hb : b.Displays T.width T.height (T.cellsAfter k) (T.attrsAfter k))
    {next : OutputCellView α} (hnext : T.Holds k next) :
    ∃ b', moveCells (fromDimensions ⟨l, t⟩ T.columns T.lines) (fromDimensions ⟨T.left, T.top⟩ T.columns T.lines)
        (direction T.forward) m (position l t T.columns (T.number k)) (position T.left T.top T.columns (T.number k)) next
          b = .ok b' ∧
      b'.Displays T.width T.height (T.cellsAfter T.size) (T.attrsAfter T.size) := by
  induction m generalizing k b next with
  | zero => omega
  | succ m ih =>
    have hlt : k < T.size := by omega
    obtain ⟨b', hwrite, hb'⟩ := write hb hcells hlt hnext
    rw [← position_target] at hwrite
    have hsize : T.size = T.columns * T.lines := rfl
    rcases Nat.eq_zero_or_pos m with rfl | hpos
    · have hend : T.size - 1 = k := by omega
      have hdiv := div_lt_lines hlt
      have hmod := Nat.mod_lt k T.columns_pos
      have hvisited := visited_div_mod hlt T.forward
      -- The cell behind the last one is read again.
      obtain ⟨view, hread, -⟩ := hb.getCellDataAt (show l + T.number k % T.columns < T.width by
        unfold number
        rw [hvisited.2]
        generalize k % T.columns = i at *
        split <;> omega) (show t + T.number k / T.columns < T.height by
        unfold number
        rw [hvisited.1]
        generalize k / T.columns = i at *
        split <;> omega)
      rw [← position_natCast] at hread
      have hstep := moveCells_succ 0 (walkInBounds_visited hlt T.forward)
        (by rw [← hsize, Nat.min_eq_right (by omega), hend]; exact hread) hwrite
        (walkInBounds_visited hlt T.forward)
      refine ⟨b', hstep.trans (if_neg ?_), (show T.size = k + 1 by omega) ▸ hb'⟩
      rw [decide_eq_true_eq]
      omega
    · obtain ⟨view, hread, hview⟩ := (hfinds (k + 1) (by omega)).read hb
      have hstep := moveCells_succ m (walkInBounds_visited hlt T.forward)
        (by rw [← hsize, Nat.min_eq_left (by omega)]; exact hread) hwrite
        (walkInBounds_visited hlt T.forward)
      obtain ⟨b'', hrest, hb''⟩ := ih hpos (by omega) hb' hview
      refine ⟨b'', (hstep.trans (if_pos (decide_eq_true (by omega)))).trans ?_, hb''⟩
      rw [← hsize, Nat.min_eq_left (by omega)]
      exact hrest

/-- The loop of `_ScrollRectVertically` as a whole. -/
theorem copyCells_all (hb : b.Displays T.width T.height T.cells T.attrs) (hfinds : ∀ k < T.size, T.Finds l t k k) :
    ∃ b', copyCells (fromDimensions ⟨l, t⟩ T.columns T.lines) (fromDimensions ⟨T.left, T.top⟩ T.columns T.lines)
        (direction T.forward) T.size ((fromDimensions ⟨l, t⟩ T.columns T.lines).getWalkOrigin (direction T.forward))
        ((fromDimensions ⟨T.left, T.top⟩ T.columns T.lines).getWalkOrigin (direction T.forward)) b = .ok b' ∧
      b'.Displays T.width T.height (T.cellsAfter T.size) (T.attrsAfter T.size) := by
  have hcells : ∀ y, T.top ≤ y → y < T.top + T.lines → Paired (T.cells y) := fun y _ hy =>
    (hb.rows y (by have := T.bottom_le; omega)).fits.paired
  rw [getWalkOrigin_visited T.columns_pos T.lines_pos, getWalkOrigin_visited T.columns_pos T.lines_pos]
  exact copyCells_run hcells hfinds (Nat.mul_pos T.columns_pos T.lines_pos) (Nat.zero_add _)
    (by rw [cellsAfter_zero, attrsAfter_zero]; exact hb)

/-- The loop of `_ScrollRectHorizontally` as a whole, with the cell that is read before it. -/
theorem moveCells_all (hb : b.Displays T.width T.height T.cells T.attrs) (hfinds : ∀ k < T.size, T.Finds l t k (k - 1))
    (hright : l + T.columns ≤ T.width) (hbottom : t + T.lines ≤ T.height) :
    ∃ next b', b.getCellDataAt ((fromDimensions ⟨l, t⟩ T.columns T.lines).getWalkOrigin (direction T.forward)) =
        .ok next ∧
      moveCells (fromDimensions ⟨l, t⟩ T.columns T.lines) (fromDimensions ⟨T.left, T.top⟩ T.columns T.lines)
        (direction T.forward) T.size ((fromDimensions ⟨l, t⟩ T.columns T.lines).getWalkOrigin (direction T.forward))
        ((fromDimensions ⟨T.left, T.top⟩ T.columns T.lines).getWalkOrigin (direction T.forward)) next b = .ok b' ∧
      b'.Displays T.width T.height (T.cellsAfter T.size) (T.attrsAfter T.size) := by
  have hcells : ∀ y, T.top ≤ y → y < T.top + T.lines → Paired (T.cells y) := fun y _ hy =>
    (hb.rows y (by have := T.bottom_le; omega)).fits.paired
  have hsize : 0 < T.size := Nat.mul_pos T.columns_pos T.lines_pos
  have hb₀ : b.Displays T.width T.height (T.cellsAfter 0) (T.attrsAfter 0) := by
    rwa [cellsAfter_zero, attrsAfter_zero]
  obtain ⟨next, hread, hnext⟩ := (hfinds 0 hsize).read hb₀
  obtain ⟨b', hok, hb'⟩ := moveCells_run hcells hfinds hright hbottom hsize (Nat.zero_add _) hb₀ hnext
  rw [getWalkOrigin_visited T.columns_pos T.lines_pos, getWalkOrigin_visited T.columns_pos T.lines_pos]
  exact ⟨next, b', hread, hok, hb'⟩

end Loops

end Transfer

end VT7.Adapter
