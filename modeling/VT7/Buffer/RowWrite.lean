import VT7.Buffer.Glyphs

/-!
# What a write leaves in a row

`Row.Holds` ties a row to its glyphs.  Every write into a row ends in `WriteHelper::Finish`, which makes
room for the new text, moves the text and the offsets behind it and fills the halves of wide glyphs that
were cut with spaces; `finish_spec` says what the row is then, as long as its text stays shorter than
0x8000 code units.
-/

namespace VT7.Buffer

open VT7.Lib.Filling

variable {α : Type}

/-- The row stands for these glyphs. -/
structure Row.Holds (r : Row α) (gs : List Glyph) : Prop where
  columns : cols gs = r.columnCount
  offsets : r.charOffsets = offsetsFrom 0 gs
  text : r.chars.take (units gs) = textOf gs
  short : units gs < 0x8000

/-! ### Lists -/

section Lists

variable {β : Type}

@[simp] lemma overwrite_nil (l : List β) (i : ℕ) : overwrite l i [] = l := by simp [overwrite]

/-- Writing over a middle part of the same length. -/
lemma overwrite_middle {p m s xs : List β} {i : ℕ} (hi : i = p.length) (h : m.length = xs.length) :
    overwrite (p ++ (m ++ s)) i xs = p ++ (xs ++ s) := by
  subst hi
  rw [overwrite, List.take_left, ← h, ← List.length_append, ← List.append_assoc p m s, List.drop_left,
    List.append_assoc]

lemma length_overwrite {l xs : List β} {i : ℕ} (h : i + xs.length ≤ l.length) :
    (overwrite l i xs).length = l.length := by
  simp only [overwrite, List.length_append, List.length_take, List.length_drop]
  omega

/-- Writing inside a front part. -/
lemma overwrite_append {l s xs : List β} {i : ℕ} (h : i + xs.length ≤ l.length ∨ xs = []) :
    overwrite (l ++ s) i xs = overwrite l i xs ++ s := by
  rcases h with h | rfl
  · rw [overwrite, overwrite, List.take_append_of_le_length (by omega), List.drop_append_of_le_length h]
    simp
  · simp

lemma length_overwrite_of {l xs : List β} {i : ℕ} (h : i + xs.length ≤ l.length ∨ xs = []) :
    (overwrite l i xs).length = l.length := by
  rcases h with h | rfl
  · exact length_overwrite h
  · rw [overwrite_nil]

/-- A list in four parts. -/
lemma four_parts (l : List β) {c e : ℕ} (n : ℕ) (h : c ≤ e) :
    l = l.take c ++ ((l.drop c).take (e - c) ++ ((l.drop e).take n ++ l.drop (e + n))) := by
  have htail : (l.drop e).take n ++ l.drop (e + n) = l.drop e := by
    rw [← List.drop_drop, List.take_append_drop]
  have hmid : (l.drop c).take (e - c) ++ l.drop e = l.drop c := by
    have := List.take_append_drop (e - c) (l.drop c)
    rwa [List.drop_drop, Nat.add_sub_cancel' h] at this
  rw [htail, hmid, List.take_append_drop]

lemma exists_split {l : List β} {n : ℕ} (h : n ≤ l.length) : ∃ p s, l = p ++ s ∧ p.length = n :=
  ⟨l.take n, l.drop n, (List.take_append_drop n l).symm, by simp [h]⟩

end Lists

lemma ok_of_bind {ε β γ : Type} {first : Except ε β} {next : β → Except ε γ} {c : γ}
    (h : (first >>= next) = .ok c) : ∃ b, first = .ok b ∧ next b = .ok c := by
  cases first with
  | error e => cases h
  | ok b => exact ⟨b, rfl, h⟩

lemma iota_eq {n first : ℕ} (h : first + n ≤ 0x8000) : iota n first = columnsFrom first (blanks n) := by
  rw [iota, columnsFrom_blanks]
  refine List.map_congr_left fun i hi => ?_
  have := List.mem_range.mp hi
  exact u16_of_lt (by omega)

@[simp] lemma length_iota (n first : ℕ) : (iota n first).length = n := by simp [iota]

/-! ### Offsets behind a write -/

/-- Moving the offsets behind a write. -/
lemma map_move_offsetsFrom (o o' first first' : ℕ) (gs : List Glyph) (h : o + units gs < 0x8000)
    (h' : o' + units gs < 0x8000) (hfirst : first ≤ o) (heq : o' + first = o + first') :
    (offsetsFrom o gs).map (fun it => u16 (it + first' + 0x10000 - first)) = offsetsFrom o' gs := by
  induction gs generalizing o o' with
  | nil =>
    simp only [units_nil] at h h'
    have hhead : u16 (o + first' + 0x10000 - first) = o' := by
      unfold u16
      omega
    simp [offsetsFrom, hhead]
  | cons g gs ih =>
    simp only [units_cons] at h h'
    have hhead : u16 (o + first' + 0x10000 - first) = o' := by
      unfold u16
      omega
    have htrail : u16 (o + 0x8000 + first' + 0x10000 - first) = o' + 0x8000 := by
      unfold u16
      omega
    have hrest := @ih (o + g.text.length) (o' + g.text.length) (by omega) (by omega) (by omega) (by omega)
    rw [offsetsFrom_cons, offsetsFrom_cons, List.map_cons, List.map_append, List.map_replicate, hhead,
      htrail, hrest]

/-- The glyphs that begin at column `k` or behind it. -/
def beyond : ℕ → List Glyph → List Glyph
  | _, [] => []
  | k, g :: gs => if k = 0 then g :: gs else beyond (k - g.width) gs

lemma beyond_zero (gs : List Glyph) : beyond 0 gs = gs := by
  cases gs <;> rfl

/-- The loop forward stops behind the glyph of a column. -/
lemma stepForward_spec (o : ℕ) (gs : List Glyph) (h : o + units gs < 0x8000) {k : ℕ} (hk : k ≤ cols gs) :
    ∃ p, gs = p ++ beyond k gs ∧ stepForward (offsetsFrom o gs) k = cols p ∧ k ≤ cols p ∧
      cols p ≤ k + 1 := by
  induction gs generalizing o k with
  | nil =>
    obtain rfl : k = 0 := by simpa using hk
    have hzero := stepForward_offsetsFrom (o := o) [] [] (by simpa using h)
    exact ⟨[], rfl, hzero, le_refl _, Nat.zero_le _⟩
  | cons g gs ih =>
    have hwidth := g.width_le
    have hpos := g.width_pos
    by_cases hzero : k = 0
    · subst hzero
      exact ⟨[], by simp [beyond], stepForward_offsetsFrom [] _ (by simpa using h), le_refl _,
        Nat.zero_le _⟩
    · simp only [units_cons, cols_cons] at h hk
      obtain ⟨p, hsplit, hstep, hle, hle'⟩ := ih (k := k - g.width) (o + g.text.length) (by omega)
        (by omega)
      have hnone : k < g.width → cols p = 0 := by
        intro hlt
        rw [Nat.sub_eq_zero_of_le hlt.le, beyond_zero, List.self_eq_append_left] at hsplit
        rw [hsplit, cols_nil]
      have hbeyond : beyond k (g :: gs) = beyond (k - g.width) gs := by rw [beyond, if_neg hzero]
      refine ⟨g :: p, by rw [hbeyond, List.cons_append, ← hsplit], ?_, by rw [cols_cons]; omega,
        by rw [cols_cons]; omega⟩
      rw [cols_cons, ← hstep, stepForward, stepForward, offsetsFrom_cons]
      by_cases hover : g.width ≤ k
      · have hdrop : (o :: (List.replicate (g.width - 1) (o + 0x8000) ++
            offsetsFrom (o + g.text.length) gs)).drop k =
            (offsetsFrom (o + g.text.length) gs).drop (k - g.width) := by
          obtain ⟨i, rfl⟩ := Nat.exists_eq_add_of_le hover
          rw [← List.cons_append, ← List.drop_drop, List.drop_left' (by simp; omega), Nat.add_sub_cancel_left]
        rw [hdrop]
        omega
      · -- the column is the second one of `g`
        obtain rfl : k = 1 := by omega
        have htwo : g.width = 2 := by omega
        have htrailer := isTrailer_trailer (o := o) (by omega)
        rw [htwo]
        simp only [Nat.add_one_sub_one, List.replicate_one, List.drop_succ_cons, List.drop_zero,
          List.cons_append, List.nil_append, List.takeWhile_cons, htrailer, if_true, List.length_cons]
        simp only [Nat.reduceSub, List.drop_zero]
        omega

/-- The masked offset of a column is the offset of its glyph. -/
lemma masked_getD {o : ℕ} {gs : List Glyph} (h : o + units gs < 0x8000) {k : ℕ} (hk : k ≤ cols gs) :
    (offsetsFrom o gs).getD k 0 &&& charOffsetsMask = o + units (upTo k gs) := by
  rcases upTo_spec k gs with hall | ⟨g, rest, hsplit, hg⟩
  · have hle := cols_upTo_le k gs
    rw [hall] at hle ⊢
    obtain rfl : k = cols gs := le_antisymm hk hle
    have hget := getD_offsetsFrom o gs []
    rw [List.append_nil] at hget
    rw [hget, and_mask, Nat.mod_eq_of_lt h]
  · have hle := cols_upTo_le k gs
    generalize upTo k gs = f at hsplit hg hle ⊢
    have hwidth := g.width_le
    have hunits : o + units f < 0x8000 := by
      rw [hsplit, units_append] at h
      omega
    rcases Nat.eq_or_lt_of_le hle with heq | hlt
    · rw [← heq, hsplit, getD_offsetsFrom, and_mask, Nat.mod_eq_of_lt hunits]
    · obtain rfl : k = cols f + 1 := by omega
      rw [hsplit, getD_offsetsFrom_trailer o f g rest (by omega), and_mask]
      omega

namespace Row.Holds

variable {r : Row α} {gs : List Glyph}

/-- Only the text and the offsets matter. -/
lemma congr {r' : Row α} (h : r.Holds gs) (hchars : r'.chars = r.chars) (hoffsets : r'.charOffsets = r.charOffsets)
    (hcount : r'.columnCount = r.columnCount) : r'.Holds gs :=
  ⟨hcount ▸ h.columns, hoffsets ▸ h.offsets, hchars ▸ h.text, h.short⟩

lemma charSize (h : r.Holds gs) : r.charSize = units gs := by
  have hget := getD_offsetsFrom 0 gs []
  rw [List.append_nil, Nat.zero_add] at hget
  rw [Row.charSize, h.offsets, ← h.columns, hget]

lemma units_le (h : r.Holds gs) : units gs ≤ r.chars.length := by
  have hlen := congrArg List.length h.text
  rw [List.length_take, length_textOf] at hlen
  omega

lemma uncheckedCharOffset (h : r.Holds gs) {k : ℕ} (hk : k ≤ r.columnCount) :
    r.uncheckedCharOffset k = units (upTo k gs) := by
  rw [Row.uncheckedCharOffset, h.offsets, masked_getD (by simpa using h.short) (by rwa [h.columns]), Nat.zero_add]

lemma adjustBackward (h : r.Holds gs) {k : ℕ} (hk : k ≤ r.columnCount) :
    r.adjustBackward k = cols (upTo k gs) := by
  rw [Row.adjustBackward, h.offsets, stepBack_offsetsFrom (by simpa using h.short) (by rwa [h.columns])]

/-- The text of some glyphs. -/
lemma text_part {a b c : List Glyph} (h : r.Holds (a ++ (b ++ c))) :
    (r.chars.drop (units a)).take (units b) = textOf b := by
  have htext := congrArg (fun l => (l.drop (units a)).take (units b)) h.text
  simp only [textOf_append] at htext
  rw [List.drop_take, List.take_take, ← length_textOf a, List.drop_left, ← length_textOf b, List.take_left] at htext
  simpa using htext

end Row.Holds

/-! ### `_resizeChars` -/

/-- The text behind the written range is in its new place; between it and the text before the range is
room for the new text. -/
lemma resizeChars_spec (r : Row α) (colEndDirty : ℕ) {c e o : ℕ} (hce : c ≤ e) (hco : c ≤ o)
    (ho : o ≤ r.charSize) (hsize : r.charSize ≤ r.chars.length) (hnew : r.charSize + e < 0x8000 + o) :
    ∃ mid junk, mid.length = e - c ∧ r.resizeChars colEndDirty c e o =
      .ok { r with
        chars := r.chars.take c ++ (mid ++ ((r.chars.drop o).take (r.charSize - o) ++ junk))
        charOffsets := r.charOffsets.take colEndDirty ++
          (r.charOffsets.drop colEndDirty).map fun it => u16 (it + e + 0x10000 - o) } := by
  have hmoved : ((r.chars.drop o).take (r.charSize - o)).length = r.charSize - o := by
    rw [List.length_take, List.length_drop]
    omega
  by_cases hfit : r.charSize + e - o ≤ r.chars.length
  · refine ⟨(r.chars.drop c).take (e - c), r.chars.drop (e + (r.charSize - o)), ?_, ?_⟩
    · rw [List.length_take, List.length_drop]
      omega
    · have htake : r.chars.take e = r.chars.take c ++ (r.chars.drop c).take (e - c) := by
        have := List.take_add (l := r.chars) (i := c) (j := e - c)
        rwa [Nat.add_sub_cancel' hce] at this
      rw [Row.resizeChars, if_pos hfit, overwrite, hmoved, htake]
      simp
  · -- a longer array is allocated: only the text is copied to it
    set capacity := max (r.charSize + e - o) (min 0xffff (r.chars.length + r.chars.length / 2)) with hcapacity
    have hroom : e + (r.charSize - o) ≤ capacity := by omega
    have hbound : ¬ 0xffff < capacity := by omega
    refine ⟨List.replicate (e - c) 0, List.replicate (capacity - (e + (r.charSize - o))) 0, by simp, ?_⟩
    have hc : (r.chars.take c).length = c := by
      rw [List.length_take]
      omega
    simp only [Row.resizeChars, if_neg hfit, ← hcapacity, if_neg hbound]
    rw [overwrite, overwrite, hmoved, hc]
    have htake : (r.chars.take c ++ List.replicate (capacity - c) 0).take e =
        r.chars.take c ++ List.replicate (e - c) 0 := by
      rw [List.take_append, hc, List.take_of_length_le (by omega), List.take_replicate,
        Nat.min_eq_left (by omega)]
    have hdrop : (r.chars.take c ++ List.replicate (capacity - c) 0).drop (e + (r.charSize - o)) =
        List.replicate (capacity - (e + (r.charSize - o))) 0 := by
      rw [List.drop_append, hc, List.drop_of_length_le (by omega), List.nil_append, List.drop_replicate]
      congr 1
      omega
    simp [htake, hdrop]

/-! ### The glyphs behind a write -/

/-- The glyphs of a row into which `new` was written from column `x` on, when everything up to column `k`
was given up for it. -/
def overlaid (gs : List Glyph) (x k : ℕ) (new : List Glyph) : List Glyph :=
  upTo x gs ++ (blanks (x - cols (upTo x gs)) ++ (new ++
    (blanks (cols gs - cols (beyond k gs) - (x + cols new)) ++ beyond k gs)))

/-- The offsets before the new text: the first column of a cut glyph becomes a space. -/
lemma overwrite_leading {gs : List Glyph} {x : ℕ} (hx : x ≤ cols gs) (copied : List ℕ) :
    overwrite ((offsetsFrom 0 gs).take x ++ copied) (cols (upTo x gs))
      (iota (x - cols (upTo x gs)) (units (upTo x gs))) =
      columnsFrom 0 (upTo x gs) ++ (iota (x - cols (upTo x gs)) (units (upTo x gs)) ++ copied) := by
  have hle := cols_upTo_le x gs
  obtain ⟨rest, hrest⟩ : upTo x gs <+: gs := fitting_isPrefix _ x gs
  generalize upTo x gs = a at *
  have htake : (offsetsFrom 0 gs).take x =
      columnsFrom 0 a ++ ((offsetsFrom 0 gs).drop (cols a)).take (x - cols a) := by
    have := List.take_add (l := offsetsFrom 0 gs) (i := cols a) (j := x - cols a)
    rw [Nat.add_sub_cancel' hle] at this
    rw [this, ← hrest, take_offsetsFrom]
  rw [htake, List.append_assoc]
  refine overwrite_middle (length_columnsFrom 0 a).symm ?_
  rw [List.length_take, List.length_drop, length_offsetsFrom, length_iota]
  omega

lemma upTo_units_le {gs : List Glyph} {x k : ℕ} (hxk : x ≤ k) (hk : k ≤ cols gs) (hshort : units gs < 0x8000) :
    units (upTo x gs) + units (beyond k gs) ≤ units gs := by
  obtain ⟨p, hsplit, -, hp, -⟩ := stepForward_spec 0 gs (by simpa using hshort) hk
  have hle := cols_upTo_le x gs
  have hprefix : upTo x gs <+: gs := fitting_isPrefix _ x gs
  have hunits : units gs = units p + units (beyond k gs) := by
    have := congrArg units hsplit
    rwa [units_append] at this
  rcases List.prefix_or_prefix_of_prefix hprefix ⟨_, hsplit.symm⟩ with ⟨t, ht⟩ | ⟨t, ht⟩
  · rw [hunits, ← ht, units_append]
    omega
  · have hcols := congrArg cols ht
    rw [cols_append] at hcols
    have hnil : t = [] := by
      by_contra hne
      have := cols_pos hne
      omega
    rw [hunits, ← ht, hnil, List.append_nil]

/-! ### `Finish` -/

namespace WriteHelper

/-- What a helper says of its row when `Finish` is called: the glyphs `p` end where the written range
ends, the glyphs `b` behind it are as before, and the columns before `colEnd` have the offsets `written`. -/
structure Ready (h : WriteHelper α) (p b : List Glyph) (written : List ℕ) : Prop where
  columns : cols (p ++ b) = h.row.columnCount
  text : h.row.chars.take (units (p ++ b)) = textOf (p ++ b)
  short : units (p ++ b) < 0x8000
  colEndDirty : h.row.adjustForward h.colEndDirty = cols p
  colEnd : h.colEnd ≤ cols p
  before : h.row.charOffsets.take h.colEnd = written
  behind : h.row.charOffsets.drop (cols p) = offsetsFrom (units p) b
  leading : h.colBegDirty + h.leadingSpaces ≤ h.colEnd ∨ h.leadingSpaces = 0
  chBeg : h.chBeg = h.chBegDirty + h.leadingSpaces
  chBegDirty : h.chBegDirty ≤ units p
  consumed : h.charsConsumed ≤ h.chars.length

variable {h : WriteHelper α} {p b : List Glyph} {written : List ℕ}

/-- Where the text behind the written range begins afterwards. -/
def newEnd (h : WriteHelper α) (p : List Glyph) : ℕ :=
  h.chBegDirty + h.charsConsumed + h.leadingSpaces + (cols p - h.colEnd)

namespace Ready

lemma getD_behind (hr : h.Ready p b written) (i : ℕ) :
    h.row.charOffsets.getD (cols p + i) 0 = (offsetsFrom (units p) b).getD i 0 := by
  rw [← hr.behind]
  simp [List.getD_eq_getElem?_getD, List.getElem?_drop]

lemma charSize (hr : h.Ready p b written) : h.row.charSize = units (p ++ b) := by
  have hget := getD_offsetsFrom (units p) b []
  rw [List.append_nil, ← hr.getD_behind, ← cols_append, hr.columns] at hget
  rw [Row.charSize, hget, units_append]

lemma uncheckedCharOffset (hr : h.Ready p b written) : h.row.uncheckedCharOffset (cols p) = units p := by
  have hget := getD_offsetsFrom (units p) [] b
  have hshort := hr.short
  rw [units_append] at hshort
  rw [List.nil_append, cols_nil, ← hr.getD_behind, Nat.add_zero, units_nil, Nat.add_zero] at hget
  rw [Row.uncheckedCharOffset, hget, and_mask, Nat.mod_eq_of_lt (by omega)]

lemma tail (hr : h.Ready p b written) : (h.row.chars.drop (units p)).take (units b) = textOf b := by
  have htext := congrArg (List.drop (units p)) hr.text
  rw [textOf_append, units_append, ← length_textOf p, List.drop_left, List.drop_take, Nat.add_sub_cancel_left] at htext
  simpa using htext

lemma units_le (hr : h.Ready p b written) : units (p ++ b) ≤ h.row.chars.length := by
  have hlen := congrArg List.length hr.text
  rw [List.length_take, length_textOf] at hlen
  omega

/-- Room is made for the new text. -/
lemma makeRoom (hr : h.Ready p b written) (hnew : h.newEnd p + units b < 0x8000) :
    ∃ mid junk, mid.length = h.newEnd p - h.chBegDirty ∧
      (if h.newEnd p ≠ units p then h.row.resizeChars (cols p) h.chBegDirty (h.newEnd p) (units p)
        else .ok h.row) =
      .ok { h.row with
        chars := h.row.chars.take h.chBegDirty ++ (mid ++ (textOf b ++ junk))
        charOffsets := h.row.charOffsets.take (cols p) ++ offsetsFrom (h.newEnd p) b } := by
  have hle := hr.chBegDirty
  have hshort := hr.short
  have hsize := hr.charSize
  have htail := hr.tail
  rw [units_append] at hshort hsize
  by_cases heq : h.newEnd p = units p
  · refine ⟨(h.row.chars.drop h.chBegDirty).take (units p - h.chBegDirty),
      h.row.chars.drop (units p + units b), ?_, ?_⟩
    · have := hr.units_le
      rw [units_append] at this
      rw [List.length_take, List.length_drop, heq]
      omega
    · have hchars := four_parts h.row.chars (units b) hle
      rw [htail] at hchars
      rw [if_neg (by simpa using heq), ← hchars, heq, ← hr.behind, List.take_append_drop]
  · have hbound : h.row.charSize + h.newEnd p < 0x8000 + units p := by omega
    have hlower : h.chBegDirty ≤ h.newEnd p := by
      unfold newEnd
      omega
    obtain ⟨mid, junk, hmid, hresize⟩ := resizeChars_spec h.row (cols p) (e := h.newEnd p) hlower hle
      (by omega) (by rw [hr.charSize]; exact hr.units_le) hbound
    have hmove := map_move_offsetsFrom (units p) (h.newEnd p) (units p) (h.newEnd p) b hshort hnew (le_refl _) (Nat.add_comm _ _)
    rw [hsize, Nat.add_sub_cancel_left, htail, hr.behind, hmove] at hresize
    exact ⟨mid, junk, hmid, by rw [if_pos heq, hresize]⟩

end Ready

/-- The row behind `Finish`. -/
theorem finish_spec (hr : h.Ready p b written) (hlen : written.length = h.colEnd)
    (hnew : h.newEnd p + units b < 0x8000) :
    ∃ row, h.finish = .ok { h with row := row, colEndDirty := cols p } ∧
      row = { h.row with
        chars := row.chars
        charOffsets := overwrite written h.colBegDirty (iota h.leadingSpaces h.chBegDirty) ++
          (iota (cols p - h.colEnd) (u16 (h.chBeg + h.charsConsumed)) ++ offsetsFrom (h.newEnd p) b)
        doubleBytePadded :=
          if cols p = h.row.columnCount then h.colEnd < h.row.columnCount
          else h.row.doubleBytePadded } ∧
      row.chars.take (h.newEnd p + units b) =
        h.row.chars.take h.chBegDirty ++ (List.replicate h.leadingSpaces space ++
          (h.chars.take h.charsConsumed ++ (List.replicate (cols p - h.colEnd) space ++ textOf b))) := by
  obtain ⟨mid, junk, hmid, hroom⟩ := hr.makeRoom hnew
  have hdirty : (h.row.chars.take h.chBegDirty).length = h.chBegDirty := by
    have := hr.units_le
    have := hr.chBegDirty
    rw [units_append] at *
    rw [List.length_take]
    omega
  have htext : (h.chars.take h.charsConsumed).length = h.charsConsumed := by
    rw [List.length_take]
    exact Nat.min_eq_left hr.consumed
  -- the room for the leading spaces, the text and the trailing spaces
  obtain ⟨lead, rest, rfl, hlead⟩ := exists_split (l := mid) (n := h.leadingSpaces) (by
    rw [hmid, newEnd]; omega)
  obtain ⟨body, trail, rfl, hbody⟩ := exists_split (l := rest) (n := h.charsConsumed) (by
    rw [List.length_append, hlead] at hmid
    unfold newEnd at hmid
    omega)
  have htrail : trail.length = cols p - h.colEnd := by
    rw [List.length_append, List.length_append, hlead, hbody] at hmid
    unfold newEnd at hmid
    omega
  have hchars : ∀ front : List UInt16, front.length = h.chBegDirty →
      overwrite (overwrite (overwrite (front ++ ((lead ++ (body ++ trail)) ++ (textOf b ++ junk))) h.chBeg
        (h.chars.take h.charsConsumed)) h.chBegDirty (List.replicate h.leadingSpaces space))
        (h.chBeg + h.charsConsumed) (List.replicate (cols p - h.colEnd) space) =
      front ++ (List.replicate h.leadingSpaces space ++ (h.chars.take h.charsConsumed ++
        (List.replicate (cols p - h.colEnd) space ++ (textOf b ++ junk)))) := by
    intro front hfront
    have hfirst : overwrite (front ++ ((lead ++ (body ++ trail)) ++ (textOf b ++ junk))) h.chBeg
        (h.chars.take h.charsConsumed) =
        (front ++ lead) ++ (h.chars.take h.charsConsumed ++ (trail ++ (textOf b ++ junk))) := by
      have hplace : h.chBeg = (front ++ lead).length := by
        rw [List.length_append, hfront, hlead, hr.chBeg]
      have := overwrite_middle (s := trail ++ (textOf b ++ junk)) hplace (hbody.trans htext.symm)
      simpa [List.append_assoc] using this
    have hsecond : overwrite ((front ++ lead) ++ (h.chars.take h.charsConsumed ++
        (trail ++ (textOf b ++ junk)))) h.chBegDirty (List.replicate h.leadingSpaces space) =
        front ++ (List.replicate h.leadingSpaces space ++ (h.chars.take h.charsConsumed ++
          (trail ++ (textOf b ++ junk)))) := by
      rw [List.append_assoc]
      exact overwrite_middle hfront.symm (by simp [hlead])
    rw [hfirst, hsecond]
    have hplace : h.chBeg + h.charsConsumed =
        (front ++ (List.replicate h.leadingSpaces space ++ h.chars.take h.charsConsumed)).length := by
      simp only [List.length_append, List.length_replicate, hfront, htext, hr.chBeg]
      omega
    have hlength : trail.length = (List.replicate (cols p - h.colEnd) space).length := by
      rw [htrail, List.length_replicate]
    have := overwrite_middle (s := textOf b ++ junk) hplace hlength
    simpa [List.append_assoc] using this
  have hoffsets : overwrite (overwrite (h.row.charOffsets.take (cols p) ++ offsetsFrom (h.newEnd p) b)
      h.colBegDirty (iota h.leadingSpaces h.chBegDirty)) h.colEnd
      (iota (cols p - h.colEnd) (u16 (h.chBeg + h.charsConsumed))) =
      overwrite written h.colBegDirty (iota h.leadingSpaces h.chBegDirty) ++
        (iota (cols p - h.colEnd) (u16 (h.chBeg + h.charsConsumed)) ++ offsetsFrom (h.newEnd p) b) := by
    have hinside : h.colBegDirty + (iota h.leadingSpaces h.chBegDirty).length ≤ written.length ∨
        iota h.leadingSpaces h.chBegDirty = [] := by
      rw [length_iota, hlen]
      refine hr.leading.imp id fun hzero => ?_
      rw [hzero]
      rfl
    have htake : h.row.charOffsets.take (cols p) =
        written ++ (h.row.charOffsets.drop h.colEnd).take (cols p - h.colEnd) := by
      have := List.take_add (l := h.row.charOffsets) (i := h.colEnd) (j := cols p - h.colEnd)
      rwa [Nat.add_sub_cancel' hr.colEnd, hr.before] at this
    have hgap : ((h.row.charOffsets.drop h.colEnd).take (cols p - h.colEnd)).length = cols p - h.colEnd := by
      have hlength := congrArg List.length hr.behind
      rw [List.length_drop, length_offsetsFrom] at hlength
      rw [List.length_take, List.length_drop]
      omega
    rw [htake, List.append_assoc, overwrite_append hinside]
    exact overwrite_middle (by rw [length_overwrite_of hinside, hlen]) (by rw [hgap, length_iota])
  refine ⟨h.fillIn { h.row with
      chars := h.row.chars.take h.chBegDirty ++ ((lead ++ (body ++ trail)) ++ (textOf b ++ junk))
      charOffsets := h.row.charOffsets.take (cols p) ++ offsetsFrom (h.newEnd p) b }
    (cols p) (cols p - h.colEnd), ?_, ?_, ?_⟩
  · unfold finish
    simp only [hr.colEndDirty, hr.uncheckedCharOffset]
    rw [← newEnd, hroom]
    rfl
  · simp only [fillIn, hoffsets]
  · simp only [fillIn]
    rw [hchars _ hdirty]
    have hlength : h.newEnd p + units b = (h.row.chars.take h.chBegDirty ++
        (List.replicate h.leadingSpaces space ++ (h.chars.take h.charsConsumed ++
          (List.replicate (cols p - h.colEnd) space ++ textOf b)))).length := by
      simp only [List.length_append, List.length_replicate, hdirty, htext, length_textOf, newEnd]
      omega
    rw [hlength]
    simp only [← List.append_assoc]
    rw [List.take_left]

/-- The columns between the written text and the glyphs that stay. -/
def trailing (h : WriteHelper α) (gs : List Glyph) : ℕ :=
  cols gs - cols (beyond h.colEndDirty gs) - h.colEnd

/-- **What `Finish` leaves**: the glyphs `front` up to `colEnd`, spaces, and the glyphs of the row that
begin behind the written range. -/
theorem finish_holds {r : Row α} {gs : List Glyph} (front : List Glyph) (hr : r.Holds gs)
    (hrow : h.row = { r with charOffsets := h.row.charOffsets })
    (hcols : cols front = h.colEnd) (hle : h.colEnd ≤ h.colEndDirty) (hdirty : h.colEndDirty ≤ r.columnCount)
    (hlead : h.colBegDirty + h.leadingSpaces ≤ h.colEnd ∨ h.leadingSpaces = 0)
    (hchBeg : h.chBeg = h.chBegDirty + h.leadingSpaces)
    (hchBegDirty : h.chBegDirty + units (beyond h.colEndDirty gs) ≤ units gs)
    (hconsumed : h.charsConsumed ≤ h.chars.length)
    (hdrop : h.row.charOffsets.drop h.colEndDirty = r.charOffsets.drop h.colEndDirty)
    (hoffsets : overwrite (h.row.charOffsets.take h.colEnd) h.colBegDirty (iota h.leadingSpaces h.chBegDirty) =
      columnsFrom 0 front)
    (htext : r.chars.take h.chBegDirty ++ (List.replicate h.leadingSpaces space ++
      h.chars.take h.charsConsumed) = textOf front)
    (hnew : units front + h.trailing gs + units (beyond h.colEndDirty gs) < 0x8000) :
    ∃ row, h.finish = .ok { h with row := row, colEndDirty := h.colEnd + h.trailing gs } ∧
      row.Holds (front ++ (blanks (h.trailing gs) ++ beyond h.colEndDirty gs)) ∧
      row = { r with
        chars := row.chars
        charOffsets := row.charOffsets
        doubleBytePadded :=
          if h.colEnd + h.trailing gs = r.columnCount then h.colEnd < r.columnCount
          else r.doubleBytePadded } := by
  have hcolumns := hr.columns
  obtain ⟨p, hsplit, hstep, hk, hk'⟩ := stepForward_spec 0 gs (by simpa using hr.short)
    (hcolumns ▸ hdirty)
  generalize hb : beyond h.colEndDirty gs = b at *
  have hcount : h.row.columnCount = r.columnCount := by rw [hrow]
  have hchars : h.row.chars = r.chars := by rw [hrow]
  have htrailing : h.trailing gs = cols p - h.colEnd := by
    rw [trailing, hb, hsplit, cols_append, Nat.add_sub_cancel]
  have hunits := hr.short
  rw [hsplit, units_append] at hunits
  have hready : h.Ready p b (h.row.charOffsets.take h.colEnd) := by
    refine ⟨by rw [← hsplit, hcolumns, hcount], by rw [hchars, ← hsplit, hr.text], by rw [← hsplit]; exact hr.short, ?_,
      by omega, rfl, ?_, hlead, hchBeg, ?_, hconsumed⟩
    · rw [Row.adjustForward, stepForward, hdrop, hr.offsets]
      exact hstep
    · have hdrop' := congrArg (List.drop (cols p - h.colEndDirty)) hdrop
      rw [List.drop_drop, List.drop_drop, Nat.add_sub_cancel' hk, hr.offsets, hsplit, drop_offsetsFrom,
        Nat.zero_add] at hdrop'
      exact hdrop'
    · rw [hsplit, units_append] at hchBegDirty
      omega
  have hlen : (h.row.charOffsets.take h.colEnd).length = h.colEnd := by
    have hlength := congrArg List.length hoffsets
    rwa [length_overwrite_of, length_columnsFrom, hcols] at hlength
    rw [length_iota]
    have hmin : (h.row.charOffsets.take h.colEnd).length = h.colEnd := by
      have hdrop' := congrArg List.length hdrop
      rw [List.length_drop, List.length_drop, hr.offsets, length_offsetsFrom] at hdrop'
      rw [List.length_take]
      omega
    rw [hmin]
    refine hlead.imp id fun hzero => ?_
    rw [hzero]
    rfl
  have hlength : units front = h.chBegDirty + h.leadingSpaces + h.charsConsumed := by
    have hlength := congrArg List.length htext
    have hroom := hr.units_le
    simp only [List.length_append, List.length_take, List.length_replicate, length_textOf] at hlength
    omega
  have hend : h.newEnd p = units front + h.trailing gs := by
    rw [newEnd, hlength, htrailing]
    omega
  obtain ⟨row, hfinish, hfields, hrowtext⟩ := finish_spec hready hlen (by rw [hend]; exact hnew)
  have hp : h.colEnd + h.trailing gs = cols p := by omega
  have hnewoffsets : row.charOffsets = offsetsFrom 0 (front ++ (blanks (h.trailing gs) ++ b)) := by
    rw [hfields]
    dsimp only
    have hstart : u16 (h.chBeg + h.charsConsumed) = units front := by
      rw [hchBeg, hlength, u16_of_lt (by omega)]
    rw [hoffsets, hstart, ← htrailing, iota_eq (by omega), hend, offsetsFrom_append, offsetsFrom_append,
      units_blanks, Nat.zero_add]
  rw [← hp] at hfinish hfields
  refine ⟨row, hfinish, ⟨?_, hnewoffsets, ?_, by simp only [units_append, units_blanks]; omega⟩, ?_⟩
  · have hsame : row.columnCount = r.columnCount := by rw [hfields]; exact hcount
    have hparts := congrArg cols hsplit
    rw [cols_append] at hparts
    rw [hsame]
    simp only [cols_append, cols_blanks]
    omega
  · rw [hend, ← htrailing, hchars] at hrowtext
    simp only [units_append, units_blanks, textOf_append, textOf_blanks]
    rw [← Nat.add_assoc, hrowtext, ← htext]
    simp [List.append_assoc]
  · rw [hfields]
    dsimp only
    rw [hcount, hrow]

/-- `Finish` behind a write that joins nothing. -/
theorem finish_overlaid {r : Row α} {gs : List Glyph} (new : List Glyph) (hr : r.Holds gs) {x : ℕ}
    (hrow : h.row = { r with charOffsets := h.row.charOffsets })
    (hcolBegDirty : h.colBegDirty = cols (upTo x gs)) (hleading : h.leadingSpaces = x - cols (upTo x gs))
    (hchBegDirty : h.chBegDirty = units (upTo x gs)) (hchBeg : h.chBeg = h.chBegDirty + h.leadingSpaces)
    (hcolEnd : h.colEnd = x + cols new) (hle : h.colEnd ≤ h.colEndDirty) (hdirty : h.colEndDirty ≤ r.columnCount)
    (htake : h.row.charOffsets.take h.colEnd = r.charOffsets.take x ++ columnsFrom h.chBeg new)
    (hdrop : h.row.charOffsets.drop h.colEndDirty = r.charOffsets.drop h.colEndDirty)
    (hconsumed : h.charsConsumed = units new) (hchars : h.chars.take (units new) = textOf new)
    (hnew : units (overlaid gs x h.colEndDirty new) < 0x8000) :
    ∃ row, h.finish = .ok { h with row := row, colEndDirty := cols gs - cols (beyond h.colEndDirty gs) } ∧
      row.Holds (overlaid gs x h.colEndDirty new) ∧
      row = { r with
        chars := row.chars
        charOffsets := row.charOffsets
        doubleBytePadded :=
          if cols gs - cols (beyond h.colEndDirty gs) = r.columnCount then h.colEnd < r.columnCount
          else r.doubleBytePadded } := by
  have hx : x ≤ cols gs := by
    rw [hr.columns]
    omega
  have hxle := cols_upTo_le x gs
  have hparts := upTo_units_le (x := x) (by omega) (hr.columns ▸ hdirty) hr.short
  have htrailing : h.trailing gs = cols gs - cols (beyond h.colEndDirty gs) - (x + cols new) := by
    rw [trailing, hcolEnd]
  have hassoc : overlaid gs x h.colEndDirty new = (upTo x gs ++ (blanks (x - cols (upTo x gs)) ++ new)) ++
      (blanks (h.trailing gs) ++ beyond h.colEndDirty gs) := by
    rw [overlaid, htrailing]
    simp [List.append_assoc]
  rw [hassoc] at hnew ⊢
  have htotal : h.colEnd + h.trailing gs = cols gs - cols (beyond h.colEndDirty gs) := by
    obtain ⟨p, hsplit, -, hp, -⟩ := stepForward_spec 0 gs (by simpa using hr.short)
      (hr.columns ▸ hdirty)
    have hcols := congrArg cols hsplit
    rw [cols_append] at hcols
    rw [htrailing]
    omega
  have hunits := hnew
  simp only [units_append, units_blanks] at hunits
  rw [← htotal]
  refine finish_holds (upTo x gs ++ (blanks (x - cols (upTo x gs)) ++ new)) hr hrow ?_ hle hdirty
    (.inl (by omega)) hchBeg (by omega) ?_ hdrop ?_ ?_ ?_
  · simp only [cols_append, cols_blanks]
    omega
  · have hlength := congrArg List.length hchars
    rw [List.length_take, length_textOf] at hlength
    omega
  · rw [htake, hr.offsets, hcolBegDirty, hleading, hchBegDirty, overwrite_leading hx, hchBeg, hleading,
      hchBegDirty, columnsFrom_append, columnsFrom_append, Nat.zero_add, iota_eq (by omega), units_blanks]
  · have hfront : r.chars.take (units (upTo x gs)) = textOf (upTo x gs) := by
      obtain ⟨rest, hrest⟩ : upTo x gs <+: gs := fitting_isPrefix _ x gs
      have hpart : r.Holds ([] ++ (upTo x gs ++ rest)) := by
        rw [List.nil_append, hrest]
        exact hr
      have := hpart.text_part
      simpa using this
    rw [hchBegDirty, hfront, hconsumed, hchars, hleading]
    simp
  · simp only [units_append, units_blanks]
    omega

end WriteHelper

end VT7.Buffer
