import Mathlib.Data.List.TakeWhile
import VT7.Buffer.RowRuns

/-!
# The fast path for ASCII and the path over clusters

`ReplaceText` writes ASCII characters one by one and takes clusters from the first other character on
(`_replaceTextUnicode`).  Here its result is compared with the one of the path over clusters from the first character of
the text on.
-/

namespace VT7.Buffer

open WriteHelper

variable {α : Type}

/-! ### What is known of `GraphemeNext` -/

/-- There is an ASCII character at a position of the text. -/
def AsciiAt (chars : List UInt16) (position : ℕ) : Prop := ∃ c, chars[position]? = some c ∧ c < 0x80

/-- **How ASCII is measured.**  ASCII characters do not join each other and are one column wide, a cluster does not
depend on the clusters before it, and nothing joins an empty text. -/
structure Clustering.MeasuresAscii (cwd : Clustering) : Prop where
  next_ascii : ∀ chars start position, AsciiAt chars position →
    position + 1 = chars.length ∨ AsciiAt chars (position + 1) → cwd.next chars start position = (1, 1)
  width_ascii : ∀ chars start position, AsciiAt chars position → (cwd.next chars start position).1 = 1 →
    (cwd.next chars start position).2 = 1
  next_start : ∀ chars start start' position, cwd.next chars start position = cwd.next chars start' position
  join_nil : ∀ chars, chars ≠ [] → cwd.join [] chars = cwd.next chars 0 0

namespace Row

variable (r : Row α)

/-- `ReplaceText` without its fast path: `_replaceTextUnicode` from the first character on. -/
def replaceTextByClusters (cwd : Clustering) (state : RowWriteState) :
    Except BufferError (Row α × RowWriteResult) :=
  let h := WriteHelper.create r state.columnBegin state.columnLimit state.text
  if !h.isValid then
    .ok (r,
      { text := state.text
        columnEnd := h.colBeg
        columnBeginDirty := h.colBeg
        columnEndDirty := h.colBeg })
  else do
    let h ← (h.replaceTextUnicode cwd 0).finish
    let text := state.text.drop h.charsConsumed
    .ok (h.row,
      { text
        columnEnd := if text.isEmpty then h.colEnd else h.colLimit
        columnBeginDirty := h.colBegDirty
        columnEndDirty := h.colEndDirty })

end Row

/-! ### Clusters of a text -/

namespace Clustering

variable {cwd : Clustering} {chars : List UInt16} {start position room : ℕ}

/-- More iterations than there are characters change nothing. -/
lemma glyphs_enough {i j : ℕ} (hi : chars.length - position ≤ i) (hj : chars.length - position ≤ j) :
    cwd.glyphs chars start i position room = cwd.glyphs chars start j position room := by
  induction i generalizing j position room with
  | zero =>
    cases j with
    | zero => rfl
    | succ j =>
      unfold glyphs
      rw [dif_neg (by omega)]
  | succ i ih =>
    cases j with
    | zero =>
      unfold glyphs
      rw [dif_neg (by omega)]
    | succ j =>
      unfold glyphs
      by_cases hmore : position < chars.length
      · have hpos := (cwd.glyph chars start position hmore).length_pos
        rw [dif_pos hmore, dif_pos hmore, ih (j := j) (by omega) (by omega)]
      · rw [dif_neg hmore, dif_neg hmore]

lemma glyphs_start (h : cwd.MeasuresAscii) (start' i : ℕ) :
    cwd.glyphs chars start i position room = cwd.glyphs chars start' i position room := by
  have hglyph (position : ℕ) (hmore : position < chars.length) :
      cwd.glyph chars start position hmore = cwd.glyph chars start' position hmore := by
    unfold glyph
    simp only [h.next_start chars start start' position]
  induction i generalizing position room with
  | zero => rfl
  | succ i ih =>
    unfold glyphs
    simp only [hglyph, ih]

lemma units_glyphs_le (i : ℕ) :
    units (cwd.glyphs chars start i position room) ≤ chars.length - position := by
  induction i generalizing position room with
  | zero => exact Nat.zero_le _
  | succ i ih =>
    unfold glyphs
    split
    · next hmore =>
      have hlength := @length_glyph cwd chars start position hmore
      have hnext := cwd.next_le chars start position hmore
      split
      · rw [units_cons]
        have hrest := @ih (position + (cwd.glyph chars start position hmore).text.length)
          (room - (cwd.glyph chars start position hmore).width)
        omega
      · exact Nat.zero_le _
    · exact Nat.zero_le _

lemma cols_glyphs_le (i : ℕ) : cols (cwd.glyphs chars start i position room) ≤ room := by
  induction i generalizing position room with
  | zero => exact Nat.zero_le _
  | succ i ih =>
    unfold glyphs
    split
    · next hmore =>
      split
      · next hfit =>
        rw [cols_cons]
        have hrest := @ih (position + (cwd.glyph chars start position hmore).text.length)
          (room - (cwd.glyph chars start position hmore).width)
        omega
      · exact Nat.zero_le _
    · exact Nat.zero_le _

/-- Characters that are clusters of their own. -/
lemma glyphs_narrow {m i : ℕ} (hnarrow : ∀ k < m, cwd.next chars start (position + k) = (1, 1))
    (hm : position + m ≤ chars.length) (hroom : m ≤ room) (hi : chars.length - position ≤ i) :
    cwd.glyphs chars start i position room =
      narrows ((chars.drop position).take m) ++ cwd.glyphs chars start i (position + m) (room - m) := by
  induction m generalizing position room with
  | zero => rfl
  | succ m ih =>
    obtain ⟨i, rfl⟩ := Nat.exists_eq_succ_of_ne_zero (show i ≠ 0 by omega)
    have hmore : position < chars.length := by omega
    have hfirst := hnarrow 0 (Nat.succ_pos m)
    rw [Nat.add_zero] at hfirst
    have hdrop : chars.drop position = chars[position] :: chars.drop (position + 1) := List.drop_eq_getElem_cons hmore
    have hglyph : cwd.glyph chars start position hmore = Glyph.narrow chars[position] := by
      unfold glyph Glyph.narrow
      simp only [hfirst, hdrop, List.take_succ_cons, List.take_zero, Nat.max_self]
    have hrest := @ih (position + 1) (room - 1)
      (fun k hk => by
        have hk' := hnarrow (k + 1) (Nat.succ_lt_succ hk)
        rwa [show position + 1 + k = position + (k + 1) by omega])
      (by omega) (by omega) (by omega)
    have hwidth : (Glyph.narrow chars[position]).width = 1 := rfl
    have hlength : (Glyph.narrow chars[position]).text.length = 1 := rfl
    rw [hdrop, List.take_succ_cons]
    show _ = Glyph.narrow chars[position] :: narrows _ ++ _
    rw [glyphs, dif_pos hmore, hglyph, hwidth, hlength, if_pos (by omega),
      glyphs_enough (j := i + 1) (by omega) (by omega), hrest, List.cons_append, Nat.sub_sub,
      show position + 1 + m = position + (m + 1) by omega, Nat.add_comm 1 m]

lemma glyphs_end (hend : chars.length ≤ position) (i : ℕ) : cwd.glyphs chars start i position room = [] := by
  cases i with
  | zero => rfl
  | succ i =>
    unfold glyphs
    exact dif_neg (by omega)

lemma glyphs_full (i : ℕ) : cwd.glyphs chars start i position 0 = [] := by
  cases i with
  | zero => rfl
  | succ i =>
    unfold glyphs
    split
    · next hmore =>
      have hpos := (cwd.glyph chars start position hmore).width_pos
      exact if_neg (by omega)
    · rfl

/-- The clusters of a text, as far as there are columns for them. -/
def clusters (cwd : Clustering) (chars : List UInt16) (room : ℕ) : List Glyph := cwd.glyphs chars 0 chars.length 0 room

/-- The columns end inside a cluster that begins with an ASCII character. -/
def SplitsCluster (cwd : Clustering) (chars : List UInt16) (room : ℕ) : Prop :=
  0 < room ∧ room < chars.length ∧ asciiLength chars room = room ∧ (cwd.next chars 0 (room - 1)).1 ≠ 1

instance (chars : List UInt16) (room : ℕ) : Decidable (cwd.SplitsCluster chars room) :=
  inferInstanceAs (Decidable (_ ∧ _))

lemma asciiAt_of_lt (h : position < asciiLength chars room) : AsciiAt chars position := by
  have hprefix : (chars.take room).takeWhile (· < 0x80) <+: chars :=
    (List.takeWhile_prefix _).trans (List.take_prefix _ _)
  have hle := hprefix.length_le
  have hlt : position < chars.length := Nat.lt_of_lt_of_le h hle
  have hmem := List.mem_takeWhile_imp (List.getElem_mem h)
  have hsame := List.IsPrefix.getElem hprefix h
  rw [hsame] at hmem
  exact ⟨chars[position], List.getElem?_eq_getElem hlt, by simpa using hmem⟩

/-- The clusters before the last ASCII character of the front. -/
lemma clusters_ascii (hm : cwd.MeasuresAscii) (hn : 0 < asciiLength chars room) :
    cwd.clusters chars room = narrows (chars.take (asciiLength chars room - 1)) ++
      cwd.glyphs chars (asciiLength chars room - 1) chars.length (asciiLength chars room - 1)
        (room - (asciiLength chars room - 1)) := by
  have hle := asciiLength_le chars room
  have hnarrow : ∀ k < asciiLength chars room - 1, cwd.next chars 0 (0 + k) = (1, 1) := fun k hk => by
    rw [Nat.zero_add]
    exact hm.next_ascii chars 0 k (@asciiAt_of_lt chars k room (by omega))
      (.inr (@asciiAt_of_lt chars (k + 1) room (by omega)))
  unfold clusters
  rw [glyphs_narrow hnarrow (by omega) (by omega) (by omega), List.drop_zero, Nat.zero_add,
    glyphs_start hm (asciiLength chars room - 1)]

/-- The cluster of the last ASCII character, where the fast path goes up to the end. -/
lemma glyphs_last (hm : cwd.MeasuresAscii) (hn : 0 < asciiLength chars room)
    (hall : asciiLength chars room = min chars.length room) (hwhole : ¬cwd.SplitsCluster chars room) :
    cwd.glyphs chars (asciiLength chars room - 1) chars.length (asciiLength chars room - 1)
        (room - (asciiLength chars room - 1)) =
      narrows ((chars.drop (asciiLength chars room - 1)).take 1) := by
  have hascii := asciiAt_of_lt (show asciiLength chars room - 1 < asciiLength chars room by omega)
  unfold SplitsCluster at hwhole
  generalize asciiLength chars room = n at *
  have hnext : cwd.next chars (n - 1) (n - 1 + 0) = (1, 1) := by
    rw [Nat.add_zero]
    by_cases hend : n = chars.length
    · exact hm.next_ascii chars _ _ hascii (.inl (by omega))
    · have hone : (cwd.next chars 0 (n - 1)).1 = 1 := by
        by_contra hne
        obtain rfl : n = room := by omega
        exact hwhole ⟨hn, by omega, rfl, hne⟩
      rw [hm.next_start chars (n - 1) 0]
      exact Prod.ext hone (hm.width_ascii chars 0 _ hascii hone)
  have hrest : cwd.glyphs chars (n - 1) chars.length (n - 1 + 1) (room - (n - 1) - 1) = [] := by
    by_cases hend : n = chars.length
    · exact glyphs_end (by omega) _
    · rw [show room - (n - 1) - 1 = 0 by omega]
      exact glyphs_full _
  rw [glyphs_narrow (m := 1) (fun k hk => by
    obtain rfl : k = 0 := by omega
    exact hnext) (by omega) (by omega)
    (by omega), hrest, List.append_nil]

/-- Where the columns end inside a cluster, the path over clusters does not stop there. -/
lemma units_clusters_ne (hm : cwd.MeasuresAscii) (h : cwd.SplitsCluster chars room) :
    units (cwd.clusters chars room) ≠ room := by
  obtain ⟨hroom, hlt, hall, hnext⟩ := h
  have hsplit := clusters_ascii hm (show 0 < asciiLength chars room by omega)
  rw [hall] at hsplit
  have hmore : room - 1 < chars.length := by omega
  have hlast : units (cwd.glyphs chars (room - 1) chars.length (room - 1) (room - (room - 1))) ≠ 1 := by
    obtain ⟨n, hn⟩ := Nat.exists_eq_succ_of_ne_zero (show chars.length ≠ 0 by omega)
    have hwidth := (cwd.glyph chars (room - 1) (room - 1) hmore).width_pos
    have hlength := @length_glyph cwd chars (room - 1) (room - 1) hmore
    rw [hm.next_start chars (room - 1) 0] at hlength
    rw [hn, glyphs, dif_pos hmore]
    by_cases hfit : (cwd.glyph chars (room - 1) (room - 1) hmore).width ≤ room - (room - 1)
    · rw [if_pos hfit, show room - (room - 1) - (cwd.glyph chars (room - 1) (room - 1) hmore).width = 0 by omega,
        glyphs_full, units_cons, units_nil, Nat.add_zero, hlength]
      exact hnext
    · rw [if_neg hfit]
      exact Nat.zero_ne_one
  rw [hsplit, units_append, units_narrows, List.length_take]
  omega

end Clustering

/-! ### The two fronts -/

section Fronts

variable {cwd : Clustering} {gs : List Glyph} {x limit : ℕ} {chars : List UInt16}

lemma upTo_zero (gs : List Glyph) : upTo 0 gs = [] := by
  have hle := cols_upTo_le 0 gs
  by_contra hne
  have hpos := cols_pos hne
  omega

lemma lead_zero (gs : List Glyph) : lead gs 0 = [] := by
  rw [lead, upTo_zero]
  rfl

lemma charsPrev_zero (gs : List Glyph) : charsPrev gs 0 = [] := by
  unfold charsPrev
  rw [lead_zero, Nat.zero_sub, upTo_zero]
  rfl

/-- A text that does not join the cell before it. -/
lemma unicodeFront_clusters (hm : cwd.MeasuresAscii) (hchars : chars ≠ [])
    (hjoin : x = 0 ∨ (cwd.join (charsPrev gs x) chars).1 = 0) :
    unicodeFront cwd gs x limit chars = lead gs x ++ cwd.clusters chars (limit - x) := by
  by_cases hzero : (cwd.join (charsPrev gs x) chars).1 = 0
  · unfold unicodeFront
    rw [dif_neg (by omega)]
    rfl
  · -- before the first column there is nothing, and the first cluster is what joins it
    obtain rfl := hjoin.resolve_right hzero
    have hfirst : cwd.join (charsPrev gs 0) chars = cwd.next chars 0 0 := by
      rw [charsPrev_zero]
      exact hm.join_nil chars hchars
    have hlength : 0 < chars.length := List.length_pos_iff.mpr hchars
    have hjoined : joined cwd gs 0 chars (by omega) = cwd.glyph chars 0 0 hlength := by
      unfold joined Clustering.glyph
      simp only [hfirst, lead_zero, textOf_nil, List.drop_nil, List.nil_append, List.drop_zero]
    have hunits := @Clustering.length_glyph cwd chars 0 0 hlength
    have hpos := (cwd.glyph chars 0 0 hlength).length_pos
    unfold unicodeFront Clustering.clusters
    rw [dif_pos (by omega), hjoined, lead_zero, List.nil_append, Nat.zero_sub, upTo_zero, cols_nil, Nat.zero_add,
      Nat.sub_zero, hfirst, ← hunits, List.nil_append]
    obtain ⟨n, hn⟩ := Nat.exists_eq_succ_of_ne_zero (Nat.ne_of_gt hlength)
    conv_rhs => rw [hn, Clustering.glyphs, dif_pos hlength]
    by_cases hfit : (cwd.glyph chars 0 0 hlength).width ≤ limit
    · rw [if_neg (by omega), if_pos hfit, Nat.zero_add, Clustering.glyphs_start hm 0,
        Clustering.glyphs_enough (j := n) (by omega) (by omega)]
    · rw [if_pos (by omega), if_neg hfit]

/-- **A text that begins with ASCII.** -/
lemma textFront_clusters (hm : cwd.MeasuresAscii) (hn : 0 < asciiLength chars (limit - x))
    (hwhole : ¬cwd.SplitsCluster chars (limit - x)) :
    textFront cwd gs x limit chars = lead gs x ++ cwd.clusters chars (limit - x) := by
  have hle := asciiLength_le chars (limit - x)
  rw [Clustering.clusters_ascii hm hn]
  unfold textFront
  by_cases hmore : asciiLength chars (limit - x) < min chars.length (limit - x)
  · rw [if_pos hmore, if_neg (by omega), show limit - (x + (asciiLength chars (limit - x) - 1)) =
      limit - x - (asciiLength chars (limit - x) - 1) by omega]
  · rw [if_neg hmore, Clustering.glyphs_last hm hn (by omega) hwhole]
    have htake : chars.take (asciiLength chars (limit - x)) =
        chars.take (asciiLength chars (limit - x) - 1) ++
          (chars.drop (asciiLength chars (limit - x) - 1)).take 1 := by
      rw [← take_add_of, Nat.sub_add_cancel hn]
    rw [htake]
    unfold narrows
    rw [List.map_append]

lemma textFront_whole (hall : asciiLength chars (limit - x) = limit - x) :
    textFront cwd gs x limit chars = lead gs x ++ narrows (chars.take (limit - x)) := by
  unfold textFront
  rw [hall, if_neg (by omega)]

end Fronts

/-! ### What the two paths return -/

section Results

variable {r : Row α} {cwd : Clustering} {gs front : List Glyph} {x limit it : ℕ} {state : RowWriteState}

lemma replaceTextByClusters_eq (hvalid : (create r state.columnBegin state.columnLimit state.text).isValid = true) :
    r.replaceTextByClusters cwd state =
      ((create r state.columnBegin state.columnLimit state.text).replaceTextUnicode cwd 0).writeResult state.text := by
  unfold Row.replaceTextByClusters
  dsimp only
  rw [hvalid]
  rfl

/-- The path over clusters lays the text out. -/
lemma byClusters_laidOut (hr : r.Holds gs) (hx : r.clampedColumnInclusive state.columnBegin = x)
    (hlimit : r.clampedColumnInclusive state.columnLimit = limit) (hlt : x < limit) (hchars : 0 < state.text.length)
    (hcount : r.columnCount < 0x8000) (hshort : units (unicodeFront cwd gs x limit state.text) < 0x8000) :
    ∃ it, LaidOut (create r state.columnBegin state.columnLimit state.text)
      ((create r state.columnBegin state.columnLimit state.text).replaceTextUnicode cwd 0) r
      (unicodeFront cwd gs x limit state.text) it := by
  have hlimitLe : limit ≤ r.columnCount := hlimit ▸ Nat.min_le_right _ _
  have hxcols : x ≤ cols gs := by
    rw [hr.columns]
    omega
  have hleadShort : units (lead gs x) < 0x8000 := (units_lead_le hxcols).trans_lt hr.short
  obtain ⟨hdirty, hleading, -, -, hcolEnd, hw⟩ :=
    @create_writing _ _ _ _ _ state.columnLimit hr hx hleadShort state.text
  exact replaceTextUnicode_laidOut hr cwd hlt hlimitLe hcount hw rfl hx hcolEnd hlimit hdirty hleading hchars hshort

end Results

/-! ### Combining marks -/

/-- A combining diacritical mark. -/
def isMark (c : UInt16) : Bool := 0x300 ≤ c && c ≤ 0x36f

/-- A character with the marks behind it. -/
def marked (chars : List UInt16) : ℕ × ℕ :=
  (1 + ((chars.drop 1).takeWhile isMark).length, if (chars.headD 0 |> isMark) then 0 else 1)

lemma marked_le {chars : List UInt16} (h : chars ≠ []) : (marked chars).1 ≤ chars.length := by
  have hle := (List.takeWhile_prefix (l := chars.drop 1) isMark).length_le
  have hpos := List.length_pos_iff.mpr h
  rw [List.length_drop] at hle
  unfold marked
  dsimp only
  omega

lemma marked_width (chars : List UInt16) : (marked chars).2 ≤ 2 := by
  unfold marked
  dsimp only
  split <;> omega

/-- A clustering that knows combining marks only. -/
def combining : Clustering where
  next chars _ position := marked (chars.drop position)
  join charsPrev chars :=
    if chars = [] then (0, 1)
    else if charsPrev = [] then marked chars
    else ((chars.takeWhile isMark).length, 1)
  next_pos := fun _ _ _ _ => Nat.le_add_right 1 _
  next_le := fun chars _ position h => by
    have hle := @marked_le (chars.drop position) (List.drop_eq_nil_iff.not.mpr (Nat.not_le.mpr h))
    rw [List.length_drop] at hle
    omega
  next_width := fun _ _ _ => marked_width _
  join_le := fun charsPrev chars => by
    split
    · exact Nat.zero_le _
    · next hne =>
      split
      · exact marked_le hne
      · exact (List.takeWhile_prefix _).length_le
  join_width := fun charsPrev chars => by
    split
    · exact Nat.le_succ 1
    · split
      · exact marked_width chars
      · exact Nat.le_succ 1

lemma not_isMark {c : UInt16} (h : c < 0x80) : isMark c = false := by
  unfold isMark
  rw [Bool.and_eq_false_iff, decide_eq_false_iff_not]
  left
  rw [UInt16.le_iff_toNat_le]
  rw [UInt16.lt_iff_toNat_lt] at h
  exact Nat.not_le.mpr (Nat.lt_trans h (by decide))

lemma combining_measuresAscii : combining.MeasuresAscii := by
  have hdrop : ∀ {chars : List UInt16} {position : ℕ} {c : UInt16}, chars[position]? = some c →
      chars.drop position = c :: chars.drop (position + 1) := fun {chars position c} h => by
    obtain ⟨hlt, rfl⟩ := List.getElem?_eq_some_iff.mp h
    exact List.drop_eq_getElem_cons hlt
  refine ⟨fun chars start position ⟨c, hc, hascii⟩ hnext => ?_, fun chars start position ⟨c, hc, hascii⟩ _ => ?_,
    fun _ _ _ _ => rfl, fun chars hne => ?_⟩
  · show marked (chars.drop position) = _
    have hnone : (chars.drop (position + 1)).takeWhile isMark = [] := by
      rcases hnext with hend | ⟨c', hc', hascii'⟩
      · rw [hend, List.drop_length]
        rfl
      · rw [hdrop hc', List.takeWhile_cons, not_isMark hascii']
        rfl
    rw [hdrop hc]
    unfold marked
    simp only [List.drop_succ_cons, List.drop_zero, hnone, List.headD_cons, not_isMark hascii]
    rfl
  · show (marked (chars.drop position)).2 = 1
    rw [hdrop hc]
    unfold marked
    simp only [List.headD_cons, not_isMark hascii]
    rfl
  · show (if chars = [] then _ else if [] = [] then marked chars else _) = marked chars
    rw [if_neg hne, if_pos rfl]

end VT7.Buffer
