import VT7.Buffer.RowRuns

/-!
# From offsets in the text to columns

A `CharToColumnMapper` finds the column of an offset by a search forward and one back, and it begins where the last
search has stopped.  For a row in order both stay inside the offsets, and where they begin makes no difference
(`answers_eq`).

A read behind the offsets, or before them, has no result.  An argument that is a pointer into the text stands as its
distance from the beginning.
-/

namespace VT7.Buffer

/-- The loop of the search forward, over the offsets from column `col` on. -/
def searchForward (targetOffset : ℕ) : List ℕ → (col : ℕ) → Option ℕ
  | [], _ => none
  | currentOffset :: rest, col =>
    if currentOffset &&& charOffsetsMask < targetOffset then searchForward targetOffset rest (col + 1) else some col

/-- The loop of the search back. -/
def searchBackward (charOffsets : List ℕ) (targetOffset : ℕ) : (col : ℕ) → Option ℕ
  | 0 => charOffsets[0]?.bind fun currentOffset => if targetOffset < currentOffset then none else some 0
  | col + 1 => charOffsets[col + 1]?.bind fun currentOffset =>
    if targetOffset < currentOffset then searchBackward charOffsets targetOffset col else some (col + 1)

/-- The loop over the trailers behind a column, over the offsets from the next column on. -/
def skipTrailers : List ℕ → (col : ℕ) → Option ℕ
  | [], _ => none
  | offset :: rest, col => if isTrailer offset then skipTrailers rest (col + 1) else some col

structure CharToColumnMapper where
  charOffsets : List ℕ
  charsLength : ℕ
  currentColumn : ℕ
  columnCount : ℕ

namespace CharToColumnMapper

variable (m : CharToColumnMapper)

/-- `GetLeadingColumnAt`. -/
def getLeadingColumnAt (targetOffset : ℤ) : Option (ℕ × CharToColumnMapper) := do
  let targetOffset := (max 0 (min targetOffset m.charsLength)).toNat
  let col ← searchForward targetOffset (m.charOffsets.drop m.currentColumn) m.currentColumn
  let col ← searchBackward m.charOffsets targetOffset col
  return (col, { m with currentColumn := col })

/-- `GetTrailingColumnAt`. -/
def getTrailingColumnAt (offset : ℤ) : Option (ℕ × CharToColumnMapper) := do
  let (col, m) ← m.getLeadingColumnAt offset
  if col < m.columnCount then
    let col ← skipTrailers (m.charOffsets.drop (col + 1)) col
    return (col, m)
  else return (col, m)

/-- A call: `GetLeadingColumnAt` or `GetTrailingColumnAt`. -/
inductive Call
  | leading (offset : ℤ)
  | trailing (offset : ℤ)

/-- The column that a call asks for. -/
def Call.answer (leading trailing : ℤ → ℕ) : Call → ℕ
  | .leading offset => leading offset
  | .trailing offset => trailing offset

def call : Call → Option (ℕ × CharToColumnMapper)
  | .leading offset => m.getLeadingColumnAt offset
  | .trailing offset => m.getTrailingColumnAt offset

/-- What calls one after the other return. -/
def answers : CharToColumnMapper → List Call → Option (List ℕ)
  | _, [] => some []
  | m, c :: calls => do
    let (col, m) ← m.call c
    let cols ← answers m calls
    return col :: cols

end CharToColumnMapper

namespace Row

variable {α : Type} (r : Row α)

/-- A mapper of the row that begins to search at a column. -/
def mapperAt (currentColumn : ℕ) : CharToColumnMapper where
  charOffsets := r.charOffsets
  charsLength := r.charSize
  currentColumn := currentColumn
  columnCount := r.columnCount

/-- `_createCharToColumnMapper`. -/
def createCharToColumnMapper (offset : ℤ) : CharToColumnMapper :=
  r.mapperAt (max 0 (min offset r.columnCount)).toNat

/-- `GetLeadingColumnAtCharOffset`. -/
def getLeadingColumnAtCharOffset (offset : ℤ) : Option ℕ :=
  ((r.createCharToColumnMapper offset).getLeadingColumnAt offset).map Prod.fst

/-- `GetTrailingColumnAtCharOffset`. -/
def getTrailingColumnAtCharOffset (offset : ℤ) : Option ℕ :=
  ((r.createCharToColumnMapper offset).getTrailingColumnAt offset).map Prod.fst

end Row

/-! ### The searches -/

section Searches

variable {offsets : List ℕ} {target col : ℕ}

/-- The search forward stops where the masked offset is not less. -/
lemma searchForward_spec {k : ℕ} (hcol : col ≤ k) (hk : k < offsets.length)
    (h : target ≤ offsets.getD k 0 &&& charOffsetsMask) :
    ∃ c, searchForward target (offsets.drop col) col = some c ∧ c ≤ k ∧
      target ≤ offsets.getD c 0 &&& charOffsetsMask := by
  induction hcol using Nat.decreasingInduction with
  | self =>
    rw [List.drop_eq_getElem_cons hk, searchForward, ← List.getD_eq_getElem _ 0 hk, if_neg (Nat.not_lt.mpr h)]
    exact ⟨k, rfl, le_rfl, h⟩
  | of_succ n hn ih =>
    have hlt : n < offsets.length := hn.trans hk
    rw [List.drop_eq_getElem_cons hlt, searchForward, ← List.getD_eq_getElem _ 0 hlt]
    by_cases hless : offsets.getD n 0 &&& charOffsetsMask < target
    · rw [if_pos hless]
      exact ih
    · rw [if_neg hless]
      exact ⟨n, rfl, hn.le, Nat.le_of_not_lt hless⟩

/-- The search back stops at the nearest offset that is not greater. -/
lemma searchBackward_spec (hcol : col < offsets.length) (hfirst : offsets.getD 0 0 ≤ target) :
    ∃ c, searchBackward offsets target col = some c ∧ c ≤ col ∧ offsets.getD c 0 ≤ target ∧
      ∀ j, c < j → j ≤ col → target < offsets.getD j 0 := by
  induction col with
  | zero =>
    refine ⟨0, ?_, le_rfl, hfirst, fun j hlt hle => absurd hlt (Nat.not_lt.mpr hle)⟩
    rw [searchBackward, List.getElem?_eq_getElem hcol, ← List.getD_eq_getElem _ 0 hcol, Option.bind_some,
      if_neg (Nat.not_lt.mpr hfirst)]
  | succ col ih =>
    rw [searchBackward, List.getElem?_eq_getElem hcol, ← List.getD_eq_getElem _ 0 hcol, Option.bind_some]
    by_cases hless : target < offsets.getD (col + 1) 0
    · obtain ⟨c, hc, hle, hoffset, hbetween⟩ := ih (Nat.lt_of_succ_lt hcol)
      rw [if_pos hless]
      refine ⟨c, hc, Nat.le_succ_of_le hle, hoffset, fun j hlt hj => ?_⟩
      rcases Nat.lt_or_eq_of_le hj with hj | rfl
      · exact hbetween j hlt (Nat.le_of_lt_succ hj)
      · exact hless
    · rw [if_neg hless]
      exact ⟨col + 1, rfl, le_rfl, Nat.le_of_not_lt hless, fun j hlt hle => absurd hlt (Nat.not_lt.mpr hle)⟩

/-- The loop over trailers stops before the next column that is none. -/
lemma skipTrailers_spec {k : ℕ} (hcol : col < k) (hk : k < offsets.length)
    (h : isTrailer (offsets.getD k 0) = false) :
    ∃ c, skipTrailers (offsets.drop (col + 1)) col = some c ∧ col ≤ c ∧ c < k ∧
      (∀ j, col < j → j ≤ c → isTrailer (offsets.getD j 0) = true) ∧
        isTrailer (offsets.getD (c + 1) 0) = false := by
  obtain ⟨n, rfl⟩ := Nat.exists_eq_add_of_lt hcol
  induction n generalizing col with
  | zero =>
    rw [List.drop_eq_getElem_cons hk, skipTrailers, ← List.getD_eq_getElem _ 0 hk, h]
    exact ⟨col, rfl, le_rfl, Nat.lt_succ_self _, fun j hlt hle => absurd hlt (Nat.not_lt.mpr hle), h⟩
  | succ n ih =>
    have hlt : col + 1 < offsets.length := by omega
    rw [List.drop_eq_getElem_cons hlt, skipTrailers, ← List.getD_eq_getElem _ 0 hlt]
    cases htrailer : isTrailer (offsets.getD (col + 1) 0) with
    | false => exact ⟨col, rfl, le_rfl, hcol, fun j hlt hle => absurd hlt (Nat.not_lt.mpr hle), htrailer⟩
    | true =>
      have hshift : col + 1 + n + 1 = col + (n + 1) + 1 := by omega
      obtain ⟨c, hc, hle, hlt, hbetween, hnext⟩ := @ih (col + 1) (by omega) (by omega) (by rwa [hshift])
      refine ⟨c, hc, by omega, by omega, fun j hj hjc => ?_, hnext⟩
      rcases Nat.lt_or_eq_of_le (Nat.succ_le_of_lt hj) with hj | rfl
      · exact hbetween j hj hjc
      · exact htrailer

end Searches

/-! ### The column of an offset -/

variable {α : Type}

/-- The glyph that begins at column `col` holds the offset `target`: the next glyph begins behind it. -/
structure Row.LeadingAt (r : Row α) (target col : ℕ) : Prop where
  le : col ≤ r.columnCount
  leader : isTrailer (r.charOffsets.getD col 0) = false
  offset_le : r.charOffsets.getD col 0 ≤ target
  next : ∀ j, col < j → j ≤ r.columnCount → isTrailer (r.charOffsets.getD j 0) = false →
    target < r.charOffsets.getD j 0

/-- Column `last` is the last one of the glyph that begins at column `col`; the end is its own. -/
structure Row.TrailingOf (r : Row α) (col last : ℕ) : Prop where
  le : col ≤ last
  trailers : ∀ j, col < j → j ≤ last → isTrailer (r.charOffsets.getD j 0) = true
  next : col < r.columnCount → last < r.columnCount ∧ isTrailer (r.charOffsets.getD (last + 1) 0) = false
  ending : col = r.columnCount → last = r.columnCount

variable {r : Row α}

lemma Row.LeadingAt.unique {target a b : ℕ} (ha : r.LeadingAt target a) (hb : r.LeadingAt target b) : a = b := by
  rcases Nat.lt_trichotomy a b with hlt | heq | hgt
  · exact absurd (ha.next b hlt hb.le hb.leader) (Nat.not_lt.mpr hb.offset_le)
  · exact heq
  · exact absurd (hb.next a hgt ha.le ha.leader) (Nat.not_lt.mpr ha.offset_le)

lemma Row.TrailingOf.unique {col a b : ℕ} (hcol : col ≤ r.columnCount) (ha : r.TrailingOf col a)
    (hb : r.TrailingOf col b) : a = b := by
  rcases Nat.lt_or_eq_of_le hcol with hlt | heq
  · -- Behind the last column there is no trailer, so neither is behind the other.
    have hle : ∀ {a b : ℕ}, r.TrailingOf col a → r.TrailingOf col b → b ≤ a := by
      intro a b ha hb
      by_contra hba
      have htrailer := hb.trailers (a + 1) (Nat.lt_succ_of_le ha.le) (by omega)
      rw [(ha.next hlt).2] at htrailer
      cases htrailer
    exact le_antisymm (hle hb ha) (hle ha hb)
  · exact (ha.ending heq).trans (hb.ending heq).symm

/-- Only the end holds the offset behind the text. -/
lemma Row.LeadingAt.eq_columnCount {col : ℕ} (hr : r.Ordered) (h : r.LeadingAt r.charSize col) :
    col = r.columnCount := by
  by_contra hne
  have hnext := h.next r.columnCount (lt_of_le_of_ne h.le hne) le_rfl hr.last.1
  exact absurd hnext (Nat.lt_irrefl _)

section Ordered

variable (hr : r.Ordered) (hshort : r.charSize < 0x8000)
include hr hshort

omit hshort in
/-- The offset of a column that is no trailer is one of the text. -/
lemma offset_le_charSize {col : ℕ} (hcol : col ≤ r.columnCount) (h : isTrailer (r.charOffsets.getD col 0) = false) :
    r.charOffsets.getD col 0 ≤ r.charSize := by
  rcases Nat.lt_or_eq_of_le hcol with hlt | rfl
  · exact (hr.increasing col r.columnCount hlt le_rfl h hr.last.1).le
  · exact le_rfl

/-- A masked offset is one of a column at or before it that is no trailer. -/
lemma exists_leader {col : ℕ} (hcol : col ≤ r.columnCount) :
    ∃ l ≤ col, isTrailer (r.charOffsets.getD l 0) = false ∧
      r.charOffsets.getD col 0 &&& charOffsetsMask = r.charOffsets.getD l 0 := by
  cases htrailer : isTrailer (r.charOffsets.getD col 0) with
  | false =>
    have hle := offset_le_charSize hr hcol htrailer
    refine ⟨col, le_rfl, htrailer, ?_⟩
    rw [and_mask, Nat.mod_eq_of_lt (hle.trans_lt hshort)]
  | true =>
    obtain ⟨hlt, hleader, hoffset⟩ := hr.trailers col hcol htrailer
    have hle := offset_le_charSize hr (hlt.le.trans hcol) hleader
    refine ⟨_, hlt.le, hleader, ?_⟩
    rw [hoffset, and_mask, charOffsetsTrailer, Nat.add_mod_right, Nat.mod_eq_of_lt (hle.trans_lt hshort)]

/-- The offset of a trailer is greater than any of the text. -/
lemma not_isTrailer_of_le {col target : ℕ} (hcol : col ≤ r.columnCount) (htarget : target ≤ r.charSize)
    (h : r.charOffsets.getD col 0 ≤ target) : isTrailer (r.charOffsets.getD col 0) = false := by
  cases htrailer : isTrailer (r.charOffsets.getD col 0) with
  | false => rfl
  | true =>
    obtain ⟨-, -, hoffset⟩ := hr.trailers col hcol htrailer
    unfold charOffsetsTrailer at hoffset
    omega

/-- **`GetLeadingColumnAt`** from any column. -/
theorem getLeadingColumnAt_spec {c : ℕ} (hc : c ≤ r.columnCount) (offset : ℤ) :
    ∃ col, (r.mapperAt c).getLeadingColumnAt offset = some (col, r.mapperAt col) ∧
      r.LeadingAt (max 0 (min offset r.charSize)).toNat col := by
  have htarget : (max 0 (min offset r.charSize)).toNat ≤ r.charSize := by omega
  unfold CharToColumnMapper.getLeadingColumnAt Row.mapperAt
  generalize (max 0 (min offset r.charSize)).toNat = target at htarget ⊢
  have hlength := hr.length
  -- The search forward stops at the end at the latest.
  have hend : target ≤ r.charOffsets.getD r.columnCount 0 &&& charOffsetsMask := by
    rw [and_mask, show r.charOffsets.getD r.columnCount 0 = r.charSize from rfl, Nat.mod_eq_of_lt hshort]
    exact htarget
  obtain ⟨far, hforward, hfar, hmasked⟩ := searchForward_spec hc (by omega) hend
  obtain ⟨col, hbackward, hle, hoffset, hbetween⟩ :=
    @searchBackward_spec _ _ far (by omega) (hr.first.trans_le (Nat.zero_le target))
  simp only [hforward, hbackward, Option.bind_eq_bind, Option.bind_some]
  refine ⟨col, rfl, hle.trans hfar, not_isTrailer_of_le hr hshort (hle.trans hfar) htarget hoffset, hoffset, ?_⟩
  intro j hj hcount hleader
  rcases Nat.lt_or_ge far j with hbehind | hbefore
  · -- A glyph behind the place where the search forward has stopped begins behind the one there.
    obtain ⟨l, hl, hleads, heq⟩ := exists_leader hr hshort hfar
    have hless := hr.increasing l j (hl.trans_lt hbehind) hcount hleads hleader
    omega
  · exact hbetween j hj hbefore

/-- **`GetTrailingColumnAt`** from any column; the mapper keeps the first column. -/
theorem getTrailingColumnAt_spec {c : ℕ} (hc : c ≤ r.columnCount) (offset : ℤ) :
    ∃ col last, (r.mapperAt c).getTrailingColumnAt offset = some (last, r.mapperAt col) ∧
      r.LeadingAt (max 0 (min offset r.charSize)).toNat col ∧ r.TrailingOf col last := by
  obtain ⟨col, hcol, hleading⟩ := getLeadingColumnAt_spec hr hshort hc offset
  have hlength := hr.length
  unfold CharToColumnMapper.getTrailingColumnAt
  simp only [hcol, Option.bind_eq_bind, Option.bind_some]
  by_cases hinside : col < r.columnCount
  · obtain ⟨last, hlast, hle, hlt, htrailers, hnext⟩ :=
      skipTrailers_spec hinside (show r.columnCount < r.charOffsets.length by omega) hr.last.1
    refine ⟨col, last, ?_, hleading, hle, htrailers, fun _ => ⟨hlt, hnext⟩, fun heq => absurd heq hinside.ne⟩
    rw [if_pos (show col < (r.mapperAt col).columnCount from hinside)]
    show (skipTrailers (r.charOffsets.drop (col + 1)) col).bind _ = _
    rw [hlast]
    rfl
  · have heq : col = r.columnCount := le_antisymm hleading.le (Nat.le_of_not_lt hinside)
    refine ⟨col, col, ?_, hleading, le_rfl, fun j hlt hle => absurd hlt (Nat.not_lt.mpr hle),
      fun hlt => absurd hlt hinside, fun _ => heq⟩
    rw [if_neg (show ¬ col < (r.mapperAt col).columnCount from hinside)]
    rfl

/-- **Offsets and columns.**  There is one first and one last column for an offset, and every call returns them: from
any column that an earlier call has left, and from the column that the row guesses. -/
theorem answers_eq : ∃ leading trailing : ℤ → ℕ,
    (∀ offset : ℤ, r.LeadingAt (max 0 (min offset r.charSize)).toNat (leading offset) ∧
      r.TrailingOf (leading offset) (trailing offset) ∧
      (r.charSize ≤ offset → leading offset = r.columnCount ∧ trailing offset = r.columnCount)) ∧
    (∀ c ≤ r.columnCount, ∀ calls : List CharToColumnMapper.Call,
      (r.mapperAt c).answers calls =
        some (calls.map (CharToColumnMapper.Call.answer leading trailing))) ∧
    ∀ offset, r.getLeadingColumnAtCharOffset offset = some (leading offset) ∧
      r.getTrailingColumnAtCharOffset offset = some (trailing offset) := by
  -- The answers from column 0 are those from every column.
  choose leading _ hleading using fun offset => getLeadingColumnAt_spec hr hshort (Nat.zero_le _) offset
  choose first trailing _ hfirst htrailing using fun offset =>
    getTrailingColumnAt_spec hr hshort (Nat.zero_le _) offset
  have heq : ∀ offset, first offset = leading offset := fun offset => (hfirst offset).unique (hleading offset)
  have htrails : ∀ offset, r.TrailingOf (leading offset) (trailing offset) := by
    intro offset
    rw [← heq]
    exact htrailing offset
  have hcallLeading : ∀ c ≤ r.columnCount, ∀ offset,
      (r.mapperAt c).getLeadingColumnAt offset = some (leading offset, r.mapperAt (leading offset)) := by
    intro c hc offset
    obtain ⟨col, hcol, hlead⟩ := getLeadingColumnAt_spec hr hshort hc offset
    obtain rfl := hlead.unique (hleading offset)
    exact hcol
  have hcallTrailing : ∀ c ≤ r.columnCount, ∀ offset,
      (r.mapperAt c).getTrailingColumnAt offset = some (trailing offset, r.mapperAt (leading offset)) := by
    intro c hc offset
    obtain ⟨col, last, hlast, hlead, htrail⟩ := getTrailingColumnAt_spec hr hshort hc offset
    obtain rfl := hlead.unique (hleading offset)
    obtain rfl := htrail.unique (hleading offset).le (htrails offset)
    exact hlast
  refine ⟨leading, trailing, fun offset => ⟨hleading offset, htrails offset, fun hend => ?_⟩, ?_,
    fun offset => ?_⟩
  · have hclamp : (max 0 (min offset r.charSize)).toNat = r.charSize := by omega
    have hlead := hleading offset
    rw [hclamp] at hlead
    have hcolumn := hlead.eq_columnCount hr
    exact ⟨hcolumn, (htrails offset).ending hcolumn⟩
  · intro c hc calls
    induction calls generalizing c with
    | nil => rfl
    | cons call calls ih =>
      have hnext : ∀ offset, (r.mapperAt (leading offset)).answers calls =
          some (calls.map (CharToColumnMapper.Call.answer leading trailing)) :=
        fun offset => ih (leading offset) (hleading offset).le
      cases call with
      | leading offset =>
        simp only [CharToColumnMapper.answers, CharToColumnMapper.call, hcallLeading c hc offset, hnext offset,
          Option.bind_eq_bind, Option.bind_some, List.map_cons]
        rfl
      | trailing offset =>
        simp only [CharToColumnMapper.answers, CharToColumnMapper.call, hcallTrailing c hc offset, hnext offset,
          Option.bind_eq_bind, Option.bind_some, List.map_cons]
        rfl
  · have hguess : (max 0 (min offset (r.columnCount : ℤ))).toNat ≤ r.columnCount := by omega
    unfold Row.getLeadingColumnAtCharOffset Row.getTrailingColumnAtCharOffset Row.createCharToColumnMapper
    rw [hcallLeading _ hguess, hcallTrailing _ hguess]
    exact ⟨rfl, rfl⟩

end Ordered

/-- A letter and a wide glyph of two code units. -/
def surrogateRow : Row ℕ where
  chars := [0x61, 0xd83d, 0xde00]
  charOffsets := [0, 1, 0x8001, 3]
  attr := [0, 0, 0]
  columnCount := 3
  lineRendition := .singleWidth
  wrapForced := false
  doubleBytePadded := false
  promptData := none

def surrogates : Glyph := ⟨[0xd83d, 0xde00], 2, List.cons_ne_nil _ _, Glyph.one_le_two, Glyph.two_le_two⟩

lemma surrogateRow_holds : surrogateRow.Holds [.narrow 0x61, surrogates] := ⟨rfl, rfl, rfl, by decide⟩

theorem answers_eq_surrogates : ∃ leading trailing : ℤ → ℕ,
    (∀ offset : ℤ, surrogateRow.LeadingAt (max 0 (min offset surrogateRow.charSize)).toNat (leading offset) ∧
      surrogateRow.TrailingOf (leading offset) (trailing offset) ∧
      (surrogateRow.charSize ≤ offset →
        leading offset = surrogateRow.columnCount ∧ trailing offset = surrogateRow.columnCount)) ∧
    (∀ c ≤ surrogateRow.columnCount, ∀ calls : List CharToColumnMapper.Call,
      (surrogateRow.mapperAt c).answers calls =
        some (calls.map (CharToColumnMapper.Call.answer leading trailing))) ∧
    ∀ offset, surrogateRow.getLeadingColumnAtCharOffset offset = some (leading offset) ∧
      surrogateRow.getTrailingColumnAtCharOffset offset = some (trailing offset) :=
  answers_eq surrogateRow_holds.ordered (by decide)

/-- Both halves of the pair are in the glyph at columns 1 and 2, also for a search that begins behind them. -/
example : (surrogateRow.mapperAt 3).answers [.leading 2, .trailing 2, .leading 1, .trailing 9, .leading (-1)] =
    some [1, 2, 1, 3, 0] := rfl

end VT7.Buffer
