import VT7.Buffer.RleReplace

/-!
# Edits of run lists

The attributes of a row are edited by `replace`, `slice` and `resize_trailing_extent`.  Every sequence of them does to
the runs what it does to the values they stand for, and equal values have equal runs, however they came about.
-/

namespace VT7.Buffer.Rle

open VT7.Lib.RunLength

variable {α : Type} [DecidableEq α]

/-- The calls that edit a run list. -/
inductive Edit (α : Type)
  | replace (startIndex endIndex : ℕ) (replacements : List (Run α))
  | slice (startIndex endIndex : ℕ)
  | resizeTrailingExtent (newSize : ℕ)

namespace Edit

/-- An edit where lengths have some bits; `none` where it throws. -/
def run (bits : ℕ) (r : Rle α) : Edit α → Option (Rle α)
  | .replace startIndex endIndex replacements => r.replaceSized bits startIndex endIndex replacements
  | .slice startIndex endIndex => some (r.slice startIndex endIndex)
  | .resizeTrailingExtent newSize => some (r.resizeTrailingExtent newSize)

omit [DecidableEq α] in
/-- What an edit does to the values. -/
def meaning (values : List α) : Edit α → List α
  | .replace startIndex endIndex replacements =>
    values.take startIndex ++ expand replacements ++ values.drop (min endIndex values.length)
  | .slice startIndex endIndex => (values.take endIndex).drop startIndex
  | .resizeTrailingExtent newSize => VT7.Buffer.resizeTrailingExtent values newSize

omit [DecidableEq α] in
/-- The range is one, the new size fits, and there is a last value to go on with. -/
def Fits (bits : ℕ) (values : List α) : Edit α → Prop
  | .replace startIndex endIndex replacements => startIndex ≤ min endIndex values.length ∧ Canonical replacements ∧
    values.length - (min endIndex values.length - startIndex) + span replacements < 2 ^ bits
  | .slice _ _ => True
  | .resizeTrailingExtent _ => values ≠ []

omit [DecidableEq α] in
/-- All edits of a sequence fit where they come. -/
def FitAll (bits : ℕ) : List α → List (Edit α) → Prop
  | _, [] => True
  | values, edit :: edits => edit.Fits bits values ∧ FitAll bits (edit.meaning values) edits

end Edit

variable {r : Rle α}

omit [DecidableEq α] in
/-- `slice`, of any range. -/
lemma Sound.slice (hr : r.Sound) (start stop : ℕ) :
    (r.slice start stop).Sound ∧ expand (r.slice start stop).runs = ((expand r.runs).take stop).drop start := by
  have htotal := hr.total
  have hlength := length_expand r.runs
  have hclamp : r.slice start stop = r.slice start (min stop r.totalLength) := by
    unfold Rle.slice
    rw [Nat.min_eq_left (Nat.min_le_right stop r.totalLength)]
  have htake : (expand r.runs).take stop = (expand r.runs).take (min stop r.totalLength) := by
    rw [htotal, ← hlength, ← List.take_eq_take_min]
  rw [hclamp, htake]
  by_cases hlt : start < min stop r.totalLength
  · exact slice_spec hr hlt (Nat.min_le_right _ _)
  · have hempty : r.slice start (min stop r.totalLength) = ⟨[], 0⟩ := by
      unfold Rle.slice
      rw [Nat.min_eq_left (Nat.min_le_right stop r.totalLength)]
      exact if_pos (Nat.le_of_not_lt hlt)
    rw [hempty, List.drop_eq_nil_of_le (by rw [List.length_take]; omega)]
    exact ⟨⟨.nil, rfl⟩, rfl⟩

/-- **One edit.** -/
lemma Edit.run_sound {bits : ℕ} (hr : r.Sound) {edit : Edit α} (hfits : edit.Fits bits (expand r.runs)) :
    ∃ r', edit.run bits r = some r' ∧ r'.Sound ∧ expand r'.runs = edit.meaning (expand r.runs) := by
  have htotal : (expand r.runs).length = r.totalLength := (length_expand r.runs).trans hr.total.symm
  cases edit with
  | replace startIndex endIndex replacements =>
    obtain ⟨hle, hreplacements, hsize⟩ := hfits
    rw [htotal] at hle hsize
    obtain ⟨hdecoded, hcount, hcanonical⟩ := replaceUnchecked_spliced hr hle (Nat.min_le_right _ _) hreplacements
    rw [← length_expand replacements] at hsize
    have hfits' : (r.replaceUnchecked startIndex (min endIndex r.totalLength) replacements).totalLength < 2 ^ bits := by
      rw [hcount, hdecoded, List.length_append, List.length_append, List.length_take, List.length_drop, htotal]
      omega
    refine ⟨_, ?_, ⟨hcanonical, hcount.trans (length_expand _)⟩, ?_⟩
    · unfold run replaceSized replaceRuns
      dsimp only
      rw [if_neg (by omega), Option.map_some, narrow_of_fits (hcount.trans (length_expand _)) hfits']
    · unfold meaning
      rw [hdecoded, htotal]
  | slice startIndex endIndex =>
    obtain ⟨hsound, hexpand⟩ := hr.slice startIndex endIndex
    exact ⟨_, rfl, hsound, hexpand⟩
  | resizeTrailingExtent newSize =>
    have hpos : 0 < r.totalLength := by
      rw [← htotal]
      exact List.length_pos_iff.mpr hfits
    obtain ⟨hsound, hexpand, -⟩ := @resizeTrailingExtent_spec _ r hr newSize hpos
    exact ⟨_, rfl, hsound, hexpand⟩

/-- **A sequence of edits** does to the runs what it does to the values, and leaves the only canonical runs of them. -/
theorem edits_refine {bits : ℕ} (hr : r.Sound) {edits : List (Edit α)}
    (hfits : Edit.FitAll bits (expand r.runs) edits) :
    ∃ r', edits.foldlM (Edit.run bits) r = some r' ∧ Canonical r'.runs ∧ r'.totalLength = (expand r'.runs).length ∧
      expand r'.runs = edits.foldl Edit.meaning (expand r.runs) ∧
      ∀ runs, Canonical runs → expand runs = edits.foldl Edit.meaning (expand r.runs) → runs = r'.runs := by
  induction edits generalizing r with
  | nil =>
    exact ⟨r, rfl, hr.canonical, hr.total.trans (length_expand r.runs).symm, rfl,
      fun runs hruns heq => hruns.unique hr.canonical heq⟩
  | cons edit edits ih =>
    obtain ⟨hfirst, hothers⟩ := hfits
    obtain ⟨r₁, hrun, hsound, hexpand⟩ := Edit.run_sound hr hfirst
    rw [← hexpand] at hothers
    obtain ⟨r', hruns, hrest⟩ := ih hsound hothers
    refine ⟨r', ?_, ?_⟩
    · rw [List.foldlM_cons, hrun]
      exact hruns
    · rw [List.foldl_cons, ← hexpand]
      exact hrest

/-- A slice of `1 1 2 2`, resized, with its last value replaced. -/
theorem edits_refine_joined :
    let edits : List (Edit ℕ) := [.slice 1 4, .resizeTrailingExtent 5, .replace 1 5 [⟨1, 2⟩]]
    ∃ r', edits.foldlM (Edit.run 16) (⟨[⟨1, 2⟩, ⟨2, 2⟩], 4⟩ : Rle ℕ) = some r' ∧ Canonical r'.runs ∧
      r'.totalLength = (expand r'.runs).length ∧
      expand r'.runs = edits.foldl Edit.meaning (expand [⟨1, 2⟩, ⟨2, 2⟩]) ∧
      ∀ runs, Canonical runs → expand runs = edits.foldl Edit.meaning (expand [⟨1, 2⟩, ⟨2, 2⟩]) → runs = r'.runs :=
  edits_refine (r := ⟨[⟨1, 2⟩, ⟨2, 2⟩], 4⟩) ⟨⟨by decide, by decide⟩, rfl⟩
    ⟨trivial, List.cons_ne_nil _ _, ⟨by decide, ⟨by decide, by decide⟩, by decide⟩, trivial⟩

end VT7.Buffer.Rle
