import Mathlib.Data.List.Infix
import Mathlib.Logic.Function.Iterate
import VT7.Buffer.Row
import VT7.Lib.RunLength

/-!
# The run lengths of a row's attributes

`basic_rle` keeps a vector of runs and their total length.  `replace` edits the vector in place: it looks for the runs
at both ends of the range, joins the replacements with equal neighbours and splits a run when the range lies inside it.

Iterators are indices into the vector; `copy`, `erase` and `insert` of the last steps of `_replace_unchecked` are one
list that is put together from the runs before the range, the replacements and the runs behind it.
-/

namespace VT7.Buffer

open VT7.Lib.RunLength

variable {α : Type}

structure Rle (α : Type) where
  runs : List (Run α)
  totalLength : ℕ
deriving DecidableEq

namespace Rle

/-- `rle_scanner`: where it stands and the length of the runs before. -/
structure Scanner where
  it : ℕ
  total : ℕ

/-- `scan`, over the runs from the scanner's position on.  The second result is `run_pos`. -/
def scanFrom : List (Run α) → Scanner → (index : ℕ) → Scanner × ℕ
  | [], s, _ => (s, 0)
  | run :: rest, s, index =>
    if index < s.total + run.length then (s, index - s.total)
    else scanFrom rest ⟨s.it + 1, s.total + run.length⟩ index

/-- `rle_iterator`. -/
structure Iterator where
  it : ℕ
  pos : ℕ

def setLength (length : ℕ) (run : Run α) : Run α := { run with length }
def addLength (length : ℕ) (run : Run α) : Run α := { run with length := run.length + length }
def subLength (length : ℕ) (run : Run α) : Run α := { run with length := run.length - length }

/-- `basic_rle(length, value)`. -/
def create (length : ℕ) (value : α) : Rle α where
  runs := if length = 0 then [] else [⟨value, length⟩]
  totalLength := length

variable (r : Rle α)

def slice (startIndex endIndex : ℕ) : Rle α :=
  let endIndex := min endIndex r.totalLength
  if endIndex ≤ startIndex then ⟨[], 0⟩
  else
    let (beginRun, startRunPos) := scanFrom r.runs ⟨0, 0⟩ startIndex
    let (endRun, endRunPos) := scanFrom (r.runs.drop beginRun.it) beginRun (endIndex - 1)
    let slice := (r.runs.take (endRun.it + 1)).drop beginRun.it
    let slice := slice.modify (slice.length - 1) (setLength (endRunPos + 1))
    ⟨slice.modify 0 (subLength startRunPos), endIndex - startIndex⟩

def resizeTrailingExtent (newSize : ℕ) : Rle α :=
  if newSize = 0 then ⟨[], newSize⟩
  else if newSize < r.totalLength then
    let (run, pos) := scanFrom r.runs ⟨0, 0⟩ (newSize - 1)
    ⟨(r.runs.modify run.it (setLength (pos + 1))).take (run.it + 1), newSize⟩
  else if r.totalLength < newSize then
    ⟨r.runs.modify (r.runs.length - 1) (addLength (newSize - r.totalLength)), newSize⟩
  else ⟨r.runs, newSize⟩

section Replace

variable [DecidableEq α]

/-- The run before the range may go on with the first replacement: where the replacements go, what is left of the
position in that run, and by how much the first replacement grows. -/
def joinFront (startIndex : ℕ) (first : α) (begin beginPos : ℕ) : ℕ × ℕ × ℕ :=
  let previous := if beginPos ≠ 0 then begin else begin - 1
  match r.runs[previous]? with
  | some run =>
    if startIndex ≠ 0 ∧ run.value = first then (previous, 0, if beginPos ≠ 0 then beginPos else run.length)
    else (begin, beginPos, 0)
  | none => (begin, beginPos, 0)

/-- The run behind the range may go on with the last replacement. -/
def joinBack (endIndex : ℕ) (last : α) (stop stopPos : ℕ) : ℕ × ℕ × ℕ :=
  match r.runs[stop]? with
  | some run =>
    if endIndex ≠ r.totalLength ∧ run.value = last then (stop + 1, 0, run.length - stopPos) else (stop, stopPos, 0)
  | none => (stop, stopPos, 0)

/-- The path of `_replace_unchecked` for no replacements. -/
def removeUnchecked (startIndex endIndex begin beginPos stop stopPos : ℕ) : Rle α :=
  let previous := if beginPos ≠ 0 then begin else begin - 1
  let joined : Bool := startIndex ≠ 0 ∧ endIndex ≠ r.totalLength ∧
    r.runs[previous]?.map Run.value = r.runs[stop]?.map Run.value
  let previousLength := (r.runs[previous]?.map Run.length).getD 0
  let runs := if joined then
      r.runs.modify stop fun run =>
        { run with length := run.length + (if beginPos ≠ 0 then beginPos else previousLength) - stopPos }
    else r.runs
  let (begin, beginPos, stopPos) := if joined then (previous, 0, 0) else (begin, beginPos, stopPos)
  let runs := if beginPos ≠ 0 then runs.modify begin (setLength beginPos) else runs
  let begin := if beginPos ≠ 0 then begin + 1 else begin
  let runs := if stopPos ≠ 0 then runs.modify stop (subLength stopPos) else runs
  ⟨runs.take begin ++ runs.drop stop, r.totalLength - (endIndex - startIndex)⟩

/-- `_replace_unchecked`. -/
def replaceUnchecked (startIndex endIndex : ℕ) (replacements : List (Run α)) : Rle α :=
  let (scanner, beginPos) := scanFrom r.runs ⟨0, 0⟩ startIndex
  let begin := scanner.it
  let (scanner, stopPos) := scanFrom (r.runs.drop begin) scanner endIndex
  let stop := scanner.it
  match replacements.head?, replacements.getLast? with
  | some first, some last =>
    -- Step 1
    let (begin, beginPos, beginAdditionalLength) := r.joinFront startIndex first.value begin beginPos
    let (stop, stopPos, endAdditionalLength) := r.joinBack endIndex last.value stop stopPos
    -- Step 2
    let split : Bool := begin = stop ∧ beginPos ≠ 0
    let midInsertionTrailer := if split then (r.runs[begin]?.map (subLength stopPos)).toList else []
    let stopPos := if split then 0 else stopPos
    -- Step 3
    let runs := if beginPos ≠ 0 then r.runs.modify begin (setLength beginPos) else r.runs
    let begin := if beginPos ≠ 0 then begin + 1 else begin
    let runs := if stopPos ≠ 0 then runs.modify stop (subLength stopPos) else runs
    -- Steps 4 to 6
    let runs := runs.take begin ++ (replacements ++ midInsertionTrailer ++ runs.drop (max begin stop))
    -- Step 7
    let runs := runs.modify begin (addLength beginAdditionalLength)
    let runs := runs.modify (begin + (replacements.length + midInsertionTrailer.length) - 1)
      (addLength endAdditionalLength)
    -- Step 8
    ⟨runs, r.totalLength - (endIndex - startIndex) + span replacements⟩
  | _, _ => r.removeUnchecked startIndex endIndex begin beginPos stop stopPos

/-- `replace` with runs, behind `_check_indices`; `none` where it throws. -/
def replaceRuns (startIndex endIndex : ℕ) (replacements : List (Run α)) : Option (Rle α) :=
  let endIndex := min endIndex r.totalLength
  if endIndex < startIndex then none else some (r.replaceUnchecked startIndex endIndex replacements)

/-- `replace` with a value. -/
def replace (startIndex endIndex : ℕ) (value : α) : Option (Rle α) :=
  let endIndex := min endIndex r.totalLength
  if endIndex < startIndex then none
  else some (r.replaceUnchecked startIndex endIndex [⟨value, endIndex - startIndex⟩])

end Replace

/-! ### Looking for a column -/

/-- The runs cut at a column: it is `pos` columns into the first run of `behind`. -/
structure Cut (l : List (Run α)) (index : ℕ) (before behind : List (Run α)) (pos : ℕ) : Prop where
  parts : l = before ++ behind
  index_eq : span before + pos = index
  inside : ∀ run ∈ behind.head?, pos < run.length
  atEnd : behind = [] → pos = 0

lemma scanFrom_spec (l : List (Run α)) (s : Scanner) {index : ℕ} (hle : s.total ≤ index)
    (hin : index ≤ s.total + span l) :
    ∃ before behind pos, scanFrom l s index = (⟨s.it + before.length, s.total + span before⟩, pos) ∧
      Cut l (index - s.total) before behind pos := by
  induction l generalizing s with
  | nil =>
    rw [span_nil] at hin
    refine ⟨[], [], 0, rfl, rfl, ?_, (fun _ h => nomatch h), fun _ => rfl⟩
    rw [span_nil]
    omega
  | cons run rest ih =>
    unfold scanFrom
    by_cases hhere : index < s.total + run.length
    · rw [if_pos hhere]
      refine ⟨[], run :: rest, index - s.total, rfl, rfl, by rw [span_nil, Nat.zero_add], fun r hr => ?_, fun h => nomatch h⟩
      obtain rfl : run = r := by simpa using hr
      omega
    · rw [if_neg hhere]
      rw [span_cons] at hin
      obtain ⟨before, behind, pos, hscan, hcut⟩ := ih ⟨s.it + 1, s.total + run.length⟩
        (by dsimp only; omega) (by dsimp only; omega)
      refine ⟨run :: before, behind, pos, ?_, ?_, ?_, hcut.inside, hcut.atEnd⟩
      · rw [hscan, List.length_cons, span_cons]
        dsimp only
        congr 2
        · omega
        · omega
      · rw [hcut.parts]
        rfl
      · have hindex := hcut.index_eq
        dsimp only at hindex
        rw [span_cons]
        omega

/-- A scan from the beginning. -/
lemma scan_spec (l : List (Run α)) {index : ℕ} (hin : index ≤ span l) :
    ∃ before behind pos, scanFrom l ⟨0, 0⟩ index = (⟨before.length, span before⟩, pos) ∧
      Cut l index before behind pos := by
  obtain ⟨before, behind, pos, hscan, hcut⟩ := scanFrom_spec l ⟨0, 0⟩ (Nat.zero_le index) (by rwa [Nat.zero_add])
  rw [Nat.zero_add, Nat.zero_add] at hscan
  exact ⟨before, behind, pos, hscan, hcut⟩

/-- A scan that goes on. -/
lemma Cut.scan {l before behind : List (Run α)} {index pos : ℕ} (hcut : Cut l index before behind pos) {index' : ℕ}
    (hle : index ≤ index') (hin : index' ≤ span l) :
    ∃ between behind' pos',
      scanFrom (l.drop before.length) ⟨before.length, span before⟩ index' =
        (⟨(before ++ between).length, span (before ++ between)⟩, pos') ∧
      Cut l index' (before ++ between) behind' pos' := by
  have hparts := hcut.parts
  have hindex := hcut.index_eq
  have hspan := congrArg span hparts
  rw [span_append] at hspan
  obtain ⟨between, behind', pos', hscan, hcut'⟩ := @scanFrom_spec _ behind ⟨before.length, span before⟩ index'
    (by dsimp only; omega) (by dsimp only; omega)
  refine ⟨between, behind', pos', ?_, ?_, ?_, hcut'.inside, hcut'.atEnd⟩
  · rw [hparts, List.drop_left, hscan, List.length_append, span_append]
  · rw [hparts, hcut'.parts, List.append_assoc]
  · have hindex' := hcut'.index_eq
    dsimp only at hindex'
    rw [span_append]
    omega

/-- The runs in front of the column. -/
def keptFront (before behind : List (Run α)) (pos : ℕ) : List (Run α) :=
  before ++ if pos = 0 then [] else (behind.head?.map (setLength pos)).toList

/-- The runs from the column on. -/
def keptBack (behind : List (Run α)) (pos : ℕ) : List (Run α) := behind.modify 0 (subLength pos)

section Cut

variable {l before behind : List (Run α)} {index pos : ℕ} (hcut : Cut l index before behind pos)

include hcut

lemma Cut.expand_keptFront : expand (keptFront before behind pos) = (expand l).take index := by
  have hindex := hcut.index_eq
  unfold keptFront
  rw [hcut.parts, expand_append, expand_append, ← hindex, ← length_expand before, List.take_length_add_append]
  congr 1
  cases behind with
  | nil =>
    rw [hcut.atEnd rfl]
    rfl
  | cons run rest =>
    have hin := hcut.inside run rfl
    by_cases hzero : pos = 0
    · rw [if_pos hzero, hzero, List.take_zero]
      rfl
    · rw [if_neg hzero]
      show expand [setLength pos run] = _
      rw [expand_cons, expand_cons, expand_nil, List.append_nil, List.take_append_of_le_length
        (by rw [List.length_replicate]; exact hin.le), List.take_replicate, Nat.min_eq_left hin.le]
      rfl

lemma Cut.expand_keptBack : expand (keptBack behind pos) = (expand l).drop index := by
  have hindex := hcut.index_eq
  unfold keptBack
  rw [hcut.parts, expand_append, ← hindex, ← length_expand before, List.drop_length_add_append]
  cases behind with
  | nil =>
    rw [hcut.atEnd rfl]
    rfl
  | cons run rest =>
    have hin := hcut.inside run rfl
    rw [List.modify_zero_cons, expand_cons, expand_cons, List.drop_append_of_le_length
      (by rw [List.length_replicate]; exact hin.le), List.drop_replicate]
    rfl

lemma Cut.canonical_keptFront (hl : Canonical l) : Canonical (keptFront before behind pos) := by
  rw [hcut.parts] at hl
  unfold keptFront
  by_cases hzero : pos = 0
  · rw [if_pos hzero, List.append_nil]
    exact hl.left
  · rw [if_neg hzero]
    cases behind with
    | nil => exact absurd (hcut.atEnd rfl) hzero
    | cons run rest =>
      have hresized := @Canonical.resize _ run (setLength pos run) _ _ hl rfl (Nat.pos_of_ne_zero hzero)
      rw [List.append_cons] at hresized
      exact hresized.left

lemma Cut.canonical_keptBack (hl : Canonical l) : Canonical (keptBack behind pos) := by
  rw [hcut.parts] at hl
  unfold keptBack
  cases behind with
  | nil => exact .nil
  | cons run rest =>
    have hin := hcut.inside run rfl
    exact Canonical.resize (l := []) hl.right rfl (Nat.sub_pos_of_lt hin)

lemma Cut.head_of_lt (hlt : index < span l) : ∃ run rest, behind = run :: rest := by
  have hindex := hcut.index_eq
  have hspan := congrArg span hcut.parts
  rw [span_append] at hspan
  cases behind with
  | nil =>
    have hzero := hcut.atEnd rfl
    rw [span_nil] at hspan
    omega
  | cons run rest => exact ⟨run, rest, rfl⟩

lemma Cut.getElem_runs : l[before.length]? = behind.head? := by
  rw [hcut.parts, List.getElem?_append_right (le_refl _), Nat.sub_self, List.head?_eq_getElem?]

/-- The runs up to and including the column. -/
lemma Cut.through (hl : Canonical l) {run : Run α} {rest : List (Run α)} (hbehind : behind = run :: rest) :
    Canonical (before ++ [setLength (pos + 1) run]) ∧
      expand (before ++ [setLength (pos + 1) run]) = (expand l).take (index + 1) := by
  have hindex := hcut.index_eq
  have hin := hcut.inside run (by rw [hbehind]; rfl)
  have hparts := hcut.parts
  subst hbehind
  rw [hparts] at hl ⊢
  refine ⟨?_, ?_⟩
  · have hresized := @Canonical.resize _ run (setLength (pos + 1) run) _ _ hl rfl (Nat.succ_pos pos)
    rw [List.append_cons] at hresized
    exact hresized.left
  · rw [expand_append, expand_append, ← hindex, Nat.add_assoc, ← length_expand before, List.take_length_add_append]
    show expand before ++ (List.replicate (pos + 1) run.value ++ []) =
      expand before ++ (List.replicate run.length run.value ++ expand rest).take (pos + 1)
    rw [List.append_nil, List.take_append_of_le_length (by rw [List.length_replicate]; exact hin), List.take_replicate,
      Nat.min_eq_left hin]

end Cut

/-! ### Parts and sizes -/

/-- The runs are canonical, and the total length is theirs. -/
structure Sound (r : Rle α) : Prop where
  canonical : Canonical r.runs
  total : r.totalLength = span r.runs

section Sizes

variable {r : Rle α}

lemma create_sound (length : ℕ) (value : α) : (create length value).Sound := by
  unfold create
  by_cases hzero : length = 0
  · rw [if_pos hzero]
    exact ⟨.nil, hzero⟩
  · rw [if_neg hzero]
    exact ⟨.singleton (Nat.pos_of_ne_zero hzero), rfl⟩

@[simp] lemma expand_create (length : ℕ) (value : α) :
    expand (create length value).runs = List.replicate length value := by
  unfold create
  by_cases hzero : length = 0
  · rw [if_pos hzero, hzero]
    rfl
  · rw [if_neg hzero]
    exact List.append_nil _

/-- A part that is not empty. -/
lemma slice_spec (hr : r.Sound) {start stop : ℕ} (hlt : start < stop) (hstop : stop ≤ r.totalLength) :
    (r.slice start stop).Sound ∧ expand (r.slice start stop).runs = ((expand r.runs).take stop).drop start := by
  have htotal := hr.total
  obtain ⟨before, behind, pos, hscan, hcut⟩ := @scan_spec _ r.runs start (by omega)
  obtain ⟨between, behind', pos', hscan', hcut'⟩ := @Cut.scan _ _ _ _ _ _ hcut (stop - 1) (by omega) (by omega)
  obtain ⟨last, rest, hbehind'⟩ := hcut'.head_of_lt (by omega)
  obtain ⟨hcanonical, hexpand⟩ := hcut'.through hr.canonical hbehind'
  rw [Nat.sub_add_cancel (by omega)] at hexpand
  -- The slice is what begins at `start` of the runs up to `stop`.
  have hpart : Cut (before ++ (between ++ [setLength (pos' + 1) last])) start before
      (between ++ [setLength (pos' + 1) last]) pos := by
    refine ⟨rfl, hcut.index_eq, fun run hrun => ?_, fun h => ?_⟩
    · have hparts := hcut.parts.symm.trans hcut'.parts
      rw [List.append_assoc, List.append_cancel_left_eq, hbehind'] at hparts
      cases between with
      | nil =>
        obtain rfl : setLength (pos' + 1) last = run := by simpa using hrun
        have hindex := hcut.index_eq
        have hindex' := hcut'.index_eq
        rw [List.append_nil] at hindex'
        show pos < pos' + 1
        omega
      | cons x t =>
        obtain rfl : x = run := by simpa using hrun
        exact hcut.inside x (by rw [hparts]; rfl)
    · cases between with
      | nil => cases h
      | cons x t => cases h
  have hslice : r.slice start stop =
      ⟨keptBack (between ++ [setLength (pos' + 1) last]) pos, stop - start⟩ := by
    unfold slice
    dsimp only
    rw [Nat.min_eq_left hstop, if_neg (by omega), hscan]
    dsimp only
    rw [hscan']
    have htake : (r.runs.take ((before ++ between).length + 1)).drop before.length = between ++ [last] := by
      rw [hcut'.parts, hbehind', List.take_length_add_append, List.append_assoc, List.drop_left]
      rfl
    have hmodify : (between ++ [last]).modify ((between ++ [last]).length - 1) (setLength (pos' + 1)) =
        between ++ [setLength (pos' + 1) last] := by
      rw [List.length_append, List.length_singleton, Nat.add_sub_cancel, List.modify_eq_take_drop, List.take_left,
        List.drop_left]
      rfl
    dsimp only
    rw [htake, hmodify]
    rfl
  rw [hslice]
  rw [← List.append_assoc] at hpart
  have hkept := hpart.expand_keptBack
  refine ⟨⟨hpart.canonical_keptBack hcanonical, ?_⟩, ?_⟩
  · have hlength := congrArg List.length hkept
    rw [length_expand, hexpand, List.length_drop, List.length_take, length_expand, Nat.min_eq_left (by omega)] at hlength
    exact hlength.symm
  · rw [hkept, hexpand]

/-- **`resize_trailing_extent`.** -/
theorem resizeTrailingExtent_spec (hr : r.Sound) {size : ℕ} (hpos : 0 < r.totalLength) :
    (r.resizeTrailingExtent size).Sound ∧
      expand (r.resizeTrailingExtent size).runs = VT7.Buffer.resizeTrailingExtent (expand r.runs) size ∧
      (r.resizeTrailingExtent size).totalLength = size := by
  have htotal := hr.total
  have hne : r.runs ≠ [] := by
    intro h
    rw [h, span_nil] at htotal
    omega
  obtain ⟨front, last, hlast⟩ : ∃ front last, r.runs = front ++ [last] :=
    ⟨_, _, (List.dropLast_append_getLast hne).symm⟩
  have hlastPos : 0 < last.length := hr.canonical.pos last (by rw [hlast]; simp)
  have hgetLast : (expand r.runs).getLast? = some last.value := by
    rw [hlast, expand_append, expand_cons, expand_nil, List.append_nil, List.getLast?_append_of_ne_nil]
    · rw [List.getLast?_replicate, if_neg hlastPos.ne']
    · rw [Ne, List.replicate_eq_nil_iff]
      exact hlastPos.ne'
  unfold VT7.Buffer.resizeTrailingExtent
  rw [hgetLast]
  dsimp only
  rw [length_expand, ← htotal]
  unfold resizeTrailingExtent
  by_cases hzero : size = 0
  · rw [if_pos hzero, hzero]
    exact ⟨⟨.nil, rfl⟩, by rw [Nat.zero_sub]; rfl, rfl⟩
  · rw [if_neg hzero]
    by_cases hless : size < r.totalLength
    · rw [if_pos hless]
      obtain ⟨before, behind, pos, hscan, hcut⟩ := @scan_spec _ r.runs (size - 1) (by omega)
      obtain ⟨run, rest, hbehind⟩ := hcut.head_of_lt (by omega)
      obtain ⟨hcanonical, hexpand⟩ := hcut.through hr.canonical hbehind
      rw [Nat.sub_add_cancel (by omega)] at hexpand
      have hruns : (r.runs.modify before.length (setLength (pos + 1))).take (before.length + 1) =
          before ++ [setLength (pos + 1) run] := by
        rw [hcut.parts, hbehind, List.modify_eq_take_drop, List.take_left, List.drop_left, List.take_length_add_append]
        rfl
      rw [hscan]
      dsimp only
      rw [hruns]
      refine ⟨⟨hcanonical, ?_⟩, ?_, rfl⟩
      · have hlength := congrArg List.length hexpand
        rw [length_expand, List.length_take, length_expand, Nat.min_eq_left (by omega)] at hlength
        exact hlength.symm
      · rw [hexpand, Nat.sub_eq_zero_of_le hless.le, List.replicate_zero, List.append_nil]
    · rw [if_neg hless]
      have htake : (expand r.runs).take size = expand r.runs :=
        List.take_of_length_le (by rw [length_expand]; omega)
      by_cases hmore : r.totalLength < size
      · rw [if_pos hmore, htake]
        have hruns : r.runs.modify (r.runs.length - 1) (addLength (size - r.totalLength)) =
            front ++ [addLength (size - r.totalLength) last] := by
          rw [hlast, List.length_append, List.length_singleton, Nat.add_sub_cancel, List.modify_eq_take_drop,
            List.take_left, List.drop_left]
          rfl
        rw [hruns]
        have hcanonical := hr.canonical
        rw [hlast] at hcanonical htotal ⊢
        rw [span_append, span_cons, span_nil] at htotal
        refine ⟨⟨hcanonical.resize rfl (Nat.add_pos_left hlastPos _), ?_⟩, ?_, rfl⟩
        · rw [span_append, span_cons, span_nil]
          show size = span front + (last.length + (size - r.totalLength) + 0)
          omega
        · rw [expand_append, expand_append, List.append_assoc]
          congr 1
          show List.replicate (last.length + (size - r.totalLength)) last.value ++ [] = _
          rw [List.append_nil, List.replicate_add, expand_cons, expand_nil, List.append_nil]
      · obtain rfl : size = r.totalLength := by omega
        rw [if_neg hmore, htake, Nat.sub_self, List.replicate_zero, List.append_nil]
        exact ⟨⟨hr.canonical, htotal⟩, rfl, rfl⟩

end Sizes

end Rle

end VT7.Buffer
