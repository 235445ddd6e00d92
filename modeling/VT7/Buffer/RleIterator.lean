import Mathlib.Algebra.Group.Nat.Defs
import VT7.Buffer.Rle

/-!
# Iterators over run lengths

`rle_iterator` keeps a run and a position in it.  Its index is the number of elements before it; the operators are those
of an iterator over the decoded elements, but for the two postfix ones: these move the copy that they return and leave
the iterator where it is.

An operator that would read behind the runs, or go before them, has no result.  Positions have `bits` bits.
-/

namespace VT7.Buffer.Rle

open VT7.Lib.RunLength

variable {α : Type}

namespace Iterator

variable (bits : ℕ) (runs : List (Run α)) (i j : Iterator)

/-- A value of the size type. -/
def narrowed (n : ℤ) : ℕ := (n % (2 ^ bits : ℕ)).toNat

/-! ### The operators -/

/-- Prefix `operator++`. -/
def increment : Option Iterator :=
  runs[i.it]?.map fun run =>
    let pos := narrowed bits (i.pos + 1)
    if pos = run.length then ⟨i.it + 1, 0⟩ else ⟨i.it, pos⟩

/-- Postfix `operator++`: the iterator afterwards, and what is returned. -/
def postIncrement : Option (Iterator × Iterator) := (i.increment bits runs).map fun tmp => (i, tmp)

/-- Prefix `operator--`. -/
def decrement : Option Iterator :=
  if i.pos = 0 then
    if i.it = 0 then none
    else runs[i.it - 1]?.map fun run => ⟨i.it - 1, narrowed bits (run.length - 1)⟩
  else some ⟨i.it, narrowed bits (i.pos - 1)⟩

/-- Postfix `operator--`. -/
def postDecrement : Option (Iterator × Iterator) := (i.decrement bits runs).map fun tmp => (i, tmp)

/-- The loop of `operator+=` that moves forward, over the runs from the iterator's on. -/
def moveForward : List (Run α) → Iterator → (move : ℤ) → Option Iterator
  | [], i, move => if 0 < move then none else some i
  | run :: rest, i, move =>
    if 0 < move then
      let space := (run.length : ℤ) - i.pos
      if move < space then some ⟨i.it, narrowed bits (i.pos + narrowed bits move)⟩
      else moveForward rest ⟨i.it + 1, 0⟩ (move - space)
    else some i

/-- The loop that moves backward. -/
def moveBackward : (it pos : ℕ) → (move : ℤ) → Option Iterator
  | it, pos, move =>
    if 0 < move then
      let space : ℤ := pos
      if move ≤ space then some ⟨it, narrowed bits (pos - narrowed bits move)⟩
      else match it with
        | 0 => none
        | it + 1 =>
          match runs[it]? with
          | none => none
          | some run => moveBackward it (narrowed bits (run.length - 1)) (move - (pos + 1))
    else some ⟨it, pos⟩

/-- `operator+=`. -/
def addAssign (move : ℤ) : Option Iterator :=
  if 0 ≤ move then moveForward bits (runs.drop i.it) i move else moveBackward bits runs i.it i.pos (-move)

/-- `operator-=`. -/
def subAssign (offset : ℤ) : Option Iterator := i.addAssign bits runs (-offset)

/-- `operator+`. -/
def add (offset : ℤ) : Option Iterator := i.addAssign bits runs offset

/-- `operator-` with an offset. -/
def sub (offset : ℤ) : Option Iterator := i.subAssign bits runs offset

def eq : Bool := i.it = j.it && i.pos = j.pos
def ne : Bool := !i.eq j
def lt : Bool := i.it < j.it || (i.it = j.it && i.pos < j.pos)
def gt : Bool := j.lt i
def le : Bool := !j.lt i
def ge : Bool := !i.lt j

/-- `operator-` of two iterators. -/
def difference : ℤ :=
  let negative := i.lt j
  let lower := if negative then i else j
  let upper := if negative then j else i
  let distance : ℤ := span ((runs.drop lower.it).take (upper.it - lower.it))
  let distance := distance - lower.pos + upper.pos
  if negative then -distance else distance

/-- `operator*`. -/
def get : Option α := runs[i.it]?.map Run.value

/-- `operator[]`. -/
def getAt (offset : ℤ) : Option α := (i.add bits runs offset).bind (get runs)

/-! ### Positions -/

/-- The iterator points to an element, or to the end. -/
structure Valid : Prop where
  it_le : i.it ≤ runs.length
  pos_lt : ∀ run, runs[i.it]? = some run → i.pos < run.length
  pos_end : i.it = runs.length → i.pos = 0

/-- The number of the elements before it. -/
def index : ℕ := span (runs.take i.it) + i.pos

/-- No run is empty, and the lengths have the size type. -/
def Filled : Prop := ∀ run ∈ runs, 0 < run.length ∧ run.length < 2 ^ bits

variable {bits runs i j}

lemma narrowed_natCast {n : ℕ} (h : n < 2 ^ bits) : narrowed bits n = n := by
  unfold narrowed
  rw [Int.emod_eq_of_lt (Int.natCast_nonneg n) (Int.ofNat_lt.mpr h), Int.toNat_natCast]

lemma span_take_succ {it : ℕ} {run : Run α} (h : runs[it]? = some run) :
    span (runs.take (it + 1)) = span (runs.take it) + run.length := by
  rw [List.take_add_one, h, span_append]
  rfl

lemma span_take_drop {l u : ℕ} (h : l ≤ u) :
    span (runs.take u) = span (runs.take l) + span ((runs.drop l).take (u - l)) := by
  obtain ⟨k, rfl⟩ := Nat.exists_eq_add_of_le h
  rw [List.take_add, span_append, Nat.add_sub_cancel_left]

lemma span_take_le (it : ℕ) : span (runs.take it) ≤ span runs := by
  have hsplit := congrArg span (List.take_append_drop it runs)
  rw [span_append] at hsplit
  omega

lemma Filled.pos (h : Filled bits runs) {it : ℕ} {run : Run α} (hrun : runs[it]? = some run) :
    0 < run.length ∧ run.length < 2 ^ bits := h run (List.mem_of_getElem? hrun)

/-- The beginning of a run is a position, and so is the end. -/
lemma Filled.valid_start (h : Filled bits runs) {it : ℕ} (hit : it ≤ runs.length) : Valid runs ⟨it, 0⟩ :=
  ⟨hit, fun _ hrun => (h.pos hrun).1, fun _ => rfl⟩

namespace Valid

/-- An iterator points to an element, or it is at the end. -/
lemma cases (hi : Valid runs i) :
    (∃ run, runs[i.it]? = some run ∧ i.pos < run.length ∧ index runs i < span runs) ∨
      i.it = runs.length ∧ i.pos = 0 ∧ index runs i = span runs := by
  rcases Nat.lt_or_eq_of_le hi.it_le with hlt | heq
  · have hrun : runs[i.it]? = some runs[i.it] := List.getElem?_eq_getElem hlt
    have hpos := hi.pos_lt _ hrun
    have hsucc := span_take_succ hrun
    have hle := @span_take_le _ runs (i.it + 1)
    refine .inl ⟨_, hrun, hpos, ?_⟩
    unfold index
    omega
  · refine .inr ⟨heq, hi.pos_end heq, ?_⟩
    unfold index
    rw [heq, hi.pos_end heq, List.take_length, Nat.add_zero]

/-- The run of an iterator that is not at the end. -/
lemma exists_run (hi : Valid runs i) (h : index runs i < span runs) :
    ∃ run, runs[i.it]? = some run ∧ i.pos < run.length := by
  rcases hi.cases with ⟨run, hrun, hpos, -⟩ | ⟨-, -, hend⟩
  · exact ⟨run, hrun, hpos⟩
  · omega

/-- What the iterator points to. -/
lemma get_eq (hi : Valid runs i) : i.get runs = (expand runs)[index runs i]? := by
  unfold get
  rcases hi.cases with ⟨run, hrun, hpos, -⟩ | ⟨hit, -, hend⟩
  · have hlt : i.it < runs.length := (List.getElem?_eq_some_iff.mp hrun).1
    have hparts : runs = runs.take i.it ++ run :: runs.drop (i.it + 1) := by
      rw [← (List.getElem?_eq_some_iff.mp hrun).2, List.cons_getElem_drop_succ, List.take_append_drop]
    have hexpand : expand runs = expand (runs.take i.it) ++ (List.replicate run.length run.value ++
        expand (runs.drop (i.it + 1))) := by
      conv_lhs => rw [hparts]
      rw [expand_append, expand_cons]
    have hindex : index runs i = (expand (runs.take i.it)).length + i.pos := by
      rw [length_expand]
      rfl
    rw [hrun, hexpand, hindex, List.getElem?_append_right (Nat.le_add_right _ _), Nat.add_sub_cancel_left,
      List.getElem?_append_left (by rwa [List.length_replicate]), List.getElem?_replicate_of_lt hpos]
    rfl
  · rw [List.getElem?_eq_none (by omega), List.getElem?_eq_none (by rw [length_expand]; omega)]
    rfl

/-- The order of iterators is the order of their indices. -/
lemma lt_iff (hi : Valid runs i) (hj : Valid runs j) : i.lt j = true ↔ index runs i < index runs j := by
  -- An iterator in an earlier run is at a smaller index.
  have hrun : ∀ {a b : Iterator}, Valid runs a → Valid runs b → a.it < b.it → index runs a < index runs b := by
    intro a b ha hb hlt
    obtain ⟨run, hrun⟩ : ∃ run, runs[a.it]? = some run := ⟨_, List.getElem?_eq_getElem (hlt.trans_le hb.it_le)⟩
    have hpos := ha.pos_lt _ hrun
    have hsucc := span_take_succ hrun
    have hle := @span_take_drop _ runs (a.it + 1) b.it hlt
    unfold index
    omega
  unfold lt
  simp only [Bool.or_eq_true, Bool.and_eq_true, decide_eq_true_eq]
  rcases Nat.lt_trichotomy i.it j.it with hlt | heq | hgt
  · exact iff_of_true (.inl hlt) (hrun hi hj hlt)
  · unfold index
    rw [heq]
    omega
  · have := hrun hj hi hgt
    exact iff_of_false (by omega) (by omega)

lemma eq_iff (hi : Valid runs i) (hj : Valid runs j) : i.eq j = true ↔ index runs i = index runs j := by
  have hij := hi.lt_iff hj
  have hji := hj.lt_iff hi
  unfold eq
  unfold lt at hij hji
  simp only [Bool.or_eq_true, Bool.and_eq_true, decide_eq_true_eq] at hij hji ⊢
  omega

end Valid

/-! ### Moves -/

/-- The iterator at an index. -/
def IsAt (runs : List (Run α)) (i : Iterator) (n : ℤ) : Prop := Valid runs i ∧ (index runs i : ℤ) = n

section Moves

variable (hr : Filled bits runs) (hi : Valid runs i)
include hr hi

theorem increment_at (h : index runs i < span runs) :
    ∃ j, i.increment bits runs = some j ∧ IsAt runs j (index runs i + 1) := by
  obtain ⟨run, hrun, hpos⟩ := hi.exists_run h
  have hfits := hr.pos hrun
  have hsucc := span_take_succ hrun
  have hnarrow : narrowed bits (i.pos + 1) = i.pos + 1 := narrowed_natCast (show i.pos + 1 < 2 ^ bits by omega)
  unfold increment
  rw [hrun, Option.map_some]
  dsimp only
  rw [hnarrow]
  by_cases hlast : i.pos + 1 = run.length
  · refine ⟨_, congrArg some (if_pos hlast), hr.valid_start (List.getElem?_eq_some_iff.mp hrun).1, ?_⟩
    unfold index
    dsimp only
    omega
  · refine ⟨_, congrArg some (if_neg hlast), ⟨hi.it_le, fun run' hrun' => ?_, fun hend => ?_⟩, ?_⟩
    · obtain rfl : run = run' := Option.some.inj (hrun.symm.trans hrun')
      show i.pos + 1 < run.length
      omega
    · rw [List.getElem?_eq_none (Nat.le_of_eq hend.symm)] at hrun
      cases hrun
    · unfold index
      dsimp only
      omega

theorem decrement_at (h : 0 < index runs i) :
    ∃ j, i.decrement bits runs = some j ∧ IsAt runs j (index runs i - 1) := by
  unfold decrement
  by_cases hzero : i.pos = 0
  · have hit : i.it ≠ 0 := fun hit => by
      unfold index at h
      rw [hit, hzero] at h
      exact absurd h (Nat.lt_irrefl 0)
    have hlt : i.it - 1 < runs.length := by
      have := hi.it_le
      omega
    obtain ⟨run, hrun⟩ : ∃ run, runs[i.it - 1]? = some run := ⟨_, List.getElem?_eq_getElem hlt⟩
    have hfits := hr.pos hrun
    have hsucc := span_take_succ hrun
    have hnarrow : narrowed bits ((run.length : ℤ) - 1) = run.length - 1 := by
      rw [show (run.length : ℤ) - 1 = (run.length - 1 : ℕ) by omega]
      exact narrowed_natCast (by omega)
    rw [Nat.sub_add_cancel (Nat.pos_of_ne_zero hit)] at hsucc
    rw [if_pos hzero, if_neg hit, hrun, Option.map_some, hnarrow]
    refine ⟨_, rfl, ⟨by have := hi.it_le; dsimp only; omega, fun run' hrun' => ?_, fun hend => ?_⟩, ?_⟩
    · obtain rfl : run = run' := Option.some.inj (hrun.symm.trans hrun')
      exact Nat.sub_lt hfits.1 Nat.one_pos
    · have := hi.it_le
      dsimp only at hend
      omega
    · unfold index
      dsimp only
      omega
  · have hlt : i.pos < 2 ^ bits := by
      rcases hi.cases with ⟨run, hrun, hpos, -⟩ | ⟨-, hpos, -⟩
      · exact hpos.trans (hr.pos hrun).2
      · exact absurd hpos hzero
    have hnarrow : narrowed bits ((i.pos : ℤ) - 1) = i.pos - 1 := by
      rw [show (i.pos : ℤ) - 1 = (i.pos - 1 : ℕ) by omega]
      exact narrowed_natCast (by omega)
    rw [if_neg hzero, hnarrow]
    refine ⟨_, rfl, ⟨hi.it_le, fun run hrun => ?_, fun hend => absurd (hi.pos_end hend) hzero⟩, ?_⟩
    · exact (Nat.sub_le _ _).trans_lt (hi.pos_lt run hrun)
    · unfold index
      dsimp only
      omega

omit hi in
/-- The loop that moves forward; `front` are the runs before the iterator's. -/
theorem moveForward_at {front rest : List (Run α)} (hparts : runs = front ++ rest) (hi : Valid runs i)
    (hit : i.it = front.length) {move : ℤ} (hmove : 0 ≤ move) (hin : index runs i + move ≤ span runs) :
    ∃ j, moveForward bits rest i move = some j ∧ IsAt runs j (index runs i + move) := by
  induction rest generalizing front i move with
  | nil =>
    have hend : index runs i = span runs := by
      rcases hi.cases with ⟨run, hrun, -⟩ | ⟨-, -, h⟩
      · have hlt := (List.getElem?_eq_some_iff.mp hrun).1
        rw [hparts, List.append_nil] at hlt
        omega
      · exact h
    unfold moveForward
    rw [if_neg (by omega)]
    exact ⟨i, rfl, hi, by omega⟩
  | cons run rest ih =>
    have hrun : runs[i.it]? = some run := by
      rw [hparts, hit, List.getElem?_append_right le_rfl, Nat.sub_self]
      rfl
    have hpos := hi.pos_lt run hrun
    have hfits := hr.pos hrun
    have hsucc := span_take_succ hrun
    unfold moveForward
    by_cases hmoves : 0 < move
    swap
    · rw [if_neg hmoves]
      exact ⟨i, rfl, hi, by omega⟩
    rw [if_pos hmoves]
    by_cases hspace : move < (run.length : ℤ) - i.pos
    · obtain ⟨n, rfl⟩ := Int.eq_ofNat_of_zero_le hmove
      have hnarrow : narrowed bits ((i.pos : ℤ) + narrowed bits (n : ℤ)) = i.pos + n := by
        rw [narrowed_natCast (show n < 2 ^ bits by omega), ← Int.natCast_add]
        exact narrowed_natCast (by omega)
      dsimp only
      rw [if_pos hspace, hnarrow]
      refine ⟨_, rfl, ⟨hi.it_le, fun run' hrun' => ?_, fun hend => ?_⟩, ?_⟩
      · obtain rfl : run = run' := Option.some.inj (hrun.symm.trans hrun')
        show i.pos + n < run.length
        omega
      · rw [List.getElem?_eq_none (Nat.le_of_eq hend.symm)] at hrun
        cases hrun
      · unfold index
        push_cast
        omega
    · dsimp only
      rw [if_neg hspace]
      -- The run is left behind, and with it the rest of its elements.
      have hstart : Valid runs ⟨i.it + 1, 0⟩ := hr.valid_start (List.getElem?_eq_some_iff.mp hrun).1
      have hindex : (index runs ⟨i.it + 1, 0⟩ : ℤ) = index runs i + ((run.length : ℤ) - i.pos) := by
        unfold index
        dsimp only
        omega
      obtain ⟨j, hj, hvalid, hend⟩ := @ih _ (front ++ [run]) (by rw [hparts, List.append_assoc]; rfl) hstart
        (by rw [List.length_append, hit]; rfl) (move - ((run.length : ℤ) - i.pos)) (by omega) (by omega)
      exact ⟨j, hj, hvalid, by omega⟩

omit hi in
lemma pos_lt_size {it pos : ℕ} (hi : Valid runs ⟨it, pos⟩) (h : 0 < pos) : pos < 2 ^ bits := by
  rcases hi.cases with ⟨run, hrun, hpos, -⟩ | ⟨-, hpos, -⟩
  · exact hpos.trans (hr.pos hrun).2
  · exact absurd hpos h.ne'

omit hi in
/-- A move backward inside a run. -/
lemma retreat_at {it pos : ℕ} (hi : Valid runs ⟨it, pos⟩) {move : ℤ} (hmove : 0 < move) (hpos : move ≤ pos) :
    IsAt runs ⟨it, narrowed bits (pos - narrowed bits move)⟩ (index runs ⟨it, pos⟩ - move) := by
  obtain ⟨n, rfl⟩ := Int.eq_ofNat_of_zero_le (Int.le_of_lt hmove)
  have hlt := pos_lt_size hr hi (by omega)
  have hnarrow : narrowed bits ((pos : ℤ) - narrowed bits (n : ℤ)) = pos - n := by
    rw [narrowed_natCast (show n < 2 ^ bits by omega), show (pos : ℤ) - (n : ℕ) = (pos - n : ℕ) by omega]
    exact narrowed_natCast (by omega)
  rw [hnarrow]
  refine ⟨⟨hi.it_le, fun run hrun => ?_, fun hend => ?_⟩, ?_⟩
  · exact (Nat.sub_le _ _).trans_lt (hi.pos_lt run hrun)
  · have hzero : pos = 0 := hi.pos_end hend
    omega
  · unfold index
    dsimp only
    omega

omit hi in
/-- The loop that moves backward. -/
theorem moveBackward_at {it pos : ℕ} (hi : Valid runs ⟨it, pos⟩) {move : ℤ} (hmove : 0 ≤ move)
    (hin : move ≤ index runs ⟨it, pos⟩) :
    ∃ j, moveBackward bits runs it pos move = some j ∧ IsAt runs j (index runs ⟨it, pos⟩ - move) := by
  induction it generalizing pos move with
  | zero =>
    have hindex : index runs ⟨0, pos⟩ = pos := Nat.zero_add pos
    unfold moveBackward
    by_cases hmoves : 0 < move
    · dsimp only
      rw [if_pos hmoves, if_pos (by omega)]
      exact ⟨_, rfl, retreat_at hr hi hmoves (by omega)⟩
    · rw [if_neg hmoves]
      exact ⟨_, rfl, hi, by omega⟩
  | succ it ih =>
    unfold moveBackward
    by_cases hmoves : 0 < move
    swap
    · rw [if_neg hmoves]
      exact ⟨_, rfl, hi, by omega⟩
    dsimp only
    rw [if_pos hmoves]
    by_cases hspace : move ≤ pos
    · rw [if_pos hspace]
      exact ⟨_, rfl, retreat_at hr hi hmoves hspace⟩
    rw [if_neg hspace]
    -- The last element of the run before is one further.
    have hlt : it < runs.length := hi.it_le
    have hrun : runs[it]? = some runs[it] := List.getElem?_eq_getElem hlt
    have hfits := hr.pos hrun
    have hsucc := span_take_succ hrun
    generalize runs[it] = run at *
    have hnarrow : narrowed bits ((run.length : ℤ) - 1) = run.length - 1 := by
      rw [show (run.length : ℤ) - 1 = (run.length - 1 : ℕ) by omega]
      exact narrowed_natCast (by omega)
    have hlast : Valid runs ⟨it, run.length - 1⟩ := by
      refine ⟨hlt.le, fun run' hrun' => ?_, fun hend => absurd hend hlt.ne⟩
      obtain rfl : run = run' := Option.some.inj (hrun.symm.trans hrun')
      exact Nat.sub_lt hfits.1 Nat.one_pos
    have hindex : (index runs ⟨it, run.length - 1⟩ : ℤ) = index runs ⟨it + 1, pos⟩ - (pos + 1) := by
      unfold index
      dsimp only
      omega
    rw [hrun]
    dsimp only
    rw [hnarrow]
    obtain ⟨j, hj, hvalid, hend⟩ := @ih (run.length - 1) hlast (move - (pos + 1)) (by omega) (by omega)
    exact ⟨j, hj, hvalid, by omega⟩

/-- **`operator+=`** in either direction. -/
theorem addAssign_at {move : ℤ} (hlo : 0 ≤ index runs i + move) (hhi : index runs i + move ≤ span runs) :
    ∃ j, i.addAssign bits runs move = some j ∧ IsAt runs j (index runs i + move) := by
  unfold addAssign
  by_cases hmove : 0 ≤ move
  · rw [if_pos hmove]
    exact moveForward_at hr (List.take_append_drop i.it runs).symm hi (List.length_take_of_le hi.it_le).symm hmove hhi
  · rw [if_neg hmove]
    have hself : index runs ⟨i.it, i.pos⟩ = index runs i := rfl
    obtain ⟨j, hj, hvalid, hindex⟩ := moveBackward_at hr hi (show 0 ≤ -move by omega) (by omega)
    exact ⟨j, hj, hvalid, by omega⟩

omit hr in
/-- **The difference of two iterators.** -/
theorem difference_eq (hj : Valid runs j) : i.difference runs j = index runs i - index runs j := by
  have hlt := hi.lt_iff hj
  -- The runs from the lower iterator up to the upper one.
  have hbetween : ∀ {l u : Iterator}, l.it ≤ u.it →
      (span ((runs.drop l.it).take (u.it - l.it)) : ℤ) - l.pos + u.pos = index runs u - index runs l := by
    intro l u hle
    have hsplit := @span_take_drop _ runs l.it u.it hle
    unfold index
    omega
  unfold difference
  cases hcase : i.lt j with
  | true =>
    have hle : i.it ≤ j.it := by
      unfold lt at hcase
      simp only [Bool.or_eq_true, Bool.and_eq_true, decide_eq_true_eq] at hcase
      omega
    simp only [if_true]
    rw [hbetween hle, Int.neg_sub]
  | false =>
    have hle : j.it ≤ i.it := by
      unfold lt at hcase
      simp only [Bool.or_eq_false_iff, Bool.and_eq_false_iff, decide_eq_false_iff_not] at hcase
      omega
    simp only [Bool.false_eq_true, if_false]
    exact hbetween hle

end Moves

/-! ### Index arithmetic -/

/-- An operator, with its right operand. -/
inductive Operation where
  | preIncrement
  | postIncrement
  | preDecrement
  | postDecrement
  | addAssign (offset : ℤ)
  | subAssign (offset : ℤ)
  | add (offset : ℤ)
  | sub (offset : ℤ)
  | getAt (offset : ℤ)
  | difference (right : Iterator)
  | compare (right : Iterator)

namespace Operation

/-- `operator++(int)` and `operator--(int)`. -/
def isPostfix : Operation → Bool
  | postIncrement | postDecrement => true
  | _ => false

/-- The operation stays between the first element and the end. -/
def InRange (runs : List (Run α)) (i : Iterator) : Operation → Prop
  | preIncrement | postIncrement => index runs i < span runs
  | preDecrement | postDecrement => 0 < index runs i
  | addAssign n | add n => 0 ≤ index runs i + n ∧ index runs i + n ≤ span runs
  | subAssign n | sub n => 0 ≤ index runs i - n ∧ index runs i - n ≤ span runs
  | getAt n => 0 ≤ index runs i + n ∧ index runs i + n < span runs
  | difference j | compare j => Valid runs j

/-- An iterator `n` elements further: its index, its distance and its element. -/
def Further (runs : List (Run α)) (i : Iterator) (n : ℤ) (j : Iterator) : Prop :=
  IsAt runs j (index runs i + n) ∧ j.difference runs i = n ∧
    j.get runs = (expand runs)[(index runs i + n).toNat]?

/-- The operation is what index arithmetic on the decoded elements says. -/
def Agrees (bits : ℕ) (runs : List (Run α)) (i : Iterator) : Operation → Prop
  | preIncrement => ∃ j, i.increment bits runs = some j ∧ Further runs i 1 j
  | postIncrement => ∃ j old, i.postIncrement bits runs = some (j, old) ∧ Further runs i 1 j ∧ old = i
  | preDecrement => ∃ j, i.decrement bits runs = some j ∧ Further runs i (-1) j
  | postDecrement => ∃ j old, i.postDecrement bits runs = some (j, old) ∧ Further runs i (-1) j ∧ old = i
  | addAssign n => ∃ j, i.addAssign bits runs n = some j ∧ Further runs i n j
  | subAssign n => ∃ j, i.subAssign bits runs n = some j ∧ Further runs i (-n) j
  | add n => ∃ j, i.add bits runs n = some j ∧ Further runs i n j
  | sub n => ∃ j, i.sub bits runs n = some j ∧ Further runs i (-n) j
  | getAt n => ∃ a, i.getAt bits runs n = some a ∧ (expand runs)[(index runs i + n).toNat]? = some a
  | difference j => i.difference runs j = index runs i - index runs j
  | compare j =>
    (i.eq j = true ↔ index runs i = index runs j) ∧ (i.ne j = true ↔ index runs i ≠ index runs j) ∧
      (i.lt j = true ↔ index runs i < index runs j) ∧ (i.gt j = true ↔ index runs i > index runs j) ∧
      (i.le j = true ↔ index runs i ≤ index runs j) ∧ (i.ge j = true ↔ index runs i ≥ index runs j)

end Operation

section Laws

variable (hr : Filled bits runs) (hi : Valid runs i)
include hi

lemma IsAt.further {n : ℤ} (h : IsAt runs j (index runs i + n)) : Operation.Further runs i n j := by
  obtain ⟨hj, hindex⟩ := h
  refine ⟨⟨hj, hindex⟩, ?_, ?_⟩
  · rw [difference_eq hj hi, hindex]
    omega
  · rw [hj.get_eq, ← hindex, Int.toNat_natCast]

lemma compare_agrees (hj : Valid runs j) : (Operation.compare j).Agrees bits runs i := by
  have heq := hi.eq_iff hj
  have hlt := hi.lt_iff hj
  have hgt := hj.lt_iff hi
  refine ⟨heq, ?_, hlt, hgt, ?_, ?_⟩
  · unfold ne
    rw [Bool.not_eq_true', ← Bool.not_eq_true, heq]
  · unfold le
    rw [Bool.not_eq_true', ← Bool.not_eq_true, hgt, not_lt]
  · unfold ge
    rw [Bool.not_eq_true', ← Bool.not_eq_true, hlt, not_lt]

omit hi in
/-- No iterator is an element away from itself. -/
lemma not_further_self {n : ℤ} (hn : n ≠ 0) : ¬ Operation.Further runs i n i := by
  intro h
  have hindex := h.1.2
  omega

include hr

lemma addAssign_further {n : ℤ} (hlo : 0 ≤ index runs i + n) (hhi : index runs i + n ≤ span runs) :
    ∃ j, i.addAssign bits runs n = some j ∧ Operation.Further runs i n j := by
  obtain ⟨j, hj, hat⟩ := addAssign_at hr hi hlo hhi
  exact ⟨j, hj, hat.further hi⟩

lemma getAt_agrees {n : ℤ} (hlo : 0 ≤ index runs i + n) (hhi : index runs i + n < span runs) :
    (Operation.getAt n).Agrees bits runs i := by
  obtain ⟨j, hj, hfurther⟩ := addAssign_further hr hi hlo (Int.le_of_lt hhi)
  obtain ⟨run, hrun, -⟩ := hfurther.1.1.exists_run (by have := hfurther.1.2; omega)
  have hget : j.get runs = some run.value := by
    unfold get
    rw [hrun]
    rfl
  refine ⟨run.value, ?_, hfurther.2.2.symm.trans hget⟩
  unfold getAt add
  rw [hj]
  exact hget

/-- **Every operator is index arithmetic on the decoded elements, but for the postfix ones, which never are.** -/
theorem agrees_iff_prefix (op : Operation) (h : op.InRange runs i) :
    op.Agrees bits runs i ↔ op.isPostfix = false := by
  cases op with
  | preIncrement =>
    obtain ⟨j, hj, hat⟩ := increment_at hr hi h
    exact iff_of_true ⟨j, hj, hat.further hi⟩ rfl
  | postIncrement | postDecrement =>
    refine iff_of_false ?_ Bool.noConfusion
    rintro ⟨j, old, hresult, hfurther, -⟩
    obtain ⟨tmp, -, hpair⟩ := Option.map_eq_some_iff.mp hresult
    obtain ⟨rfl, -⟩ := Prod.mk.inj hpair
    exact not_further_self (by omega) hfurther
  | preDecrement =>
    obtain ⟨j, hj, hat⟩ := decrement_at hr hi h
    exact iff_of_true ⟨j, hj, IsAt.further hi hat⟩ rfl
  | addAssign | add | subAssign | sub => exact iff_of_true (addAssign_further hr hi h.1 h.2) rfl
  | getAt n => exact iff_of_true (getAt_agrees hr hi h.1 h.2) rfl
  | difference j => exact iff_of_true (difference_eq hi h) rfl
  | compare j => exact iff_of_true (compare_agrees hi h) rfl

end Laws

lemma filled_pair : Filled 16 [(⟨'a', 2⟩ : Run Char), ⟨'b', 3⟩] := by
  intro run hrun
  rcases List.mem_cons.mp hrun with rfl | hrun
  · decide
  · obtain rfl := List.mem_singleton.mp hrun
    decide

/-- Back over the border between two runs. -/
theorem agrees_iff_prefix_across : (Operation.add (-2)).Agrees 16 [(⟨'a', 2⟩ : Run Char), ⟨'b', 3⟩] ⟨1, 1⟩ := by
  suffices h : _ ↔ (Operation.add (-2)).isPostfix = false from h.mpr rfl
  exact agrees_iff_prefix filled_pair ⟨by decide, fun run hrun => by cases hrun; decide, by decide⟩ (.add (-2))
    ⟨by decide, by decide⟩

/-- `it++` at the beginning of two elements: the iterator stays there, and the position behind is returned. -/
theorem postIncrement_stays :
    (⟨0, 0⟩ : Iterator).postIncrement 16 [(⟨'a', 2⟩ : Run Char)] = some (⟨0, 0⟩, ⟨0, 1⟩) ∧
      ¬ Operation.postIncrement.Agrees 16 [(⟨'a', 2⟩ : Run Char)] ⟨0, 0⟩ := by
  have hresult : (⟨0, 0⟩ : Iterator).postIncrement 16 [(⟨'a', 2⟩ : Run Char)] = some (⟨0, 0⟩, ⟨0, 1⟩) := rfl
  refine ⟨hresult, ?_⟩
  rintro ⟨j, old, hagrees, -, hold⟩
  rw [hresult] at hagrees
  obtain ⟨-, hreturned⟩ := Prod.mk.inj (Option.some.inj hagrees)
  rw [hold] at hreturned
  cases hreturned

end Iterator

end VT7.Buffer.Rle
