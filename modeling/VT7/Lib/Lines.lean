import Mathlib.Data.List.Induction

/-!
# Cutting a list behind its terminators

`splitAfter stop xs` cuts `xs` behind every element that satisfies `stop`; each piece keeps its
terminator, and the last piece may be without one.
-/

namespace VT7.Lib.Lines

variable {α : Type*} (stop : α → Bool)

/-- Puts an element in front of the first piece. -/
def consFirst (x : α) : List (List α) → List (List α)
  | [] => [[x]]
  | l :: ls => (x :: l) :: ls

def splitAfter : List α → List (List α)
  | [] => []
  | x :: xs => if stop x then [x] :: splitAfter xs else consFirst x (splitAfter xs)

/-- Nothing, or a list whose last element is a terminator. -/
def Terminated (xs : List α) : Prop := ∀ x ∈ xs.getLast?, stop x = true

variable {stop}

theorem splitAfter_stop {x : α} (h : stop x = true) (xs : List α) :
    splitAfter stop (x :: xs) = [x] :: splitAfter stop xs := by
  simp [splitAfter, h]

theorem splitAfter_other {x : α} (h : stop x = false) (xs : List α) :
    splitAfter stop (x :: xs) = consFirst x (splitAfter stop xs) := by
  simp [splitAfter, h]

theorem consFirst_append (x : α) {ls : List (List α)} (h : ls ≠ []) (ms : List (List α)) :
    consFirst x (ls ++ ms) = consFirst x ls ++ ms := by
  cases ls with
  | nil => exact absurd rfl h
  | cons l ls => rfl

theorem splitAfter_ne_nil {xs : List α} (h : xs ≠ []) : splitAfter stop xs ≠ [] := by
  obtain ⟨x, xs, rfl⟩ := List.exists_cons_of_ne_nil h
  cases hx : stop x with
  | true => simp [splitAfter_stop hx]
  | false =>
    rw [splitAfter_other hx]
    cases splitAfter stop xs <;> simp [consFirst]

theorem Terminated.of_cons {x : α} {xs : List α} (h : Terminated stop (x :: xs)) :
    Terminated stop xs := by
  cases xs with
  | nil => simp [Terminated]
  | cons y ys => simpa [Terminated, List.getLast?_cons_cons] using h

/-- **Behind a terminator the pieces of the two halves do not touch.** -/
theorem splitAfter_append {xs : List α} (h : Terminated stop xs) (ys : List α) :
    splitAfter stop (xs ++ ys) = splitAfter stop xs ++ splitAfter stop ys := by
  induction xs with
  | nil => rfl
  | cons x xs ih =>
    rw [List.cons_append]
    cases hx : stop x with
    | true => rw [splitAfter_stop hx, splitAfter_stop hx, ih h.of_cons, List.cons_append]
    | false =>
      have hne : xs ≠ [] := by
        rintro rfl
        have := h x (by simp)
        rw [hx] at this
        cases this
      rw [splitAfter_other hx, splitAfter_other hx, ih h.of_cons,
        consFirst_append x (splitAfter_ne_nil hne)]

/-- A list without terminators is one piece, and one terminator may follow it. -/
theorem splitAfter_single {xs : List α} (h : ∀ x ∈ xs, stop x = false) (hne : xs ≠ []) :
    splitAfter stop xs = [xs] := by
  induction xs with
  | nil => exact absurd rfl hne
  | cons x xs ih =>
    rw [splitAfter_other (h x (by simp))]
    cases xs with
    | nil => rfl
    | cons y ys =>
      rw [ih (fun z hz => h z (by simp [hz])) (by simp)]
      rfl

theorem splitAfter_line {xs : List α} (h : ∀ x ∈ xs, stop x = false) {t : α}
    (ht : stop t = true) : splitAfter stop (xs ++ [t]) = [xs ++ [t]] := by
  induction xs with
  | nil => simp [splitAfter, ht]
  | cons x xs ih =>
    rw [List.cons_append, splitAfter_other (h x (by simp)), ih (fun z hz => h z (by simp [hz]))]
    rfl

/-- Every nonempty list is a terminated part followed by a part without terminators. -/
theorem exists_terminated_append (xs : List α) :
    ∃ front last, xs = front ++ last ∧ Terminated stop front ∧ ∀ x ∈ last, stop x = false := by
  induction xs using List.reverseRecOn with
  | nil => exact ⟨[], [], rfl, by simp [Terminated], by simp⟩
  | append_singleton xs x ih =>
    cases hx : stop x with
    | true => exact ⟨xs ++ [x], [], by simp, by simp [Terminated, hx], by simp⟩
    | false =>
      obtain ⟨front, last, rfl, hf, hl⟩ := ih
      refine ⟨front, last ++ [x], by simp, hf, ?_⟩
      intro y hy
      rcases List.mem_append.mp hy with hy | hy
      · exact hl y hy
      · obtain rfl : y = x := by simpa using hy
        exact hx

/-! ### Leaving pieces out -/

variable (stop) in
/-- Lists as `splitAfter` gives them: each ends in its only terminator, save perhaps the last one. -/
def Pieces : List (List α) → Prop
  | [] => True
  | l :: ls => (∃ front, (∀ x ∈ front, stop x = false) ∧
      ((∃ t, stop t = true ∧ l = front ++ [t]) ∨ (l = front ∧ front ≠ [] ∧ ls = []))) ∧ Pieces ls

theorem pieces_splitAfter (xs : List α) : Pieces stop (splitAfter stop xs) := by
  induction xs with
  | nil => exact trivial
  | cons x xs ih =>
    cases hx : stop x with
    | true =>
      rw [splitAfter_stop hx]
      exact ⟨⟨[], by simp, .inl ⟨x, hx, rfl⟩⟩, ih⟩
    | false =>
      rw [splitAfter_other hx]
      cases hs : splitAfter stop xs with
      | nil => exact ⟨⟨[x], by simpa using hx, .inr ⟨rfl, by simp, rfl⟩⟩, trivial⟩
      | cons l ls =>
        rw [hs] at ih
        obtain ⟨⟨front, hfree, hshape⟩, hrest⟩ := ih
        refine ⟨⟨x :: front, ?_, ?_⟩, hrest⟩
        · intro y hy
          rcases List.mem_cons.mp hy with rfl | hy
          · exact hx
          · exact hfree y hy
        · rcases hshape with ⟨t, ht, rfl⟩ | ⟨rfl, -, rfl⟩
          · exact .inl ⟨t, ht, rfl⟩
          · exact .inr ⟨rfl, by simp, rfl⟩

theorem Pieces.sublist {ls ls' : List (List α)} (h : Pieces stop ls) (hs : ls'.Sublist ls) :
    Pieces stop ls' := by
  induction hs with
  | slnil => exact trivial
  | cons l _ ih => exact ih h.2
  | cons_cons l hs ih =>
    obtain ⟨⟨front, hfree, hshape⟩, hrest⟩ := h
    refine ⟨⟨front, hfree, ?_⟩, ih hrest⟩
    rcases hshape with hline | ⟨rfl, hne, rfl⟩
    · exact .inl hline
    · exact .inr ⟨rfl, hne, List.sublist_nil.mp hs⟩

theorem splitAfter_flatten {ls : List (List α)} (h : Pieces stop ls) :
    splitAfter stop ls.flatten = ls := by
  induction ls with
  | nil => rfl
  | cons l ls ih =>
    obtain ⟨⟨front, hfree, hshape⟩, hrest⟩ := h
    rcases hshape with ⟨t, ht, rfl⟩ | ⟨rfl, hne, rfl⟩
    · have hterm : Terminated stop (front ++ [t]) := by simpa [Terminated] using ht
      rw [List.flatten_cons, splitAfter_append hterm, splitAfter_line hfree ht, ih hrest]
      rfl
    · rw [List.flatten_cons, List.flatten_nil, List.append_nil, splitAfter_single hfree hne]

/-- **Pieces that are left out do not change the others.** -/
theorem splitAfter_sublist {xs : List α} {ls : List (List α)} (h : ls.Sublist (splitAfter stop xs)) :
    splitAfter stop ls.flatten = ls :=
  splitAfter_flatten ((pieces_splitAfter xs).sublist h)

theorem flatten_splitAfter (xs : List α) : (splitAfter stop xs).flatten = xs := by
  induction xs with
  | nil => rfl
  | cons x xs ih =>
    cases hx : stop x with
    | true => rw [splitAfter_stop hx, List.flatten_cons, ih]; rfl
    | false =>
      rw [splitAfter_other hx]
      cases hs : splitAfter stop xs with
      | nil | cons =>
        rw [hs] at ih
        rw [← ih]
        rfl

end VT7.Lib.Lines
