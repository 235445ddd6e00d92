import Mathlib.Algebra.BigOperators.Group.List.Basic
import Mathlib.Algebra.GroupWithZero.Nat
import Mathlib.Data.List.Infix

/-!
# Filling rows with items

Items have widths and go into rows of a given width, in their order.  `fitting n xs` is the longest front
part of `xs` that fits into `n`.
-/

namespace VT7.Lib.Filling

variable {γ : Type} (width : γ → ℕ)

def total (xs : List γ) : ℕ := (xs.map width).sum

def fitting : ℕ → List γ → List γ
  | _, [] => []
  | n, x :: xs => if width x ≤ n then x :: fitting (n - width x) xs else []

@[simp] lemma total_nil : total width [] = 0 := rfl

@[simp] lemma total_cons (x : γ) (xs : List γ) : total width (x :: xs) = width x + total width xs := rfl

@[simp] lemma total_append (xs ys : List γ) :
    total width (xs ++ ys) = total width xs + total width ys := by
  simp [total]

@[simp] lemma total_replicate (n : ℕ) (x : γ) : total width (List.replicate n x) = n * width x := by
  simp [total]

lemma length_le_total {xs : List γ} (h : ∀ x ∈ xs, 1 ≤ width x) : xs.length ≤ total width xs := by
  induction xs with
  | nil => simp
  | cons x xs ih =>
    have hx := h x (by simp)
    have := ih fun y hy => h y (by simp [hy])
    simp only [List.length_cons, total_cons]
    omega

/-! ### The part that fits -/

@[simp] lemma fitting_nil (n : ℕ) : fitting width n [] = [] := by
  cases n <;> rfl

lemma fitting_cons (n : ℕ) (x : γ) (xs : List γ) : fitting width n (x :: xs) =
    if width x ≤ n then x :: fitting width (n - width x) xs else [] := rfl

lemma total_fitting_le (n : ℕ) (xs : List γ) : total width (fitting width n xs) ≤ n := by
  induction xs generalizing n with
  | nil => simp
  | cons x xs ih =>
    rw [fitting_cons]
    split
    · have := ih (n - width x)
      simp only [total_cons]
      omega
    · simp

lemma fitting_isPrefix (n : ℕ) (xs : List γ) : fitting width n xs <+: xs := by
  induction xs generalizing n with
  | nil => simp
  | cons x xs ih =>
    rw [fitting_cons]
    split
    · exact List.cons_prefix_cons.mpr ⟨rfl, ih _⟩
    · exact List.nil_prefix

lemma fitting_of_le {n : ℕ} {xs : List γ} (h : total width xs ≤ n) : fitting width n xs = xs := by
  induction xs generalizing n with
  | nil => simp
  | cons x xs ih =>
    simp only [total_cons] at h
    rw [fitting_cons, if_pos (by omega), ih (by omega)]

/-- Behind a front part that fits, the rest is measured against the rest. -/
lemma fitting_append {n : ℕ} {xs : List γ} (ys : List γ) (h : total width xs ≤ n) :
    fitting width n (xs ++ ys) = xs ++ fitting width (n - total width xs) ys := by
  induction xs generalizing n with
  | nil => simp
  | cons x xs ih =>
    simp only [total_cons] at h
    rw [List.cons_append, fitting_cons, if_pos (by omega), ih (by omega), total_cons, Nat.sub_add_eq,
      List.cons_append]

/-- What fits is everything, or stops before an item that does not fit. -/
lemma fitting_spec (n : ℕ) (xs : List γ) :
    fitting width n xs = xs ∨ ∃ x rest, xs = fitting width n xs ++ x :: rest ∧
      n < total width (fitting width n xs) + width x := by
  induction xs generalizing n with
  | nil => simp
  | cons x xs ih =>
    rw [fitting_cons]
    split
    · next hx =>
      rcases ih (n - width x) with h | ⟨y, rest, h, hy⟩
      · exact .inl (by rw [h])
      · refine .inr ⟨y, rest, by rw [List.cons_append, ← h], ?_⟩
        rw [total_cons]
        omega
    · next hx => exact .inr ⟨x, xs, rfl, by simpa using hx⟩

/-- The part that fits is known by what comes behind it. -/
lemma fitting_eq {n : ℕ} {xs : List γ} (x : γ) (rest : List γ) (h : total width xs ≤ n)
    (hx : n < total width xs + width x) : fitting width n (xs ++ x :: rest) = xs := by
  rw [fitting_append width _ h, fitting_cons, if_neg (by omega), List.append_nil]

lemma fitting_fitting (n m : ℕ) (xs : List γ) :
    fitting width n (fitting width m xs) = fitting width (min n m) xs := by
  induction xs generalizing n m with
  | nil => simp
  | cons x xs ih =>
    by_cases hm : width x ≤ m
    · by_cases hn : width x ≤ n
      · rw [fitting_cons, if_pos hm, fitting_cons, if_pos hn, ih, fitting_cons, if_pos (by omega),
          show min (n - width x) (m - width x) = min n m - width x by omega]
      · rw [fitting_cons, if_pos hm, fitting_cons, if_neg hn, fitting_cons, if_neg (by omega)]
    · rw [fitting_cons, if_neg hm, fitting_nil, fitting_cons, if_neg (by omega)]

end VT7.Lib.Filling
