import Mathlib.Data.List.Basic
import Mathlib.Data.List.Chain
import Mathlib.Data.Nat.Notation
import Mathlib.Order.Nat

/-!
# Tilings

Spans that follow each other without gaps, none of them empty, tile the numbers from the beginning of the first one to
the end of the last one.
-/

namespace VT7.Lib.Tiling

variable {γ : Type} (start stop : γ → ℕ)

/-- The spans tile the numbers from `a` up to `b`. -/
def Tiles : ℕ → List γ → ℕ → Prop
  | a, [], b => a = b
  | a, x :: xs, b => start x = a ∧ start x < stop x ∧ Tiles (stop x) xs b

variable {start stop} {a b c p : ℕ} {x : γ} {xs ys : List γ}

@[simp] lemma tiles_nil : Tiles start stop a [] b ↔ a = b := Iff.rfl

@[simp] lemma tiles_cons :
    Tiles start stop a (x :: xs) b ↔ start x = a ∧ start x < stop x ∧ Tiles start stop (stop x) xs b := Iff.rfl

lemma tiles_append : Tiles start stop a (xs ++ ys) c ↔ ∃ b, Tiles start stop a xs b ∧ Tiles start stop b ys c := by
  induction xs generalizing a with
  | nil => simp
  | cons x xs ih => simp [ih, and_assoc]

lemma tiles_concat :
    Tiles start stop a (xs ++ [x]) b ↔ Tiles start stop a xs (start x) ∧ start x < stop x ∧ stop x = b := by
  rw [tiles_append]
  constructor
  · rintro ⟨c, hxs, rfl, hlt, hend⟩
    exact ⟨hxs, hlt, hend⟩
  · rintro ⟨hxs, hlt, hend⟩
    exact ⟨_, hxs, rfl, hlt, hend⟩

/-- **The span that a number is in** is the first one that ends behind it. -/
lemma Tiles.dropWhile (h : Tiles start stop a xs b) (ha : a ≤ p) (hp : p < b) :
    ∃ y ys, xs.dropWhile (fun x => decide (stop x ≤ p)) = y :: ys ∧ start y ≤ p ∧ p < stop y ∧
      Tiles start stop (start y) (y :: ys) b := by
  induction xs generalizing a with
  | nil =>
    rw [tiles_nil] at h
    omega
  | cons x xs ih =>
    obtain ⟨rfl, hlt, hrest⟩ := h
    by_cases hskip : stop x ≤ p
    · rw [List.dropWhile_cons, if_pos (decide_eq_true hskip)]
      exact ih hrest hskip
    · rw [List.dropWhile_cons, if_neg (by simpa using hskip)]
      exact ⟨x, xs, rfl, ha, Nat.lt_of_not_le hskip, rfl, hlt, hrest⟩

end VT7.Lib.Tiling
