import Mathlib.Algebra.Order.Interval.Finset.SuccPred
import Mathlib.Data.Int.ConditionallyCompleteOrder
import Mathlib.Data.Int.Interval
import Mathlib.Data.Int.SuccPred

/-!
# Moving from stop to stop

Some columns are stops.  A move by `n` ends on the `n`-th stop in its direction, or at a limit where there are fewer
(`LandsRight`, `LandsLeft`).  The step lemmas say how a move begins with one column.
-/

namespace VT7.Lib.Stops

variable (S : ℤ → Bool)

/-- The number of stops behind `a`, up to `b`. -/
noncomputable def stopsRight (a b : ℤ) : ℕ := ((Finset.Ioc a b).filter fun c => S c = true).card

/-- The number of stops in front of `b`, down to `a`. -/
noncomputable def stopsLeft (a b : ℤ) : ℕ := ((Finset.Ico a b).filter fun c => S c = true).card

/-- A move to the right by `n` stops, not beyond the limit. -/
structure LandsRight (limit start : ℤ) (n : ℕ) (target : ℤ) : Prop where
  le : start ≤ target
  le_limit : target ≤ limit
  lands : (stopsRight S start target = n ∧ (target = start ∨ S target = true)) ∨
    (stopsRight S start target < n ∧ target = limit)

/-- A move to the left by `n` stops, not beyond the limit. -/
structure LandsLeft (limit start : ℤ) (n : ℕ) (target : ℤ) : Prop where
  le : target ≤ start
  limit_le : limit ≤ target
  lands : (stopsLeft S target start = n ∧ (target = start ∨ S target = true)) ∨
    (stopsLeft S target start < n ∧ target = limit)

variable {S} {start target limit : ℤ} {n : ℕ}

@[simp] theorem stopsRight_self (a : ℤ) : stopsRight S a a = 0 := by simp [stopsRight]

@[simp] theorem stopsLeft_self (a : ℤ) : stopsLeft S a a = 0 := by simp [stopsLeft]

theorem stopsRight_succ {a b : ℤ} (h : a < b) :
    stopsRight S a b = stopsRight S (a + 1) b + if S (a + 1) then 1 else 0 := by
  unfold stopsRight
  rw [← Finset.insert_Ioc_add_one_left_eq_Ioc h, Finset.filter_insert]
  split_ifs with hstop
  · rw [Finset.card_insert_of_notMem]
    simp
  · rfl

theorem stopsLeft_succ {a b : ℤ} (h : a ≤ b) : stopsLeft S a (b + 1) = stopsLeft S a b + if S b then 1 else 0 := by
  unfold stopsLeft
  rw [← Finset.insert_Ico_right_eq_Ico_add_one h, Finset.filter_insert]
  split_ifs with hstop
  · rw [Finset.card_insert_of_notMem]
    simp
  · rfl

/-! ### To the right -/

namespace LandsRight

theorem zero (h : start ≤ limit) : LandsRight S limit start 0 start :=
  ⟨le_refl _, h, .inl ⟨stopsRight_self start, .inl rfl⟩⟩

theorem at_limit (h : start = limit) (hn : 0 < n) : LandsRight S limit start n start :=
  ⟨le_refl _, le_of_eq h, .inr ⟨by rwa [stopsRight_self], h⟩⟩

theorem stop (hstop : S (start + 1) = true) (h : LandsRight S limit (start + 1) n target) :
    LandsRight S limit start (n + 1) target := by
  have hle := h.le
  have hcount := stopsRight_succ (S := S) (show start < target by omega)
  rw [hstop, if_pos rfl] at hcount
  refine ⟨by omega, h.le_limit, ?_⟩
  rcases h.lands with ⟨hn, htarget⟩ | ⟨hn, htarget⟩
  · refine .inl ⟨by omega, .inr ?_⟩
    rcases htarget with rfl | htarget
    · exact hstop
    · exact htarget
  · exact .inr ⟨by omega, htarget⟩

theorem skip (hstop : S (start + 1) = false) (hpos : 0 < n) (h : LandsRight S limit (start + 1) n target) :
    LandsRight S limit start n target := by
  have hle := h.le
  have hcount := stopsRight_succ (S := S) (show start < target by omega)
  rw [hstop, if_neg Bool.false_ne_true, Nat.add_zero] at hcount
  refine ⟨by omega, h.le_limit, ?_⟩
  rw [hcount]
  rcases h.lands with ⟨hn, rfl | htarget⟩ | hfewer
  · rw [stopsRight_self] at hn
    omega
  · exact .inl ⟨hn, .inr htarget⟩
  · exact .inr hfewer

end LandsRight

/-! ### To the left -/

namespace LandsLeft

theorem zero (h : limit ≤ start) : LandsLeft S limit start 0 start :=
  ⟨le_refl _, h, .inl ⟨stopsLeft_self start, .inl rfl⟩⟩

theorem at_limit (hn : 0 < n) : LandsLeft S start start n start :=
  ⟨le_refl _, le_refl _, .inr ⟨by rwa [stopsLeft_self], rfl⟩⟩

theorem stop (hstop : S start = true) (h : LandsLeft S limit start n target) :
    LandsLeft S limit (start + 1) (n + 1) target := by
  have hle := h.le
  have hcount := stopsLeft_succ (S := S) hle
  rw [hstop, if_pos rfl] at hcount
  refine ⟨by omega, h.limit_le, ?_⟩
  rcases h.lands with ⟨hn, htarget⟩ | ⟨hn, htarget⟩
  · refine .inl ⟨by omega, .inr ?_⟩
    rcases htarget with rfl | htarget
    · exact hstop
    · exact htarget
  · exact .inr ⟨by omega, htarget⟩

theorem skip (hstop : S start = false) (hpos : 0 < n) (h : LandsLeft S limit start n target) :
    LandsLeft S limit (start + 1) n target := by
  have hle := h.le
  have hcount := stopsLeft_succ (S := S) hle
  rw [hstop, if_neg Bool.false_ne_true, Nat.add_zero] at hcount
  refine ⟨by omega, h.limit_le, ?_⟩
  rw [hcount]
  rcases h.lands with ⟨hn, rfl | htarget⟩ | hfewer
  · rw [stopsLeft_self] at hn
    omega
  · exact .inl ⟨hn, .inr htarget⟩
  · exact .inr hfewer

end LandsLeft

end VT7.Lib.Stops
