import Mathlib.Order.Basic
import Mathlib.Data.Nat.Notation
import Mathlib.Order.Nat

/-!
# Spans of linked numbers

The numbers from 0 on, each of which is or is not linked to the next one, fall into spans.  A number's span is known from
where it begins and where it ends.
-/

namespace VT7.Lib.Spans

variable (linked : ℕ → Prop)

/-- All neighbours between the two are linked. -/
def Joined (first last : ℕ) : Prop := ∀ j, first ≤ j → j < last → linked j

/-- The span of a number begins here. -/
structure BeginsAt (k first : ℕ) : Prop where
  le : first ≤ k
  joined : Joined linked first k
  apart : ∀ j, j + 1 = first → ¬ linked j

/-- The span of a number ends here. -/
structure EndsAt (k last : ℕ) : Prop where
  le : k ≤ last
  joined : Joined linked k last
  apart : ¬ linked last

variable {linked} {first last first' last' j k : ℕ}

theorem Joined.of_eq (k : ℕ) : Joined linked k k := fun _ hle hlt => absurd hlt (Nat.not_lt.mpr hle)

theorem Joined.trans (h : Joined linked first k) (h' : Joined linked k last) : Joined linked first last := by
  intro j hle hlt
  rcases Nat.lt_or_ge j k with hj | hj
  · exact h j hle hj
  · exact h' j hj hlt

theorem Joined.mono (h : Joined linked first last) (hfirst : first ≤ first') (hlast : last' ≤ last) :
    Joined linked first' last' := fun j hle hlt => h j (hfirst.trans hle) (Nat.lt_of_lt_of_le hlt hlast)

theorem BeginsAt.zero : BeginsAt linked 0 0 := ⟨le_rfl, .of_eq 0, fun j h => absurd h (Nat.succ_ne_zero j)⟩

theorem BeginsAt.self (h : ¬ linked k) : BeginsAt linked (k + 1) (k + 1) := by
  refine ⟨le_rfl, .of_eq _, fun j hj => ?_⟩
  obtain rfl := Nat.succ_injective hj
  exact h

theorem BeginsAt.succ (h : BeginsAt linked k first) (hk : linked k) : BeginsAt linked (k + 1) first := by
  refine ⟨h.le.trans (Nat.le_succ k), fun j hle hlt => ?_, h.apart⟩
  rcases Nat.lt_or_eq_of_le (Nat.le_of_lt_succ hlt) with hj | rfl
  · exact h.joined j hle hj
  · exact hk

theorem EndsAt.self (h : ¬ linked k) : EndsAt linked k k := ⟨le_rfl, .of_eq k, h⟩

theorem EndsAt.pred (h : EndsAt linked (k + 1) last) (hk : linked k) : EndsAt linked k last := by
  refine ⟨(Nat.le_succ k).trans h.le, fun j hle hlt => ?_, h.apart⟩
  rcases Nat.lt_or_eq_of_le hle with hj | rfl
  · exact h.joined j hj hlt
  · exact hk

theorem BeginsAt.unique (h : BeginsAt linked k first) (h' : BeginsAt linked k first') : first = first' := by
  have hle : ∀ {a a' : ℕ}, BeginsAt linked k a → BeginsAt linked k a' → a ≤ a' := by
    intro a a' ha ha'
    by_contra hlt
    have hpos : a - 1 + 1 = a := by omega
    exact ha.apart (a - 1) hpos (ha'.joined (a - 1) (by omega) (by have := ha.le; omega))
  exact le_antisymm (hle h h') (hle h' h)

theorem EndsAt.unique (h : EndsAt linked k last) (h' : EndsAt linked k last') : last = last' := by
  have hle : ∀ {a a' : ℕ}, EndsAt linked k a → EndsAt linked k a' → a ≤ a' := by
    intro a a' ha ha'
    by_contra hlt
    exact ha'.apart (ha.joined a' ha'.le (Nat.lt_of_not_le hlt))
  exact le_antisymm (hle h h') (hle h' h)

/-- **All numbers of a span have the same span.** -/
theorem same_span (hbegins : BeginsAt linked k first) (hends : EndsAt linked k last) (hfirst : first ≤ j)
    (hlast : j ≤ last) : BeginsAt linked j first ∧ EndsAt linked j last := by
  have hjoined := hbegins.joined.trans hends.joined
  exact ⟨⟨hfirst, hjoined.mono le_rfl hlast, hbegins.apart⟩, ⟨hlast, hjoined.mono hfirst le_rfl, hends.apart⟩⟩

end VT7.Lib.Spans
