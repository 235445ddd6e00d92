import Mathlib.Data.List.Count
import Mathlib.Data.List.Nodup
import Mathlib.Order.Nat

/-!
# A bounded number of permits

An item that gets one of `bound` permits enters, and then either leaves at once or is held until it is
finished.  A finished item still owes its permit for a while; then the permit is free again.

* `Sound` — the permits add up to `bound`, and every item that got one is in one place
  (`Sound.of_move`);
* so no permit is given back twice (`Sound.lt_of_leaving`, `Sound.lt_of_owed`), and no more than
  `bound` items are under way (`Sound.underway_le`).
-/

namespace VT7.Lib

/-- The permits and the places of the items. -/
structure Permits (α β : Type*) where
  /-- The permits that are free. -/
  available : ℕ
  /-- The items that have a permit and are not held yet. -/
  entering : List α
  /-- The items that give their permit back without having been held. -/
  leaving : List α
  held : List α
  /-- The permits of finished items that are not given back yet. -/
  owed : ℕ
  finished : List (α × β)
  /-- All items that got a permit. -/
  passed : List α

namespace Permits

variable {α β : Type*} {bound : ℕ} {p q : Permits α β}

/-- The items that got a permit, place by place. -/
def places (p : Permits α β) : List α :=
  p.entering ++ (p.leaving ++ (p.held ++ p.finished.map (·.1)))

/-- The permits add up, and every item that got one is in one place. -/
structure Sound (bound : ℕ) (p : Permits α β) : Prop where
  total : p.available + p.entering.length + p.leaving.length + p.held.length + p.owed = bound
  placed : p.passed.Perm p.places

/-- The items that have a permit and are not finished. -/
def underway (p : Permits α β) : ℕ := p.entering.length + p.leaving.length + p.held.length

theorem Sound.underway_le (h : Sound bound p) : p.underway ≤ bound := by
  have htotal := h.total
  simp only [underway]
  omega

theorem Sound.lt_of_leaving (h : Sound bound p) {a : α} (ha : a ∈ p.leaving) :
    p.available < bound := by
  have htotal := h.total
  have hpos := List.length_pos_of_mem ha
  omega

theorem Sound.lt_of_owed (h : Sound bound p) (howed : 0 < p.owed) : p.available < bound := by
  have htotal := h.total
  omega

variable [DecidableEq α]

/-- One move of an item or of a permit. -/
inductive Move : Permits α β → Permits α β → Prop
  /-- Held items change their order. -/
  | rearrange (p : Permits α β) (held : List α) (perm : held.Perm p.held) :
      Move p { p with held := held }
  | pass (p : Permits α β) (a : α) (free : 0 < p.available) :
      Move p
        { p with
          available := p.available - 1
          entering := p.entering ++ [a]
          passed := p.passed ++ [a] }
  | turnBack (p : Permits α β) (a : α) (mem : a ∈ p.entering) :
      Move p { p with entering := p.entering.erase a, leaving := p.leaving ++ [a] }
  | hold (p : Permits α β) (a : α) (mem : a ∈ p.entering) (held : List α)
      (perm : held.Perm (a :: p.held)) :
      Move p { p with entering := p.entering.erase a, held := held }
  | leave (p : Permits α β) (a : α) (b : β) (mem : a ∈ p.leaving) :
      Move p
        { p with
          leaving := p.leaving.erase a
          available := p.available + 1
          finished := p.finished ++ [(a, b)] }
  | finish (p : Permits α β) (a : α) (b : β) (held : List α) (perm : p.held.Perm (a :: held)) :
      Move p
        { p with held := held, owed := p.owed + 1, finished := p.finished ++ [(a, b)] }
  | release (p : Permits α β) (owed : ℕ) (owes : p.owed = owed + 1) :
      Move p { p with owed := owed, available := p.available + 1 }

/-- **Every move keeps the permits and the places in order.** -/
theorem Sound.of_move (hmove : Move p q) (h : Sound bound p) : Sound bound q := by
  obtain ⟨htotal, hplaced⟩ := h
  rw [List.perm_iff_count] at hplaced
  cases hmove with
  | rearrange held perm =>
    refine ⟨?_, List.perm_iff_count.mpr ?_⟩
    · simpa only [perm.length_eq] using htotal
    · intro a
      have hcount := hplaced a
      simp only [places, List.count_append, perm.count_eq] at hcount ⊢
      exact hcount
  | pass a free =>
    refine ⟨?_, List.perm_iff_count.mpr ?_⟩
    · simp only [List.length_append, List.length_singleton]
      omega
    · intro x
      have hcount := hplaced x
      simp only [places, List.count_append] at hcount ⊢
      omega
  | turnBack a mem =>
    refine ⟨?_, List.perm_iff_count.mpr ?_⟩
    · have hlength := List.length_erase_add_one mem
      simp only [List.length_append, List.length_singleton]
      omega
    · intro x
      have hcount := hplaced x
      have herase := (List.perm_cons_erase mem).count_eq x
      simp only [places, List.count_append, List.count_cons, List.count_nil] at hcount herase ⊢
      omega
  | hold a mem held perm =>
    refine ⟨?_, List.perm_iff_count.mpr ?_⟩
    · have hlength := List.length_erase_add_one mem
      have hheld := perm.length_eq
      simp only [List.length_cons] at hheld
      show p.available + (p.entering.erase a).length + p.leaving.length + held.length + p.owed = bound
      omega
    · intro x
      have hcount := hplaced x
      have herase := (List.perm_cons_erase mem).count_eq x
      have hheld := perm.count_eq x
      simp only [places, List.count_append, List.count_cons] at hcount herase hheld ⊢
      omega
  | leave a b mem =>
    refine ⟨?_, List.perm_iff_count.mpr ?_⟩
    · have hlength := List.length_erase_add_one mem
      show p.available + 1 + p.entering.length + (p.leaving.erase a).length + p.held.length + p.owed = bound
      omega
    · intro x
      have hcount := hplaced x
      have herase := (List.perm_cons_erase mem).count_eq x
      simp only [places, List.count_append, List.count_cons, List.count_nil, List.map_append,
        List.map_cons, List.map_nil] at hcount herase ⊢
      omega
  | finish a b held perm =>
    refine ⟨?_, List.perm_iff_count.mpr ?_⟩
    · have hheld := perm.length_eq
      simp only [List.length_cons] at hheld
      show p.available + p.entering.length + p.leaving.length + held.length + (p.owed + 1) = bound
      omega
    · intro x
      have hcount := hplaced x
      have hheld := perm.count_eq x
      simp only [places, List.count_append, List.count_cons, List.count_nil, List.map_append,
        List.map_cons, List.map_nil] at hcount hheld ⊢
      omega
  | release owed owes =>
    refine ⟨?_, List.perm_iff_count.mpr hplaced⟩
    show p.available + 1 + p.entering.length + p.leaving.length + p.held.length + owed = bound
    omega

/-- What is held or finished stays so. -/
theorem Move.mem_of_mem (hmove : Move p q) {a : α} (ha : a ∈ p.held ++ p.finished.map (·.1)) :
    a ∈ q.held ++ q.finished.map (·.1) := by
  rw [List.mem_append] at ha ⊢
  cases hmove with
  | rearrange held perm => exact ha.imp_left perm.mem_iff.mpr
  | pass | turnBack | release => exact ha
  | hold b _ held perm => exact ha.imp_left fun h => perm.mem_iff.mpr (List.mem_cons_of_mem _ h)
  | leave b _ => exact ha.imp_right fun h => by simp [h]
  | finish b _ held perm =>
    rcases ha with ha | ha
    · rcases List.mem_cons.mp (perm.mem_iff.mp ha) with rfl | ha
      · exact .inr (by simp)
      · exact .inl ha
    · exact .inr (by simp [ha])

/-- What is finished stays so. -/
theorem Move.finished_subset (hmove : Move p q) : p.finished ⊆ q.finished := by
  cases hmove with
  | rearrange | pass | turnBack | hold | release => exact List.Subset.refl _
  | leave | finish => exact List.subset_append_left _ _

end Permits

end VT7.Lib
