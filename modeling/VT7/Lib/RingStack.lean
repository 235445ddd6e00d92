import Mathlib.Data.List.Basic

/-!
# A stack in a ring of slots

The next entry goes to the slot `next`, and `saved` slots behind it are in use.  A push onto a full ring
overwrites the oldest entry.
-/

namespace VT7.Lib.RingStack

variable {α : Type*}

/-- The slot in front of another one. -/
def before (size i : ℕ) : ℕ := if i = 0 then size - 1 else i - 1

/-- The slot of the entry with `k` entries above it. -/
def slotOf (size next k : ℕ) : ℕ := if k < next then next - 1 - k else next + size - 1 - k

/-- The slots hold these entries, the latest one first. -/
structure Keeps (slots : List α) (next saved : ℕ) (entries : List α) : Prop where
  inside : next < slots.length
  length : entries.length = saved
  fits : saved ≤ slots.length
  slot : ∀ k, k < saved → slots[slotOf slots.length next k]? = entries[k]?

lemma keeps_nil {slots : List α} (h : 0 < slots.length) : Keeps slots 0 0 [] := by
  refine ⟨h, rfl, Nat.zero_le _, ?_⟩
  intro k hk
  exact absurd hk (Nat.not_lt_zero k)

lemma before_lt {size i : ℕ} (h : i < size) : before size i < size := by
  unfold before
  split <;> omega

lemma next_eq {size i : ℕ} (h : i < size) : (i + 1) % size = if i + 1 = size then 0 else i + 1 := by
  split
  · next heq => rw [heq, Nat.mod_self]
  · exact Nat.mod_eq_of_lt (by omega)

/-- The entries move one down when there is a new one. -/
lemma slotOf_next {size i k : ℕ} (h : i < size) (hk : k < size) :
    slotOf size ((i + 1) % size) k = if k = 0 then i else slotOf size i (k - 1) := by
  rw [next_eq h]
  unfold slotOf
  split_ifs <;> omega

lemma slotOf_before {size i k : ℕ} (h : i < size) (hk : k + 1 < size) :
    slotOf size (before size i) k = slotOf size i (k + 1) := by
  unfold slotOf before
  split_ifs <;> omega

lemma slotOf_ne {size i k : ℕ} (hk : k + 1 < size) : slotOf size i k ≠ i := by
  unfold slotOf
  split <;> omega

variable {slots entries : List α} {next saved : ℕ}

/-- **A push keeps the latest entries.** -/
theorem Keeps.push (h : Keeps slots next saved entries) (x : α) :
    Keeps (slots.set next x) ((next + 1) % slots.length) (if saved < slots.length then saved + 1 else saved)
      ((x :: entries).take slots.length) := by
  have hinside := h.inside
  have hfits := h.fits
  have hlength : ((x :: entries).take slots.length).length = if saved < slots.length then saved + 1 else saved := by
    rw [List.length_take, List.length_cons, h.length]
    split <;> omega
  refine ⟨?_, hlength, ?_, ?_⟩
  · rw [List.length_set]
    exact Nat.mod_lt _ (by omega)
  · rw [List.length_set]
    split <;> omega
  · intro k hk
    have hksize : k < slots.length := by
      split at hk <;> omega
    rw [List.length_set, slotOf_next hinside hksize, List.getElem?_take_of_lt hksize]
    cases k with
    | zero =>
      rw [if_pos rfl, List.getElem?_set_self hinside]
      rfl
    | succ k =>
      rw [if_neg (Nat.succ_ne_zero k), Nat.add_sub_cancel, List.getElem?_set_ne (slotOf_ne hksize).symm,
        h.slot k (by split at hk <;> omega), List.getElem?_cons_succ]

/-- **A pop takes the latest entry.** -/
theorem Keeps.pop {x : α} (h : Keeps slots next saved (x :: entries)) :
    slots[before slots.length next]? = some x ∧ Keeps slots (before slots.length next) (saved - 1) entries := by
  have hinside := h.inside
  have hfits := h.fits
  have hlength : entries.length + 1 = saved := h.length
  have htop : slotOf slots.length next 0 = before slots.length next := by
    unfold slotOf before
    split_ifs <;> omega
  refine ⟨?_, before_lt hinside, by omega, by omega, ?_⟩
  · rw [← htop, h.slot 0 (by omega)]
    rfl
  · intro k hk
    rw [slotOf_before hinside (by omega), h.slot (k + 1) (by omega), List.getElem?_cons_succ]

end VT7.Lib.RingStack
