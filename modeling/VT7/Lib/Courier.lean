import Mathlib.Data.List.Pairwise
import Mathlib.Logic.Function.Basic
import Mathlib.Logic.Relation
import Mathlib.Order.Nat

/-!
# A shared queue emptied by several carriers

Items are stamped with increasing keys and put into one queue.  Any carrier may take the whole queue;
it then hands its items over one by one, in order, while the other carriers go on.  A carrier may also
lose what it holds.

* `Sound` — every item is in one place: an item that was handed over is handed over once
  (`Sound.of_move`);
* `Ordered` — the items of one class are handed over in the order of their keys.  This needs more: a
  carrier may hand an item over only when no other carrier still holds an earlier one of its class
  (`InTurn`, `Ordered.of_move`).
-/

namespace VT7.Lib

/-- The places of the items.  `taken` lists everything that ever left the queue. -/
structure Courier (ι α : Type*) where
  queue : List α
  taken : List α
  held : ι → List α
  delivered : List α
  stamp : ℕ

namespace Courier

section

variable {ι α κ : Type*} {key : α → ℕ} {c : Courier ι α}

/-! ### Every item in one place -/

/-- Every item is in one place, and the keys tell the items apart. -/
structure Sound (key : α → ℕ) (c : Courier ι α) : Prop where
  sorted : (c.taken ++ c.queue).Pairwise (key · < key ·)
  stamped : ∀ a ∈ c.taken ++ c.queue, key a ≤ c.stamp
  held_taken : ∀ i, ∀ a ∈ c.held i, a ∈ c.taken
  delivered_taken : ∀ a ∈ c.delivered, a ∈ c.taken
  held_sorted : ∀ i, (c.held i).Pairwise (key · < key ·)
  apart : ∀ i j, i ≠ j → ∀ a ∈ c.held i, ∀ b ∈ c.held j, key a ≠ key b
  fresh : ∀ i, ∀ a ∈ c.held i, ∀ b ∈ c.delivered, key b ≠ key a
  once : c.delivered.Pairwise (key · ≠ key ·)

/-- No other carrier holds an earlier item of the same class. -/
def InTurn (key : α → ℕ) (cls : α → κ) (c : Courier ι α) (i : ι) (a : α) : Prop :=
  ∀ j, j ≠ i → ∀ b ∈ c.held j, cls b = cls a → key a ≤ key b

/-- The items of one class were handed over in order, and those still held come later. -/
structure Ordered (key : α → ℕ) (cls : α → κ) (c : Courier ι α) : Prop where
  delivered : c.delivered.Pairwise (fun a b => cls a = cls b → key a < key b)
  later : ∀ i, ∀ b ∈ c.held i, ∀ a ∈ c.delivered, cls a = cls b → key a < key b

/-- What was taken is stamped before everything that is still queued. -/
theorem Sound.taken_lt (h : Sound key c) {a b : α} (ha : a ∈ c.taken) (hb : b ∈ c.queue) :
    key a < key b :=
  (List.pairwise_append.mp h.sorted).2.2 a ha b hb

end

/-! ### Moves -/

variable {ι α κ : Type*} [DecidableEq ι] {key : α → ℕ} {cls : α → κ}
  {allowed : Courier ι α → ι → α → Prop} {c c' : Courier ι α}

/-- One move.  An item may be handed over only when `allowed` says so. -/
inductive Move (key : α → ℕ) (allowed : Courier ι α → ι → α → Prop) :
    Courier ι α → Courier ι α → Prop
  /-- Items with new keys join the queue. -/
  | push (c : Courier ι α) (items : List α) (stamp : ℕ)
      (sorted : items.Pairwise (key · < key ·)) (above : ∀ a ∈ items, c.stamp < key a)
      (below : ∀ a ∈ items, key a ≤ stamp) (advances : c.stamp ≤ stamp) :
      Move key allowed c { c with queue := c.queue ++ items, stamp := stamp }
  /-- A carrier takes the queue. -/
  | take (c : Courier ι α) (i : ι) :
      Move key allowed c
        { c with queue := [], taken := c.taken ++ c.queue, held := Function.update c.held i c.queue }
  /-- Some carriers lose what they hold. -/
  | lose (c : Courier ι α) (held : ι → List α) (h : ∀ i, held i = c.held i ∨ held i = []) :
      Move key allowed c { c with held := held }
  /-- A carrier hands over its first item. -/
  | hand (c : Courier ι α) (i : ι) (a : α) (rest : List α) (h : c.held i = a :: rest)
      (hallowed : allowed c i a) :
      Move key allowed c
        { c with held := Function.update c.held i rest, delivered := c.delivered ++ [a] }

theorem mem_update_held {held : ι → List α} {i j : ι} {items : List α} {a : α}
    (h : a ∈ Function.update held i items j) : (j = i ∧ a ∈ items) ∨ (j ≠ i ∧ a ∈ held j) := by
  rcases eq_or_ne j i with rfl | hj
  · rw [Function.update_self] at h
    exact .inl ⟨rfl, h⟩
  · rw [Function.update_of_ne hj] at h
    exact .inr ⟨hj, h⟩

/-! ### At most once -/

omit [DecidableEq ι] in
theorem Sound.push (h : Sound key c) {items : List α} {stamp : ℕ}
    (sorted : items.Pairwise (key · < key ·)) (above : ∀ a ∈ items, c.stamp < key a)
    (below : ∀ a ∈ items, key a ≤ stamp) (advances : c.stamp ≤ stamp) :
    Sound key { c with queue := c.queue ++ items, stamp := stamp } where
  sorted := by
    rw [← List.append_assoc]
    refine List.pairwise_append.mpr ⟨h.sorted, sorted, ?_⟩
    intro a ha b hb
    exact lt_of_le_of_lt (h.stamped a ha) (above b hb)
  stamped := by
    intro a ha
    rw [← List.append_assoc] at ha
    rcases List.mem_append.mp ha with ha | ha
    · exact le_trans (h.stamped a ha) advances
    · exact below a ha
  held_taken := h.held_taken
  delivered_taken := h.delivered_taken
  held_sorted := h.held_sorted
  apart := h.apart
  fresh := h.fresh
  once := h.once

theorem Sound.take (h : Sound key c) (i : ι) :
    Sound key
      { c with queue := [], taken := c.taken ++ c.queue, held := Function.update c.held i c.queue } where
  sorted := by simpa using h.sorted
  stamped := by simpa using h.stamped
  held_taken := by
    intro j a ha
    rcases mem_update_held ha with ⟨-, ha⟩ | ⟨-, ha⟩
    · exact List.mem_append_right _ ha
    · exact List.mem_append_left _ (h.held_taken j a ha)
  delivered_taken := fun a ha => List.mem_append_left _ (h.delivered_taken a ha)
  held_sorted := by
    intro j
    show (Function.update c.held i c.queue j).Pairwise _
    rcases eq_or_ne j i with rfl | hj
    · rw [Function.update_self]
      exact (List.pairwise_append.mp h.sorted).2.1
    · rw [Function.update_of_ne hj]
      exact h.held_sorted j
  apart := by
    -- what the others hold left the queue earlier
    intro j k hjk a ha b hb
    rcases mem_update_held ha with ⟨hj, ha⟩ | ⟨-, ha⟩ <;>
      rcases mem_update_held hb with ⟨hk, hb⟩ | ⟨-, hb⟩
    · exact absurd (hj.trans hk.symm) hjk
    · exact (h.taken_lt (h.held_taken k b hb) ha).ne'
    · exact (h.taken_lt (h.held_taken j a ha) hb).ne
    · exact h.apart j k hjk a ha b hb
  fresh := by
    intro j a ha b hb
    rcases mem_update_held ha with ⟨-, ha⟩ | ⟨-, ha⟩
    · exact (h.taken_lt (h.delivered_taken b hb) ha).ne
    · exact h.fresh j a ha b hb
  once := h.once

omit [DecidableEq ι] in
/-- A carrier that holds less is as sound. -/
theorem Sound.lose (h : Sound key c) {held : ι → List α}
    (hheld : ∀ i, held i = c.held i ∨ held i = []) : Sound key { c with held := held } := by
  have hsub : ∀ i, ∀ a ∈ held i, a ∈ c.held i := by
    intro i a ha
    rcases hheld i with heq | heq
    · exact heq ▸ ha
    · simp [heq] at ha
  refine ⟨h.sorted, h.stamped, fun i a ha => h.held_taken i a (hsub i a ha), h.delivered_taken, ?_,
    fun i j hij a ha b hb => h.apart i j hij a (hsub i a ha) b (hsub j b hb),
    fun i a ha => h.fresh i a (hsub i a ha), h.once⟩
  intro i
  show (held i).Pairwise _
  rcases hheld i with heq | heq
  · exact heq ▸ h.held_sorted i
  · simp [heq]

theorem Sound.hand (h : Sound key c) {i : ι} {a : α} {rest : List α} (hi : c.held i = a :: rest) :
    Sound key { c with held := Function.update c.held i rest, delivered := c.delivered ++ [a] } := by
  have ha : a ∈ c.held i := by simp [hi]
  have hsub : ∀ j, ∀ b ∈ Function.update c.held i rest j, b ∈ c.held j := by
    intro j b hb
    rcases mem_update_held hb with ⟨hj, hb⟩ | ⟨-, hb⟩
    · simp [hj, hi, hb]
    · exact hb
  have hsorted := h.held_sorted i
  rw [hi, List.pairwise_cons] at hsorted
  refine ⟨h.sorted, h.stamped, fun j b hb => h.held_taken j b (hsub j b hb), ?_, ?_,
    fun j k hjk b hb b' hb' => h.apart j k hjk b (hsub j b hb) b' (hsub k b' hb'), ?_, ?_⟩
  · intro b hb
    rcases List.mem_append.mp hb with hb | hb
    · exact h.delivered_taken b hb
    · rw [List.mem_singleton.mp hb]
      exact h.held_taken i a ha
  · intro j
    show (Function.update c.held i rest j).Pairwise _
    rcases eq_or_ne j i with rfl | hj
    · rw [Function.update_self]
      exact hsorted.2
    · rw [Function.update_of_ne hj]
      exact h.held_sorted j
  · intro j b hb b' hb'
    rcases List.mem_append.mp hb' with hb' | hb'
    · exact h.fresh j b (hsub j b hb) b' hb'
    · rw [List.mem_singleton.mp hb']
      -- the item that is handed over was held by `i` alone, and in front of the rest
      rcases mem_update_held hb with ⟨-, hb⟩ | ⟨hj, hb⟩
      · exact (hsorted.1 b hb).ne
      · exact h.apart i j hj.symm a ha b hb
  · refine List.pairwise_append.mpr ⟨h.once, List.pairwise_singleton _ _, ?_⟩
    intro b hb b' hb'
    rw [List.mem_singleton.mp hb']
    exact h.fresh i a ha b hb

/-- **Every move keeps every item in one place.** -/
theorem Sound.of_move (hmove : Move key allowed c c') (h : Sound key c) : Sound key c' := by
  cases hmove with
  | push items stamp sorted above below advances => exact h.push sorted above below advances
  | take i => exact h.take i
  | lose held hheld => exact h.lose hheld
  | hand i a rest hi _ => exact h.hand hi

/-! ### In order -/

theorem Ordered.hand (h : Ordered key cls c) (hs : Sound key c) {i : ι} {a : α} {rest : List α}
    (hi : c.held i = a :: rest) (hturn : InTurn key cls c i a) :
    Ordered key cls
      { c with held := Function.update c.held i rest, delivered := c.delivered ++ [a] } := by
  have ha : a ∈ c.held i := by simp [hi]
  have hsorted := hs.held_sorted i
  rw [hi, List.pairwise_cons] at hsorted
  refine ⟨?_, ?_⟩
  · refine List.pairwise_append.mpr ⟨h.delivered, List.pairwise_singleton _ _, ?_⟩
    intro b hb b' hb'
    rw [List.mem_singleton.mp hb']
    exact h.later i a ha b hb
  · intro j b hb b' hb' hcls
    rcases mem_update_held hb with ⟨hj, hb⟩ | ⟨hj, hb⟩
    · rcases List.mem_append.mp hb' with hb' | hb'
      · exact h.later j b (by simp [hj, hi, hb]) b' hb' hcls
      · rw [List.mem_singleton.mp hb']
        exact hsorted.1 b hb
    · rcases List.mem_append.mp hb' with hb' | hb'
      · exact h.later j b hb b' hb' hcls
      · rw [List.mem_singleton.mp hb'] at hcls ⊢
        exact (hturn j hj b hb hcls.symm).lt_of_ne (hs.apart i j hj.symm a ha b hb)

/-- **Every move keeps the order when items are handed over in turn.** -/
theorem Ordered.of_move (hmove : Move key (InTurn key cls) c c') (hs : Sound key c)
    (h : Ordered key cls c) : Ordered key cls c' := by
  cases hmove with
  | push items stamp sorted above below advances => exact ⟨h.delivered, h.later⟩
  | take i =>
    refine ⟨h.delivered, ?_⟩
    intro j b hb a ha hcls
    rcases mem_update_held hb with ⟨-, hb⟩ | ⟨-, hb⟩
    · exact hs.taken_lt (hs.delivered_taken a ha) hb
    · exact h.later j b hb a ha hcls
  | lose held hheld =>
    refine ⟨h.delivered, ?_⟩
    intro i b hb a ha hcls
    rcases hheld i with heq | heq
    · exact h.later i b (heq ▸ hb) a ha hcls
    · simp [heq] at hb
  | hand i a rest hi hturn => exact h.hand hs hi hturn

/-! ### Runs -/

/-- Some moves, one after the other. -/
abbrev Moves (key : α → ℕ) (allowed : Courier ι α → ι → α → Prop) :
    Courier ι α → Courier ι α → Prop :=
  Relation.ReflTransGen (Move key allowed)

/-- Items join the queue, and some carriers lose what they hold. -/
theorem Moves.settle {items : List α} {stamp : ℕ} {held : ι → List α}
    (sorted : items.Pairwise (key · < key ·)) (above : ∀ a ∈ items, c.stamp < key a)
    (below : ∀ a ∈ items, key a ≤ stamp) (advances : c.stamp ≤ stamp)
    (hheld : ∀ i, held i = c.held i ∨ held i = []) :
    Moves key allowed c { c with queue := c.queue ++ items, stamp := stamp, held := held } :=
  .tail (.single (.push c items stamp sorted above below advances)) (.lose _ held hheld)

/-- A carrier hands over its first item, and may then lose the rest. -/
theorem Moves.hand {i : ι} {a : α} {rest : List α} {held : ι → List α} (h : c.held i = a :: rest)
    (hallowed : allowed c i a)
    (hheld : ∀ j, held j = Function.update c.held i rest j ∨ held j = []) :
    Moves key allowed c { c with held := held, delivered := c.delivered ++ [a] } :=
  .tail (.single (.hand c i a rest h hallowed)) (.lose _ held hheld)

theorem Sound.of_moves (hmoves : Moves key allowed c c') (h : Sound key c) : Sound key c' := by
  induction hmoves with
  | refl => exact h
  | tail _ hmove ih => exact ih.of_move hmove

theorem Ordered.of_moves (hmoves : Moves key (InTurn key cls) c c') (hs : Sound key c)
    (h : Ordered key cls c) : Ordered key cls c' := by
  induction hmoves with
  | refl => exact h
  | tail hmoves hmove ih => exact ih.of_move hmove (hs.of_moves hmoves)

end Courier

end VT7.Lib
