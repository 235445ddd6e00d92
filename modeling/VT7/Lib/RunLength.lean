import Mathlib.Algebra.BigOperators.Group.List.Basic
import Mathlib.Algebra.GroupWithZero.Nat
import Mathlib.Data.List.Chain

/-!
# Run lengths

A list of runs stands for the list in which every value is repeated (`expand`).  Runs are canonical when none of them
is empty and neighbours differ; then the list they stand for determines them (`Canonical.unique`).
-/

namespace VT7.Lib.RunLength

structure Run (α : Type) where
  value : α
  length : ℕ
deriving DecidableEq

variable {α : Type}

def expand (l : List (Run α)) : List α := l.flatMap fun r => List.replicate r.length r.value

/-- The length of the list that the runs stand for. -/
def span (l : List (Run α)) : ℕ := (l.map Run.length).sum

structure Canonical (l : List (Run α)) : Prop where
  pos : ∀ r ∈ l, 0 < r.length
  chain : l.IsChain fun a b => a.value ≠ b.value

@[simp] lemma expand_nil : expand ([] : List (Run α)) = [] := rfl

@[simp] lemma expand_cons (r : Run α) (l : List (Run α)) :
    expand (r :: l) = List.replicate r.length r.value ++ expand l := rfl

@[simp] lemma expand_append (l l' : List (Run α)) : expand (l ++ l') = expand l ++ expand l' := List.flatMap_append

@[simp] lemma span_nil : span ([] : List (Run α)) = 0 := rfl

@[simp] lemma span_cons (r : Run α) (l : List (Run α)) : span (r :: l) = r.length + span l := List.sum_cons

@[simp] lemma span_append (l l' : List (Run α)) : span (l ++ l') = span l + span l' := by
  rw [span, List.map_append, List.sum_append]
  rfl

lemma length_le_span {l : List (Run α)} {run : Run α} (hrun : run ∈ l) : run.length ≤ span l := by
  obtain ⟨front, back, rfl⟩ := List.append_of_mem hrun
  rw [span_append, span_cons]
  omega

@[simp] lemma length_expand (l : List (Run α)) : (expand l).length = span l := by
  induction l with
  | nil => rfl
  | cons r l ih => rw [expand_cons, List.length_append, List.length_replicate, ih, span_cons]

namespace Canonical

lemma nil : Canonical ([] : List (Run α)) := ⟨(fun _ h => nomatch h), List.isChain_nil⟩

lemma singleton {r : Run α} (h : 0 < r.length) : Canonical [r] :=
  ⟨fun _ hr => by rwa [List.mem_singleton.mp hr], List.isChain_singleton r⟩

lemma append_iff {l l' : List (Run α)} : Canonical (l ++ l') ↔
    Canonical l ∧ Canonical l' ∧ ∀ x ∈ l.getLast?, ∀ y ∈ l'.head?, x.value ≠ y.value := by
  refine ⟨fun h => ?_, fun ⟨h, h', hmeet⟩ => ⟨fun r hr => ?_, List.isChain_append.mpr ⟨h.chain, h'.chain, hmeet⟩⟩⟩
  · obtain ⟨hl, hl', hmeet⟩ := List.isChain_append.mp h.chain
    exact ⟨⟨fun r hr => h.pos r (List.mem_append_left _ hr), hl⟩,
      ⟨fun r hr => h.pos r (List.mem_append_right _ hr), hl'⟩, hmeet⟩
  · rcases List.mem_append.mp hr with hr | hr
    · exact h.pos r hr
    · exact h'.pos r hr

lemma append {l l' : List (Run α)} (h : Canonical l) (h' : Canonical l')
    (hmeet : ∀ x ∈ l.getLast?, ∀ y ∈ l'.head?, x.value ≠ y.value) : Canonical (l ++ l') :=
  append_iff.mpr ⟨h, h', hmeet⟩

lemma left {l l' : List (Run α)} (h : Canonical (l ++ l')) : Canonical l := (append_iff.mp h).1

lemma right {l l' : List (Run α)} (h : Canonical (l ++ l')) : Canonical l' := (append_iff.mp h).2.1

lemma head_pos {r : Run α} {l : List (Run α)} (h : Canonical (r :: l)) : 0 < r.length := h.pos r List.mem_cons_self

lemma tail {r : Run α} {l : List (Run α)} (h : Canonical (r :: l)) : Canonical l :=
  right (l := [r]) h

/-- The length of a run does not matter, as long as it is not empty. -/
lemma resize {r r' : Run α} {l l' : List (Run α)} (h : Canonical (l ++ r :: l')) (hvalue : r'.value = r.value)
    (hpos : 0 < r'.length) : Canonical (l ++ r' :: l') := by
  obtain ⟨hl, hr, hmeet⟩ := append_iff.mp h
  obtain ⟨-, hl', hmeet'⟩ := append_iff.mp (show Canonical ([r] ++ l') from hr)
  have hr' : Canonical ([r'] ++ l') := by
    refine (singleton hpos).append hl' fun x hx y hy => ?_
    obtain rfl : r' = x := by simpa using hx
    rw [hvalue]
    exact hmeet' r rfl y hy
  refine hl.append hr' fun x hx y hy => ?_
  obtain rfl : r' = y := by simpa using hy
  rw [hvalue]
  exact hmeet x hx r rfl

/-- **The runs are determined by what they stand for.** -/
theorem unique {l l' : List (Run α)} (h : Canonical l) (h' : Canonical l') (heq : expand l = expand l') : l = l' := by
  -- A first run that is longer than the other one goes on where the other list has another value.
  have hshort {v : α} {n m : ℕ} {t t' : List (Run α)} (ht : Canonical (⟨v, n⟩ :: t)) (hnm : n < m)
      (heq : List.replicate n v ++ expand t = List.replicate m v ++ expand t') : False := by
    obtain ⟨k, rfl⟩ : ∃ k, m = n + (k + 1) := ⟨m - n - 1, by omega⟩
    rw [List.replicate_add, List.append_assoc, List.append_cancel_left_eq, List.replicate_succ] at heq
    cases t with
    | nil => cases heq
    | cons s t =>
      obtain ⟨j, hj⟩ : ∃ j, s.length = j + 1 := ⟨s.length - 1, by have := ht.tail.head_pos; omega⟩
      rw [expand_cons, hj, List.replicate_succ] at heq
      have hvalue : s.value = v := (List.cons.inj heq).1
      exact (append_iff.mp (show Canonical ([⟨v, n⟩] ++ s :: t) from ht)).2.2 _ rfl s rfl hvalue.symm
  induction l generalizing l' with
  | nil =>
    cases l' with
    | nil => rfl
    | cons r l' =>
      have hlength := congrArg List.length heq
      have hpos := h'.head_pos
      rw [length_expand, length_expand, span_nil, span_cons] at hlength
      omega
  | cons r l ih =>
    cases l' with
    | nil =>
      have hlength := congrArg List.length heq
      have hpos := h.head_pos
      rw [length_expand, length_expand, span_nil, span_cons] at hlength
      omega
    | cons r' l' =>
      obtain ⟨v, n⟩ := r
      obtain ⟨v', n'⟩ := r'
      have hn : 0 < n := h.head_pos
      have hn' : 0 < n' := h'.head_pos
      rw [expand_cons, expand_cons] at heq
      obtain rfl : v = v' := by
        obtain ⟨k, rfl⟩ : ∃ k, n = k + 1 := ⟨n - 1, by omega⟩
        obtain ⟨k', rfl⟩ : ∃ k', n' = k' + 1 := ⟨n' - 1, by omega⟩
        exact (List.cons.inj heq).1
      rcases Nat.lt_trichotomy n n' with hlt | rfl | hlt
      · exact (hshort h hlt heq).elim
      · rw [ih h.tail h'.tail (List.append_cancel_left heq)]
      · exact (hshort h' hlt heq.symm).elim

end Canonical

/-! ### Joined runs -/

section Glue

variable [DecidableEq α]

/-- Runs behind others, with the runs that meet joined if their values are equal. -/
def glue (l : List (Run α)) : List (Run α) → List (Run α)
  | [] => l
  | r :: l' =>
    match l.getLast? with
    | some last =>
      if last.value = r.value then l.dropLast ++ ⟨r.value, last.length + r.length⟩ :: l' else l ++ r :: l'
    | none => r :: l'

lemma glue_nil (l : List (Run α)) : glue l [] = l := rfl

lemma nil_glue (l : List (Run α)) : glue [] l = l := by
  cases l with
  | nil => rfl
  | cons r l => rfl

lemma glue_concat (l : List (Run α)) (last r : Run α) (l' : List (Run α)) :
    glue (l ++ [last]) (r :: l') =
      if last.value = r.value then l ++ ⟨r.value, last.length + r.length⟩ :: l' else l ++ [last] ++ r :: l' := by
  unfold glue
  rw [List.getLast?_concat]
  dsimp only
  rw [List.dropLast_concat]

/-- Runs in front of what is joined. -/
lemma append_glue (l : List (Run α)) {m : List (Run α)} (hm : m ≠ []) (l' : List (Run α)) :
    glue (l ++ m) l' = l ++ glue m l' := by
  obtain ⟨front, last, rfl⟩ : ∃ front last, m = front ++ [last] := ⟨_, _, (List.dropLast_append_getLast hm).symm⟩
  cases l' with
  | nil => rfl
  | cons r l' =>
    rw [← List.append_assoc, glue_concat, glue_concat]
    split
    · rw [List.append_assoc]
    · simp only [List.append_assoc]

/-- **Joining keeps what the runs stand for.** -/
@[simp] theorem expand_glue (l l' : List (Run α)) : expand (glue l l') = expand l ++ expand l' := by
  cases l' with
  | nil => rw [glue_nil, expand_nil, List.append_nil]
  | cons r l' =>
    rcases List.eq_nil_or_concat' l with rfl | ⟨front, last, rfl⟩
    · rw [nil_glue]
      rfl
    · rw [glue_concat]
      split
      · next heq =>
        rw [expand_append, expand_append, expand_cons, expand_cons, expand_cons, expand_nil, List.append_nil]
        rw [List.replicate_add, heq]
        simp only [List.append_assoc]
      · rw [expand_append]

/-- **Joined canonical runs** are canonical. -/
theorem Canonical.glue {l l' : List (Run α)} (h : Canonical l) (h' : Canonical l') : Canonical (glue l l') := by
  cases l' with
  | nil => exact h
  | cons r l' =>
    rcases List.eq_nil_or_concat' l with rfl | ⟨front, last, rfl⟩
    · rw [nil_glue]
      exact h'
    · rw [glue_concat]
      have hpos := h'.head_pos
      split
      · next heq =>
        have hjoined : Canonical (⟨r.value, last.length + r.length⟩ :: l') :=
          Canonical.resize (l := []) h' rfl (Nat.add_pos_right _ hpos)
        refine h.left.append hjoined fun x hx y hy => ?_
        obtain rfl := Option.mem_some_iff.mp hy
        exact heq ▸ (append_iff.mp h).2.2 x hx last rfl
      · next hne =>
        refine h.append h' fun x hx y hy => ?_
        rw [List.getLast?_concat] at hx
        obtain rfl := Option.mem_some_iff.mp hx
        obtain rfl := Option.mem_some_iff.mp hy
        exact hne

end Glue

end VT7.Lib.RunLength
