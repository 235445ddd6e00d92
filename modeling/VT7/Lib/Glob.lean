import Mathlib.Data.List.Forall2
import Mathlib.Data.List.Infix
import Mathlib.Tactic.Ring
import Mathlib.Tactic.Linarith

/-!
# Wildcard matching by one retry point

A pattern over an alphabet with two wildcard letters: `one` stands for any single letter, `many`
for any word.  `Matches` is the reference meaning.  `run` is the usual loop over two cursors that
remembers only the last `many` it passed: on a mismatch it gives one more letter to that `many` and
starts again behind it.

The loop tests for an equal letter *before* it tests for `many`.  It therefore agrees with the
reference meaning when no `many` of the pattern equals a letter of the value (`Plain`), which is
what `run_eq_some_iff` assumes.  `run_ne_none` needs no such assumption: the loop always ends.
-/

namespace VT7.Lib.Glob

/-- The wildcard letters of a pattern alphabet, and when a plain pattern letter equals a value
letter. -/
structure Wild (α : Type*) where
  one : α → Bool
  many : α → Bool
  same : α → α → Bool
  many_not_one : ∀ q, many q = true → one q = false

/-- The two cursors, as what is left of the value and of the pattern, and the retry point: the
pattern behind the last `many`, with what was left of the value when it was last tried. -/
structure Cursor (α : Type*) where
  value : List α
  pattern : List α
  back : Option (List α × List α)

variable {α : Type*} (W : Wild α)

/-! ### The loop -/

/-- On a mismatch: one more letter for the last `many`, or no match. -/
def retry : Option (List α × List α) → Cursor α ⊕ Bool
  | some (behind, left) => .inl ⟨left.tail, behind, some (behind, left.tail)⟩
  | none => .inr false

/-- One turn of the loop, or the answer. -/
def step (c : Cursor α) : Cursor α ⊕ Bool :=
  match c.value, c.pattern with
  | [], p => .inr (p.all W.many)
  | _ :: _, [] => retry c.back
  | x :: v, q :: p =>
    if W.one q || W.same q x then .inl ⟨v, p, c.back⟩
    else if W.many q then .inl ⟨x :: v, p, some (p, x :: v)⟩
    else retry c.back

/-- The loop, for at most `fuel` turns. -/
def run : ℕ → Cursor α → Option Bool
  | 0, _ => none
  | fuel + 1, c =>
    match step W c with
    | .inl c' => run fuel c'
    | .inr b => some b

/-- Enough turns for a value and a pattern of at most `n` letters. -/
def fuelFor (n : ℕ) : ℕ := (n + 1) * (n + 1) * (2 * n + 1) + 2 * n + 1

/-- The whole matcher. -/
def matcher (value pattern : List α) : Bool :=
  (run W (fuelFor (value.length + pattern.length)) ⟨value, pattern, none⟩).getD false

/-! ### The reference meaning -/

/-- `Matches p v`: the word `v` belongs to the language of the pattern `p`. -/
def Matches : List α → List α → Prop
  | [], v => v = []
  | q :: p, v =>
    if W.many q then ∃ s, s <:+ v ∧ Matches p s
    else ∃ x v', v = x :: v' ∧ (W.one q || W.same q x) = true ∧ Matches p v'

/-- No `many` of the pattern equals a letter of the value. -/
def Plain (p v : List α) : Prop := ∀ q ∈ p, ∀ x ∈ v, W.many q = true → W.same q x = false

variable {W}

theorem matches_many {q : α} {p v : List α} (hq : W.many q = true) :
    Matches W (q :: p) v ↔ ∃ s, s <:+ v ∧ Matches W p s := by
  rw [Matches, if_pos hq]

theorem matches_letter {q : α} {p v : List α} (hq : W.many q = false) :
    Matches W (q :: p) v ↔
      ∃ x v', v = x :: v' ∧ (W.one q || W.same q x) = true ∧ Matches W p v' := by
  rw [Matches, if_neg (by simp [hq])]

/-- A pattern that starts with `many` and matches the end of a word matches the whole word. -/
theorem matches_many_mono {q : α} {p s v : List α} (hq : W.many q = true) (hs : s <:+ v)
    (h : Matches W (q :: p) s) : Matches W (q :: p) v := by
  rw [matches_many hq] at h ⊢
  obtain ⟨t, ht, hp⟩ := h
  exact ⟨t, ht.trans hs, hp⟩

theorem matches_nil_iff (p : List α) : Matches W p [] ↔ p.all W.many = true := by
  induction p with
  | nil => simp [Matches]
  | cons q p ih =>
    cases hq : W.many q with
    | true =>
      rw [matches_many hq]
      simp [ih, hq]
    | false =>
      rw [matches_letter hq]
      simp [hq]

/-- Letters without `many` in front of a pattern consume exactly as many letters of the word. -/
theorem matches_append {w p : List α} (hw : ∀ q ∈ w, W.many q = false) {v : List α}
    (h : Matches W (w ++ p) v) : w.length ≤ v.length ∧ Matches W p (v.drop w.length) := by
  induction w generalizing v with
  | nil => simpa using h
  | cons q w ih =>
    rw [List.cons_append, matches_letter (hw q (by simp))] at h
    obtain ⟨x, v', rfl, -, hp⟩ := h
    have := ih (fun r hr => hw r (by simp [hr])) hp
    simpa using this

theorem matches_literal {p : List α} (hp : ∀ q ∈ p, W.many q = false ∧ W.one q = false)
    (v : List α) : Matches W p v ↔ List.Forall₂ (fun q x => W.same q x = true) p v := by
  induction p generalizing v with
  | nil => cases v <;> simp [Matches]
  | cons q p ih =>
    obtain ⟨hm, ho⟩ := hp q (by simp)
    have ih := ih (fun r hr => hp r (by simp [hr]))
    rw [matches_letter hm]
    cases v with
    | nil => simp
    | cons y v => simp [ho, ih]

/-! ### What holds on every turn -/

/-- The retry point and the cursors agree: the letters `w` read since the retry point were matched
one to one, and none of them was a `many` when the value is plain. -/
def Aligned (W : Wild α) (c : Cursor α) : Prop :=
  ∀ behind left, c.back = some (behind, left) →
    ∃ w, behind = w ++ c.pattern ∧ w.length ≤ left.length ∧ c.value = left.drop w.length ∧
      (Plain W behind left → ∀ q ∈ w, W.many q = false)

theorem Aligned.initial (v p : List α) : Aligned W ⟨v, p, none⟩ := by
  intro behind left h
  cases h

theorem Aligned.fresh (v p : List α) : Aligned W ⟨v, p, some (p, v)⟩ := by
  intro behind left h
  obtain ⟨rfl, rfl⟩ : p = behind ∧ v = left := by simpa using h
  exact ⟨[], by simp, by simp, by simp, by simp⟩

/-- What one turn can do, with the test that led there. -/
theorem step_cases {c c' : Cursor α} (h : step W c = .inl c') :
    (∃ x v q p, c.value = x :: v ∧ c.pattern = q :: p ∧ (W.one q || W.same q x) = true ∧
      c' = ⟨v, p, c.back⟩) ∨
    (∃ x v q p, c.value = x :: v ∧ c.pattern = q :: p ∧ (W.one q || W.same q x) = false ∧
      W.many q = true ∧ c' = ⟨x :: v, p, some (p, x :: v)⟩) ∨
    (∃ x v behind left, c.value = x :: v ∧ c.back = some (behind, left) ∧
      (c.pattern = [] ∨ ∃ q p, c.pattern = q :: p ∧ (W.one q || W.same q x) = false ∧
        W.many q = false) ∧
      c' = ⟨left.tail, behind, some (behind, left.tail)⟩) := by
  have hretry : ∀ b, retry b = .inl c' → ∃ behind left, b = some (behind, left) ∧
      c' = ⟨left.tail, behind, some (behind, left.tail)⟩ := by
    rintro (_ | ⟨behind, left⟩) hb
    · cases hb
    · exact ⟨behind, left, rfl, by simpa [retry] using hb.symm⟩
  obtain ⟨value, pattern, back⟩ := c
  rcases value with _ | ⟨x, v⟩
  · cases h
  rcases pattern with _ | ⟨q, p⟩
  · obtain ⟨behind, left, hb, hc⟩ := hretry back h
    exact .inr (.inr ⟨x, v, behind, left, rfl, hb, .inl rfl, hc⟩)
  simp only [step] at h
  split at h
  · rename_i hq
    exact .inl ⟨x, v, q, p, rfl, rfl, hq, by simpa using h.symm⟩
  · rename_i hq
    split at h
    · rename_i hm
      exact .inr (.inl ⟨x, v, q, p, rfl, rfl, by simpa using hq, hm, by simpa using h.symm⟩)
    · rename_i hm
      obtain ⟨behind, left, hb, hc⟩ := hretry back h
      exact .inr (.inr ⟨x, v, behind, left, rfl, hb, .inr ⟨q, p, rfl, by simpa using hq,
        by simpa using hm⟩, hc⟩)

theorem Aligned.step {c c' : Cursor α} (hc : Aligned W c) (h : step W c = .inl c') :
    Aligned W c' := by
  rcases step_cases h with ⟨x, v, q, p, hv, hp, hq, rfl⟩ | ⟨x, v, q, p, -, -, -, -, rfl⟩ |
    ⟨x, v, behind, left, -, -, -, rfl⟩
  · -- one more matched letter behind the retry point
    intro behind left hb
    obtain ⟨w, hbehind, hlen, hval, hplain⟩ := hc behind left hb
    rw [hp] at hbehind
    rw [hv] at hval
    have hlt : w.length < left.length := by
      by_contra hge
      rw [List.drop_eq_nil_of_le (by omega)] at hval
      cases hval
    refine ⟨w ++ [q], by simp [hbehind], by simp; omega, ?_, ?_⟩
    · have hd := congrArg List.tail hval
      simpa [List.tail_drop] using hd
    · intro hpl r hr
      rcases List.mem_append.mp hr with hr | hr
      · exact hplain hpl r hr
      · obtain rfl : r = q := by simpa using hr
        by_contra hm
        have hm : W.many r = true := by simpa using hm
        have hx : x ∈ left := List.mem_of_mem_drop (hval ▸ List.mem_cons_self)
        have hs := hpl r (by rw [hbehind]; simp) x hx hm
        have ho := W.many_not_one r hm
        simp [hs, ho] at hq
  · exact Aligned.fresh _ _
  · exact Aligned.fresh _ _

/-! ### The loop ends -/

/-- A number that drops on every turn: the pattern behind the retry point first, then what the
retry point has left, then the cursors. -/
def rank (n : ℕ) (c : Cursor α) : ℕ :=
  match c.back with
  | none => (n + 1) * ((n + 1) * (2 * n + 1)) + (c.value.length + c.pattern.length)
  | some (behind, left) =>
    behind.length * ((n + 1) * (2 * n + 1)) + left.length * (2 * n + 1) +
      (c.value.length + c.pattern.length)

/-- Every word of the cursor has at most `n` letters. -/
def Small (n : ℕ) (c : Cursor α) : Prop :=
  c.value.length ≤ n ∧ c.pattern.length ≤ n ∧
    ∀ behind left, c.back = some (behind, left) → behind.length ≤ n ∧ left.length ≤ n

theorem Small.step {n : ℕ} {c c' : Cursor α} (hc : Small n c) (h : step W c = .inl c') :
    Small n c' := by
  obtain ⟨hv, hp, hb⟩ := hc
  rcases step_cases h with ⟨x, v, q, p, hv', hp', -, rfl⟩ | ⟨x, v, q, p, hv', hp', -, -, rfl⟩ |
    ⟨x, v, behind, left, hv', hb', -, rfl⟩
  · rw [hv'] at hv
    rw [hp'] at hp
    simp only [List.length_cons] at hv hp
    exact ⟨by simp; omega, by simp; omega, hb⟩
  · rw [hv'] at hv
    rw [hp'] at hp
    simp only [List.length_cons] at hv hp
    refine ⟨by simp; omega, by simp; omega, ?_⟩
    intro behind left hbl
    obtain ⟨rfl, rfl⟩ : p = behind ∧ x :: v = left := by simpa using hbl
    exact ⟨by omega, by simp; omega⟩
  · obtain ⟨h1, h2⟩ := hb behind left hb'
    refine ⟨by simp; omega, h1, ?_⟩
    intro behind' left' hbl
    obtain ⟨rfl, rfl⟩ : behind = behind' ∧ left.tail = left' := by simpa using hbl
    exact ⟨h1, by simp; omega⟩

theorem rank_step {n : ℕ} {c c' : Cursor α} (hs : Small n c) (ha : Aligned W c)
    (h : step W c = .inl c') : rank n c' < rank n c := by
  obtain ⟨hv, hp, hb⟩ := hs
  rcases step_cases h with ⟨x, v, q, p, hv', hp', -, rfl⟩ | ⟨x, v, q, p, hv', hp', -, -, rfl⟩ |
    ⟨x, v, behind, left, hv', hb', -, rfl⟩
  · unfold rank
    rw [hv', hp']
    cases c.back with
    | none | some => simp; omega
  · rw [hv'] at hv
    rw [hp'] at hp
    simp only [List.length_cons] at hv hp
    -- the new `many` lies strictly inside the pattern behind the old one
    have hnew : rank n ⟨x :: v, p, some (p, x :: v)⟩ < (p.length + 1) * ((n + 1) * (2 * n + 1)) := by
      unfold rank
      simp only [List.length_cons]
      nlinarith
    refine hnew.trans_le ?_
    unfold rank
    cases hbk : c.back with
    | none =>
      have := Nat.mul_le_mul_right ((n + 1) * (2 * n + 1)) (show p.length + 1 ≤ n + 1 by omega)
      simp only
      omega
    | some b =>
      obtain ⟨behind, left⟩ := b
      obtain ⟨w, hw, -, -, -⟩ := ha behind left hbk
      have hlen : p.length + 1 ≤ behind.length := by
        rw [hw, hp']
        simp
      have := Nat.mul_le_mul_right ((n + 1) * (2 * n + 1)) hlen
      simp only
      omega
  · obtain ⟨h1, h2⟩ := hb behind left hb'
    obtain ⟨w, -, -, hval, -⟩ := ha behind left hb'
    have hpos : left ≠ [] := by
      rintro rfl
      rw [hv'] at hval
      simp at hval
    obtain ⟨y, left, rfl⟩ := List.exists_cons_of_ne_nil hpos
    unfold rank
    rw [hb']
    simp only [List.tail_cons, List.length_cons] at h2 ⊢
    nlinarith

theorem run_ne_none_of_rank {n : ℕ} : ∀ (fuel : ℕ) (c : Cursor α), Small n c → Aligned W c →
    rank n c < fuel → run W fuel c ≠ none
  | 0, _, _, _, hf => by omega
  | fuel + 1, c, hs, ha, hf => by
    unfold run
    cases h : step W c with
    | inr b => simp
    | inl c' =>
      have hr := rank_step hs ha h
      exact run_ne_none_of_rank fuel c' (hs.step h) (ha.step h) (by omega)

/-- **The loop ends**, for every value and pattern. -/
theorem run_ne_none (v p : List α) :
    run W (fuelFor (v.length + p.length)) ⟨v, p, none⟩ ≠ none := by
  refine run_ne_none_of_rank (n := v.length + p.length) _ _ ⟨by simp, by simp, by simp⟩
    (Aligned.initial v p) ?_
  unfold rank fuelFor
  simp only
  nlinarith [Nat.zero_le (v.length + p.length)]

/-! ### The loop computes the reference meaning -/

/-- What is still to be decided: the cursors match, or a later retry does. -/
def Open (W : Wild α) (c : Cursor α) : Prop :=
  Matches W c.pattern c.value ∨
    ∃ behind left, c.back = some (behind, left) ∧ ∃ s, s <:+ left.tail ∧ Matches W behind s

/-- The words of the cursor are plain for one another. -/
def PlainCursor (W : Wild α) (c : Cursor α) : Prop :=
  Plain W c.pattern c.value ∧
    ∀ behind left, c.back = some (behind, left) → Plain W behind left

theorem Plain.mono {p p' v v' : List α} (h : Plain W p v) (hp : ∀ q ∈ p', q ∈ p)
    (hv : ∀ x ∈ v', x ∈ v) : Plain W p' v' :=
  fun q hq x hx => h q (hp q hq) x (hv x hx)

theorem PlainCursor.step {c c' : Cursor α} (hc : PlainCursor W c) (h : step W c = .inl c') :
    PlainCursor W c' := by
  obtain ⟨hcur, hback⟩ := hc
  rcases step_cases h with ⟨x, v, q, p, hv, hp, -, rfl⟩ | ⟨x, v, q, p, hv, hp, -, -, rfl⟩ |
    ⟨x, v, behind, left, -, hb, -, rfl⟩
  · rw [hv, hp] at hcur
    exact ⟨hcur.mono (by simp +contextual) (by simp +contextual), hback⟩
  · rw [hv, hp] at hcur
    have hnew : Plain W p (x :: v) := hcur.mono (by simp +contextual) (by simp)
    refine ⟨hnew, ?_⟩
    intro behind left hb
    obtain ⟨rfl, rfl⟩ : p = behind ∧ x :: v = left := by simpa using hb
    exact hnew
  · have hnew : Plain W behind left.tail :=
      (hback behind left hb).mono (by simp) (fun x hx => List.mem_of_mem_tail hx)
    refine ⟨hnew, ?_⟩
    intro behind' left' hb'
    obtain ⟨rfl, rfl⟩ : behind = behind' ∧ left.tail = left' := by simpa using hb'
    exact hnew

theorem suffix_tail_iff {s left : List α} (h : left ≠ []) :
    s <:+ left ↔ s = left ∨ s <:+ left.tail := by
  obtain ⟨y, left, rfl⟩ := List.exists_cons_of_ne_nil h
  simp [List.suffix_cons_iff]

theorem drop_suffix_drop {s left : List α} (h : s <:+ left) (n : ℕ) :
    s.drop n <:+ left.drop n := by
  rw [List.suffix_iff_eq_drop.mp h, List.drop_drop, Nat.add_comm, ← List.drop_drop]
  exact List.drop_suffix _ _

/-- A new `many` takes over from the old retry point: whatever a later retry could still match, the
new `many` matches as well. -/
theorem matches_of_open {c : Cursor α} (ha : Aligned W c) (hpl : PlainCursor W c) {q : α}
    {p : List α} (hp : c.pattern = q :: p) (hm : W.many q = true) (h : Open W c) :
    Matches W (q :: p) c.value := by
  rcases h with hcur | ⟨behind, left, hb, s, hs, hmatch⟩
  · rwa [hp] at hcur
  obtain ⟨w, hw, -, hval, hwp⟩ := ha behind left hb
  rw [hw, hp] at hmatch
  obtain ⟨-, hrest⟩ := matches_append (hwp (hpl.2 behind left hb)) hmatch
  rw [hval]
  exact matches_many_mono hm (drop_suffix_drop (hs.trans (List.tail_suffix left)) _) hrest

theorem not_matches_of_mismatch {c : Cursor α} {x : α} {v : List α} (hv : c.value = x :: v)
    (hq : c.pattern = [] ∨ ∃ q p, c.pattern = q :: p ∧ (W.one q || W.same q x) = false ∧
      W.many q = false) : ¬ Matches W c.pattern c.value := by
  rw [hv]
  rcases hq with hp | ⟨q, p, hp, hq, hm⟩
  · simp [hp, Matches]
  · rw [hp, matches_letter hm]
    rintro ⟨y, v', hcons, hy, -⟩
    obtain ⟨rfl, rfl⟩ : x = y ∧ v = v' := by simpa using hcons
    rw [hq] at hy
    cases hy

/-- A turn does not change what is to be decided. -/
theorem open_step {c c' : Cursor α} (ha : Aligned W c) (hpl : PlainCursor W c)
    (h : step W c = .inl c') : Open W c ↔ Open W c' := by
  rcases step_cases h with ⟨x, v, q, p, hv, hp, hq, rfl⟩ | ⟨x, v, q, p, hv, hp, hq, hm, rfl⟩ |
    ⟨x, v, behind, left, hv, hb, hq, rfl⟩
  · -- a matched letter: `q` is no `many`, for the value is plain
    have hm : W.many q = false := by
      by_contra hm
      have hm : W.many q = true := by simpa using hm
      have hs := hpl.1 q (by rw [hp]; simp) x (by rw [hv]; simp) hm
      simp [hs, W.many_not_one q hm] at hq
    have hcur : Matches W (q :: p) (x :: v) ↔ Matches W p v := by
      rw [matches_letter hm]
      constructor
      · rintro ⟨y, v', hcons, -, hrest⟩
        obtain ⟨rfl, rfl⟩ : x = y ∧ v = v' := by simpa using hcons
        exact hrest
      · exact fun hrest => ⟨x, v, rfl, hq, hrest⟩
    unfold Open
    rw [hv, hp, hcur]
  · have hiff : Open W c ↔ Matches W (q :: p) c.value :=
      ⟨matches_of_open ha hpl hp hm, fun hmatch => .inl (by rwa [hp])⟩
    rw [hiff, hv, matches_many hm]
    unfold Open
    constructor
    · rintro ⟨s, hs, hmatch⟩
      rcases (suffix_tail_iff (by simp)).mp hs with rfl | hs
      · exact .inl hmatch
      · exact .inr ⟨p, x :: v, rfl, s, hs, hmatch⟩
    · rintro (hmatch | ⟨behind, left, hb, s, hs, hmatch⟩)
      · exact ⟨x :: v, List.suffix_rfl, hmatch⟩
      · obtain ⟨rfl, rfl⟩ : p = behind ∧ x :: v = left := by simpa using hb
        exact ⟨s, hs.trans (List.tail_suffix _), hmatch⟩
  · -- a mismatch: only the later retries are left
    have hno := not_matches_of_mismatch hv hq
    unfold Open
    simp only [hno, false_or, hb, Option.some.injEq, Prod.mk.injEq]
    constructor
    · rintro ⟨_, _, ⟨rfl, rfl⟩, s, hs, hmatch⟩
      by_cases hnil : left.tail = []
      · rw [hnil, List.suffix_nil] at hs
        rw [hnil, ← hs]
        exact .inl hmatch
      · rcases (suffix_tail_iff hnil).mp hs with rfl | hs
        · exact .inl hmatch
        · exact .inr ⟨behind, left.tail, ⟨rfl, rfl⟩, s, hs, hmatch⟩
    · rintro (hmatch | ⟨_, _, ⟨rfl, rfl⟩, s, hs, hmatch⟩)
      · exact ⟨behind, left, ⟨rfl, rfl⟩, left.tail, List.suffix_rfl, hmatch⟩
      · exact ⟨behind, left, ⟨rfl, rfl⟩, s, hs.trans (List.tail_suffix _), hmatch⟩

/-- The answer of the last turn decides what was open. -/
theorem open_answer {c : Cursor α} {b : Bool} (ha : Aligned W c) (hpl : PlainCursor W c)
    (h : step W c = .inr b) : Open W c ↔ b = true := by
  obtain ⟨value, pattern, back⟩ := c
  rcases value with _ | ⟨x, v⟩
  · -- the value is used up: a retry would leave too few letters for what was matched
    obtain rfl : pattern.all W.many = b := by simpa [step] using h
    rw [← matches_nil_iff]
    refine ⟨?_, fun hm => .inl hm⟩
    rintro (hcur | ⟨behind, left, hb, s, hs, hmatch⟩)
    · exact hcur
    obtain ⟨w, hw, hlen, hval, hwp⟩ := ha behind left hb
    simp only at hw hval
    rw [hw] at hmatch
    obtain ⟨hle, hrest⟩ := matches_append (hwp (hpl.2 behind left hb)) hmatch
    have hleft : left.length ≤ w.length := List.drop_eq_nil_iff.mp hval.symm
    have hs' := hs.length_le
    rw [List.length_tail] at hs'
    rwa [List.drop_eq_nil_of_le (by omega)] at hrest
  · have hno : ∀ b' : Option (List α × List α), retry b' = .inr b → b' = none ∧ b = false := by
      rintro (_ | ⟨behind, left⟩) hb
      · exact ⟨rfl, by simpa [retry] using hb.symm⟩
      · cases hb
    have hclosed : back = none → ¬ Matches W pattern (x :: v) →
        ¬ Open W ⟨x :: v, pattern, back⟩ := by
      rintro rfl hno (hcur | ⟨behind, left, hb, -⟩)
      · exact hno hcur
      · cases hb
    rcases pattern with _ | ⟨q, p⟩
    · obtain ⟨hback, rfl⟩ := hno back h
      simpa using hclosed hback (by simp [Matches])
    simp only [step] at h
    split at h
    · cases h
    split at h
    · cases h
    rename_i hq hm
    obtain ⟨hback, rfl⟩ := hno back h
    have hmis : ¬ Matches W (q :: p) (x :: v) :=
      not_matches_of_mismatch (c := ⟨x :: v, q :: p, back⟩) rfl
        (.inr ⟨q, p, rfl, by simpa using hq, by simpa using hm⟩)
    simpa using hclosed hback hmis

theorem run_answer : ∀ (fuel : ℕ) (c : Cursor α) (b : Bool), Aligned W c → PlainCursor W c →
    run W fuel c = some b → (Open W c ↔ b = true)
  | 0, _, _, _, _, h => by cases h
  | fuel + 1, c, b, ha, hpl, h => by
    unfold run at h
    cases hs : step W c with
    | inr b' =>
      rw [hs] at h
      obtain rfl : b' = b := by simpa using h
      exact open_answer ha hpl hs
    | inl c' =>
      rw [hs] at h
      rw [open_step ha hpl hs]
      exact run_answer fuel c' b (ha.step hs) (hpl.step hs) h

/-- **The loop computes the reference meaning**, when no `many` of the pattern equals a letter of
the value. -/
theorem matcher_iff {v p : List α} (hpl : Plain W p v) : matcher W v p = true ↔ Matches W p v := by
  obtain ⟨b, hb⟩ := Option.ne_none_iff_exists'.mp (run_ne_none (W := W) v p)
  have h := run_answer _ _ b (Aligned.initial v p) ⟨hpl, by simp⟩ hb
  unfold matcher
  rw [hb, Option.getD_some, ← h]
  simp [Open]

/-- A pattern without wildcards matches letter by letter. -/
theorem matcher_literal {p : List α} (hp : ∀ q ∈ p, W.many q = false ∧ W.one q = false)
    (v : List α) : matcher W v p = true ↔ List.Forall₂ (fun q x => W.same q x = true) p v := by
  rw [matcher_iff (fun q hq x _ hm => by simp [(hp q hq).1] at hm), matches_literal hp]

/-- A word of the pattern's length matches when it agrees with the pattern wherever that has no
wildcard. -/
theorem matches_of_forall₂ {p v : List α}
    (h : List.Forall₂ (fun q x => W.many q = true ∨ (W.one q || W.same q x) = true) p v) :
    Matches W p v := by
  induction h with
  | nil => rfl
  | @cons q x p v hq _ ih =>
    cases hm : W.many q with
    | true => exact (matches_many hm).mpr ⟨v, List.suffix_cons x v, ih⟩
    | false => exact (matches_letter hm).mpr ⟨x, v, rfl, by simpa [hm] using hq, ih⟩

theorem run_self (hsame : ∀ x, W.same x x = true) : ∀ (fuel : ℕ) (v : List α) (b),
    v.length < fuel → run W fuel ⟨v, v, b⟩ = some true
  | 0, _, _, h => by omega
  | fuel + 1, [], b, _ => by simp [run, step]
  | fuel + 1, x :: v, b, h => by
    have hstep : step W ⟨x :: v, x :: v, b⟩ = .inl ⟨v, v, b⟩ := by simp [step, hsame x]
    unfold run
    rw [hstep]
    exact run_self hsame fuel v b (by simpa using h)

/-- Every word matches itself read as a pattern, wildcard letters included. -/
theorem matcher_self (hsame : ∀ x, W.same x x = true) (v : List α) : matcher W v v = true := by
  unfold matcher
  rw [run_self hsame _ v none (by unfold fuelFor; nlinarith [Nat.zero_le v.length])]
  rfl

/-! ### A value with a letter that is a `many` of the pattern -/

section Literal

variable {o m : α} (hone : W.one o = true)

include hone

/-- A `one` for every letter in front. -/
theorem run_ones (u v p : List α) (b : Option (List α × List α)) (fuel : ℕ) :
    run W (fuel + u.length) ⟨u ++ v, List.replicate u.length o ++ p, b⟩ = run W fuel ⟨v, p, b⟩ := by
  induction u with
  | nil => rfl
  | cons x u ih =>
    have hstep : step W ⟨x :: (u ++ v), o :: (List.replicate u.length o ++ p), b⟩ =
        .inl ⟨u ++ v, List.replicate u.length o ++ p, b⟩ := by
      simp [step, hone]
    rw [List.length_cons, ← Nat.add_assoc]
    show run W (fuel + u.length + 1) ⟨x :: (u ++ v), o :: (List.replicate u.length o ++ p), b⟩ = _
    rw [run, hstep]
    exact ih

theorem matches_ones {u v p : List α} (h : Matches W p v) : Matches W (List.replicate u.length o ++ p) (u ++ v) := by
  have hmany : W.many o = false := by
    by_contra hm
    have hno := W.many_not_one o (by simpa using hm)
    rw [hone] at hno
    cases hno
  induction u with
  | nil => exact h
  | cons x u ih =>
    refine (matches_letter hmany).mpr ⟨x, u ++ v, rfl, ?_, ih⟩
    rw [hone, Bool.true_or]

/-- A `one` for every letter of the value and one more, and a `many` where the value has that letter. -/
def deceiving (o m : α) (u w : List α) : List α :=
  List.replicate u.length o ++ m :: List.replicate (w.length + 1) o

/-- **The loop takes the `many` for a letter**, and is one letter short in the end. -/
theorem matcher_deceiving (hsame : W.same m m = true) (u w : List α) :
    matcher W (u ++ m :: w) (deceiving o m u w) = false := by
  have hmany : W.many o = false := by
    by_contra hm
    have hno := W.many_not_one o (by simpa using hm)
    rw [hone] at hno
    cases hno
  obtain ⟨k, hk⟩ : ∃ k, fuelFor ((u ++ m :: w).length + (deceiving o m u w).length) =
      k + 1 + w.length + 1 + u.length := by
    refine ⟨fuelFor ((u ++ m :: w).length + (deceiving o m u w).length) - (w.length + u.length + 2), ?_⟩
    have hlarge : 2 * ((u ++ m :: w).length + (deceiving o m u w).length) + 1 ≤
        fuelFor ((u ++ m :: w).length + (deceiving o m u w).length) := by
      unfold fuelFor
      exact Nat.add_le_add_right (Nat.le_add_left _ _) 1
    have hlength : (u ++ m :: w).length = u.length + (w.length + 1) := by
      rw [List.length_append, List.length_cons]
    omega
  have hliteral : step W ⟨m :: w, m :: List.replicate (w.length + 1) o, none⟩ =
      .inl ⟨w, List.replicate (w.length + 1) o, none⟩ := by
    simp [step, hsame]
  have hrest : run W (k + 1 + w.length) ⟨w, List.replicate (w.length + 1) o, none⟩ = some false := by
    have hones := run_ones hone w [] [o] none (k + 1)
    rw [List.append_nil, ← List.replicate_succ'] at hones
    rw [hones]
    simp [run, step, hmany]
  unfold matcher
  rw [hk, deceiving, run_ones hone, run, hliteral]
  dsimp only
  rw [hrest]
  rfl

/-- In the reference meaning the value belongs to that pattern. -/
theorem matches_deceiving (hmany : W.many m = true) (u w : List α) :
    Matches W (deceiving o m u w) (u ++ m :: w) := by
  refine matches_ones hone ((matches_many hmany).mpr ⟨m :: w, List.suffix_refl _, ?_⟩)
  have hones := matches_ones hone (u := m :: w) (v := []) (p := []) rfl
  rwa [List.append_nil, List.append_nil] at hones

end Literal

end VT7.Lib.Glob
