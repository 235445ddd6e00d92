import Mathlib.Algebra.Group.Nat.Defs
import Mathlib.Data.Nat.Bitwise

/-!
# Registers of 16-bit lanes

The operations of vector instructions on `n` lanes of 16 bits, with reads and writes of a memory that is a list of such
values.  A read or write that leaves the memory has no result.

Flags are lanes that are all ones or all zeros.  The masks that are made of them say where the first flag is
(`firstFlag_of_group`).
-/

namespace VT7.Lib

/-- A word, given its bits from the lowest on. -/
def wordOf {w : ℕ} (bits : Fin w → Bool) : BitVec w := (BitVec.ofBoolListLE (List.ofFn bits)).setWidth w

/-- The lanes, the one at the lowest address first. -/
abbrev Lanes (n : ℕ) := Fin n → UInt16

namespace Lanes

variable {n : ℕ}

/-- The same value in every lane. -/
def set1 (value : UInt16) : Lanes n := fun _ => value

def add (a b : Lanes n) : Lanes n := fun i => a i + b i

def sub (a b : Lanes n) : Lanes n := fun i => a i - b i

/-- Subtraction with unsigned saturation. -/
def subs (a b : Lanes n) : Lanes n := fun i => if a i ≤ b i then 0 else a i - b i

/-- All ones in the lanes with `p`. -/
def flags (p : Fin n → Bool) : Lanes n := fun i => if p i then 0xffff else 0

def cmpeq (a b : Lanes n) : Lanes n := flags fun i => a i == b i

def cmple (a b : Lanes n) : Lanes n := flags fun i => decide (a i ≤ b i)

def or (a b : Lanes n) : Lanes n := fun i => a i ||| b i

/-- The highest bit of every byte. -/
def movemaskEpi8 (a : Lanes 8) : BitVec 16 :=
  wordOf fun i => (a ⟨i / 2, by omega⟩).toBitVec.getLsbD (8 * (i % 2) + 7)

/-- A half of the register as one number. -/
def laneU64 (a : Lanes 8) (half : Fin 2) : BitVec 64 :=
  wordOf fun i => (a ⟨4 * half + i / 16, by omega⟩).toBitVec.getLsbD (i % 16)

/-! ### Memory -/

/-- A load of `n` lanes from index `i` on. -/
def load (n : ℕ) (memory : List UInt16) (i : ℕ) : Option (Lanes n) :=
  if h : i + n ≤ memory.length then some fun k => memory[i + k] else none

/-- A store to index `i`. -/
def store (memory : List UInt16) (i : ℕ) (lanes : Lanes n) : Option (List UInt16) :=
  if i + n ≤ memory.length then some (memory.take i ++ List.ofFn lanes ++ memory.drop (i + n)) else none

end Lanes

/-- The number of the lowest bit that is set. -/
def bitScanForward {w : ℕ} (mask : BitVec w) : Option ℕ := (List.range w).find? mask.getLsbD

/-! ### Numbers -/

lemma getLsbD_wordOf {w : ℕ} (bits : Fin w → Bool) {i : ℕ} (h : i < w) :
    (wordOf bits).getLsbD i = bits ⟨i, h⟩ := by
  unfold wordOf
  rw [BitVec.getLsbD_setWidth, BitVec.getLsbD_ofBoolListLE, decide_eq_true h, Bool.true_and,
    List.getD_eq_getElem _ _ (by rwa [List.length_ofFn]), List.getElem_ofFn]

/-- Clearing the low bits of a number. -/
lemma ldiff_two_pow_sub_one (n k : ℕ) : Nat.ldiff n (2 ^ k - 1) = n / 2 ^ k * 2 ^ k := by
  apply Nat.eq_of_testBit_eq
  intro i
  rw [Nat.testBit_ldiff, Nat.testBit_two_pow_sub_one, Nat.testBit_mul_two_pow]
  by_cases h : i < k
  · simp [h, Nat.not_le.mpr h]
  · have hle : k ≤ i := Nat.le_of_not_lt h
    simp [h, hle, Nat.testBit_div_two_pow, Nat.sub_add_cancel hle]

namespace Lanes

variable {n : ℕ}

/-! ### Flags -/

lemma or_flags (p q : Fin n → Bool) : (flags p).or (flags q) = flags fun i => p i || q i := by
  funext i
  unfold or flags
  by_cases hp : p i = true
  · by_cases hq : q i = true
    · simp [hp, hq]
    · simp [hp, hq]
  · by_cases hq : q i = true
    · simp [hp, hq]
    · simp [hp, hq]

lemma getLsbD_flags (p : Fin n → Bool) (i : Fin n) {k : ℕ} (hk : k < 16) :
    (flags p i).toBitVec.getLsbD k = p i := by
  unfold flags
  cases p i with
  | false => exact BitVec.getLsbD_zero
  | true =>
    rw [if_pos rfl, show (0xffff : UInt16).toBitVec = BitVec.allOnes 16 from rfl, BitVec.getLsbD_allOnes]
    exact decide_eq_true hk

/-- A saturated difference is zero where the first number is not greater. -/
lemma cmpeq_subs (a : Lanes n) (value : UInt16) :
    (a.subs (set1 value)).cmpeq (set1 0) = flags fun i => decide (a i ≤ value) := by
  unfold cmpeq subs set1
  congr 1
  funext i
  by_cases h : a i ≤ value
  · rw [if_pos h, decide_eq_true h]
    rfl
  · have hne : a i - value ≠ 0 := by
      intro hzero
      have heq : a i = value := by
        have := congrArg (· + value) hzero
        simpa using this
      exact h (UInt16.le_of_eq heq)
    rw [if_neg h, decide_eq_false h]
    exact beq_false_of_ne hne

/-- The same for a difference that wraps around: the numbers of an interval. -/
lemma cmpeq_subs_add (a : Lanes n) {low width : UInt16} :
    ((a.add (set1 (0 - low))).subs (set1 width)).cmpeq (set1 0) = flags fun i => decide (a i - low ≤ width) := by
  rw [cmpeq_subs]
  congr 1
  funext i
  unfold add set1
  rw [UInt16.zero_sub, ← UInt16.sub_eq_add_neg]

lemma cmple_set1 (a : Lanes n) (value : UInt16) : a.cmple (set1 value) = flags fun i => decide (a i ≤ value) := rfl

/-! ### Masks -/

lemma getLsbD_movemaskEpi8 (p : Fin 8 → Bool) {j : ℕ} (hj : j < 16) :
    (movemaskEpi8 (flags p)).getLsbD j = p ⟨j / 2, by omega⟩ := by
  unfold movemaskEpi8
  rw [getLsbD_wordOf _ hj, getLsbD_flags _ _ (by omega)]

lemma getLsbD_laneU64 (p : Fin 8 → Bool) (half : Fin 2) {j : ℕ} (hj : j < 64) :
    (laneU64 (flags p) half).getLsbD j = p ⟨4 * half + j / 16, by omega⟩ := by
  unfold laneU64
  rw [getLsbD_wordOf _ hj, getLsbD_flags _ _ (by omega)]

end Lanes

/-- A mask with `g` bits for each flag: it is zero when no flag is set, and otherwise its lowest bit belongs to the
first flag. -/
theorem firstFlag_of_group {w g n : ℕ} {mask : BitVec w} (flag : ℕ → Bool) (hg : 0 < g) (hw : w = n * g)
    (h : ∀ j < w, mask.getLsbD j = flag (j / g)) :
    (mask = 0 ∧ ∀ i < n, flag i = false) ∨
      mask ≠ 0 ∧ ∃ offset, bitScanForward mask = some offset ∧ offset / g < n ∧ flag (offset / g) = true ∧
        ∀ i < offset / g, flag i = false := by
  -- The lowest bit of a flag.
  have hflag : ∀ i < n, mask.getLsbD (i * g) = flag i := by
    intro i hi
    rw [h _ (by rw [hw]; exact Nat.mul_lt_mul_of_pos_right hi hg), Nat.mul_div_cancel _ hg]
  cases hscan : bitScanForward mask with
  | none =>
    have hclear := List.find?_range_eq_none.mp hscan
    refine .inl ⟨BitVec.eq_of_getLsbD_eq fun j hj => ?_, fun i hi => ?_⟩
    · have hbit := hclear j hj
      simpa using hbit
    · have hbit := hclear (i * g) (by rw [hw]; exact Nat.mul_lt_mul_of_pos_right hi hg)
      rw [hflag i hi] at hbit
      simpa using hbit
  | some offset =>
    obtain ⟨hbit, hrange, hbelow⟩ := List.find?_range_eq_some.mp hscan
    have hoffset : offset < w := List.mem_range.mp hrange
    have hlt : offset / g < n := by
      rw [Nat.div_lt_iff_lt_mul hg, ← hw]
      exact hoffset
    refine .inr ⟨?_, offset, rfl, hlt, by rw [← h _ hoffset]; exact hbit, fun i hi => ?_⟩
    · rintro rfl
      simp at hbit
    · -- The lowest bit of an earlier flag is below the lowest one that is set.
      have hlow : i * g < offset := by
        have hnext := Nat.mul_le_mul_right g (Nat.succ_le_of_lt hi)
        have hdiv := Nat.div_mul_le_self offset g
        rw [Nat.succ_mul] at hnext
        omega
      have hclear := hbelow (i * g) hlow
      rw [hflag i (hi.trans hlt)] at hclear
      simpa using hclear

/-! ### Memory -/

namespace Lanes

variable {n : ℕ}

lemma load_of_le {memory : List UInt16} {i : ℕ} (h : i + n ≤ memory.length) :
    ∃ lanes, load n memory i = some lanes ∧ ∀ k : Fin n, lanes k = memory.getD (i + k) 0 := by
  refine ⟨_, dif_pos h, fun k => ?_⟩
  exact (List.getD_eq_getElem _ _ _).symm

/-- The values of a function in the first cells. -/
def Holds (f : ℕ → UInt16) (memory : List UInt16) (k : ℕ) : Prop := ∀ i < k, memory.getD i 0 = f i

/-- A store that begins in what is written, or at its end. -/
lemma Holds.store {f : ℕ → UInt16} {memory : List UInt16} {k i : ℕ} (h : Holds f memory k) (lanes : Lanes n)
    (hi : i ≤ k) (hfits : i + n ≤ memory.length) (hlanes : ∀ j : Fin n, lanes j = f (i + j)) :
    ∃ memory', Lanes.store memory i lanes = some memory' ∧ memory'.length = memory.length ∧
      Holds f memory' (i + n) := by
  refine ⟨_, if_pos hfits, ?_, fun j hj => ?_⟩
  · simp only [List.length_append, List.length_take, List.length_ofFn, List.length_drop]
    omega
  · have htake : (memory.take i).length = i := List.length_take_of_le (by omega)
    rw [List.getD_append _ _ _ _ (by rw [List.length_append, htake, List.length_ofFn]; exact hj)]
    rcases Nat.lt_or_ge j i with hlt | hge
    · rw [List.getD_append _ _ _ _ (by omega), ← h j (by omega), List.getD_eq_getElem?_getD,
        List.getD_eq_getElem?_getD, List.getElem?_take_of_lt hlt]
    · rw [List.getD_append_right _ _ _ _ (by omega), htake, List.getD_eq_getElem _ _ (by rw [List.length_ofFn]; omega),
        List.getElem_ofFn, hlanes]
      congr 1
      dsimp only
      omega

end Lanes

end VT7.Lib
