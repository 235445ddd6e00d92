import Mathlib.Data.Nat.Notation

/-!
# Updates of words

An update keeps some bits of a word, sets some and clears the others.  One after the other, two updates are an update
again.  What an update makes of the words `0` and `allOnes` determines it.
-/

namespace VT7.Lib

/-- The bits that are kept, and the bits that are set. -/
structure BitUpdate (w : ℕ) where
  keep : BitVec w
  set : BitVec w
  disjoint : keep &&& set = 0

namespace BitUpdate

variable {w : ℕ}

def apply (u : BitUpdate w) (v : BitVec w) : BitVec w := v &&& u.keep ^^^ u.set

/-- All bits are kept. -/
def none : BitUpdate w := ⟨BitVec.allOnes w, 0, by simp⟩

/-- The bits of a field are given the value. -/
def field (mask value : BitVec w) : BitUpdate w := ⟨~~~mask &&& ~~~value, value, by
  apply BitVec.eq_of_getLsbD_eq
  intro i hi
  simp [hi]⟩

section Bits

variable (u : BitUpdate w) (v : BitVec w) {i : ℕ}

lemma keep_false_of_set (h : u.set.getLsbD i = true) : u.keep.getLsbD i = false := by
  have hbit := congrArg (fun x : BitVec w => x.getLsbD i) u.disjoint
  simpa [h] using hbit

lemma getLsbD_apply : (u.apply v).getLsbD i = (v.getLsbD i && u.keep.getLsbD i || u.set.getLsbD i) := by
  unfold apply
  rw [BitVec.getLsbD_xor, BitVec.getLsbD_and]
  cases hset : u.set.getLsbD i with
  | false => simp
  | true => simp [u.keep_false_of_set hset]

end Bits

@[simp] theorem apply_none (v : BitVec w) : (none : BitUpdate w).apply v = v := by
  unfold apply none
  simp

theorem apply_field (mask value v : BitVec w) : (field mask value).apply v = v &&& ~~~mask ||| value := by
  apply BitVec.eq_of_getLsbD_eq
  intro i hi
  rw [getLsbD_apply]
  unfold field
  rw [BitVec.getLsbD_or, BitVec.getLsbD_and, BitVec.getLsbD_and, BitVec.getLsbD_not, BitVec.getLsbD_not]
  cases value.getLsbD i with
  | false => simp [hi]
  | true => simp

/-- The first update, and then the second one. -/
def andThen (first second : BitUpdate w) : BitUpdate w :=
  ⟨first.keep &&& second.keep, second.apply first.set, by
    apply BitVec.eq_of_getLsbD_eq
    intro i hi
    rw [BitVec.getLsbD_and, BitVec.getLsbD_and, getLsbD_apply]
    have hfirst := @keep_false_of_set _ first i
    have hsecond := @keep_false_of_set _ second i
    cases hset : first.set.getLsbD i <;> cases hset' : second.set.getLsbD i <;> simp_all⟩

theorem apply_andThen (first second : BitUpdate w) (v : BitVec w) :
    (first.andThen second).apply v = second.apply (first.apply v) := by
  apply BitVec.eq_of_getLsbD_eq
  intro i hi
  rw [getLsbD_apply, getLsbD_apply, getLsbD_apply]
  unfold andThen
  rw [BitVec.getLsbD_and, getLsbD_apply]
  cases second.keep.getLsbD i <;> simp [Bool.or_assoc]

/-- **Two probes are enough.** -/
theorem apply_probes (u : BitUpdate w) (v : BitVec w) :
    v &&& (u.apply (BitVec.allOnes w) &&& ~~~u.apply 0) ^^^ u.apply 0 = u.apply v := by
  apply BitVec.eq_of_getLsbD_eq
  intro i hi
  rw [BitVec.getLsbD_xor, BitVec.getLsbD_and, BitVec.getLsbD_and, BitVec.getLsbD_not, getLsbD_apply, getLsbD_apply,
    getLsbD_apply]
  cases u.set.getLsbD i <;> simp [hi]

end BitUpdate

end VT7.Lib
