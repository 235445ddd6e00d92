import Mathlib.Data.List.Basic
import Mathlib.Tactic.IntervalCases

/-!
# Base64 with padding

`encode` writes three bytes as four letters and pads the last group with `=`.  `decode` is the
lenient reader of the .NET base class library: blanks are skipped, the number of remaining letters
is a multiple of four, padding stands only at the end, and the unused bits of the last letter are
not looked at.
-/

namespace VT7.Lib.Base64

/-! ### The alphabet -/

/-- The letter of a six-bit number. -/
def letter (n : ℕ) : Char :=
  if n < 26 then Char.ofNat (n + 65)
  else if n < 52 then Char.ofNat (n + 71)
  else if n < 62 then Char.ofNat (n - 4)
  else if n = 62 then '+'
  else '/'

/-- The six-bit number of a letter. -/
def sextet (c : Char) : Option ℕ :=
  let n := c.toNat
  if 65 ≤ n ∧ n ≤ 90 then some (n - 65)
  else if 97 ≤ n ∧ n ≤ 122 then some (n - 71)
  else if 48 ≤ n ∧ n ≤ 57 then some (n + 4)
  else if c = '+' then some 62
  else if c = '/' then some 63
  else none

/-- A letter of the alphabet or the padding letter. -/
def IsLetter (c : Char) : Prop := (sextet c).isSome = true ∨ c = '='

instance : DecidablePred IsLetter := fun _ => inferInstanceAs (Decidable (_ ∨ _))

theorem sextet_letter {n : ℕ} (h : n < 64) : sextet (letter n) = some n := by
  interval_cases n <;> decide

theorem isLetter_letter {n : ℕ} (h : n < 64) : IsLetter (letter n) := by
  left
  rw [sextet_letter h]
  rfl

theorem letter_ne_pad {n : ℕ} (h : n < 64) : letter n ≠ '=' := by
  intro he
  have := sextet_letter h
  rw [he] at this
  cases this

/-! ### Writing -/

def encode : List UInt8 → List Char
  | [] => []
  | [a] => [letter (a.toNat / 4), letter (a.toNat % 4 * 16), '=', '=']
  | [a, b] =>
    [letter (a.toNat / 4), letter (a.toNat % 4 * 16 + b.toNat / 16), letter (b.toNat % 16 * 4), '=']
  | a :: b :: c :: rest =>
    letter (a.toNat / 4) :: letter (a.toNat % 4 * 16 + b.toNat / 16) ::
      letter (b.toNat % 16 * 4 + c.toNat / 64) :: letter (c.toNat % 64) :: encode rest

/-! ### Reading -/

/-- The blanks that the reader skips. -/
def isBlank (c : Char) : Bool := c == ' ' || c == '\t' || c == '\n' || c == '\r'

/-- The first, second and third byte of four six-bit numbers. -/
def byte1 (p q : ℕ) : UInt8 := UInt8.ofNat (p * 4 + q / 16)
def byte2 (q r : ℕ) : UInt8 := UInt8.ofNat (q % 16 * 16 + r / 4)
def byte3 (r s : ℕ) : UInt8 := UInt8.ofNat (r % 4 * 64 + s)

/-- Groups of four letters; only the last one may end in padding. -/
def decodeGroups : List Char → Option (List UInt8)
  | [] => some []
  | a :: b :: c :: d :: rest =>
    if rest = [] ∧ d = '=' then
      if c = '=' then do
        let p ← sextet a
        let q ← sextet b
        some [byte1 p q]
      else do
        let p ← sextet a
        let q ← sextet b
        let r ← sextet c
        some [byte1 p q, byte2 q r]
    else do
      let p ← sextet a
      let q ← sextet b
      let r ← sextet c
      let s ← sextet d
      let tail ← decodeGroups rest
      some (byte1 p q :: byte2 q r :: byte3 r s :: tail)
  | _ => none

def decode (text : List Char) : Option (List UInt8) :=
  decodeGroups (text.filter fun c => !isBlank c)

/-! ### Round trip -/

theorem length_encode : ∀ bs : List UInt8, (encode bs).length = (bs.length + 2) / 3 * 4
  | [] => rfl
  | [_] => by simp [encode]
  | [_, _] => by simp [encode]
  | a :: b :: c :: rest => by
    simp only [encode, List.length_cons, length_encode rest]
    omega

theorem isLetter_of_mem_encode : ∀ {bs : List UInt8} {c : Char}, c ∈ encode bs → IsLetter c
  | [], _, h => by cases h
  | [a], c, h => by
    have ha := a.toNat_lt
    simp only [encode, List.mem_cons, List.not_mem_nil, or_false] at h
    rcases h with rfl | rfl | rfl | rfl
    · exact isLetter_letter (by omega)
    · exact isLetter_letter (by omega)
    · exact .inr rfl
    · exact .inr rfl
  | [a, b], c, h => by
    have ha := a.toNat_lt
    have hb := b.toNat_lt
    simp only [encode, List.mem_cons, List.not_mem_nil, or_false] at h
    rcases h with rfl | rfl | rfl | rfl
    · exact isLetter_letter (by omega)
    · exact isLetter_letter (by omega)
    · exact isLetter_letter (by omega)
    · exact .inr rfl
  | a :: b :: d :: rest, c, h => by
    have ha := a.toNat_lt
    have hb := b.toNat_lt
    have hd := d.toNat_lt
    simp only [encode, List.mem_cons] at h
    rcases h with rfl | rfl | rfl | rfl | h
    · exact isLetter_letter (by omega)
    · exact isLetter_letter (by omega)
    · exact isLetter_letter (by omega)
    · exact isLetter_letter (by omega)
    · exact isLetter_of_mem_encode h

/-- Letters are printable ASCII, and none is a question mark. -/
theorem toNat_of_isLetter {c : Char} (h : IsLetter c) :
    0x2b ≤ c.toNat ∧ c.toNat ≤ 0x7a ∧ c ≠ '?' := by
  rcases h with h | rfl
  · unfold sextet at h
    simp only at h
    split_ifs at h with h1 h2 h3 h4 h5
    · exact ⟨by omega, by omega, by rintro rfl; exact absurd h1.1 (by decide)⟩
    · exact ⟨by omega, by omega, by rintro rfl; exact absurd h2.1 (by decide)⟩
    · exact ⟨by omega, by omega, by rintro rfl; exact absurd h3.2 (by decide)⟩
    · subst h4; decide
    · subst h5; decide
    · cases h
  · decide

theorem not_isBlank_of_isLetter {c : Char} (h : IsLetter c) : isBlank c = false := by
  by_contra hb
  simp only [isBlank, Bool.not_eq_false, Bool.or_eq_true, beq_iff_eq] at hb
  rcases hb with ((rfl | rfl) | rfl) | rfl <;> revert h <;> decide

theorem ofNat_eq (a : UInt8) {n : ℕ} (h : n = a.toNat) : UInt8.ofNat n = a := by
  rw [h, UInt8.ofNat_toNat]

theorem decodeGroups_encode : ∀ bs : List UInt8, decodeGroups (encode bs) = some bs
  | [] => rfl
  | [a] => by
    have ha := a.toNat_lt
    have e1 : byte1 (a.toNat / 4) (a.toNat % 4 * 16) = a := ofNat_eq a (by omega)
    simp [encode, decodeGroups, sextet_letter (show a.toNat / 4 < 64 by omega),
      sextet_letter (show a.toNat % 4 * 16 < 64 by omega), e1]
  | [a, b] => by
    have ha := a.toNat_lt
    have hb := b.toNat_lt
    have e1 : byte1 (a.toNat / 4) (a.toNat % 4 * 16 + b.toNat / 16) = a := ofNat_eq a (by omega)
    have e2 : byte2 (a.toNat % 4 * 16 + b.toNat / 16) (b.toNat % 16 * 4) = b :=
      ofNat_eq b (by omega)
    simp [encode, decodeGroups, letter_ne_pad (show b.toNat % 16 * 4 < 64 by omega),
      sextet_letter (show a.toNat / 4 < 64 by omega),
      sextet_letter (show a.toNat % 4 * 16 + b.toNat / 16 < 64 by omega),
      sextet_letter (show b.toNat % 16 * 4 < 64 by omega), e1, e2]
  | a :: b :: c :: rest => by
    have ha := a.toNat_lt
    have hb := b.toNat_lt
    have hc := c.toNat_lt
    have e1 : byte1 (a.toNat / 4) (a.toNat % 4 * 16 + b.toNat / 16) = a := ofNat_eq a (by omega)
    have e2 : byte2 (a.toNat % 4 * 16 + b.toNat / 16) (b.toNat % 16 * 4 + c.toNat / 64) = b :=
      ofNat_eq b (by omega)
    have e3 : byte3 (b.toNat % 16 * 4 + c.toNat / 64) (c.toNat % 64) = c := ofNat_eq c (by omega)
    simp [encode, decodeGroups, letter_ne_pad (show c.toNat % 64 < 64 by omega),
      sextet_letter (show a.toNat / 4 < 64 by omega),
      sextet_letter (show a.toNat % 4 * 16 + b.toNat / 16 < 64 by omega),
      sextet_letter (show b.toNat % 16 * 4 + c.toNat / 64 < 64 by omega),
      sextet_letter (show c.toNat % 64 < 64 by omega), decodeGroups_encode rest, e1, e2, e3]

/-- **Reading what was written gives the bytes back.** -/
theorem decode_encode (bs : List UInt8) : decode (encode bs) = some bs := by
  unfold decode
  rw [List.filter_eq_self.mpr, decodeGroups_encode]
  intro c hc
  simp [not_isBlank_of_isLetter (isLetter_of_mem_encode hc)]

example : encode [77, 97, 110, 77] = "TWFuTQ==".toList := by decide

end VT7.Lib.Base64
