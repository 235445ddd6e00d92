import Mathlib.Data.List.Basic
import Mathlib.Tactic.Common

/-!
# Reading UTF-8 with replacement

UTF-8 read byte by byte.  Every part of the bytes that is no code point, as long as it can be and still
begin one, becomes one U+FFFD.
-/

namespace VT7.Lib.Utf8

/-- The UTF-16 units of a code point. -/
def units (value : ℕ) : List UInt16 :=
  if value < 0x10000 then [.ofNat value]
  else [.ofNat (0xd800 + (value - 0x10000) / 0x400), .ofNat (0xdc00 + (value - 0x10000) % 0x400)]

/-- UTF-8. -/
def encode (t : List Char) : List UInt8 := t.flatMap String.utf8EncodeChar

/-- UTF-16. -/
def utf16 (t : List Char) : List UInt16 := t.flatMap fun c => units c.toNat

/-- A byte inside a code point, behind the first one. -/
def IsTail (b : UInt8) : Prop := 0x80 ≤ b.toNat ∧ b.toNat ≤ 0xbf

instance (b : UInt8) : Decidable (IsTail b) := inferInstanceAs (Decidable (_ ∧ _))

/-- A code point of which the first bytes are there: its bits, the number of bytes that it still needs
and the bounds of the next one. -/
structure Open where
  value : ℕ
  owed : ℕ
  low : ℕ
  high : ℕ
deriving DecidableEq

/-- The byte goes on with the code point. -/
def Open.Fits (o : Open) (b : UInt8) : Prop := o.low ≤ b.toNat ∧ b.toNat ≤ o.high

instance (o : Open) (b : UInt8) : Decidable (o.Fits b) := inferInstanceAs (Decidable (_ ∧ _))

/-- What a lead byte begins: no overlong form, no surrogate and nothing above U+10FFFF. -/
def lead (b : UInt8) : Option Open :=
  if 0xc2 ≤ b.toNat ∧ b.toNat ≤ 0xdf then some ⟨b.toNat - 0xc0, 1, 0x80, 0xbf⟩
  else if 0xe0 ≤ b.toNat ∧ b.toNat ≤ 0xef then
    some ⟨b.toNat - 0xe0, 2, if b.toNat = 0xe0 then 0xa0 else 0x80, if b.toNat = 0xed then 0x9f else 0xbf⟩
  else if 0xf0 ≤ b.toNat ∧ b.toNat ≤ 0xf4 then
    some ⟨b.toNat - 0xf0, 3, if b.toNat = 0xf0 then 0x90 else 0x80, if b.toNat = 0xf4 then 0x8f else 0xbf⟩
  else none

/-- A byte between two code points: what it begins, or its text. -/
def first (b : UInt8) : Option Open × List UInt16 :=
  if b.toNat < 0x80 then (none, [.ofNat b.toNat])
  else ((lead b), if (lead b).isSome then [] else [0xfffd])

/-- The bits of a code point with one more byte. -/
def Open.more (o : Open) (b : UInt8) : ℕ := o.value * 64 + (b.toNat - 0x80)

/-- One byte: the code point that is open behind it, and the text that is known. -/
def step : Option Open → UInt8 → Option Open × List UInt16
  | none, b => first b
  | some o, b =>
    if o.Fits b then
      if o.owed = 1 then (none, units (o.more b)) else (some ⟨o.more b, o.owed - 1, 0x80, 0xbf⟩, [])
    else ((first b).1, 0xfffd :: (first b).2)

/-- The code point that is open behind some bytes. -/
def after : Option Open → List UInt8 → Option Open
  | s, [] => s
  | s, b :: bytes => after (step s b).1 bytes

/-- The text of some bytes, without what is open behind them. -/
def known : Option Open → List UInt8 → List UInt16
  | _, [] => []
  | s, b :: bytes => (step s b).2 ++ known (step s b).1 bytes

/-- What is open at the end is replaced, too. -/
def close : Option Open → List UInt16
  | none => []
  | some _ => [0xfffd]

/-- The text of some bytes behind an open code point. -/
def decode (s : Option Open) (bytes : List UInt8) : List UInt16 := known s bytes ++ close (after s bytes)

/-- The text of some bytes. -/
def replaced (bytes : List UInt8) : List UInt16 := decode none bytes

/-! ### Pieces -/

section Pieces

variable (s : Option Open) (b : UInt8) (a bytes : List UInt8)

@[simp] lemma decode_nil : decode s [] = close s := rfl

lemma decode_cons : decode s (b :: bytes) = (step s b).2 ++ decode (step s b).1 bytes :=
  List.append_assoc _ _ _

lemma after_append : after s (a ++ bytes) = after (after s a) bytes := by
  induction a generalizing s with
  | nil => rfl
  | cons b a ih => exact ih _

lemma decode_append : decode s (a ++ bytes) = known s a ++ decode (after s a) bytes := by
  induction a generalizing s with
  | nil => rfl
  | cons b a ih =>
    rw [List.cons_append, decode_cons, ih]
    exact (List.append_assoc _ _ _).symm

/-- A cut between two parts: what is open on the left does not go on at the right. -/
def Between (a bytes : List UInt8) : Prop := ∀ o, after none a = some o → ∀ b ∈ bytes.head?, ¬o.Fits b

instance : Decidable (Between a bytes) :=
  match h : after none a, h' : bytes.head? with
  | none, _ => .isTrue fun _ ho => by rw [h] at ho; cases ho
  | some _, none => .isTrue fun _ _ b hb => by rw [h'] at hb; cases hb
  | some o, some b =>
    decidable_of_iff (¬o.Fits b) ⟨fun hfits _ ho _ hb => by
      rw [h, Option.some.injEq] at ho
      rw [h', Option.mem_some_iff] at hb
      rwa [← ho, ← hb], fun h'' => h'' o h b h'⟩

lemma step_none : step none b = first b := rfl

lemma step_of_fits {o : Open} (h : o.Fits b) :
    step (some o) b = if o.owed = 1 then (none, units (o.more b)) else (some ⟨o.more b, o.owed - 1, 0x80, 0xbf⟩, []) :=
  if_pos h

lemma step_of_not_fits {o : Open} (h : ¬o.Fits b) : step (some o) b = ((first b).1, 0xfffd :: (first b).2) :=
  if_neg h

lemma decode_some_of_not_fits {o : Open} (h : ∀ b ∈ bytes.head?, ¬o.Fits b) :
    decode (some o) bytes = 0xfffd :: decode none bytes := by
  cases bytes with
  | nil => rfl
  | cons b bytes =>
    rw [decode_cons, decode_cons, step_of_not_fits _ (h b rfl)]
    rfl

/-- The text on both sides of such a cut is the whole text. -/
lemma Between.replaced_append {a bytes : List UInt8} (h : Between a bytes) :
    replaced (a ++ bytes) = replaced a ++ replaced bytes := by
  unfold replaced
  rw [decode_append]
  have hleft : decode none a = known none a ++ close (after none a) := rfl
  rw [hleft]
  cases hafter : after none a with
  | none => exact congrArg (· ++ _) (List.append_nil _).symm
  | some o =>
    rw [decode_some_of_not_fits _ (h o hafter), List.append_assoc]
    rfl

lemma between_nil : Between a [] := fun _ _ b hb => absurd hb (Option.not_mem_none b)

lemma between_of_after {a : List UInt8} (h : after none a = none) : Between a bytes := by
  intro o ho
  rw [h] at ho
  cases ho

end Pieces

/-! ### Continuation bytes -/

/-- What holds of every code point that is open. -/
structure Open.Proper (o : Open) : Prop where
  low : 0x80 ≤ o.low
  high : o.high ≤ 0xbf
  owed : 0 < o.owed

lemma Open.Proper.isTail {o : Open} (ho : o.Proper) {b : UInt8} (h : o.Fits b) : IsTail b :=
  ⟨Nat.le_trans ho.low h.1, Nat.le_trans h.2 ho.high⟩

lemma lead_proper {b : UInt8} {o : Open} (h : lead b = some o) : o.Proper := by
  unfold lead at h
  split at h
  · obtain rfl := Option.some.inj h
    exact ⟨Nat.le_refl _, Nat.le_refl _, Nat.one_pos⟩
  split at h
  · obtain rfl := Option.some.inj h
    refine ⟨?_, ?_, Nat.two_pos⟩
    · dsimp only
      split <;> omega
    · dsimp only
      split <;> omega
  split at h
  · obtain rfl := Option.some.inj h
    refine ⟨?_, ?_, Nat.succ_pos 2⟩
    · dsimp only
      split <;> omega
    · dsimp only
      split <;> omega
  · exact absurd h (Option.some_ne_none _).symm

lemma first_proper {b : UInt8} {o : Open} (h : (first b).1 = some o) : lead b = some o ∧ o.Proper := by
  unfold first at h
  split at h
  · cases h
  · exact ⟨h, lead_proper h⟩

lemma step_proper {s : Option Open} (hs : ∀ o, s = some o → o.Proper) {b : UInt8} {o : Open} (h : (step s b).1 = some o) :
    o.Proper := by
  cases s with
  | none => exact (first_proper h).2
  | some o' =>
    have ho := hs o' rfl
    by_cases hfits : o'.Fits b
    · rw [step_of_fits _ hfits] at h
      split at h
      · cases h
      · obtain rfl := Option.some.inj h
        have howed := ho.owed
        exact ⟨Nat.le_refl _, Nat.le_refl _, by dsimp only; omega⟩
    · rw [step_of_not_fits _ hfits] at h
      exact (first_proper h).2

lemma after_proper {s : Option Open} (hs : ∀ o, s = some o → o.Proper) {a : List UInt8} {o : Open} (h : after s a = some o) :
    o.Proper := by
  induction a generalizing s with
  | nil => exact hs o h
  | cons b a ih => exact ih (fun _ ho => step_proper hs ho) h

lemma proper_of_after {a : List UInt8} {o : Open} (h : after none a = some o) : o.Proper :=
  after_proper (fun _ ho => absurd ho (Option.some_ne_none _).symm) h

/-- In front of a byte that is no continuation byte every cut is between two parts. -/
lemma between_of_not_tail (a : List UInt8) {b : UInt8} (hb : ¬IsTail b) (bytes : List UInt8) : Between a (b :: bytes) := by
  intro o ho b' hb' hfits
  obtain rfl : b = b' := Option.some.inj hb'
  exact hb ((proper_of_after ho).isTail hfits)

lemma first_of_tail {b : UInt8} (hb : IsTail b) : first b = (none, [0xfffd]) := by
  obtain ⟨hlow, hhigh⟩ := hb
  have hlead : lead b = none := by
    unfold lead
    rw [if_neg (by omega), if_neg (by omega), if_neg (by omega)]
  unfold first
  rw [if_neg (by omega), hlead]
  rfl

/-- The number of bytes that an open code point still needs. -/
def owes : Option Open → ℕ
  | none => 0
  | some o => o.owed

lemma owes_step_of_tail {s : Option Open} (hs : ∀ o, s = some o → o.Proper) {b : UInt8} (hb : IsTail b) :
    owes (step s b).1 ≤ owes s - 1 := by
  cases s with
  | none =>
    rw [step_none, first_of_tail hb]
    exact Nat.zero_le _
  | some o =>
    by_cases hfits : o.Fits b
    · rw [step_of_fits _ hfits]
      split
      · exact Nat.zero_le _
      · exact Nat.le_refl _
    · rw [step_of_not_fits _ hfits, first_of_tail hb]
      exact Nat.zero_le _

lemma after_of_tails {s : Option Open} (hs : ∀ o, s = some o → o.Proper) {tails : List UInt8}
    (htails : ∀ b ∈ tails, IsTail b) (hlen : owes s ≤ tails.length) : after s tails = none := by
  induction tails generalizing s with
  | nil =>
    cases s with
    | none => rfl
    | some o => exact absurd hlen (Nat.not_le_of_gt (hs o rfl).owed)
  | cons b tails ih =>
    have hstep := owes_step_of_tail hs (htails b List.mem_cons_self)
    rw [List.length_cons] at hlen
    exact ih (fun _ ho => step_proper hs ho) (fun b' hb' => htails b' (List.mem_cons_of_mem _ hb')) (by omega)

/-- Behind all the bytes that a lead byte asks for nothing is open. -/
lemma after_lead {a tails : List UInt8} {b : UInt8} (hb : ¬IsTail b) (htails : ∀ b ∈ tails, IsTail b)
    (hlen : owes (lead b) ≤ tails.length) : after none (a ++ b :: tails) = none := by
  rw [after_append]
  have hstep : (step (after none a) b).1 = (first b).1 := by
    cases hafter : after none a with
    | none => rfl
    | some o =>
      have hfits : ¬o.Fits b := fun h => hb ((proper_of_after hafter).isTail h)
      rw [step_of_not_fits _ hfits]
  show after (step (after none a) b).1 tails = none
  rw [hstep]
  refine after_of_tails (fun o ho => (first_proper ho).2) htails (Nat.le_trans ?_ hlen)
  cases hfirst : (first b).1 with
  | none => exact Nat.zero_le _
  | some o =>
    exact Nat.le_of_eq (congrArg owes (first_proper hfirst).1.symm)

/-! ### The length of the text -/

lemma units_length_le (value : ℕ) : (units value).length ≤ 2 := by
  unfold units
  split <;> simp

lemma first_length_le (b : UInt8) : (first b).2.length + (if (first b).1.isSome then 1 else 0) = 1 := by
  unfold first
  split
  · rfl
  · cases lead b <;> rfl

/-- One unit a byte is enough, and one more for what is open. -/
lemma length_decode_le (s : Option Open) (bytes : List UInt8) :
    (decode s bytes).length ≤ bytes.length + if s.isSome then 1 else 0 := by
  induction bytes generalizing s with
  | nil => cases s <;> simp [close]
  | cons b bytes ih =>
    have hrest := ih (step s b).1
    have hfirst := first_length_le b
    rw [decode_cons, List.length_append, List.length_cons]
    cases s with
    | none =>
      rw [step_none] at hrest ⊢
      simp only [Option.isSome_none, Bool.false_eq_true, if_false] at *
      omega
    | some o =>
      by_cases hfits : o.Fits b
      · rw [step_of_fits _ hfits] at hrest ⊢
        split at hrest
        · next howed =>
          have hunits := units_length_le (o.more b)
          rw [if_pos howed]
          simp only [Option.isSome_none, Option.isSome_some, Bool.false_eq_true, if_false, if_true] at *
          omega
        · next howed =>
          rw [if_neg howed]
          simp only [Option.isSome_some, if_true, List.length_nil] at *
          omega
      · rw [step_of_not_fits _ hfits] at hrest ⊢
        simp only [Option.isSome_some, if_true, List.length_cons] at *
        omega

lemma length_replaced_le (bytes : List UInt8) : (replaced bytes).length ≤ bytes.length := length_decode_le none bytes

lemma decode_ne_nil (s : Option Open) {bytes : List UInt8} (h : s ≠ none ∨ bytes ≠ []) : decode s bytes ≠ [] := by
  induction bytes generalizing s with
  | nil =>
    cases s with
    | none => simp at h
    | some o => simp [close]
  | cons b bytes ih =>
    rw [decode_cons]
    intro hnil
    obtain ⟨htext, hrest⟩ := List.append_eq_nil_iff.mp hnil
    have hopen : (step s b).1 = none := by
      by_contra hne
      exact ih _ (.inl hne) hrest
    have hfirst := first_length_le b
    cases s with
    | none =>
      rw [step_none] at hopen htext
      rw [hopen, htext] at hfirst
      cases hfirst
    | some o =>
      by_cases hfits : o.Fits b
      · rw [step_of_fits _ hfits] at hopen htext
        split at htext
        · unfold units at htext
          split at htext <;> cases htext
        · next howed =>
          rw [if_neg howed] at hopen
          cases hopen
      · rw [step_of_not_fits _ hfits] at htext
        cases htext

lemma replaced_ne_nil {bytes : List UInt8} (h : bytes ≠ []) : replaced bytes ≠ [] := decode_ne_nil none (.inr h)

/-! ### A cut inside a part -/

/-- An open code point needs at most one unit more than the same bytes behind nothing. -/
lemma length_decode_some_le {o : Open} (ho : o.Proper) (bytes : List UInt8) :
    (decode (some o) bytes).length ≤ (decode none bytes).length + 1 := by
  induction bytes generalizing o with
  | nil => exact Nat.le_refl _
  | cons b bytes ih =>
    by_cases hfits : o.Fits b
    · rw [decode_cons, decode_cons, step_none, first_of_tail (ho.isTail hfits)]
      have hnext := fun o' => @step_proper (some o) (by rintro _ ⟨⟩; exact ho) b o'
      rw [step_of_fits _ hfits] at hnext ⊢
      split
      · have hunits := units_length_le (o.more b)
        simp only [List.length_append, List.length_cons, List.length_nil]
        omega
      · next howed =>
        rw [if_neg howed] at hnext
        have hrest := ih (hnext _ rfl)
        simp only [List.length_append, List.length_cons, List.length_nil]
        omega
    · rw [decode_some_of_not_fits _ (by rintro _ ⟨⟩; exact hfits)]
      exact Nat.le_refl _

/-- No code point is read as two replacements. -/
lemma units_ne_twice (value : ℕ) : units value ≠ [0xfffd, 0xfffd] := by
  unfold units
  split
  · exact fun h => absurd (congrArg List.length h) (by simp)
  · intro h
    have hsecond : UInt16.ofNat (0xdc00 + (value - 0x10000) % 0x400) = 0xfffd :=
      (List.cons.inj (List.cons.inj h).2).1
    have hnat := congrArg UInt16.toNat hsecond
    have hsize : UInt16.size = 0x10000 := rfl
    rw [UInt16.toNat_ofNat_of_lt' (by omega)] at hnat
    have hvalue : (0xfffd : UInt16).toNat = 0xfffd := rfl
    omega

/-- The two sides of a cut inside a part have another text than the whole. -/
lemma replaced_cut_ne {a bytes : List UInt8} (h : ¬Between a bytes) :
    replaced a ++ replaced bytes ≠ replaced (a ++ bytes) := by
  unfold Between at h
  push Not at h
  obtain ⟨o, hafter, b, hb, hfits⟩ := h
  have ho := proper_of_after hafter
  obtain ⟨rest, rfl⟩ : ∃ rest, bytes = b :: rest := by
    cases bytes with
    | nil => cases hb
    | cons b' rest => exact ⟨rest, by rw [Option.some.inj hb]⟩
  have hleft : replaced a = known none a ++ [0xfffd] := by
    unfold replaced decode
    rw [hafter]
    rfl
  intro heq
  rw [hleft, replaced, replaced, decode_append, hafter, List.append_assoc, List.append_cancel_left_eq, decode_cons,
    decode_cons, step_none, first_of_tail (ho.isTail hfits), step_of_fits _ hfits] at heq
  by_cases howed : o.owed = 1
  · rw [if_pos howed] at heq
    dsimp only at heq
    rw [← List.append_assoc] at heq
    exact units_ne_twice _ (List.append_cancel_right heq).symm
  · rw [if_neg howed] at heq
    have hlen := congrArg List.length heq
    have hnext := @step_proper (some o) (by rintro _ ⟨⟩; exact ho) b
    rw [step_of_fits _ hfits, if_neg howed] at hnext
    have hle := length_decode_some_le (hnext rfl) rest
    simp only [List.length_append, List.length_cons, List.length_nil] at hlen
    omega

/-! ### Well-formed text -/

lemma first_of_lead {b : UInt8} {o : Open} (hb : 0x80 ≤ b.toNat) (h : lead b = some o) : first b = (some o, []) := by
  unfold first
  rw [if_neg (by omega), h]
  rfl

/-- The next byte of a code point of which the bits of `value` in front of the last `owed * 6` are there. -/
lemma step_next {o : Open} {value : ℕ} {b : UInt8} (hfits : o.Fits b) (hmore : o.more b = value) :
    step (some o) b = if o.owed = 1 then (none, units value) else (some ⟨value, o.owed - 1, 0x80, 0xbf⟩, []) := by
  rw [step_of_fits _ hfits, hmore]

lemma toNat_tail (n : ℕ) : (UInt8.ofNat (n % 0x40 + 0x80)).toNat = n % 0x40 + 0x80 := by
  have hsize : UInt8.size = 0x100 := rfl
  exact UInt8.toNat_ofNat_of_lt' (by omega)

lemma toNat_char_cases (c : Char) : c.toNat < 0xd800 ∨ 0xdfff < c.toNat ∧ c.toNat < 0x110000 := c.valid

/-- The bytes of a character, and what is known behind them. -/
lemma decode_utf8EncodeChar (c : Char) :
    after none (String.utf8EncodeChar c) = none ∧ known none (String.utf8EncodeChar c) = units c.toNat := by
  have hvalid := toNat_char_cases c
  have hsize : UInt8.size = 0x100 := rfl
  unfold String.utf8EncodeChar
  rw [show c.val.toNat = c.toNat from rfl]
  generalize c.toNat = n at hvalid
  dsimp only
  split
  · next hone =>
    have hb : (UInt8.ofNat n).toNat = n := UInt8.toNat_ofNat_of_lt' (by omega)
    have hfirst : first (UInt8.ofNat n) = (none, [.ofNat n]) := by
      unfold first
      rw [if_pos (by omega), hb]
    have hunits : units n = [.ofNat n] := if_pos (by omega)
    rw [after, known, step_none, hfirst, hunits]
    exact ⟨rfl, rfl⟩
  split
  · next hone htwo =>
    have hb : (UInt8.ofNat (n / 64 % 0x20 + 0xc0)).toNat = n / 64 + 0xc0 := by
      rw [UInt8.toNat_ofNat_of_lt' (by omega)]
      omega
    have hlead : lead (UInt8.ofNat (n / 64 % 0x20 + 0xc0)) = some ⟨n / 64, 1, 0x80, 0xbf⟩ := by
      unfold lead
      rw [hb, if_pos (by omega), Nat.add_sub_cancel]
    have hnext := @step_next ⟨n / 64, 1, 0x80, 0xbf⟩ n (UInt8.ofNat (n % 0x40 + 0x80))
      (by unfold Open.Fits; rw [toNat_tail]; dsimp only; omega)
      (by unfold Open.more; rw [toNat_tail]; dsimp only; omega)
    rw [after, after, known, known, step_none, first_of_lead (by omega) hlead]
    dsimp only
    rw [hnext]
    exact ⟨rfl, List.append_nil _⟩
  split
  · next hone htwo hthree =>
    have hb : (UInt8.ofNat (n / 4096 % 0x10 + 0xe0)).toNat = n / 4096 + 0xe0 := by
      rw [UInt8.toNat_ofNat_of_lt' (by omega)]
      omega
    have hlead : lead (UInt8.ofNat (n / 4096 % 0x10 + 0xe0)) = some ⟨n / 4096, 2,
        if n / 4096 + 0xe0 = 0xe0 then 0xa0 else 0x80, if n / 4096 + 0xe0 = 0xed then 0x9f else 0xbf⟩ := by
      unfold lead
      rw [hb, if_neg (by omega), if_pos (by omega), Nat.add_sub_cancel]
    have hsecond := @step_next ⟨n / 4096, 2, if n / 4096 + 0xe0 = 0xe0 then 0xa0 else 0x80,
        if n / 4096 + 0xe0 = 0xed then 0x9f else 0xbf⟩ (n / 64) (UInt8.ofNat (n / 64 % 0x40 + 0x80))
      (by
        unfold Open.Fits
        rw [toNat_tail]
        dsimp only
        constructor
        · split <;> omega
        · split <;> omega)
      (by unfold Open.more; rw [toNat_tail]; dsimp only; omega)
    have hthird := @step_next ⟨n / 64, 1, 0x80, 0xbf⟩ n (UInt8.ofNat (n % 0x40 + 0x80))
      (by unfold Open.Fits; rw [toNat_tail]; dsimp only; omega)
      (by unfold Open.more; rw [toNat_tail]; dsimp only; omega)
    rw [after, after, after, known, known, known, step_none, first_of_lead (by omega) hlead]
    dsimp only
    rw [hsecond]
    dsimp only
    rw [if_neg (by omega)]
    dsimp only
    rw [hthird]
    exact ⟨rfl, List.append_nil _⟩
  · next hone htwo hthree =>
    have hb : (UInt8.ofNat (n / 262144 % 0x08 + 0xf0)).toNat = n / 262144 + 0xf0 := by
      rw [UInt8.toNat_ofNat_of_lt' (by omega)]
      omega
    have hlead : lead (UInt8.ofNat (n / 262144 % 0x08 + 0xf0)) = some ⟨n / 262144, 3,
        if n / 262144 + 0xf0 = 0xf0 then 0x90 else 0x80, if n / 262144 + 0xf0 = 0xf4 then 0x8f else 0xbf⟩ := by
      unfold lead
      rw [hb, if_neg (by omega), if_neg (by omega), if_pos (by omega), Nat.add_sub_cancel]
    have hsecond := @step_next ⟨n / 262144, 3, if n / 262144 + 0xf0 = 0xf0 then 0x90 else 0x80,
        if n / 262144 + 0xf0 = 0xf4 then 0x8f else 0xbf⟩ (n / 4096) (UInt8.ofNat (n / 4096 % 0x40 + 0x80))
      (by
        unfold Open.Fits
        rw [toNat_tail]
        dsimp only
        constructor
        · split <;> omega
        · split <;> omega)
      (by unfold Open.more; rw [toNat_tail]; dsimp only; omega)
    have hthird := @step_next ⟨n / 4096, 2, 0x80, 0xbf⟩ (n / 64) (UInt8.ofNat (n / 64 % 0x40 + 0x80))
      (by unfold Open.Fits; rw [toNat_tail]; dsimp only; omega)
      (by unfold Open.more; rw [toNat_tail]; dsimp only; omega)
    have hfourth := @step_next ⟨n / 64, 1, 0x80, 0xbf⟩ n (UInt8.ofNat (n % 0x40 + 0x80))
      (by unfold Open.Fits; rw [toNat_tail]; dsimp only; omega)
      (by unfold Open.more; rw [toNat_tail]; dsimp only; omega)
    rw [after, after, after, after, known, known, known, known, step_none, first_of_lead (by omega) hlead]
    dsimp only
    rw [hsecond]
    dsimp only
    rw [if_neg (by omega)]
    dsimp only
    rw [hthird]
    dsimp only
    rw [if_neg (by omega)]
    dsimp only
    rw [hfourth]
    exact ⟨rfl, List.append_nil _⟩

/-- **Well-formed text is read exactly.** -/
theorem replaced_encode (t : List Char) : replaced (encode t) = utf16 t := by
  induction t with
  | nil => rfl
  | cons c t ih =>
    obtain ⟨hafter, hknown⟩ := decode_utf8EncodeChar c
    show decode none (String.utf8EncodeChar c ++ encode t) = units c.toNat ++ utf16 t
    rw [decode_append, hafter, hknown, ← ih]
    rfl

end VT7.Lib.Utf8
