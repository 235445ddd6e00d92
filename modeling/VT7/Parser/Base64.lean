import Mathlib.Data.List.Basic
import Mathlib.Data.Nat.Bitwise
import Mathlib.Tactic.IntervalCases

/-!
# Base64 of a clipboard string

`Base64::Decode` reads four letters at a time up to the last letters, and those one by one.  The pointers are the
input that is left and the bytes that are written; `none` is a read or a write outside the buffers.
-/

namespace VT7.Parser.Base64

def decodeTable : List UInt8 := [
  255, 255, 255, 255, 255, 255, 255, 255, 255, 255, 255, 255, 255, 255, 255, 255,
  255, 255, 255, 255, 255, 255, 255, 255, 255, 255, 255, 255, 255, 255, 255, 255,
  255, 255, 255, 255, 255, 255, 255, 255, 255, 255, 255, 62, 255, 62, 255, 63,
  52, 53, 54, 55, 56, 57, 58, 59, 60, 61, 255, 255, 255, 255, 255, 255,
  255, 0, 1, 2, 3, 4, 5, 6, 7, 8, 9, 10, 11, 12, 13, 14,
  15, 16, 17, 18, 19, 20, 21, 22, 23, 24, 25, 255, 255, 255, 255, 63,
  255, 26, 27, 28, 29, 30, 31, 32, 33, 34, 35, 36, 37, 38, 39, 40,
  41, 42, 43, 44, 45, 46, 47, 48, 49, 50, 51, 255, 255, 255, 255, 255]

/-- `HRESULT_FROM_WIN32(ERROR_INVALID_DATA)`. -/
def invalidData : ℕ := 0x8007000D

/-- `r` and `error`. -/
structure Accumulator where
  r : UInt32 := 0
  error : UInt16 := 0

def Accumulator.accumulate (a : Accumulator) (ch : UInt16) : Accumulator :=
  let n := decodeTable.getD (ch &&& 0x7f).toNat 0
  { error := a.error ||| ((ch ||| n.toUInt16) &&& 0xff80)
    r := a.r <<< 6 ||| n.toUInt32 }

/-- Bytes at `out`, which stands behind the written ones. -/
def write (capacity : ℕ) (written bytes : List UInt8) : Option (List UInt8) :=
  if written.length + bytes.length ≤ capacity then some (written ++ bytes) else none

/-- The bytes of `r` from one bit on. -/
def Accumulator.byteAt (a : Accumulator) (shift : UInt32) : UInt8 := (a.r >>> shift).toUInt8

/-- The batched loop; it goes on while more than `limit` letters are left. -/
def batched (capacity limit : ℕ) : List UInt16 → List UInt8 → Accumulator →
    Option (List UInt16 × List UInt8 × Accumulator)
  | ch0 :: ch1 :: ch2 :: ch3 :: rest, written, a =>
    if limit < rest.length + 4 then
      let a := (((a.accumulate ch0).accumulate ch1).accumulate ch2).accumulate ch3
      (write capacity written [a.byteAt 16, a.byteAt 8, a.byteAt 0]).bind fun written =>
        batched capacity limit rest written a
    else some (ch0 :: ch1 :: ch2 :: ch3 :: rest, written, a)
  | rest, written, a => if limit < rest.length then none else some (rest, written, a)

/-- The loop over the last letters, with `ri`. -/
def tail : List UInt16 → Accumulator → ℕ → Accumulator × ℕ
  | [], a, ri => (a, ri)
  | ch :: rest, a, ri => if ch != 0x3d then tail rest (a.accumulate ch) (ri + 1) else tail rest a ri

/-- The bytes of the last letters. -/
def lastBytes (a : Accumulator) : ℕ → List UInt8
  | 2 => [a.byteAt 4]
  | 3 => [a.byteAt 10, a.byteAt 2]
  | 4 => [a.byteAt 16, a.byteAt 8, a.byteAt 0]
  | _ => []

/-- `error |= ri` in the last case of the switch. -/
def lastError (error : UInt16) : ℕ → UInt16
  | 2 | 3 | 4 => error
  | ri => error ||| UInt16.ofNat ri

/-- The bytes that `Decode` makes; the inner `none` is an error. -/
def decodeBytes (src : List UInt16) : Option (Option (List UInt8)) :=
  let capacity := (src.length + 3) / 4 * 3
  (batched capacity (min 5 src.length) src [] {}).bind fun state =>
    let (a, ri) := tail state.1 state.2.2 0
    (write capacity state.2.1 (lastBytes a ri)).map fun written =>
      if lastError a.error ri != 0 then none else some written

/-- `Decode` with `til::u8u16` as a parameter. -/
def decode (u8u16 : List UInt8 → List UInt16 → ℕ × List UInt16) (src dst : List UInt16) : Option (ℕ × List UInt16) :=
  (decodeBytes src).map fun
    | none => (invalidData, dst)
    | some result => u8u16 result dst

/-! ### Encodings -/

/-- The six bits of a letter of one of the alphabets. -/
def sextet (ch : UInt16) : Option ℕ :=
  if 0x41 ≤ ch.toNat ∧ ch.toNat ≤ 0x5a then some (ch.toNat - 0x41)
  else if 0x61 ≤ ch.toNat ∧ ch.toNat ≤ 0x7a then some (ch.toNat - 0x47)
  else if 0x30 ≤ ch.toNat ∧ ch.toNat ≤ 0x39 then some (ch.toNat + 4)
  else if ch.toNat = 0x2b ∨ ch.toNat = 0x2d then some 62
  else if ch.toNat = 0x2f ∨ ch.toNat = 0x5f then some 63
  else none

/-- The encodings of some bytes: letters of both alphabets, with or without padding. -/
inductive Encodes : List UInt8 → List UInt16 → Prop
  | nil : Encodes [] []
  | one {a : UInt8} {p q : UInt16} {padding : List UInt16} (hp : sextet p = some (a.toNat / 4))
      (hq : sextet q = some (a.toNat % 4 * 16)) (hpadding : padding = [] ∨ padding = [0x3d, 0x3d]) :
      Encodes [a] (p :: q :: padding)
  | two {a b : UInt8} {p q s : UInt16} {padding : List UInt16} (hp : sextet p = some (a.toNat / 4))
      (hq : sextet q = some (a.toNat % 4 * 16 + b.toNat / 16)) (hs : sextet s = some (b.toNat % 16 * 4))
      (hpadding : padding = [] ∨ padding = [0x3d]) : Encodes [a, b] (p :: q :: s :: padding)
  | three {a b c : UInt8} {p q s t : UInt16} {bytes : List UInt8} {text : List UInt16}
      (hp : sextet p = some (a.toNat / 4)) (hq : sextet q = some (a.toNat % 4 * 16 + b.toNat / 16))
      (hs : sextet s = some (b.toNat % 16 * 4 + c.toNat / 64)) (ht : sextet t = some (c.toNat % 64))
      (hrest : Encodes bytes text) : Encodes (a :: b :: c :: bytes) (p :: q :: s :: t :: text)

/-! ### One letter -/

lemma sextet_lt {ch : UInt16} {n : ℕ} (h : sextet ch = some n) : n < 64 ∧ ch.toNat < 128 := by
  unfold sextet at h
  split_ifs at h <;> obtain rfl := Option.some.inj h <;> omega

lemma sextet_pad : sextet 0x3d = none := rfl

/-- The table has the six bits of every letter, and 255 for the other units of ASCII. -/
lemma decodeTable_spec : ∀ n < 128, decodeTable.getD n 0 = UInt8.ofNat ((sextet (UInt16.ofNat n)).getD 255) := by
  decide

lemma toNat_and_ascii (ch : UInt16) : (ch &&& 0x7f).toNat = ch.toNat % 128 := by
  rw [UInt16.toNat_and]
  exact Nat.and_two_pow_sub_one_eq_mod ch.toNat 7

lemma table_of_lt {ch : UInt16} (h : ch.toNat < 128) :
    decodeTable.getD (ch &&& 0x7f).toNat 0 = UInt8.ofNat ((sextet ch).getD 255) := by
  rw [toNat_and_ascii, Nat.mod_eq_of_lt h, decodeTable_spec _ h, UInt16.ofNat_toNat]

/-- No bit from the eighth one on is set in small numbers alone. -/
lemma and_high_eq_zero_iff (x : UInt16) : x &&& 0xff80 = 0 ↔ x.toNat < 128 := by
  rw [← UInt16.toNat_inj, UInt16.toNat_and]
  show x.toNat &&& 0xff80 = 0 ↔ _
  constructor
  · intro h
    by_contra hge
    obtain ⟨i, hi, hbit⟩ := Nat.exists_ge_and_testBit_of_ge_two_pow (show 2 ^ 7 ≤ x.toNat by omega)
    have hi16 : i < 16 := by
      by_contra hlarge
      have hsmall : x.toNat < 2 ^ i := Nat.lt_of_lt_of_le x.toNat_lt (Nat.pow_le_pow_right (by omega) (by omega))
      rw [Nat.testBit_lt_two_pow hsmall] at hbit
      cases hbit
    have hand := Nat.testBit_and x.toNat 0xff80 i
    rw [h, Nat.zero_testBit, hbit] at hand
    interval_cases i <;> cases hand
  · intro h
    apply Nat.eq_of_testBit_eq
    intro i
    rw [Nat.testBit_and, Nat.zero_testBit]
    rcases Nat.lt_or_ge i 7 with hi | hi
    · have hmask : Nat.testBit 0xff80 i = false := by interval_cases i <;> rfl
      rw [hmask, Bool.and_false]
    · rw [Nat.testBit_lt_two_pow (Nat.lt_of_lt_of_le h (Nat.pow_le_pow_right (by omega) hi : 2 ^ 7 ≤ 2 ^ i)), Bool.false_and]

lemma or_eq_zero_iff (x y : UInt16) : x ||| y = 0 ↔ x = 0 ∧ y = 0 := by
  rw [← UInt16.toNat_inj, ← UInt16.toNat_inj, ← UInt16.toNat_inj, UInt16.toNat_or]
  exact Nat.or_eq_zero_iff

/-- **The error flag is set by every other unit.** -/
lemma accumulate_error (a : Accumulator) (ch : UInt16) :
    (a.accumulate ch).error = 0 ↔ a.error = 0 ∧ (sextet ch).isSome := by
  show a.error ||| ((ch ||| (decodeTable.getD (ch &&& 0x7f).toNat 0).toUInt16) &&& 0xff80) = 0 ↔ _
  rw [or_eq_zero_iff, and_high_eq_zero_iff, UInt16.toNat_or]
  refine and_congr_right fun _ => ?_
  rcases Nat.lt_or_ge ch.toNat 128 with hlt | hge
  · rw [table_of_lt hlt]
    cases h : sextet ch with
    | none =>
      have hright : (255 : ℕ) ≤ ch.toNat ||| 255 := Nat.right_le_or
      refine iff_of_false ?_ Bool.false_ne_true
      show ¬(ch.toNat ||| 255 < 128)
      omega
    | some n =>
      refine iff_of_true ?_ rfl
      have hn : n < 2 ^ 7 := Nat.lt_trans (sextet_lt h).1 (by decide)
      have heq : (UInt8.ofNat n).toUInt16.toNat = n := Nat.mod_eq_of_lt (by omega)
      show ch.toNat ||| (UInt8.ofNat n).toUInt16.toNat < 2 ^ 7
      rw [heq]
      exact Nat.or_lt_two_pow hlt hn
  · have hnone : sextet ch = none := by
      cases h : sextet ch with
      | none => rfl
      | some n => exact absurd (sextet_lt h).2 (Nat.not_lt.mpr hge)
    rw [hnone]
    have hleft : ch.toNat ≤ ch.toNat ||| (decodeTable.getD (ch &&& 0x7f).toNat 0).toUInt16.toNat := Nat.left_le_or
    refine iff_of_false ?_ Bool.false_ne_true
    omega

/-- **A letter goes behind the bits that are there.** -/
lemma accumulate_r (a : Accumulator) {ch : UInt16} {n : ℕ} (h : sextet ch = some n) {m : ℕ} (hm : 64 * m ∣ 2 ^ 32) :
    (a.accumulate ch).r.toNat % (64 * m) = a.r.toNat % m * 64 + n := by
  obtain ⟨hn, hch⟩ := sextet_lt h
  show (a.r <<< 6 ||| (decodeTable.getD (ch &&& 0x7f).toNat 0).toUInt32).toNat % (64 * m) = _
  rw [table_of_lt hch, h, UInt32.toNat_or, UInt32.toNat_shiftLeft]
  have hbits : (UInt8.ofNat n).toUInt32.toNat = n := Nat.mod_eq_of_lt (by omega)
  have hshift : a.r.toNat <<< ((6 : UInt32).toNat % 32) % 2 ^ 32 = 2 ^ 6 * (a.r.toNat % 2 ^ 26) := by
    show a.r.toNat <<< 6 % 2 ^ 32 = _
    rw [Nat.shiftLeft_eq]
    omega
  show (_ ||| (UInt8.ofNat n).toUInt32.toNat) % _ = _
  rw [hshift, hbits, ← Nat.two_pow_add_eq_or_of_lt (show n < 2 ^ 6 from hn)]
  have hdvd : m ∣ 2 ^ 26 := Nat.dvd_of_mul_dvd_mul_left (show 0 < 64 by decide) hm
  rw [show 2 ^ 6 * (a.r.toNat % 2 ^ 26) + n = n + 64 * (a.r.toNat % 2 ^ 26) from Nat.add_comm _ _,
    Nat.mod_mul, Nat.add_mul_mod_self_left, Nat.mod_eq_of_lt hn, Nat.add_mul_div_left _ _ (by decide),
    Nat.div_eq_of_lt hn, Nat.zero_add, Nat.mod_mod_of_dvd _ hdvd]
  omega

/-! ### Groups of letters -/

lemma toNat_byteAt (a : Accumulator) {shift : UInt32} (h : shift.toNat < 32) :
    (a.byteAt shift).toNat = a.r.toNat / 2 ^ shift.toNat % 256 := by
  show (a.r >>> shift).toNat % 256 = _
  rw [UInt32.toNat_shiftRight, Nat.mod_eq_of_lt h, Nat.shiftRight_eq_div_pow]

section Letters

variable (x : Accumulator) {p q s t : UInt16} {k l m n : ℕ}

lemma low_one (hp : sextet p = some k) : (x.accumulate p).r.toNat % 64 = k := by
  have h := accumulate_r x hp (m := 1) (by decide)
  omega

lemma low_two (hp : sextet p = some k) (hq : sextet q = some l) :
    ((x.accumulate p).accumulate q).r.toNat % 4096 = k * 64 + l := by
  have h := accumulate_r (x.accumulate p) hq (m := 64) (by decide)
  rwa [low_one x hp] at h

lemma low_three (hp : sextet p = some k) (hq : sextet q = some l) (hs : sextet s = some m) :
    (((x.accumulate p).accumulate q).accumulate s).r.toNat % 262144 = (k * 64 + l) * 64 + m := by
  have h := accumulate_r ((x.accumulate p).accumulate q) hs (m := 4096) (by decide)
  rwa [low_two x hp hq] at h

lemma low_four (hp : sextet p = some k) (hq : sextet q = some l) (hs : sextet s = some m) (ht : sextet t = some n) :
    ((((x.accumulate p).accumulate q).accumulate s).accumulate t).r.toNat % 16777216 =
      ((k * 64 + l) * 64 + m) * 64 + n := by
  have h := accumulate_r (((x.accumulate p).accumulate q).accumulate s) ht (m := 262144) (by decide)
  rwa [low_three x hp hq hs] at h

variable {a b c : UInt8}

lemma bytes_one (hp : sextet p = some (a.toNat / 4)) (hq : sextet q = some (a.toNat % 4 * 16)) :
    lastBytes ((x.accumulate p).accumulate q) 2 = [a] := by
  have hlow := low_two x hp hq
  have ha := a.toNat_lt
  refine congrArg (· :: []) (UInt8.toNat_inj.mp ?_)
  rw [toNat_byteAt _ (by decide)]
  show _ / 2 ^ 4 % 256 = _
  omega

lemma bytes_two (hp : sextet p = some (a.toNat / 4)) (hq : sextet q = some (a.toNat % 4 * 16 + b.toNat / 16))
    (hs : sextet s = some (b.toNat % 16 * 4)) :
    lastBytes (((x.accumulate p).accumulate q).accumulate s) 3 = [a, b] := by
  have hlow := low_three x hp hq hs
  have ha := a.toNat_lt
  have hb := b.toNat_lt
  refine congrArg₂ (fun y z => [y, z]) (UInt8.toNat_inj.mp ?_) (UInt8.toNat_inj.mp ?_)
  · rw [toNat_byteAt _ (by decide)]
    show _ / 2 ^ 10 % 256 = _
    omega
  · rw [toNat_byteAt _ (by decide)]
    show _ / 2 ^ 2 % 256 = _
    omega

lemma bytes_three (hp : sextet p = some (a.toNat / 4)) (hq : sextet q = some (a.toNat % 4 * 16 + b.toNat / 16))
    (hs : sextet s = some (b.toNat % 16 * 4 + c.toNat / 64)) (ht : sextet t = some (c.toNat % 64)) :
    lastBytes ((((x.accumulate p).accumulate q).accumulate s).accumulate t) 4 = [a, b, c] := by
  have hlow := low_four x hp hq hs ht
  have ha := a.toNat_lt
  have hb := b.toNat_lt
  have hc := c.toNat_lt
  refine congrArg₂ (fun y z => y :: z) (UInt8.toNat_inj.mp ?_)
    (congrArg₂ (fun y z => [y, z]) (UInt8.toNat_inj.mp ?_) (UInt8.toNat_inj.mp ?_))
  · rw [toNat_byteAt _ (by decide)]
    show _ / 2 ^ 16 % 256 = _
    omega
  · rw [toNat_byteAt _ (by decide)]
    show _ / 2 ^ 8 % 256 = _
    omega
  · rw [toNat_byteAt _ (by decide)]
    show _ / 2 ^ 0 % 256 = _
    omega

end Letters

/-! ### The loops -/

section Loops

variable {capacity limit : ℕ}

lemma write_of_le {written bytes : List UInt8} (h : written.length + bytes.length ≤ capacity) :
    write capacity written bytes = some (written ++ bytes) := if_pos h

lemma batched_cons {ch0 ch1 ch2 ch3 : UInt16} {rest : List UInt16} (h : limit < rest.length + 4) (written : List UInt8)
    (a : Accumulator) : batched capacity limit (ch0 :: ch1 :: ch2 :: ch3 :: rest) written a =
      (write capacity written
        (lastBytes ((((a.accumulate ch0).accumulate ch1).accumulate ch2).accumulate ch3) 4)).bind fun written =>
          batched capacity limit rest written ((((a.accumulate ch0).accumulate ch1).accumulate ch2).accumulate ch3) :=
  if_pos h

lemma batched_stop {text : List UInt16} (h : text.length ≤ limit) (written : List UInt8) (a : Accumulator) :
    batched capacity limit text written a = some (text, written, a) := by
  match text, h with
  | ch0 :: ch1 :: ch2 :: ch3 :: rest, h => exact if_neg (Nat.not_lt.mpr h)
  | [], h => exact if_neg (Nat.not_lt.mpr h)
  | [_], h => exact if_neg (Nat.not_lt.mpr h)
  | [_, _], h => exact if_neg (Nat.not_lt.mpr h)
  | [_, _, _], h => exact if_neg (Nat.not_lt.mpr h)

/-- What `limit` can be for a text. -/
def Stops (limit : ℕ) (text : List UInt16) : Prop := limit = 5 ∨ text.length ≤ limit ∧ limit ≤ 5

lemma Stops.four {ch0 ch1 ch2 ch3 : UInt16} {rest : List UInt16} (h : Stops limit (ch0 :: ch1 :: ch2 :: ch3 :: rest))
    (hlt : limit < rest.length + 4) : limit = 5 := by
  rcases h with h | h
  · exact h
  · exact absurd h.1 (Nat.not_le.mpr hlt)

/-- What is written and the groups that are still to come fit. -/
def Room (capacity : ℕ) (written : List UInt8) (text : List UInt16) : Prop :=
  written.length + (text.length + 3) / 4 * 3 ≤ capacity

/-- One turn of the batched loop writes its three bytes. -/
lemma batched_four {ch0 ch1 ch2 ch3 : UInt16} {rest : List UInt16} (h : limit < rest.length + 4) {written : List UInt8}
    (hroom : Room capacity written (ch0 :: ch1 :: ch2 :: ch3 :: rest)) (a : Accumulator) : ∃ bytes a',
      a' = (((a.accumulate ch0).accumulate ch1).accumulate ch2).accumulate ch3 ∧ bytes = lastBytes a' 4 ∧
      batched capacity limit (ch0 :: ch1 :: ch2 :: ch3 :: rest) written a =
        batched capacity limit rest (written ++ bytes) a' ∧ Room capacity (written ++ bytes) rest := by
  have hlength : (lastBytes ((((a.accumulate ch0).accumulate ch1).accumulate ch2).accumulate ch3) 4).length = 3 := rfl
  unfold Room at hroom
  have hgroups : (rest.length + 4 + 3) / 4 * 3 = (rest.length + 3) / 4 * 3 + 3 := by omega
  rw [show (ch0 :: ch1 :: ch2 :: ch3 :: rest).length = rest.length + 4 from rfl, hgroups] at hroom
  refine ⟨_, _, rfl, rfl, ?_, ?_⟩
  · rw [batched_cons h, write_of_le (by rw [hlength]; omega), Option.bind_some]
  · show _ ≤ _
    rw [List.length_append, hlength]
    omega

lemma error_four (a : Accumulator) (ch0 ch1 ch2 ch3 : UInt16) :
    ((((a.accumulate ch0).accumulate ch1).accumulate ch2).accumulate ch3).error = 0 ↔
      a.error = 0 ∧ ∀ ch ∈ [ch0, ch1, ch2, ch3], (sextet ch).isSome := by
  rw [accumulate_error, accumulate_error, accumulate_error, accumulate_error]
  simp only [List.forall_mem_cons, List.not_mem_nil, false_imp_iff, implies_true, and_true, and_assoc]

/-- **The batched loop** reads groups of four, and at most five letters are left. -/
lemma batched_spec (text : List UInt16) (written : List UInt8) (a : Accumulator) (hlimit : Stops limit text)
    (hroom : Room capacity written text) : ∃ front rest written' a', text = front ++ rest ∧
      batched capacity limit text written a = some (rest, written', a') ∧ rest.length ≤ 5 ∧ front.length % 4 = 0 ∧
      (a'.error = 0 ↔ a.error = 0 ∧ ∀ ch ∈ front, (sextet ch).isSome) ∧ Room capacity written' rest := by
  have hfive : limit ≤ 5 := by
    rcases hlimit with h | h
    · exact Nat.le_of_eq h
    · exact h.2
  have hstop : text.length ≤ limit → ∃ front rest written' a', text = front ++ rest ∧
      batched capacity limit text written a = some (rest, written', a') ∧ rest.length ≤ 5 ∧ front.length % 4 = 0 ∧
      (a'.error = 0 ↔ a.error = 0 ∧ ∀ ch ∈ front, (sextet ch).isSome) ∧ Room capacity written' rest := by
    intro h
    refine ⟨[], text, written, a, rfl, batched_stop h written a, Nat.le_trans h hfive, rfl, ?_, hroom⟩
    exact (and_iff_left fun ch hch => absurd hch List.not_mem_nil).symm
  match text with
  | ch0 :: ch1 :: ch2 :: ch3 :: rest =>
    by_cases hlt : limit < rest.length + 4
    · obtain ⟨bytes, a₁, ha₁, -, hstep, hroom₁⟩ := batched_four hlt hroom a
      obtain ⟨front, rest', written', a', rfl, hloop, hle, hfour, herror, hroom'⟩ :=
        batched_spec rest (written ++ bytes) a₁ (.inl (hlimit.four hlt)) hroom₁
      refine ⟨ch0 :: ch1 :: ch2 :: ch3 :: front, rest', written', a', rfl, hstep.trans hloop, hle, ?_, ?_, hroom'⟩
      · show (front.length + 4) % 4 = 0
        omega
      · rw [herror, ha₁, error_four, and_assoc]
        simp only [List.forall_mem_cons, List.not_mem_nil, false_imp_iff, implies_true, and_true, and_assoc]
    · exact hstop (Nat.not_lt.mp hlt)
  | [] => exact hstop (Nat.zero_le _)
  | [_] => exact hstop (by rcases hlimit with h | h <;> simp_all)
  | [_, _] => exact hstop (by rcases hlimit with h | h <;> simp_all)
  | [_, _, _] => exact hstop (by rcases hlimit with h | h <;> simp_all)

/-- An encoding stays one when the batched loop has read its first groups. -/
lemma batched_encodes {bytes : List UInt8} {text : List UInt16} (h : Encodes bytes text) (written : List UInt8)
    (a : Accumulator) (hlimit : Stops limit text) (hroom : Room capacity written text) (herror : a.error = 0) :
    ∃ rest written' a' bytes', batched capacity limit text written a = some (rest, written', a') ∧ a'.error = 0 ∧
      Encodes bytes' rest ∧ rest.length ≤ 5 ∧ written' ++ bytes' = written ++ bytes ∧ Room capacity written' rest := by
  have hstop : text.length ≤ limit → limit ≤ 5 → ∃ rest written' a' bytes',
      batched capacity limit text written a = some (rest, written', a') ∧ a'.error = 0 ∧
      Encodes bytes' rest ∧ rest.length ≤ 5 ∧ written' ++ bytes' = written ++ bytes ∧ Room capacity written' rest :=
    fun hle hfive => ⟨text, written, a, bytes, batched_stop hle written a, herror, h, Nat.le_trans hle hfive, rfl, hroom⟩
  induction h generalizing written a with
  | nil => exact hstop (Nat.zero_le _) (by rcases hlimit with h | h <;> omega)
  | one hp hq hpadding | two hp hq hs hpadding =>
    refine hstop ?_ (by rcases hlimit with h | h <;> omega)
    rcases hpadding with rfl | rfl <;> rcases hlimit with h | h <;> simp_all
  | @three b₁ b₂ b₃ p q s t bytes text hp hq hs ht hrest ih =>
    by_cases hlt : limit < text.length + 4
    · obtain ⟨group, a₁, ha₁, hgroup, hstep, hroom₁⟩ := batched_four hlt hroom a
      have herror₁ : a₁.error = 0 := by
        rw [ha₁, error_four]
        refine ⟨herror, ?_⟩
        simp [hp, hq, hs, ht]
      have hstops : Stops limit text := .inl (hlimit.four hlt)
      obtain ⟨rest, written', a', bytes', hloop, herror', hencodes, hle, hbytes, hroom'⟩ :=
        ih (written ++ group) a₁ hstops hroom₁ herror₁ fun hle hfive =>
          ⟨text, written ++ group, a₁, bytes, batched_stop hle _ a₁, herror₁, hrest, Nat.le_trans hle hfive, rfl, hroom₁⟩
      refine ⟨rest, written', a', bytes', hstep.trans hloop, herror', hencodes, hle, ?_, hroom'⟩
      rw [hbytes, hgroup, ha₁, bytes_three a hp hq hs ht]
      simp
    · exact hstop (Nat.not_lt.mp hlt) (by rcases hlimit with h | h <;> omega)

lemma tail_spec (text : List UInt16) (a : Accumulator) (ri : ℕ) :
    ((tail text a ri).1.error = 0 ↔ a.error = 0 ∧ ∀ ch ∈ text, ch ≠ 0x3d → (sextet ch).isSome) ∧
      (tail text a ri).2 = ri + text.countP (· != 0x3d) := by
  induction text generalizing a ri with
  | nil => exact ⟨(and_iff_left fun ch hch => absurd hch List.not_mem_nil).symm, rfl⟩
  | cons ch text ih =>
    unfold tail
    by_cases hpad : ch = 0x3d
    · obtain ⟨herror, hcount⟩ := ih a ri
      rw [if_neg (by simp [hpad])]
      refine ⟨herror.trans ?_, hcount.trans ?_⟩
      · rw [List.forall_mem_cons, hpad, and_iff_right (fun h => absurd rfl h)]
      · rw [List.countP_cons_of_neg (by simp [hpad])]
    · obtain ⟨herror, hcount⟩ := ih (a.accumulate ch) (ri + 1)
      rw [if_pos (by simp [hpad])]
      refine ⟨herror.trans ?_, hcount.trans ?_⟩
      · rw [accumulate_error, List.forall_mem_cons, and_assoc]
        exact and_congr_right fun _ => and_congr_left fun _ => ⟨fun h _ => h, fun h => h hpad⟩
      · rw [List.countP_cons_of_pos (by simp [hpad])]
        omega

lemma length_lastBytes (a : Accumulator) (ri : ℕ) : (lastBytes a ri).length ≤ 3 ∧ (ri = 0 → lastBytes a ri = []) := by
  unfold lastBytes
  split <;> simp

lemma write_last {written : List UInt8} {rest : List UInt16} (hroom : Room capacity written rest) (a : Accumulator) {ri : ℕ}
    (hri : ri ≤ rest.length) : write capacity written (lastBytes a ri) = some (written ++ lastBytes a ri) := by
  obtain ⟨hthree, hzero⟩ := length_lastBytes a ri
  unfold Room at hroom
  apply write_of_le
  rcases Nat.eq_zero_or_pos ri with h | h
  · rw [hzero h, List.length_nil]
    omega
  · omega

lemma lastError_eq_zero {error : UInt16} {ri : ℕ} (hri : ri ≤ 5) (h : lastError error ri = 0) :
    error = 0 ∧ ri % 4 ≠ 1 := by
  interval_cases ri
  · exact ⟨((or_eq_zero_iff _ _).mp h).1, by decide⟩
  · exact absurd ((or_eq_zero_iff _ _).mp h).2 (by decide)
  · exact ⟨h, by decide⟩
  · exact ⟨h, by decide⟩
  · exact ⟨h, by decide⟩
  · exact absurd ((or_eq_zero_iff _ _).mp h).2 (by decide)

lemma tail_letter {ch : UInt16} {n : ℕ} (h : sextet ch = some n) (rest : List UInt16) (a : Accumulator) (ri : ℕ) :
    tail (ch :: rest) a ri = tail rest (a.accumulate ch) (ri + 1) := by
  refine if_pos ?_
  rw [bne_iff_ne]
  rintro rfl
  rw [sextet_pad] at h
  cases h

/-- What the last letters of an encoding give. -/
lemma tail_encodes {bytes : List UInt8} {rest : List UInt16} (h : Encodes bytes rest) (hle : rest.length ≤ 5)
    {a : Accumulator} (herror : a.error = 0) : ∃ a' ri, tail rest a 0 = (a', ri) ∧ ri ≤ rest.length ∧
      lastBytes a' ri = bytes ∧ lastError a'.error ri = 0 := by
  cases h with
  | nil => exact ⟨a, 0, rfl, Nat.le_refl _, rfl, (or_eq_zero_iff _ _).mpr ⟨herror, rfl⟩⟩
  | @one b p q padding hp hq hpadding =>
    have htail : tail (p :: q :: padding) a 0 = ((a.accumulate p).accumulate q, 2) := by
      rw [tail_letter hp, tail_letter hq]
      rcases hpadding with rfl | rfl <;> rfl
    refine ⟨_, 2, htail, Nat.le_add_left _ _, bytes_one a hp hq, ?_⟩
    show ((a.accumulate p).accumulate q).error = 0
    rw [accumulate_error, accumulate_error, hp, hq]
    exact ⟨⟨herror, rfl⟩, rfl⟩
  | @two b c p q s padding hp hq hs hpadding =>
    have htail : tail (p :: q :: s :: padding) a 0 = (((a.accumulate p).accumulate q).accumulate s, 3) := by
      rw [tail_letter hp, tail_letter hq, tail_letter hs]
      rcases hpadding with rfl | rfl <;> rfl
    refine ⟨_, 3, htail, Nat.le_add_left _ _, bytes_two a hp hq hs, ?_⟩
    show (((a.accumulate p).accumulate q).accumulate s).error = 0
    rw [accumulate_error, accumulate_error, accumulate_error, hp, hq, hs]
    exact ⟨⟨⟨herror, rfl⟩, rfl⟩, rfl⟩
  | @three b c d p q s t bytes text hp hq hs ht hrest =>
    have hshort : text.length ≤ 1 := by
      simp only [List.length_cons] at hle
      omega
    cases hrest with
    | nil =>
      have htail : tail [p, q, s, t] a 0 = ((((a.accumulate p).accumulate q).accumulate s).accumulate t, 4) := by
        rw [tail_letter hp, tail_letter hq, tail_letter hs, tail_letter ht]
        rfl
      refine ⟨_, 4, htail, Nat.le_refl _, bytes_three a hp hq hs ht, ?_⟩
      show ((((a.accumulate p).accumulate q).accumulate s).accumulate t).error = 0
      rw [error_four]
      refine ⟨herror, ?_⟩
      simp [hp, hq, hs, ht]
    | one | two | three => exact absurd hshort (by simp)

end Loops

/-! ### The whole text -/

lemma stops_min (src : List UInt16) : Stops (min 5 src.length) src := by
  unfold Stops
  omega

lemma room_start (src : List UInt16) : Room ((src.length + 3) / 4 * 3) [] src :=
  Nat.le_of_eq (Nat.zero_add _)

/-- **An encoding is decoded.** -/
lemma decodeBytes_encodes {bytes : List UInt8} {src : List UInt16} (h : Encodes bytes src) :
    decodeBytes src = some (some bytes) := by
  obtain ⟨rest, written, a, bytes', hloop, herror, hencodes, hle, hbytes, hroom⟩ :=
    batched_encodes h [] {} (stops_min src) (room_start src) rfl
  obtain ⟨a', ri, htail, hri, hlast, hlastError⟩ := tail_encodes hencodes hle herror
  unfold decodeBytes
  dsimp only
  rw [hloop, Option.bind_some]
  dsimp only
  rw [htail]
  dsimp only
  rw [write_last hroom a' hri, Option.map_some, hlastError, hlast, hbytes]
  rfl

/-- A letter of one of the alphabets. -/
def isLetter (ch : UInt16) : Bool := (sextet ch).isSome

/-- The letters of a text without other units but the padding. -/
lemma countP_isLetter {text : List UInt16} (h : ∀ ch ∈ text, ch ≠ 0x3d → (sextet ch).isSome) :
    text.countP isLetter = text.countP (· != 0x3d) := by
  apply List.countP_congr
  intro ch hch
  rw [bne_iff_ne]
  refine ⟨?_, h ch hch⟩
  rintro hletter rfl
  cases hletter

/-- **No text leaves the buffers**, and what is decoded has only letters and padding, and not one letter too many. -/
lemma decodeBytes_total (src : List UInt16) : ∃ result, decodeBytes src = some result ∧
    (result ≠ none → (∀ ch ∈ src, isLetter ch = true ∨ ch = 0x3d) ∧ src.countP isLetter % 4 ≠ 1) := by
  obtain ⟨front, rest, written, a, hsrc, hloop, hle, hfour, herror, hroom⟩ :=
    batched_spec src [] {} (stops_min src) (room_start src)
  obtain ⟨htailError, hri⟩ := tail_spec rest a 0
  have hcount : rest.countP (· != 0x3d) ≤ rest.length := List.countP_le_length
  have hri' : (tail rest a 0).2 ≤ rest.length := by omega
  have hwrite := write_last hroom (tail rest a 0).1 hri'
  unfold decodeBytes
  dsimp only
  rw [hloop, Option.bind_some]
  dsimp only
  rw [hwrite, Option.map_some]
  refine ⟨_, rfl, ?_⟩
  intro hsome
  have hzero : lastError (tail rest a 0).1.error (tail rest a 0).2 = 0 := by
    by_contra hne
    exact hsome (if_pos (bne_iff_ne.mpr hne))
  obtain ⟨hlast, hne⟩ := lastError_eq_zero (by omega) hzero
  obtain ⟨ha, hrest⟩ := htailError.mp hlast
  obtain ⟨-, hfront⟩ := herror.mp ha
  constructor
  · intro ch hch
    rw [hsrc] at hch
    rcases List.mem_append.mp hch with h | h
    · exact .inl (hfront ch h)
    · by_cases hpad : ch = 0x3d
      · exact .inr hpad
      · exact .inl (hrest ch h hpad)
  · have hfrontCount : front.countP isLetter = front.length := List.countP_eq_length.mpr hfront
    rw [hsrc, List.countP_append, hfrontCount, countP_isLetter hrest]
    omega

section Decode

variable (u8u16 : List UInt8 → List UInt16 → ℕ × List UInt16)

/-- **`Decode` is exact.**  Every encoding is passed on as its bytes, every text with another unit or with one letter
too many is refused, and no text leaves the buffers. -/
theorem decode_exact (src dst : List UInt16) :
    (∀ bytes, Encodes bytes src → decode u8u16 src dst = some (u8u16 bytes dst)) ∧
    ((∃ ch ∈ src, isLetter ch = false ∧ ch ≠ 0x3d) ∨ src.countP isLetter % 4 = 1 →
      decode u8u16 src dst = some (invalidData, dst)) ∧
    decode u8u16 src dst ≠ none := by
  obtain ⟨result, hresult, hgood⟩ := decodeBytes_total src
  refine ⟨?_, ?_, ?_⟩
  · intro bytes h
    unfold decode
    rw [decodeBytes_encodes h]
    rfl
  · intro hbad
    have hnone : result = none := by
      by_contra hne
      obtain ⟨hall, hcount⟩ := hgood hne
      rcases hbad with ⟨ch, hch, hletter, hpad⟩ | hone
      · rcases hall ch hch with h | h
        · rw [h] at hletter
          cases hletter
        · exact hpad h
      · exact hcount hone
    unfold decode
    rw [hresult, hnone]
    rfl
  · unfold decode
    rw [hresult]
    exact Option.some_ne_none _

end Decode

/-- `til::u8u16` for ASCII bytes. -/
def asciiToU16 (bytes : List UInt8) (_ : List UInt16) : ℕ × List UInt16 := (0, bytes.map (·.toUInt16))

/-- `TWE=` is `Ma`, `T` has a letter too many, and `T!==` has a unit of no alphabet. -/
theorem decode_exact_Ma : decode asciiToU16 [0x54, 0x57, 0x45, 0x3d] [0x61] = some (0, [0x4d, 0x61]) ∧
    decode asciiToU16 [0x54] [0x61] = some (invalidData, [0x61]) ∧
    decode asciiToU16 [0x54, 0x21, 0x3d, 0x3d] [0x61] = some (invalidData, [0x61]) := by
  refine ⟨?_, ?_, ?_⟩
  · exact (decode_exact asciiToU16 _ _).1 [0x4d, 0x61] (.two rfl rfl rfl (.inr rfl))
  · exact (decode_exact asciiToU16 _ _).2.1 (.inr rfl)
  · exact (decode_exact asciiToU16 _ _).2.1 (.inl ⟨0x21, by decide, rfl, by decide⟩)

end VT7.Parser.Base64
