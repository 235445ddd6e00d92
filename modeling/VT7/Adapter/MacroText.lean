import VT7.Adapter.MacroBuffer

/-!
# What a definition means

The text of a hex definition is a sequence of hex pairs and of groups `!n;pairs;`.  `Denotes` is its grammar;
`expand` reads a text from left to right and finds what it denotes.
-/

namespace VT7.Adapter

/-- The value of a hex digit. -/
def hexDigit (ch : UInt16) : Option UInt16 :=
  if 48 ≤ ch ∧ ch ≤ 57 then some (ch - 48)
  else if 65 ≤ ch ∧ ch ≤ 70 then some (ch - 65 + 10)
  else if 97 ≤ ch ∧ ch ≤ 102 then some (ch - 97 + 10)
  else none

/-- The character of two hex digits. -/
def hexPair (high low : UInt16) : UInt16 := high <<< 4 + low

def IsDecimal (ch : UInt16) : Prop := 48 ≤ ch ∧ ch ≤ 57

instance (ch : UInt16) : Decidable (IsDecimal ch) := inferInstanceAs (Decidable (_ ∧ _))

/-- The number that decimal digits stand for, behind a number. -/
def decimal (n : ℕ) (digits : List UInt16) : ℕ := digits.foldl (fun n ch => n * 10 + (ch - 48).toNat) n

/-- A group of a repeat count: at least once, and not more often than the largest parameter. -/
def repeated (count : ℕ) (sequence : List UInt16) : List UInt16 :=
  (List.replicate (max 1 (min count maxParameterValue)) sequence).flatten

/-- Hex pairs and the characters they stand for. -/
inductive Pairs : List UInt16 → List UInt16 → Prop
  | nil : Pairs [] []
  | cons {high low h l : UInt16} {text out : List UInt16} (hhigh : hexDigit high = some h)
      (hlow : hexDigit low = some l) (hrest : Pairs text out) :
      Pairs (high :: low :: text) (hexPair h l :: out)

/-- A digit without a second one. -/
def Unpaired (text : List UInt16) : Prop := text = [] ∨ ∃ ch, text = [ch] ∧ (hexDigit ch).isSome

/-- The text of a hex definition and the macro it stands for. -/
inductive Denotes : List UInt16 → List UInt16 → Prop
  | pair {high low h l : UInt16} {text out : List UInt16} (hhigh : hexDigit high = some h)
      (hlow : hexDigit low = some l) (hrest : Denotes text out) :
      Denotes (high :: low :: text) (hexPair h l :: out)
  | group {digits body sequence text out : List UInt16} (hdigits : ∀ ch ∈ digits, IsDecimal ch)
      (hbody : Pairs body sequence) (hrest : Denotes text out) :
      Denotes (33 :: (digits ++ 59 :: (body ++ 59 :: text))) (repeated (decimal 0 digits) sequence ++ out)
  | openGroup {digits body sequence last : List UInt16} (hdigits : ∀ ch ∈ digits, IsDecimal ch)
      (hbody : Pairs body sequence) (hlast : Unpaired last) :
      Denotes (33 :: (digits ++ 59 :: (body ++ last))) (repeated (decimal 0 digits) sequence)
  | openHeader {digits : List UInt16} (hdigits : ∀ ch ∈ digits, IsDecimal ch) : Denotes (33 :: digits) []
  | last {text : List UInt16} (hlast : Unpaired text) : Denotes text []

/-- Where in a hex definition a character stands. -/
inductive Part where
  | outside
  | second (high : UInt16)
  | header (count : ℕ)
  | inside (count : ℕ) (sequence : List UInt16)
  | insideSecond (count : ℕ) (sequence : List UInt16) (high : UInt16)

/-- What a text adds to the macro from a part of the definition on. -/
def expand : Part → List UInt16 → Option (List UInt16)
  | .inside count sequence, [] => some (repeated count sequence)
  | .insideSecond count sequence _, [] => some (repeated count sequence)
  | _, [] => some []
  | .outside, ch :: rest =>
    match hexDigit ch with
    | some high => expand (.second high) rest
    | none => if ch = 33 then expand (.header 0) rest else none
  | .second high, ch :: rest =>
    match hexDigit ch with
    | some low => (expand .outside rest).map (hexPair high low :: ·)
    | none => none
  | .header count, ch :: rest =>
    if IsDecimal ch then expand (.header (min (count * 10 + (ch - 48).toNat) maxParameterValue)) rest
    else if ch = 59 then expand (.inside count []) rest
    else none
  | .inside count sequence, ch :: rest =>
    match hexDigit ch with
    | some high => expand (.insideSecond count sequence high) rest
    | none => if ch = 59 then (expand .outside rest).map (repeated count sequence ++ ·) else none
  | .insideSecond count sequence high, ch :: rest =>
    match hexDigit ch with
    | some low => expand (.inside count (sequence ++ [hexPair high low])) rest
    | none => none

/-! ### Small facts -/

lemma hexDigit_bang : hexDigit 33 = none := by decide

lemma hexDigit_semicolon : hexDigit 59 = none := by decide

lemma not_isDecimal_semicolon : ¬ IsDecimal 59 := by decide

lemma decimal_cons (n : ℕ) (ch : UInt16) (digits : List UInt16) :
    decimal n (ch :: digits) = decimal (n * 10 + (ch - 48).toNat) digits := rfl

/-- Capping after every digit is capping once. -/
lemma min_decimal (n : ℕ) (digits : List UInt16) :
    min (decimal (min n maxParameterValue) digits) maxParameterValue = min (decimal n digits) maxParameterValue := by
  induction digits generalizing n with
  | nil => exact (Nat.min_assoc _ _ _).trans (congrArg _ (Nat.min_self _))
  | cons ch digits ih =>
    rw [decimal_cons, decimal_cons, ← ih (n * 10 + (ch - 48).toNat)]
    rw [← ih (min n maxParameterValue * 10 + (ch - 48).toNat)]
    have hcap : min (min n maxParameterValue * 10 + (ch - 48).toNat) maxParameterValue =
        min (n * 10 + (ch - 48).toNat) maxParameterValue := by omega
    rw [hcap]

lemma repeated_min (count : ℕ) (sequence : List UInt16) :
    repeated (min count maxParameterValue) sequence = repeated count sequence := by
  unfold repeated
  rw [Nat.min_assoc, Nat.min_self]

lemma repeated_congr {n m : ℕ} (h : min n maxParameterValue = min m maxParameterValue) (sequence : List UInt16) :
    repeated n sequence = repeated m sequence := by
  rw [← repeated_min n, h, repeated_min]

lemma length_repeated (count : ℕ) (sequence : List UInt16) :
    (repeated count sequence).length = max 1 (min count maxParameterValue) * sequence.length := by
  simp [repeated]

lemma le_length_repeated (count : ℕ) (sequence : List UInt16) :
    sequence.length ≤ (repeated count sequence).length := by
  rw [length_repeated]
  exact Nat.le_mul_of_pos_left _ (Nat.lt_of_lt_of_le Nat.one_pos (Nat.le_max_left _ _))

/-! ### The reader finds what the grammar says -/

lemma expand_outside (ch : UInt16) (rest : List UInt16) : expand .outside (ch :: rest) =
    match hexDigit ch with
    | some high => expand (.second high) rest
    | none => if ch = 33 then expand (.header 0) rest else none := rfl

lemma expand_second (high ch : UInt16) (rest : List UInt16) : expand (.second high) (ch :: rest) =
    match hexDigit ch with
    | some low => (expand .outside rest).map (hexPair high low :: ·)
    | none => none := rfl

lemma expand_header_cons (count : ℕ) (ch : UInt16) (rest : List UInt16) : expand (.header count) (ch :: rest) =
    if IsDecimal ch then expand (.header (min (count * 10 + (ch - 48).toNat) maxParameterValue)) rest
    else if ch = 59 then expand (.inside count []) rest
    else none := rfl

lemma expand_inside_cons (count : ℕ) (sequence : List UInt16) (ch : UInt16) (rest : List UInt16) :
    expand (.inside count sequence) (ch :: rest) =
      match hexDigit ch with
      | some high => expand (.insideSecond count sequence high) rest
      | none => if ch = 59 then (expand .outside rest).map (repeated count sequence ++ ·) else none := rfl

lemma expand_insideSecond (count : ℕ) (sequence : List UInt16) (high ch : UInt16) (rest : List UInt16) :
    expand (.insideSecond count sequence high) (ch :: rest) =
      match hexDigit ch with
      | some low => expand (.inside count (sequence ++ [hexPair high low])) rest
      | none => none := rfl

lemma expand_header (digits rest : List UInt16) (hdigits : ∀ ch ∈ digits, IsDecimal ch) (n : ℕ) :
    ∃ m, min m maxParameterValue = min (decimal n digits) maxParameterValue ∧
      expand (.header n) (digits ++ rest) = expand (.header m) rest := by
  induction digits generalizing n with
  | nil => exact ⟨n, rfl, rfl⟩
  | cons ch digits ih =>
    obtain ⟨m, hm, heq⟩ := ih (fun c hc => hdigits c (List.mem_cons_of_mem _ hc))
      (min (n * 10 + (ch - 48).toNat) maxParameterValue)
    refine ⟨m, ?_, ?_⟩
    · rw [hm, min_decimal, decimal_cons]
    · rw [List.cons_append, expand_header_cons, if_pos (hdigits ch List.mem_cons_self), heq]

lemma expand_inside {body sequence : List UInt16} (hbody : Pairs body sequence) (count : ℕ)
    (before rest : List UInt16) :
    expand (.inside count before) (body ++ rest) = expand (.inside count (before ++ sequence)) rest := by
  induction hbody generalizing before with
  | nil => rw [List.append_nil, List.nil_append]
  | cons hhigh hlow hrest ih =>
    rw [List.cons_append, List.cons_append, expand_inside_cons, hhigh]
    dsimp only
    rw [expand_insideSecond, hlow]
    dsimp only
    rw [ih, List.append_assoc, List.singleton_append]

lemma expand_semicolon (count : ℕ) (rest : List UInt16) :
    expand (.header count) (59 :: rest) = expand (.inside count []) rest := by
  rw [expand_header_cons, if_neg not_isDecimal_semicolon, if_pos rfl]

lemma expand_bang (rest : List UInt16) : expand .outside (33 :: rest) = expand (.header 0) rest := by
  rw [expand_outside, hexDigit_bang]
  rfl

lemma expand_group {digits body sequence : List UInt16} (hdigits : ∀ ch ∈ digits, IsDecimal ch)
    (hbody : Pairs body sequence) (rest : List UInt16) :
    ∃ m, min m maxParameterValue = min (decimal 0 digits) maxParameterValue ∧
      expand .outside (33 :: (digits ++ 59 :: (body ++ rest))) = expand (.inside m sequence) rest := by
  obtain ⟨m, hm, heq⟩ := expand_header digits (59 :: (body ++ rest)) hdigits 0
  exact ⟨m, hm, by rw [expand_bang, heq, expand_semicolon, expand_inside hbody, List.nil_append]⟩

theorem expand_of_denotes {text out : List UInt16} (h : Denotes text out) : expand .outside text = some out := by
  induction h with
  | pair hhigh hlow hrest ih =>
    rw [expand_outside, hhigh]
    dsimp only
    rw [expand_second, hlow]
    dsimp only
    rw [ih]
    rfl
  | @group digits body sequence text out hdigits hbody hrest ih =>
    obtain ⟨m, hm, heq⟩ := expand_group hdigits hbody (59 :: text)
    rw [heq, expand_inside_cons, hexDigit_semicolon]
    dsimp only
    rw [if_pos rfl, ih, repeated_congr hm]
    rfl
  | @openGroup digits body sequence last hdigits hbody hlast =>
    obtain ⟨m, hm, heq⟩ := expand_group hdigits hbody last
    rw [heq, ← repeated_congr hm]
    rcases hlast with rfl | ⟨ch, rfl, hch⟩
    · rfl
    · obtain ⟨h, hh⟩ := Option.isSome_iff_exists.mp hch
      rw [expand_inside_cons, hh]
      rfl
  | @openHeader digits hdigits =>
    obtain ⟨m, -, heq⟩ := expand_header digits [] hdigits 0
    rw [List.append_nil] at heq
    rw [expand_bang, heq]
    rfl
  | last hlast =>
    rcases hlast with rfl | ⟨ch, rfl, hch⟩
    · rfl
    · obtain ⟨h, hh⟩ := Option.isSome_iff_exists.mp hch
      rw [expand_outside, hh]
      rfl

/-- The characters that led to a part of the definition. -/
inductive Pending : Part → List UInt16 → Prop
  | outside : Pending .outside []
  | second {ch high : UInt16} (hhigh : hexDigit ch = some high) : Pending (.second high) [ch]
  | header {digits : List UInt16} {count : ℕ} (hdigits : ∀ ch ∈ digits, IsDecimal ch)
      (hcount : min count maxParameterValue = min (decimal 0 digits) maxParameterValue) :
      Pending (.header count) (33 :: digits)
  | inside {digits body sequence : List UInt16} {count : ℕ} (hdigits : ∀ ch ∈ digits, IsDecimal ch)
      (hcount : min count maxParameterValue = min (decimal 0 digits) maxParameterValue)
      (hbody : Pairs body sequence) : Pending (.inside count sequence) (33 :: (digits ++ 59 :: body))
  | insideSecond {digits body sequence : List UInt16} {count : ℕ} {ch high : UInt16}
      (hdigits : ∀ ch ∈ digits, IsDecimal ch)
      (hcount : min count maxParameterValue = min (decimal 0 digits) maxParameterValue)
      (hbody : Pairs body sequence) (hhigh : hexDigit ch = some high) :
      Pending (.insideSecond count sequence high) (33 :: (digits ++ 59 :: (body ++ [ch])))

lemma Pairs.snoc {body sequence : List UInt16} (hbody : Pairs body sequence) {high low h l : UInt16}
    (hhigh : hexDigit high = some h) (hlow : hexDigit low = some l) :
    Pairs (body ++ [high, low]) (sequence ++ [hexPair h l]) := by
  induction hbody with
  | nil => exact .cons hhigh hlow .nil
  | cons hhigh' hlow' hrest ih => exact .cons hhigh' hlow' ih

lemma decimal_snoc (n : ℕ) (digits : List UInt16) (ch : UInt16) :
    decimal n (digits ++ [ch]) = decimal n digits * 10 + (ch - 48).toNat := by
  simp [decimal]

/-- What the reader finds from a part on, the grammar gives to the pending characters and the rest. -/
theorem denotes_of_expand {part : Part} {before rest out : List UInt16} (hbefore : Pending part before)
    (h : expand part rest = some out) : Denotes (before ++ rest) out := by
  induction rest generalizing part before out with
  | nil =>
    rw [List.append_nil]
    cases hbefore with
    | outside =>
      cases h
      exact .last (.inl rfl)
    | second hhigh =>
      cases h
      exact .last (.inr ⟨_, rfl, by rw [hhigh]; rfl⟩)
    | header hdigits hcount =>
      cases h
      exact .openHeader hdigits
    | inside hdigits hcount hbody =>
      cases h
      have hgroup := Denotes.openGroup hdigits hbody (.inl rfl)
      rwa [List.append_nil, ← repeated_congr hcount] at hgroup
    | insideSecond hdigits hcount hbody hhigh =>
      cases h
      have hgroup := Denotes.openGroup hdigits hbody (.inr ⟨_, rfl, by rw [hhigh]; rfl⟩)
      rwa [← repeated_congr hcount] at hgroup
  | cons ch rest ih =>
    cases hbefore with
    | outside =>
      rw [expand_outside] at h
      split at h
      · next high hhigh => exact ih (.second hhigh) h
      · split at h
        · next hbang =>
          subst hbang
          have hheader : Pending (.header 0) (33 :: []) := .header (fun _ hc => nomatch hc) rfl
          exact ih hheader h
        · cases h
    | @second first high hhigh =>
      rw [expand_second] at h
      split at h
      · next low hlow =>
        obtain ⟨out', hout, rfl⟩ := Option.map_eq_some_iff.mp h
        exact .pair hhigh hlow (ih .outside hout)
      · cases h
    | @header digits count hdigits hcount =>
      rw [expand_header_cons] at h
      split at h
      · next hdecimal =>
        have hnext := ih (@Pending.header (digits ++ [ch]) _ ?_ ?_) h
        · simpa using hnext
        · intro c hc
          rcases List.mem_append.mp hc with hc | hc
          · exact hdigits c hc
          · rwa [List.mem_singleton.mp hc]
        · rw [decimal_snoc]
          omega
      · split at h
        · next hsemicolon =>
          subst hsemicolon
          have hnext := ih (.inside hdigits hcount .nil) h
          simpa using hnext
        · cases h
    | @inside digits body sequence count hdigits hcount hbody =>
      rw [expand_inside_cons] at h
      split at h
      · next high hhigh =>
        have hnext := ih (.insideSecond hdigits hcount hbody hhigh) h
        simpa using hnext
      · split at h
        · next hsemicolon =>
          subst hsemicolon
          obtain ⟨out', hout, rfl⟩ := Option.map_eq_some_iff.mp h
          have hgroup := Denotes.group hdigits hbody (ih .outside hout)
          rw [← repeated_congr hcount] at hgroup
          simpa using hgroup
        · cases h
    | @insideSecond digits body sequence count first high hdigits hcount hbody hhigh =>
      rw [expand_insideSecond] at h
      split at h
      · next low hlow =>
        have hnext := ih (.inside hdigits hcount (hbody.snoc hhigh hlow)) h
        simpa using hnext
      · cases h

theorem denotes_iff (text out : List UInt16) : Denotes text out ↔ expand .outside text = some out :=
  ⟨expand_of_denotes, denotes_of_expand .outside⟩

/-- What a text adds is at least as long as the sequence already read. -/
lemma length_le_of_expand_inside {count : ℕ} {sequence rest out : List UInt16} :
    (expand (.inside count sequence) rest = some out → sequence.length ≤ out.length) ∧
      ∀ high, expand (.insideSecond count sequence high) rest = some out → sequence.length ≤ out.length := by
  induction rest generalizing sequence with
  | nil =>
    refine ⟨fun h => ?_, fun high h => ?_⟩
    · cases h
      exact le_length_repeated _ _
    · cases h
      exact le_length_repeated _ _
  | cons ch rest ih =>
    refine ⟨fun h => ?_, fun high h => ?_⟩
    · rw [expand_inside_cons] at h
      split at h
      · exact ih.2 _ h
      · split at h
        · obtain ⟨out', -, rfl⟩ := Option.map_eq_some_iff.mp h
          have := le_length_repeated count sequence
          rw [List.length_append]
          omega
        · cases h
    · rw [expand_insideSecond] at h
      split at h
      · have hlength := ih.1 h
        rw [List.length_append, List.length_singleton] at hlength
        omega
      · cases h

end VT7.Adapter
