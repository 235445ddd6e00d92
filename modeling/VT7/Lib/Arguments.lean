import Mathlib.Data.List.Basic

/-!
# Splitting a command line into arguments

The rules of the Microsoft C runtime, over any alphabet: a run of backslashes in front of a quote stands for
half as many, and the quote is a character of the argument if one is left over; elsewhere backslashes are
ordinary.  A quote that is no character switches the separators off or on.
-/

namespace VT7.Lib.Arguments

/-- The characters with a meaning of their own. -/
structure Rules (α : Type) where
  slash : α
  quote : α
  separates : α → Bool
  slash_ne_quote : slash ≠ quote
  slash_plain : separates slash = false
  quote_plain : separates quote = false

variable {α : Type} (R : Rules α)

/-- An argument with the backslashes in front of what comes next, if one has begun. -/
def flush (slashes : ℕ) (current : Option (List α)) : Option (List α) :=
  if slashes = 0 then current else some (current.getD [] ++ List.replicate slashes R.slash)

lemma flush_getD (slashes : ℕ) (current : Option (List α)) :
    (flush R slashes current).getD [] = current.getD [] ++ List.replicate slashes R.slash := by
  unfold flush
  split
  next h => rw [h, List.replicate_zero, List.append_nil]
  next => rfl

variable [DecidableEq α]

/-- The arguments from here on; `current` is the argument that has begun, and `slashes` are the backslashes
behind it. -/
def splitFrom (quoted : Bool) (slashes : ℕ) (current : Option (List α)) : List α → List (List α)
  | [] => (flush R slashes current).toList
  | c :: rest =>
    if c = R.slash then splitFrom quoted (slashes + 1) current rest
    else if c = R.quote then
      let text := current.getD [] ++ List.replicate (slashes / 2) R.slash
      if slashes % 2 = 0 then splitFrom (!quoted) 0 (some text) rest
      else splitFrom quoted 0 (some (text ++ [R.quote])) rest
    else if R.separates c && !quoted then (flush R slashes current).toList ++ splitFrom false 0 none rest
    else splitFrom quoted 0 (some (current.getD [] ++ List.replicate slashes R.slash ++ [c])) rest

/-- The arguments of a line. -/
def split (line : List α) : List (List α) := splitFrom R false 0 none line

lemma splitFrom_slashes (quoted : Bool) (slashes : ℕ) (current : Option (List α)) (n : ℕ) (rest : List α) :
    splitFrom R quoted slashes current (List.replicate n R.slash ++ rest) =
      splitFrom R quoted (slashes + n) current rest := by
  induction n generalizing slashes with
  | zero => rfl
  | succ n ih =>
    rw [List.replicate_succ, List.cons_append, splitFrom, if_pos rfl, ih]
    congr 1
    omega

lemma splitFrom_quote (quoted : Bool) (n : ℕ) (current : Option (List α)) (rest : List α) :
    splitFrom R quoted (2 * n) current (R.quote :: rest) =
      splitFrom R (!quoted) 0 (some (current.getD [] ++ List.replicate n R.slash)) rest := by
  rw [splitFrom, if_neg R.slash_ne_quote.symm, if_pos rfl]
  dsimp only
  rw [if_pos (Nat.mul_mod_right 2 n), Nat.mul_div_cancel_left n Nat.two_pos]

lemma splitFrom_literalQuote (quoted : Bool) (n : ℕ) (current : Option (List α)) (rest : List α) :
    splitFrom R quoted (2 * n + 1) current (R.quote :: rest) =
      splitFrom R quoted 0 (some (current.getD [] ++ List.replicate n R.slash ++ [R.quote])) rest := by
  rw [splitFrom, if_neg R.slash_ne_quote.symm, if_pos rfl]
  dsimp only
  rw [if_neg (by omega), show (2 * n + 1) / 2 = n by omega]

lemma splitFrom_separator {c : α} (hc : R.separates c = true) (slashes : ℕ) (current : Option (List α))
    (rest : List α) : splitFrom R false slashes current (c :: rest) =
      (flush R slashes current).toList ++ split R rest := by
  have hslash : c ≠ R.slash := by
    rintro rfl
    rw [R.slash_plain] at hc
    cases hc
  have hquote : c ≠ R.quote := by
    rintro rfl
    rw [R.quote_plain] at hc
    cases hc
  rw [splitFrom, if_neg hslash, if_neg hquote, hc]
  rfl

/-! ### Quoted arguments -/

/-- The rest of a quoted argument with its closing quote; `slashes` backslashes are not written yet. -/
def quotedRest (slashes : ℕ) : List α → List α
  | [] => List.replicate (2 * slashes) R.slash ++ [R.quote]
  | c :: rest =>
    if c = R.slash then quotedRest (slashes + 1) rest
    else if c = R.quote then List.replicate (2 * slashes + 1) R.slash ++ R.quote :: quotedRest 0 rest
    else List.replicate slashes R.slash ++ c :: quotedRest 0 rest

/-- **A quoted argument is read back**, up to its closing quote. -/
lemma splitFrom_quotedRest (slashes : ℕ) (value current tail : List α) :
    splitFrom R true 0 (some current) (quotedRest R slashes value ++ tail) =
      splitFrom R false 0 (some (current ++ List.replicate slashes R.slash ++ value)) tail := by
  induction value generalizing slashes current with
  | nil =>
    rw [quotedRest, List.append_assoc, splitFrom_slashes, Nat.zero_add, List.singleton_append, splitFrom_quote,
      List.append_nil]
    rfl
  | cons c rest ih =>
    unfold quotedRest
    split
    next hslash =>
      rw [ih, hslash, List.replicate_succ', List.append_assoc current, List.append_assoc, List.append_assoc]
      rfl
    next hslash =>
    split
    next hquote =>
      rw [List.append_assoc, splitFrom_slashes, Nat.zero_add, List.cons_append, splitFrom_literalQuote, ih, hquote,
        List.replicate_zero, List.append_nil, List.append_assoc, List.singleton_append]
      rfl
    next hquote =>
      rw [List.append_assoc, splitFrom_slashes, Nat.zero_add, List.cons_append, splitFrom, if_neg hslash, if_neg hquote,
        if_neg (by rw [Bool.not_true, Bool.and_false]; exact Bool.false_ne_true), ih, List.replicate_zero,
        List.append_nil, List.append_assoc, List.singleton_append]
      rfl

/-! ### Words and lines -/

/-- `word` is read as `value`, whatever stands behind it. -/
def ReadsAs (word value : List α) : Prop := ∃ slashes current, flush R slashes current = some value ∧
  ∀ tail, splitFrom R false 0 none (word ++ tail) = splitFrom R false slashes current tail

lemma readsAs_quoted (value : List α) : ReadsAs R (R.quote :: quotedRest R 0 value) value := by
  refine ⟨0, some value, rfl, fun tail => ?_⟩
  have hopen := splitFrom_quote R false 0 none (quotedRest R 0 value ++ tail)
  exact hopen.trans (splitFrom_quotedRest R 0 value [] tail)

/-- An ordinary character goes to the argument. -/
lemma splitFrom_plain {c : α} (hquote : c ≠ R.quote) (hsep : R.separates c = false) (slashes : ℕ)
    (current : Option (List α)) : ∃ slashes' current',
      flush R slashes' current' = some ((flush R slashes current).getD [] ++ [c]) ∧
      ∀ tail, splitFrom R false slashes current (c :: tail) = splitFrom R false slashes' current' tail := by
  rw [flush_getD]
  by_cases hslash : c = R.slash
  · refine ⟨slashes + 1, current, ?_, fun tail => ?_⟩
    · rw [flush, if_neg (Nat.succ_ne_zero slashes), List.replicate_succ', hslash, List.append_assoc]
    · rw [splitFrom, if_pos hslash]
  · refine ⟨0, some (current.getD [] ++ List.replicate slashes R.slash ++ [c]), rfl, fun tail => ?_⟩
    rw [splitFrom, if_neg hslash, if_neg hquote, hsep, Bool.false_and, if_neg Bool.false_ne_true]

lemma splitFrom_plains {value : List α} (hplain : ∀ c ∈ value, c ≠ R.quote ∧ R.separates c = false) {slashes : ℕ}
    {current : Option (List α)} {text : List α} (h : flush R slashes current = some text) :
    ∃ slashes' current', flush R slashes' current' = some (text ++ value) ∧
      ∀ tail, splitFrom R false slashes current (value ++ tail) = splitFrom R false slashes' current' tail := by
  induction value generalizing slashes current text with
  | nil => exact ⟨slashes, current, h.trans (congrArg some (List.append_nil text).symm), fun tail => rfl⟩
  | cons c rest ih =>
    obtain ⟨hquote, hsep⟩ := hplain c List.mem_cons_self
    obtain ⟨slashes₁, current₁, hfirst, hstep⟩ := splitFrom_plain R hquote hsep slashes current
    rw [h, Option.getD_some] at hfirst
    obtain ⟨slashes', current', hlast, hrest⟩ := ih (fun d hd => hplain d (List.mem_cons_of_mem c hd)) hfirst
    refine ⟨slashes', current', hlast.trans (by rw [List.append_assoc, List.singleton_append]), fun tail => ?_⟩
    rw [List.cons_append, hstep, hrest]

lemma readsAs_plain {value : List α} (hne : value ≠ []) (hplain : ∀ c ∈ value, c ≠ R.quote ∧ R.separates c = false) :
    ReadsAs R value value := by
  obtain ⟨c, rest, rfl⟩ := List.exists_cons_of_ne_nil hne
  obtain ⟨hquote, hsep⟩ := hplain c List.mem_cons_self
  obtain ⟨slashes₁, current₁, hfirst, hstep⟩ := splitFrom_plain R hquote hsep 0 none
  obtain ⟨slashes', current', hlast, hrest⟩ :=
    splitFrom_plains R (fun d hd => hplain d (List.mem_cons_of_mem c hd)) hfirst
  refine ⟨slashes', current', hlast, fun tail => ?_⟩
  rw [List.cons_append, hstep, hrest]

/-- **Words behind separators are the arguments they are read as.** -/
lemma split_words {sep : α} (hsep : R.separates sep = true) (write : List α → List α)
    (hwrite : ∀ value, ReadsAs R (write value) value) (first : List α) (others : List (List α)) :
    split R (write first ++ others.flatMap fun value => sep :: write value) = first :: others := by
  induction others generalizing first with
  | nil =>
    obtain ⟨slashes, current, hvalue, hread⟩ := hwrite first
    rw [split, List.flatMap_nil, hread, splitFrom, hvalue]
    rfl
  | cons second others ih =>
    obtain ⟨slashes, current, hvalue, hread⟩ := hwrite first
    rw [split, List.flatMap_cons, hread, List.cons_append, splitFrom_separator R hsep, hvalue, ih]
    rfl

/-! ### The name of the program -/

/-- What is behind the name of the program, where backslashes have no meaning and every quote switches the
separators. -/
def behindProgram (quoted : Bool) : List α → List α
  | [] => []
  | c :: rest =>
    if c = R.quote then behindProgram (!quoted) rest
    else if R.separates c && !quoted then rest
    else behindProgram quoted rest

lemma behindProgram_append {quoted : Bool} {name : List α}
    (hname : ∀ c ∈ name, c ≠ R.quote ∧ (quoted = true ∨ R.separates c = false)) (rest : List α) :
    behindProgram R quoted (name ++ rest) = behindProgram R quoted rest := by
  induction name with
  | nil => rfl
  | cons c name ih =>
    obtain ⟨hquote, hsep⟩ := hname c List.mem_cons_self
    have hread : (R.separates c && !quoted) = false := by
      rcases hsep with rfl | hsep
      · exact Bool.and_false _
      · rw [hsep, Bool.false_and]
    rw [List.cons_append, behindProgram, if_neg hquote, hread, if_neg Bool.false_ne_true]
    exact ih fun d hd => hname d (List.mem_cons_of_mem c hd)

/-- A quoted name without quotes of its own ends at the closing quote. -/
lemma behindProgram_quotedRest (slashes : ℕ) {name : List α} (hname : R.quote ∉ name) (rest : List α) :
    behindProgram R true (quotedRest R slashes name ++ rest) = behindProgram R false rest := by
  have hslashes : ∀ n (tail : List α), behindProgram R true (List.replicate n R.slash ++ tail) =
      behindProgram R true tail := by
    intro n tail
    refine behindProgram_append R (fun c hc => ?_) tail
    rw [List.eq_of_mem_replicate hc]
    exact ⟨R.slash_ne_quote, .inl rfl⟩
  induction name generalizing slashes with
  | nil =>
    rw [quotedRest, List.append_assoc, hslashes, List.singleton_append, behindProgram, if_pos rfl]
    rfl
  | cons c name ih =>
    have hquote : c ≠ R.quote := fun h => hname (h ▸ List.mem_cons_self)
    have hothers : R.quote ∉ name := fun h => hname (List.mem_cons_of_mem c h)
    unfold quotedRest
    split
    · exact ih (slashes + 1) hothers
    · rw [List.append_assoc, hslashes, List.cons_append, behindProgram, if_neg hquote,
        if_neg (by rw [Bool.not_true, Bool.and_false]; exact Bool.false_ne_true)]
      exact ih 0 hothers

end VT7.Lib.Arguments
