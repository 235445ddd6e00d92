import VT7.Lib.Arguments
import VT7.Shim.RunShim

/-!
The command line that `LaunchSystem` builds for the external client, and the arguments that the client's C
runtime takes from it.
-/

namespace VT7.Shim.Program

open VT7.Lib VT7.Dotnet

/-! ### Quoting -/

/-- One of the characters that `Quote` looks for: blank, tab, line feed, vertical tab, quote. -/
def needsQuotes (u : UInt16) : Bool := u == 0x20 || u == 0x09 || u == 0x0a || u == 0x0b || u == 0x22

/-- One turn of the loop of `Quote`, with the backslashes that are not written yet. -/
def quoteUnit (state : Utf16 × ℕ) (character : UInt16) : Utf16 × ℕ :=
  if character = 0x5c then (state.1, state.2 + 1)
  else if character = 0x22 then (state.1 ++ List.replicate (state.2 * 2 + 1) 0x5c ++ [0x22], 0)
  else (state.1 ++ List.replicate state.2 0x5c ++ [character], 0)

/-- `Quote`. -/
def quote (value : Utf16) : Utf16 :=
  if !value.isEmpty && !value.any needsQuotes then value
  else
    let state := value.foldl quoteUnit ([0x22], 0)
    state.1 ++ List.replicate (state.2 * 2) 0x5c ++ [0x22]

/-- The command line of `LaunchSystem`; the first argument is the name of the shim. -/
def commandLine (externalPath : Utf16) (arguments : List Utf16) : Utf16 :=
  quote externalPath ++ arguments.tail.flatMap fun argument => 0x20 :: quote argument

/-- The text given to `CreateProcessW`. -/
def mutableCommand (externalPath : Utf16) (arguments : List Utf16) : Utf16 :=
  commandLine externalPath arguments ++ [0]

/-- The C runtime separates at blanks and tabs. -/
def runtimeRules : Arguments.Rules UInt16 where
  slash := 0x5c
  quote := 0x22
  separates u := u == 0x20 || u == 0x09
  slash_ne_quote := by decide
  slash_plain := rfl
  quote_plain := rfl

/-! ### Reading it back -/

lemma foldl_quoteUnit (value output : Utf16) (slashes : ℕ) :
    (value.foldl quoteUnit (output, slashes)).1 ++
        List.replicate ((value.foldl quoteUnit (output, slashes)).2 * 2) 0x5c ++ [0x22] =
      output ++ Arguments.quotedRest runtimeRules slashes value := by
  induction value generalizing output slashes with
  | nil => rw [List.foldl_nil, Arguments.quotedRest, Nat.mul_comm, List.append_assoc]; rfl
  | cons c rest ih =>
    rw [List.foldl_cons, Arguments.quotedRest]
    unfold quoteUnit
    by_cases hslash : c = 0x5c
    · rw [if_pos hslash, if_pos (show c = runtimeRules.slash from hslash)]
      exact ih output (slashes + 1)
    rw [if_neg hslash, if_neg (show c ≠ runtimeRules.slash from hslash)]
    by_cases hquote : c = 0x22
    · rw [if_pos hquote, if_pos (show c = runtimeRules.quote from hquote), Nat.mul_comm slashes]
      refine (ih _ 0).trans ?_
      rw [List.append_assoc, List.append_assoc]
      rfl
    · rw [if_neg hquote, if_neg (show c ≠ runtimeRules.quote from hquote)]
      refine (ih _ 0).trans ?_
      rw [List.append_assoc, List.append_assoc]
      rfl

lemma quote_eq (value : Utf16) : quote value = if !value.isEmpty && !value.any needsQuotes then value
    else 0x22 :: Arguments.quotedRest runtimeRules 0 value := by
  unfold quote
  split
  · rfl
  · exact foldl_quoteUnit value [0x22] 0

lemma plain_of_unquoted {value : Utf16} (h : (!value.isEmpty && !value.any needsQuotes) = true) :
    value ≠ [] ∧ ∀ c ∈ value, c ≠ runtimeRules.quote ∧ runtimeRules.separates c = false := by
  rw [Bool.and_eq_true, Bool.not_eq_true', Bool.not_eq_true', List.isEmpty_eq_false_iff, List.any_eq_false] at h
  refine ⟨h.1, fun c hc => ?_⟩
  have hc := h.2 c hc
  simp only [needsQuotes, Bool.or_eq_true, beq_iff_eq, not_or] at hc
  exact ⟨hc.2, Bool.or_eq_false_iff.mpr ⟨beq_false_of_ne hc.1.1.1.1, beq_false_of_ne hc.1.1.1.2⟩⟩

lemma readsAs_quote (value : Utf16) : Arguments.ReadsAs runtimeRules (quote value) value := by
  rw [quote_eq]
  split
  next h =>
    obtain ⟨hne, hplain⟩ := plain_of_unquoted h
    exact Arguments.readsAs_plain runtimeRules hne hplain
  next => exact Arguments.readsAs_quoted runtimeRules value

/-- `Quote` writes no character that is not a backslash, a quote or one of the text. -/
lemma zero_notMem_quote {value : Utf16} (h : 0 ∉ value) : 0 ∉ quote value := by
  have hslashes : ∀ n, (0 : UInt16) ∉ List.replicate n (0x5c : UInt16) := by
    intro n hmem
    exact absurd (List.eq_of_mem_replicate hmem) (by decide)
  have hrest : ∀ slashes, 0 ∉ Arguments.quotedRest runtimeRules slashes value := by
    induction value with
    | nil =>
      intro slashes hmem
      rcases List.mem_append.mp hmem with hmem | hmem
      · exact hslashes _ hmem
      · exact absurd (List.mem_singleton.mp hmem) (by decide)
    | cons c rest ih =>
      have hothers := ih fun hmem => h (List.mem_cons_of_mem c hmem)
      intro slashes
      unfold Arguments.quotedRest
      split
      · exact hothers _
      split
      · intro hmem
        rcases List.mem_append.mp hmem with hmem | hmem
        · exact hslashes _ hmem
        rcases List.mem_cons.mp hmem with hmem | hmem
        · exact absurd hmem (by decide)
        · exact hothers 0 hmem
      · intro hmem
        rcases List.mem_append.mp hmem with hmem | hmem
        · exact hslashes _ hmem
        rcases List.mem_cons.mp hmem with rfl | hmem
        · exact h List.mem_cons_self
        · exact hothers 0 hmem
  rw [quote_eq]
  split
  · exact h
  · intro hmem
    rcases List.mem_cons.mp hmem with hmem | hmem
    · exact absurd hmem (by decide)
    · exact hrest 0 hmem

lemma cstr_mutableCommand {externalPath : Utf16} {arguments : List Utf16} (hpath : 0 ∉ externalPath)
    (harguments : ∀ argument ∈ arguments, 0 ∉ argument) :
    cstr (mutableCommand externalPath arguments) = commandLine externalPath arguments := by
  have hline : 0 ∉ commandLine externalPath arguments := by
    intro hmem
    rcases List.mem_append.mp hmem with hmem | hmem
    · exact zero_notMem_quote hpath hmem
    obtain ⟨argument, hargument, hmem⟩ := List.mem_flatMap.mp hmem
    rcases List.mem_cons.mp hmem with hmem | hmem
    · exact absurd hmem (by decide)
    · exact zero_notMem_quote (harguments argument (List.mem_of_mem_tail hargument)) hmem
  unfold cstr mutableCommand
  rw [List.takeWhile_append_of_pos, List.takeWhile_cons_of_neg (by decide), List.append_nil]
  intro u hu
  rw [bne_iff_ne]
  rintro rfl
  exact hline hu

/-- **Quoting can be undone.**  The external client finds the arguments of the shim behind its own path. -/
theorem split_mutableCommand {externalPath : Utf16} {arguments : List Utf16} (hpath : 0 ∉ externalPath)
    (harguments : ∀ argument ∈ arguments, 0 ∉ argument) :
    Arguments.split runtimeRules (cstr (mutableCommand externalPath arguments)) = externalPath :: arguments.tail := by
  rw [cstr_mutableCommand hpath harguments]
  exact Arguments.split_words runtimeRules rfl quote readsAs_quote externalPath arguments.tail

/-- A backslash before a quote, a blank with a backslash behind it, and no text at all. -/
theorem split_mutableCommand_mixed : Arguments.split runtimeRules
    (cstr (mutableCommand [0x65] [[0x73], [0x5c, 0x22], [0x20, 0x5c], []])) = [[0x65], [0x5c, 0x22], [0x20, 0x5c], []] :=
  @split_mutableCommand [0x65] [[0x73], [0x5c, 0x22], [0x20, 0x5c], []] (by decide) (by decide)

/-- The same where the runtime reads the name of the program by rules of its own: the path holds no quote. -/
theorem split_behindProgram {externalPath : Utf16} (arguments : List Utf16) (hquote : 0x22 ∉ externalPath) :
    Arguments.split runtimeRules (Arguments.behindProgram runtimeRules false (commandLine externalPath arguments)) =
      arguments.tail := by
  have hpath : ∀ rest, Arguments.behindProgram runtimeRules false (quote externalPath ++ rest) =
      Arguments.behindProgram runtimeRules false rest := by
    intro rest
    rw [quote_eq]
    split
    next h =>
      refine Arguments.behindProgram_append runtimeRules (fun c hc => ?_) rest
      exact ⟨((plain_of_unquoted h).2 c hc).1, .inr ((plain_of_unquoted h).2 c hc).2⟩
    next => exact Arguments.behindProgram_quotedRest runtimeRules 0 hquote rest
  unfold commandLine
  rw [hpath]
  cases arguments.tail with
  | nil => rfl
  | cons first others =>
    exact @Arguments.split_words _ runtimeRules _ 0x20 rfl quote readsAs_quote first others

/-- A path with a blank. -/
theorem split_behindProgram_blank : Arguments.split runtimeRules (Arguments.behindProgram runtimeRules false
    (commandLine [0x65, 0x20] [[0x73], [0x5c, 0x22], [0x20, 0x5c], []])) = [[0x5c, 0x22], [0x20, 0x5c], []] :=
  split_behindProgram [[0x73], [0x5c, 0x22], [0x20, 0x5c], []] (by decide)

end VT7.Shim.Program
