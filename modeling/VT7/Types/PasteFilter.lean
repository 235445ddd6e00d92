import Mathlib.Data.List.Infix
import Mathlib.Tactic.SplitIfs

/-!
# Text that is pasted

`FilterStringForPaste` copies the ranges between the characters it removes.  It is compared with what each
character becomes, one at a time.
-/

namespace VT7.Types

/-! ### The filter -/

abbrev FilterOption := BitVec 32

namespace FilterOption

/-- Convert CR+LF and LF-only line endings to CR-only. -/
def carriageReturnNewline : FilterOption := 1
/-- For security reasons, remove most control characters. -/
def controlCodes : FilterOption := 2

/-- `WI_IsFlagSet`. -/
def isFlagSet (option flag : FilterOption) : Bool := option &&& flag != 0

end FilterOption

open FilterOption (carriageReturnNewline controlCodes isFlagSet)

def isControlCode (c : UInt16) : Bool :=
  if 0x20 ≤ c && c < 0x7f then false
  else if c > 0x9f then false
  else c != 0x09 && c != 0x0a && c != 0x0d

/-- The loop of `FilterStringForPaste`, up to the final `begin` and what has been copied. -/
def filterLoop (wstr : List UInt16) (option : FilterOption) (pos begin : ℕ) (filtered : List UInt16) :
    ℕ × List UInt16 :=
  if h : pos < wstr.length then
    if isFlagSet option carriageReturnNewline && wstr[pos] == 0x0a then
      let copied := filtered ++ wstr.extract begin pos
      if !(decide (pos > 0) && wstr[pos - 1] == 0x0d) then
        filterLoop wstr option (pos + 1) (pos + 1) (copied ++ [0x0d])
      else filterLoop wstr option (pos + 1) (pos + 1) copied
    else if isFlagSet option controlCodes && isControlCode wstr[pos] then
      filterLoop wstr option (pos + 1) (pos + 1) (filtered ++ wstr.extract begin pos)
    else filterLoop wstr option (pos + 1) begin filtered
  else (begin, filtered)
termination_by wstr.length - pos

def filterStringForPaste (wstr : List UInt16) (option : FilterOption) : List UInt16 :=
  let (begin, filtered) := filterLoop wstr option 0 0 []
  if begin = 0 then wstr else filtered ++ wstr.drop begin

/-! ### One character at a time -/

section general
variable {α β : Type*}

/-- What each element becomes when the element before it may be looked at. -/
def flatMapBefore (f : Option α → α → List β) : Option α → List α → List β
  | _, [] => []
  | before, c :: rest => f before c ++ flatMapBefore f (some c) rest

variable (f : Option α → α → List β) (before : Option α)

@[simp] theorem flatMapBefore_nil : flatMapBefore f before [] = [] := rfl

@[simp] theorem flatMapBefore_cons (c : α) (rest : List α) :
    flatMapBefore f before (c :: rest) = f before c ++ flatMapBefore f (some c) rest := rfl

theorem mem_flatMapBefore {text : List α} {b : β} (h : b ∈ flatMapBefore f before text) :
    ∃ before, ∃ c ∈ text, b ∈ f before c := by
  induction text generalizing before with
  | nil => simp at h
  | cons c rest ih =>
    rw [flatMapBefore_cons, List.mem_append] at h
    rcases h with h | h
    · exact ⟨before, c, by simp, h⟩
    · obtain ⟨before, d, hd, hb⟩ := ih _ h
      exact ⟨before, d, List.mem_cons_of_mem _ hd, hb⟩

theorem flatMapBefore_eq_self (f : Option α → α → List α) (before : Option α) {text : List α}
    (h : ∀ c ∈ text, ∀ before, f before c = [c]) : flatMapBefore f before text = text := by
  induction text generalizing before with
  | nil => rfl
  | cons c rest ih =>
    rw [flatMapBefore_cons, h c (by simp), ih _ fun d hd => h d (List.mem_cons_of_mem _ hd)]
    rfl

end general

def IsC0 (c : UInt16) : Prop := c < 0x20
def IsDel (c : UInt16) : Prop := c = 0x7f
def IsC1 (c : UInt16) : Prop := 0x80 ≤ c ∧ c ≤ 0x9f

/-- A control code that is no HT, LF or CR. -/
def IsRemovedControl (c : UInt16) : Prop :=
  (IsC0 c ∨ IsDel c ∨ IsC1 c) ∧ c ≠ 0x09 ∧ c ≠ 0x0a ∧ c ≠ 0x0d

instance : DecidablePred IsRemovedControl := fun c => by
  unfold IsRemovedControl IsC0 IsDel IsC1; infer_instance

/-- What a character becomes after the one before it. -/
def pasted (option : FilterOption) (before : Option UInt16) (c : UInt16) : List UInt16 :=
  if isFlagSet option controlCodes ∧ IsRemovedControl c then []
  else if isFlagSet option carriageReturnNewline ∧ c = 0x0a then
    if before = some 0x0d then [] else [0x0d]
  else [c]

theorem isControlCode_iff (c : UInt16) : isControlCode c = true ↔ IsRemovedControl c := by
  unfold isControlCode IsRemovedControl IsC0 IsDel IsC1
  split_ifs with hprintable hhigh
  · simp only [Bool.and_eq_true, decide_eq_true_eq] at hprintable
    simp only [false_iff]
    grind
  · simp only [false_iff]
    grind
  · simp only [Bool.and_eq_true, decide_eq_true_eq] at hprintable
    simp only [Bool.and_eq_true, bne_iff_ne, ne_eq]
    grind

/-! ### The loop against the characters -/

/-- The character in front of a position. -/
def charBefore (wstr : List UInt16) (pos : ℕ) : Option UInt16 := if pos = 0 then none else wstr[pos - 1]?

theorem charBefore_succ {wstr : List UInt16} {pos : ℕ} (h : pos < wstr.length) :
    charBefore wstr (pos + 1) = some wstr[pos] := by
  simp [charBefore, h]

theorem crBefore_iff {wstr : List UInt16} {pos : ℕ} (h : pos < wstr.length) :
    (decide (pos > 0) && wstr[pos - 1] == 0x0d) = true ↔ charBefore wstr pos = some 0x0d := by
  unfold charBefore
  split_ifs with h0
  · simp [h0]
  · have hlt : pos - 1 < wstr.length := by omega
    simp [Nat.pos_of_ne_zero h0, List.getElem?_eq_getElem hlt]

theorem extract_succ {wstr : List UInt16} {begin pos : ℕ} (hbegin : begin ≤ pos) (h : pos < wstr.length) :
    wstr.extract begin (pos + 1) = wstr.extract begin pos ++ [wstr[pos]] := by
  have hlen : pos - begin < (wstr.drop begin).length := by simp; omega
  have := List.take_concat_get' (wstr.drop begin) (pos - begin) hlen
  simp only [List.extract_eq_take_drop, Nat.sub_add_comm hbegin]
  simpa [Nat.add_sub_cancel' hbegin] using this.symm

theorem drop_eq_extract_append {wstr : List UInt16} {begin pos : ℕ} (hbegin : begin ≤ pos) :
    wstr.drop begin = wstr.extract begin pos ++ wstr.drop pos := by
  conv_lhs => rw [← List.take_append_drop (pos - begin) (wstr.drop begin)]
  simp [Nat.add_sub_cancel' hbegin]

section loop
variable (wstr : List UInt16) (option : FilterOption)

/-- What has been copied, what waits to be copied and what the rest becomes. -/
def Goes (pos begin : ℕ) (filtered : List UInt16) : List UInt16 :=
  filtered ++ wstr.extract begin pos ++ flatMapBefore (pasted option) (charBefore wstr pos) (wstr.drop pos)

variable {wstr} {option}

theorem goes_succ {pos : ℕ} (begin : ℕ) (filtered : List UInt16) (h : pos < wstr.length) :
    Goes wstr option pos begin filtered =
      filtered ++ wstr.extract begin pos ++ (pasted option (charBefore wstr pos) wstr[pos] ++
        flatMapBefore (pasted option) (charBefore wstr (pos + 1)) (wstr.drop (pos + 1))) := by
  rw [Goes, List.drop_eq_getElem_cons h, flatMapBefore_cons, charBefore_succ h]

theorem goes_removed {pos : ℕ} (begin : ℕ) (filtered added : List UInt16) (h : pos < wstr.length)
    (hadded : pasted option (charBefore wstr pos) wstr[pos] = added) :
    Goes wstr option pos begin filtered =
      Goes wstr option (pos + 1) (pos + 1) (filtered ++ wstr.extract begin pos ++ added) := by
  rw [goes_succ begin filtered h, hadded]
  simp [Goes]

theorem goes_kept {pos begin : ℕ} (filtered : List UInt16) (hbegin : begin ≤ pos) (h : pos < wstr.length)
    (hkept : pasted option (charBefore wstr pos) wstr[pos] = [wstr[pos]]) :
    Goes wstr option pos begin filtered = Goes wstr option (pos + 1) begin filtered := by
  rw [goes_succ begin filtered h, hkept, Goes, extract_succ hbegin h]
  simp only [List.append_assoc]

/-- The loop leaves what the characters become; while nothing has been removed, nothing has been copied. -/
theorem filterLoop_spec (pos begin : ℕ) (filtered : List UInt16) (hbegin : begin ≤ pos)
    (hcopied : begin = 0 → filtered = []) :
    let result := filterLoop wstr option pos begin filtered
    result.2 ++ wstr.drop result.1 = Goes wstr option pos begin filtered ∧ (result.1 = 0 → result.2 = []) := by
  fun_induction filterLoop wstr option pos begin filtered with
  | case1 pos begin filtered h hnewline copied hcr ih =>
    obtain ⟨hflag, hc⟩ := by simpa using hnewline
    have hadded : pasted option (charBefore wstr pos) wstr[pos] = [0x0d] := by
      have hbefore : charBefore wstr pos ≠ some 0x0d := by
        intro hbefore
        rw [(crBefore_iff h).mpr hbefore] at hcr
        cases hcr
      simp [pasted, hc, hflag, hbefore, IsRemovedControl]
    have := ih (le_refl _) (fun h0 => (nomatch h0))
    rwa [goes_removed begin filtered _ h hadded]
  | case2 pos begin filtered h hnewline copied hcr ih =>
    obtain ⟨hflag, hc⟩ := by simpa using hnewline
    have hadded : pasted option (charBefore wstr pos) wstr[pos] = [] := by
      have hbefore : charBefore wstr pos = some 0x0d := by
        rw [Bool.not_eq_true, Bool.not_eq_false'] at hcr
        exact (crBefore_iff h).mp hcr
      simp [pasted, hc, hflag, hbefore, IsRemovedControl]
    have := ih (le_refl _) (fun h0 => (nomatch h0))
    rwa [goes_removed begin filtered _ h hadded, List.append_nil]
  | case3 pos begin filtered h hnewline hcontrol ih =>
    rw [Bool.and_eq_true, isControlCode_iff] at hcontrol
    have hadded : pasted option (charBefore wstr pos) wstr[pos] = [] := by
      simp [pasted, hcontrol]
    have := ih (le_refl _) (fun h0 => (nomatch h0))
    rwa [goes_removed begin filtered _ h hadded, List.append_nil]
  | case4 pos begin filtered h hnewline hcontrol ih =>
    rw [Bool.and_eq_true, isControlCode_iff] at hcontrol
    rw [Bool.and_eq_true, beq_iff_eq] at hnewline
    have hkept : pasted option (charBefore wstr pos) wstr[pos] = [wstr[pos]] := by
      rw [pasted, if_neg hcontrol, if_neg hnewline]
    have := ih (by omega) hcopied
    rwa [goes_kept filtered hbegin h hkept]
  | case5 pos begin filtered h =>
    refine ⟨?_, hcopied⟩
    rw [Goes, List.drop_eq_nil_of_le (not_lt.mp h), flatMapBefore_nil, List.append_nil,
      drop_eq_extract_append hbegin, List.drop_eq_nil_of_le (not_lt.mp h), List.append_nil]

end loop

theorem filterStringForPaste_eq (wstr : List UInt16) (option : FilterOption) :
    filterStringForPaste wstr option = flatMapBefore (pasted option) none wstr := by
  obtain ⟨htext, hcopied⟩ := @filterLoop_spec wstr option 0 0 [] (le_refl _) fun _ => rfl
  have hall : Goes wstr option 0 0 [] = flatMapBefore (pasted option) none wstr := by simp [Goes, charBefore]
  rw [hall] at htext
  unfold filterStringForPaste
  dsimp only
  by_cases h0 : (filterLoop wstr option 0 0 []).1 = 0
  · rw [hcopied h0, h0] at htext
    rw [if_pos h0]
    simpa using htext
  · rw [if_neg h0]
    exact htext

/-! ### What is left -/

/-- A character that the filter leaves as it is. -/
def Stays (option : FilterOption) (c : UInt16) : Prop :=
  (isFlagSet option controlCodes = true → ¬ IsRemovedControl c) ∧
    (isFlagSet option carriageReturnNewline = true → c ≠ 0x0a)

theorem pasted_of_stays {option : FilterOption} {c : UInt16} (h : Stays option c) (before : Option UInt16) :
    pasted option before c = [c] := by
  unfold pasted
  rw [if_neg fun hc => h.1 hc.1 hc.2, if_neg fun hc => h.2 hc.1 hc.2]

theorem stays_of_mem_pasted {option : FilterOption} {before : Option UInt16} {c d : UInt16}
    (h : d ∈ pasted option before c) : Stays option d := by
  unfold pasted at h
  split_ifs at h with hcontrol hnewline hcr
  · cases h
  · cases h
  · obtain rfl := List.mem_singleton.mp h
    exact ⟨fun _ => by decide, fun _ => by decide⟩
  · obtain rfl := List.mem_singleton.mp h
    exact ⟨fun hflag hremoved => hcontrol ⟨hflag, hremoved⟩, fun hflag hlf => hnewline ⟨hflag, hlf⟩⟩

theorem stays_of_mem {option : FilterOption} {wstr : List UInt16} {c : UInt16}
    (h : c ∈ filterStringForPaste wstr option) : Stays option c := by
  rw [filterStringForPaste_eq] at h
  obtain ⟨before, d, -, hc⟩ := mem_flatMapBefore _ _ h
  exact stays_of_mem_pasted hc

def esc : UInt16 := 0x1b

/-- The end of a bracketed paste, in 7-bit and in 8-bit form. -/
def bracketedPasteEnd : List UInt16 := [esc, 0x5b, 0x32, 0x30, 0x31, 0x7e]
def bracketedPasteEnd8 : List UInt16 := [0x9b, 0x32, 0x30, 0x31, 0x7e]

/-- **The filter replaces character by character**, leaves nothing that could end a bracketed paste, and changes
nothing the second time. -/
theorem filterStringForPaste_exact (wstr : List UInt16) (option : FilterOption) :
    filterStringForPaste wstr option = flatMapBefore (pasted option) none wstr ∧
    (isFlagSet option controlCodes = true →
      (∀ c ∈ filterStringForPaste wstr option, c ≠ esc ∧ ¬ IsC1 c) ∧
      ¬ bracketedPasteEnd <:+: filterStringForPaste wstr option ∧
      ¬ bracketedPasteEnd8 <:+: filterStringForPaste wstr option) ∧
    (isFlagSet option carriageReturnNewline = true → ∀ c ∈ filterStringForPaste wstr option, c ≠ 0x0a) ∧
    filterStringForPaste (filterStringForPaste wstr option) option = filterStringForPaste wstr option := by
  refine ⟨filterStringForPaste_eq wstr option, fun hflag => ?_, fun hflag c hc => (stays_of_mem hc).2 hflag, ?_⟩
  · have hclean : ∀ c ∈ filterStringForPaste wstr option, c ≠ esc ∧ ¬ IsC1 c := by
      intro c hc
      have hkept := (stays_of_mem hc).1 hflag
      constructor
      · rintro rfl
        exact hkept (by decide)
      · intro hc1
        refine hkept ⟨.inr (.inr hc1), ?_⟩
        unfold IsC1 at hc1
        grind
    refine ⟨hclean, fun hend => ?_, fun hend => ?_⟩
    · exact (hclean esc (hend.subset (List.mem_cons_self))).1 rfl
    · exact (hclean 0x9b (hend.subset (List.mem_cons_self))).2 ⟨by decide, by decide⟩
  · rw [filterStringForPaste_eq (filterStringForPaste wstr option)]
    exact flatMapBefore_eq_self _ _ fun c hc before => pasted_of_stays (stays_of_mem hc) before

end VT7.Types
