import VT7.Adapter.Dispatched

/-!
# The invocation of macros ends

All nested invocations share the budget `MAX_SPACE`: a macro pays for its characters when it is invoked, and nothing is
given back before the root invocation has returned (`Spent`).  The loops of `ProcessString` are followed once, for a
string that was received and for a macro alike (`Discipline`).
-/

namespace VT7.Adapter

open VT7.Parser (StateMachine Engine EngineCall Adds News Reports isActionableFromGround)

/-- How many characters of a string are processed. -/
def Record.count : Record → ℕ
  | .processed _ _ _ count _ _ _ => count
  | .invoked _ => 0

/-- The nesting is bounded, the parser is where the characters are, and `MAX_SPACE` covers the budget. -/
def Record.Fits : Record → Prop
  | .processed depth own index count currentString runOffset runSize =>
    depth ≤ 16 ∧ currentString = own ∧ runOffset + runSize = index + count
  | .invoked sequenceLength => sequenceLength ≤ maxSpace

/-- How a call ends, given what holds after it returned and after it threw. -/
def Completion.Ends (returns throws : Terminal → Prop) : Completion → Prop
  | .returned t => returns t
  | .threw t => throws t
  | .unbounded => False

lemma Completion.Ends.imp {returns throws returns' throws' : Terminal → Prop} {completion : Completion}
    (h : completion.Ends returns throws) (hreturns : ∀ t, returns t → returns' t)
    (hthrows : ∀ t, throws t → throws' t) : completion.Ends returns' throws' := by
  cases completion with
  | returned t => exact hreturns t h
  | threw t => exact hthrows t h
  | unbounded => exact h

/-- What is done behind a call that returned. -/
lemma Completion.Ends.next {returns throws returns' throws' : Terminal → Prop} {completion : Completion}
    {k : Terminal → Completion} (h : completion.Ends returns throws)
    (hreturns : ∀ t, returns t → (k t).Ends returns' throws') (hthrows : ∀ t, throws t → throws' t) :
    (match completion with
      | .returned t => k t
      | completion => completion).Ends returns' throws' := by
  cases completion with
  | returned t => exact hreturns t h
  | threw t => exact hthrows t h
  | unbounded => exact h

namespace Terminal

/-- What is recorded between two states fits, and some characters and the growth of the budget pay for it. -/
def Spent (weight : Record → ℕ) (budget : Terminal → ℕ) (characters : ℕ) (t t' : Terminal) : Prop :=
  ∃ records, t'.history = t.history ++ records ∧ (∀ r ∈ records, r.Fits) ∧
    (records.map weight).sum + budget t ≤ characters + budget t'

/-- The parser is at an index of a string. -/
def IsAt (own : View) (i : ℕ) (t : Terminal) : Prop := t.currentString = own ∧ t.runOffset + t.runSize = i

/-- A part of `ProcessString` keeps what holds, with a macro of the current buffer to invoke if a control sequence is
completed. -/
structure Resumes (Holds : Terminal → Prop) (budget : Terminal → ℕ) (t t' : Terminal) : Prop where
  currentString : t'.currentString = t.currentString
  runOffset : t'.runOffset = t.runOffset
  runSize : t'.runSize = t.runSize
  history : t'.history = t.history
  budget : budget { t' with onCsiComplete := none } = budget t
  holds : Holds { t' with onCsiComplete := none }
  pending : t'.onCsiComplete = none ∨ t'.completedCsi t.machine = true ∧
    ∃ b macroId, t'.onCsiComplete = some (b, macroId) ∧ t'.macroBuffer = some b

/-- What holds between the characters of a string, and what is left of it after an exception. -/
structure Discipline (engine : Engine) (invoke : ℕ → ℕ → Terminal → Completion) (own : View)
    (Holds Left : Terminal → Prop) (budget : Terminal → ℕ) (weight : Record → ℕ) : Prop where
  weighs : ∀ r, weight r ≤ r.count
  idle : ∀ t, Holds t → t.onCsiComplete = none
  left : ∀ t, Holds t → Left t
  depth : ∀ t, Holds t → t.depthOf own ≤ 16
  moved : ∀ t string offset size history, Holds t →
    Holds { t with currentString := string, runOffset := offset, runSize := size, history := history } ∧
      budget { t with currentString := string, runOffset := offset, runSize := size, history := history } = budget t
  print : ∀ t run, Holds t → run ≠ [] → (∀ ch ∈ run, ch ∈ t.text own ∧ isActionableFromGround ch = false) →
    Resumes Holds budget t (t.handle fun m => (m.quietCall (.printString run)).afterCall engine) ∧
      (t.handle fun m => (m.quietCall (.printString run)).afterCall engine).onCsiComplete = none
  character : ∀ t i, Holds t →
    Resumes Holds budget t (t.handle fun m => m.processCharacter engine ((t.text own).getD i 0))
  finish : ∀ t, Holds t → Resumes Holds budget t (t.handle fun m => m.endOfString engine) ∧
    (t.handle fun m => m.endOfString engine).onCsiComplete = none
  invoked : ∀ t b macroId, Holds t → t.macroBuffer = some b →
    (invoke b macroId t).Ends (fun t' => Holds t' ∧ Spent weight budget 0 t t')
      (fun t' => Left t' ∧ Spent weight budget 0 t t')

section Spent

variable {weight : Record → ℕ} {budget : Terminal → ℕ} {m n : ℕ} {t t' t'' : Terminal}

lemma Spent.trans (h : Spent weight budget m t t') (h' : Spent weight budget n t' t'') :
    Spent weight budget (m + n) t t'' := by
  obtain ⟨records, hhistory, hfits, hsum⟩ := h
  obtain ⟨records', hhistory', hfits', hsum'⟩ := h'
  refine ⟨records ++ records', by rw [hhistory', hhistory, List.append_assoc], fun r hr => ?_, ?_⟩
  · rcases List.mem_append.mp hr with hr | hr
    · exact hfits r hr
    · exact hfits' r hr
  · rw [List.map_append, List.sum_append]
    omega

lemma Spent.mono (h : Spent weight budget m t t') (hmn : m ≤ n) : Spent weight budget n t t' := by
  obtain ⟨records, hhistory, hfits, hsum⟩ := h
  exact ⟨records, hhistory, hfits, by omega⟩

lemma Spent.nothing (hhistory : t'.history = t.history) (hbudget : budget t' = budget t) :
    Spent weight budget 0 t t' :=
  ⟨[], by rw [hhistory, List.append_nil], by simp, by simp [hbudget]⟩

lemma Spent.one {r : Record} (hhistory : t'.history = t.history ++ [r]) (hfits : r.Fits) (hr : weight r ≤ n)
    (hbudget : budget t' = budget t) : Spent weight budget n t t' := by
  refine ⟨[r], hhistory, fun r' hr' => ?_, ?_⟩
  · rwa [List.mem_singleton.mp hr']
  · rw [hbudget]
    simpa using hr

end Spent

/-! ### The loops -/

section Loops

variable {engine : Engine} {throws : StateMachine → Bool} {invoke : ℕ → ℕ → Terminal → Completion} {own : View}
  {Holds Left : Terminal → Prop} {budget : Terminal → ℕ} {weight : Record → ℕ} {t t' : Terminal}

/-- A part of `ProcessString` behind which nothing is pending. -/
lemma Resumes.settle (h : Resumes Holds budget t t') (hnone : t'.onCsiComplete = none) :
    Holds t' ∧ budget t' = budget t := by
  have hholds := h.holds
  have hbudget := h.budget
  have hsame : { t' with onCsiComplete := none } = t' := by
    cases t'
    cases hnone
    rfl
  rw [hsame] at hholds hbudget
  exact ⟨hholds, hbudget⟩

lemma runOf_length (text : List UInt16) (size i : ℕ) :
    (((text.take size).drop i).takeWhile (!isActionableFromGround ·)).length ≤ size - i := by
  calc _ ≤ ((text.take size).drop i).length := (List.takeWhile_sublist _).length_le
    _ ≤ size - i := by
      rw [List.length_drop, List.length_take]
      omega

lemma mem_runOf {text : List UInt16} {size i : ℕ} {ch : UInt16}
    (hch : ch ∈ ((text.take size).drop i).takeWhile (!isActionableFromGround ·)) :
    ch ∈ text ∧ isActionableFromGround ch = false :=
  ⟨List.mem_of_mem_take (List.mem_of_mem_drop ((List.takeWhile_sublist _).subset hch)),
    by simpa using List.mem_takeWhile_imp hch⟩

variable (h : Discipline engine invoke own Holds Left budget weight)

include h

/-- The print run. -/
lemma Discipline.printRun_spec (ht : Holds t) {i : ℕ} (hat : IsAt own i t) (size : ℕ) :
    Holds (t.printRun engine own size i).1 ∧ IsAt own (t.printRun engine own size i).2 (t.printRun engine own size i).1 ∧
      i ≤ (t.printRun engine own size i).2 ∧ (t.printRun engine own size i).2 ≤ i + (size - i) ∧
      Spent weight budget ((t.printRun engine own size i).2 - i) t (t.printRun engine own size i).1 := by
  have hlength := runOf_length (t.text own) size i
  have hmem := @mem_runOf (t.text own) size i
  unfold printRun
  dsimp only
  generalize ((t.text own).take size |>.drop i).takeWhile (!isActionableFromGround ·) = run at *
  obtain ⟨hstart, hbudget⟩ := h.moved t t.currentString i run.length t.history ht
  split
  · next hempty =>
    cases List.isEmpty_iff.mp hempty
    refine ⟨hstart, ⟨hat.1, rfl⟩, le_rfl, Nat.le_add_right i _, ?_⟩
    rw [Nat.sub_self]
    exact .nothing rfl hbudget
  · next hne =>
    let r : Record := .processed (t.depthOf own) own i run.length t.currentString i run.length
    obtain ⟨hrecorded, hbudget'⟩ := h.moved t t.currentString i run.length (t.history ++ [r]) ht
    obtain ⟨hresumes, hnone⟩ := h.print _ run hrecorded (fun hrun => hne (by rw [hrun]; rfl)) fun ch => hmem
    obtain ⟨hprinted, hsame⟩ := hresumes.settle hnone
    have hfits : r.Fits := ⟨h.depth t ht, hat.1, rfl⟩
    have hweighs : weight r ≤ run.length := h.weighs r
    have hrecord : Spent weight budget run.length t
        { t with
          currentString := t.currentString, runOffset := i, runSize := run.length, history := t.history ++ [r] } :=
      .one rfl hfits hweighs hbudget'
    have hend := fun string history => h.moved _ string (i + run.length) 0 history hprinted
    refine ⟨(hend _ _).1, ⟨hresumes.currentString.trans hat.1, rfl⟩, Nat.le_add_right i _, ?_, ?_⟩
    · exact Nat.add_le_add_left hlength i
    · rw [Nat.add_sub_cancel_left]
      have hprint := hrecord.trans (.nothing hresumes.history hsame)
      refine (hprint.trans (n := 0) ?_).mono le_rfl
      exact .nothing rfl (hend _ _).2

lemma Discipline.executeCsiCompleteCallback_spec (ht : Resumes Holds budget t t') :
    (t'.executeCsiCompleteCallback invoke).Ends
      (fun t'' => Holds t'' ∧ t''.currentString = t.currentString ∧ t''.runOffset = t.runOffset ∧
        t''.runSize = t.runSize ∧ Spent weight budget 0 t t'')
      (fun t'' => Left t'' ∧ Spent weight budget 0 t t'') := by
  unfold executeCsiCompleteCallback
  cases hpending : t'.onCsiComplete with
  | none =>
    obtain ⟨hholds, hbudget⟩ := ht.settle hpending
    exact ⟨hholds, ht.currentString, ht.runOffset, ht.runSize, .nothing ht.history hbudget⟩
  | some callback =>
    obtain ⟨b, macroId, hset, hbuffer⟩ := (ht.pending.resolve_left fun h => by
      rw [hpending] at h
      exact nomatch h).2
    rw [hpending] at hset
    cases hset
    have hinvoked := h.invoked { t' with onCsiComplete := none } b macroId ht.holds hbuffer
    have hbefore : Spent weight budget 0 t { t' with onCsiComplete := none } := .nothing ht.history ht.budget
    dsimp only
    cases hcompletion : invoke b macroId { t' with onCsiComplete := none } with
    | returned t'' =>
      rw [hcompletion] at hinvoked
      obtain ⟨hholds, hspent⟩ := hinvoked
      obtain ⟨hrestored, hbudget⟩ := h.moved t'' t'.currentString t'.runOffset t'.runSize t''.history hholds
      refine ⟨hrestored, ht.currentString, ht.runOffset, ht.runSize, (hbefore.trans hspent).trans (n := 0) ?_⟩
      exact .nothing rfl hbudget
    | threw t'' =>
      rw [hcompletion] at hinvoked
      exact ⟨hinvoked.1, hbefore.trans hinvoked.2⟩
    | unbounded =>
      rw [hcompletion] at hinvoked
      exact hinvoked

/-- One character, with what it invokes. -/
lemma Discipline.processOne_spec (ht : Holds t) {i : ℕ} (hat : IsAt own i t) :
    (t.processOne engine throws invoke own i).Ends
      (fun t' => Holds t' ∧ IsAt own (i + 1) t' ∧ Spent weight budget 1 t t')
      (fun t' => Left t' ∧ Spent weight budget 1 t t') := by
  let r : Record := .processed (t.depthOf own) own i 1 t.currentString t.runOffset (t.runSize + 1)
  obtain ⟨hrecorded, hbudget⟩ := h.moved t t.currentString t.runOffset (t.runSize + 1) (t.history ++ [r]) ht
  have hplace := hat.2
  have hfits : r.Fits := ⟨h.depth t ht, hat.1, show t.runOffset + (t.runSize + 1) = i + 1 by omega⟩
  have hrecord := @Spent.one weight budget 1 t _ r rfl hfits (h.weighs r) hbudget
  have hresumes := h.character _ i hrecorded
  have hcallback := h.executeCsiCompleteCallback_spec hresumes
  unfold processOne
  dsimp only
  split
  · refine hcallback.imp (fun t' ht' => ?_) fun t' ht' => ?_
    · obtain ⟨hholds, hstring, hoffset, hsize, hspent⟩ := ht'
      refine ⟨hholds, ⟨hstring.trans hat.1, ?_⟩, hrecord.trans hspent⟩
      calc t'.runOffset + t'.runSize = t.runOffset + (t.runSize + 1) := by rw [hoffset, hsize]
        _ = i + 1 := by omega
    · exact ⟨ht'.1, hrecord.trans ht'.2⟩
  · next hnot =>
    obtain ⟨hholds, hsame⟩ := hresumes.settle (hresumes.pending.resolve_right fun hset => hnot hset.1)
    have hspent := hrecord.trans (.nothing hresumes.history hsame)
    split
    · exact ⟨h.left _ hholds, hspent⟩
    · refine ⟨hholds, ⟨hresumes.currentString.trans hat.1, ?_⟩, hspent⟩
      calc _ = t.runOffset + (t.runSize + 1) := congrArg₂ (· + ·) hresumes.runOffset hresumes.runSize
        _ = i + 1 := by omega

/-- The loops come to the end of the string. -/
lemma Discipline.processFrom_spec {size : ℕ} (rounds : ℕ) {i : ℕ} (hi : i ≤ size) (hrounds : size ≤ i + rounds)
    (ht : Holds t) (hat : IsAt own i t) :
    (processFrom engine throws invoke own size rounds i t).Ends
      (fun t' => Holds t' ∧ IsAt own size t' ∧ Spent weight budget (size - i) t t')
      (fun t' => Left t' ∧ Spent weight budget (size - i) t t') := by
  induction rounds generalizing i t with
  | zero =>
    have hend : i = size := Nat.le_antisymm hi hrounds
    exact ⟨ht, hend ▸ hat, (Spent.nothing rfl rfl).mono (Nat.zero_le _)⟩
  | succ rounds ih =>
    have hcharacter {t' : Terminal} {j : ℕ} (hj : j < size) (hij : i ≤ j) (hholds : Holds t') (hat' : IsAt own j t')
        (hspent : Spent weight budget (j - i) t t') :=
      @Completion.Ends.next _ _
        (fun t'' => Holds t'' ∧ IsAt own size t'' ∧ Spent weight budget (size - i) t t'')
        (fun t'' => Left t'' ∧ Spent weight budget (size - i) t t'') _
        (fun t'' => processFrom engine throws invoke own size rounds (j + 1) t'')
        (@Discipline.processOne_spec engine throws invoke own Holds Left budget weight t' h hholds j hat')
        (by
          rintro t'' ⟨hholds', hat'', hspent'⟩
          refine (ih hj (by omega) hholds' hat'').imp (fun t₃ ht₃ => ?_) fun t₃ ht₃ => ?_
          · exact ⟨ht₃.1, ht₃.2.1, ((hspent.trans hspent').trans ht₃.2.2).mono (by omega)⟩
          · exact ⟨ht₃.1, ((hspent.trans hspent').trans ht₃.2).mono (by omega)⟩)
        (by
          intro t'' ht''
          exact ⟨ht''.1, (hspent.trans ht''.2).mono (by omega)⟩)
    unfold processFrom
    split
    swap
    · next hend =>
      have hend : i = size := by omega
      exact ⟨ht, hend ▸ hat, (Spent.nothing rfl rfl).mono (Nat.zero_le _)⟩
    next hlt =>
    by_cases hground : t.machine.state = .ground
    · rw [if_pos hground]
      obtain ⟨hprinted, hat', hle, hbound, hspent⟩ := h.printRun_spec ht hat size
      dsimp only
      split
      · next hlt' => exact hcharacter hlt' hle hprinted hat' hspent
      · have hend : (t.printRun engine own size i).2 = size := by omega
        rw [hend] at hat'
        exact ⟨hprinted, hat', hspent.mono (by omega)⟩
    · rw [if_neg hground]
      dsimp only
      rw [if_pos hlt]
      refine hcharacter hlt le_rfl ht hat ?_
      rw [Nat.sub_self]
      exact .nothing rfl rfl

theorem Discipline.processString_spec (ht : Holds t) :
    (t.processString engine throws invoke own).Ends
      (fun t' => Holds t' ∧ IsAt own (t.text own).length t' ∧ Spent weight budget (t.text own).length t t')
      (fun t' => Left t' ∧ Spent weight budget (t.text own).length t t') := by
  obtain ⟨hstart, hbudget⟩ := h.moved t own 0 0 t.history ht
  have hbegun : Spent weight budget 0 t { t with currentString := own, runOffset := 0, runSize := 0 } :=
    .nothing rfl hbudget
  have hloop := @Discipline.processFrom_spec engine throws invoke own Holds Left budget weight _ h
    (t.text own).length (t.text own).length 0 (Nat.zero_le _) (Nat.le_add_left _ 0) hstart ⟨rfl, rfl⟩
  unfold processString
  dsimp only
  split
  · next t' hcompletion =>
    rw [hcompletion] at hloop
    obtain ⟨hholds, hat, hspent⟩ := hloop
    obtain ⟨hresumes, hnone⟩ := h.finish t' hholds
    obtain ⟨hfinished, hsame⟩ := hresumes.settle hnone
    have hall := (hbegun.trans hspent).trans (.nothing hresumes.history hsame)
    refine ⟨hfinished, ⟨hresumes.currentString.trans hat.1, ?_⟩, hall.mono (by omega)⟩
    calc _ = t'.runOffset + t'.runSize := congrArg₂ (· + ·) hresumes.runOffset hresumes.runSize
      _ = (t.text own).length := hat.2
  · next completion hnot =>
    cases hcompletion : processFrom engine throws invoke own (t.text own).length (t.text own).length 0
        { t with currentString := own, runOffset := 0, runSize := 0 } with
    | returned t' => exact absurd hcompletion (hnot t')
    | threw t' =>
      rw [hcompletion] at hloop
      exact ⟨hloop.1, (hbegun.trans hloop.2).mono (by omega)⟩
    | unbounded =>
      rw [hcompletion] at hloop
      exact hloop

end Loops

/-! ### Macros that are running -/

/-- A buffer runs macros to a depth, and nothing else is invoked. -/
structure Engaged (b d : ℕ) (t : Terminal) : Prop where
  depth : (t.buffers b).invokedDepth = d
  sequence : (t.buffers b).invokedSequenceLength < maxSpace
  others : ∀ x, x ≠ b → (t.buffers x).Idle
  pending : t.onCsiComplete = none

structure Running (b d : ℕ) (t : Terminal) : Prop where
  engaged : Engaged b d t
  attached : t.macroBuffer = some b ∨ Quiet b t

/-- Nothing is being invoked, in any buffer. -/
structure AtRest (t : Terminal) : Prop where
  idle : ∀ x, (t.buffers x).Idle
  pending : t.onCsiComplete = none

/-- What has been invoked of a buffer. -/
def invokedOf (b : ℕ) (t : Terminal) : ℕ := (t.buffers b).invokedSequenceLength

section Running

variable {engine : Engine} {b d : ℕ} {t : Terminal} {f : StateMachine → StateMachine}

/-- A part of `ProcessString` in a buffer that is in use. -/
lemma Running.resumes (h : Running b d t) (hd : 0 < d) (hb : t.macroBuffer = some b)
    (hf : Reports { t.machine with currentRun := t.currentRun } (f { t.machine with currentRun := t.currentRun })) :
    Resumes (Running b d) (invokedOf b) t (t.handle f) := by
  have hhandled := handle_spec t f hf
  have hplace := hhandled.place
  have hcounts := hhandled.counts fun hnone => by
    rw [hb] at hnone
    exact nomatch hnone
  have hrunning := hhandled.running b hb (by rw [h.engaged.depth]; exact hd)
  refine ⟨hplace.currentString, hplace.runOffset, hplace.runSize, hplace.history, (hcounts b).sequence,
    ⟨⟨(hcounts b).depth.trans h.engaged.depth, ?_, fun x hx => (h.engaged.others x hx).of_same (hcounts x), rfl⟩, ?_⟩,
    hhandled.pending h.engaged.pending⟩
  · exact lt_of_eq_of_lt (hcounts b).sequence h.engaged.sequence
  · exact hrunning.imp id fun hquiet => ⟨hquiet.detached, hquiet.ground, hquiet.macros⟩

/-- A part of `ProcessString` that tells the engine nothing about macros. -/
lemma Quiet.resumes (hquiet : Quiet b t) (h : Engaged b d t) {machine : StateMachine} (hmachine : machine.state = .ground)
    (hhandle : t.handle f = { t with machine }) :
    Resumes (Running b d) (invokedOf b) t (t.handle f) ∧ (t.handle f).onCsiComplete = none := by
  rw [hhandle]
  exact ⟨⟨rfl, rfl, rfl, rfl, rfl,
    ⟨⟨h.depth, h.sequence, h.others, rfl⟩, .inr ⟨hquiet.detached, hmachine, hquiet.macros⟩⟩, .inl h.pending⟩, h.pending⟩

/-- A null character at ground. -/
lemma Quiet.null (hquiet : Quiet b t) : ∃ machine : StateMachine, machine.state = .ground ∧
    (t.handle fun m => m.processCharacter engine 0) = { t with machine } := by
  have hactions (m : StateMachine) (hm : m.state = .ground) :
      m.processCharacter engine 0 = (m.call engine (.execute 0)).afterCall engine := by
    unfold StateMachine.processCharacter StateMachine.processPlain StateMachine.actions
    rw [hm]
    rfl
  obtain ⟨back, hcalls, hback⟩ := VT7.Parser.afterCall_passes engine
    ({ t.machine with currentRun := t.currentRun }.call engine (.execute 0))
  refine ⟨({ t.machine with currentRun := t.currentRun }.call engine (.execute 0)).afterCall engine, ?_, ?_⟩
  · rw [(VT7.Parser.afterCall_frame engine _).state]
    exact hquiet.ground
  · unfold handle
    dsimp only
    rw [hactions { t.machine with currentRun := t.currentRun } hquiet.ground, hcalls]
    show ((t.machine.calls ++ [_] ++ back).drop t.machine.calls.length).foldl dispatch _ = _
    rw [List.append_assoc, List.drop_left]
    exact foldl_passThrough hback _

lemma Quiet.getD_eq (hquiet : Quiet b t) (macroId : Fin 64) (i : ℕ) :
    (t.text (.stored b macroId)).getD i 0 = 0 := by
  rw [List.getD_eq_getElem?_getD]
  cases hch : (t.text (.stored b macroId))[i]? with
  | none => rfl
  | some ch => exact hquiet.macros macroId ch (List.mem_of_getElem? hch)

lemma Quiet.finish (hquiet : Quiet b t) :
    (t.handle fun m => m.endOfString engine) = { t with machine := { t.machine with currentRun := t.currentRun } } := by
  have hend : StateMachine.endOfString engine { t.machine with currentRun := t.currentRun } =
      { t.machine with currentRun := t.currentRun } := by
    unfold StateMachine.endOfString
    exact if_neg (not_not.mpr hquiet.ground)
  unfold handle
  dsimp only
  rw [hend, List.drop_length]
  rfl

/-- A print run reports no sequence. -/
lemma print_adds (m : StateMachine) (run : List UInt16) :
    Adds (fun c => c.isEscDispatch = false ∧ c.isCsiDispatch = false) m
      ((m.quietCall (.printString run)).afterCall engine) := by
  exact (VT7.Parser.called_adds ⟨rfl, rfl⟩ fun c hc => VT7.Parser.not_escDispatch_of_passThrough hc).2

lemma print_reports (m : StateMachine) (run : List UInt16) :
    Reports m ((m.quietCall (.printString run)).afterCall engine) :=
  .of_adds ((print_adds m run).mono fun _ hc => hc.1)

/-- The discipline of a macro that is running. -/
lemma running_discipline (hd : 0 < d) (hbound : d ≤ 16) {invoke : ℕ → ℕ → Terminal → Completion} (macroId : Fin 64)
    (hinvoke : ∀ t macroId, Running b d t → (invoke b macroId t).Ends
      (fun t' => Running b d t' ∧ Spent Record.count (invokedOf b) 0 t t')
      (fun t' => Engaged b d t' ∧ Spent Record.count (invokedOf b) 0 t t')) :
    Discipline engine invoke (.stored b macroId) (Running b d) (Engaged b d) (invokedOf b) Record.count where
  weighs r := le_rfl
  idle t ht := ht.engaged.pending
  left t ht := ht.engaged
  depth t ht := by
    show (t.buffers b).invokedDepth ≤ 16
    rw [ht.engaged.depth]
    exact hbound
  moved t string offset size history ht :=
    ⟨⟨⟨ht.engaged.depth, ht.engaged.sequence, ht.engaged.others, ht.engaged.pending⟩,
      ht.attached.imp id fun hquiet => ⟨hquiet.detached, hquiet.ground, hquiet.macros⟩⟩, rfl⟩
  print t run ht hne hrun := by
    rcases ht.attached with hb | hquiet
    · have hresumes := ht.resumes (f := fun m => (m.quietCall (.printString run)).afterCall engine) hd hb
        (print_reports _ run)
      exact ⟨hresumes, (handle_spec t _ (print_reports _ run)).quiet ht.engaged.pending
        ((print_adds _ run).mono fun _ hc => hc.2)⟩
    · obtain ⟨ch, run, rfl⟩ := List.exists_cons_of_ne_nil hne
      obtain ⟨hch, hplain⟩ := hrun ch List.mem_cons_self
      rw [hquiet.macros macroId ch hch] at hplain
      exact absurd hplain (by decide)
  character t i ht := by
    rcases ht.attached with hb | hquiet
    · exact ht.resumes hd hb (VT7.Parser.processCharacter_reports _ _)
    · obtain ⟨machine, hmachine, hhandle⟩ := @Quiet.null engine b t hquiet
      rw [hquiet.getD_eq macroId i]
      exact (hquiet.resumes ht.engaged hmachine hhandle).1
  finish t ht := by
    rcases ht.attached with hb | hquiet
    · have hreports := @VT7.Parser.endOfString_reports engine { t.machine with currentRun := t.currentRun }
      exact ⟨ht.resumes hd hb hreports.1, (handle_spec t _ hreports.1).quiet ht.engaged.pending hreports.2⟩
    · have hground : ({ t.machine with currentRun := t.currentRun } : StateMachine).state = .ground := hquiet.ground
      exact hquiet.resumes ht.engaged hground hquiet.finish
  invoked t b' macroId ht hb' := by
    rcases ht.attached with hb | hquiet
    · rw [hb] at hb'
      cases hb'
      exact hinvoke t macroId ht
    · rw [hquiet.detached] at hb'
      exact nomatch hb'

end Running

/-! ### Invocations -/

section Invocations

variable (engine : Engine) (throws : StateMachine → Bool) {b d : ℕ} {t t' : Terminal}

/-- The state in which `InvokeMacro` hands a macro to the parser. -/
def entered (b macroId : ℕ) (t : Terminal) : Terminal :=
  (t.record (.invoked (t.buffers b).invokedSequenceLength)).withBuffer b (·.enterMacro macroId)

lemma entered_buffer (t : Terminal) (b macroId : ℕ) :
    (t.entered b macroId).buffers b = (t.buffers b).enterMacro macroId :=
  Function.update_self ..

lemma entered_others (t : Terminal) {b x : ℕ} (hx : x ≠ b) (macroId : ℕ) :
    (t.entered b macroId).buffers x = t.buffers x :=
  Function.update_of_ne hx _ _

lemma enterMacro_eq (buffer : MacroBuffer) {macroId : ℕ} (hid : macroId < 64) :
    buffer.enterMacro macroId =
      { buffer with
        invokedSequenceLength := buffer.invokedSequenceLength + (buffer.macros ⟨macroId, hid⟩).length
        invokedDepth := buffer.invokedDepth + 1 } := by
  unfold MacroBuffer.enterMacro
  rw [dif_pos hid]

/-- A macro is paid for before it runs. -/
lemma Running.enter (h : Running b d t) {macroId : ℕ} (hid : macroId < 64)
    (hmay : (t.buffers b).mayInvoke macroId = true) :
    d < 16 ∧ Running b (d + 1) (t.entered b macroId) ∧
      invokedOf b (t.entered b macroId) = invokedOf b t + ((t.entered b macroId).text (.stored b ⟨macroId, hid⟩)).length := by
  have hsequence := h.engaged.sequence
  unfold MacroBuffer.mayInvoke at hmay
  rw [dif_pos hid, Bool.and_eq_true, decide_eq_true_iff, decide_eq_true_iff, h.engaged.depth,
    sizeSub_of_le hsequence.le maxSpace_lt] at hmay
  have hbuffer := (entered_buffer t b macroId).trans (enterMacro_eq _ hid)
  have hmacros : ((t.entered b macroId).buffers b).macros = (t.buffers b).macros := by rw [hbuffer]
  refine ⟨hmay.1, ⟨⟨?_, ?_, fun x hx => ?_, h.engaged.pending⟩, ?_⟩, ?_⟩
  · rw [hbuffer, ← h.engaged.depth]
  · rw [hbuffer]
    dsimp only
    omega
  · rw [entered_others t hx]
    exact h.engaged.others x hx
  · refine h.attached.imp id fun hquiet => ⟨hquiet.detached, hquiet.ground, ?_⟩
    rw [hmacros]
    exact hquiet.macros
  · show ((t.entered b macroId).buffers b).invokedSequenceLength =
      (t.buffers b).invokedSequenceLength + (((t.entered b macroId).buffers b).macros _).length
    rw [hmacros, hbuffer]

lemma leave_buffer (t : Terminal) (b : ℕ) : (t.withBuffer b (·.leaveMacro)).buffers b = (t.buffers b).leaveMacro :=
  Function.update_self ..

lemma leave_others (t : Terminal) {b x : ℕ} (hx : x ≠ b) : (t.withBuffer b (·.leaveMacro)).buffers x = t.buffers x :=
  Function.update_of_ne hx _ _

/-- The end of a nested invocation gives nothing back. -/
lemma Engaged.leave (h : Engaged b (d + 1) t) (hd : 0 < d) :
    Engaged b d (t.withBuffer b (·.leaveMacro)) ∧ invokedOf b (t.withBuffer b (·.leaveMacro)) = invokedOf b t := by
  have hdepth : (t.buffers b).invokedDepth - 1 = d := by
    have hdepth := h.depth
    omega
  have hsequence : (t.buffers b).leaveMacro.invokedSequenceLength = (t.buffers b).invokedSequenceLength := by
    unfold MacroBuffer.leaveMacro
    rw [hdepth, if_neg hd.ne']
  refine ⟨⟨?_, ?_, fun x hx => ?_, h.pending⟩, ?_⟩
  · rw [leave_buffer]
    exact hdepth
  · rw [leave_buffer, hsequence]
    exact h.sequence
  · rw [leave_others t hx]
    exact h.others x hx
  · unfold invokedOf
    rw [leave_buffer, hsequence]

/-- The end of the root invocation gives everything back. -/
lemma Engaged.leaveRoot (h : Engaged b 1 t) : AtRest (t.withBuffer b (·.leaveMacro)) := by
  refine ⟨fun x => ?_, h.pending⟩
  by_cases hx : x = b
  · have hdepth : (t.buffers b).invokedDepth - 1 = 0 := by
      have hdepth := h.depth
      omega
    rw [hx, leave_buffer]
    refine ⟨hdepth, ?_⟩
    unfold MacroBuffer.leaveMacro
    exact if_pos hdepth
  · rw [leave_others t hx]
    exact h.others x hx

/-- What an invocation records, and what it leaves in the buffer. -/
def PaidFor (b : ℕ) (t t' : Terminal) : Prop := Spent Record.count (invokedOf b) 0 t t'

/-- The string of a macro, given what the invocations in it do. -/
lemma Running.processString_spec (h : Running b d t) {macroId : ℕ} (hid : macroId < 64)
    (hmay : (t.buffers b).mayInvoke macroId = true) {invoke : ℕ → ℕ → Terminal → Completion}
    (hinvoke : ∀ t macroId, Running b (d + 1) t →
      (invoke b macroId t).Ends (fun t' => Running b (d + 1) t' ∧ PaidFor b t t')
        (fun t' => Engaged b (d + 1) t' ∧ PaidFor b t t')) :
    ((t.entered b macroId).processString engine throws invoke (.stored b ⟨macroId, hid⟩)).Ends
      (fun t' => Running b (d + 1) t' ∧ PaidFor b t t') (fun t' => Engaged b (d + 1) t' ∧ PaidFor b t t') := by
  obtain ⟨hd, hentered, hpaid⟩ := h.enter hid hmay
  have hdiscipline := @running_discipline engine b (d + 1) (Nat.succ_pos d) (by omega) invoke ⟨macroId, hid⟩ hinvoke
  have hstring := @Discipline.processString_spec _ throws _ _ _ _ _ _ _ hdiscipline hentered
  have hpay {t' : Terminal} (hspent : Spent Record.count (invokedOf b)
      ((t.entered b macroId).text (.stored b ⟨macroId, hid⟩)).length (t.entered b macroId) t') : PaidFor b t t' := by
    obtain ⟨records, hhistory, hfits, hsum⟩ := hspent
    refine ⟨.invoked (t.buffers b).invokedSequenceLength :: records, ?_, fun r hr => ?_, ?_⟩
    · rw [hhistory]
      exact List.append_assoc ..
    · rcases List.mem_cons.mp hr with rfl | hr
      · exact h.engaged.sequence.le
      · exact hfits r hr
    · rw [List.map_cons, List.sum_cons]
      show 0 + _ + _ ≤ _
      omega
  exact hstring.imp (fun t' ht' => ⟨ht'.1, hpay ht'.2.2⟩) fun t' ht' => ⟨ht'.1, hpay ht'.2⟩

/-- A root invocation processes fewer than `MAX_SPACE` characters. -/
def RootPaid (t t' : Terminal) : Prop :=
  ∃ records, t'.history = t.history ++ records ∧ (∀ r ∈ records, r.Fits) ∧ (records.map Record.count).sum < maxSpace

lemma PaidFor.refused (h : Engaged b d t) :
    PaidFor b t (t.record (.invoked (t.buffers b).invokedSequenceLength)) :=
  .one rfl h.sequence.le le_rfl rfl

/-- `InvokeMacro` where it is refused, and where it is not. -/
lemma invokeMacro_cases (levels b macroId : ℕ) (t : Terminal) :
    t.invokeMacro engine throws (levels + 1) b macroId =
        .returned (t.record (.invoked (t.buffers b).invokedSequenceLength)) ∨
      ∃ hid : macroId < 64, (t.buffers b).mayInvoke macroId = true ∧
        t.invokeMacro engine throws (levels + 1) b macroId =
          match (t.entered b macroId).processString engine throws (invokeMacro engine throws levels)
            (.stored b ⟨macroId, hid⟩) with
          | .returned t => .returned (t.withBuffer b (·.leaveMacro))
          | .threw t => .threw (t.withBuffer b (·.leaveMacro))
          | .unbounded => .unbounded := by
  rw [invokeMacro]
  split
  · next h => exact .inr ⟨h.2, h.1, rfl⟩
  · exact .inl rfl

/-- **A nested invocation** ends, for 16 levels at most. -/
theorem invokeMacro_running (levels : ℕ) (hd : 0 < d) (hbound : d ≤ 16) (hlevels : 17 ≤ levels + d)
    (h : Running b d t) (macroId : ℕ) :
    (t.invokeMacro engine throws levels b macroId).Ends (fun t' => Running b d t' ∧ PaidFor b t t')
      (fun t' => Engaged b d t' ∧ PaidFor b t t') := by
  induction levels generalizing d t macroId with
  | zero => omega
  | succ levels ih =>
    rcases invokeMacro_cases engine throws levels b macroId t with hrefused | ⟨hid, hmay, hinvoked⟩
    · rw [hrefused]
      have hengaged := h.engaged
      exact ⟨⟨⟨hengaged.depth, hengaged.sequence, hengaged.others, hengaged.pending⟩,
        h.attached.imp id fun hquiet => ⟨hquiet.detached, hquiet.ground, hquiet.macros⟩⟩, .refused hengaged⟩
    have hroom := (h.enter hid hmay).1
    have hstring := h.processString_spec engine throws hid hmay fun t macroId ht =>
      ih (Nat.succ_pos d) hroom (by omega) ht macroId
    have hleft {t' : Terminal} (ht' : Engaged b (d + 1) t') (hpaid : PaidFor b t t') :
        Engaged b d (t'.withBuffer b (·.leaveMacro)) ∧ PaidFor b t (t'.withBuffer b (·.leaveMacro)) := by
      obtain ⟨hengaged, hsame⟩ := ht'.leave hd
      exact ⟨hengaged, hpaid.trans (n := 0) (.nothing rfl hsame)⟩
    rw [hinvoked]
    cases hcompletion : (t.entered b macroId).processString engine throws (invokeMacro engine throws levels)
        (.stored b ⟨macroId, hid⟩) with
    | returned t' =>
      rw [hcompletion] at hstring
      obtain ⟨hengaged, hpaid⟩ := hleft hstring.1.engaged hstring.2
      refine ⟨⟨hengaged, hstring.1.attached.imp id fun hquiet => ⟨hquiet.detached, hquiet.ground, ?_⟩⟩, hpaid⟩
      rw [leave_buffer]
      exact hquiet.macros
    | threw t' =>
      rw [hcompletion] at hstring
      exact hleft hstring.1 hstring.2
    | unbounded =>
      rw [hcompletion] at hstring
      exact hstring

/-- **A root invocation** ends. -/
theorem invokeMacro_root {levels : ℕ} (hlevels : 17 ≤ levels) (h : AtRest t) (hb : t.macroBuffer = some b)
    (macroId : ℕ) :
    (t.invokeMacro engine throws levels b macroId).Ends (fun t' => AtRest t' ∧ RootPaid t t')
      (fun t' => AtRest t' ∧ RootPaid t t') := by
  have hunused : invokedOf b t = 0 := (h.idle b).sequence
  have hrunning : Running b 0 t :=
    ⟨⟨(h.idle b).depth, lt_of_eq_of_lt hunused (by decide), fun x _ => h.idle x, h.pending⟩, .inl hb⟩
  obtain ⟨levels, rfl⟩ : ∃ n, levels = n + 1 := ⟨levels - 1, by omega⟩
  rcases invokeMacro_cases engine throws levels b macroId t with hrefused | ⟨hid, hmay, hinvoked⟩
  · rw [hrefused]
    refine ⟨⟨h.idle, h.pending⟩, [.invoked (t.buffers b).invokedSequenceLength], rfl, fun r hr => ?_,
      show 0 + 0 < maxSpace by decide⟩
    rw [List.mem_singleton.mp hr]
    exact hrunning.engaged.sequence.le
  have hstring := hrunning.processString_spec engine throws hid hmay fun t macroId ht =>
    invokeMacro_running engine throws levels Nat.one_pos (by omega) (by omega) ht macroId
  have hleft {t' : Terminal} (ht' : Engaged b 1 t') (hpaid : PaidFor b t t') :
      AtRest (t'.withBuffer b (·.leaveMacro)) ∧ RootPaid t (t'.withBuffer b (·.leaveMacro)) := by
    obtain ⟨records, hhistory, hfits, hsum⟩ := hpaid
    have hsequence : invokedOf b t' < maxSpace := ht'.sequence
    exact ⟨ht'.leaveRoot, records, hhistory, hfits, by omega⟩
  rw [hinvoked]
  cases hcompletion : (t.entered b macroId).processString engine throws (invokeMacro engine throws levels)
      (.stored b ⟨macroId, hid⟩) with
  | returned t' =>
    rw [hcompletion] at hstring
    exact hleft hstring.1.engaged hstring.2
  | threw t' =>
    rw [hcompletion] at hstring
    exact hleft hstring.1 hstring.2
  | unbounded =>
    rw [hcompletion] at hstring
    exact hstring

/-! ### Strings that are received -/

/-- Nothing is counted for a string that was received. -/
def uncounted (_ : Record) : ℕ := 0

def unbudgeted (_ : Terminal) : ℕ := 0

lemma AtRest.resumes {f : StateMachine → StateMachine} (h : AtRest t)
    (hf : Reports { t.machine with currentRun := t.currentRun } (f { t.machine with currentRun := t.currentRun })) :
    Resumes AtRest unbudgeted t (t.handle f) := by
  have hhandled := handle_spec t f hf
  have hplace := hhandled.place
  have hcounts := hhandled.counts fun _ => h.idle
  exact ⟨hplace.currentString, hplace.runOffset, hplace.runSize, hplace.history, rfl,
    ⟨fun x => (h.idle x).of_same (hcounts x), rfl⟩, hhandled.pending h.pending⟩

lemma received_discipline {levels : ℕ} (hlevels : 17 ≤ levels) (text : List UInt16) :
    Discipline engine (invokeMacro engine throws levels) (.received text) AtRest AtRest unbudgeted uncounted where
  weighs r := Nat.zero_le _
  idle t ht := ht.pending
  left t ht := ht
  depth t ht := Nat.zero_le 16
  moved t string offset size history ht := ⟨⟨ht.idle, ht.pending⟩, rfl⟩
  print t run ht hne hrun := ⟨ht.resumes (f := fun m => (m.quietCall (.printString run)).afterCall engine)
    (print_reports _ run), (handle_spec t _ (print_reports _ run)).quiet ht.pending
      ((print_adds _ run).mono fun _ hc => hc.2)⟩
  character t i ht := ht.resumes (VT7.Parser.processCharacter_reports _ _)
  finish t ht := by
    have hreports := @VT7.Parser.endOfString_reports engine { t.machine with currentRun := t.currentRun }
    exact ⟨ht.resumes hreports.1, (handle_spec t _ hreports.1).quiet ht.pending hreports.2⟩
  invoked t b macroId ht hb := by
    have hpaid {t' : Terminal} (h : AtRest t' ∧ RootPaid t t') : AtRest t' ∧ Spent uncounted unbudgeted 0 t t' := by
      obtain ⟨hrest, records, hhistory, hfits, -⟩ := h
      have hsum : (records.map uncounted).sum = 0 := List.sum_eq_zero fun n hn => by
        obtain ⟨r, -, rfl⟩ := List.mem_map.mp hn
        rfl
      exact ⟨hrest, records, hhistory, hfits, by rw [hsum]; exact le_rfl⟩
    exact (invokeMacro_root engine throws hlevels ht hb macroId).imp (fun t' => hpaid) fun t' => hpaid

/-- What a string that was received leaves behind. -/
def Recorded (t t' : Terminal) : Prop :=
  AtRest t' ∧ ∃ records, t'.history = t.history ++ records ∧ ∀ r ∈ records, r.Fits

/-- How invocations end, from a terminal on in which nothing is invoked: a root invocation processes fewer than
`MAX_SPACE` characters and leaves the counts as they were, whether it returns or throws; a string that was received
comes to its end with its own run; and a string that an invocation interrupts gets its run back. -/
structure InvocationsEnd (levels : ℕ) (t : Terminal) : Prop where
  root : ∀ b macroId, t.macroBuffer = some b → (t.invokeMacro engine throws levels b macroId).Ends
    (fun t' => AtRest t' ∧ RootPaid t t') (fun t' => AtRest t' ∧ RootPaid t t')
  received : ∀ text, (t.processString engine throws (invokeMacro engine throws levels) (.received text)).Ends
    (fun t' => Recorded t t' ∧ IsAt (.received text) text.length t') (Recorded t)
  resumed : ∀ (t' t'' : Terminal) (invoke : ℕ → ℕ → Terminal → Completion),
    t'.executeCsiCompleteCallback invoke = .returned t'' →
      t''.currentString = t'.currentString ∧ t''.runOffset = t'.runOffset ∧ t''.runSize = t'.runSize

lemma received_ends {levels : ℕ} (hlevels : 17 ≤ levels) (h : AtRest t) (text : List UInt16) :
    (t.processString engine throws (invokeMacro engine throws levels) (.received text)).Ends
      (fun t' => Recorded t t' ∧ IsAt (.received text) text.length t') (Recorded t) := by
  have hstring := @Discipline.processString_spec engine throws _ _ _ _ _ _ t
    (received_discipline engine throws hlevels text) h
  have hrecorded {t' : Terminal} (hrest : AtRest t') {n : ℕ} (hspent : Spent uncounted unbudgeted n t t') :
      Recorded t t' := by
    obtain ⟨records, hhistory, hfits, -⟩ := hspent
    exact ⟨hrest, records, hhistory, hfits⟩
  exact hstring.imp (fun t' ht' => ⟨hrecorded ht'.1 ht'.2.2, ht'.2.1⟩) fun t' ht' => hrecorded ht'.1 ht'.2

lemma executeCsiCompleteCallback_resumed {t'' : Terminal} {invoke : ℕ → ℕ → Terminal → Completion}
    (hreturned : t'.executeCsiCompleteCallback invoke = .returned t'') :
    t''.currentString = t'.currentString ∧ t''.runOffset = t'.runOffset ∧ t''.runSize = t'.runSize := by
  unfold executeCsiCompleteCallback at hreturned
  split at hreturned
  · cases hreturned
    exact ⟨rfl, rfl, rfl⟩
  · split at hreturned
    · cases hreturned
      exact ⟨rfl, rfl, rfl⟩
    · next hnot => exact absurd hreturned (hnot _)

/-- **Every invocation of a macro ends.** -/
theorem macroInvocation_ends {levels : ℕ} (hlevels : 17 ≤ levels) (h : AtRest t) :
    InvocationsEnd engine throws levels t where
  root _ macroId hb := invokeMacro_root engine throws hlevels h hb macroId
  received text := received_ends engine throws hlevels h text
  resumed _ _ _ hreturned := executeCsiCompleteCallback_resumed hreturned

/-- A macro that invokes itself twice: `ESC [ 0 * z ESC [ 0 * z`. -/
def selfInvoking : Terminal where
  machine := { parserMode := { acceptC1 := false, ansi := true } }
  buffers _ :=
    { macros := fun _ => [0x1b, 0x5b, 0x30, 0x2a, 0x7a, 0x1b, 0x5b, 0x30, 0x2a, 0x7a]
      activeMacroId := Fin.last 63 }
  made := 1
  macroBuffer := some 0

theorem selfInvoking_ends : InvocationsEnd VT7.Parser.acceptingEngine (fun _ => false) 17 selfInvoking :=
  macroInvocation_ends VT7.Parser.acceptingEngine (fun _ => false) (Nat.le_refl 17) ⟨fun _ => ⟨rfl, rfl⟩, rfl⟩

end Invocations

end Terminal

end VT7.Adapter
