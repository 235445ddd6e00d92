import VT7.Adapter.InvokedStrings
import VT7.Adapter.MacroDefinition
import VT7.Parser.Dispatches

/-!
# What the engine does to the macros

A part of `ProcessString` leaves the depth and the budget of every macro buffer alone.  It may register the callback
that invokes a macro, and a reset in it leaves only null characters in the macros that are running (`Quiet`).
-/

namespace VT7.Adapter

open VT7.Parser (StateMachine Engine EngineCall Adds News Reports isActionableFromGround)

/-! ### What the engine does to the counts -/

/-- The depth and the budget of a buffer are the same. -/
structure SameCounts (b b' : MacroBuffer) : Prop where
  depth : b'.invokedDepth = b.invokedDepth
  sequence : b'.invokedSequenceLength = b.invokedSequenceLength

/-- Nothing is being invoked. -/
structure MacroBuffer.Idle (b : MacroBuffer) : Prop where
  depth : b.invokedDepth = 0
  sequence : b.invokedSequenceLength = 0

section Counts

variable {b b' b'' : MacroBuffer}

lemma SameCounts.refl (b : MacroBuffer) : SameCounts b b := ⟨rfl, rfl⟩

lemma SameCounts.trans (h : SameCounts b b') (h' : SameCounts b' b'') : SameCounts b b'' :=
  ⟨h'.depth.trans h.depth, h'.sequence.trans h.sequence⟩

lemma MacroBuffer.Idle.of_same (h : b.Idle) (hsame : SameCounts b b') : b'.Idle :=
  ⟨hsame.depth.trans h.depth, hsame.sequence.trans h.sequence⟩

lemma appendCopies_counts (sequenceLength copies : ℕ) (b : MacroBuffer) :
    SameCounts b (MacroBuffer.appendCopies sequenceLength copies b) := by
  induction copies generalizing b with
  | zero => exact .refl b
  | succ copies ih =>
    rw [MacroBuffer.appendCopies]
    exact ⟨(ih _).depth, (ih _).sequence⟩

lemma applyPendingRepeat_counts (b : MacroBuffer) : SameCounts b b.applyPendingRepeat.1 := by
  unfold MacroBuffer.applyPendingRepeat
  dsimp only
  split_ifs
  · exact .refl b
  · have hcopies := appendCopies_counts (sizeSub b.activeMacro.length b.repeatStart) (b.repeatCount - 1) b
    exact ⟨hcopies.depth, hcopies.sequence⟩
  · exact ⟨rfl, rfl⟩

lemma decodeHexDigit_counts (b : MacroBuffer) (ch : UInt16) : SameCounts b (b.decodeHexDigit ch).1 := by
  unfold MacroBuffer.decodeHexDigit
  split_ifs <;> exact ⟨rfl, rfl⟩

lemma appendToActiveMacro_counts (b : MacroBuffer) (ch : UInt16) : SameCounts b (b.appendToActiveMacro ch).1 := by
  unfold MacroBuffer.appendToActiveMacro
  split
  · exact ⟨rfl, rfl⟩
  · exact .refl b

lemma parseCharacter_counts (b : MacroBuffer) (ch : UInt16) : SameCounts b (b.parseCharacter ch).1 := by
  have hdigit := decodeHexDigit_counts b ch
  unfold MacroBuffer.parseCharacter
  cases b.parseState with
  | expectingText => exact appendToActiveMacro_counts b ch
  | expectingHexDigit =>
    dsimp only
    split_ifs
    · exact ⟨hdigit.depth, hdigit.sequence⟩
    · exact ⟨hdigit.depth, hdigit.sequence⟩
    · exact hdigit.trans (applyPendingRepeat_counts _)
    · exact hdigit
  | expectingSecondHexDigit =>
    dsimp only
    split
    · have happend := appendToActiveMacro_counts (b.decodeHexDigit ch).1 (b.decodeHexDigit ch).1.decodedChar
      exact hdigit.trans ⟨happend.depth, happend.sequence⟩
    · exact ⟨hdigit.depth, hdigit.sequence⟩
  | expectingRepeatCount =>
    dsimp only
    split_ifs <;> exact ⟨rfl, rfl⟩

lemma parseDefinition_counts (b : MacroBuffer) (ch : UInt16) : SameCounts b (b.parseDefinition ch).1 := by
  have hrepeat := applyPendingRepeat_counts b
  have hcharacter := parseCharacter_counts b ch
  unfold MacroBuffer.parseDefinition
  dsimp only
  split_ifs
  · exact hrepeat
  · exact ⟨hrepeat.depth, hrepeat.sequence⟩
  · exact .refl b
  · exact .refl b
  · exact hcharacter
  · exact ⟨hcharacter.depth, hcharacter.sequence⟩

lemma deleteAll_counts (ids : List (Fin 64)) (b : MacroBuffer) :
    SameCounts b (ids.foldl MacroBuffer.deleteMacro b) := by
  induction ids generalizing b with
  | nil => exact .refl b
  | cons id ids ih =>
    rw [List.foldl_cons]
    exact ⟨(ih _).depth, (ih _).sequence⟩

lemma deleteFor_counts (b : MacroBuffer) (deleteControl : MacroDeleteControl) :
    SameCounts b (b.deleteFor deleteControl).1 := by
  cases deleteControl with
  | deleteId => exact ⟨rfl, rfl⟩
  | deleteAll => exact deleteAll_counts _ b
  | other => exact .refl b

lemma initParser_counts (b : MacroBuffer) (macroId : ℕ) (deleteControl : MacroDeleteControl)
    (encoding : MacroEncoding) : SameCounts b (b.initParser macroId deleteControl encoding).1 := by
  have hdelete (b' : MacroBuffer) (hsame : SameCounts b b') : SameCounts b (b'.deleteFor deleteControl).1 :=
    hsame.trans (deleteFor_counts b' deleteControl)
  unfold MacroBuffer.initParser
  split
  · cases encoding with
    | text | hexPair => exact hdelete _ ⟨rfl, rfl⟩
    | other => exact ⟨rfl, rfl⟩
  · exact .refl b

lemma clearMacrosIfInUse_counts (b : MacroBuffer) : SameCounts b b.clearMacrosIfInUse := by
  unfold MacroBuffer.clearMacrosIfInUse
  split
  · exact ⟨rfl, rfl⟩
  · exact .refl b

end Counts

/-! ### Calls of the engine -/

namespace Terminal

/-- Everything but the macros and the callback is the same. -/
structure SamePlace (t t' : Terminal) : Prop where
  machine : t'.machine = t.machine
  currentString : t'.currentString = t.currentString
  runOffset : t'.runOffset = t.runOffset
  runSize : t'.runSize = t.runSize
  history : t'.history = t.history

/-- What calls of the engine do that are no escape sequences.  A buffer is made only where nothing is being invoked. -/
structure Dispatched (t t' : Terminal) (news : List EngineCall) : Prop where
  place : SamePlace t t'
  buffer : ∀ b, t.macroBuffer = some b → t'.macroBuffer = some b
  counts : (t.macroBuffer = none → ∀ x, (t.buffers x).Idle) → ∀ x, SameCounts (t.buffers x) (t'.buffers x)
  pending : t'.onCsiComplete = t.onCsiComplete ∨
    news.any EngineCall.isCsiDispatch = true ∧
      ∃ b macroId, t'.onCsiComplete = some (b, macroId) ∧ t'.macroBuffer = some b

variable {t t' t'' : Terminal}

lemma SamePlace.refl (t : Terminal) : SamePlace t t := ⟨rfl, rfl, rfl, rfl, rfl⟩

lemma SamePlace.trans (h : SamePlace t t') (h' : SamePlace t' t'') : SamePlace t t'' :=
  ⟨h'.machine.trans h.machine, h'.currentString.trans h.currentString, h'.runOffset.trans h.runOffset,
    h'.runSize.trans h.runSize, h'.history.trans h.history⟩

lemma Dispatched.refl (t : Terminal) (news : List EngineCall) : Dispatched t t news :=
  ⟨.refl t, fun _ h => h, fun _ _ => .refl _, .inl rfl⟩

lemma withBuffer_counts {b : ℕ} {f : MacroBuffer → MacroBuffer}
    (hf : SameCounts (t.buffers b) (f (t.buffers b))) (x : ℕ) :
    SameCounts (t.buffers x) ((t.withBuffer b f).buffers x) := by
  show SameCounts _ (Function.update t.buffers b _ x)
  by_cases hx : x = b
  · rw [hx, Function.update_self]
    exact hf
  · rw [Function.update_of_ne hx]
    exact .refl _

lemma invokeLater_dispatched (macroId : ℕ) {news : List EngineCall}
    (hnews : news.any EngineCall.isCsiDispatch = true) : Dispatched t (t.invokeLater macroId) news := by
  unfold invokeLater
  split
  · next b hbuffer =>
    exact ⟨⟨rfl, rfl, rfl, rfl, rfl⟩, fun _ h => h, fun _ _ => .refl _, .inr ⟨hnews, b, macroId, rfl, hbuffer⟩⟩
  · exact .refl t news

lemma ensureBuffer_spec (t : Terminal) :
    Dispatched t t.ensureBuffer.1 [] ∧ t.ensureBuffer.1.macroBuffer = some t.ensureBuffer.2 := by
  unfold ensureBuffer
  split
  · next b hbuffer => exact ⟨.refl t [], hbuffer⟩
  · next hnone =>
    refine ⟨⟨⟨rfl, rfl, rfl, rfl, rfl⟩, fun b h => ?_, fun hidle x => ?_, .inl rfl⟩, rfl⟩
    · rw [hnone] at h
      exact nomatch h
    · have hmade := hidle hnone t.made
      exact @withBuffer_counts t t.made (fun _ => {}) ⟨hmade.depth.symm, hmade.sequence.symm⟩ x

lemma defineMacro_dispatched (macroId : ℕ) (deleteControl : MacroDeleteControl) (encoding : MacroEncoding)
    (news : List EngineCall) : Dispatched t (t.defineMacro macroId deleteControl encoding) news := by
  obtain ⟨⟨hplace, hkept, hcounts, hpending⟩, -⟩ := ensureBuffer_spec t
  have hinit := initParser_counts (t.ensureBuffer.1.buffers t.ensureBuffer.2) macroId deleteControl encoding
  refine ⟨⟨hplace.machine, hplace.currentString, hplace.runOffset, hplace.runSize, hplace.history⟩, hkept,
    fun hidle x => (hcounts hidle x).trans ?_, .inl (hpending.resolve_right fun h => nomatch h.1)⟩
  exact @withBuffer_counts t.ensureBuffer.1 t.ensureBuffer.2 (fun _ => _) hinit x

lemma parseDefinition_dispatched (ch : UInt16) (news : List EngineCall) :
    Dispatched t (t.parseDefinition ch) news := by
  unfold parseDefinition
  split
  · exact ⟨⟨rfl, rfl, rfl, rfl, rfl⟩, fun _ h => h, fun _ => withBuffer_counts (parseDefinition_counts _ ch), .inl rfl⟩
  · exact .refl t news

lemma dispatch_dispatched {c : EngineCall} (hc : c.isEscDispatch = false) : Dispatched t (t.dispatch c) [c] := by
  cases c with
  | csiDispatch id parameters subParameters ranges =>
    rw [dispatch]
    split
    · exact invokeLater_dispatched _ rfl
    · exact .refl t _
  | escDispatch id => exact nomatch hc
  | dcsDispatch id parameters =>
    have hcounted : Dispatched t { t with handlers := t.handlers + 1 } [.dcsDispatch id parameters] :=
      ⟨⟨rfl, rfl, rfl, rfl, rfl⟩, fun _ h => h, fun _ _ => .refl _, .inl rfl⟩
    rw [dispatch]
    split
    · obtain ⟨hplace, hkept, hcounts, hpending⟩ :=
        @defineMacro_dispatched { t with handlers := t.handlers + 1 } (selectiveOf parameters[0]?).toNat
          (deleteControlOf parameters[1]?) (encodingOf parameters[2]?) [.dcsDispatch id parameters]
      exact ⟨⟨hplace.machine, hplace.currentString, hplace.runOffset, hplace.runSize, hplace.history⟩, hkept, hcounts,
        hpending⟩
    · exact hcounted
  | dcsString handler ch =>
    rw [dispatch]
    split
    · exact parseDefinition_dispatched ch _
    · exact .refl t _
  | _ => exact .refl t _

lemma Dispatched.trans {news news' : List EngineCall} (h : Dispatched t t' news) (h' : Dispatched t' t'' news') :
    Dispatched t t'' (news ++ news') where
  place := h.place.trans h'.place
  buffer b hb := h'.buffer b (h.buffer b hb)
  counts hidle x := by
    refine (h.counts hidle x).trans (h'.counts (fun hnone y => ?_) x)
    have hnone : t.macroBuffer = none := by
      cases hb : t.macroBuffer with
      | none => rfl
      | some b =>
        rw [h.buffer b hb] at hnone
        exact nomatch hnone
    exact (hidle hnone y).of_same (h.counts hidle y)
  pending := by
    rw [List.any_append]
    rcases h'.pending with hsame | ⟨hany, hpending⟩
    · rcases h.pending with hsame' | ⟨hany, b, macroId, hpending, hb⟩
      · exact .inl (hsame.trans hsame')
      · exact .inr ⟨by rw [hany]; rfl, b, macroId, hsame.trans hpending, h'.buffer b hb⟩
    · exact .inr ⟨by rw [hany, Bool.or_true], hpending⟩

/-- Calls that are no escape sequences. -/
theorem foldl_dispatched {news : List EngineCall} (hnews : ∀ c ∈ news, c.isEscDispatch = false) (t : Terminal) :
    Dispatched t (news.foldl dispatch t) news := by
  induction news generalizing t with
  | nil => exact .refl t []
  | cons c news ih =>
    have hfirst : Dispatched t (t.dispatch c) [c] := dispatch_dispatched (hnews c List.mem_cons_self)
    exact hfirst.trans (ih (fun c hc => hnews c (List.mem_cons_of_mem _ hc)) _)

lemma foldl_passThrough {news : List EngineCall} (hnews : ∀ c ∈ news, c.isPassThrough = true) (t : Terminal) :
    news.foldl dispatch t = t := by
  induction news with
  | nil => rfl
  | cons c news ih =>
    have hc := hnews c List.mem_cons_self
    cases c with
    | passThroughString string => exact ih fun c hc => hnews c (List.mem_cons_of_mem _ hc)
    | _ => exact nomatch hc

/-- An escape sequence leaves the counts alone. -/
lemma dispatch_escape (t : Terminal) (id : UInt64) :
    SamePlace t (t.dispatch (.escDispatch id)) ∧
      (∀ x, SameCounts (t.buffers x) ((t.dispatch (.escDispatch id)).buffers x)) ∧
      (t.dispatch (.escDispatch id)).onCsiComplete = t.onCsiComplete := by
  rw [dispatch]
  split
  · unfold hardReset
    split
    · exact ⟨⟨rfl, rfl, rfl, rfl, rfl⟩, withBuffer_counts (clearMacrosIfInUse_counts _), rfl⟩
    · exact ⟨.refl t, fun _ => .refl _, rfl⟩
  · exact ⟨.refl t, fun _ => .refl _, rfl⟩

/-- The parser is at ground, and every macro of a buffer that was given up consists of null characters. -/
structure Quiet (b : ℕ) (t : Terminal) : Prop where
  detached : t.macroBuffer = none
  ground : t.machine.state = .ground
  macros : ∀ macroId, ∀ ch ∈ (t.buffers b).macros macroId, ch = 0

/-- A reset while a macro is running. -/
lemma dispatch_escape_running {b : ℕ} (hb : t.macroBuffer = some b) (hdepth : 0 < (t.buffers b).invokedDepth)
    (id : UInt64) (hground : t.machine.state = .ground) :
    (t.dispatch (.escDispatch id)).macroBuffer = some b ∨ Quiet b (t.dispatch (.escDispatch id)) := by
  rw [dispatch]
  split
  · refine .inr ⟨?_, ?_, fun macroId ch hch => ?_⟩
    · unfold hardReset
      rw [hb]
    · unfold hardReset
      rw [hb]
      exact hground
    · have hbuffer : t.hardReset.buffers b = (t.buffers b).clearMacrosIfInUse := by
        unfold hardReset
        rw [hb]
        exact Function.update_self ..
      rw [hbuffer, MacroBuffer.clearMacrosIfInUse, if_pos hdepth] at hch
      exact List.eq_of_mem_replicate hch
  · exact .inl hb

/-! ### Parts of `ProcessString` -/

/-- What a part of `ProcessString` does that leaves the parser as `machine`. -/
structure Handled (t : Terminal) (machine : StateMachine) (t' : Terminal) : Prop where
  place : SamePlace { t with machine } t'
  counts : (t.macroBuffer = none → ∀ x, (t.buffers x).Idle) → ∀ x, SameCounts (t.buffers x) (t'.buffers x)
  running : ∀ b, t.macroBuffer = some b → 0 < (t.buffers b).invokedDepth → t'.macroBuffer = some b ∨ Quiet b t'
  pending : t.onCsiComplete = none → t'.onCsiComplete = none ∨ t'.completedCsi t.machine = true ∧
    ∃ b macroId, t'.onCsiComplete = some (b, macroId) ∧ t'.macroBuffer = some b

/-- **A part of `ProcessString`** whose calls are as reported. -/
theorem handle_spec (t : Terminal) (f : StateMachine → StateMachine)
    (hf : Reports { t.machine with currentRun := t.currentRun } (f { t.machine with currentRun := t.currentRun })) :
    Handled t (f { t.machine with currentRun := t.currentRun }) (t.handle f) := by
  obtain ⟨news, hcalls, hnews⟩ := hf
  have hnew : (f { t.machine with currentRun := t.currentRun }).calls.drop t.machine.calls.length = news := by
    rw [hcalls]
    exact List.drop_left
  have hhandle : t.handle f =
      news.foldl dispatch { t with machine := f { t.machine with currentRun := t.currentRun } } := by
    unfold handle
    dsimp only
    rw [hnew]
  rw [hhandle]
  generalize f { t.machine with currentRun := t.currentRun } = machine at *
  cases hnews with
  | noEscape hnews =>
    have hall := foldl_dispatched hnews { t with machine }
    refine ⟨hall.place, hall.counts, fun b hb _ => .inl (hall.buffer b hb), fun hpending => ?_⟩
    rcases hall.pending with hsame | ⟨hany, hset⟩
    · exact .inl (hsame.trans hpending)
    · refine .inr ⟨?_, hset⟩
      unfold completedCsi
      rw [hall.place.machine, hnew]
      exact hany
  | @escape front back id hstate hfront hback =>
    have hall := foldl_dispatched (fun c hc => (hfront c hc).1) { t with machine }
    rw [List.foldl_append, List.foldl_cons, foldl_passThrough hback]
    obtain ⟨hplace, hcounts, hpending⟩ := dispatch_escape (front.foldl dispatch { t with machine }) id
    refine ⟨hall.place.trans hplace, fun hidle x => (hall.counts hidle x).trans (hcounts x), fun b hb hdepth => ?_,
      fun hnone => .inl ?_⟩
    · have hsame := hall.counts (fun h => by rw [show t.macroBuffer = none from h] at hb; exact nomatch hb) b
      refine dispatch_escape_running (hall.buffer b hb) ?_ id ?_
      · rw [hsame.depth]
        exact hdepth
      · rw [hall.place.machine]
        exact hstate
    · rw [hpending]
      refine (hall.pending.resolve_right fun h => ?_).trans hnone
      obtain ⟨c, hc, hcsi⟩ := List.any_eq_true.mp h.1
      rw [(hfront c hc).2] at hcsi
      exact nomatch hcsi

/-- Where no control sequence was dispatched, nothing is pending. -/
lemma Handled.quiet {machine : StateMachine} (h : Handled t machine t') (hnone : t.onCsiComplete = none)
    (hcalls : Adds (fun c => c.isCsiDispatch = false) { t.machine with currentRun := t.currentRun } machine) :
    t'.onCsiComplete = none := by
  refine (h.pending hnone).resolve_right fun hset => ?_
  obtain ⟨calls, hcalls, hquiet⟩ := hcalls
  have hcompleted := hset.1
  unfold completedCsi at hcompleted
  rw [h.place.machine, hcalls] at hcompleted
  rw [show (t.machine.calls ++ calls).drop t.machine.calls.length = calls from List.drop_left] at hcompleted
  obtain ⟨c, hc, hcsi⟩ := List.any_eq_true.mp hcompleted
  rw [hquiet c hc] at hcsi
  exact nomatch hcsi

end Terminal

end VT7.Adapter
