import VT7.Parser.Parameters

/-!
# How the output is cut into strings does not matter

For an engine for output that accepts everything, `ProcessString` does to what can be observed of the parser what
`ProcessCharacter` does for the characters one by one.  Print runs are compared character by character, and the
sequence cached for a later flush is not observed.
-/

namespace VT7.Parser

open StateMachine

/-- An engine for output that accepts every action. -/
structure Engine.AcceptsAll (engine : Engine) : Prop where
  output : engine.isEngineForInput = false
  accepts : ∀ calls, engine.outcome calls = .accepted

/-- What can be observed: the calls with every print run taken apart, and the parser without its caches. -/
def StateMachine.observed (m : StateMachine) : StateMachine :=
  { m with
    cachedSequence := none
    currentRun := []
    calls := unitsOf m.calls }

/-! ### Print runs -/

lemma unitsOf_append (calls calls' : List EngineCall) : unitsOf (calls ++ calls') = unitsOf calls ++ unitsOf calls' :=
  List.flatMap_append

lemma unitsOf_print (run : List UInt16) : unitsOf (run.map .print) = run.map .print := by
  induction run with
  | nil => rfl
  | cons wch run ih => exact congrArg (EngineCall.print wch :: ·) ih

lemma unitsOf_unitsOf (calls : List EngineCall) : unitsOf (unitsOf calls) = unitsOf calls := by
  induction calls with
  | nil => rfl
  | cons c calls ih =>
    have hc : unitsOf c.units = c.units := by
      cases c with
      | printString run => exact unitsOf_print run
      | _ => rfl
    show unitsOf (c.units ++ unitsOf calls) = c.units ++ unitsOf calls
    rw [unitsOf_append, hc, ih]

/-- A call behind the calls taken apart. -/
lemma unitsOf_behind (calls calls' : List EngineCall) : unitsOf (unitsOf calls ++ calls') = unitsOf (calls ++ calls') := by
  rw [unitsOf_append, unitsOf_append, unitsOf_unitsOf]

lemma countP_units (calls : List EngineCall) :
    (unitsOf calls).countP EngineCall.isDcsDispatch = calls.countP EngineCall.isDcsDispatch := by
  induction calls with
  | nil => rfl
  | cons c calls ih =>
    have hc : c.units.countP EngineCall.isDcsDispatch = [c].countP EngineCall.isDcsDispatch := by
      cases c with
      | printString run =>
        refine (List.countP_eq_zero.mpr fun c hc => ?_).trans rfl
        obtain ⟨wch, -, rfl⟩ := List.mem_map.mp hc
        exact Bool.false_ne_true
      | _ => rfl
    show (c.units ++ unitsOf calls).countP _ = ([c] ++ calls).countP _
    rw [List.countP_append, List.countP_append, hc, ih]

/-! ### Actions -/

section Actions

variable {engine : Engine} (m : StateMachine)

@[simp] lemma observed_observed : m.observed.observed = m.observed := by
  simp [observed, unitsOf_unitsOf]

/-- A change of the parser that commutes with observing it. -/
def Respects (f : StateMachine → StateMachine) : Prop := ∀ m : StateMachine, (f m).observed = (f m.observed).observed

lemma Respects.comp {f g : StateMachine → StateMachine} (hf : Respects f) (hg : Respects g) : Respects (g ∘ f) := by
  intro m
  show (g (f m)).observed = (g (f m.observed)).observed
  rw [hg (f m), hf m, ← hg (f m.observed)]

lemma Respects.of_eq {f g : StateMachine → StateMachine} (hf : Respects f) (heq : ∀ m, g m = f m) : Respects g := by
  rwa [funext heq]

lemma respects_id : Respects fun m => m := fun m => (observed_observed m).symm

lemma Respects.ite {f g : StateMachine → StateMachine} {p : StateMachine → Prop} [DecidablePred p] (hf : Respects f)
    (hg : Respects g) (hp : ∀ m : StateMachine, p m.observed ↔ p m) : Respects fun m => if p m then f m else g m := by
  intro m
  dsimp only
  simp only [hp m]
  split
  · exact hf m
  · exact hg m

lemma respects_call (c : StateMachine → EngineCall) (hc : ∀ m : StateMachine, c m.observed = c m) :
    Respects fun m => m.call engine (c m) := by
  intro m
  show (m.call engine (c m)).observed = (m.observed.call engine (c m.observed)).observed
  rw [hc]
  simp [observed, call, unitsOf_behind]

lemma respects_enter (s : VTState) : Respects fun m => m.enter engine s := by
  intro m
  cases s with
  | sosPmApcString => simp [observed, enter, call, unitsOf_behind]
  | _ => simp [observed, enter, actionClear, unitsOf_unitsOf]

lemma respects_callHandler (wch : UInt16) : Respects (fun m => (m.callHandler engine wch).1) ∧
    ∀ m : StateMachine, (m.observed.callHandler engine wch).2 = (m.callHandler engine wch).2 := by
  refine ⟨fun m => ?_, fun m => ?_⟩
  · have hhandler : m.observed.dcsStringHandler = m.dcsStringHandler := rfl
    unfold callHandler
    dsimp only
    rw [hhandler]
    cases m.dcsStringHandler with
    | none => simp [observed, unitsOf_unitsOf]
    | some handler => simp [observed, call, unitsOf_behind]
  · have hhandler : m.observed.dcsStringHandler = m.dcsStringHandler := rfl
    unfold callHandler
    rw [hhandler]
    cases m.dcsStringHandler with
    | none => rfl
    | some handler => simp [observed, call, unitsOf_behind]

lemma respects_ensureParameter : Respects ensureParameter := by
  intro m
  have hempty : m.observed.parameters = m.parameters := rfl
  unfold ensureParameter
  rw [hempty]
  split
  · simp [observed, pushParameter, unitsOf_unitsOf]
  · exact (observed_observed m).symm

lemma respects_actionParam (wch : UInt16) : Respects fun m => m.actionParam wch := by
  have hpush : Respects fun m =>
      { m.pushParameter with subParameterCounter := 0, subParameterLimitOverflowed := false } := by
    intro m
    simp [observed, pushParameter, unitsOf_unitsOf]
  have hoverflow : Respects fun m => { m with parameterLimitOverflowed := true } := by
    intro m
    simp [observed, unitsOf_unitsOf]
  have hdelimiter : Respects fun m =>
      if maxParameterCount ≤ m.parameters.length then { m with parameterLimitOverflowed := true }
      else { m.pushParameter with subParameterCounter := 0, subParameterLimitOverflowed := false } :=
    hoverflow.ite hpush (fun _ => Iff.rfl)
  have hdigit : Respects fun m => (accumulate wch m.parameters).elim { m with faulted := true }
      fun parameters => { m with parameters } := by
    intro m
    have hparameters : m.observed.parameters = m.parameters := rfl
    dsimp only
    rw [hparameters]
    cases accumulate wch m.parameters with
    | some | none => simp [observed, unitsOf_unitsOf]
  have hone := hdelimiter.ite (p := fun _ => isParameterDelimiter wch = true) hdigit fun _ => Iff.rfl
  have hall := (respects_ensureParameter.comp hone).ite (p := fun m => (!m.parameterLimitOverflowed) = true)
    respects_id fun _ => Iff.rfl
  refine hall.of_eq fun m => ?_
  unfold actionParam
  dsimp only [Function.comp_apply]
  cases accumulate wch m.ensureParameter.parameters with
  | some parameters => rfl
  | none => rfl

lemma respects_actionSubParam (wch : UInt16) : Respects fun m => m.actionSubParam wch := by
  have hoverflow : Respects fun m => { m with subParameterLimitOverflowed := true } := by
    intro m
    simp [observed, unitsOf_unitsOf]
  have hpush : Respects fun m => (extendLastRange m.subParameterRanges).elim { m with faulted := true }
      fun subParameterRanges =>
        { m with
          subParameters := m.subParameters ++ [none]
          subParameterRanges
          subParameterCounter := toByte (m.subParameterCounter + 1) } := by
    intro m
    have hranges : m.observed.subParameterRanges = m.subParameterRanges := rfl
    dsimp only
    rw [hranges]
    cases extendLastRange m.subParameterRanges with
    | some | none => simp [observed, unitsOf_unitsOf]
  have hdigit : Respects fun m => (accumulate wch m.subParameters).elim { m with faulted := true }
      fun subParameters => { m with subParameters } := by
    intro m
    have hparameters : m.observed.subParameters = m.subParameters := rfl
    dsimp only
    rw [hparameters]
    cases accumulate wch m.subParameters with
    | some | none => simp [observed, unitsOf_unitsOf]
  have hdelimiter := hoverflow.ite (p := fun m => maxSubParameterCount ≤ m.subParameterCounter) hpush
    fun _ => Iff.rfl
  have hone := hdelimiter.ite (p := fun _ => isSubParameterDelimiter wch = true) hdigit fun _ => Iff.rfl
  have hall := (respects_ensureParameter.comp hone).ite (p := fun m => (!m.subParameterLimitOverflowed) = true)
    respects_id fun _ => Iff.rfl
  refine hall.of_eq fun m => ?_
  unfold actionSubParam
  dsimp only [Function.comp_apply]
  cases extendLastRange m.ensureParameter.subParameterRanges with
  | some | none =>
    cases accumulate wch m.ensureParameter.subParameters with
    | some parameters => rfl
    | none => rfl

lemma respects_actionDcsDispatch (wch : UInt16) : Respects fun m => m.actionDcsDispatch engine wch := by
  have hcall : Respects fun m => m.call engine (.dcsDispatch (m.identifier.finalize wch) m.parameters) :=
    respects_call _ fun m => rfl
  have hanswered : Respects fun m => (engine.dcsAnswer (unitsOf m.calls)).casesOn
      { m with dcsStringHandler := some (m.calls.countP EngineCall.isDcsDispatch) }
      { m with dcsStringHandler := none } m := by
    intro m
    have hcalls : unitsOf m.observed.calls = unitsOf m.calls := unitsOf_unitsOf m.calls
    dsimp only
    rw [hcalls]
    cases engine.dcsAnswer (unitsOf m.calls) with
    | handler => simp [observed, unitsOf_unitsOf, countP_units]
    | null => simp [observed, unitsOf_unitsOf]
    | threw => exact (observed_observed m).symm
  have hentered : Respects fun m =>
      if m.dcsStringHandler.isSome then m.enter engine .dcsPassThrough else m.enter engine .dcsIgnore :=
    (respects_enter .dcsPassThrough).ite (respects_enter .dcsIgnore) fun _ => Iff.rfl
  refine ((hcall.comp hanswered).comp hentered).of_eq fun m => ?_
  refine congrArg (fun t : StateMachine =>
    if t.dcsStringHandler.isSome then t.enter engine .dcsPassThrough else t.enter engine .dcsIgnore) ?_
  dsimp only [Function.comp_apply]
  cases engine.dcsAnswer (unitsOf (m.call engine (.dcsDispatch (m.identifier.finalize wch) m.parameters)).calls) with
  | handler | null | threw => rfl

lemma respects_interrupt : Respects (actionInterrupt engine) := by
  have hdropped : Respects fun m => { (m.callHandler engine esc).1 with dcsStringHandler := none } := by
    intro m
    exact congrArg (fun t : StateMachine => { t with dcsStringHandler := none }) ((respects_callHandler esc).1 m)
  exact hdropped.ite respects_id fun _ => Iff.rfl

variable (hengine : engine.AcceptsAll)

include hengine

lemma afterCall_accepted (m : StateMachine) : m.afterCall engine = m := by
  unfold afterCall
  rw [hengine.accepts]

lemma respects_called (c : StateMachine → EngineCall) (hc : ∀ m : StateMachine, c m.observed = c m) :
    Respects fun m => (m.call engine (c m)).afterCall engine := by
  intro m
  dsimp only
  rw [afterCall_accepted hengine, afterCall_accepted hengine]
  exact respects_call c hc m

lemma respects_perform (a : Action) : Respects fun m => m.perform engine a := by
  cases a with
  | execute wch => exact respects_called hengine (fun _ => .execute wch) fun _ => rfl
  | executeFromEscape wch => exact respects_called hengine (fun _ => .executeFromEscape wch) fun _ => rfl
  | print wch =>
    intro m
    show ((m.quietCall (.print wch)).afterCall engine).observed = _
    rw [afterCall_accepted hengine]
    show _ = ((m.observed.quietCall (.print wch)).afterCall engine).observed
    rw [afterCall_accepted hengine]
    simp [observed, quietCall, unitsOf_behind]
  | escDispatch wch =>
    exact respects_called hengine (fun m => .escDispatch (m.identifier.finalize wch)) fun _ => rfl
  | vt52EscDispatch wch =>
    exact respects_called hengine (fun m => .vt52EscDispatch (m.identifier.finalize wch) m.parameters) fun _ => rfl
  | collect | oscParam | oscPut =>
    intro m
    simp [observed, perform, unitsOf_unitsOf]
  | param wch => exact respects_actionParam wch
  | subParam wch => exact respects_actionSubParam wch
  | csiDispatch wch =>
    exact respects_called hengine (fun m => .csiDispatch (m.identifier.finalize wch) m.parameters m.subParameters
      m.subParameterRanges) fun _ => rfl
  | oscDispatch => exact respects_called hengine (fun m => .oscDispatch m.oscParameter m.oscString) fun _ => rfl
  | ss3Dispatch wch => exact respects_called hengine (fun m => .ss3Dispatch wch m.parameters) fun _ => rfl
  | dcsDispatch wch => exact respects_actionDcsDispatch wch
  | interrupt => exact respects_interrupt
  | enter s => exact respects_enter s
  | vt52Param wch =>
    have hstored : Respects fun m => { m with parameters := m.parameters ++ [some (wch.toNat : ℤ)] } := by
      intro m
      simp [observed, unitsOf_unitsOf]
    have hdispatch : Respects fun m => if m.parameters.length = 2 then
        (m.actionVt52EscDispatch engine 0x59).enter engine .ground else m := by
      have hcalled := respects_called hengine (fun m => .vt52EscDispatch (m.identifier.finalize 0x59) m.parameters)
        fun _ => rfl
      exact (hcalled.comp (@respects_enter engine .ground)).ite respects_id fun _ => Iff.rfl
    exact hstored.comp hdispatch
  | dcsString wch =>
    intro m
    obtain ⟨hcalled, hanswer⟩ := @respects_callHandler engine wch
    show (if (m.callHandler engine wch).2 = true then (m.callHandler engine wch).1
        else (m.callHandler engine wch).1.enter engine .dcsIgnore).observed =
      (if (m.observed.callHandler engine wch).2 = true then (m.observed.callHandler engine wch).1
        else (m.observed.callHandler engine wch).1.enter engine .dcsIgnore).observed
    rw [hanswer]
    split
    · exact hcalled m
    · exact (hcalled.comp (@respects_enter engine .dcsIgnore)) m

end Actions

/-! ### Characters and strings -/

section Strings

variable {engine : Engine} (hengine : engine.AcceptsAll)

include hengine

lemma respects_performAll (actions : List Action) : Respects fun m => m.performAll engine actions := by
  induction actions with
  | nil => exact respects_id
  | cons a actions ih => exact (respects_perform hengine a).comp ih

lemma respects_processPlain (wch : UInt16) : Respects fun m => m.processPlain engine wch := fun m =>
  respects_performAll hengine (m.actions engine wch) m

lemma respects_processCharacter (wch : UInt16) : Respects fun m => m.processCharacter engine wch := by
  have hplain := respects_processPlain hengine
  exact ((((hplain esc).comp (hplain (c1To7Bit wch))).ite (p := fun m => m.parserMode.acceptC1 = true) respects_id
    fun _ => Iff.rfl)).ite (p := fun _ => isC1ControlCharacter wch = true) (hplain wch) fun _ => Iff.rfl

lemma respects_characters (string : List UInt16) : Respects fun m => string.foldl (processCharacter engine) m := by
  induction string with
  | nil => exact respects_id
  | cons wch rest ih => exact (respects_processCharacter hengine wch).comp ih

omit hengine in
/-- Where a character that is not actionable lies. -/
lemma toNat_of_not_actionable {wch : UInt16} (hwch : isActionableFromGround wch = false) :
    0x1f < wch.toNat ∧ (wch.toNat < 0x7f ∨ 0x9f < wch.toNat) := by
  have hbounds : ¬ wch ≤ 0x1f ∧ ¬ wch - 0x7f ≤ 0x20 := by simpa [isActionableFromGround] using hwch
  have hlt := wch.toNat_lt
  rw [UInt16.le_iff_toNat_le, UInt16.le_iff_toNat_le, UInt16.toNat_sub] at hbounds
  have hc : (0x1f : UInt16).toNat = 0x1f ∧ (0x20 : UInt16).toNat = 0x20 ∧ (0x7f : UInt16).toNat = 0x7f := by decide
  rw [hc.1, hc.2.1, hc.2.2] at hbounds
  omega

omit hengine in
/-- At ground, a character that is not actionable is printed. -/
lemma processCharacter_ground (engine : Engine) {m : StateMachine} (hground : m.state = .ground) {wch : UInt16}
    (hwch : isActionableFromGround wch = false) : m.processCharacter engine wch = m.perform engine (.print wch) := by
  obtain ⟨hlow, hhigh⟩ := toNat_of_not_actionable hwch
  have hne (c : UInt16) (hc : c.toNat ≤ 0x1f ∨ c.toNat = 0x7f) : wch ≠ c := by
    rintro rfl
    omega
  have hnotLe (c : UInt16) (hc : c.toNat ≤ 0x1f) : ¬ wch ≤ c := by
    rw [UInt16.le_iff_toNat_le]
    omega
  have hc1 : isC1ControlCharacter wch = false := by
    have hbounds : ¬ (0x80 ≤ wch ∧ wch ≤ 0x9f) := by
      rintro ⟨hle, hge⟩
      have hle' : 0x80 ≤ wch.toNat := UInt16.le_iff_toNat_le.mp hle
      have hge' : wch.toNat ≤ 0x9f := UInt16.le_iff_toNat_le.mp hge
      omega
    simpa [isC1ControlCharacter] using hbounds
  have hactions : m.actions engine wch = [.print wch] := by
    have hesc : ¬ (isEscape wch = true) := by simpa [isEscape] using hne esc (by decide)
    have hcontrol : (isC0Code wch || isDelete wch) = false := by
      simp [isC0Code, isDelete, hnotLe 0x17 (by decide), hne 0x19 (by decide), hnotLe 0x1f (by decide),
        hne 0x7f (by decide)]
    unfold actions
    rw [if_neg (fun h => h.1.elim (hne can (by decide)) (hne sub (by decide))), if_neg (fun h => hesc h.1), hground]
    show eventGround wch = _
    rw [eventGround, hcontrol, if_neg Bool.false_ne_true]
  unfold processCharacter processPlain
  rw [hc1, if_neg Bool.false_ne_true, hactions]
  rfl

lemma processCharacter_print {m : StateMachine} (hground : m.state = .ground) {wch : UInt16}
    (hwch : isActionableFromGround wch = false) : m.processCharacter engine wch = m.quietCall (.print wch) := by
  rw [processCharacter_ground engine hground hwch]
  exact afterCall_accepted hengine _

lemma print_observed {m : StateMachine} (hground : m.state = .ground) {run : List UInt16}
    (hrun : ∀ wch ∈ run, isActionableFromGround wch = false) :
    (run.foldl (processCharacter engine) m).observed =
      { m.observed with calls := m.observed.calls ++ run.map .print } := by
  induction run generalizing m with
  | nil => simp [observed]
  | cons wch run ih =>
    have hfirst := processCharacter_print hengine hground (hrun wch List.mem_cons_self)
    rw [List.foldl_cons, hfirst, ih (m := m.quietCall (.print wch)) hground fun c hc => hrun c (List.mem_cons_of_mem _ hc)]
    simp [observed, quietCall, unitsOf, EngineCall.units]

/-- **A step does what its characters do one by one.** -/
theorem step_observed {m : StateMachine} {s : Step} (hs : s.Fits m) :
    (m.step engine s).observed = (s.characters.foldl (processCharacter engine) m).observed := by
  cases s with
  | start => rfl
  | character wch =>
    have hleft := respects_processCharacter hengine wch { m with currentRun := m.currentRun ++ [wch] }
    exact hleft.trans (respects_processCharacter hengine wch m).symm
  | print run =>
    rw [Step.characters, print_observed hengine hs.1 hs.2]
    show (m.printRun engine run).observed = _
    unfold printRun
    split
    · next hempty =>
      rw [List.isEmpty_iff.mp hempty]
      simp [observed]
    · rw [afterCall_accepted hengine]
      simp [observed, quietCall, unitsOf, EngineCall.units]
  | finish =>
    show (m.endOfString engine).observed = m.observed
    unfold endOfString
    rw [hengine.output]
    split
    · dsimp only
      rw [Bool.false_and, Bool.false_and, Bool.false_and, if_neg Bool.false_ne_true]
      split
      · rfl
      · rfl
    · rfl

theorem steps_observed {m : StateMachine} {steps : List Step} (hsteps : StepsFit engine m steps) :
    (m.steps engine steps).observed =
      ((steps.flatMap Step.characters).foldl (processCharacter engine) m).observed := by
  induction steps generalizing m with
  | nil => rfl
  | cons s steps ih =>
    have hrest := respects_characters hengine (steps.flatMap Step.characters)
    rw [List.flatMap_cons, List.foldl_append]
    calc ((m.step engine s).steps engine steps).observed
        = ((steps.flatMap Step.characters).foldl (processCharacter engine) (m.step engine s)).observed := ih hsteps.2
      _ = ((steps.flatMap Step.characters).foldl (processCharacter engine) (m.step engine s).observed).observed :=
        hrest _
      _ = ((steps.flatMap Step.characters).foldl (processCharacter engine)
            (s.characters.foldl (processCharacter engine) m).observed).observed := by
        rw [step_observed hengine hsteps.1]
      _ = _ := (hrest _).symm

/-- **How a string is cut does not matter**: both ways do what its characters do one by one. -/
theorem processStrings_observed (m : StateMachine) (strings strings' : List (List UInt16))
    (hsame : strings.flatten = strings'.flatten) :
    (strings.foldl (processString engine) m).observed =
        (strings.flatten.foldl (processCharacter engine) m).observed ∧
      (strings'.foldl (processString engine) m).observed =
        (strings.flatten.foldl (processCharacter engine) m).observed := by
  obtain ⟨steps, hsteps⟩ := processStrings_steps engine m strings
  obtain ⟨steps', hsteps'⟩ := processStrings_steps engine m strings'
  constructor
  · rw [hsteps.result, steps_observed hengine hsteps.fit, hsteps.characters]
  · rw [hsteps'.result, steps_observed hengine hsteps'.fit, hsteps'.characters, hsame]

end Strings

lemma acceptingEngine_acceptsAll : acceptingEngine.AcceptsAll := ⟨rfl, fun _ => rfl⟩

/-- `ESC [ 1 m x y`, cut behind the parameter and in the print run. -/
theorem processStrings_observed_sample :
    [[27, 91, 49], [109, 120], [121]].flatten = [[27, 91, 49, 109, 120, 121]].flatten ∧
      (([[27, 91, 49], [109, 120], [121]] : List (List UInt16)).foldl (processString acceptingEngine)
          { parserMode := ⟨false, true⟩ }).observed =
        ([27, 91, 49, 109, 120, 121].foldl (processCharacter acceptingEngine) { parserMode := ⟨false, true⟩ }).observed :=
  ⟨rfl, (processStrings_observed acceptingEngine_acceptsAll { parserMode := ⟨false, true⟩ }
    [[27, 91, 49], [109, 120], [121]] [[27, 91, 49, 109, 120, 121]] rfl).1⟩

end VT7.Parser
