import Mathlib.Tactic.SplitIfs
import VT7.Parser.StateMachine

/-!
# What an event can do

The actions of every event have one of a few shapes (`event_shape`).  Most actions only call the engine or
collect something (`IsQuiet`); the invariants of the parser are about the others.
-/

namespace VT7.Parser

open StateMachine

/-- An action that leaves the state, the parameters and the handler alone. -/
def Action.IsQuiet : Action → Prop
  | .execute _ => True
  | .executeFromEscape _ => True
  | .print _ => True
  | .escDispatch _ => True
  | .vt52EscDispatch _ => True
  | .collect _ => True
  | .csiDispatch _ => True
  | .oscParam wch => isNumericParamValue wch = true
  | .oscPut _ => True
  | .oscDispatch => True
  | .ss3Dispatch _ => True
  | _ => False

/-- A state that is entered without any condition on the parameters or the handler. -/
def VTState.IsOrdinary (s : VTState) : Prop := s ≠ .dcsPassThrough ∧ s ≠ .csiSubParam ∧ s ≠ .vt52Param

instance (s : VTState) : Decidable s.IsOrdinary := inferInstanceAs (Decidable (_ ∧ _))

/-- A state in which a device control string is collected. -/
def VTState.CollectsDcs (s : VTState) : Prop := s = .dcsEntry ∨ s = .dcsParam ∨ s = .dcsIntermediate

instance (s : VTState) : Decidable s.CollectsDcs := inferInstanceAs (Decidable (_ ∨ _))

/-- An ordinary state that may follow another one. -/
def VTState.LeadsTo (s s' : VTState) : Prop :=
  s'.IsOrdinary ∧ (s' = .dcsParam ∨ s' = .dcsIntermediate → s.CollectsDcs)

instance (s s' : VTState) : Decidable (s.LeadsTo s') := inferInstanceAs (Decidable (_ ∧ _))

/-- The actions a character leads to in a state. -/
inductive Shape (ansi : Bool) (wch : UInt16) : VTState → List Action → Prop
  | nothing {s : VTState} : Shape ansi wch s []
  | quiet {s : VTState} {a : Action} (ha : a.IsQuiet) : Shape ansi wch s [a]
  | enter {s s' : VTState} (hs' : s.LeadsTo s') : Shape ansi wch s [.enter s']
  | quietEnter {s s' : VTState} {a : Action} (ha : a.IsQuiet) (hs' : s.LeadsTo s') :
      Shape ansi wch s [a, .enter s']
  | param {s : VTState} (hs : s.IsOrdinary)
      (hwch : isNumericParamValue wch = true ∨ isParameterDelimiter wch = true) : Shape ansi wch s [.param wch]
  | paramEnter {s s' : VTState} (hwch : isNumericParamValue wch = true ∨ isParameterDelimiter wch = true)
      (hs' : s.LeadsTo s') : Shape ansi wch s [.param wch, .enter s']
  | subParam (hwch : isNumericParamValue wch = true ∨ isSubParameterDelimiter wch = true) :
      Shape ansi wch .csiSubParam [.subParam wch]
  | subParamEnter {s : VTState} (hwch : isSubParameterDelimiter wch = true) :
      Shape ansi wch s [.subParam wch, .enter .csiSubParam]
  | vt52Param : Shape ansi wch .vt52Param [.vt52Param wch]
  | vt52Enter {s : VTState} (hmode : ansi = false) : Shape ansi wch s [.enter .vt52Param]
  | dcsDispatch {s : VTState} (hs : s.CollectsDcs) : Shape ansi wch s [.dcsDispatch wch]
  | dcsString (hwch : (isC0Code wch || isDcsPassThroughValid wch) = true) :
      Shape ansi wch .dcsPassThrough [.dcsString wch]
  | again {actions : List Action} (hescape : Shape ansi wch .escape actions) :
      Shape ansi wch .oscTermination (.enter .escape :: actions)

lemma eventEscape_shape (input : Bool) (mode : ParserMode) (wch : UInt16) :
    Shape mode.ansi wch .escape (eventEscape input mode wch) := by
  unfold eventEscape
  split_ifs with hc0 hinput hdelete hintermediate hinput' hansi
  · exact .quietEnter trivial (by decide)
  · exact .quiet trivial
  · exact .nothing
  · exact .quietEnter trivial (by decide)
  · exact .quietEnter trivial (by decide)
  · exact .enter (by decide)
  · exact .enter (by decide)
  · exact .enter (by decide)
  · exact .enter (by decide)
  · exact .enter (by decide)
  · exact .quietEnter trivial (by decide)
  · exact .vt52Enter (by simpa using hansi)
  · exact .quietEnter trivial (by decide)

lemma or_true_of {a b : Bool} (h : (a || b) = true) : a = true ∨ b = true := by simpa using h

/-- **Every event has one of the shapes.** -/
theorem event_shape (input : Bool) (mode : ParserMode) (wch : UInt16) (s : VTState) :
    Shape mode.ansi wch s (event input mode wch s) := by
  cases s with
  | ground =>
    show Shape _ _ _ (eventGround wch)
    unfold eventGround
    split_ifs
    · exact .quiet trivial
    · exact .quiet trivial
  | escape => exact eventEscape_shape input mode wch
  | escapeIntermediate =>
    show Shape _ _ _ (eventEscapeIntermediate mode wch)
    unfold eventEscapeIntermediate
    split_ifs with _ _ _ hansi
    · exact .quiet trivial
    · exact .quiet trivial
    · exact .nothing
    · exact .quietEnter trivial (by decide)
    · exact .vt52Enter (by simpa using hansi)
    · exact .quietEnter trivial (by decide)
  | csiEntry =>
    show Shape _ _ _ (eventCsiEntry wch)
    unfold eventCsiEntry
    split_ifs with _ _ _ hparam hsub
    · exact .quiet trivial
    · exact .nothing
    · exact .quietEnter trivial (by decide)
    · exact .paramEnter (or_true_of hparam) (by decide)
    · exact .subParamEnter hsub
    · exact .quietEnter trivial (by decide)
    · exact .quietEnter trivial (by decide)
  | csiIntermediate =>
    show Shape _ _ _ (eventCsiIntermediate wch)
    unfold eventCsiIntermediate
    split_ifs
    · exact .quiet trivial
    · exact .quiet trivial
    · exact .nothing
    · exact .enter (by decide)
    · exact .quietEnter trivial (by decide)
  | csiIgnore =>
    show Shape _ _ _ (eventCsiIgnore wch)
    unfold eventCsiIgnore
    split_ifs
    · exact .quiet trivial
    · exact .nothing
    · exact .nothing
    · exact .nothing
    · exact .enter (by decide)
  | csiParam =>
    show Shape _ _ _ (eventCsiParam wch)
    unfold eventCsiParam
    split_ifs with _ _ hparam hsub
    · exact .quiet trivial
    · exact .nothing
    · exact .param (by decide) (or_true_of hparam)
    · exact .subParamEnter hsub
    · exact .quietEnter trivial (by decide)
    · exact .enter (by decide)
    · exact .quietEnter trivial (by decide)
  | csiSubParam =>
    show Shape _ _ _ (eventCsiSubParam wch)
    unfold eventCsiSubParam
    split_ifs with _ _ hsub hparam
    · exact .quiet trivial
    · exact .nothing
    · exact .subParam (or_true_of hsub)
    · exact .paramEnter (.inr hparam) (by decide)
    · exact .quietEnter trivial (by decide)
    · exact .enter (by decide)
    · exact .quietEnter trivial (by decide)
  | oscParam =>
    show Shape _ _ _ (eventOscParam wch)
    unfold eventOscParam
    split_ifs with _ _ hnumeric
    · exact .quietEnter trivial (by decide)
    · exact .enter (by decide)
    · exact .quiet hnumeric
    · exact .enter (by decide)
    · exact .nothing
  | oscString =>
    show Shape _ _ _ (eventOscString wch)
    unfold eventOscString
    split_ifs
    · exact .quietEnter trivial (by decide)
    · exact .enter (by decide)
    · exact .nothing
    · exact .quiet trivial
  | oscTermination =>
    show Shape _ _ _ (eventOscTermination input mode wch)
    unfold eventOscTermination
    split_ifs
    · exact .quietEnter trivial (by decide)
    · exact .again (eventEscape_shape input mode wch)
  | ss3Entry =>
    show Shape _ _ _ (eventSs3Entry wch)
    unfold eventSs3Entry
    split_ifs with _ _ _ hparam
    · exact .quiet trivial
    · exact .nothing
    · exact .enter (by decide)
    · exact .paramEnter (or_true_of hparam) (by decide)
    · exact .quietEnter trivial (by decide)
  | ss3Param =>
    show Shape _ _ _ (eventSs3Param wch)
    unfold eventSs3Param
    split_ifs with _ _ hparam
    · exact .quiet trivial
    · exact .nothing
    · exact .param (by decide) (or_true_of hparam)
    · exact .enter (by decide)
    · exact .quietEnter trivial (by decide)
  | vt52Param =>
    show Shape _ _ _ (eventVt52Param wch)
    unfold eventVt52Param
    split_ifs
    · exact .quiet trivial
    · exact .nothing
    · exact .vt52Param
  | dcsEntry =>
    show Shape _ _ _ (eventDcsEntry wch)
    unfold eventDcsEntry
    split_ifs with _ _ _ hparam
    · exact .nothing
    · exact .nothing
    · exact .enter (by decide)
    · exact .paramEnter (or_true_of hparam) (by decide)
    · exact .quietEnter trivial (by decide)
    · exact .dcsDispatch (by decide)
  | dcsIgnore | sosPmApcString => exact .nothing
  | dcsIntermediate =>
    show Shape _ _ _ (eventDcsIntermediate wch)
    unfold eventDcsIntermediate
    split_ifs
    · exact .nothing
    · exact .nothing
    · exact .quiet trivial
    · exact .enter (by decide)
    · exact .dcsDispatch (by decide)
  | dcsParam =>
    show Shape _ _ _ (eventDcsParam wch)
    unfold eventDcsParam
    split_ifs with hparam
    · exact .param (by decide) (or_true_of hparam)
    · exact .quietEnter trivial (by decide)
    · exact .enter (by decide)
    · exact .dcsDispatch (by decide)
  | dcsPassThrough =>
    show Shape _ _ _ (eventDcsPassThrough wch)
    unfold eventDcsPassThrough
    split_ifs with hwch
    · exact .dcsString hwch
    · exact .nothing

/-! ### What an action leaves alone -/

/-- The fields that calls of the engine do not touch. -/
structure Frame (m m' : StateMachine) : Prop where
  state : m'.state = m.state
  parameters : m'.parameters = m.parameters
  parameterLimitOverflowed : m'.parameterLimitOverflowed = m.parameterLimitOverflowed
  subParameters : m'.subParameters = m.subParameters
  subParameterRanges : m'.subParameterRanges = m.subParameterRanges
  subParameterLimitOverflowed : m'.subParameterLimitOverflowed = m.subParameterLimitOverflowed
  subParameterCounter : m'.subParameterCounter = m.subParameterCounter
  dcsStringHandler : m'.dcsStringHandler = m.dcsStringHandler
  faulted : m'.faulted = m.faulted

/-- A call that neither asks for a handler nor calls one. -/
def EngineCall.IsPlain : EngineCall → Prop
  | .dcsDispatch _ _ => False
  | .dcsString _ _ => False
  | _ => True

/-- Only plain calls are added. -/
def AddsPlain (m m' : StateMachine) : Prop := ∃ calls, m'.calls = m.calls ++ calls ∧ ∀ c ∈ calls, c.IsPlain

variable {engine : Engine} {m m' m'' : StateMachine}

lemma Frame.trans (h : Frame m m') (h' : Frame m' m'') : Frame m m'' where
  state := h'.state.trans h.state
  parameters := h'.parameters.trans h.parameters
  parameterLimitOverflowed := h'.parameterLimitOverflowed.trans h.parameterLimitOverflowed
  subParameters := h'.subParameters.trans h.subParameters
  subParameterRanges := h'.subParameterRanges.trans h.subParameterRanges
  subParameterLimitOverflowed := h'.subParameterLimitOverflowed.trans h.subParameterLimitOverflowed
  subParameterCounter := h'.subParameterCounter.trans h.subParameterCounter
  dcsStringHandler := h'.dcsStringHandler.trans h.dcsStringHandler
  faulted := h'.faulted.trans h.faulted

lemma AddsPlain.of_eq (h : m'.calls = m.calls) : AddsPlain m m' :=
  ⟨[], by rw [h, List.append_nil], fun _ hc => nomatch hc⟩

lemma AddsPlain.trans (h : AddsPlain m m') (h' : AddsPlain m' m'') : AddsPlain m m'' := by
  obtain ⟨calls, hcalls, hplain⟩ := h
  obtain ⟨calls', hcalls', hplain'⟩ := h'
  refine ⟨calls ++ calls', by rw [hcalls', hcalls, List.append_assoc], fun c hc => ?_⟩
  rcases List.mem_append.mp hc with hc | hc
  · exact hplain c hc
  · exact hplain' c hc

lemma AddsPlain.one {c : EngineCall} (h : m'.calls = m.calls ++ [c]) (hc : c.IsPlain) : AddsPlain m m' := by
  refine ⟨[c], h, fun c' hc' => ?_⟩
  rwa [List.mem_singleton.mp hc']

lemma call_frame (engine : Engine) (m : StateMachine) (c : EngineCall) : Frame m (m.call engine c) :=
  ⟨rfl, rfl, rfl, rfl, rfl, rfl, rfl, rfl, rfl⟩

lemma flushToTerminal_frame (m : StateMachine) : Frame m m.flushToTerminal := by
  unfold flushToTerminal
  split
  · exact ⟨rfl, rfl, rfl, rfl, rfl, rfl, rfl, rfl, rfl⟩
  · exact ⟨rfl, rfl, rfl, rfl, rfl, rfl, rfl, rfl, rfl⟩

lemma flushToTerminal_adds (m : StateMachine) : AddsPlain m m.flushToTerminal := by
  unfold flushToTerminal
  split
  · next sequence hcached =>
    have hfirst : AddsPlain m (m.quietCall (.passThroughString sequence)) := .one rfl trivial
    exact hfirst.trans (.one rfl trivial)
  · exact .one rfl trivial

lemma flushToTerminal_osc (m : StateMachine) :
    m.flushToTerminal.oscParameter = m.oscParameter ∧ m.flushToTerminal.parserMode = m.parserMode := by
  unfold flushToTerminal
  split
  · exact ⟨rfl, rfl⟩
  · exact ⟨rfl, rfl⟩

lemma afterCall_cases (engine : Engine) (m : StateMachine) :
    m.afterCall engine = m ∨ m.afterCall engine = m.flushToTerminal := by
  unfold afterCall
  split
  · exact .inl rfl
  · exact .inr rfl
  · exact .inl rfl

lemma afterCall_frame (engine : Engine) (m : StateMachine) : Frame m (m.afterCall engine) := by
  rcases afterCall_cases engine m with h | h
  · rw [h]
    exact ⟨rfl, rfl, rfl, rfl, rfl, rfl, rfl, rfl, rfl⟩
  · rw [h]
    exact flushToTerminal_frame m

lemma afterCall_adds (engine : Engine) (m : StateMachine) : AddsPlain m (m.afterCall engine) := by
  rcases afterCall_cases engine m with h | h
  · exact .of_eq (by rw [h])
  · rw [h]
    exact flushToTerminal_adds m

lemma afterCall_osc (engine : Engine) (m : StateMachine) :
    (m.afterCall engine).oscParameter = m.oscParameter ∧ (m.afterCall engine).parserMode = m.parserMode := by
  rcases afterCall_cases engine m with h | h
  · rw [h]
    exact ⟨rfl, rfl⟩
  · rw [h]
    exact flushToTerminal_osc m

/-- **A quiet action** keeps its frame and makes plain calls only. -/
theorem perform_quiet {a : Action} (ha : a.IsQuiet) :
    Frame m (m.perform engine a) ∧ AddsPlain m (m.perform engine a) := by
  have hcalled (c : EngineCall) (hc : c.IsPlain) : Frame m ((m.call engine c).afterCall engine) ∧
      AddsPlain m ((m.call engine c).afterCall engine) := by
    have hadds : AddsPlain m (m.call engine c) := .one rfl hc
    exact ⟨(call_frame engine m c).trans (afterCall_frame engine _), hadds.trans (afterCall_adds engine _)⟩
  cases a with
  | execute | executeFromEscape | escDispatch | vt52EscDispatch | csiDispatch | oscDispatch | ss3Dispatch =>
    exact hcalled _ trivial
  | print wch =>
    have hframe : Frame m (m.quietCall (.print wch)) := ⟨rfl, rfl, rfl, rfl, rfl, rfl, rfl, rfl, rfl⟩
    have hadds : AddsPlain m (m.quietCall (.print wch)) := .one rfl trivial
    exact ⟨hframe.trans (afterCall_frame engine _), hadds.trans (afterCall_adds engine _)⟩
  | collect | oscParam | oscPut => exact ⟨⟨rfl, rfl, rfl, rfl, rfl, rfl, rfl, rfl, rfl⟩, .of_eq rfl⟩
  | _ => exact absurd ha (by simp [Action.IsQuiet])

/-! ### Entries -/

@[simp] lemma enter_state (engine : Engine) (m : StateMachine) (s : VTState) : (m.enter engine s).state = s := by
  cases s <;> rfl

@[simp] lemma enter_faulted (engine : Engine) (m : StateMachine) (s : VTState) :
    (m.enter engine s).faulted = m.faulted := by
  cases s <;> rfl

lemma enter_adds (engine : Engine) (m : StateMachine) (s : VTState) : AddsPlain m (m.enter engine s) := by
  cases s with
  | sosPmApcString => exact .one rfl trivial
  | _ => exact .of_eq rfl

/-- A state is entered with the parameters there are, or with none. -/
lemma enter_params (engine : Engine) (m : StateMachine) (s : VTState) :
    (m.enter engine s).parameters = m.parameters ∧ (m.enter engine s).subParameters = m.subParameters ∧
        (m.enter engine s).subParameterRanges = m.subParameterRanges ∧
        (m.enter engine s).subParameterCounter = m.subParameterCounter ∧
        (m.enter engine s).subParameterLimitOverflowed = m.subParameterLimitOverflowed ∧
        (m.enter engine s).dcsStringHandler = m.dcsStringHandler ∧
        (m.enter engine s).oscParameter = m.oscParameter ∨
      s ≠ .csiSubParam ∧ s ≠ .dcsPassThrough ∧
        (m.enter engine s).parameters = [] ∧ (m.enter engine s).subParameters = [] ∧
        (m.enter engine s).subParameterRanges = [] ∧ (m.enter engine s).subParameterCounter = 0 ∧
        (m.enter engine s).dcsStringHandler = none ∧ (m.enter engine s).oscParameter = 0 := by
  cases s with
  | escape | csiEntry | ss3Entry | dcsEntry => exact .inr ⟨by decide, by decide, rfl, rfl, rfl, rfl, rfl, rfl⟩
  | _ => exact .inl ⟨rfl, rfl, rfl, rfl, rfl, rfl, rfl⟩

end VT7.Parser
