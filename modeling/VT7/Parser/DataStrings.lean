import VT7.Parser.Parameters

/-!
# Data strings and their handlers

The engine returns a handler for a device control string.  The handler gets the data characters of its own
string, then an ESC when the string ends, and nothing after that or after it refused a character.
-/

namespace VT7.Parser

open StateMachine

/-- How many handlers the engine was asked for. -/
def dispatches (calls : List EngineCall) : ℕ := calls.countP EngineCall.isDcsDispatch

def EngineCall.charOf (handler : ℕ) : EngineCall → Option UInt16
  | .dcsString h wch => if h = handler then some wch else none
  | _ => none

/-- The characters a handler was called with. -/
def charsOf (handler : ℕ) (calls : List EngineCall) : List UInt16 := calls.filterMap (EngineCall.charOf handler)

/-- A character that ends a data string: ESC, CAN, SUB, or a C1 control where these are accepted. -/
def EndsString (mode : ParserMode) (wch : UInt16) : Prop :=
  wch = esc ∨ wch = can ∨ wch = sub ∨ isC1ControlCharacter wch = true ∧ mode.acceptC1 = true

instance (mode : ParserMode) (wch : UInt16) : Decidable (EndsString mode wch) :=
  inferInstanceAs (Decidable (_ ∨ _))

/-- A data character. -/
def isData (wch : UInt16) : Bool := isC0Code wch || isDcsPassThroughValid wch

/-- What a handler is called with in the steps behind its dispatch: the data characters up to the one it refuses,
and an ESC for the character that ends its string.  The parser is followed for its mode and for what the engine
was called with before. -/
def expectedChars (engine : Engine) (handler : ℕ) : StateMachine → List Step → List UInt16
  | _, [] => []
  | m, .character wch :: rest =>
    if EndsString m.parserMode wch then [esc]
    else if isData wch then
      if engine.handlerAccepts (unitsOf (m.calls ++ [.dcsString handler wch])) then
        wch :: expectedChars engine handler (m.step engine (.character wch)) rest
      else [wch]
    else expectedChars engine handler (m.step engine (.character wch)) rest
  | m, s :: rest => expectedChars engine handler (m.step engine s) rest

/-! ### Calls -/

lemma charsOf_append (handler : ℕ) (calls calls' : List EngineCall) :
    charsOf handler (calls ++ calls') = charsOf handler calls ++ charsOf handler calls' :=
  List.filterMap_append

lemma dispatches_append (calls calls' : List EngineCall) :
    dispatches (calls ++ calls') = dispatches calls + dispatches calls' := List.countP_append

lemma charsOf_plain {calls : List EngineCall} (h : ∀ c ∈ calls, c.IsPlain) (handler : ℕ) :
    charsOf handler calls = [] := by
  refine List.filterMap_eq_nil_iff.mpr fun c hc => ?_
  have hplain := h c hc
  cases c with
  | dcsString => cases hplain
  | _ => rfl

lemma dispatches_plain {calls : List EngineCall} (h : ∀ c ∈ calls, c.IsPlain) : dispatches calls = 0 := by
  refine List.countP_eq_zero.mpr fun c hc => ?_
  have hplain := h c hc
  cases c with
  | dcsDispatch => cases hplain
  | _ => exact Bool.false_ne_true

variable {engine : Engine} {mode : ParserMode} {m m' : StateMachine} {wch : UInt16}

lemma AddsPlain.charsOf (h : AddsPlain m m') (handler : ℕ) : charsOf handler m'.calls = charsOf handler m.calls := by
  obtain ⟨calls, hcalls, hplain⟩ := h
  rw [hcalls, charsOf_append, charsOf_plain hplain, List.append_nil]

lemma AddsPlain.dispatches (h : AddsPlain m m') : dispatches m'.calls = dispatches m.calls := by
  obtain ⟨calls, hcalls, hplain⟩ := h
  rw [hcalls, dispatches_append, dispatches_plain hplain, Nat.add_zero]

/-! ### A character outside a data string -/

/-- What a character does outside a data string: it calls no handler, and a data string begins only when the
engine has just returned a handler. -/
inductive Outside (engine : Engine) (m m' : StateMachine) : Prop
  | plain (hcalls : AddsPlain m m') (hstate : m'.state ≠ .dcsPassThrough)
      (hhandler : ∀ handler, m'.dcsStringHandler = some handler → m.dcsStringHandler = some handler)
      (hcleared : m'.state.CollectsDcs → m'.dcsStringHandler = none)
  | refused (id : UInt64) (parameters : List VTParameter) (hcollects : m.state.CollectsDcs)
      (hcalls : m'.calls = m.calls ++ [.dcsDispatch id parameters])
      (hanswer : engine.dcsAnswer (unitsOf m'.calls) ≠ .handler) (hstate : m'.state = .dcsIgnore)
      (hhandler : m'.dcsStringHandler = none)
  | returned (id : UInt64) (parameters : List VTParameter) (hcollects : m.state.CollectsDcs)
      (hcalls : m'.calls = m.calls ++ [.dcsDispatch id parameters])
      (hanswer : engine.dcsAnswer (unitsOf m'.calls) = .handler) (hstate : m'.state = .dcsPassThrough)
      (hhandler : m'.dcsStringHandler = some (dispatches m'.calls))

lemma enter_outside {t : StateMachine} (hadds : AddsPlain m t) {s : VTState} (hs : s ≠ .dcsPassThrough)
    (hhandler : ∀ handler, t.dcsStringHandler = some handler → m.dcsStringHandler = some handler)
    (hcleared : s = .dcsParam ∨ s = .dcsIntermediate → t.dcsStringHandler = none) :
    Outside engine m (t.enter engine s) := by
  have hsame : (t.enter engine s).dcsStringHandler = t.dcsStringHandler ∨
      (t.enter engine s).dcsStringHandler = none := by
    rcases enter_params engine t s with ⟨-, -, -, -, -, h, -⟩ | ⟨-, -, -, -, -, -, h, -⟩
    · exact .inl h
    · exact .inr h
  refine .plain (hadds.trans (enter_adds engine t s)) (by rwa [enter_state]) (fun handler h => ?_) ?_
  · rcases hsame with hsame | hsame
    · exact hhandler handler (hsame ▸ h)
    · rw [hsame] at h
      cases h
  · rw [enter_state]
    rintro (rfl | rfl | rfl)
    · rfl
    · exact (hcleared (.inl rfl))
    · exact (hcleared (.inr rfl))

lemma dcsDispatch_outside (hcollects : m.state.CollectsDcs) (hcleared : m.dcsStringHandler = none) (wch : UInt16) :
    Outside engine m (m.actionDcsDispatch engine wch) := by
  unfold actionDcsDispatch
  dsimp only
  split
  · next hanswer => exact .returned _ _ hcollects rfl hanswer rfl rfl
  · next hanswer => exact .refused _ _ hcollects rfl (fun h => nomatch hanswer.symm.trans h) rfl rfl
  · next hanswer =>
    have hnone : (m.call engine (.dcsDispatch (m.identifier.finalize wch) m.parameters)).dcsStringHandler = none :=
      hcleared
    rw [hnone, Option.isSome_none, if_neg Bool.false_ne_true]
    exact .refused _ _ hcollects rfl (fun h => nomatch hanswer.symm.trans h) rfl hcleared

/-- A step that calls nothing and keeps no more than the handler may come first. -/
lemma Outside.after {t : StateMachine} (h : Outside engine t m') (hstate : t.state.CollectsDcs → m.state.CollectsDcs)
    (hcalls : t.calls = m.calls) (hhandler : ∀ handler, t.dcsStringHandler = some handler → m.dcsStringHandler = some handler) :
    Outside engine m m' := by
  cases h with
  | plain hadds hpass hh hcleared =>
    exact .plain ((AddsPlain.of_eq hcalls).trans hadds) hpass (fun handler h => hhandler handler (hh handler h)) hcleared
  | refused id parameters hcollects hnew hanswer hignore hh =>
    exact .refused id parameters (hstate hcollects) (hcalls ▸ hnew) hanswer hignore hh
  | returned id parameters hcollects hnew hanswer hpass hh =>
    exact .returned id parameters (hstate hcollects) (hcalls ▸ hnew) hanswer hpass hh

lemma performAll_outside {ansi : Bool} {s : VTState} {actions : List Action} (hshape : Shape ansi wch s actions)
    (hs : m.state = s) (hpass : s ≠ .dcsPassThrough) (hm : m.state.CollectsDcs → m.dcsStringHandler = none) :
    Outside engine m (m.performAll engine actions) := by
  induction hshape generalizing m with
  | nothing => exact .plain (.of_eq rfl) (hs ▸ hpass) (fun _ h => h) hm
  | @quiet s a ha =>
    obtain ⟨hframe, hadds⟩ := @perform_quiet engine m a ha
    refine .plain hadds (by rw [← hs] at hpass; exact hframe.state ▸ hpass) (fun handler h => ?_) fun h => ?_
    · rwa [← hframe.dcsStringHandler]
    · exact hframe.dcsStringHandler.trans (hm (hframe.state ▸ h))
  | enter hs' =>
    exact enter_outside (.of_eq rfl) hs'.1.1 (fun _ h => h) fun h => hm (hs ▸ hs'.2 h)
  | @quietEnter s s' a ha hs' =>
    obtain ⟨hframe, hadds⟩ := @perform_quiet engine m a ha
    refine enter_outside hadds hs'.1.1 (fun handler h => ?_) fun h => ?_
    · rwa [← hframe.dcsStringHandler]
    · exact hframe.dcsStringHandler.trans (hm (hs ▸ hs'.2 h))
  | @param s hordinary hwch =>
    obtain ⟨hstate, hcalls, hhandler⟩ := actionParam_rest m wch
    refine .plain (.of_eq hcalls) (by rw [← hs] at hpass; exact hstate ▸ hpass) (fun handler h => ?_) fun h => ?_
    · rwa [← hhandler]
    · exact hhandler.trans (hm (hstate ▸ h))
  | paramEnter hwch hs' =>
    obtain ⟨hstate, hcalls, hhandler⟩ := actionParam_rest m wch
    refine enter_outside (.of_eq hcalls) hs'.1.1 (fun handler h => ?_) fun h => ?_
    · rwa [← hhandler]
    · exact hhandler.trans (hm (hs ▸ hs'.2 h))
  | subParam hwch =>
    obtain ⟨hstate, hcalls, hhandler⟩ := actionSubParam_rest m wch
    refine .plain (.of_eq hcalls) (by rw [← hs] at hpass; exact hstate ▸ hpass) (fun handler h => ?_) fun h => ?_
    · rwa [← hhandler]
    · exact hhandler.trans (hm (hstate ▸ h))
  | subParamEnter hwch =>
    obtain ⟨hstate, hcalls, hhandler⟩ := actionSubParam_rest m wch
    refine enter_outside (s := .csiSubParam) (.of_eq hcalls) (by decide) (fun handler h => ?_) (by simp)
    rwa [← hhandler]
  | vt52Param =>
    have hstored : AddsPlain m { m with parameters := m.parameters ++ [some (wch.toNat : ℤ)] } := .of_eq rfl
    show Outside engine m (if _ then _ else _)
    split
    · obtain ⟨hframe, hadds⟩ := @perform_quiet engine
        { m with parameters := m.parameters ++ [some (wch.toNat : ℤ)] } (.vt52EscDispatch 0x59) trivial
      refine enter_outside (s := .ground) (hstored.trans hadds) (by decide) (fun handler h => ?_) (by simp)
      have hsame := hframe.dcsStringHandler
      exact hsame.symm.trans h
    · exact .plain hstored (hs ▸ hpass) (fun _ h => h) hm
  | vt52Enter hmode =>
    exact enter_outside (s := .vt52Param) (.of_eq rfl) (by decide) (fun _ h => h) (by simp)
  | @dcsDispatch s hcollects => exact dcsDispatch_outside (hs ▸ hcollects) (hm (hs ▸ hcollects)) wch
  | dcsString hwch => exact absurd rfl hpass
  | again hescape ih =>
    have houtside := ih (enter_state engine m .escape) (by decide) fun _ => rfl
    refine houtside.after (fun h => ?_) rfl fun handler h => nomatch h
    rw [enter_state] at h
    exact absurd h (by decide)

lemma interrupt_outside (h : m.state ≠ .dcsPassThrough) : m.actionInterrupt engine = m := if_neg h

theorem processPlain_outside (hpass : m.state ≠ .dcsPassThrough)
    (hm : m.state.CollectsDcs → m.dcsStringHandler = none) (wch : UInt16) :
    Outside engine m (m.processPlain engine wch) := by
  unfold processPlain actions
  split
  · show Outside engine m (((m.actionInterrupt engine).perform engine (.execute wch)).enter engine .ground)
    rw [interrupt_outside hpass]
    obtain ⟨hframe, hadds⟩ := @perform_quiet engine m (.execute wch) trivial
    refine enter_outside (s := .ground) hadds (by decide) (fun handler h => ?_) (by simp)
    rwa [← hframe.dcsStringHandler]
  · split
    · show Outside engine m ((m.actionInterrupt engine).enter engine .escape)
      rw [interrupt_outside hpass]
      exact enter_outside (s := .escape) (.of_eq rfl) (by decide) (fun _ h => h) (by simp)
    · exact performAll_outside (event_shape _ _ wch m.state) rfl hpass hm

/-- ESC calls nothing outside a data string. -/
lemma processPlain_esc (hpass : m.state ≠ .dcsPassThrough) :
    (m.processPlain engine esc).calls = m.calls ∧
      ((m.processPlain engine esc).state = .escape ∨ (m.processPlain engine esc).state = .oscTermination) ∧
      ∀ handler, (m.processPlain engine esc).dcsStringHandler = some handler →
        m.dcsStringHandler = some handler := by
  unfold processPlain actions
  rw [if_neg (fun h => absurd h.1 (by decide))]
  split
  · show ((m.actionInterrupt engine).enter engine .escape).calls = m.calls ∧ _
    rw [interrupt_outside hpass]
    exact ⟨rfl, .inl rfl, fun _ h => nomatch h⟩
  · next hosc =>
    have hstate : m.state = .oscString ∨ m.state = .oscParam := by
      by_contra hneither
      rw [not_or] at hneither
      exact hosc ⟨rfl, hneither⟩
    have hevent : event engine.isEngineForInput m.parserMode esc m.state = [.enter .oscTermination] := by
      rcases hstate with h | h
      · rw [h]
        rfl
      · rw [h]
        rfl
    rw [hevent]
    exact ⟨rfl, .inr rfl, fun _ h => h⟩

/-- Behind ESC no data string is collected. -/
lemma escaped {s : VTState} (h : s = .escape ∨ s = .oscTermination) : s ≠ .dcsPassThrough ∧ ¬ s.CollectsDcs := by
  rcases h with rfl | rfl
  · decide
  · decide

theorem processCharacter_outside (hpass : m.state ≠ .dcsPassThrough)
    (hm : m.state.CollectsDcs → m.dcsStringHandler = none) (wch : UInt16) :
    Outside engine m (m.processCharacter engine wch) := by
  unfold processCharacter
  split
  · split
    · obtain ⟨hcalls, hstate, hhandler⟩ := @processPlain_esc engine m hpass
      obtain ⟨hnotPass, hnotCollects⟩ := escaped hstate
      refine (processPlain_outside hnotPass (fun h => absurd h hnotCollects) (c1To7Bit wch)).after ?_ hcalls hhandler
      exact fun h => absurd h hnotCollects
    · exact .plain (.of_eq rfl) hpass (fun _ h => h) hm
  · exact processPlain_outside hpass hm wch

/-! ### A character of a data string -/

/-- What a character does in a data string whose handler is `handler`. -/
inductive Inside (engine : Engine) (handler : ℕ) (wch : UInt16) (m m' : StateMachine) : Prop
  | ended (hends : EndsString m.parserMode wch) (t : StateMachine)
      (hcalls : t.calls = m.calls ++ [.dcsString handler esc]) (hhandler : t.dcsStringHandler = none)
      (hcollects : ¬ t.state.CollectsDcs) (houtside : Outside engine t m')
  | accepted (hends : ¬ EndsString m.parserMode wch) (hdata : isData wch = true)
      (hcalls : m'.calls = m.calls ++ [.dcsString handler wch])
      (haccepts : engine.handlerAccepts (unitsOf m'.calls) = true) (hstate : m'.state = .dcsPassThrough)
      (hhandler : m'.dcsStringHandler = some handler)
  | refused (hends : ¬ EndsString m.parserMode wch) (hdata : isData wch = true)
      (hcalls : m'.calls = m.calls ++ [.dcsString handler wch])
      (haccepts : engine.handlerAccepts (unitsOf m'.calls) = false) (hstate : m'.state = .dcsIgnore)
      (hhandler : m'.dcsStringHandler = some handler)
  | ignored (hends : ¬ EndsString m.parserMode wch) (hdata : isData wch = false) (hcalls : m'.calls = m.calls)
      (hstate : m'.state = .dcsPassThrough) (hhandler : m'.dcsStringHandler = some handler)

lemma c1_plain (h : isC1ControlCharacter wch = true) :
    wch ≠ esc ∧ wch ≠ can ∧ wch ≠ sub ∧ isData wch = false := by
  have hlow : 0x80 ≤ wch.toNat := by
    have hbounds : 0x80 ≤ wch ∧ wch ≤ 0x9f := by simpa [isC1ControlCharacter] using h
    exact UInt16.le_iff_toNat_le.mp hbounds.1
  have hne (c : UInt16) (hc : c.toNat < 0x80) : wch ≠ c := by
    rintro rfl
    omega
  have hnotLe (c : UInt16) (hc : c.toNat < 0x80) : ¬ wch ≤ c := by
    intro hle
    have hnat := UInt16.le_iff_toNat_le.mp hle
    omega
  refine ⟨hne esc (by decide), hne can (by decide), hne sub (by decide), ?_⟩
  have hpass : ¬ wch < 0x7f := fun hlt => hnotLe 0x7f (by decide) (UInt16.le_of_lt hlt)
  simp [isData, isC0Code, isDcsPassThroughValid, hnotLe 0x17 (by decide), hne 0x19 (by decide),
    hnotLe 0x1f (by decide), hpass]

section Inside

variable {handler : ℕ} (hpass : m.state = .dcsPassThrough) (hhandler : m.dcsStringHandler = some handler)

include hpass hhandler

lemma interrupt_inside : (m.actionInterrupt engine).calls = m.calls ++ [.dcsString handler esc] ∧
    (m.actionInterrupt engine).dcsStringHandler = none ∧ (m.actionInterrupt engine).state = .dcsPassThrough := by
  unfold actionInterrupt callHandler
  rw [if_pos hpass, hhandler]
  exact ⟨rfl, rfl, hpass⟩

lemma processPlain_esc_inside : (m.processPlain engine esc).calls = m.calls ++ [.dcsString handler esc] ∧
    (m.processPlain engine esc).dcsStringHandler = none ∧ (m.processPlain engine esc).state = .escape := by
  have hactions : m.actions engine esc = [.interrupt, .enter .escape] := by
    unfold actions
    rw [if_neg (fun h => absurd h.1 (by decide)), hpass]
    rfl
  unfold processPlain
  rw [hactions]
  exact ⟨(interrupt_inside hpass hhandler).1, rfl, rfl⟩

lemma processPlain_inside (hc1 : isC1ControlCharacter wch = false) :
    Inside engine handler wch m (m.processPlain engine wch) := by
  obtain ⟨hcalls, hnone, hinterrupted⟩ := @interrupt_inside engine m handler hpass hhandler
  have hcollects : ¬ (m.actionInterrupt engine).state.CollectsDcs := by
    rw [hinterrupted]
    decide
  by_cases hcancel : wch = can ∨ wch = sub
  · have hends : EndsString m.parserMode wch := by
      rcases hcancel with h | h
      · exact .inr (.inl h)
      · exact .inr (.inr (.inl h))
    have hactions : m.actions engine wch = [.interrupt, .execute wch, .enter .ground] := by
      unfold actions
      refine if_pos ⟨hcancel, fun h => ?_⟩
      rw [hpass] at h
      cases h.1
    obtain ⟨hframe, hadds⟩ := @perform_quiet engine (m.actionInterrupt engine) (.execute wch) trivial
    refine .ended hends _ hcalls hnone hcollects ?_
    unfold processPlain
    rw [hactions]
    refine enter_outside (s := .ground) hadds (by decide) (fun handler h => ?_) (by simp)
    rwa [← hframe.dcsStringHandler]
  · by_cases hesc : wch = esc
    · subst hesc
      obtain ⟨hcalls', hnone', hstate⟩ := @processPlain_esc_inside engine m handler hpass hhandler
      refine .ended (.inl rfl) _ hcalls hnone hcollects ?_
      refine .plain (.of_eq (hcalls'.trans hcalls.symm)) (by rw [hstate]; decide) (fun handler h => ?_) fun _ => hnone'
      rw [hnone'] at h
      cases h
    · have hends : ¬ EndsString m.parserMode wch := by
        rintro (h | h | h | h)
        · exact hesc h
        · exact hcancel (.inl h)
        · exact hcancel (.inr h)
        · rw [hc1] at h
          cases h.1
      have hactions : m.actions engine wch = if isData wch then [.dcsString wch] else [] := by
        unfold actions
        rw [if_neg (fun h => hcancel h.1), if_neg (fun h => hesc (by simpa [isEscape] using h.1)), hpass]
        rfl
      unfold processPlain
      rw [hactions]
      cases hdata : isData wch with
      | false => exact .ignored hends hdata rfl hpass hhandler
      | true =>
        show Inside engine handler wch m (m.perform engine (.dcsString wch))
        unfold perform callHandler
        rw [hhandler]
        dsimp only
        split
        · next haccepts => exact .accepted hends hdata rfl haccepts hpass hhandler
        · next haccepts => exact .refused hends hdata rfl (Bool.eq_false_iff.mpr haccepts) rfl hhandler

theorem processCharacter_inside (wch : UInt16) :
    Inside engine handler wch m (m.processCharacter engine wch) := by
  unfold processCharacter
  cases hc1 : isC1ControlCharacter wch with
  | false => exact processPlain_inside hpass hhandler hc1
  | true =>
    cases haccept : m.parserMode.acceptC1 with
    | true =>
      obtain ⟨hcalls, hnone, hstate⟩ := @processPlain_esc_inside engine m handler hpass hhandler
      obtain ⟨hnotPass, hcollects⟩ := escaped (.inl hstate)
      refine .ended (.inr (.inr (.inr ⟨hc1, haccept⟩))) _ hcalls hnone hcollects ?_
      exact processPlain_outside hnotPass (fun _ => hnone) (c1To7Bit wch)
    | false =>
      obtain ⟨hesc, hcan, hsub, hdata⟩ := c1_plain hc1
      have hends : ¬ EndsString m.parserMode wch := by
        rintro (h | h | h | h)
        · exact hesc h
        · exact hcan h
        · exact hsub h
        · rw [haccept] at h
          cases h.2
      exact .ignored hends hdata rfl hpass hhandler

end Inside

/-! ### The run of characters at the end of a string -/

@[simp] lemma enter_currentRun (engine : Engine) (m : StateMachine) (s : VTState) :
    (m.enter engine s).currentRun = m.currentRun := by
  cases s <;> rfl

lemma afterCall_currentRun (engine : Engine) (m : StateMachine) : (m.afterCall engine).currentRun = m.currentRun := by
  rcases afterCall_cases engine m with h | h
  · rw [h]
  · rw [h]
    unfold flushToTerminal
    split
    · rfl
    · rfl

lemma ensureParameter_currentRun (m : StateMachine) : m.ensureParameter.currentRun = m.currentRun := by
  unfold ensureParameter
  split
  · rfl
  · rfl

lemma callHandler_currentRun (engine : Engine) (m : StateMachine) (wch : UInt16) :
    (m.callHandler engine wch).1.currentRun = m.currentRun := by
  unfold callHandler
  split
  · rfl
  · rfl

lemma actionParam_currentRun (m : StateMachine) (wch : UInt16) : (m.actionParam wch).currentRun = m.currentRun := by
  have hensure := ensureParameter_currentRun m
  unfold actionParam
  dsimp only
  split
  · split
    · split
      · exact hensure
      · exact hensure
    · split
      · exact hensure
      · exact hensure
  · rfl

lemma actionSubParam_currentRun (m : StateMachine) (wch : UInt16) :
    (m.actionSubParam wch).currentRun = m.currentRun := by
  have hensure := ensureParameter_currentRun m
  unfold actionSubParam
  dsimp only
  split
  · split
    · split
      · exact hensure
      · split
        · exact hensure
        · exact hensure
    · split
      · exact hensure
      · exact hensure
  · rfl

lemma actionDcsDispatch_currentRun (engine : Engine) (m : StateMachine) (wch : UInt16) :
    (m.actionDcsDispatch engine wch).currentRun = m.currentRun := by
  unfold actionDcsDispatch
  dsimp only
  split
  · rfl
  · rfl
  · split
    · rfl
    · rfl

@[simp] lemma perform_currentRun (engine : Engine) (m : StateMachine) (a : Action) :
    (m.perform engine a).currentRun = m.currentRun := by
  cases a with
  | collect | oscParam | oscPut => rfl
  | param wch => exact actionParam_currentRun m wch
  | subParam wch => exact actionSubParam_currentRun m wch
  | dcsDispatch wch => exact actionDcsDispatch_currentRun engine m wch
  | interrupt =>
    show (if _ then _ else _ : StateMachine).currentRun = _
    split
    · exact callHandler_currentRun engine m esc
    · rfl
  | enter s => exact enter_currentRun engine m s
  | vt52Param wch =>
    unfold perform
    dsimp only
    split
    · rw [enter_currentRun]
      exact afterCall_currentRun engine _
    · rfl
  | dcsString wch =>
    unfold perform
    dsimp only
    split
    · exact callHandler_currentRun engine m wch
    · rw [enter_currentRun]
      exact callHandler_currentRun engine m wch
  | _ => exact afterCall_currentRun engine _

lemma performAll_currentRun (engine : Engine) (m : StateMachine) (actions : List Action) :
    (m.performAll engine actions).currentRun = m.currentRun := by
  induction actions generalizing m with
  | nil => rfl
  | cons a actions ih => exact (ih (m.perform engine a)).trans (perform_currentRun engine m a)

lemma processCharacter_currentRun (engine : Engine) (m : StateMachine) (wch : UInt16) :
    (m.processCharacter engine wch).currentRun = m.currentRun := by
  unfold processCharacter
  split
  · split
    · exact (performAll_currentRun engine _ _).trans (performAll_currentRun engine m _)
    · rfl
  · exact performAll_currentRun engine m _

/-! ### Steps -/

/-- A handler that has been called before was returned before. -/
def PastKnown (m : StateMachine) : Prop :=
  (∀ handler, m.dcsStringHandler = some handler → handler ≤ dispatches m.calls) ∧
    ∀ handler wch, .dcsString handler wch ∈ m.calls → handler ≤ dispatches m.calls

/-- Where the run of a string is short and begins with ESC, it has not reached a data string. -/
def ShortRun (m : StateMachine) : Prop :=
  m.currentRun.head? = some esc →
    (m.currentRun.length = 1 → m.state ≠ .dcsPassThrough ∧ ¬ m.state.CollectsDcs) ∧
      (m.currentRun.length = 2 → m.state ≠ .dcsPassThrough)

/-- What every step keeps. -/
structure HandlersKnown (m : StateMachine) : Prop where
  ready : HandlerReady m
  cleared : m.state.CollectsDcs → m.dcsStringHandler = none
  past : PastKnown m
  short : ShortRun m

/-- What a step does to the handlers. -/
inductive Moved (engine : Engine) (s : Step) (m m' : StateMachine) : Prop
  | same (hs : ∀ wch, s ≠ .character wch) (hcalls : AddsPlain m m') (hstate : m'.state = m.state)
      (hhandler : m'.dcsStringHandler = m.dcsStringHandler)
  | outside (hpass : m.state ≠ .dcsPassThrough) (houtside : Outside engine m m')
  | inside (wch : UInt16) (handler : ℕ) (hs : s = .character wch) (hpass : m.state = .dcsPassThrough)
      (hhandler : m.dcsStringHandler = some handler) (hinside : Inside engine handler wch m m')

lemma printRun_adds (engine : Engine) (m : StateMachine) (run : List UInt16) : AddsPlain m (m.printRun engine run) := by
  unfold printRun
  split
  · exact .of_eq rfl
  · have hprinted : AddsPlain m ({ m with currentRun := run }.quietCall (.printString run)) := .one rfl trivial
    exact hprinted.trans (afterCall_adds engine _)

lemma HandlersKnown.short_ne (hm : HandlersKnown m) (hlength : m.currentRun.length ≤ 2)
    (hhead : m.currentRun.head? = some esc) : m.state ≠ .dcsPassThrough := by
  have hpositive : m.currentRun.length ≠ 0 := fun h => by
    rw [List.length_eq_zero_iff.mp h] at hhead
    cases hhead
  obtain ⟨hone, htwo⟩ := hm.short hhead
  by_cases h : m.currentRun.length = 1
  · exact (hone h).1
  · exact htwo (by omega)

theorem step_moved (hm : HandlersKnown m) (s : Step) : Moved engine s m (m.step engine s) := by
  cases s with
  | start => exact .same (fun _ h => nomatch h) (.of_eq rfl) rfl rfl
  | character wch =>
    by_cases hpass : m.state = .dcsPassThrough
    · obtain ⟨handler, hhandler⟩ := Option.isSome_iff_exists.mp (hm.ready hpass)
      have hinside := @processCharacter_inside engine { m with currentRun := m.currentRun ++ [wch] } handler hpass
        hhandler wch
      refine .inside wch handler rfl hpass hhandler ?_
      cases hinside with
      | ended hends t hcalls hnone hcollects houtside => exact .ended hends t hcalls hnone hcollects houtside
      | accepted hends hdata hcalls haccepts hstate hsame =>
        exact .accepted hends hdata hcalls haccepts hstate hsame
      | refused hends hdata hcalls haccepts hstate hsame => exact .refused hends hdata hcalls haccepts hstate hsame
      | ignored hends hdata hcalls hstate hsame => exact .ignored hends hdata hcalls hstate hsame
    · have houtside := @processCharacter_outside engine { m with currentRun := m.currentRun ++ [wch] } hpass hm.cleared wch
      exact .outside hpass (houtside.after id rfl fun _ h => h)
  | print run =>
    have hframe := printRun_frame engine m run
    exact .same (fun _ h => nomatch h) (printRun_adds engine m run) hframe.state hframe.dcsStringHandler
  | finish =>
    rcases endOfString_cases engine m with ⟨cached, heq⟩ | ⟨t, heq, ht, hlength, hhead⟩
    · show Moved engine .finish m (m.endOfString engine)
      rw [heq]
      exact .same (fun _ h => nomatch h) (.of_eq rfl) rfl rfl
    · refine .outside (hm.short_ne hlength hhead) ?_
      show Outside engine m (m.endOfString engine)
      rw [heq]
      rcases ht with rfl | rfl
      · obtain ⟨hframe, hadds⟩ := @perform_quiet engine (m.enter engine .ground) (.execute esc) trivial
        refine enter_outside (s := .ground) ((enter_adds engine m .ground).trans hadds) (by decide) (fun handler h => ?_)
          (by simp)
        have hsame := hframe.dcsStringHandler
        exact hsame.symm.trans h
      · obtain ⟨hframe, hadds⟩ := @perform_quiet engine ((m.enter engine .ground).enter engine .escape)
          (.escDispatch (m.currentRun.getLastD 0)) trivial
        have hcalls : AddsPlain m ((m.enter engine .ground).enter engine .escape) := .of_eq rfl
        refine enter_outside (s := .ground) (hcalls.trans hadds) (by decide) (fun handler h => ?_) (by simp)
        have hsame := hframe.dcsStringHandler
        exact nomatch hsame.symm.trans h

lemma AddsPlain.pastKnown (h : AddsPlain m m') (hm : PastKnown m)
    (hhandler : ∀ handler, m'.dcsStringHandler = some handler → m.dcsStringHandler = some handler) :
    PastKnown m' := by
  have hcount := h.dispatches
  obtain ⟨calls, hcalls, hplain⟩ := h
  refine ⟨fun handler h => hcount ▸ hm.1 handler (hhandler handler h), fun handler wch h => ?_⟩
  rw [hcalls] at h
  rcases List.mem_append.mp h with h | h
  · exact hcount ▸ hm.2 handler wch h
  · exact absurd (hplain _ h) id

/-- A dispatch leaves the handlers called before behind. -/
lemma dispatch_pastKnown {id : UInt64} {parameters : List VTParameter}
    (hcalls : m'.calls = m.calls ++ [.dcsDispatch id parameters]) (hm : PastKnown m)
    (hhandler : ∀ handler, m'.dcsStringHandler = some handler → handler ≤ dispatches m'.calls) : PastKnown m' := by
  refine ⟨hhandler, fun handler wch h => ?_⟩
  have hcount : dispatches m'.calls = dispatches m.calls + 1 := by
    rw [hcalls, dispatches_append]
    rfl
  rw [hcalls] at h
  rcases List.mem_append.mp h with h | h
  · have hle := hm.2 handler wch h
    omega
  · cases List.mem_singleton.mp h

lemma string_pastKnown {handler : ℕ} (hcalls : m'.calls = m.calls ++ [.dcsString handler wch]) (hm : PastKnown m)
    (hhandler : m.dcsStringHandler = some handler)
    (hsame : ∀ h, m'.dcsStringHandler = some h → m.dcsStringHandler = some h) : PastKnown m' := by
  have hcount : dispatches m'.calls = dispatches m.calls := by
    rw [hcalls, dispatches_append]
    rfl
  refine ⟨fun h hh => hcount ▸ hm.1 h (hsame h hh), fun h c hc => ?_⟩
  rw [hcalls] at hc
  rcases List.mem_append.mp hc with hc | hc
  · exact hcount ▸ hm.2 h c hc
  · cases List.mem_singleton.mp hc
    exact hcount ▸ hm.1 handler hhandler

lemma Outside.pastKnown (h : Outside engine m m') (hm : PastKnown m) : PastKnown m' := by
  cases h with
  | plain hadds hstate hh hcleared => exact hadds.pastKnown hm hh
  | refused id parameters hcollects hnew hanswer hstate hh =>
    refine dispatch_pastKnown hnew hm fun handler h => ?_
    rw [hh] at h
    cases h
  | returned id parameters hcollects hnew hanswer hstate hh =>
    refine dispatch_pastKnown hnew hm fun handler h => ?_
    rw [hh] at h
    exact (Option.some.inj h).ge

lemma Outside.cleared (h : Outside engine m m') : m'.state.CollectsDcs → m'.dcsStringHandler = none := by
  cases h with
  | plain hadds hstate hh hcleared => exact hcleared
  | refused id parameters hcollects hnew hanswer hstate hh => exact fun _ => hh
  | returned id parameters hcollects hnew hanswer hstate hh =>
    intro h
    rw [hstate] at h
    exact absurd h (by decide)

lemma Moved.pastKnown {s : Step} (h : Moved engine s m m') (hm : PastKnown m) : PastKnown m' := by
  cases h with
  | same hs hcalls hstate hhandler => exact hcalls.pastKnown hm fun handler h => hhandler ▸ h
  | outside hpass houtside => exact houtside.pastKnown hm
  | inside wch handler hs hpass hhandler hinside =>
    cases hinside with
    | ended hends t hcalls hnone hcollects houtside =>
      refine houtside.pastKnown (string_pastKnown hcalls hm hhandler fun h hh => ?_)
      rw [hnone] at hh
      cases hh
    | accepted hends hdata hcalls haccepts hstate hsame | refused hends hdata hcalls haccepts hstate hsame =>
      exact string_pastKnown hcalls hm hhandler fun h hh => hhandler.trans (hsame.symm.trans hh)
    | ignored hends hdata hcalls hstate hsame =>
      exact (AddsPlain.of_eq hcalls).pastKnown hm fun h hh => hhandler.trans (hsame.symm.trans hh)

lemma Moved.cleared {s : Step} (h : Moved engine s m m') (hm : m.state.CollectsDcs → m.dcsStringHandler = none) :
    m'.state.CollectsDcs → m'.dcsStringHandler = none := by
  cases h with
  | same hs hcalls hstate hhandler =>
    rw [hstate, hhandler]
    exact hm
  | outside hpass houtside => exact houtside.cleared
  | inside wch handler hs hpass hhandler hinside =>
    cases hinside with
    | ended hends t hcalls hnone hcollects houtside => exact houtside.cleared
    | accepted hends hdata hcalls haccepts hstate | refused hends hdata hcalls haccepts hstate
    | ignored hends hdata hcalls hstate => exact fun h => absurd (hstate ▸ h) (by decide)

lemma processCharacter_esc_state (engine : Engine) (hm : HandlerReady m) :
    (m.processCharacter engine esc).state = .escape ∨ (m.processCharacter engine esc).state = .oscTermination := by
  show (m.processPlain engine esc).state = _ ∨ (m.processPlain engine esc).state = _
  by_cases hpass : m.state = .dcsPassThrough
  · obtain ⟨handler, hhandler⟩ := Option.isSome_iff_exists.mp (hm hpass)
    exact .inl (processPlain_esc_inside hpass hhandler).2.2
  · exact (processPlain_esc hpass).2.1

lemma Outside.state_ne (h : Outside engine m m') (hm : ¬ m.state.CollectsDcs) : m'.state ≠ .dcsPassThrough := by
  cases h with
  | plain hadds hstate hh hcleared => exact hstate
  | refused id parameters hcollects | returned id parameters hcollects => exact absurd hcollects hm

lemma character_shortRun (hm : HandlersKnown m) (wch : UInt16) : ShortRun (m.step engine (.character wch)) := by
  have hrun : (m.step engine (.character wch)).currentRun = m.currentRun ++ [wch] :=
    processCharacter_currentRun engine _ wch
  intro hhead
  rw [hrun] at hhead ⊢
  rw [List.length_append, List.length_singleton]
  constructor
  · intro hlength
    have hnil : m.currentRun = [] := List.length_eq_zero_iff.mp (by omega)
    rw [hnil] at hhead
    cases hhead
    exact escaped (processCharacter_esc_state engine hm.ready)
  · intro hlength
    have hhead' : m.currentRun.head? = some esc := by
      cases hold : m.currentRun with
      | nil =>
        rw [hold] at hlength
        cases hlength
      | cons first rest =>
        rw [hold] at hhead
        exact hhead
    obtain ⟨hpass, hcollects⟩ := (hm.short hhead').1 (by omega)
    cases @step_moved engine m hm (.character wch) with
    | same hs hcalls hstate hhandler => exact absurd rfl (hs wch)
    | outside hpass houtside => exact houtside.state_ne hcollects
    | inside wch handler hs hin hhandler hinside => exact absurd hin hpass

theorem HandlersKnown.step (hm : HandlersKnown m) (s : Step) : HandlersKnown (m.step engine s) := by
  have hmoved := @step_moved engine m hm s
  refine ⟨?_, hmoved.cleared hm.cleared, hmoved.pastKnown hm.past, ?_⟩
  · cases s with
    | start => exact handlerReady_of_same hm.ready rfl rfl
    | character wch =>
      have hready : HandlerReady { m with currentRun := m.currentRun ++ [wch] } :=
        handlerReady_of_same hm.ready rfl rfl
      exact processCharacter_handlerReady hready wch
    | print run =>
      have hframe := printRun_frame engine m run
      exact handlerReady_of_same hm.ready hframe.state hframe.dcsStringHandler
    | finish =>
      rcases endOfString_cases engine m with ⟨cached, heq⟩ | ⟨t, heq, -⟩
      · show HandlerReady (m.endOfString engine)
        rw [heq]
        exact handlerReady_of_same hm.ready rfl rfl
      · show HandlerReady (m.endOfString engine)
        rw [heq]
        exact handlerReady_enter engine .ground (by decide)
  · cases s with
    | start => exact fun h => nomatch h
    | character wch => exact character_shortRun hm wch
    | print run =>
      have hrun : (m.printRun engine run).currentRun = [] := by
        unfold printRun
        split
        · rfl
        · rfl
      intro hhead
      rw [StateMachine.step, hrun] at hhead
      cases hhead
    | finish =>
      rcases endOfString_cases engine m with ⟨cached, heq⟩ | ⟨t, heq, -⟩
      · show ShortRun (m.endOfString engine)
        rw [heq]
        exact hm.short
      · show ShortRun (m.endOfString engine)
        rw [heq]
        refine fun _ => ⟨fun _ => ?_, fun _ => ?_⟩
        · rw [enter_state]
          decide
        · rw [enter_state]
          decide

lemma HandlersKnown.steps (hm : HandlersKnown m) (steps : List Step) : HandlersKnown (m.steps engine steps) := by
  induction steps generalizing m with
  | nil => exact hm
  | cons s steps ih => exact ih (hm.step s)

lemma handlersKnown_start (mode : ParserMode) : HandlersKnown { parserMode := mode } where
  ready := fun h => nomatch h
  cleared := fun _ => rfl
  past := ⟨(fun _ h => nomatch h), fun _ _ h => nomatch h⟩
  short := fun h => nomatch h

/-! ### A handler whose string is over -/

/-- The handler will not be called again. -/
def Finished (handler : ℕ) (m : StateMachine) : Prop :=
  handler ≤ dispatches m.calls ∧ (m.state = .dcsPassThrough → m.dcsStringHandler ≠ some handler)

lemma charsOf_string {handler handler' : ℕ} (calls : List EngineCall) (h : handler' ≠ handler) (wch : UInt16) :
    charsOf handler (calls ++ [.dcsString handler' wch]) = charsOf handler calls := by
  have hnone : charsOf handler [.dcsString handler' wch] = [] := by
    simp [charsOf, EngineCall.charOf, h]
  rw [charsOf_append, hnone, List.append_nil]

lemma charsOf_own (handler : ℕ) (calls : List EngineCall) (wch : UInt16) :
    charsOf handler (calls ++ [.dcsString handler wch]) = charsOf handler calls ++ [wch] := by
  have hone : charsOf handler [.dcsString handler wch] = [wch] := by
    simp [charsOf, EngineCall.charOf]
  rw [charsOf_append, hone]

lemma charsOf_dispatch (handler : ℕ) (calls : List EngineCall) (id : UInt64) (parameters : List VTParameter) :
    charsOf handler (calls ++ [.dcsDispatch id parameters]) = charsOf handler calls := by
  rw [charsOf_append]
  exact List.append_nil _

lemma dispatches_string (calls : List EngineCall) (handler : ℕ) (wch : UInt16) :
    dispatches (calls ++ [.dcsString handler wch]) = dispatches calls := by
  rw [dispatches_append]
  rfl

lemma dispatches_dispatch (calls : List EngineCall) (id : UInt64) (parameters : List VTParameter) :
    dispatches (calls ++ [.dcsDispatch id parameters]) = dispatches calls + 1 := by
  rw [dispatches_append]
  rfl

/-- Outside of data strings a handler that was returned before is not called. -/
lemma Outside.finished {handler : ℕ} (h : Outside engine m m') (hhandler : handler ≤ dispatches m.calls) :
    Finished handler m' ∧ charsOf handler m'.calls = charsOf handler m.calls := by
  cases h with
  | plain hadds hstate hh hcleared =>
    exact ⟨⟨hadds.dispatches ▸ hhandler, fun h => absurd h hstate⟩, hadds.charsOf handler⟩
  | refused id parameters hcollects hnew hanswer hstate hh =>
    rw [Finished, hnew, dispatches_dispatch, charsOf_dispatch, hh]
    exact ⟨⟨by omega, fun _ h => nomatch h⟩, rfl⟩
  | returned id parameters hcollects hnew hanswer hstate hh =>
    rw [Finished, hh, hnew, dispatches_dispatch, charsOf_dispatch]
    refine ⟨⟨by omega, fun _ h => ?_⟩, rfl⟩
    have heq := Option.some.inj h
    omega

theorem Finished.step {handler : ℕ} (hm : HandlersKnown m) (h : Finished handler m) (s : Step) :
    Finished handler (m.step engine s) ∧ charsOf handler (m.step engine s).calls = charsOf handler m.calls := by
  cases @step_moved engine m hm s with
  | same hs hcalls hstate hhandler =>
    refine ⟨⟨hcalls.dispatches ▸ h.1, ?_⟩, hcalls.charsOf handler⟩
    rw [hstate, hhandler]
    exact h.2
  | outside hpass houtside => exact houtside.finished h.1
  | inside wch handler' hs hpass hhandler hinside =>
    have hother : handler' ≠ handler := by
      rintro rfl
      exact h.2 hpass hhandler
    cases hinside with
    | ended hends t hcalls hnone hcollects houtside =>
      have hle : handler ≤ dispatches t.calls := by
        rw [hcalls, dispatches_string]
        exact h.1
      obtain ⟨hfinished, hchars⟩ := houtside.finished hle
      exact ⟨hfinished, by rw [hchars, hcalls, charsOf_string _ hother]⟩
    | accepted hends hdata hcalls haccepts hstate hsame | refused hends hdata hcalls haccepts hstate hsame =>
      rw [Finished, hcalls, dispatches_string, charsOf_string _ hother, hsame]
      exact ⟨⟨h.1, fun _ heq => hother (Option.some.inj heq)⟩, rfl⟩
    | ignored hends hdata hcalls hstate hsame =>
      rw [Finished, hcalls, hsame]
      exact ⟨⟨h.1, fun _ heq => hother (Option.some.inj heq)⟩, rfl⟩

/-- **A handler whose string is over is not called again.** -/
theorem Finished.steps {handler : ℕ} (hm : HandlersKnown m) (h : Finished handler m) (steps : List Step) :
    charsOf handler (m.steps engine steps).calls = charsOf handler m.calls := by
  induction steps generalizing m with
  | nil => rfl
  | cons s steps ih =>
    obtain ⟨hfinished, hchars⟩ := @Finished.step engine m handler hm h s
    exact (ih (hm.step s) hfinished).trans hchars

/-! ### A handler whose string goes on -/

lemma expectedChars_other {s : Step} (hs : ∀ wch, s ≠ .character wch) (handler : ℕ) (rest : List Step) :
    expectedChars engine handler m (s :: rest) = expectedChars engine handler (m.step engine s) rest := by
  cases s with
  | character wch => exact absurd rfl (hs wch)
  | _ => rfl

/-- **What a handler is called with while its string goes on.** -/
theorem charsOf_steps {handler : ℕ} (hm : HandlersKnown m) (hpass : m.state = .dcsPassThrough)
    (hhandler : m.dcsStringHandler = some handler) (steps : List Step) :
    charsOf handler (m.steps engine steps).calls =
      charsOf handler m.calls ++ expectedChars engine handler m steps := by
  induction steps generalizing m with
  | nil => exact (List.append_nil _).symm
  | cons s steps ih =>
    have hknown := @HandlersKnown.step engine m hm s
    show charsOf handler ((m.step engine s).steps engine steps).calls = _
    cases @step_moved engine m hm s with
    | same hs hcalls hstate hsame =>
      rw [ih hknown (hstate.trans hpass) (hsame.trans hhandler), hcalls.charsOf handler, expectedChars_other hs]
    | outside hout houtside => exact absurd hpass hout
    | inside wch handler' hs hin hhandler' hinside =>
      subst hs
      obtain rfl : handler' = handler := Option.some.inj (hhandler'.symm.trans hhandler)
      unfold expectedChars
      cases hinside with
      | ended hends t hcalls hnone hcollects houtside =>
        have hle : handler' ≤ dispatches t.calls := by
          rw [hcalls, dispatches_string]
          exact hm.past.1 handler' hhandler
        obtain ⟨hfinished, hchars⟩ := houtside.finished hle
        rw [hfinished.steps hknown, hchars, hcalls, charsOf_own, if_pos hends]
      | accepted hends hdata hcalls haccepts hstate hsame =>
        rw [hcalls] at haccepts
        rw [ih hknown hstate hsame, hcalls, charsOf_own, if_neg hends, if_pos hdata, if_pos haccepts,
          List.append_assoc]
        rfl
      | refused hends hdata hcalls haccepts hstate hsame =>
        have hfinished : Finished handler' (m.step engine (.character wch)) := by
          refine ⟨?_, fun h => absurd (hstate.symm.trans h) (by decide)⟩
          rw [hcalls, dispatches_string]
          exact hm.past.1 handler' hhandler
        rw [hcalls] at haccepts
        rw [hfinished.steps hknown, hcalls, charsOf_own, if_neg hends, if_pos hdata, haccepts,
          if_neg Bool.false_ne_true]
      | ignored hends hdata hcalls hstate hsame =>
        rw [ih hknown hstate hsame, hcalls, if_neg hends, hdata, if_neg Bool.false_ne_true]

/-- CAN and SUB end every sequence. -/
lemma cancel_ground (hcancel : wch = can ∨ wch = sub) : (m.processCharacter engine wch).state = .ground := by
  have hplain : m.processCharacter engine wch = m.processPlain engine wch := by
    rcases hcancel with rfl | rfl
    · rfl
    · rfl
  rw [hplain, processPlain]
  by_cases hescape : m.state = .escape ∧ engine.isEngineForInput = true
  · -- The engine for input takes them as the end of an escape sequence.
    obtain ⟨hstate, hinput⟩ := hescape
    have hactions : m.actions engine wch = eventEscape true m.parserMode wch := by
      unfold actions
      rw [if_neg (fun h => h.2 ⟨hstate, hinput⟩), hstate, hinput]
      rcases hcancel with rfl | rfl
      · rfl
      · rfl
    have hevent : eventEscape true m.parserMode wch = [.escDispatch wch, .enter .ground] ∨
        eventEscape true m.parserMode wch = [.vt52EscDispatch wch, .enter .ground] := by
      unfold eventEscape
      cases m.parserMode.ansi with
      | true =>
        left
        rcases hcancel with rfl | rfl
        · rfl
        · rfl
      | false =>
        right
        rcases hcancel with rfl | rfl
        · rfl
        · rfl
    rw [hactions]
    rcases hevent with h | h
    · rw [h]
      exact enter_state engine _ .ground
    · rw [h]
      exact enter_state engine _ .ground
  · have hactions : m.actions engine wch = [.interrupt, .execute wch, .enter .ground] := if_pos ⟨hcancel, hescape⟩
    rw [hactions]
    exact enter_state engine _ .ground

/-- A step that asks for a handler, in a state `m`. -/
structure Dispatched (engine : Engine) (m m' : StateMachine) : Prop where
  asked : ∃ id parameters, m'.calls = m.calls ++ [.dcsDispatch id parameters]
  returned : engine.dcsAnswer (unitsOf m'.calls) = .handler →
    m'.state = .dcsPassThrough ∧ m'.dcsStringHandler = some (dispatches m'.calls) ∧
      ∀ rest, charsOf (dispatches m'.calls) (m'.steps engine rest).calls =
        expectedChars engine (dispatches m'.calls) m' rest
  refused : engine.dcsAnswer (unitsOf m'.calls) ≠ .handler →
    m'.state = .dcsIgnore ∧ ∀ rest, charsOf (dispatches m'.calls) (m'.steps engine rest).calls = []

/-- A handler that is just returned was not called before. -/
lemma HandlersKnown.charsOf_new {id : UInt64} {parameters : List VTParameter} (hm : HandlersKnown m)
    (hcalls : m'.calls = m.calls ++ [.dcsDispatch id parameters]) :
    charsOf (dispatches m'.calls) m'.calls = [] := by
  rw [hcalls, dispatches_dispatch, charsOf_dispatch]
  refine List.filterMap_eq_nil_iff.mpr fun c hc => ?_
  cases c with
  | dcsString handler wch =>
    have hle := hm.past.2 handler wch hc
    exact if_neg (by omega)
  | _ => rfl

theorem step_dispatched (hm : HandlersKnown m) (s : Step)
    (hnew : dispatches (m.step engine s).calls ≠ dispatches m.calls) : Dispatched engine m (m.step engine s) := by
  have hknown := @HandlersKnown.step engine m hm s
  cases @step_moved engine m hm s with
  | same hs hcalls hstate hsame => exact absurd hcalls.dispatches hnew
  | outside hout houtside =>
    cases houtside with
    | plain hadds hstate hh hcleared => exact absurd hadds.dispatches hnew
    | refused id parameters hcollects hcalls hanswer hstate hh =>
      refine ⟨⟨id, parameters, hcalls⟩, fun h => absurd h hanswer, fun _ => ⟨hstate, fun rest => ?_⟩⟩
      have hfinished : Finished (dispatches (m.step engine s).calls) (m.step engine s) :=
        ⟨le_refl _, fun h => absurd (hstate.symm.trans h) (by decide)⟩
      rw [hfinished.steps hknown, hm.charsOf_new hcalls]
    | returned id parameters hcollects hcalls hanswer hstate hh =>
      refine ⟨⟨id, parameters, hcalls⟩, fun _ => ⟨hstate, hh, fun rest => ?_⟩, fun h => absurd hanswer h⟩
      rw [charsOf_steps hknown hstate hh, hm.charsOf_new hcalls, List.nil_append]
  | inside wch handler hs hpass hhandler hinside =>
    have hstring {t : StateMachine} {c : UInt16} (hcalls : t.calls = m.calls ++ [.dcsString handler c]) :
        dispatches t.calls = dispatches m.calls := by rw [hcalls, dispatches_string]
    cases hinside with
    | ended hends t hcalls hnone hcollects houtside =>
      cases houtside with
      | plain hadds hstate hh hcleared => exact absurd (hadds.dispatches.trans (hstring hcalls)) hnew
      | refused id parameters hcollects' | returned id parameters hcollects' =>
        exact absurd hcollects' hcollects
    | accepted hends hdata hcalls | refused hends hdata hcalls => exact absurd (hstring hcalls) hnew
    | ignored hends hdata hcalls hstate hsame => exact absurd (congrArg dispatches hcalls) hnew

/-- **The protocol of data strings**, for every engine and every run. -/
theorem dataStrings_protocol (engine : Engine) (mode : ParserMode) (before : List Step) (s : Step) :
    let m := StateMachine.steps engine { parserMode := mode } before
    HandlerReady m ∧
      (dispatches (m.step engine s).calls ≠ dispatches m.calls → Dispatched engine m (m.step engine s)) ∧
      (∀ wch, wch = can ∨ wch = sub → (m.step engine (.character wch)).state = .ground) ∧
      ∀ strings : List (List UInt16), ∃ steps,
        StepsOver engine m (strings.foldl (processString engine) m) strings.flatten steps := by
  intro m
  have hm : HandlersKnown m := (handlersKnown_start mode).steps before
  exact ⟨hm.ready, step_dispatched hm s, fun wch h => cancel_ground h, processStrings_steps engine m⟩

/-- `ESC P q`, then `a`, CAN and `b`: the handler is called with `a` and an ESC. -/
theorem dataStrings_protocol_sample :
    charsOf 1 (StateMachine.steps acceptingEngine
      ((StateMachine.steps acceptingEngine { parserMode := ⟨false, true⟩ } [.character 27, .character 80]).step
        acceptingEngine (.character 113)) [.character 97, .character 24, .character 98]).calls = [97, 27] := by
  have hnew : dispatches ((StateMachine.steps acceptingEngine { parserMode := ⟨false, true⟩ }
      [.character 27, .character 80]).step acceptingEngine (.character 113)).calls ≠
      dispatches (StateMachine.steps acceptingEngine { parserMode := ⟨false, true⟩ }
        [.character 27, .character 80]).calls := by decide
  have hprotocol := (dataStrings_protocol acceptingEngine ⟨false, true⟩ [.character 27, .character 80]
    (.character 113)).2.1 hnew
  exact (hprotocol.returned rfl).2.2 [.character 97, .character 24, .character 98]

end VT7.Parser
