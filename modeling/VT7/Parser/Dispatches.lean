import VT7.Parser.CsiGrammar

/-!
# What a character tells the engine

A character leads to at most one escape sequence.  Then the parser is at ground, what it flushes for the sequence comes
behind it, and in front of it there is no control sequence (`Reports`).
-/

namespace VT7.Parser

open StateMachine

def EngineCall.isEscDispatch : EngineCall → Bool
  | escDispatch _ => true
  | _ => false

def EngineCall.isPrint : EngineCall → Bool
  | print _ => true
  | _ => false

def EngineCall.isPassThrough : EngineCall → Bool
  | passThroughString _ => true
  | _ => false

def Action.isEscDispatch : Action → Bool
  | escDispatch _ => true
  | _ => false

def Action.isPrint : Action → Bool
  | print _ => true
  | _ => false

/-- The new calls have a property. -/
def Adds (p : EngineCall → Prop) (m m' : StateMachine) : Prop :=
  ∃ calls, m'.calls = m.calls ++ calls ∧ ∀ c ∈ calls, p c

/-- The calls that a part of `ProcessString` makes before it leaves the parser in a state. -/
inductive News (state : VTState) : List EngineCall → Prop
  | noEscape {news : List EngineCall} (hnews : ∀ c ∈ news, c.isEscDispatch = false) : News state news
  | escape {front back : List EngineCall} {id : UInt64} (hstate : state = .ground)
      (hfront : ∀ c ∈ front, c.isEscDispatch = false ∧ c.isCsiDispatch = false)
      (hback : ∀ c ∈ back, c.isPassThrough = true) : News state (front ++ .escDispatch id :: back)

def Reports (m m' : StateMachine) : Prop := ∃ news, m'.calls = m.calls ++ news ∧ News m'.state news

variable {engine : Engine} {p q : EngineCall → Prop} {m m' m'' : StateMachine}

namespace Adds

lemma of_eq (h : m'.calls = m.calls) : Adds p m m' := ⟨[], by rw [h, List.append_nil], fun _ hc => nomatch hc⟩

lemma one {c : EngineCall} (h : m'.calls = m.calls ++ [c]) (hc : p c) : Adds p m m' := by
  refine ⟨[c], h, fun c' hc' => ?_⟩
  rwa [List.mem_singleton.mp hc']

lemma trans (h : Adds p m m') (h' : Adds p m' m'') : Adds p m m'' := by
  obtain ⟨calls, hcalls, hp⟩ := h
  obtain ⟨calls', hcalls', hp'⟩ := h'
  refine ⟨calls ++ calls', by rw [hcalls', hcalls, List.append_assoc], fun c hc => ?_⟩
  rcases List.mem_append.mp hc with hc | hc
  · exact hp c hc
  · exact hp' c hc

lemma mono (h : Adds p m m') (hpq : ∀ c, p c → q c) : Adds q m m' := by
  obtain ⟨calls, hcalls, hp⟩ := h
  exact ⟨calls, hcalls, fun c hc => hpq c (hp c hc)⟩

end Adds

/-- The flush behind a call. -/
lemma afterCall_passes (engine : Engine) (m : StateMachine) :
    Adds (fun c => c.isPassThrough = true) m (m.afterCall engine) := by
  rcases afterCall_cases engine m with h | h
  · exact .of_eq (by rw [h])
  rw [h]
  unfold flushToTerminal
  cases m.cachedSequence with
  | none => exact .one rfl rfl
  | some sequence =>
    have hcached : Adds (fun c => c.isPassThrough = true) m
        { m.quietCall (.passThroughString sequence) with cachedSequence := none } := .one rfl rfl
    exact hcached.trans (.one rfl rfl)

lemma not_escDispatch_of_passThrough {c : EngineCall} (hc : c.isPassThrough = true) :
    c.isEscDispatch = false ∧ c.isCsiDispatch = false := by
  cases c with
  | passThroughString string => exact ⟨rfl, rfl⟩
  | _ => exact absurd hc Bool.false_ne_true

/-- A guarded call. -/
lemma called_adds {c : EngineCall} (hc : p c) (hflush : ∀ c : EngineCall, c.isPassThrough = true → p c) :
    Adds p m ((m.call engine c).afterCall engine) ∧ Adds p m ((m.quietCall c).afterCall engine) := by
  have hcall : Adds p m (m.call engine c) := .one rfl hc
  have hquiet : Adds p m (m.quietCall c) := .one rfl hc
  exact ⟨hcall.trans ((afterCall_passes engine _).mono hflush), hquiet.trans ((afterCall_passes engine _).mono hflush)⟩

lemma callHandler_adds (wch : UInt16) (hp : ∀ handler, p (.dcsString handler wch)) :
    Adds p m (m.callHandler engine wch).1 := by
  unfold callHandler
  cases m.dcsStringHandler with
  | none => exact .of_eq rfl
  | some handler => exact .one rfl (hp handler)

lemma interrupt_adds (hp : ∀ handler, p (.dcsString handler esc)) : Adds p m (m.actionInterrupt engine) := by
  unfold actionInterrupt
  split
  · exact (callHandler_adds esc hp).trans (.of_eq rfl)
  · exact .of_eq rfl

lemma enter_adds_unknown (s : VTState) (hp : p .unknownSequence) : Adds p m (m.enter engine s) := by
  cases s with
  | sosPmApcString => exact .one rfl hp
  | _ => exact .of_eq rfl

lemma actionDcsDispatch_adds (wch : UInt16) (hp : ∀ id parameters, p (.dcsDispatch id parameters)) :
    Adds p m (m.actionDcsDispatch engine wch) := by
  have hcall : Adds p m (m.call engine (.dcsDispatch (m.identifier.finalize wch) m.parameters)) := .one rfl (hp _ _)
  refine hcall.trans (.of_eq ?_)
  unfold actionDcsDispatch
  dsimp only
  split <;> split <;> rfl

/-! ### Actions -/

/-- The new calls of an action are ones of its own kind, where that is a print or the dispatch of an escape sequence,
and none of either kind. -/
theorem perform_adds_of (engine : Engine) (m : StateMachine) {a : Action}
    (hother : ∀ c : EngineCall, c.isEscDispatch = false → c.isPrint = false → p c)
    (hesc : a.isEscDispatch = true → ∀ id, p (.escDispatch id)) (hprint : a.isPrint = true → ∀ wch, p (.print wch)) :
    Adds p m (m.perform engine a) := by
  have hflush (c : EngineCall) (hc : c.isPassThrough = true) : p c := by
    cases c with
    | passThroughString string => exact hother _ rfl rfl
    | _ => exact absurd hc Bool.false_ne_true
  have hcalled (m : StateMachine) (c : EngineCall) (hc : p c) :
      Adds p m ((m.call engine c).afterCall engine) ∧ Adds p m ((m.quietCall c).afterCall engine) :=
    called_adds hc hflush
  cases a with
  | execute | executeFromEscape | vt52EscDispatch | csiDispatch | oscDispatch | ss3Dispatch =>
    exact (hcalled _ _ (hother _ rfl rfl)).1
  | print wch => exact (hcalled _ _ (hprint rfl wch)).2
  | escDispatch wch => exact (hcalled _ _ (hesc rfl _)).1
  | collect | oscParam | oscPut => exact .of_eq rfl
  | param wch => exact .of_eq (actionParam_rest m wch).2.1
  | subParam wch => exact .of_eq (actionSubParam_rest m wch).2.1
  | dcsDispatch wch => exact actionDcsDispatch_adds wch fun _ _ => hother _ rfl rfl
  | interrupt => exact interrupt_adds fun _ => hother _ rfl rfl
  | enter s => exact enter_adds_unknown s (hother _ rfl rfl)
  | vt52Param wch =>
    have hparameter : Adds p m { m with parameters := m.parameters ++ [some (wch.toNat : ℤ)] } := .of_eq rfl
    unfold perform
    dsimp only
    split
    · exact (hparameter.trans (hcalled _ _ (hother _ rfl rfl)).1).trans (enter_adds_unknown _ (hother _ rfl rfl))
    · exact hparameter
  | dcsString wch =>
    have hcalled : Adds p m (m.callHandler engine wch).1 := callHandler_adds wch fun _ => hother _ rfl rfl
    unfold perform
    dsimp only
    split
    · exact hcalled
    · exact hcalled.trans (enter_adds_unknown _ (hother _ rfl rfl))

/-- Every action but the dispatch of an escape sequence. -/
theorem perform_adds (engine : Engine) (m : StateMachine) {a : Action} (ha : a.isEscDispatch = false) :
    Adds (fun c => c.isEscDispatch = false) m (m.perform engine a) := by
  refine perform_adds_of engine m (fun c hc _ => hc) (fun hesc => ?_) fun _ _ => rfl
  rw [ha] at hesc
  cases hesc

lemma performAll_adds {actions : List Action} (hactions : ∀ a ∈ actions, a.isEscDispatch = false) :
    Adds (fun c => c.isEscDispatch = false) m (m.performAll engine actions) := by
  induction actions generalizing m with
  | nil => exact .of_eq rfl
  | cons a actions ih =>
    have hfirst := perform_adds engine m (hactions a List.mem_cons_self)
    exact hfirst.trans (ih fun a ha => hactions a (List.mem_cons_of_mem _ ha))

/-- The dispatch of an escape sequence is the end of an event. -/
theorem event_escDispatch (input : Bool) (mode : ParserMode) (wch : UInt16) (s : VTState) :
    (∀ a ∈ event input mode wch s, a.isEscDispatch = false) ∨
      ∃ front, (front = [] ∨ front = [.enter .escape]) ∧
        event input mode wch s = front ++ [.escDispatch wch, .enter .ground] := by
  have hescape : (∀ a ∈ eventEscape input mode wch, a.isEscDispatch = false) ∨
      eventEscape input mode wch = [.escDispatch wch, .enter .ground] := by
    unfold eventEscape
    split_ifs <;> simp [Action.isEscDispatch]
  cases s with
  | escape => exact hescape.imp id fun h => ⟨[], .inl rfl, h⟩
  | oscTermination =>
    show (∀ a ∈ eventOscTermination input mode wch, _) ∨ ∃ front, _ ∧ eventOscTermination input mode wch = _
    unfold eventOscTermination
    split
    · exact .inl (by simp [Action.isEscDispatch])
    rcases hescape with h | h
    · refine .inl fun a ha => ?_
      rcases List.mem_cons.mp ha with rfl | ha
      · rfl
      · exact h a ha
    · exact .inr ⟨[.enter .escape], .inr rfl, by rw [h]; rfl⟩
  | escapeIntermediate =>
    show (∀ a ∈ eventEscapeIntermediate mode wch, _) ∨ ∃ front, _ ∧ eventEscapeIntermediate mode wch = _
    unfold eventEscapeIntermediate
    split_ifs
    · exact .inl (by simp [Action.isEscDispatch])
    · exact .inl (by simp [Action.isEscDispatch])
    · exact .inl (by simp)
    · exact .inr ⟨[], .inl rfl, rfl⟩
    · exact .inl (by simp [Action.isEscDispatch])
    · exact .inl (by simp [Action.isEscDispatch])
  | dcsIgnore | sosPmApcString => exact .inl fun a ha => nomatch ha
  | _ =>
    left
    unfold event
    dsimp only [eventGround, eventCsiEntry, eventCsiIntermediate, eventCsiIgnore, eventCsiParam, eventCsiSubParam,
      eventOscParam, eventOscString, eventSs3Entry, eventSs3Param, eventVt52Param, eventDcsEntry, eventDcsIntermediate,
      eventDcsParam, eventDcsPassThrough]
    split_ifs <;> simp [Action.isEscDispatch]

/-! ### Characters -/

lemma Reports.of_adds (h : Adds (fun c => c.isEscDispatch = false) m m') : Reports m m' := by
  obtain ⟨news, hcalls, hnews⟩ := h
  exact ⟨news, hcalls, .noEscape hnews⟩

/-- Calls in front that dispatch no sequence. -/
lemma Reports.behind (h : Adds (fun c => c.isEscDispatch = false ∧ c.isCsiDispatch = false) m m')
    (h' : Reports m' m'') : Reports m m'' := by
  obtain ⟨calls, hcalls, hquiet⟩ := h
  obtain ⟨news, hcalls', hnews⟩ := h'
  refine ⟨calls ++ news, by rw [hcalls', hcalls, List.append_assoc], ?_⟩
  cases hnews with
  | noEscape hnews =>
    refine .noEscape fun c hc => ?_
    rcases List.mem_append.mp hc with hc | hc
    · exact (hquiet c hc).1
    · exact hnews c hc
  | escape hstate hfront hback =>
    rw [← List.append_assoc]
    refine .escape hstate (fun c hc => ?_) hback
    rcases List.mem_append.mp hc with hc | hc
    · exact hquiet c hc
    · exact hfront c hc

/-- An escape sequence, and the entry into ground. -/
lemma Reports.dispatched (m : StateMachine) (wch : UInt16) :
    Reports m ((m.perform engine (.escDispatch wch)).enter engine .ground) := by
  obtain ⟨back, hcalls, hback⟩ :=
    afterCall_passes engine (m.call engine (.escDispatch (m.identifier.finalize wch)))
  refine ⟨[] ++ .escDispatch (m.identifier.finalize wch) :: back, ?_, .escape rfl (fun _ hc => nomatch hc) hback⟩
  show ((m.call engine _).afterCall engine).calls = _
  rw [hcalls]
  show (m.calls ++ [_]) ++ back = _
  rw [List.append_assoc]
  rfl

lemma processPlain_reports (m : StateMachine) (wch : UInt16) : Reports m (m.processPlain engine wch) := by
  unfold processPlain actions
  split_ifs
  · exact .of_adds (performAll_adds (by simp [Action.isEscDispatch]))
  · exact .of_adds (performAll_adds (by simp [Action.isEscDispatch]))
  rcases event_escDispatch engine.isEngineForInput m.parserMode wch m.state with h | ⟨front, hfront, h⟩
  · exact .of_adds (performAll_adds h)
  rw [h]
  rcases hfront with rfl | rfl
  · exact .dispatched m wch
  · exact Reports.behind (.of_eq rfl) (.dispatched (m.enter engine .escape) wch)

/-- The `ESC` of a C1 control. -/
lemma processPlain_esc_adds (m : StateMachine) :
    Adds (fun c => c.isEscDispatch = false ∧ c.isCsiDispatch = false) m (m.processPlain engine esc) := by
  have hnot : ¬ ((esc = can ∨ esc = sub) ∧ ¬ (m.state = .escape ∧ engine.isEngineForInput)) := by
    rintro ⟨h | h, -⟩
    · exact absurd h (by decide)
    · exact absurd h (by decide)
  have hinterrupt : Adds (fun c => c.isEscDispatch = false ∧ c.isCsiDispatch = false) m (m.actionInterrupt engine) :=
    interrupt_adds fun _ => ⟨rfl, rfl⟩
  unfold processPlain actions
  rw [if_neg hnot]
  split
  · exact hinterrupt.trans (.of_eq rfl)
  · next hosc =>
    have hstate : m.state = .oscString ∨ m.state = .oscParam := by
      by_contra hne
      rw [not_or] at hne
      exact hosc ⟨rfl, hne.1, hne.2⟩
    rcases hstate with hstate | hstate
    · rw [hstate]
      exact .of_eq rfl
    · rw [hstate]
      exact .of_eq rfl

/-- **A character.** -/
theorem processCharacter_reports (m : StateMachine) (wch : UInt16) : Reports m (m.processCharacter engine wch) := by
  unfold processCharacter
  split_ifs
  · exact (Reports.behind (processPlain_esc_adds m)) (processPlain_reports _ _)
  · exact .of_adds (.of_eq rfl)
  · exact processPlain_reports m wch

/-- The end of a string completes no control sequence. -/
theorem endOfString_reports (m : StateMachine) :
    Reports m (m.endOfString engine) ∧ Adds (fun c => c.isCsiDispatch = false) m (m.endOfString engine) := by
  have hflush : ∀ c : EngineCall, c.isPassThrough = true → c.isCsiDispatch = false := fun c hc =>
    (not_escDispatch_of_passThrough hc).2
  have hkept (t : StateMachine) (ht : t.calls = m.calls) :
      Reports m t ∧ Adds (fun c => c.isCsiDispatch = false) m t := ⟨.of_adds (.of_eq ht), .of_eq ht⟩
  unfold endOfString
  dsimp only
  split
  swap
  · exact hkept m rfl
  split
  · split
    · have hexecute := @perform_adds engine (m.enter engine .ground) (.execute esc) rfl
      have hquiet := (@called_adds engine _ (m.enter engine .ground) (.execute esc) (show _ = false from rfl) hflush).1
      exact ⟨.of_adds hexecute, hquiet⟩
    · exact ⟨Reports.behind (.of_eq rfl) (.dispatched ((m.enter engine .ground).enter engine .escape) _),
        (@called_adds engine _ ((m.enter engine .ground).enter engine .escape) (.escDispatch _)
          (show _ = false from rfl) hflush).1⟩
  · split
    · exact hkept m rfl
    · exact hkept _ rfl

end VT7.Parser
