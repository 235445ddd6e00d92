import Mathlib.Data.List.TakeWhile
import VT7.Parser.Events

/-!
# The states the parser reaches

A run is any number of calls of `ProcessString`; its states are those between two characters, behind a print
run and behind the end of a string.  In every one of them a data string that is passed through has its handler
(`Reached.handlerReady`).
-/

namespace VT7.Parser

open StateMachine

/-- The states between the steps of `ProcessString` calls, from a new state machine on. -/
inductive Reached (engine : Engine) (mode : ParserMode) : StateMachine → Prop
  | start : Reached engine mode { parserMode := mode }
  | run {m : StateMachine} (run : List UInt16) (h : Reached engine mode m) :
      Reached engine mode { m with currentRun := run }
  | character {m : StateMachine} (wch : UInt16) (h : Reached engine mode m) :
      Reached engine mode (m.processCharacter engine wch)
  | print {m : StateMachine} (run : List UInt16) (h : Reached engine mode m) :
      Reached engine mode (m.printRun engine run)
  | finish {m : StateMachine} (h : Reached engine mode m) : Reached engine mode (m.endOfString engine)

section Strings

variable {engine : Engine} {mode : ParserMode} {m : StateMachine}

lemma Reached.processSequence (string : List UInt16) (h : Reached engine mode m) :
    Reached engine mode (StateMachine.processSequence engine string m).1 := by
  induction string generalizing m with
  | nil => exact h
  | cons wch rest ih =>
    unfold StateMachine.processSequence
    dsimp only
    split
    · exact ih ((h.run _).character wch)
    · exact (h.run _).character wch

lemma Reached.processLoop (iterations : ℕ) (string : List UInt16) (h : Reached engine mode m) :
    Reached engine mode (StateMachine.processLoop engine iterations string m) := by
  induction iterations generalizing string m with
  | zero => exact h
  | succ iterations ih =>
    unfold StateMachine.processLoop
    split
    · exact h
    · exact ih _ ((h.print _).processSequence _)

/-- A whole string. -/
theorem Reached.processString (string : List UInt16) (h : Reached engine mode m) :
    Reached engine mode (m.processString engine string) := by
  unfold StateMachine.processString
  dsimp only
  refine .finish ?_
  split
  · exact ((h.run []).processSequence string).processLoop _ _
  · exact (h.run []).processLoop _ _

end Strings

/-! ### Steps -/

/-- The steps `ProcessString` is made of. -/
inductive Step where
  | start
  | character (wch : UInt16)
  | print (run : List UInt16)
  | finish

/-- The characters a step takes from the string. -/
def Step.characters : Step → List UInt16
  | .character wch => [wch]
  | .print run => run
  | _ => []

def StateMachine.step (engine : Engine) (m : StateMachine) : Step → StateMachine
  | .start => { m with currentRun := [] }
  | .character wch => { m with currentRun := m.currentRun ++ [wch] }.processCharacter engine wch
  | .print run => m.printRun engine run
  | .finish => m.endOfString engine

def StateMachine.steps (engine : Engine) (m : StateMachine) (steps : List Step) : StateMachine :=
  steps.foldl (step engine) m

/-- A run is printed from the ground, and holds no character that needs more than printing. -/
def Step.Fits (m : StateMachine) : Step → Prop
  | .print run => m.state = .ground ∧ ∀ wch ∈ run, isActionableFromGround wch = false
  | _ => True

def StepsFit (engine : Engine) : StateMachine → List Step → Prop
  | _, [] => True
  | m, s :: rest => s.Fits m ∧ StepsFit engine (m.step engine s) rest

section Steps

variable {engine : Engine} {mode : ParserMode} {m : StateMachine}

lemma steps_append (steps steps' : List Step) :
    m.steps engine (steps ++ steps') = (m.steps engine steps).steps engine steps' := List.foldl_append

lemma StepsFit.append {steps steps' : List Step} (h : StepsFit engine m steps)
    (h' : StepsFit engine (m.steps engine steps) steps') : StepsFit engine m (steps ++ steps') := by
  induction steps generalizing m with
  | nil => exact h'
  | cons s steps ih => exact ⟨h.1, ih h.2 h'⟩

/-- What steps over a string are: the machine they lead to, the characters they take, and that they fit. -/
structure StepsOver (engine : Engine) (m m' : StateMachine) (string : List UInt16) (steps : List Step) : Prop where
  result : m' = m.steps engine steps
  characters : steps.flatMap Step.characters = string
  fit : StepsFit engine m steps

lemma StepsOver.append {m' m'' : StateMachine} {string string' : List UInt16} {steps steps' : List Step}
    (h : StepsOver engine m m' string steps) (h' : StepsOver engine m' m'' string' steps') :
    StepsOver engine m m'' (string ++ string') (steps ++ steps') where
  result := by rw [steps_append, ← h.result, h'.result]
  characters := by rw [List.flatMap_append, h.characters, h'.characters]
  fit := h.fit.append (h.result ▸ h'.fit)

lemma stepsOver_one {s : Step} (h : s.Fits m) : StepsOver engine m (m.step engine s) s.characters [s] where
  result := rfl
  characters := List.append_nil _
  fit := ⟨h, trivial⟩

/-- The inner loop takes a part of the string, and leaves some of it only at ground. -/
lemma processSequence_steps (engine : Engine) (string : List UInt16) (m : StateMachine) :
    ∃ taken steps, StepsOver engine m (processSequence engine string m).1 taken steps ∧
      taken ++ (processSequence engine string m).2 = string ∧
      (processSequence engine string m).2.length ≤ string.length - 1 ∧
      ((processSequence engine string m).1.state = .ground ∨ (processSequence engine string m).2 = []) := by
  induction string generalizing m with
  | nil => exact ⟨[], [], ⟨rfl, rfl, trivial⟩, rfl, Nat.le_refl 0, .inr rfl⟩
  | cons wch rest ih =>
    have hone : StepsOver engine m (m.step engine (.character wch)) [wch] [.character wch] :=
      stepsOver_one (s := .character wch) trivial
    unfold processSequence
    dsimp only
    split
    · obtain ⟨taken, steps, hsteps, hstring, hlength, hend⟩ := ih (m.step engine (.character wch))
      refine ⟨_, _, hone.append hsteps, congrArg (wch :: ·) hstring, ?_, hend⟩
      exact Nat.le_trans hlength (Nat.sub_le _ _)
    · next hground => exact ⟨[wch], [.character wch], hone, rfl, Nat.le_refl _, .inl (not_not.mp hground)⟩

lemma processLoop_steps (engine : Engine) (iterations : ℕ) (string : List UInt16) (m : StateMachine)
    (hlength : string.length ≤ iterations) (hground : m.state = .ground ∨ string = []) :
    ∃ steps, StepsOver engine m (processLoop engine iterations string m) string steps := by
  induction iterations generalizing string m with
  | zero =>
    rw [List.length_eq_zero_iff.mp (Nat.le_zero.mp hlength)]
    exact ⟨[], rfl, rfl, trivial⟩
  | succ iterations ih =>
    unfold processLoop
    split
    · next hempty =>
      rw [List.isEmpty_iff.mp hempty]
      exact ⟨[], rfl, rfl, trivial⟩
    · next hempty =>
      have hsome : string ≠ [] := fun h => hempty (List.isEmpty_iff.mpr h)
      have hpositive := List.length_pos_iff.mpr hsome
      have hsplit := List.prefix_iff_eq_append.mp
        (List.takeWhile_prefix (l := string) fun wch => !isActionableFromGround wch)
      have hplain : ∀ wch ∈ string.takeWhile (!isActionableFromGround ·), isActionableFromGround wch = false :=
        fun wch hwch => by simpa using List.mem_takeWhile_imp hwch
      dsimp only
      generalize string.takeWhile (!isActionableFromGround ·) = run at hsplit hplain ⊢
      have hprint : StepsOver engine m (m.printRun engine run) run [.print run] :=
        stepsOver_one (s := .print run) ⟨hground.resolve_right hsome, hplain⟩
      obtain ⟨taken, steps, hsteps, hstring, hrest, hend⟩ :=
        processSequence_steps engine (string.drop run.length) (m.printRun engine run)
      rw [List.length_drop] at hrest
      obtain ⟨steps', hsteps'⟩ := ih (processSequence engine (string.drop run.length) (m.printRun engine run)).2
        (processSequence engine (string.drop run.length) (m.printRun engine run)).1 (by omega) hend
      have hall := (hprint.append hsteps).append hsteps'
      rw [List.append_assoc, hstring, hsplit] at hall
      exact ⟨_, hall⟩

/-- **`ProcessString` takes such steps, over the characters of its string.** -/
theorem processString_steps (engine : Engine) (string : List UInt16) (m : StateMachine) :
    ∃ steps, StepsOver engine m (m.processString engine string) string steps := by
  have hstart : StepsOver engine m (m.step engine .start) [] [.start] := stepsOver_one (s := .start) trivial
  have hfinish (t : StateMachine) : StepsOver engine t (t.endOfString engine) [] [.finish] :=
    stepsOver_one (s := .finish) trivial
  unfold StateMachine.processString
  dsimp only
  split
  · obtain ⟨taken, steps, hsteps, hstring, hrest, hend⟩ := processSequence_steps engine string (m.step engine .start)
    obtain ⟨steps', hsteps'⟩ := processLoop_steps engine string.length
      (processSequence engine string (m.step engine .start)).2 (processSequence engine string (m.step engine .start)).1
      (by omega) hend
    have hall := ((hstart.append hsteps).append hsteps').append (hfinish _)
    rw [List.nil_append, hstring, List.append_nil] at hall
    exact ⟨_, hall⟩
  · next hground =>
    obtain ⟨steps, hsteps⟩ := processLoop_steps engine string.length string (m.step engine .start) (Nat.le_refl _)
      (.inl (not_not.mp hground))
    have hall := (hstart.append hsteps).append (hfinish _)
    rw [List.nil_append, List.append_nil] at hall
    exact ⟨_, hall⟩

/-- A run of `ProcessString` calls. -/
theorem processStrings_steps (engine : Engine) (m : StateMachine) (strings : List (List UInt16)) :
    ∃ steps, StepsOver engine m (strings.foldl (StateMachine.processString engine) m) strings.flatten steps := by
  induction strings generalizing m with
  | nil => exact ⟨[], rfl, rfl, trivial⟩
  | cons string strings ih =>
    obtain ⟨steps, hsteps⟩ := processString_steps engine string m
    obtain ⟨rest, hrest⟩ := ih (m.processString engine string)
    exact ⟨steps ++ rest, hsteps.append hrest⟩

end Steps

/-! ### What the actions on parameters leave alone -/

section Params

variable (m : StateMachine) (wch : UInt16)

lemma ensureParameter_rest : m.ensureParameter.state = m.state ∧ m.ensureParameter.calls = m.calls ∧
    m.ensureParameter.dcsStringHandler = m.dcsStringHandler := by
  unfold ensureParameter
  split
  · exact ⟨rfl, rfl, rfl⟩
  · exact ⟨rfl, rfl, rfl⟩

lemma actionParam_rest : (m.actionParam wch).state = m.state ∧ (m.actionParam wch).calls = m.calls ∧
    (m.actionParam wch).dcsStringHandler = m.dcsStringHandler := by
  have hensure := ensureParameter_rest m
  unfold actionParam
  dsimp only
  split
  · split
    · split
      · exact hensure
      · exact hensure
    · split
      · exact hensure
      · exact hensure
  · exact ⟨rfl, rfl, rfl⟩

lemma actionSubParam_rest : (m.actionSubParam wch).state = m.state ∧ (m.actionSubParam wch).calls = m.calls ∧
    (m.actionSubParam wch).dcsStringHandler = m.dcsStringHandler := by
  have hensure := ensureParameter_rest m
  unfold actionSubParam
  dsimp only
  split
  · split
    · split
      · exact hensure
      · split
        · exact hensure
        · exact hensure
    · split
      · exact hensure
      · exact hensure
  · exact ⟨rfl, rfl, rfl⟩

end Params

/-! ### The handler -/

/-- A data string that is passed through has its handler. -/
def HandlerReady (m : StateMachine) : Prop := m.state = .dcsPassThrough → m.dcsStringHandler.isSome = true

variable {engine : Engine} {mode : ParserMode} {m : StateMachine}

lemma handlerReady_of_ne (h : m.state ≠ .dcsPassThrough) : HandlerReady m := fun hstate => absurd hstate h

lemma handlerReady_of_same {m' : StateMachine} (hm : HandlerReady m) (hstate : m'.state = m.state)
    (hhandler : m'.dcsStringHandler = m.dcsStringHandler) : HandlerReady m' := by
  intro hpass
  rw [hhandler]
  exact hm (hstate ▸ hpass)

lemma handlerReady_enter (engine : Engine) (s : VTState) (hs : s ≠ .dcsPassThrough) : HandlerReady (m.enter engine s) := by
  refine handlerReady_of_ne ?_
  rwa [enter_state]

/-- The handler decides which state a dispatch enters. -/
lemma actionDcsDispatch_handlerReady (wch : UInt16) : HandlerReady (m.actionDcsDispatch engine wch) := by
  have henter (t : StateMachine) : HandlerReady
      (if t.dcsStringHandler.isSome then t.enter engine .dcsPassThrough else t.enter engine .dcsIgnore) := by
    split
    · next hsome => exact fun _ => hsome
    · exact handlerReady_enter engine .dcsIgnore (by decide)
  exact henter _

lemma perform_dcsString_handlerReady (hm : HandlerReady m) (wch : UInt16) :
    HandlerReady (m.perform engine (.dcsString wch)) := by
  unfold perform callHandler
  cases hhandler : m.dcsStringHandler with
  | none => exact handlerReady_enter engine .dcsIgnore (by decide)
  | some handler =>
    dsimp only
    split
    · exact handlerReady_of_same hm rfl rfl
    · exact handlerReady_enter engine .dcsIgnore (by decide)

lemma performAll_handlerReady {ansi : Bool} {wch : UInt16} {s : VTState} {actions : List Action}
    (hshape : Shape ansi wch s actions) (hs : m.state = s) (hm : HandlerReady m) :
    HandlerReady (m.performAll engine actions) := by
  induction hshape generalizing m with
  | nothing => exact hm
  | quiet ha =>
    obtain ⟨hframe, -⟩ := @perform_quiet engine m _ ha
    exact handlerReady_of_same hm hframe.state hframe.dcsStringHandler
  | enter hs' | quietEnter ha hs' | paramEnter hwch hs' => exact handlerReady_enter engine _ hs'.1.1
  | param hordinary hwch =>
    refine handlerReady_of_ne ?_
    show (m.actionParam wch).state ≠ _
    rw [(actionParam_rest m wch).1, hs]
    exact hordinary.1
  | subParam hwch =>
    refine handlerReady_of_ne ?_
    show (m.actionSubParam wch).state ≠ _
    rw [(actionSubParam_rest m wch).1, hs]
    decide
  | subParamEnter hwch => exact handlerReady_enter engine .csiSubParam (by decide)
  | vt52Param =>
    show HandlerReady (if _ then _ else _)
    split
    · exact handlerReady_enter engine .ground (by decide)
    · refine handlerReady_of_ne ?_
      show m.state ≠ _
      rw [hs]
      decide
  | vt52Enter hmode => exact handlerReady_enter engine .vt52Param (by decide)
  | dcsDispatch hcollects => exact actionDcsDispatch_handlerReady wch
  | dcsString hwch => exact perform_dcsString_handlerReady hm wch
  | again hescape ih => exact ih (enter_state engine m .escape) (handlerReady_enter engine .escape (by decide))

theorem processPlain_handlerReady (hm : HandlerReady m) (wch : UInt16) :
    HandlerReady (m.processPlain engine wch) := by
  unfold processPlain actions
  split
  · exact handlerReady_enter engine .ground (by decide)
  · split
    · exact handlerReady_enter engine .escape (by decide)
    · exact performAll_handlerReady (event_shape _ _ wch m.state) rfl hm

theorem processCharacter_handlerReady (hm : HandlerReady m) (wch : UInt16) :
    HandlerReady (m.processCharacter engine wch) := by
  unfold processCharacter
  split
  · split
    · exact processPlain_handlerReady (processPlain_handlerReady hm esc) _
    · exact hm
  · exact processPlain_handlerReady hm wch

lemma printRun_frame (engine : Engine) (m : StateMachine) (run : List UInt16) : Frame m (m.printRun engine run) := by
  unfold printRun
  split
  · exact ⟨rfl, rfl, rfl, rfl, rfl, rfl, rfl, rfl, rfl⟩
  · have hframe := afterCall_frame engine ({ m with currentRun := run }.quietCall (.printString run))
    exact ⟨hframe.state, hframe.parameters, hframe.parameterLimitOverflowed, hframe.subParameters,
      hframe.subParameterRanges, hframe.subParameterLimitOverflowed, hframe.subParameterCounter,
      hframe.dcsStringHandler, hframe.faulted⟩

/-- The end of a string leaves the parser as it is, or at ground. -/
lemma endOfString_cases (engine : Engine) (m : StateMachine) :
    (∃ cached, m.endOfString engine = { m with cachedSequence := cached }) ∨
      ∃ t, m.endOfString engine = StateMachine.enter engine t .ground ∧
        (t = (m.enter engine .ground).perform engine (.execute esc) ∨
          t = ((m.enter engine .ground).enter engine .escape).perform engine
            (.escDispatch (m.currentRun.getLastD 0))) ∧
        m.currentRun.length ≤ 2 ∧ m.currentRun.head? = some esc := by
  unfold endOfString
  split
  · dsimp only
    split
    · next hshort =>
      simp only [Bool.and_eq_true, decide_eq_true_eq, beq_iff_eq] at hshort
      right
      refine ⟨_, rfl, ?_, hshort.1.2, hshort.2⟩
      split
      · exact .inl rfl
      · exact .inr rfl
    · left
      split
      · exact ⟨m.cachedSequence, rfl⟩
      · exact ⟨_, rfl⟩
  · exact .inl ⟨m.cachedSequence, rfl⟩

end VT7.Parser
