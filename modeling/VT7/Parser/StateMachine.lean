import Mathlib.Data.Int.Notation
import Mathlib.Data.Nat.Notation
import Mathlib.Algebra.Group.Nat.Defs

/-!
# The parser of control sequences

`StateMachine` reads UTF-16 code units one by one.  In each of its twenty states a character leads to some
actions, in order: calls of the engine, changes of the parameters, and entries into other states.  The `event`
functions give these actions; `perform` does one of them.

What the engine answers is a function of all calls made to it so far.  Printing does not change the mode of the
parser, and the engine does not inject strings.  `ActionPassThroughString` is accepted, as in both engines.
Traces and `_processingLastCharacter` are left out.
-/

namespace VT7.Parser

/-- `MAX_PARAMETER_VALUE`. -/
def maxParameterValue : ℤ := 65535

/-- `MAX_PARAMETER_COUNT`. -/
def maxParameterCount : ℕ := 32

/-- `MAX_SUBPARAMETER_COUNT`. -/
def maxSubParameterCount : ℕ := 6

/-- `VTStates`. -/
inductive VTState where
  | ground
  | escape
  | escapeIntermediate
  | csiEntry
  | csiIntermediate
  | csiIgnore
  | csiParam
  | csiSubParam
  | oscParam
  | oscString
  | oscTermination
  | ss3Entry
  | ss3Param
  | vt52Param
  | dcsEntry
  | dcsIgnore
  | dcsIntermediate
  | dcsParam
  | dcsPassThrough
  | sosPmApcString
deriving DecidableEq

/-- `_parserMode`. -/
structure ParserMode where
  acceptC1 : Bool
  ansi : Bool

/-- `VTIDBuilder`. -/
structure VTIDBuilder where
  idAccumulator : UInt64 := 0
  idShift : ℕ := 0

namespace VTIDBuilder

def addIntermediate (b : VTIDBuilder) (intermediateChar : UInt16) : VTIDBuilder :=
  if 64 ≤ b.idShift + 16 then { b with idAccumulator := 0 }
  else
    { idAccumulator := b.idAccumulator + intermediateChar.toUInt64 <<< UInt64.ofNat b.idShift
      idShift := b.idShift + 8 }

/-- The value of a `VTID`, which has no eighth byte. -/
def toVTID (value : UInt64) : UInt64 := value &&& 0x00ffffffffffffff

def finalize (b : VTIDBuilder) (finalChar : UInt16) : UInt64 :=
  toVTID (b.idAccumulator + finalChar.toUInt64 <<< UInt64.ofNat b.idShift)

end VTIDBuilder

/-- A parameter; `none` is one that was omitted. -/
abbrev VTParameter := Option ℤ

/-- The calls of the engine, and of the handlers it returned for data strings.  A handler is named by the
number of the dispatch that returned it. -/
inductive EngineCall where
  | execute (wch : UInt16)
  | executeFromEscape (wch : UInt16)
  | print (wch : UInt16)
  | printString (string : List UInt16)
  | passThroughString (string : List UInt16)
  | escDispatch (id : UInt64)
  | vt52EscDispatch (id : UInt64) (parameters : List VTParameter)
  | csiDispatch (id : UInt64) (parameters subParameters : List VTParameter) (subParameterRanges : List (ℕ × ℕ))
  | oscDispatch (parameter : ℤ) (string : List UInt16)
  | ss3Dispatch (wch : UInt16) (parameters : List VTParameter)
  | dcsDispatch (id : UInt64) (parameters : List VTParameter)
  | dcsString (handler : ℕ) (wch : UInt16)
  | unknownSequence

namespace EngineCall

def isDcsDispatch : EngineCall → Bool
  | dcsDispatch _ _ => true
  | _ => false

/-- A print run as its characters. -/
def units : EngineCall → List EngineCall
  | printString string => string.map print
  | call => [call]

end EngineCall

/-- The calls with every print run taken apart. -/
def unitsOf (calls : List EngineCall) : List EngineCall := calls.flatMap EngineCall.units

inductive Outcome where
  | accepted
  | refused
  | threw

inductive DcsAnswer where
  | handler
  | null
  | threw

/-- What the engine answers.  The call it answers is the last one of the calls. -/
structure Engine where
  isEngineForInput : Bool
  outcome : List EngineCall → Outcome
  dcsAnswer : List EngineCall → DcsAnswer
  handlerAccepts : List EngineCall → Bool
  setParserMode : List EngineCall → ParserMode → ParserMode
  encounteredWin32InputModeSequence : List EngineCall → Bool

structure StateMachine where
  state : VTState := .ground
  parserMode : ParserMode
  identifier : VTIDBuilder := {}
  parameters : List VTParameter := []
  parameterLimitOverflowed : Bool := false
  subParameters : List VTParameter := []
  subParameterRanges : List (ℕ × ℕ) := []
  subParameterLimitOverflowed : Bool := false
  subParameterCounter : ℕ := 0
  oscString : List UInt16 := []
  oscParameter : ℤ := 0
  dcsStringHandler : Option ℕ := none
  cachedSequence : Option (List UInt16) := none
  /-- `_CurrentRun`. -/
  currentRun : List UInt16 := []
  calls : List EngineCall := []
  /-- The last element of an empty vector was taken, or a null handler was called. -/
  faulted : Bool := false

/-! ### Characters -/

def can : UInt16 := 0x18
def sub : UInt16 := 0x1a
def esc : UInt16 := 0x1b

def isNumericParamValue (wch : UInt16) : Bool := 0x30 ≤ wch && wch ≤ 0x39

def isC0Code (wch : UInt16) : Bool := wch ≤ 0x17 || wch == 0x19 || (0x1c ≤ wch && wch ≤ 0x1f)

def isC1ControlCharacter (wch : UInt16) : Bool := 0x80 ≤ wch && wch ≤ 0x9f

def c1To7Bit (wch : UInt16) : UInt16 := wch - 0x40

def isIntermediate (wch : UInt16) : Bool := 0x20 ≤ wch && wch ≤ 0x2f

def isDelete (wch : UInt16) : Bool := wch == 0x7f

def isEscape (wch : UInt16) : Bool := wch == esc

def isParameterDelimiter (wch : UInt16) : Bool := wch == 0x3b

def isSubParameterDelimiter (wch : UInt16) : Bool := wch == 0x3a

def isCsiIndicator (wch : UInt16) : Bool := wch == 0x5b

def isCsiPrivateMarker (wch : UInt16) : Bool := wch == 0x3c || wch == 0x3d || wch == 0x3e || wch == 0x3f

def isIntermediateInvalid (wch : UInt16) : Bool :=
  isNumericParamValue wch || isSubParameterDelimiter wch || isParameterDelimiter wch || isCsiPrivateMarker wch

def isParameterInvalid (wch : UInt16) : Bool := isCsiPrivateMarker wch

def isStringTerminatorIndicator (wch : UInt16) : Bool := wch == 0x5c

def isSs3Indicator (wch : UInt16) : Bool := wch == 0x4f

def isVt52CursorAddress (wch : UInt16) : Bool := wch == 0x59

def isOscIndicator (wch : UInt16) : Bool := wch == 0x5d

def isOscDelimiter (wch : UInt16) : Bool := wch == 0x3b

def isOscInvalid (wch : UInt16) : Bool := wch ≤ 0x17 || wch == 0x19 || (0x1c ≤ wch && wch ≤ 0x1f)

def isOscTerminator (wch : UInt16) : Bool := wch == 0x07

def isDcsIndicator (wch : UInt16) : Bool := wch == 0x50

def isDcsPassThroughValid (wch : UInt16) : Bool := 0x20 ≤ wch && wch < 0x7f

def isSosIndicator (wch : UInt16) : Bool := wch == 0x58

def isPmIndicator (wch : UInt16) : Bool := wch == 0x5e

def isApcIndicator (wch : UInt16) : Bool := wch == 0x5f

/-- `isActionableFromGround`. -/
def isActionableFromGround (wch : UInt16) : Bool := wch ≤ 0x1f || (wch - 0x7f) ≤ 0x20

/-! ### Actions -/

/-- The `_Action` and `_Enter` functions that an event calls, with the tails of two events that depend on what
they did before. -/
inductive Action where
  | execute (wch : UInt16)
  | executeFromEscape (wch : UInt16)
  | print (wch : UInt16)
  | escDispatch (wch : UInt16)
  | vt52EscDispatch (wch : UInt16)
  | collect (wch : UInt16)
  | param (wch : UInt16)
  | subParam (wch : UInt16)
  | csiDispatch (wch : UInt16)
  | oscParam (wch : UInt16)
  | oscPut (wch : UInt16)
  | oscDispatch
  | ss3Dispatch (wch : UInt16)
  | dcsDispatch (wch : UInt16)
  | interrupt
  | enter (state : VTState)
  /-- A character of a VT52 cursor address. -/
  | vt52Param (wch : UInt16)
  /-- A character of a data string. -/
  | dcsString (wch : UInt16)

/-- A value of type `VTInt`. -/
def toVTInt (n : ℤ) : ℤ := n.bmod (2 ^ 32)

def accumulateTo (wch : UInt16) (value : ℤ) : ℤ :=
  let digit : ℤ := (wch.toNat : ℤ) - 0x30
  let value := toVTInt (value * 10 + digit)
  if maxParameterValue < value then maxParameterValue else value

/-- A value narrowed to a `BYTE`. -/
def toByte (n : ℕ) : ℕ := n % 256

namespace StateMachine

variable (engine : Engine) (m : StateMachine)

/-- A call of the engine; the engine may set the mode of the parser. -/
def call (c : EngineCall) : StateMachine :=
  { m with
    calls := m.calls ++ [c]
    parserMode := engine.setParserMode (unitsOf (m.calls ++ [c])) m.parserMode }

/-- A call that leaves the mode alone. -/
def quietCall (c : EngineCall) : StateMachine := { m with calls := m.calls ++ [c] }

def flushToTerminal : StateMachine :=
  let m := match m.cachedSequence with
    | some sequence => { m.quietCall (.passThroughString sequence) with cachedSequence := none }
    | none => m
  m.quietCall (.passThroughString m.currentRun)

/-- The end of `_SafeExecute`, behind the call. -/
def afterCall : StateMachine :=
  match engine.outcome (unitsOf m.calls) with
  | .accepted => m
  | .refused => m.flushToTerminal
  | .threw => m

def actionClear : StateMachine :=
  { m with
    identifier := {}
    parameters := []
    parameterLimitOverflowed := false
    subParameters := []
    subParameterRanges := []
    subParameterCounter := 0
    subParameterLimitOverflowed := false
    oscString := []
    oscParameter := 0
    dcsStringHandler := none }

/-- A parameter that has not been given yet, with its empty range. -/
def pushParameter : StateMachine :=
  { m with
    parameters := m.parameters ++ [none]
    subParameterRanges := m.subParameterRanges ++ [(toByte m.subParameters.length, toByte m.subParameters.length)] }

/-- The first lines of `_ActionParam` and `_ActionSubParam`. -/
def ensureParameter : StateMachine := if m.parameters.isEmpty then m.pushParameter else m

/-- The character accumulated into the last of some parameters. -/
def accumulate (wch : UInt16) (parameters : List VTParameter) : Option (List VTParameter) :=
  parameters.getLast?.map fun last => parameters.dropLast ++ [some (accumulateTo wch (last.getD 0))]

def actionParam (wch : UInt16) : StateMachine :=
  if !m.parameterLimitOverflowed then
    let m := m.ensureParameter
    if isParameterDelimiter wch then
      if maxParameterCount ≤ m.parameters.length then { m with parameterLimitOverflowed := true }
      else { m.pushParameter with subParameterCounter := 0, subParameterLimitOverflowed := false }
    else
      match accumulate wch m.parameters with
      | some parameters => { m with parameters }
      | none => { m with faulted := true }
  else m

/-- `_subParameterRanges.back().second++`. -/
def extendLastRange (ranges : List (ℕ × ℕ)) : Option (List (ℕ × ℕ)) :=
  ranges.getLast?.map fun last => ranges.dropLast ++ [(last.1, toByte (last.2 + 1))]

def actionSubParam (wch : UInt16) : StateMachine :=
  if !m.subParameterLimitOverflowed then
    let m := m.ensureParameter
    if isSubParameterDelimiter wch then
      if maxSubParameterCount ≤ m.subParameterCounter then { m with subParameterLimitOverflowed := true }
      else
        match extendLastRange m.subParameterRanges with
        | some subParameterRanges =>
          { m with
            subParameters := m.subParameters ++ [none]
            subParameterRanges
            subParameterCounter := toByte (m.subParameterCounter + 1) }
        | none => { m with faulted := true }
    else
      match accumulate wch m.subParameters with
      | some subParameters => { m with subParameters }
      | none => { m with faulted := true }
  else m

/-- A call of the handler; the second result is what it returns. -/
def callHandler (wch : UInt16) : StateMachine × Bool :=
  match m.dcsStringHandler with
  | some handler =>
    let m := m.call engine (.dcsString handler wch)
    (m, engine.handlerAccepts (unitsOf m.calls))
  | none => ({ m with faulted := true }, false)

def actionInterrupt : StateMachine :=
  if m.state = .dcsPassThrough then { (m.callHandler engine esc).1 with dcsStringHandler := none } else m

/-- The `_Enter` functions. -/
def enter (state : VTState) : StateMachine :=
  let m := { m with state }
  match state with
  | .ground => { m with cachedSequence := none }
  | .escape => m.actionClear
  | .csiEntry => m.actionClear
  | .ss3Entry => m.actionClear
  | .dcsEntry => m.actionClear
  | .dcsIgnore => { m with cachedSequence := none }
  | .dcsPassThrough => { m with cachedSequence := none }
  | .sosPmApcString => { m with cachedSequence := none }.call engine .unknownSequence
  | _ => m

def actionDcsDispatch (wch : UInt16) : StateMachine :=
  let m := m.call engine (.dcsDispatch (m.identifier.finalize wch) m.parameters)
  let m := match engine.dcsAnswer (unitsOf m.calls) with
    | .handler => { m with dcsStringHandler := some (m.calls.countP EngineCall.isDcsDispatch) }
    | .null => { m with dcsStringHandler := none }
    | .threw => m
  if m.dcsStringHandler.isSome then m.enter engine .dcsPassThrough else m.enter engine .dcsIgnore

def actionVt52EscDispatch (wch : UInt16) : StateMachine :=
  (m.call engine (.vt52EscDispatch (m.identifier.finalize wch) m.parameters)).afterCall engine

/-- One action of an event. -/
def perform : Action → StateMachine
  | .execute wch => (m.call engine (.execute wch)).afterCall engine
  | .executeFromEscape wch => (m.call engine (.executeFromEscape wch)).afterCall engine
  | .print wch => (m.quietCall (.print wch)).afterCall engine
  | .escDispatch wch => (m.call engine (.escDispatch (m.identifier.finalize wch))).afterCall engine
  | .vt52EscDispatch wch => m.actionVt52EscDispatch engine wch
  | .collect wch => { m with identifier := m.identifier.addIntermediate wch }
  | .param wch => m.actionParam wch
  | .subParam wch => m.actionSubParam wch
  | .csiDispatch wch =>
    (m.call engine (.csiDispatch (m.identifier.finalize wch) m.parameters m.subParameters
      m.subParameterRanges)).afterCall engine
  | .oscParam wch => { m with oscParameter := accumulateTo wch m.oscParameter }
  | .oscPut wch => { m with oscString := m.oscString ++ [wch] }
  | .oscDispatch => (m.call engine (.oscDispatch m.oscParameter m.oscString)).afterCall engine
  | .ss3Dispatch wch => (m.call engine (.ss3Dispatch wch m.parameters)).afterCall engine
  | .dcsDispatch wch => m.actionDcsDispatch engine wch
  | .interrupt => m.actionInterrupt engine
  | .enter state => m.enter engine state
  | .vt52Param wch =>
    let m := { m with parameters := m.parameters ++ [some (wch.toNat : ℤ)] }
    if m.parameters.length = 2 then (m.actionVt52EscDispatch engine 0x59).enter engine .ground else m
  | .dcsString wch =>
    let (m, accepted) := m.callHandler engine wch
    if accepted then m else m.enter engine .dcsIgnore

/-! ### Events -/

section Events

variable (input : Bool) (mode : ParserMode) (wch : UInt16)

def eventGround : List Action := if isC0Code wch || isDelete wch then [.execute wch] else [.print wch]

def eventEscape : List Action :=
  if isC0Code wch then
    if input then [.executeFromEscape wch, .enter .ground] else [.execute wch]
  else if isDelete wch then []
  else if isIntermediate wch then
    if input then [.escDispatch wch, .enter .ground] else [.collect wch, .enter .escapeIntermediate]
  else if mode.ansi then
    if isCsiIndicator wch then [.enter .csiEntry]
    else if isOscIndicator wch then [.enter .oscParam]
    else if isSs3Indicator wch && input then [.enter .ss3Entry]
    else if isDcsIndicator wch then [.enter .dcsEntry]
    else if isSosIndicator wch || isPmIndicator wch || isApcIndicator wch then [.enter .sosPmApcString]
    else [.escDispatch wch, .enter .ground]
  else if isVt52CursorAddress wch then [.enter .vt52Param]
  else [.vt52EscDispatch wch, .enter .ground]

def eventEscapeIntermediate : List Action :=
  if isC0Code wch then [.execute wch]
  else if isIntermediate wch then [.collect wch]
  else if isDelete wch then []
  else if mode.ansi then [.escDispatch wch, .enter .ground]
  else if isVt52CursorAddress wch then [.enter .vt52Param]
  else [.vt52EscDispatch wch, .enter .ground]

def eventCsiEntry : List Action :=
  if isC0Code wch then [.execute wch]
  else if isDelete wch then []
  else if isIntermediate wch then [.collect wch, .enter .csiIntermediate]
  else if isNumericParamValue wch || isParameterDelimiter wch then [.param wch, .enter .csiParam]
  else if isSubParameterDelimiter wch then [.subParam wch, .enter .csiSubParam]
  else if isCsiPrivateMarker wch then [.collect wch, .enter .csiParam]
  else [.csiDispatch wch, .enter .ground]

def eventCsiIntermediate : List Action :=
  if isC0Code wch then [.execute wch]
  else if isIntermediate wch then [.collect wch]
  else if isDelete wch then []
  else if isIntermediateInvalid wch then [.enter .csiIgnore]
  else [.csiDispatch wch, .enter .ground]

def eventCsiIgnore : List Action :=
  if isC0Code wch then [.execute wch]
  else if isDelete wch then []
  else if isIntermediate wch then []
  else if isIntermediateInvalid wch then []
  else [.enter .ground]

def eventCsiParam : List Action :=
  if isC0Code wch then [.execute wch]
  else if isDelete wch then []
  else if isNumericParamValue wch || isParameterDelimiter wch then [.param wch]
  else if isSubParameterDelimiter wch then [.subParam wch, .enter .csiSubParam]
  else if isIntermediate wch then [.collect wch, .enter .csiIntermediate]
  else if isParameterInvalid wch then [.enter .csiIgnore]
  else [.csiDispatch wch, .enter .ground]

def eventCsiSubParam : List Action :=
  if isC0Code wch then [.execute wch]
  else if isDelete wch then []
  else if isNumericParamValue wch || isSubParameterDelimiter wch then [.subParam wch]
  else if isParameterDelimiter wch then [.param wch, .enter .csiParam]
  else if isIntermediate wch then [.collect wch, .enter .csiIntermediate]
  else if isParameterInvalid wch then [.enter .csiIgnore]
  else [.csiDispatch wch, .enter .ground]

def eventOscParam : List Action :=
  if isOscTerminator wch then [.oscDispatch, .enter .ground]
  else if isEscape wch then [.enter .oscTermination]
  else if isNumericParamValue wch then [.oscParam wch]
  else if isOscDelimiter wch then [.enter .oscString]
  else []

def eventOscString : List Action :=
  if isOscTerminator wch then [.oscDispatch, .enter .ground]
  else if isEscape wch then [.enter .oscTermination]
  else if isOscInvalid wch then []
  else [.oscPut wch]

def eventOscTermination : List Action :=
  if isStringTerminatorIndicator wch then [.oscDispatch, .enter .ground]
  else .enter .escape :: eventEscape input mode wch

def eventSs3Entry : List Action :=
  if isC0Code wch then [.execute wch]
  else if isDelete wch then []
  else if isSubParameterDelimiter wch then [.enter .csiIgnore]
  else if isNumericParamValue wch || isParameterDelimiter wch then [.param wch, .enter .ss3Param]
  else [.ss3Dispatch wch, .enter .ground]

def eventSs3Param : List Action :=
  if isC0Code wch then [.execute wch]
  else if isDelete wch then []
  else if isNumericParamValue wch || isParameterDelimiter wch then [.param wch]
  else if isParameterInvalid wch || isSubParameterDelimiter wch then [.enter .csiIgnore]
  else [.ss3Dispatch wch, .enter .ground]

def eventVt52Param : List Action :=
  if isC0Code wch then [.execute wch]
  else if isDelete wch then []
  else [.vt52Param wch]

def eventDcsEntry : List Action :=
  if isC0Code wch then []
  else if isDelete wch then []
  else if isSubParameterDelimiter wch then [.enter .dcsIgnore]
  else if isNumericParamValue wch || isParameterDelimiter wch then [.param wch, .enter .dcsParam]
  else if isIntermediate wch then [.collect wch, .enter .dcsIntermediate]
  else [.dcsDispatch wch]

def eventDcsIntermediate : List Action :=
  if isC0Code wch then []
  else if isDelete wch then []
  else if isIntermediate wch then [.collect wch]
  else if isIntermediateInvalid wch then [.enter .dcsIgnore]
  else [.dcsDispatch wch]

/-- The checks for control characters only ignore them: the second `if` of the source is no `else if`, so a
control character goes on to the last branch. -/
def eventDcsParam : List Action :=
  if isNumericParamValue wch || isParameterDelimiter wch then [.param wch]
  else if isIntermediate wch then [.collect wch, .enter .dcsIntermediate]
  else if isParameterInvalid wch || isSubParameterDelimiter wch then [.enter .dcsIgnore]
  else [.dcsDispatch wch]

def eventDcsPassThrough : List Action :=
  if isC0Code wch || isDcsPassThroughValid wch then [.dcsString wch] else []

/-- The switch of `ProcessCharacter`. -/
def event : VTState → List Action
  | .ground => eventGround wch
  | .escape => eventEscape input mode wch
  | .escapeIntermediate => eventEscapeIntermediate mode wch
  | .csiEntry => eventCsiEntry wch
  | .csiIntermediate => eventCsiIntermediate wch
  | .csiIgnore => eventCsiIgnore wch
  | .csiParam => eventCsiParam wch
  | .csiSubParam => eventCsiSubParam wch
  | .oscParam => eventOscParam wch
  | .oscString => eventOscString wch
  | .oscTermination => eventOscTermination input mode wch
  | .ss3Entry => eventSs3Entry wch
  | .ss3Param => eventSs3Param wch
  | .vt52Param => eventVt52Param wch
  | .dcsEntry => eventDcsEntry wch
  | .dcsIgnore => []
  | .dcsIntermediate => eventDcsIntermediate wch
  | .dcsParam => eventDcsParam wch
  | .dcsPassThrough => eventDcsPassThrough wch
  | .sosPmApcString => []

end Events

/-- What `ProcessCharacter` does for a character that is no C1 control. -/
def actions (wch : UInt16) : List Action :=
  if (wch = can ∨ wch = sub) ∧ ¬ (m.state = .escape ∧ engine.isEngineForInput) then
    [.interrupt, .execute wch, .enter .ground]
  else if isEscape wch ∧ m.state ≠ .oscString ∧ m.state ≠ .oscParam then [.interrupt, .enter .escape]
  else event engine.isEngineForInput m.parserMode wch m.state

def performAll (actions : List Action) : StateMachine := actions.foldl (perform engine) m

def processPlain (wch : UInt16) : StateMachine := m.performAll engine (m.actions engine wch)

/-- `ProcessCharacter`.  The characters it calls itself with are no C1 controls. -/
def processCharacter (wch : UInt16) : StateMachine :=
  if isC1ControlCharacter wch then
    if m.parserMode.acceptC1 then (m.processPlain engine esc).processPlain engine (c1To7Bit wch) else m
  else m.processPlain engine wch

/-! ### Strings -/

/-- The inner loop of `ProcessString`: characters one by one until the state machine is at ground.  The second
result are the characters that are left. -/
def processSequence : List UInt16 → StateMachine → StateMachine × List UInt16
  | [], m => (m, [])
  | wch :: rest, m =>
    let m := { m with currentRun := m.currentRun ++ [wch] }.processCharacter engine wch
    if m.state ≠ .ground then processSequence rest m else (m, rest)

/-- The print run at the head of the outer loop. -/
def printRun (run : List UInt16) : StateMachine :=
  if run.isEmpty then { m with currentRun := [] }
  else
    { ({ m with currentRun := run }.quietCall (.printString run)).afterCall engine with currentRun := [] }

/-- The outer loop of `ProcessString`, with a bound on its iterations. -/
def processLoop : ℕ → List UInt16 → StateMachine → StateMachine
  | 0, _, m => m
  | iterations + 1, string, m =>
    if string.isEmpty then m
    else
      let run := string.takeWhile (!isActionableFromGround ·)
      let next := processSequence engine (string.drop run.length) (m.printRun engine run)
      processLoop iterations next.2 next.1

/-- The end of `ProcessString`. -/
def endOfString : StateMachine :=
  if m.state ≠ .ground then
    let run := m.currentRun
    if engine.isEngineForInput && !engine.encounteredWin32InputModeSequence (unitsOf m.calls) &&
        run.length ≤ 2 && run.head? == some esc then
      let m := m.enter engine .ground
      let m := if run.length = 1 then m.perform engine (.execute esc)
        else (m.enter engine .escape).perform engine (.escDispatch (run.getLastD 0))
      m.enter engine .ground
    else if !engine.isEngineForInput &&
        (m.state = .sosPmApcString || m.state = .dcsPassThrough || m.state = .dcsIgnore) then m
    else { m with cachedSequence := some (m.cachedSequence.getD [] ++ run) }
  else m

def processString (string : List UInt16) : StateMachine :=
  let m := { m with currentRun := [] }
  let m := if m.state ≠ .ground then
      let next := processSequence engine string m
      processLoop engine string.length next.2 next.1
    else processLoop engine string.length string m
  m.endOfString engine

end StateMachine

end VT7.Parser
