import VT7.Adapter.MacroBuffer
import VT7.Parser.CsiGrammar

/-!
# Strings that invoke macros

`AdaptDispatch` registers a callback for DECINVM; the parser runs it when the control sequence is complete, and the
callback hands a macro to `ProcessString` again.  `Terminal` is the parser with the string it is at, and the macro
buffers; `invokeMacro` and `processString` call each other, with a bound on the nesting.

The parser computes `_CurrentRun` from the string where it needs it; here it is computed once for each character.
What leaves a character as an exception is any function of the parser: only the calls of the handlers of data strings
are not guarded by `_SafeExecute`, so no exception comes between the dispatch of a control sequence and its callback.
-/

namespace VT7.Adapter

open VT7.Parser (StateMachine Engine EngineCall VTParameter isActionableFromGround unitsOf)

/-- `DECINVM_InvokeMacro`. -/
def decinvm : UInt64 := 0x7a2a

/-- `RIS_ResetToInitialState`. -/
def ris : UInt64 := 0x63

/-- `DECDMAC_DefineMacro`. -/
def decdmac : UInt64 := 0x7a21

/-- The string of a `ProcessString` call: one that was received, or a macro where the buffer keeps it. -/
inductive View where
  | received (text : List UInt16)
  | stored (buffer : ℕ) (macroId : Fin 64)

/-- What is recorded of a run, in order. -/
inductive Record where
  /-- `count` characters of the string `own` from `index` on, at the time they are processed. -/
  | processed (depth : ℕ) (own : View) (index count : ℕ) (currentString : View) (runOffset runSize : ℕ)
  /-- A call of `InvokeMacro`, with `_invokedSequenceLength`. -/
  | invoked (sequenceLength : ℕ)

structure Terminal where
  machine : StateMachine
  /-- The buffers made so far, whether or not `_macroBuffer` still points to them. -/
  buffers : ℕ → MacroBuffer := fun _ => {}
  made : ℕ := 0
  macroBuffer : Option ℕ := none
  /-- How many data strings were dispatched. -/
  handlers : ℕ := 0
  /-- The one that defines a macro. -/
  definition : Option ℕ := none
  currentString : View := .received []
  runOffset : ℕ := 0
  runSize : ℕ := 0
  /-- `_onCsiCompleteCallback`: the buffer and the macro to invoke. -/
  onCsiComplete : Option (ℕ × ℕ) := none
  history : List Record := []

/-- How a call of `ProcessString` or `InvokeMacro` ends. -/
inductive Completion where
  | returned (t : Terminal)
  | threw (t : Terminal)
  /-- The calls are nested deeper than the bound. -/
  | unbounded

/-- An omitted parameter, and zero, of a selective parameter. -/
def selectiveOf (p : Option VTParameter) : ℤ := (p.getD none).getD 0

def deleteControlOf (p : Option VTParameter) : MacroDeleteControl :=
  if selectiveOf p = 0 then .deleteId else if selectiveOf p = 1 then .deleteAll else .other

def encodingOf (p : Option VTParameter) : MacroEncoding :=
  if selectiveOf p = 0 then .text else if selectiveOf p = 1 then .hexPair else .other

namespace Terminal

variable (t : Terminal)

def text : View → List UInt16
  | .received text => text
  | .stored buffer macroId => (t.buffers buffer).macros macroId

def withBuffer (buffer : ℕ) (f : MacroBuffer → MacroBuffer) : Terminal :=
  { t with buffers := Function.update t.buffers buffer (f (t.buffers buffer)) }

def record (r : Record) : Terminal := { t with history := t.history ++ [r] }

/-- The depth of the invocation a string belongs to. -/
def depthOf : View → ℕ
  | .received _ => 0
  | .stored buffer _ => (t.buffers buffer).invokedDepth

/-! ### `AdaptDispatch` -/

/-- `AdaptDispatch::InvokeMacro`. -/
def invokeLater (macroId : ℕ) : Terminal :=
  match t.macroBuffer with
  | some buffer => { t with onCsiComplete := some (buffer, macroId) }
  | none => t

/-- What `AdaptDispatch::HardReset` does to the macros. -/
def hardReset : Terminal :=
  match t.macroBuffer with
  | some buffer => { t.withBuffer buffer MacroBuffer.clearMacrosIfInUse with macroBuffer := none }
  | none => t

/-- The first lines of `AdaptDispatch::DefineMacro`. -/
def ensureBuffer : Terminal × ℕ :=
  match t.macroBuffer with
  | some buffer => (t, buffer)
  | none => ({ t.withBuffer t.made (fun _ => {}) with macroBuffer := some t.made, made := t.made + 1 }, t.made)

/-- `AdaptDispatch::DefineMacro`. -/
def defineMacro (macroId : ℕ) (deleteControl : MacroDeleteControl) (encoding : MacroEncoding) : Terminal :=
  let (t, buffer) := t.ensureBuffer
  let (b, accepted) := (t.buffers buffer).initParser macroId deleteControl encoding
  { t.withBuffer buffer (fun _ => b) with definition := if accepted then some t.handlers else none }

/-- The handler that `DefineMacro` returns. -/
def parseDefinition (ch : UInt16) : Terminal :=
  match t.macroBuffer with
  | some buffer => t.withBuffer buffer fun b => (b.parseDefinition ch).1
  | none => t

/-- What a call of the engine does to the macros. -/
def dispatch : EngineCall → Terminal
  | .csiDispatch id parameters subParameters _ =>
    if id = decinvm ∧ subParameters.isEmpty then t.invokeLater (selectiveOf parameters[0]?).toNat else t
  | .escDispatch id => if id = ris then t.hardReset else t
  | .dcsDispatch id parameters =>
    let t := { t with handlers := t.handlers + 1 }
    if id = decdmac then
      t.defineMacro (selectiveOf parameters[0]?).toNat (deleteControlOf parameters[1]?) (encodingOf parameters[2]?)
    else t
  | .dcsString handler ch => if t.definition = some handler then t.parseDefinition ch else t
  | _ => t

/-! ### The parser -/

/-- `_CurrentRun`. -/
def currentRun : List UInt16 := ((t.text t.currentString).drop t.runOffset).take t.runSize

/-- A part of `ProcessString`, with what its calls of the engine do to the macros. -/
def handle (f : StateMachine → StateMachine) : Terminal :=
  let machine := f { t.machine with currentRun := t.currentRun }
  (machine.calls.drop t.machine.calls.length).foldl dispatch { t with machine }

/-- Whether the last part completed a control sequence. -/
def completedCsi (before : StateMachine) : Bool :=
  (t.machine.calls.drop before.calls.length).any EngineCall.isCsiDispatch

/-- `_ExecuteCsiCompleteCallback`. -/
def executeCsiCompleteCallback (invoke : ℕ → ℕ → Terminal → Completion) : Completion :=
  match t.onCsiComplete with
  | none => .returned t
  | some (buffer, macroId) =>
    match invoke buffer macroId { t with onCsiComplete := none } with
    | .returned t' =>
      .returned { t' with currentString := t.currentString, runOffset := t.runOffset, runSize := t.runSize }
    | completion => completion

variable (engine : Engine) (throws : StateMachine → Bool) (invoke : ℕ → ℕ → Terminal → Completion)

/-- The print run at `i`, and the index behind it.  The string has the size it began with. -/
def printRun (own : View) (size i : ℕ) : Terminal × ℕ :=
  let run := (((t.text own).take size).drop i).takeWhile (!isActionableFromGround ·)
  let t := { t with runOffset := i, runSize := run.length }
  if run.isEmpty then (t, i)
  else
    let t := t.record (.processed (t.depthOf own) own i run.length t.currentString t.runOffset t.runSize)
    let t := t.handle fun m => (m.quietCall (.printString run)).afterCall engine
    ({ t with runOffset := i + run.length, runSize := 0 }, i + run.length)

/-- One character of the inner loop. -/
def processOne (own : View) (i : ℕ) : Completion :=
  let t := { t with runSize := t.runSize + 1 }
  let t := t.record (.processed (t.depthOf own) own i 1 t.currentString t.runOffset t.runSize)
  let before := t.machine
  let t := t.handle fun m => m.processCharacter engine ((t.text own).getD i 0)
  if t.completedCsi before then t.executeCsiCompleteCallback invoke
  else if throws t.machine then .threw t
  else .returned t

/-- The loops of `ProcessString` from the index `i` on, with a bound on their rounds.  A round begins with a print run
if the parser is at ground. -/
def processFrom (own : View) (size : ℕ) : ℕ → ℕ → Terminal → Completion
  | 0, _, t => .returned t
  | rounds + 1, i, t =>
    if i < size then
      let (t, i) := if t.machine.state = .ground then t.printRun engine own size i else (t, i)
      if i < size then
        match t.processOne engine throws invoke own i with
        | .returned t => processFrom own size rounds (i + 1) t
        | completion => completion
      else .returned t
    else .returned t

/-- `ProcessString`. -/
def processString (own : View) : Completion :=
  let size := (t.text own).length
  let t := { t with currentString := own, runOffset := 0, runSize := 0 }
  match processFrom engine throws invoke own size size 0 t with
  | .returned t => .returned (t.handle fun m => m.endOfString engine)
  | completion => completion

/-- `MacroBuffer::InvokeMacro`, for calls that are nested no deeper than the first argument. -/
def invokeMacro : ℕ → ℕ → ℕ → Terminal → Completion
  | 0, _, _, _ => .unbounded
  | levels + 1, buffer, macroId, t =>
    let t := t.record (.invoked (t.buffers buffer).invokedSequenceLength)
    if h : (t.buffers buffer).mayInvoke macroId ∧ macroId < 64 then
      match (t.withBuffer buffer (·.enterMacro macroId)).processString engine throws (invokeMacro levels)
        (.stored buffer ⟨macroId, h.2⟩) with
      | .returned t => .returned (t.withBuffer buffer (·.leaveMacro))
      | .threw t => .threw (t.withBuffer buffer (·.leaveMacro))
      | .unbounded => .unbounded
    else .returned t

end Terminal

end VT7.Adapter
