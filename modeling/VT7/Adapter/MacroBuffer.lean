import Mathlib.Algebra.BigOperators.Fin
import Mathlib.Logic.Function.Basic

/-!
# The macro buffer

`MacroBuffer` stores 64 macros.  `InitParser` begins a definition, whose characters go to `ParseDefinition`
one by one until it returns false.  `InvokeMacro` hands a macro to the state machine, which may call the
buffer again before it comes back.
-/

namespace VT7.Adapter

/-- The difference of two `size_t`. -/
def sizeSub (a b : ℕ) : ℕ := (a + 2 ^ 64 - b) % 2 ^ 64

/-- `MAX_SPACE`. -/
def maxSpace : ℕ := 0x40000

/-- `MAX_PARAMETER_VALUE`. -/
def maxParameterValue : ℕ := 65535

def esc : UInt16 := 0x1b

inductive MacroDeleteControl where
  | deleteId
  | deleteAll
  | other
deriving DecidableEq

inductive MacroEncoding where
  | text
  | hexPair
  | other

/-- `MacroBuffer::State`. -/
inductive MacroState where
  | expectingText
  | expectingHexDigit
  | expectingSecondHexDigit
  | expectingRepeatCount
deriving DecidableEq

structure MacroBuffer where
  parseState : MacroState := .expectingText
  decodedChar : UInt16 := 0
  repeatPending : Bool := false
  repeatCount : ℕ := 0
  repeatStart : ℕ := 0
  macros : Fin 64 → List UInt16 := fun _ => []
  activeMacroId : Fin 64 := 0
  spaceUsed : ℕ := 0
  invokedDepth : ℕ := 0
  invokedSequenceLength : ℕ := 0

namespace MacroBuffer

variable (b : MacroBuffer)

def getSpaceAvailable : ℕ := sizeSub maxSpace b.spaceUsed

def activeMacro : List UInt16 := b.macros b.activeMacroId

def setActiveMacro (text : List UInt16) : MacroBuffer :=
  { b with macros := Function.update b.macros b.activeMacroId text }

def deleteMacro (id : Fin 64) : MacroBuffer :=
  { b with
    spaceUsed := sizeSub b.spaceUsed (b.macros id).length
    macros := Function.update b.macros id [] }

/-- The result of `_decodeHexDigit` is the second one. -/
def decodeHexDigit (ch : UInt16) : MacroBuffer × Bool :=
  let decoded := b.decodedChar <<< 4
  if 48 ≤ ch ∧ ch ≤ 57 then ({ b with decodedChar := decoded + (ch - 48) }, true)
  else if 65 ≤ ch ∧ ch ≤ 70 then ({ b with decodedChar := decoded + (ch - 65 + 10) }, true)
  else if 97 ≤ ch ∧ ch ≤ 102 then ({ b with decodedChar := decoded + (ch - 97 + 10) }, true)
  else ({ b with decodedChar := decoded }, false)

def appendToActiveMacro (ch : UInt16) : MacroBuffer × Bool :=
  if 0 < b.getSpaceAvailable then
    ({ b.setActiveMacro (b.activeMacro ++ [ch]) with spaceUsed := b.spaceUsed + 1 }, true)
  else (b, false)

/-- The loop of `_applyPendingRepeat`, for this many further copies. -/
def appendCopies (sequenceLength : ℕ) : ℕ → MacroBuffer → MacroBuffer
  | 0, b => b
  | copies + 1, b =>
    appendCopies sequenceLength copies
      { b.setActiveMacro (b.activeMacro ++ (b.activeMacro.drop b.repeatStart).take sequenceLength) with
        spaceUsed := b.spaceUsed + sequenceLength }

def applyPendingRepeat : MacroBuffer × Bool :=
  if 1 < b.repeatCount then
    let sequenceLength := sizeSub b.activeMacro.length b.repeatStart
    if b.getSpaceAvailable < (b.repeatCount - 1) * sequenceLength then (b, false)
    else ({ appendCopies sequenceLength (b.repeatCount - 1) b with repeatPending := false }, true)
  else ({ b with repeatPending := false }, true)

/-- What `InitParser` does once the encoding is known. -/
def deleteFor (deleteControl : MacroDeleteControl) : MacroBuffer × Bool :=
  match deleteControl with
  | .deleteId => (b.deleteMacro b.activeMacroId, true)
  | .deleteAll => ((List.finRange 64).foldl deleteMacro b, true)
  | .other => (b, false)

def initParser (macroId : ℕ) (deleteControl : MacroDeleteControl) (encoding : MacroEncoding) :
    MacroBuffer × Bool :=
  if h : macroId < 64 ∧ b.invokedDepth = 0 then
    let b := { b with activeMacroId := ⟨macroId, h.1⟩, decodedChar := 0, repeatPending := false }
    match encoding with
    | .hexPair => { b with parseState := .expectingHexDigit }.deleteFor deleteControl
    | .text => { b with parseState := .expectingText }.deleteFor deleteControl
    | .other => (b, false)
  else (b, false)

/-- The switch of `ParseDefinition`, with the flag `success`. -/
def parseCharacter (ch : UInt16) : MacroBuffer × Bool :=
  match b.parseState with
  | .expectingText => b.appendToActiveMacro ch
  | .expectingHexDigit =>
    let (b, isDigit) := b.decodeHexDigit ch
    if isDigit then ({ b with parseState := .expectingSecondHexDigit }, true)
    else if ch = 33 ∧ ¬ b.repeatPending then
      ({ b with parseState := .expectingRepeatCount, repeatCount := 0 }, true)
    else if ch = 59 ∧ b.repeatPending then b.applyPendingRepeat
    else (b, false)
  | .expectingSecondHexDigit =>
    let (b, isDigit) := b.decodeHexDigit ch
    let (b, success) := if isDigit then b.appendToActiveMacro b.decodedChar else (b, false)
    ({ b with decodedChar := 0, parseState := .expectingHexDigit }, success)
  | .expectingRepeatCount =>
    if 48 ≤ ch ∧ ch ≤ 57 then
      ({ b with repeatCount := min (b.repeatCount * 10 + (ch - 48).toNat) maxParameterValue }, true)
    else if ch = 59 then
      ({ b with
          repeatPending := true
          repeatStart := b.activeMacro.length
          parseState := .expectingHexDigit }, true)
    else (b, false)

/-- `ParseDefinition`; the second result tells whether it takes more characters. -/
def parseDefinition (ch : UInt16) : MacroBuffer × Bool :=
  if ch = esc then
    if b.repeatPending then
      let (b, applied) := b.applyPendingRepeat
      (if applied then b else b.deleteMacro b.activeMacroId, false)
    else (b, false)
  else if ch < 32 then (b, true)
  else
    let (b, success) := b.parseCharacter ch
    (if success then b else b.deleteMacro b.activeMacroId, success)

/-- A definition's characters, until `ParseDefinition` returns false; the second result tells whether it
still takes more. -/
def parseAll : List UInt16 → MacroBuffer → MacroBuffer × Bool
  | [], b => (b, true)
  | ch :: rest, b =>
    let (b, more) := b.parseDefinition ch
    if more then parseAll rest b else (b, false)

/-- The conditions of `InvokeMacro`. -/
def mayInvoke (macroId : ℕ) : Bool :=
  if h : macroId < 64 then
    b.invokedDepth < 16 && (b.macros ⟨macroId, h⟩).length < sizeSub maxSpace b.invokedSequenceLength
  else false

/-- `InvokeMacro` up to the call of the state machine. -/
def enterMacro (macroId : ℕ) : MacroBuffer :=
  if h : macroId < 64 then
    { b with
      invokedSequenceLength := b.invokedSequenceLength + (b.macros ⟨macroId, h⟩).length
      invokedDepth := b.invokedDepth + 1 }
  else b

/-- The end of the scope of `InvokeMacro`. -/
def leaveMacro : MacroBuffer :=
  { b with
    invokedDepth := b.invokedDepth - 1
    invokedSequenceLength := if b.invokedDepth - 1 = 0 then 0 else b.invokedSequenceLength }

/-- `InvokeMacro`, with what the state machine does to the buffer while it processes a string. -/
def invokeMacro (processString : List UInt16 → MacroBuffer → MacroBuffer) (macroId : ℕ) : MacroBuffer :=
  if h : b.mayInvoke macroId ∧ macroId < 64 then
    (processString (b.macros ⟨macroId, h.2⟩) (b.enterMacro macroId)).leaveMacro
  else b

def clearMacrosIfInUse : MacroBuffer :=
  if 0 < b.invokedDepth then { b with macros := fun id => List.replicate (b.macros id).length 0 } else b

end MacroBuffer

/-! ### Runs -/

/-- What happens to the buffer.  A call of `InvokeMacro` is its beginning, what the state machine does
meanwhile, and its end. -/
inductive MacroEvent where
  | initParser (macroId : ℕ) (deleteControl : MacroDeleteControl) (encoding : MacroEncoding)
  | character (ch : UInt16)
  | enterMacro (macroId : ℕ)
  | leaveMacro
  | clearMacrosIfInUse

/-- The buffer, and whether a definition has begun and takes more characters. -/
structure MacroSession where
  buffer : MacroBuffer := {}
  receiving : Bool := false

namespace MacroSession

def step (s : MacroSession) : MacroEvent → MacroSession
  | .initParser macroId deleteControl encoding =>
    let (buffer, receiving) := s.buffer.initParser macroId deleteControl encoding
    { buffer, receiving }
  | .character ch =>
    if s.receiving then
      let (buffer, receiving) := s.buffer.parseDefinition ch
      { buffer, receiving }
    else s
  | .enterMacro macroId =>
    if s.buffer.mayInvoke macroId then { s with buffer := s.buffer.enterMacro macroId } else s
  | .leaveMacro => if 0 < s.buffer.invokedDepth then { s with buffer := s.buffer.leaveMacro } else s
  | .clearMacrosIfInUse => { s with buffer := s.buffer.clearMacrosIfInUse }

def run (s : MacroSession) (events : List MacroEvent) : MacroSession := events.foldl step s

end MacroSession

end VT7.Adapter
