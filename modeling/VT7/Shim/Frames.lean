import VT7.Dotnet.Unicode

/-!
The shim's half of the protocol (`main.cpp`): the three frames `RunShim` builds with `AppendU16`,
`AppendU32`, `AppendU64` and `AppendString`, and the three it takes apart with `Reader`.

The shim is a Windows program: a `wchar_t` is one UTF-16 unit, and its bytes in memory are in
little-endian order.  A failed `Check` is `Except.error` with its text.
-/

namespace VT7.Shim.Program

open VT7.Lib VT7.Lib.Wire VT7.Dotnet

def protocolVersion : UInt16 := 1
def maximumFrame : ℕ := 64 * 1024

inductive Message
  | hello | challenge | request | response | barrierWritten | complete
  deriving DecidableEq, Repr

def Message.value : Message → UInt8
  | hello => 1
  | challenge => 2
  | request => 3
  | response => 4
  | barrierWritten => 5
  | complete => 6

/-- `Action`.  The cast from the byte of a frame is unchecked, so a value outside the enumeration can
occur. -/
inductive Action
  | embedded | system | reject
  | unknown (value : UInt8)
  deriving DecidableEq, Repr

/-- `static_cast<Action>`. -/
def Action.ofByte (b : UInt8) : Action :=
  if b = 1 then embedded else if b = 2 then system else if b = 3 then reject else unknown b

def check (condition : Bool) (text : String) : Except String Unit :=
  if condition then .ok () else .error text

lemma except_bind_eq_ok {ε α β : Type} {x : Except ε α} {f : α → Except ε β} {b : β} :
    (x >>= f) = .ok b ↔ ∃ a, x = .ok a ∧ f a = .ok b := by
  cases x <;> simp [Bind.bind, Except.bind]

lemma check_bind_eq_ok {α : Type} {c : Bool} {text : String} {x : Except String α} {a : α} :
    (check c text >>= fun _ => x) = .ok a ↔ c = true ∧ x = .ok a := by
  cases c <;> simp [check, Bind.bind, Except.bind]

/-! ### Writing -/

def appendU16 (bytes : Bytes) (value : UInt16) : Bytes := bytes ++ leBytes 2 value.toBitVec
def appendU32 (bytes : Bytes) (value : UInt32) : Bytes := bytes ++ leBytes 4 value.toBitVec
def appendU64 (bytes : Bytes) (value : UInt64) : Bytes := bytes ++ leBytes 8 value.toBitVec

def appendString (bytes : Bytes) (value : Utf16) : Except String Bytes := do
  check (value.length ≤ 32767) "string exceeds protocol bound"
  pure (appendU32 bytes (UInt32.ofNat value.length) ++ value.flatMap unitBytes)

/-- What the shim finds out about its own process: `GetCurrentProcessId`, `ProcessCreationTime`, the
random client nonce, `HandleFlags` of the three standard handles, `GetConsoleProcessList`,
`GetCurrentDirectoryW` and the arguments of `wmain`. -/
structure Facts where
  pid : UInt32
  creationTime : UInt64
  clientNonce : Block UInt8 16
  inputFlags : UInt32
  outputFlags : UInt32
  errorFlags : UInt32
  consoleProcesses : List UInt32
  currentDirectory : Utf16
  arguments : List Utf16
  deriving DecidableEq

/-- What the host's challenge says. -/
structure Challenge where
  generation : UInt64
  serverNonce : Block UInt8 16
  deriving DecidableEq

def hello (facts : Facts) : Bytes :=
  let hello := [Message.hello.value]
  let hello := appendU16 hello protocolVersion
  let hello := appendU32 hello facts.pid
  let hello := appendU64 hello facts.creationTime
  hello ++ facts.clientNonce.1

/-- The request before its MAC. -/
def canonicalRequest (facts : Facts) (challenge : Challenge) : Except String Bytes := do
  let request := [Message.request.value]
  let request := appendU16 request protocolVersion
  let request := appendU32 request facts.pid
  let request := appendU64 request facts.creationTime
  let request := request ++ facts.clientNonce.1
  let request := request ++ challenge.serverNonce.1
  let request := appendU64 request challenge.generation
  let request := appendU32 request facts.inputFlags
  let request := appendU32 request facts.outputFlags
  let request := appendU32 request facts.errorFlags
  check (facts.consoleProcesses.length ≠ 0 && facts.consoleProcesses.length ≤ 256)
    "GetConsoleProcessList failed or exceeded bound"
  let request := appendU32 request (UInt32.ofNat facts.consoleProcesses.length)
  let request := facts.consoleProcesses.foldl appendU32 request
  check (facts.currentDirectory.length ≠ 0 && facts.currentDirectory.length < 32768)
    "GetCurrentDirectoryW failed"
  let request ← appendString request facts.currentDirectory
  check (facts.arguments.length ≤ 256) "argument count exceeds protocol bound"
  let request := appendU32 request (UInt32.ofNat facts.arguments.length)
  facts.arguments.foldlM appendString request

/-- The barrier acknowledgement before its MAC. -/
def canonicalBarrier (requestId serverNonce : Block UInt8 16) : Bytes :=
  Message.barrierWritten.value :: (requestId.1 ++ serverNonce.1)

/-- The check of `WriteFrame`. -/
def outgoing (body : Bytes) : Except String Bytes := do
  check (body.length ≠ 0 && body.length ≤ maximumFrame) "invalid outgoing frame size"
  pure body

section Mac

-- `HmacSha256(key, data)`
variable (hmacSha256 : Bytes → Bytes → Block UInt8 32)

def authenticated (capability canonical : Bytes) : Bytes := canonical ++ (hmacSha256 capability canonical).1

/-- The request frame that `RunShim` writes. -/
def request (capability : Bytes) (facts : Facts) (challenge : Challenge) : Except String Bytes := do
  let canonical ← canonicalRequest facts challenge
  outgoing (authenticated hmacSha256 capability canonical)

end Mac

/-- Digests given by a table, to run the model on fixed inputs. -/
def ofTable {α : Type} [DecidableEq α] (table : List (α × Block UInt8 32)) (a : α) : Block UInt8 32 :=
  (table.lookup a).getD ⟨List.replicate 32 0, List.length_replicate⟩

/-! ### Reading -/

abbrev Reader := Wire.Reader String UInt8

/-- `Need` and the step of the offset. -/
def need (count : ℕ) : Reader (Block UInt8 count) := take "truncated protocol frame" count

def Reader.u8 : Reader UInt8 := (fun b => ⟨leWord 8 b.1⟩) <$> need 1
def Reader.u16 : Reader UInt16 := (fun b => ⟨leWord 16 b.1⟩) <$> need 2
def Reader.u32 : Reader UInt32 := (fun b => ⟨leWord 32 b.1⟩) <$> need 4
def Reader.u64 : Reader UInt64 := (fun b => ⟨leWord 64 b.1⟩) <$> need 8

def Reader.string : Reader Utf16 := do
  let count ← Reader.u32
  Wire.require (count ≤ 32767) "received string exceeds protocol bound"
  let bytes ← need (count.toNat * 2)
  pure (unitsOf bytes.1)

def Reader.bytes (count : ℕ) : Reader (Block UInt8 count) := need count

/-- The host's decision as it stands in the response frame. -/
structure Response where
  action : Action
  exitCode : Int32
  requestId : Block UInt8 16
  reason : Utf16
  first : Utf16
  second : Utf16
  deriving DecidableEq

def challengeFields : Reader Challenge := do
  let type ← Reader.u8
  -- the version is read only when the type fits
  let fits ← if type == Message.challenge.value then (· == protocolVersion) <$> Reader.u16
    else pure false
  Wire.require fits "invalid host challenge"
  let generation ← Reader.u64
  let serverNonce ← Reader.bytes 16
  pure { generation, serverNonce }

def challengeFrame (body : Bytes) : Except String Challenge :=
  parse (do
    let challenge ← challengeFields
    Wire.require (← atEnd) "unexpected host challenge data"
    pure challenge) body

def responseFields : Reader Response := do
  Wire.require ((← Reader.u8) == Message.response.value) "invalid host response"
  let action ← Action.ofByte <$> Reader.u8
  let exitCode ← UInt32.toInt32 <$> Reader.u32
  let requestId ← Reader.bytes 16
  let reason ← Reader.string
  let first ← Reader.string
  let second ← Reader.string
  pure { action, exitCode, requestId, reason, first, second }

def responseFrame (body : Bytes) : Except String Response :=
  parse (do
    let response ← responseFields
    Wire.require (← atEnd) "unexpected host response data"
    pure response) body

def completeFields : Reader (Int32 × Block UInt8 16) := do
  Wire.require ((← Reader.u8) == Message.complete.value) "invalid host completion"
  let status ← UInt32.toInt32 <$> Reader.u32
  let completedId ← Reader.bytes 16
  pure (status, completedId)

/-- The completion: its status, when it is the completion of this request. -/
def completeFrame (requestId : Block UInt8 16) (body : Bytes) : Except String Int32 :=
  parse (do
    let complete ← completeFields
    Wire.require (complete.2 == requestId && (← atEnd)) "host completion request mismatch"
    pure complete.1) body

end VT7.Shim.Program
