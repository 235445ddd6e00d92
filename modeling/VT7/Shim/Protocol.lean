import VT7.Dotnet.Unicode

/-!
The host's half of the shim protocol (`SshShimProtocol`): the three frames the broker writes and the
three it parses, over `BinaryWriter` and `BinaryReader`, which are little-endian.

A frame's body is its list of bytes.  A nonce, a request id (`Guid.ToByteArray`) and a MAC are blocks
of their length; a string is its UTF-16 units.
-/

namespace VT7.Shim

open VT7.Lib VT7.Lib.Wire VT7.Dotnet

abbrev Nonce := Block UInt8 16
abbrev Guid := Block UInt8 16
abbrev Mac := Block UInt8 32

inductive SshShimMessage
  | hello | challenge | request | response | barrierWritten | complete
  deriving DecidableEq, Repr

def SshShimMessage.value : SshShimMessage → UInt8
  | hello => 1
  | challenge => 2
  | request => 3
  | response => 4
  | barrierWritten => 5
  | complete => 6

inductive SshShimAction
  | embedded | system | reject
  deriving DecidableEq, Repr

def SshShimAction.value : SshShimAction → UInt8
  | embedded => 1
  | system => 2
  | reject => 3

structure SshShimRequest where
  protocol : UInt16
  processId : UInt32
  creationTime : Int64
  clientNonce : Nonce
  serverNonce : Nonce
  generation : Int64
  standardInputFlags : UInt32
  standardOutputFlags : UInt32
  standardErrorFlags : UInt32
  consoleProcesses : List UInt32
  currentDirectory : Utf16
  arguments : List Utf16
  mac : Mac
  canonicalBytes : Bytes
  deriving DecidableEq

namespace SshShimProtocol

def version : UInt16 := 1
def maximumFrame : ℕ := 64 * 1024
def consoleHandleFlag : UInt32 := 0x10000
def fileTypeChar : UInt32 := 2

/-- What the protocol code throws: `InvalidDataException` with its message, and the
`EndOfStreamException` of a `BinaryReader`. -/
inductive Error
  | invalidData (message : String)
  | endOfStream
  deriving DecidableEq, Repr

/-! ### Writing -/

/-- `BinaryWriter.Write(ushort)`. -/
def writeUInt16 (v : UInt16) : Bytes := leBytes 2 v.toBitVec
/-- `BinaryWriter.Write(int)`. -/
def writeInt32 (v : Int32) : Bytes := leBytes 4 v.toBitVec
/-- `BinaryWriter.Write(long)`. -/
def writeInt64 (v : Int64) : Bytes := leBytes 8 v.toBitVec

def writeString (value : Utf16) : Except Error Bytes :=
  if value.length > 32767 || value.contains 0 then .error (.invalidData "Invalid protocol string.")
  else .ok (writeInt32 (Int32.ofNat value.length) ++ unicodeBytes value)

def challenge (generation : Int64) (serverNonce : Nonce) : Bytes :=
  SshShimMessage.challenge.value :: (writeUInt16 version ++ writeInt64 generation ++ serverNonce.1)

def response (action : SshShimAction) (exitCode : Int32) (requestId : Guid)
    (reason first second : Utf16) : Except Error Bytes := do
  let reason ← writeString reason
  let first ← writeString first
  let second ← writeString second
  pure (SshShimMessage.response.value :: action.value :: (writeInt32 exitCode ++ requestId.1 ++
    reason ++ first ++ second))

def complete (exitCode : Int32) (requestId : Guid) : Bytes :=
  SshShimMessage.complete.value :: (writeInt32 exitCode ++ requestId.1)

/-! ### Reading -/

abbrev BinaryReader := Wire.Reader Error UInt8

def readByte : BinaryReader UInt8 := (fun b => ⟨leWord 8 b.1⟩) <$> take .endOfStream 1
def readUInt16 : BinaryReader UInt16 := (fun b => ⟨leWord 16 b.1⟩) <$> take .endOfStream 2
def readUInt32 : BinaryReader UInt32 := (fun b => ⟨leWord 32 b.1⟩) <$> take .endOfStream 4
def readInt64 : BinaryReader Int64 := (fun b => ⟨⟨leWord 64 b.1⟩⟩) <$> take .endOfStream 8

/-- `Require` inside a reader. -/
def require (condition : Bool) (message : String) : BinaryReader Unit :=
  Wire.require condition (.invalidData message)

/-- `ReadExact`: `ReadBytes` returns what is left when that is fewer, and then the length differs. -/
def readExact (count : ℕ) : BinaryReader (Block UInt8 count) :=
  take (.invalidData "Truncated protocol field.") count

def readString : BinaryReader Utf16 := do
  let count ← readUInt32
  require (count ≤ 32767) "Protocol string exceeds bound."
  let bytes ← readExact (count.toNat * 2)
  pure (unicodeString bytes.1)

/-- `Reader`: a body outside the bounds has no reader. -/
def withReader {α : Type} (r : BinaryReader α) (body : Bytes) : Except Error α :=
  if 0 < body.length ∧ body.length ≤ maximumFrame then parse r body
  else .error (.invalidData "Invalid shim frame length.")

def readHello : BinaryReader (UInt32 × Int64 × Nonce) := do
  require ((← readByte) == SshShimMessage.hello.value) "Unexpected shim hello type."
  require ((← readUInt16) == version) "Unknown shim protocol version."
  let processId ← readUInt32
  let creationTime ← readInt64
  let clientNonce ← readExact 16
  pure (processId, creationTime, clientNonce)

/-- `ParseHello`: the claimed process, its creation time and the client nonce. -/
def parseHello (body : Bytes) : Except Error (UInt32 × Int64 × Nonce) :=
  withReader (do
    let fields ← readHello
    require (← atEnd) "Trailing shim hello data."
    pure fields) body

/-- The fields of a request in the order of the frame, up to the end check. -/
def readRequest (canonical : Bytes) : BinaryReader SshShimRequest := do
  require ((← readByte) == SshShimMessage.request.value) "Unexpected shim request type."
  let protocol ← readUInt16
  let processId ← readUInt32
  let creationTime ← readInt64
  let clientNonce ← readExact 16
  let serverNonce ← readExact 16
  let generation ← readInt64
  let standardInputFlags ← readUInt32
  let standardOutputFlags ← readUInt32
  let standardErrorFlags ← readUInt32
  let processCount ← readUInt32
  require (0 < processCount && processCount ≤ 256) "Invalid console process count."
  let consoleProcesses ← times readUInt32 processCount.toNat
  let currentDirectory ← readString
  let argumentCount ← readUInt32
  require (0 < argumentCount && argumentCount ≤ 256) "Invalid shim argument count."
  let arguments ← times readString argumentCount.toNat
  let mac ← readExact 32
  pure { protocol, processId, creationTime, clientNonce, serverNonce, generation,
         standardInputFlags, standardOutputFlags, standardErrorFlags, consoleProcesses,
         currentDirectory, arguments, mac, canonicalBytes := canonical }

def parseRequest (body : Bytes) : Except Error SshShimRequest :=
  if 32 ≤ body.length then
    withReader (do
      let request ← readRequest (body.take (body.length - 32))
      require (← atEnd) "Trailing authenticated shim request data."
      pure request) body
  else .error (.invalidData "Truncated authenticated shim request.")

/-- `ParseBarrier`: the canonical bytes and the MAC. -/
def parseBarrier (body : Bytes) (requestId : Guid) (serverNonce : Nonce) : Except Error (Bytes × Mac) :=
  if body.length = 1 + 16 + 16 + 32 then
    withReader (do
      require ((← readByte) == SshShimMessage.barrierWritten.value) "Unexpected barrier acknowledgement."
      require ((← readExact 16) == requestId) "Barrier request identity mismatch."
      require ((← readExact 16) == serverNonce) "Barrier server nonce mismatch."
      let mac ← readExact 32
      pure (body.take (body.length - 32), mac)) body
  else .error (.invalidData "Invalid barrier acknowledgement length.")

def isConsole (flags : UInt32) : Bool :=
  (flags &&& 0xffff) == fileTypeChar && (flags &&& consoleHandleFlag) != 0

def hasConsoleHandles (request : SshShimRequest) : Bool :=
  isConsole request.standardInputFlags && isConsole request.standardOutputFlags &&
    isConsole request.standardErrorFlags

/-! ### What each reader takes -/

/-- A word of `n` bytes behind a constructor of its machine type. -/
lemma reads_word {ε β : Type} {n : ℕ} {e : ε} (mk : BitVec (8 * n) → β) (v : BitVec (8 * n)) :
    Reads ((fun b => mk (leWord (8 * n) b.1)) <$> take e n) (leBytes n v) (mk v) := by
  have h := (Reads.take (e := e) (n := n) ⟨leBytes n v, leBytes_length n v⟩).map
    (fun b => mk (leWord (8 * n) b.1))
  rw [leWord_leBytes] at h
  exact h

lemma leBytes_one (v : UInt8) : leBytes 1 v.toBitVec = [v] := by
  simp [leBytes, List.range_succ]

lemma reads_readByte (v : UInt8) : Reads readByte [v] v := by
  have h := reads_word (n := 1) (e := Error.endOfStream) UInt8.ofBitVec v.toBitVec
  rw [leBytes_one] at h
  exact h

lemma reads_readUInt16 (v : UInt16) : Reads readUInt16 (leBytes 2 v.toBitVec) v :=
  reads_word (n := 2) UInt16.ofBitVec v.toBitVec

lemma reads_readUInt32 (v : UInt32) : Reads readUInt32 (leBytes 4 v.toBitVec) v :=
  reads_word (n := 4) UInt32.ofBitVec v.toBitVec

lemma reads_readInt64 (v : Int64) : Reads readInt64 (leBytes 8 v.toBitVec) v :=
  reads_word (n := 8) (fun b => (⟨⟨b⟩⟩ : Int64)) v.toBitVec

/-- An unsigned word of the shim is read as a signed one. -/
lemma reads_readInt64_unsigned (v : UInt64) : Reads readInt64 (leBytes 8 v.toBitVec) v.toInt64 :=
  reads_readInt64 v.toInt64

lemma reads_readExact {n : ℕ} (w : Block UInt8 n) : Reads (readExact n) w.1 w := Reads.take w

/-! ### What an accepted frame is -/

lemma takes_word {β : Type} {n : ℕ} {e : Error} (f : Block UInt8 n → β) :
    Takes (f <$> take e n : BinaryReader β) := (ends_take e n).takes.map f

lemma takes_readExact (n : ℕ) : Takes (readExact n) := (ends_take _ n).takes

lemma takes_readString : Takes readString :=
  Ends.bind (takes_word _) fun _ => Ends.bind (takes_require _ _) fun _ =>
    Ends.bind_pure (takes_readExact _) fun _ => rfl

/-- A request ends with its MAC. -/
lemma ends_readRequest (canonical : Bytes) : Ends (readRequest canonical) fun r => r.mac.1 := by
  refine Ends.bind (takes_word _) fun _ => Ends.bind (takes_require _ _) fun _ => ?_
  refine Ends.bind (takes_word _) fun _ => Ends.bind (takes_word _) fun _ => ?_
  refine Ends.bind (takes_word _) fun _ => Ends.bind (takes_readExact _) fun _ => ?_
  refine Ends.bind (takes_readExact _) fun _ => Ends.bind (takes_word _) fun _ => ?_
  refine Ends.bind (takes_word _) fun _ => Ends.bind (takes_word _) fun _ => ?_
  refine Ends.bind (takes_word _) fun _ => Ends.bind (takes_word _) fun _ => ?_
  refine Ends.bind (takes_require _ _) fun _ => Ends.bind ((takes_word _).times _) fun _ => ?_
  refine Ends.bind takes_readString fun _ => Ends.bind (takes_word _) fun _ => ?_
  refine Ends.bind (takes_require _ _) fun _ => Ends.bind (takes_readString.times _) fun _ => ?_
  exact Ends.bind_pure (ends_take _ 32) fun _ => rfl

lemma withReader_eq_ok {α : Type} {r : BinaryReader α} {body : Bytes} {v : α}
    (h : withReader r body = .ok v) : ∃ t, r body = .ok (v, t) := by
  unfold withReader at h
  split at h
  · exact parse_eq_ok h
  · cases h

lemma readRequest_canonicalBytes {canonical s t : Bytes} {r : SshShimRequest}
    (h : readRequest canonical s = .ok (r, t)) : r.canonicalBytes = canonical := by
  unfold readRequest at h
  iterate 19 obtain ⟨_, _, -, h⟩ := bind_eq_ok h
  cases h
  rfl

/-- An accepted request is its canonical bytes and its MAC. -/
theorem parseRequest_eq_ok {body : Bytes} {r : SshShimRequest} (h : parseRequest body = .ok r) :
    body = r.canonicalBytes ++ r.mac.1 ∧ readRequest r.canonicalBytes body = .ok (r, []) := by
  unfold parseRequest at h
  split at h
  · obtain ⟨t, ht⟩ := withReader_eq_ok h
    have hread := atEnd_eq_ok ht
    obtain ⟨w, hw⟩ := ends_readRequest _ _ _ _ hread
    have hcanonical := readRequest_canonicalBytes hread
    rw [List.append_nil] at hw
    have htake : body.take (body.length - 32) = w := by
      rw [hw, List.length_append, r.mac.2, Nat.add_sub_cancel, List.take_left' rfl]
    rw [htake] at hcanonical hread
    exact ⟨by rw [hcanonical]; exact hw, by rw [hcanonical]; exact hread⟩
  · cases h

lemma readByte_eq_ok {s t : Bytes} {b : UInt8} (h : readByte s = .ok (b, t)) : s = b :: t := by
  cases s with
  | nil => cases h
  | cons x s =>
    have hx := (reads_readByte x).exact s
    rw [List.singleton_append, h] at hx
    cases hx
    rfl

/-- An accepted acknowledgement is the type, the request and the nonce it was asked for, and a MAC. -/
theorem parseBarrier_eq_ok {body canonical : Bytes} {requestId : Guid} {serverNonce : Nonce} {mac : Mac}
    (h : parseBarrier body requestId serverNonce = .ok (canonical, mac)) :
    canonical = SshShimMessage.barrierWritten.value :: (requestId.1 ++ serverNonce.1) ∧
      body = canonical ++ mac.1 := by
  unfold parseBarrier at h
  split at h
  · next hlen =>
    obtain ⟨t, ht⟩ := withReader_eq_ok h
    obtain ⟨b, u₁, hb, ht⟩ := bind_eq_ok ht
    obtain ⟨htype, ht⟩ := require_bind_eq_ok ht
    obtain ⟨id, u₂, hid, ht⟩ := bind_eq_ok ht
    obtain ⟨hsameId, ht⟩ := require_bind_eq_ok ht
    obtain ⟨nonce, u₃, hnonce, ht⟩ := bind_eq_ok ht
    obtain ⟨hsameNonce, ht⟩ := require_bind_eq_ok ht
    obtain ⟨mac', u₄, hmac, ht⟩ := bind_eq_ok ht
    cases ht
    obtain rfl := beq_iff_eq.mp htype
    obtain rfl := beq_iff_eq.mp hsameId
    obtain rfl := beq_iff_eq.mp hsameNonce
    have hbody : body = SshShimMessage.barrierWritten.value :: (id.1 ++ nonce.1) ++ (mac.1 ++ t) := by
      rw [readByte_eq_ok hb, take_eq_ok hid, take_eq_ok hnonce, take_eq_ok hmac]
      simp only [List.cons_append, List.append_assoc]
    -- the length leaves nothing behind the MAC
    have ht : t = [] := by
      have hl := congrArg List.length hbody
      simp only [hlen, List.length_append, List.length_cons, id.2, nonce.2, mac.2] at hl
      exact List.length_eq_zero_iff.mp (by omega)
    subst ht
    have htake : body.take (body.length - 32) = SshShimMessage.barrierWritten.value :: (id.1 ++ nonce.1) := by
      rw [hlen, hbody]
      exact List.take_left' (by simp [id.2, nonce.2])
    rw [htake]
    exact ⟨rfl, by rw [List.append_nil] at hbody; exact hbody⟩
  · cases h

end SshShimProtocol

end VT7.Shim
