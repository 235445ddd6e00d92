import VT7.Lib.Run
import VT7.Shim.Frames

/-!
The shim process (`RunShim` and `LaunchSystem` of `main.cpp`) as a machine.

A step is one call that the shim makes on the system: a write or a read of a frame on the pipe, the
barrier line on the console, the start of the external client.  The events say how the call went; a
call may fail at any point with any text.  What the shim MACs and which processes it starts are
recorded in its state.
-/

namespace VT7.Shim.Program

open VT7.Lib VT7.Lib.Wire VT7.Dotnet

/-! ### Text and paths -/

/-- The text that a C string function sees. -/
def cstr (t : Utf16) : Utf16 := t.takeWhile (· != 0)

/-- `towlower` in the C locale. -/
def foldUnit (u : UInt16) : UInt16 := if 0x41 ≤ u && u ≤ 0x5a then u + 0x20 else u

/-- `_wcsicmp(left.c_str(), right.c_str()) == 0`; the program never leaves the C locale. -/
def wcsicmp (left right : Utf16) : Bool := (cstr left).map foldUnit == (cstr right).map foldUnit

/-- A text literal of the source, all of them ASCII. -/
def literal (s : String) : Utf16 := s.toList.map fun c => UInt16.ofNat c.toNat

def isSlash (u : UInt16) : Bool := u == 0x5c || u == 0x2f

/-- The value of an environment variable; it holds no NUL. -/
abbrev EnvText := { t : Utf16 // 0 ∉ t }

lemma zero_notMem_cstr (t : Utf16) : 0 ∉ cstr t := by
  intro h
  have h0 := List.mem_takeWhile_imp h
  exact absurd h0 (by decide)

/-- The value that a C string sets. -/
def EnvText.ofUnits (t : Utf16) : EnvText := ⟨cstr t, zero_notMem_cstr t⟩

/-- The system services whose results the model does not compute. -/
structure Native where
  /-- The BCrypt HMAC of a key and some data. -/
  hmacSha256 : Bytes → Bytes → Block UInt8 32
  /-- The BCrypt hash. -/
  sha256 : Bytes → Block UInt8 32
  /-- `CryptStringToBinaryW` with `CRYPT_STRING_BASE64`. -/
  cryptStringToBinary : Utf16 → Option Bytes
  /-- `GetFullPathNameW`. -/
  getFullPathName : Utf16 → Option Utf16

/-- What a shim process is started with. -/
structure Process where
  /-- `VT7_SYSTEM_SSH`. -/
  external : EnvText
  /-- `VT7_SYSTEM_SSH_SHA256`. -/
  externalHash : EnvText
  /-- `VT7_SSH_MODE`. -/
  mode : EnvText
  /-- `VT7_SSH_PROTOCOL`. -/
  protocol : EnvText
  /-- `VT7_SSH_PIPE`. -/
  pipeName : EnvText
  /-- `VT7_SSH_CAPABILITY`. -/
  capabilityText : EnvText
  /-- `GetModuleFileNameW`, unless it fails. -/
  moduleFileName : Option Utf16
  facts : Facts

section Helpers

variable (os : Native)

/-- The separators at the end of a path longer than a drive's root are dropped. -/
def trimSlashes (path : Utf16) : Utf16 :=
  path.take (max 3 (path.rdropWhile isSlash).length)

def fullPath (path : Utf16) : Except String Utf16 :=
  match os.getFullPathName (cstr path) with
  | none => .error "GetFullPathNameW sizing failed"
  | some value => .ok (trimSlashes value)

def currentExecutable (p : Process) : Except String Utf16 :=
  match p.moduleFileName with
  | none => .error "GetModuleFileNameW failed"
  | some path => fullPath os path

def equalPath (left right : Utf16) : Except String Bool := do
  let left ← fullPath os left
  let right ← fullPath os right
  pure (wcsicmp left right)

def hexUnit (n : ℕ) : UInt16 := if n < 10 then UInt16.ofNat (0x30 + n) else UInt16.ofNat (0x41 + (n - 10))

/-- The upper-case hexadecimal digits of some bytes. -/
def hexText (bytes : Bytes) : Utf16 := bytes.flatMap fun b => [hexUnit (b.toNat / 16), hexUnit (b.toNat % 16)]

/-- `Sha256File`; `files` gives the content of the files that can be opened. -/
def sha256File (files : Utf16 → Option Bytes) (path : Utf16) : Except String Utf16 :=
  match files (cstr path) with
  | none => .error "external client open failed"
  | some content => .ok (hexText (os.sha256 content).1)

def base64UrlDecode (value : Utf16) : Except String Bytes :=
  let value := value.map fun u => if u == 0x2d then 0x2b else u
  let value := value.map fun u => if u == 0x5f then 0x2f else u
  let value := value ++ List.replicate ((4 - value.length % 4) % 4) 0x3d
  match os.cryptStringToBinary value with
  | none => .error "capability base64 sizing failed"
  | some bytes => .ok bytes

/-- The checks of `LaunchSystem`, up to `CreateProcessW`; the result is the hash of the file. -/
def launchChecks (p : Process) (files : Utf16 → Option Bytes) (externalPath expectedHash : Utf16) :
    Except String Utf16 := do
  check (!externalPath.isEmpty && !expectedHash.isEmpty) "external SSH fallback is unavailable"
  let executable ← currentExecutable os p
  check (!(← equalPath os externalPath executable)) "external SSH fallback resolves to the shim"
  let hash ← sha256File os files externalPath
  check (wcsicmp hash expectedHash) "external SSH hash changed"
  pure hash

/-- The name of the executable behind its last separator. -/
def executableName (executable : Utf16) : Utf16 := executable.rtakeWhile fun u => !isSlash u

/-- The first condition of `RunShim`: the external client is wanted, or there is no host to ask. -/
def bypassesHost (p : Process) (executable : Utf16) : Bool :=
  wcsicmp (executableName executable) (literal "ssh-system.exe") || wcsicmp p.mode.1 (literal "system") ||
    p.pipeName.1.isEmpty || p.capabilityText.1.isEmpty || p.protocol.1 != literal "1"

end Helpers

/-! ### The machine -/

/-- Where the process is.  `launch` is a call of `LaunchSystem`, from inside or outside the `try`
block. -/
inductive Phase
  | entry
  | waitPipe
  | openPipe
  | writeHello
  | readChallenge
  | buildRequest (challenge : Challenge)
  | writeRequest (challenge : Challenge)
  | readResponse (challenge : Challenge)
  | writeLine (challenge : Challenge) (response : Response)
  | writeBarrier (response : Response)
  | readComplete (response : Response)
  | launch (path hash : Utf16) (inTry : Bool)
  | exited (code : Int32)
  | failed (text : String)

/-- A process that the shim started: the application name given to `CreateProcessW` and the hash of
that file when it was checked. -/
structure Launch where
  application : Utf16
  sha256 : Utf16

structure ShimState where
  phase : Phase
  capability : Bytes
  hostDecisionReceived : Bool
  /-- The responses that were taken as the host's decision. -/
  decisions : List Response
  /-- The byte strings MACed with the capability. -/
  maced : List Bytes
  launches : List Launch

inductive Event
  /-- The pending call went well. -/
  | proceed
  /-- `WaitNamedPipeW` or `CreateFileW` found no pipe. -/
  | noPipe
  /-- `ReadFrame` returned this frame. -/
  | received (body : Bytes)
  /-- A check on the system's answer failed: a timeout, a closed pipe, a cut frame. -/
  | raised (text : String)
  /-- `LaunchSystem` found these files; behind its checks the process could not be created, or it was
  and its exit code, or the failure to get one, came back. -/
  | launched (files : Utf16 → Option Bytes) (created : Except String (Except String Int32))

def start : ShimState where
  phase := .entry
  capability := []
  hostDecisionReceived := false
  decisions := []
  maced := []
  launches := []

namespace ShimState

/-- An exception inside the `try` block of `RunShim`. -/
def raise (p : Process) (s : ShimState) (text : String) : ShimState :=
  if s.hostDecisionReceived then { s with phase := .failed text }
  else { s with phase := .launch p.external.1 p.externalHash.1 false }

/-- What the shim does with a response, in the order of the source. -/
def follow (p : Process) (s : ShimState) (challenge : Challenge) (response : Response) : ShimState :=
  match response.action with
  | .system =>
    { s with
      phase := .launch response.first response.second true
      hostDecisionReceived := true
      decisions := s.decisions ++ [response] }
  | .reject =>
    { s with
      phase := .exited response.exitCode
      hostDecisionReceived := true
      decisions := s.decisions ++ [response] }
  | .embedded =>
    { s with
      phase := .writeLine challenge response
      hostDecisionReceived := true
      decisions := s.decisions ++ [response] }
  | .unknown _ => raise p s "unknown host action"

/-- An exception of `LaunchSystem`. -/
def launchFailed (p : Process) (s : ShimState) (inTry : Bool) (text : String) : ShimState :=
  if inTry then raise p s text else { s with phase := .failed text }

/-- A call of `LaunchSystem` that found these files. -/
def launchSystem (os : Native) (p : Process) (s : ShimState) (path hash : Utf16) (inTry : Bool)
    (files : Utf16 → Option Bytes) (created : Except String (Except String Int32)) : ShimState :=
  match launchChecks os p files path hash with
  | .error text => launchFailed p s inTry text
  | .ok sha256 =>
    match created with
    | .error text => launchFailed p s inTry text
    | .ok result =>
      let s := { s with launches := s.launches ++ [{ application := cstr path, sha256 }] }
      match result with
      | .error text => launchFailed p s inTry text
      | .ok code => { s with phase := .exited code }

/-- One step of the shim. -/
def step (os : Native) (p : Process) (s : ShimState) (e : Event) : Option ShimState :=
  match s.phase, e with
  | .entry, .proceed =>
    match currentExecutable os p with
    | .error text => some { s with phase := .failed text }
    | .ok executable =>
      if bypassesHost p executable then
        some { s with phase := .launch p.external.1 p.externalHash.1 false }
      else
        match base64UrlDecode os p.capabilityText.1 with
        | .error text => some { s with phase := .failed text }
        | .ok capability =>
          if capability.length = 32 then some { s with phase := .waitPipe, capability }
          else some { s with phase := .failed "invalid capability length" }
  | .waitPipe, .proceed => some { s with phase := .openPipe }
  | .waitPipe, .noPipe => some { s with phase := .launch p.external.1 p.externalHash.1 false }
  | .openPipe, .proceed => some { s with phase := .writeHello }
  | .openPipe, .noPipe => some { s with phase := .launch p.external.1 p.externalHash.1 false }
  | .writeHello, .proceed => some { s with phase := .readChallenge }
  | .readChallenge, .received body =>
    if 0 < body.length ∧ body.length ≤ maximumFrame then
      match challengeFrame body with
      | .error text => some (raise p s text)
      | .ok challenge => some { s with phase := .buildRequest challenge }
    else none
  | .buildRequest challenge, .proceed =>
    match canonicalRequest p.facts challenge with
    | .error text => some (raise p s text)
    | .ok canonical =>
      -- the MAC is taken before the frame's size is checked
      let s := { s with maced := s.maced ++ [canonical] }
      match outgoing (authenticated os.hmacSha256 s.capability canonical) with
      | .error text => some (raise p s text)
      | .ok _ => some { s with phase := .writeRequest challenge }
  | .writeRequest challenge, .proceed => some { s with phase := .readResponse challenge }
  | .readResponse challenge, .received body =>
    if 0 < body.length ∧ body.length ≤ maximumFrame then
      match responseFrame body with
      | .error text => some (raise p s text)
      | .ok response => some (follow p s challenge response)
    else none
  | .writeLine challenge response, .proceed =>
    some { s with
      phase := .writeBarrier response
      maced := s.maced ++ [canonicalBarrier response.requestId challenge.serverNonce] }
  | .writeBarrier response, .proceed => some { s with phase := .readComplete response }
  | .readComplete response, .received body =>
    if 0 < body.length ∧ body.length ≤ maximumFrame then
      match completeFrame response.requestId body with
      | .error text => some (raise p s text)
      | .ok status => some { s with phase := .exited status }
    else none
  | .writeHello, .raised text | .readChallenge, .raised text | .buildRequest _, .raised text
  | .writeRequest _, .raised text | .readResponse _, .raised text | .writeLine _ _, .raised text
  | .writeBarrier _, .raised text | .readComplete _, .raised text => some (raise p s text)
  | .launch path hash inTry, .launched files created =>
    some (launchSystem os p s path hash inTry files created)
  | _, _ => none

/-! ### What every run keeps -/

/-- The path and the hash of a launch, with what the host decided: the environment's fallback identity
before any decision, or what a `System` response named. -/
def Sourced (p : Process) (decisions : List Response) (path hash : Utf16) : Prop :=
  (decisions = [] ∧ path = p.external.1 ∧ hash = p.externalHash.1) ∨
    ∃ r, decisions = [r] ∧ r.action = .system ∧ path = r.first ∧ hash = r.second

/-- The state of a process that has not read a decision. -/
def Undecided (s : ShimState) : Prop :=
  s.hostDecisionReceived = false ∧ s.decisions = [] ∧ s.launches = []

/-- The state of a process that follows an `Embedded` decision. -/
def Embedded (s : ShimState) (r : Response) : Prop :=
  s.hostDecisionReceived = true ∧ s.decisions = [r] ∧ r.action = .embedded ∧ s.launches = []

/-- What holds where the process is. -/
def PhaseInv (os : Native) (p : Process) (s : ShimState) : Prop :=
  match s.phase with
  | .writeLine _ r | .writeBarrier r | .readComplete r => s.Embedded r
  | .launch path hash inTry =>
    s.launches = [] ∧ Sourced p s.decisions path hash ∧ (inTry = true → s.hostDecisionReceived = true)
  | .exited _ | .failed _ =>
    (s.launches = [] ∧ s.decisions.length ≤ 1) ∨
      ∃ path hash files sha256, s.launches = [{ application := cstr path, sha256 }] ∧
        launchChecks os p files path hash = .ok sha256 ∧ Sourced p s.decisions path hash
  | _ => s.Undecided

/-- Only requests of this process and acknowledgements of an `Embedded` decision are MACed. -/
def Maced (p : Process) (s : ShimState) : Prop :=
  ∀ m ∈ s.maced, (∃ challenge, canonicalRequest p.facts challenge = .ok m) ∨
    ∃ (challenge : Challenge) (r : Response), s.decisions = [r] ∧ r.action = .embedded ∧
      m = canonicalBarrier r.requestId challenge.serverNonce

/-- **The invariant of the shim.** -/
structure Coherent (os : Native) (p : Process) (s : ShimState) : Prop where
  phase : PhaseInv os p s
  maced : Maced p s

variable {os : Native} {p : Process} {s s' : ShimState} {e : Event}

lemma coherent_start : Coherent os p start := by
  refine ⟨⟨rfl, rfl, rfl⟩, ?_⟩
  intro m hm
  cases hm

lemma Undecided.fallback (hu : s.Undecided) (hm : Maced p s) :
    Coherent os p { s with phase := .launch p.external.1 p.externalHash.1 false } := by
  refine ⟨⟨hu.2.2, Or.inl ⟨hu.2.1, rfl, rfl⟩, ?_⟩, hm⟩
  intro h
  cases h

lemma Undecided.raise (hu : s.Undecided) (hm : Maced p s) (text : String) :
    Coherent os p (ShimState.raise p s text) := by
  unfold ShimState.raise
  rw [if_neg (by rw [hu.1]; exact Bool.false_ne_true)]
  exact hu.fallback hm

lemma Undecided.fail (hu : s.Undecided) (hm : Maced p s) (text : String) :
    Coherent os p { s with phase := .failed text } :=
  ⟨Or.inl ⟨hu.2.2, by rw [hu.2.1]; exact Nat.zero_le 1⟩, hm⟩

lemma Embedded.raise {r : Response} (he : s.Embedded r) (hm : Maced p s) (text : String) :
    Coherent os p (ShimState.raise p s text) := by
  unfold ShimState.raise
  rw [if_pos he.1]
  exact ⟨Or.inl ⟨he.2.2.2, by rw [he.2.1]; exact le_rfl⟩, hm⟩

/-- A decision is read from an undecided state, so nothing but requests has been MACed. -/
lemma Undecided.follow (hu : s.Undecided) (hm : Maced p s) (challenge : Challenge) (response : Response) :
    Coherent os p (ShimState.follow p s challenge response) := by
  have hreq : ∀ m ∈ s.maced, ∃ challenge, canonicalRequest p.facts challenge = .ok m := by
    intro m hmem
    rcases hm m hmem with h | ⟨c, r, hr, -⟩
    · exact h
    · rw [hu.2.1] at hr
      cases hr
  have hone : s.decisions ++ [response] = [response] := by
    rw [hu.2.1]
    rfl
  have hmaced : ∀ {s' : ShimState}, s'.maced = s.maced → Maced p s' := by
    intro s' hs' m hmem
    exact Or.inl (hreq m (hs' ▸ hmem))
  unfold ShimState.follow
  split
  · next ha => exact ⟨⟨hu.2.2, Or.inr ⟨response, hone, ha, rfl, rfl⟩, fun _ => rfl⟩, hmaced rfl⟩
  · next ha => exact ⟨Or.inl ⟨hu.2.2, by rw [hone]; exact le_rfl⟩, hmaced rfl⟩
  · next ha => exact ⟨⟨rfl, hone, ha, hu.2.2⟩, hmaced rfl⟩
  · exact hu.raise hm _

/-- Inside the `try` block the decision has been received, so a failed launch ends the program. -/
lemma launchFailed_eq {inTry : Bool} {text : String}
    (ht : inTry = true → s.hostDecisionReceived = true) :
    launchFailed p s inTry text = { s with phase := .failed text } := by
  unfold launchFailed
  split
  · next h => rw [ShimState.raise, if_pos (ht h)]
  · rfl

/-- A call of `LaunchSystem` starts at most one process, and ends the program. -/
lemma coherent_launchSystem {path hash : Utf16} {inTry : Bool} {files : Utf16 → Option Bytes}
    {created : Except String (Except String Int32)} (hl : s.launches = [])
    (hs : Sourced p s.decisions path hash) (ht : inTry = true → s.hostDecisionReceived = true)
    (hm : Maced p s) : Coherent os p (launchSystem os p s path hash inTry files created) := by
  have hone : s.decisions.length ≤ 1 := by
    rcases hs with ⟨h, -⟩ | ⟨r, h, -⟩ <;> rw [h] <;> simp
  unfold launchSystem
  split
  · rw [launchFailed_eq ht]
    exact ⟨Or.inl ⟨hl, hone⟩, hm⟩
  · next sha256 hchecks =>
    split
    · rw [launchFailed_eq ht]
      exact ⟨Or.inl ⟨hl, hone⟩, hm⟩
    · have hstarted : s.launches ++ [{ application := cstr path, sha256 }] =
          [{ application := cstr path, sha256 }] := by
        rw [hl]
        rfl
      split
      · dsimp only
        rw [launchFailed_eq]
        · exact ⟨Or.inr ⟨path, hash, files, sha256, hstarted, hchecks, hs⟩, hm⟩
        · exact ht
      · exact ⟨Or.inr ⟨path, hash, files, sha256, hstarted, hchecks, hs⟩, hm⟩

lemma Maced.request (hm : Maced p s) {challenge : Challenge} {canonical : Bytes}
    (h : canonicalRequest p.facts challenge = .ok canonical) :
    Maced p { s with maced := s.maced ++ [canonical] } := by
  intro m hmem
  rcases List.mem_append.mp hmem with hmem | hmem
  · exact hm m hmem
  · obtain rfl := List.mem_singleton.mp hmem
    exact Or.inl ⟨challenge, h⟩

/-- **Every step keeps the invariant.** -/
theorem coherent_of_step (h : step os p s e = some s') (hi : Coherent os p s) : Coherent os p s' := by
  have hp := hi.phase
  have hm := hi.maced
  unfold PhaseInv at hp
  unfold step at h
  split at h
  · next hphase =>
    rw [hphase] at hp
    split at h
    · cases h
      exact Undecided.fail hp hm _
    · split at h
      · cases h
        exact Undecided.fallback hp hm
      · split at h
        · cases h
          exact Undecided.fail hp hm _
        · split at h <;> cases h
          · exact ⟨hp, hm⟩
          · exact Undecided.fail hp hm _
  · next hphase =>
    rw [hphase] at hp
    cases h
    exact ⟨hp, hm⟩
  · next hphase =>
    rw [hphase] at hp
    cases h
    exact Undecided.fallback hp hm
  · next hphase =>
    rw [hphase] at hp
    cases h
    exact ⟨hp, hm⟩
  · next hphase =>
    rw [hphase] at hp
    cases h
    exact Undecided.fallback hp hm
  · next hphase =>
    rw [hphase] at hp
    cases h
    exact ⟨hp, hm⟩
  · next hphase =>
    -- the challenge is read
    rw [hphase] at hp
    split at h
    · split at h <;> cases h
      · exact Undecided.raise hp hm _
      · exact ⟨hp, hm⟩
    · cases h
  · next hphase =>
    -- the request is built and MACed
    rw [hphase] at hp
    split at h
    · cases h
      exact Undecided.raise hp hm _
    · next canonical hc =>
      have hm' := hm.request hc
      have hu' : Undecided { s with maced := s.maced ++ [canonical] } := hp
      dsimp only at h
      split at h <;> cases h
      · exact hu'.raise hm' _
      · exact ⟨hp, hm'⟩
  · next hphase =>
    rw [hphase] at hp
    cases h
    exact ⟨hp, hm⟩
  · next hphase =>
    -- the response is read
    rw [hphase] at hp
    split at h
    · split at h <;> cases h
      · exact Undecided.raise hp hm _
      · exact Undecided.follow hp hm _ _
    · cases h
  · next challenge response hphase =>
    -- the line is written and the acknowledgement MACed
    rw [hphase] at hp
    cases h
    refine ⟨hp, ?_⟩
    intro m hmem
    rcases List.mem_append.mp hmem with hmem | hmem
    · exact hm m hmem
    · obtain rfl := List.mem_singleton.mp hmem
      exact Or.inr ⟨challenge, response, hp.2.1, hp.2.2.1, rfl⟩
  · next hphase =>
    rw [hphase] at hp
    cases h
    exact ⟨hp, hm⟩
  · next hphase =>
    -- the completion is read
    rw [hphase] at hp
    split at h
    · split at h <;> cases h
      · exact Embedded.raise hp hm _
      · exact ⟨Or.inl ⟨hp.2.2.2, by rw [hp.2.1]; exact le_rfl⟩, hm⟩
    · cases h
  iterate 5
    · next hphase =>
      rw [hphase] at hp
      cases h
      exact Undecided.raise hp hm _
  iterate 3
    · next hphase =>
      rw [hphase] at hp
      cases h
      exact Embedded.raise hp hm _
  · next hphase =>
    rw [hphase] at hp
    cases h
    exact coherent_launchSystem hp.1 hp.2.1 hp.2.2 hm
  · cases h

/-- **The invariant holds in every state that a run reaches.** -/
theorem coherent_of_run {es : List Event} (hrun : Run.run (step os p) start es = some s) :
    Coherent os p s :=
  Run.run_invariant (fun _ _ _ h hi => coherent_of_step h hi) hrun coherent_start

/-- At most one process is started, and what it was started with has a source. -/
lemma Coherent.launched (hi : Coherent os p s) : s.launches = [] ∨
    ∃ path hash files sha256, s.launches = [{ application := cstr path, sha256 }] ∧
      launchChecks os p files path hash = .ok sha256 ∧ Sourced p s.decisions path hash := by
  have hp := hi.phase
  unfold PhaseInv at hp
  split at hp
  · exact Or.inl hp.2.2.2
  · exact Or.inl hp.2.2.2
  · exact Or.inl hp.2.2.2
  · exact Or.inl hp.1
  · exact hp.imp_left And.left
  · exact hp.imp_left And.left
  · exact Or.inl hp.2.2

/-! ### The logs of a step -/

@[simp] lemma raise_decisions (text : String) : (raise p s text).decisions = s.decisions := by
  unfold raise
  split <;> rfl

@[simp] lemma raise_maced (text : String) : (raise p s text).maced = s.maced := by
  unfold raise
  split <;> rfl

lemma launchFailed_logs (inTry : Bool) (text : String) :
    (launchFailed p s inTry text).decisions = s.decisions ∧ (launchFailed p s inTry text).maced = s.maced := by
  unfold launchFailed
  split
  · exact ⟨raise_decisions text, raise_maced text⟩
  · exact ⟨rfl, rfl⟩

/-- A launch reads no decision and MACs nothing. -/
lemma launchSystem_logs (path hash : Utf16) (inTry : Bool) (files : Utf16 → Option Bytes)
    (created : Except String (Except String Int32)) :
    (launchSystem os p s path hash inTry files created).decisions = s.decisions ∧
      (launchSystem os p s path hash inTry files created).maced = s.maced := by
  unfold launchSystem
  split
  · exact launchFailed_logs inTry _
  · split
    · exact launchFailed_logs inTry _
    · split
      · exact launchFailed_logs inTry _
      · exact ⟨rfl, rfl⟩

@[simp] lemma launchSystem_decisions {path hash : Utf16} {inTry : Bool} {files : Utf16 → Option Bytes}
    {created : Except String (Except String Int32)} :
    (launchSystem os p s path hash inTry files created).decisions = s.decisions :=
  (launchSystem_logs path hash inTry files created).1

@[simp] lemma launchSystem_maced {path hash : Utf16} {inTry : Bool} {files : Utf16 → Option Bytes}
    {created : Except String (Except String Int32)} :
    (launchSystem os p s path hash inTry files created).maced = s.maced :=
  (launchSystem_logs path hash inTry files created).2

@[simp] lemma follow_maced (challenge : Challenge) (response : Response) :
    (follow p s challenge response).maced = s.maced := by
  unfold follow
  split
  · rfl
  · rfl
  · rfl
  · exact raise_maced _

/-- The shim never forgets what it MACed. -/
lemma maced_of_step (h : step os p s e = some s') : s.maced ⊆ s'.maced := by
  unfold step at h
  split at h
  case h_8 =>
    split at h
    · cases h
      rw [raise_maced]
      exact List.Subset.refl _
    · dsimp only at h
      split at h <;> cases h
      · rw [raise_maced]
        exact List.subset_append_left _ _
      · exact List.subset_append_left _ _
  all_goals
    repeat' split at h
    all_goals first
      | (cases h; done)
      | (cases h; simp)

end ShimState

end VT7.Shim.Program
