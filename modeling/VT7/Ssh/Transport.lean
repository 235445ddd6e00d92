import VT7.KnownHosts.Policy
import VT7.Ssh.Deadline

/-!
# Starting a connection

`SshNetTransport.StartCoreAsync` as a machine.  A step of the machine is what the code does between
two calls that can take time or fail: the resolver, the loader of the known-host store, the library,
the trust prompt and the writer.  What they return is chosen by the environment.

Callbacks of the library, the watchdog, `CloseAsync` and the cancellation of the caller come between
any two steps.  The library raises `HostKeyReceived` as often as it likes while the client is
subscribed, also behind the end of `ConnectAsync`: a server can ask for another key exchange.
-/

namespace VT7.Ssh

open VT7.Dotnet VT7.Lib VT7.KnownHosts

/-- `TerminalTransportState`. -/
inductive TerminalTransportState where
  | created
  | starting
  | running
  | closing
  | closed
  | failed
  deriving DecidableEq

/-! ### Host keys -/

/-- `HostKeyEventArgs`.  Reading the certificate can fail; `now` is the time at which a certificate
has to be valid. -/
structure HostKeyEvent where
  hostKey : Bytes
  certificate : Except String (Option KnownHostCertificateFacts)
  now : ℕ

/-- `DecideHostKey`. -/
def decideHostKey (P : Platform) (event : HostKeyEvent) (token : Text)
    (snapshot : KnownHostsStoreSnapshot) (fingerprint : Text) (pin : Option KnownHostConnectionPin) :
    Except String KnownHostTrustDecision := do
  let certificate ← event.certificate
  let presented ← PresentedHostKey.parse P event.hostKey
  KnownHostTrustPolicy.decide token presented snapshot fingerprint pin certificate event.now

/-- The decision for a key that could not be read. -/
def invalidKeyDecision (fingerprint : Text) : KnownHostTrustDecision :=
  ⟨⟨.policyRejected, "presented-host-key-invalid", []⟩, fingerprint.length != 0, false, false,
    "presented-key-policy-block"⟩

/-! ### The prompt -/

/-- `HostTrustPromptAction`; the code also meets values outside the enumeration. -/
inductive HostTrustPromptAction where
  | cancel
  | connectOnce
  | trustAndConnect
  | undefined
  deriving DecidableEq

/-- `HostTrustPromptRequest`. -/
structure HostTrustPromptRequest (P : Platform) where
  requestId : ℕ
  transportId : ℕ
  sessionId : ℕ
  transportGeneration : ℕ
  connectionGeneration : ℕ
  promptGeneration : ℕ
  hostToken : Text
  username : Text
  presented : PresentedHostKey P
  fingerprintSupplied : Bool
  fingerprintMatched : Bool
  storeIdentity : Text
  primaryUserPath : Text

/-- `HostTrustPromptResponse`. -/
structure HostTrustPromptResponse where
  requestId : ℕ
  action : HostTrustPromptAction

/-- The pin for the request's key. -/
def HostTrustPromptRequest.pin {P : Platform} (request : HostTrustPromptRequest P) :
    KnownHostConnectionPin :=
  ⟨request.hostToken, request.presented.blob, request.storeIdentity⟩

/-! ### The state -/

/-- What the transport is made with, and what `StartAsync` has noted. -/
structure StartCall where
  host : Text
  port : ℕ
  username : Text
  expectedHostKeyFingerprint : Text
  hasTrustPrompt : Bool
  hasHostKeyProblem : Bool
  transportId : ℕ
  sessionId : ℕ
  generation : ℕ
  phaseTimeout : ℕ

/-- Where `StartCoreAsync` is. -/
inductive StartPc (P : Platform) where
  | entering
  | resolving
  /-- At the top of the loop. -/
  | looping
  | loading
  | preparing
  | constructing
  | identifying
  | connecting
  /-- `ConnectAsync` has returned. -/
  | checking (isConnected isAuthenticated : Bool)
  /-- Behind the `catch` of the attempt. -/
  | recovering (attemptError : StartError)
  | prompting (request : HostTrustPromptRequest P)
  | pinning (request : HostTrustPromptRequest P)
  | saving (request : HostTrustPromptRequest P)
  | reviewing
  | connected
  | opening
  | publishing
  | running
  | failed (error : StartError)

/-- The key that the check behind `ConnectAsync` has seen: the events of the attempt so far, the last
one first, the store and the pin. -/
structure Verified where
  received : List HostKeyEvent
  knownHosts : Option KnownHostsStoreSnapshot
  pin : Option KnownHostConnectionPin

/-- The fields of the transport and the locals of `StartCoreAsync`.  The last four fields are no part
of the program: the events of the attempt, the last one first; what the last check has seen; the
prompts that were shown, with the decisions that they were shown for; and the answers. -/
structure StartState (P : Platform) where
  transport : TerminalTransportState
  closeReason : Bool
  disposed : Bool
  cancelled : Bool
  deadline : SshStartupDeadline
  subscribed : Bool
  knownHosts : Option KnownHostsStoreSnapshot
  knownHostToken : Option Text
  hostKeySeen : Bool
  hostKeyTrusted : Bool
  trustDecision : Option KnownHostTrustDecision
  presentedHostKey : Option (PresentedHostKey P)
  oneConnectionPin : Option KnownHostConnectionPin
  connectionGeneration : ℕ
  promptGeneration : ℕ
  prompted : Bool
  pc : StartPc P
  received : List HostKeyEvent
  verified : Option Verified
  shown : List (HostTrustPromptRequest P × KnownHostTrustDecision)
  answers : List (HostTrustPromptRequest P × HostTrustPromptResponse)

inductive StartEvent where
  /-- `OnHostKeyReceived`. -/
  | hostKeyReceived (event : HostKeyEvent) (now : ℕ)
  /-- `OnServerIdentification`. -/
  | serverIdentification (now : ℕ)
  | watchdog (now : ℕ)
  | cancel
  /-- `CloseAsync` takes the lock. -/
  | close
  | dispose
  /-- The code goes on; `guid` is a new identifier, in case it needs one. -/
  | proceed (now guid : ℕ)
  /-- What the code waits for throws. -/
  | throws
  /-- A known-host store has been loaded. -/
  | loaded (snapshot : KnownHostsStoreSnapshot) (now : ℕ)
  /-- `ConnectAsync` returns. -/
  | connectReturned (isConnected isAuthenticated : Bool)
  /-- The prompt returns; the response can be `null`. -/
  | answered (response : Option HostTrustPromptResponse) (now : ℕ)

/-- The clock as a step of `StartCoreAsync` reads it. -/
def StartEvent.clock : StartEvent → Option ℕ
  | .proceed now _ | .loaded _ now | .answered _ now => some now
  | _ => none

namespace StartState

variable {P : Platform}

/-- `ResetAttemptState`. -/
def resetAttemptState (s : StartState P) : StartState P :=
  { s with hostKeySeen := false, hostKeyTrusted := false, trustDecision := none,
           presentedHostKey := none, received := [] }

/-- `OnHostKeyReceived`. -/
def onHostKeyReceived (s : StartState P) (call : StartCall) (event : HostKeyEvent) (now : ℕ) :
    StartState P :=
  let presented := (PresentedHostKey.parse P event.hostKey).toOption
  let decided :=
    match s.knownHosts, s.knownHostToken with
    | some snapshot, some token =>
      decideHostKey P event token snapshot call.expectedHostKeyFingerprint s.oneConnectionPin
    | _, _ => .error "The known-host snapshot is unavailable."
  let s := { s with hostKeySeen := true, received := event :: s.received,
                    presentedHostKey := if s.knownHosts.isSome ∧ s.knownHostToken.isSome then
                      presented.or s.presentedHostKey else s.presentedHostKey }
  match decided with
  | .error _ =>
    { s with trustDecision := some (invalidKeyDecision call.expectedHostKeyFingerprint),
             hostKeyTrusted := false }
  | .ok decision =>
    let s := { s with trustDecision := some decision, hostKeyTrusted := decision.canTrust }
    if decision.canTrust = true ∧ s.deadline.stopped = false ∧ s.transport = .starting then
      { s with deadline := ((s.deadline.tryAdvance .keyExchange .authentication now).1).observeExpiry now }
    else s

/-- `CanPromptForUnknownHost`. -/
def canPromptForUnknownHost (s : StartState P) (call : StartCall) : Bool :=
  match s.trustDecision with
  | none => false
  | some decision => call.hasTrustPrompt && s.presentedHostKey.isSome &&
      decision.result.state = .unknown &&
      (!decision.fingerprintSupplied || decision.fingerprintMatched)

/-- `CreateTrustPromptRequest`, with the decision it is made from. -/
def createTrustPromptRequest (s : StartState P) (call : StartCall) (guid : ℕ) :
    Option (HostTrustPromptRequest P × KnownHostTrustDecision) :=
  match s.knownHosts, s.knownHostToken, s.presentedHostKey, s.trustDecision with
  | some snapshot, some token, some presented, some decision =>
    match snapshot.sources with
    | [] => none
    | first :: _ =>
      some (⟨guid, call.transportId, call.sessionId, call.generation, s.connectionGeneration,
        s.promptGeneration + 1, token, call.username, presented, decision.fingerprintSupplied,
        decision.fingerprintMatched, snapshot.identity P, first.definition.path⟩, decision)
  | _, _, _, _ => none

/-- `ValidateTrustPromptResponse`: the response, when it is not stale. -/
def validateTrustPromptResponse (s : StartState P) (call : StartCall)
    (request : HostTrustPromptRequest P) (response : Option HostTrustPromptResponse) :
    Except StartError HostTrustPromptResponse :=
  if s.cancelled then .error .cancelled
  else
    match response with
    | none => .error (.transport "stale host-key decision")
    | some response =>
      if s.disposed = true ∨ s.transport ≠ .starting ∨ request.transportId ≠ call.transportId ∨
          request.sessionId ≠ call.sessionId ∨ request.transportGeneration ≠ call.generation ∨
          request.connectionGeneration ≠ s.connectionGeneration ∨
          request.promptGeneration ≠ s.promptGeneration ∨ response.requestId ≠ request.requestId then
        .error (.transport "stale host-key decision")
      else .ok response

/-- The outer `catch`, with `FinishAsync`, and the `finally`. -/
def fail (s : StartState P) (error : StartError) : StartState P :=
  { s with pc := .failed error, subscribed := false, deadline := s.deadline.stop,
           transport := if s.cancelled then .closed else .failed }

/-- The `catch` of an attempt. -/
def attemptFails (s : StartState P) (error : StartError) : StartState P :=
  { s with pc := .recovering error }

/-- An operation of the deadline, and how the code goes on behind it. -/
def behind (s : StartState P) (operation : SshStartupDeadline × Option StartError)
    (onError : StartState P → StartError → StartState P) (next : StartState P → StartState P) :
    StartState P :=
  match operation.2 with
  | some error => onError { s with deadline := operation.1 } error
  | none => next { s with deadline := operation.1 }

/-- `ThrowIfCancellationRequested`. -/
def unlessCancelled (s : StartState P) (onError : StartState P → StartError → StartState P)
    (next : StartState P) : StartState P :=
  if s.cancelled then onError s .cancelled else next

/-- A store has been loaded: for an attempt, or to see whether a pin is still for this store. -/
def storeLoaded (s : StartState P) (snapshot : KnownHostsStoreSnapshot) (now : ℕ) :
    Option (StartState P) :=
  match s.pc with
  | .loading => some <|
    { s with knownHosts := some snapshot }.behind (s.deadline.check now) fail fun s =>
      { s.resetAttemptState with pc := .preparing, connectionGeneration := s.connectionGeneration + 1 }
  | .pinning request => some <| s.behind (s.deadline.check now) fail fun s =>
    if snapshot.identity P ≠ request.storeIdentity then s.fail (.transport "stale host-key decision")
    else { s with pc := .looping, oneConnectionPin := some request.pin, prompted := true }
  | _ => none

/-- Something that the code has called throws. -/
def thrown (s : StartState P) : Option (StartState P) :=
  match s.pc with
  | .resolving | .loading | .prompting _ | .pinning _ | .saving _ | .reviewing | .opening =>
    some (s.fail .other)
  | .constructing | .connecting => some (s.attemptFails .other)
  | _ => none

end StartState

namespace StartCall

variable {P : Platform} (call : StartCall)

open StartState

/-- Behind a failed attempt: the prompt, the review of a changed key, or the end. -/
def recover (s : StartState P) (attemptError : StartError) (now guid : ℕ) : StartState P :=
  s.unlessCancelled fail (s.behind (s.deadline.check now) fail fun s =>
    if s.prompted = false ∧ s.canPromptForUnknownHost call = true then
      match s.createTrustPromptRequest call guid with
      | none => s.fail .other
      | some (request, decision) =>
        { s with promptGeneration := s.promptGeneration + 1 }.behind (s.deadline.pause now) fail
          fun s => { s with pc := .prompting request, subscribed := false,
                            shown := s.shown ++ [(request, decision)] }
    else if call.hasHostKeyProblem = true ∧
        s.trustDecision.map (·.result.state) = some .changed ∧ s.presentedHostKey.isSome = true ∧
        s.knownHosts.isSome = true ∧ s.knownHostToken.isSome = true then
      s.behind (s.deadline.pause now) fail fun s => { s with pc := .reviewing, subscribed := false }
    else s.fail attemptError)

/-- Behind the prompt. -/
def answer (s : StartState P) (request : HostTrustPromptRequest P)
    (response : Option HostTrustPromptResponse) (now : ℕ) : StartState P :=
  match s.validateTrustPromptResponse call request response with
  | .error error => s.fail error
  | .ok response =>
    let s := { s with answers := s.answers ++ [(request, response)] }
    match response.action with
    | .cancel => s.fail (.transport "host-key verification cancelled")
    | .connectOnce =>
      s.behind (s.deadline.enter .knownHosts now) fail fun s => { s with pc := .pinning request }
    | .trustAndConnect =>
      s.behind (s.deadline.enter .trustUpdate now) fail fun s => { s with pc := .saving request }
    | .undefined => s.fail (.transport "host-key decision")

/-- The code goes on. -/
def proceed (s : StartState P) (now guid : ℕ) : Option (StartState P) :=
  match s.pc with
  | .entering => some <| s.unlessCancelled fail <|
    match createHostToken call.host call.port with
    | .error _ => s.fail .other
    | .ok token =>
      { s with knownHostToken := some token }.behind (s.deadline.enter .resolution now) fail
        fun s => { s with pc := .resolving }
  | .resolving => some <| s.behind (s.deadline.check now) fail fun s => { s with pc := .looping }
  | .looping => some <| s.unlessCancelled fail <|
    s.behind (s.deadline.enter .knownHosts now) fail fun s => { s with pc := .loading }
  | .preparing => some <|
    s.behind (s.deadline.enter .credentials now) attemptFails fun s => { s with pc := .constructing }
  | .constructing => some <|
    s.behind (s.deadline.check now) attemptFails fun s =>
      { s with pc := .identifying, subscribed := true }
  | .identifying => some <|
    s.behind (s.deadline.enter .identification now) attemptFails fun s => { s with pc := .connecting }
  | .checking isConnected isAuthenticated => some <|
    s.behind (s.deadline.check now) attemptFails fun s => s.unlessCancelled attemptFails <|
      if s.hostKeySeen = false ∨ s.hostKeyTrusted = false ∨ isConnected = false ∨
          isAuthenticated = false then
        s.attemptFails (.transport (if s.hostKeyTrusted = false then "host-key verification"
          else "authentication"))
      else { s with pc := .connected,
                    verified := some ⟨s.received, s.knownHosts, s.oneConnectionPin⟩ }
  | .recovering attemptError => some (call.recover s attemptError now guid)
  | .saving _ => some <| s.behind (s.deadline.check now) fail fun s =>
      { s with pc := .looping, oneConnectionPin := none, prompted := true }
  | .reviewing => some (s.fail (.transport "changed host key; reconnect after review"))
  | .connected => some <|
    s.behind (s.deadline.enter .pty now) fail fun s => { s with pc := .opening }
  | .opening => some <| s.behind (s.deadline.check now) fail fun s => { s with pc := .publishing }
  | .publishing => some <| s.behind (s.deadline.pause now) fail fun s => s.unlessCancelled fail <|
    if s.closeReason then s.fail .cancelled
    else { s with pc := .running, transport := .running, deadline := s.deadline.stop }
  | _ => none

/-- **A step of `StartCoreAsync`**, or of something around it. -/
def step (s : StartState P) : StartEvent → Option (StartState P)
  | .hostKeyReceived event now =>
    if s.subscribed then some (s.onHostKeyReceived call event now) else none
  | .serverIdentification now =>
    if s.subscribed then
      some { s with deadline := (s.deadline.tryAdvance .identification .keyExchange now).1 }
    else none
  | .watchdog now => some { s with deadline := s.deadline.watch now }
  | .cancel => some { s with cancelled := true, deadline := s.deadline.cancel }
  | .close => some { s with
      closeReason := true
      transport := match s.pc with
        | .failed _ => s.transport
        | _ => .closing }
  | .dispose => some { s with disposed := true }
  | .proceed now guid => call.proceed s now guid
  | .throws => s.thrown
  | .loaded snapshot now => s.storeLoaded snapshot now
  | .connectReturned isConnected isAuthenticated =>
    match s.pc with
    | .connecting => some { s with pc := .checking isConnected isAuthenticated }
    | _ => none
  | .answered response now =>
    match s.pc with
    | .prompting request => some (call.answer s request response now)
    | _ => none

/-- `StartAsync` has started the work. -/
def start (P : Platform) : StartState P where
  transport := .starting
  closeReason := false
  disposed := false
  cancelled := false
  deadline := .create call.phaseTimeout
  subscribed := false
  knownHosts := none
  knownHostToken := none
  hostKeySeen := false
  hostKeyTrusted := false
  trustDecision := none
  presentedHostKey := none
  oneConnectionPin := none
  connectionGeneration := 0
  promptGeneration := 0
  prompted := false
  pc := .entering
  received := []
  verified := none
  shown := []
  answers := []

/-! ### What a step can do -/

/-- The deadline behind a step of the code has not forgotten an expiry. -/
structure Kept (d : SshStartupDeadline) (event : StartEvent) (d' : SshStartupDeadline) : Prop where
  expired : d.expired ≠ none → d'.expired ≠ none
  overdue : ∀ now, event.clock = some now → d.Overdue now → d'.expired ≠ none

/-- The deadline lets the code go on. -/
def Passed (d : SshStartupDeadline) (event : StartEvent) : Prop :=
  ∃ now, event.clock = some now ∧ ¬ d.Overdue now

/-- The start has failed; what it has done so far stays. -/
structure GivesUp (s s' : StartState P) : Prop where
  pc : ∃ error, s'.pc = .failed error
  transport : s'.transport ≠ .running
  subscribed : s'.subscribed = false
  shown : s'.shown = s.shown
  pin : s'.oneConnectionPin = s.oneConnectionPin
  answers : ∀ answer ∈ s.answers, answer ∈ s'.answers

/-- The places inside the `try` of an attempt. -/
def StartPc.isTrying : StartPc P → Bool
  | .preparing | .constructing | .identifying | .connecting | .checking _ _ => true
  | _ => false

/-- What a callback decides, when the store and the token are there. -/
def Decides (s : StartState P) (event : HostKeyEvent) (trusted : Bool)
    (decision : KnownHostTrustDecision) (presented : Option (PresentedHostKey P)) : Prop :=
  ∀ token snapshot, s.knownHostToken = some token → s.knownHosts = some snapshot →
    match decideHostKey P event token snapshot call.expectedHostKeyFingerprint s.oneConnectionPin with
    | .ok decided => trusted = decided.canTrust ∧ decision = decided ∧
        presented = (PresentedHostKey.parse P event.hostKey).toOption
    | .error _ => trusted = false ∧ decision = invalidKeyDecision call.expectedHostKeyFingerprint

/-- The transitions of the machine, one by one. -/
inductive Moves : StartState P → StartEvent → StartState P → Prop
  | hostKeyReceived {s : StartState P} {event now trusted decision presented d}
    (subscribed : s.subscribed = true) (decides : Decides call s event trusted decision presented)
    (kept : s.deadline.expired ≠ none → d.expired ≠ none) :
    Moves s (.hostKeyReceived event now) { s with
      hostKeySeen := true, received := event :: s.received, presentedHostKey := presented,
      trustDecision := some decision, hostKeyTrusted := trusted, deadline := d }
  | serverIdentification {s : StartState P} {now} (subscribed : s.subscribed = true) :
    Moves s (.serverIdentification now)
      { s with deadline := (s.deadline.tryAdvance .identification .keyExchange now).1 }
  | watchdog {s : StartState P} {now} :
    Moves s (.watchdog now) { s with deadline := s.deadline.watch now }
  | cancel {s : StartState P} :
    Moves s .cancel { s with cancelled := true, deadline := s.deadline.cancel }
  | close {s : StartState P} {transport} (not : transport = s.transport ∨ transport = .closing) :
    Moves s .close { s with closeReason := true, transport := transport }
  | dispose {s : StartState P} : Moves s .dispose { s with disposed := true }
  | givesUp {s s' : StartState P} {event} (up : GivesUp s s')
    (here : ∀ error, s.pc ≠ .failed error) (live : s.pc ≠ .running) : Moves s event s'
  | attemptFails {s : StartState P} {event d error} (trying : StartPc.isTrying s.pc = true)
    (kept : Kept s.deadline event d) :
    Moves s event { s with deadline := d, pc := .recovering error }
  | resolve {s : StartState P} {event d token} (pc : s.pc = .entering)
    (created : createHostToken call.host call.port = .ok token) (passed : Passed s.deadline event) :
    Moves s event { s with knownHostToken := some token, deadline := d, pc := .resolving }
  | resolved {s : StartState P} {event d} (pc : s.pc = .resolving) (passed : Passed s.deadline event) :
    Moves s event { s with deadline := d, pc := .looping }
  | loop {s : StartState P} {event d} (pc : s.pc = .looping) (passed : Passed s.deadline event) :
    Moves s event { s with deadline := d, pc := .loading }
  | load {s : StartState P} {event d snapshot} (pc : s.pc = .loading)
    (passed : Passed s.deadline event) :
    Moves s event { s.resetAttemptState with
      knownHosts := some snapshot, deadline := d, pc := .preparing,
      connectionGeneration := s.connectionGeneration + 1 }
  | prepare {s : StartState P} {event d} (pc : s.pc = .preparing) (passed : Passed s.deadline event) :
    Moves s event { s with deadline := d, pc := .constructing }
  | construct {s : StartState P} {event d} (pc : s.pc = .constructing)
    (passed : Passed s.deadline event) :
    Moves s event { s with deadline := d, pc := .identifying, subscribed := true }
  | identify {s : StartState P} {event d} (pc : s.pc = .identifying)
    (passed : Passed s.deadline event) :
    Moves s event { s with deadline := d, pc := .connecting }
  | connectReturned {s : StartState P} {isConnected isAuthenticated} (pc : s.pc = .connecting) :
    Moves s (.connectReturned isConnected isAuthenticated)
      { s with pc := .checking isConnected isAuthenticated }
  | verify {s : StartState P} {event d isConnected isAuthenticated}
    (pc : s.pc = .checking isConnected isAuthenticated) (passed : Passed s.deadline event)
    (seen : s.hostKeySeen = true) (trusted : s.hostKeyTrusted = true) :
    Moves s event { s with
      deadline := d, pc := .connected,
      verified := some ⟨s.received, s.knownHosts, s.oneConnectionPin⟩ }
  | prompt {s : StartState P} {event d attemptError guid request decision}
    (pc : s.pc = .recovering attemptError) (passed : Passed s.deadline event)
    (first : s.prompted = false) (can : s.canPromptForUnknownHost call = true)
    (created : s.createTrustPromptRequest call guid = some (request, decision)) :
    Moves s event { s with
      promptGeneration := s.promptGeneration + 1, deadline := d, pc := .prompting request,
      subscribed := false, shown := s.shown ++ [(request, decision)] }
  | review {s : StartState P} {event d attemptError} (pc : s.pc = .recovering attemptError)
    (passed : Passed s.deadline event) :
    Moves s event { s with deadline := d, pc := .reviewing, subscribed := false }
  | once {s : StartState P} {event d request response} (pc : s.pc = .prompting request)
    (passed : Passed s.deadline event) (action : response.action = .connectOnce)
    (own : response.requestId = request.requestId) :
    Moves s event { s with
      answers := s.answers ++ [(request, response)], deadline := d, pc := .pinning request }
  | save {s : StartState P} {event d request response} (pc : s.pc = .prompting request)
    (passed : Passed s.deadline event) :
    Moves s event { s with
      answers := s.answers ++ [(request, response)], deadline := d, pc := .saving request }
  | pin {s : StartState P} {event d request} (pc : s.pc = .pinning request)
    (passed : Passed s.deadline event) :
    Moves s event { s with
      deadline := d, pc := .looping, oneConnectionPin := some request.pin, prompted := true }
  | saved {s : StartState P} {event d request} (pc : s.pc = .saving request)
    (passed : Passed s.deadline event) :
    Moves s event { s with deadline := d, pc := .looping, oneConnectionPin := none, prompted := true }
  | openShell {s : StartState P} {event d} (pc : s.pc = .connected) (passed : Passed s.deadline event) :
    Moves s event { s with deadline := d, pc := .opening }
  | opened {s : StartState P} {event d} (pc : s.pc = .opening) (passed : Passed s.deadline event) :
    Moves s event { s with deadline := d, pc := .publishing }
  | publish {s : StartState P} {event d} (pc : s.pc = .publishing) (passed : Passed s.deadline event)
    (calm : s.closeReason = false) (live : s.cancelled = false) :
    Moves s event { s with deadline := d, pc := .running, transport := .running }

section Moves

variable {call}

theorem behind_cases (s : StartState P) (operation : SshStartupDeadline × Option StartError)
    (onError : StartState P → StartError → StartState P) (next : StartState P → StartState P) :
    (∃ error, operation = (operation.1, some error) ∧
      s.behind operation onError next = onError { s with deadline := operation.1 } error) ∨
    operation = (operation.1, none) ∧
      s.behind operation onError next = next { s with deadline := operation.1 } := by
  obtain ⟨d, error⟩ := operation
  cases error with
  | some error => exact .inl ⟨error, rfl, rfl⟩
  | none => exact .inr ⟨rfl, rfl⟩

theorem unlessCancelled_cases (s : StartState P)
    (onError : StartState P → StartError → StartState P) (next : StartState P) :
    s.unlessCancelled onError next = onError s .cancelled ∨
      s.cancelled = false ∧ s.unlessCancelled onError next = next := by
  unfold unlessCancelled
  cases s.cancelled with
  | true => exact .inl rfl
  | false => exact .inr ⟨rfl, rfl⟩

/-- `fail` gives up, also behind changes that matter to nobody. -/
theorem givesUp_fail {s t : StartState P} (error : StartError) (hshown : t.shown = s.shown)
    (hpin : t.oneConnectionPin = s.oneConnectionPin)
    (hanswers : ∀ answer ∈ s.answers, answer ∈ t.answers) : GivesUp s (t.fail error) := by
  refine ⟨⟨error, rfl⟩, ?_, rfl, hshown, hpin, hanswers⟩
  unfold fail
  cases t.cancelled with
  | true => simp
  | false => simp

theorem kept_check {d d' : SshStartupDeadline} {event : StartEvent} {now : ℕ}
    {error : Option StartError} (hclock : event.clock = some now) (h : d.check now = (d', error)) :
    Kept d event d' := by
  constructor
  · intro hd
    exact (SshStartupDeadline.check_threw h (SshStartupDeadline.overdue_of_expired hd now)).2
  · intro now' hnow ho
    obtain rfl : now = now' := Option.some.inj (hclock.symm.trans hnow)
    exact (SshStartupDeadline.check_threw h ho).2

theorem kept_enter {d d' : SshStartupDeadline} {phase : SshStartupPhase} {event : StartEvent}
    {now : ℕ} {error : Option StartError} (hclock : event.clock = some now)
    (h : d.enter phase now = (d', error)) : Kept d event d' := by
  constructor
  · intro hd
    exact (SshStartupDeadline.enter_threw h (SshStartupDeadline.overdue_of_expired hd now)).2
  · intro now' hnow ho
    obtain rfl : now = now' := Option.some.inj (hclock.symm.trans hnow)
    exact (SshStartupDeadline.enter_threw h ho).2

theorem passed_check {d d' : SshStartupDeadline} {event : StartEvent} {now : ℕ}
    (hclock : event.clock = some now) (h : d.check now = (d', none)) : Passed d event :=
  ⟨now, hclock, (SshStartupDeadline.check_passed h).1⟩

theorem passed_enter {d d' : SshStartupDeadline} {phase : SshStartupPhase} {event : StartEvent}
    {now : ℕ} (hclock : event.clock = some now) (h : d.enter phase now = (d', none)) :
    Passed d event :=
  ⟨now, hclock, SshStartupDeadline.enter_passed h⟩

theorem passed_pause {d d' : SshStartupDeadline} {event : StartEvent} {now : ℕ}
    (hclock : event.clock = some now) (h : d.pause now = (d', none)) : Passed d event :=
  ⟨now, hclock, SshStartupDeadline.pause_passed h⟩

/-- A step that fails. -/
theorem moves_fail {s t : StartState P} {event : StartEvent} (error : StartError)
    (here : ∀ error, s.pc ≠ .failed error) (live : s.pc ≠ .running) (hshown : t.shown = s.shown)
    (hpin : t.oneConnectionPin = s.oneConnectionPin)
    (hanswers : ∀ answer ∈ s.answers, answer ∈ t.answers) : call.Moves s event (t.fail error) :=
  .givesUp (givesUp_fail error hshown hpin hanswers) here live

/-- A step inside the `try` of an attempt, with an operation of the deadline in front. -/
theorem moves_trying {s : StartState P} {event : StartEvent}
    {operation : SshStartupDeadline × Option StartError} {next : StartState P → StartState P}
    (htrying : StartPc.isTrying s.pc = true) (hkept : Kept s.deadline event operation.1)
    (hnext : operation = (operation.1, none) →
      call.Moves s event (next { s with deadline := operation.1 })) :
    call.Moves s event (s.behind operation attemptFails next) := by
  obtain ⟨error, -, h⟩ | ⟨hpassed, h⟩ := behind_cases s operation attemptFails next
  · rw [h]
    exact .attemptFails htrying hkept
  · rw [h]
    exact hnext hpassed

/-- A step outside of it. -/
theorem moves_behind {s t : StartState P} {event : StartEvent}
    {operation : SshStartupDeadline × Option StartError} {next : StartState P → StartState P}
    (here : ∀ error, s.pc ≠ .failed error) (live : s.pc ≠ .running) (hshown : t.shown = s.shown)
    (hpin : t.oneConnectionPin = s.oneConnectionPin)
    (hanswers : ∀ answer ∈ s.answers, answer ∈ t.answers)
    (hnext : operation = (operation.1, none) →
      call.Moves s event (next { t with deadline := operation.1 })) :
    call.Moves s event (t.behind operation fail next) := by
  obtain ⟨error, -, h⟩ | ⟨hpassed, h⟩ := behind_cases t operation fail next
  · rw [h]
    exact moves_fail error here live hshown hpin hanswers
  · rw [h]
    exact hnext hpassed

theorem moves_of_recover {s : StartState P} {attemptError : StartError} {event : StartEvent}
    {now : ℕ} (hpc : s.pc = .recovering attemptError) (hclock : event.clock = some now) (guid : ℕ) :
    call.Moves s event (call.recover s attemptError now guid) := by
  have here : ∀ error, s.pc ≠ .failed error := by simp [hpc]
  have live : s.pc ≠ .running := by simp [hpc]
  unfold recover
  obtain h | ⟨-, h⟩ := unlessCancelled_cases s fail (s.behind (s.deadline.check now) fail _) <;> rw [h]
  · exact moves_fail _ here live rfl rfl fun _ h => h
  obtain ⟨error, -, h⟩ | ⟨hpassed, h⟩ := behind_cases s (s.deadline.check now) fail _ <;> rw [h]
  · exact moves_fail _ here live rfl rfl fun _ h => h
  have hpassed := passed_check hclock hpassed
  split
  · next hprompt =>
    split
    · exact moves_fail _ here live rfl rfl fun _ h => h
    · next request decision hrequest =>
      exact moves_behind here live rfl rfl (fun _ h => h) fun _ =>
        .prompt hpc hpassed hprompt.1 hprompt.2 hrequest
  · split
    · exact moves_behind here live rfl rfl (fun _ h => h) fun _ => .review hpc hpassed
    · exact moves_fail _ here live rfl rfl fun _ h => h

theorem moves_of_answer {s : StartState P} {request : HostTrustPromptRequest P} {event : StartEvent}
    {now : ℕ} (hpc : s.pc = .prompting request) (hclock : event.clock = some now)
    (response : Option HostTrustPromptResponse) :
    call.Moves s event (call.answer s request response now) := by
  have here : ∀ error, s.pc ≠ .failed error := by simp [hpc]
  have live : s.pc ≠ .running := by simp [hpc]
  unfold answer
  cases hvalid : s.validateTrustPromptResponse call request response with
  | error error => exact moves_fail _ here live rfl rfl fun _ h => h
  | ok response' =>
    have hown : response'.requestId = request.requestId := by
      unfold validateTrustPromptResponse at hvalid
      cases response with
      | none => split_ifs at hvalid
      | some response =>
        simp only at hvalid
        split_ifs at hvalid with hcancelled hstale
        obtain rfl : response = response' := by simpa using hvalid
        by_contra hother
        simp [hother] at hstale
    simp only
    cases haction : response'.action with
    | cancel | undefined => exact moves_fail _ here live rfl rfl fun _ h => List.mem_append_left _ h
    | connectOnce =>
      exact moves_behind here live rfl rfl (fun _ h => List.mem_append_left _ h) fun hpassed =>
        .once hpc (passed_enter hclock hpassed) haction hown
    | trustAndConnect =>
      exact moves_behind here live rfl rfl (fun _ h => List.mem_append_left _ h) fun hpassed =>
        .save hpc (passed_enter hclock hpassed)

theorem moves_of_proceed {s s' : StartState P} {now guid : ℕ}
    (h : call.proceed s now guid = some s') : call.Moves s (.proceed now guid) s' := by
  unfold proceed at h
  cases hpc : s.pc with
  | entering =>
    simp only [hpc, Option.some.injEq] at h
    subst h
    obtain h | ⟨-, h⟩ := unlessCancelled_cases s fail _ <;> rw [h]
    · exact moves_fail _ (by simp [hpc]) (by simp [hpc]) rfl rfl fun _ h => h
    cases htoken : createHostToken call.host call.port with
    | error message => exact moves_fail _ (by simp [hpc]) (by simp [hpc]) rfl rfl fun _ h => h
    | ok token =>
      exact moves_behind (by simp [hpc]) (by simp [hpc]) rfl rfl (fun _ h => h) fun hpassed =>
        .resolve hpc htoken (passed_enter rfl hpassed)
  | resolving =>
    simp only [hpc, Option.some.injEq] at h
    subst h
    exact moves_behind (by simp [hpc]) (by simp [hpc]) rfl rfl (fun _ h => h) fun hpassed =>
      .resolved hpc (passed_check rfl hpassed)
  | looping =>
    simp only [hpc, Option.some.injEq] at h
    subst h
    obtain h | ⟨-, h⟩ := unlessCancelled_cases s fail _ <;> rw [h]
    · exact moves_fail _ (by simp [hpc]) (by simp [hpc]) rfl rfl fun _ h => h
    · exact moves_behind (by simp [hpc]) (by simp [hpc]) rfl rfl (fun _ h => h) fun hpassed =>
        .loop hpc (passed_enter rfl hpassed)
  | preparing =>
    simp only [hpc, Option.some.injEq] at h
    subst h
    exact moves_trying (by simp [hpc, StartPc.isTrying]) (kept_enter rfl rfl) fun hpassed =>
      .prepare hpc (passed_enter rfl hpassed)
  | constructing =>
    simp only [hpc, Option.some.injEq] at h
    subst h
    exact moves_trying (by simp [hpc, StartPc.isTrying]) (kept_check rfl rfl) fun hpassed =>
      .construct hpc (passed_check rfl hpassed)
  | identifying =>
    simp only [hpc, Option.some.injEq] at h
    subst h
    exact moves_trying (by simp [hpc, StartPc.isTrying]) (kept_enter rfl rfl) fun hpassed =>
      .identify hpc (passed_enter rfl hpassed)
  | checking isConnected isAuthenticated =>
    simp only [hpc, Option.some.injEq] at h
    subst h
    have htrying : StartPc.isTrying s.pc = true := by simp [hpc, StartPc.isTrying]
    refine moves_trying htrying (kept_check rfl rfl) fun hpassed => ?_
    have hkept : Kept s.deadline (.proceed now guid) (s.deadline.check now).1 := kept_check rfl hpassed
    obtain h | ⟨-, h⟩ := unlessCancelled_cases
      { s with deadline := (s.deadline.check now).1 } attemptFails _ <;> rw [h]
    · exact .attemptFails htrying hkept
    split
    · exact .attemptFails htrying hkept
    · next hbad =>
      simp only [not_or, Bool.not_eq_false] at hbad
      exact .verify hpc (passed_check rfl hpassed) hbad.1 hbad.2.1
  | recovering attemptError =>
    simp only [hpc, Option.some.injEq] at h
    subst h
    exact moves_of_recover hpc rfl guid
  | saving request =>
    simp only [hpc, Option.some.injEq] at h
    subst h
    exact moves_behind (by simp [hpc]) (by simp [hpc]) rfl rfl (fun _ h => h) fun hpassed =>
      .saved hpc (passed_check rfl hpassed)
  | reviewing =>
    simp only [hpc, Option.some.injEq] at h
    subst h
    exact moves_fail _ (by simp [hpc]) (by simp [hpc]) rfl rfl fun _ h => h
  | connected =>
    simp only [hpc, Option.some.injEq] at h
    subst h
    exact moves_behind (by simp [hpc]) (by simp [hpc]) rfl rfl (fun _ h => h) fun hpassed =>
      .openShell hpc (passed_enter rfl hpassed)
  | opening =>
    simp only [hpc, Option.some.injEq] at h
    subst h
    exact moves_behind (by simp [hpc]) (by simp [hpc]) rfl rfl (fun _ h => h) fun hpassed =>
      .opened hpc (passed_check rfl hpassed)
  | publishing =>
    simp only [hpc, Option.some.injEq] at h
    subst h
    refine moves_behind (by simp [hpc]) (by simp [hpc]) rfl rfl (fun _ h => h) fun hpassed => ?_
    obtain h | ⟨hlive, h⟩ := unlessCancelled_cases
      { s with deadline := (s.deadline.pause now).1 } fail _ <;> rw [h]
    · exact moves_fail _ (by simp [hpc]) (by simp [hpc]) rfl rfl fun _ h => h
    split_ifs with hclosed
    · exact moves_fail _ (by simp [hpc]) (by simp [hpc]) rfl rfl fun _ h => h
    · exact .publish hpc (passed_pause rfl hpassed) (by simpa using hclosed) hlive
  | _ => simp [hpc] at h

theorem moves_of_storeLoaded {s s' : StartState P} {snapshot : KnownHostsStoreSnapshot} {now : ℕ}
    (h : s.storeLoaded snapshot now = some s') : call.Moves s (.loaded snapshot now) s' := by
  unfold storeLoaded at h
  cases hpc : s.pc with
  | loading =>
    simp only [hpc, Option.some.injEq] at h
    subst h
    exact moves_behind (by simp [hpc]) (by simp [hpc]) rfl rfl (fun _ h => h) fun hpassed =>
      .load hpc (passed_check rfl hpassed)
  | pinning request =>
    simp only [hpc, Option.some.injEq] at h
    subst h
    refine moves_behind (by simp [hpc]) (by simp [hpc]) rfl rfl (fun _ h => h) fun hpassed => ?_
    split_ifs
    · exact moves_fail _ (by simp [hpc]) (by simp [hpc]) rfl rfl fun _ h => h
    · exact .pin hpc (passed_check rfl hpassed)
  | _ => simp [hpc] at h

theorem moves_of_thrown {s s' : StartState P} (h : s.thrown = some s') :
    call.Moves s .throws s' := by
  have hsame : Kept s.deadline .throws s.deadline := ⟨id, fun _ h => by cases h⟩
  unfold thrown at h
  cases hpc : s.pc with
  | constructing | connecting =>
    simp only [hpc, Option.some.injEq] at h
    subst h
    exact .attemptFails (by simp [hpc, StartPc.isTrying]) hsame
  | resolving | loading | prompting | pinning | saving | reviewing | opening =>
    simp only [hpc, Option.some.injEq] at h
    subst h
    exact moves_fail _ (by simp [hpc]) (by simp [hpc]) rfl rfl fun _ h => h
  | _ => simp [hpc] at h

theorem parse_of_decideHostKey {event : HostKeyEvent} {token : Text}
    {snapshot : KnownHostsStoreSnapshot} {fingerprint : Text} {pin : Option KnownHostConnectionPin}
    {decision : KnownHostTrustDecision}
    (h : decideHostKey P event token snapshot fingerprint pin = .ok decision) :
    ∃ certificate presented, event.certificate = .ok certificate ∧
      PresentedHostKey.parse P event.hostKey = .ok presented ∧
      KnownHostTrustPolicy.decide token presented snapshot fingerprint pin certificate event.now =
        .ok decision := by
  unfold decideHostKey at h
  cases hcertificate : event.certificate with
  | error message => rw [hcertificate] at h; cases h
  | ok certificate =>
    cases hparse : PresentedHostKey.parse P event.hostKey with
    | error message => rw [hcertificate, hparse] at h; cases h
    | ok presented =>
      rw [hcertificate, hparse] at h
      exact ⟨certificate, presented, rfl, rfl, h⟩

theorem moves_of_hostKeyReceived {s : StartState P} (event : HostKeyEvent) (now : ℕ)
    (hsubscribed : s.subscribed = true) :
    call.Moves s (.hostKeyReceived event now) (s.onHostKeyReceived call event now) := by
  have hadvanced := fun h =>
    SshStartupDeadline.tryAdvance_expired (d := s.deadline) .keyExchange .authentication h now
  have hobserved : s.deadline.expired ≠ none →
      ((s.deadline.tryAdvance .keyExchange .authentication now).1.observeExpiry now).expired ≠ none := by
    intro h
    rw [SshStartupDeadline.observeExpiry_expired (hadvanced h)]
    exact hadvanced h
  unfold onHostKeyReceived
  simp only
  split
  · next message hdecided =>
    refine .hostKeyReceived hsubscribed (fun token snapshot htoken hsnapshot => ?_) id
    simp only [htoken, hsnapshot] at hdecided
    rw [hdecided]
    exact ⟨rfl, rfl⟩
  · next decision hdecided =>
    have hdecides : Decides call s event decision.canTrust decision
        (if s.knownHosts.isSome = true ∧ s.knownHostToken.isSome = true then
          (PresentedHostKey.parse P event.hostKey).toOption.or s.presentedHostKey
        else s.presentedHostKey) := by
      intro token snapshot htoken hsnapshot
      simp only [htoken, hsnapshot] at hdecided
      obtain ⟨_, presented, -, hparse, -⟩ := parse_of_decideHostKey hdecided
      rw [hdecided, htoken, hsnapshot, if_pos ⟨rfl, rfl⟩, hparse]
      exact ⟨rfl, rfl, rfl⟩
    by_cases hlive : decision.canTrust = true ∧ s.deadline.stopped = false ∧ s.transport = .starting
    · rw [if_pos hlive]
      exact .hostKeyReceived hsubscribed hdecides hobserved
    · rw [if_neg hlive]
      exact .hostKeyReceived hsubscribed hdecides id

/-- **Every step is one of the transitions.** -/
theorem moves_of_step {s s' : StartState P} {event : StartEvent} (h : call.step s event = some s') :
    call.Moves s event s' := by
  cases event with
  | hostKeyReceived event now =>
    simp only [step] at h
    split_ifs at h with hsubscribed
    cases h
    exact moves_of_hostKeyReceived event now hsubscribed
  | serverIdentification now =>
    simp only [step] at h
    split_ifs at h with hsubscribed
    cases h
    exact .serverIdentification hsubscribed
  | watchdog now =>
    cases h
    exact .watchdog
  | cancel =>
    cases h
    exact .cancel
  | close =>
    cases h
    refine .close ?_
    split
    · exact .inl rfl
    · exact .inr rfl
  | dispose =>
    cases h
    exact .dispose
  | proceed now guid => exact moves_of_proceed h
  | throws => exact moves_of_thrown h
  | loaded snapshot now => exact moves_of_storeLoaded h
  | connectReturned isConnected isAuthenticated =>
    simp only [step] at h
    cases hpc : s.pc with
    | connecting =>
      simp only [hpc, Option.some.injEq] at h
      subst h
      exact .connectReturned hpc
    | _ => simp [hpc] at h
  | answered response now =>
    simp only [step] at h
    cases hpc : s.pc with
    | prompting request =>
      simp only [hpc, Option.some.injEq] at h
      subst h
      exact moves_of_answer hpc rfl response
    | _ => simp [hpc] at h

end Moves

end StartCall

end VT7.Ssh
