import VT7.Session.Gating

/-!
# Embedded requests on a session

The `SshOverlayCoordinator` runs an overlay over the root of its session for every request the broker
has accepted.  The request is one flow through three components: `RunRequestAsync` of the broker calls
`HandleEmbeddedAsync`, which prompts, starts the overlay, awaits its end and stops it, and then writes
the completion frame and calls `ResumeRootAfterCompleteAsync`.  The flow is split at its awaits; a call
of the session it awaits is one of the session's frames, so `Next` says whether it has ended.

The broker serves one request at a time.  The owner of the session starts it, attaches the coordinator,
closes the session and disposes it behind the close; the overlay operations are the coordinator's
alone.  `priorOutbound`, `priorQueues` and `began` are the record of a request; no step reads them.
-/

namespace VT7.Session

open VT7.Lib

/-- Where an accepted request stands. -/
inductive RequestPosition
  /-- The broker reads the acknowledgement and awaits the barrier. -/
  | barrier
  /-- `HandleEmbeddedAsync` awaits its gate. -/
  | gate
  /-- Awaiting `_sessionReady`. -/
  | ready
  | prompt
  /-- The prompt was cancelled: in `AppendHostLineAsync`. -/
  | cancelledLine (next : Next)
  /-- In `StartOverlayAsync`. -/
  | starting (next : Next)
  /-- Awaiting the overlay's `Completion`. -/
  | completion
  /-- In `StopOverlayAsync`. -/
  | stopping (status : ℤ) (next : Next)
  /-- The overlay has ended: in `AppendHostLineAsync`. -/
  | endedLine (status : ℤ) (next : Next)
  /-- The handler, in `StopOverlayAsync`. -/
  | recovering (next : Next)
  /-- The handler, in `AppendHostLineAsync`. -/
  | failedLine (next : Next)
  /-- The broker writes the completion frame. -/
  | complete (status : ℤ)
  | finished (threw : Bool)
  deriving DecidableEq

structure Request where
  position : RequestPosition
  /-- The session's queue when the request was accepted. -/
  priorOutbound : Option ℕ
  /-- The queues there were when the request was accepted. -/
  priorQueues : ℕ
  /-- `StartOverlayAsync` has taken the session. -/
  began : Bool
  deriving DecidableEq

/-- The request is finished. -/
def Request.done (r : Request) : Bool :=
  match r.position with
  | .finished _ => true
  | _ => false

/-- How an await of a request ends. -/
inductive RequestAnswer
  | await (answer : Answer)
  /-- The operation of the session that is awaited has ended. -/
  | goesOn
  /-- The prompt returns; with options an overlay transport is made of them. -/
  | prompted (overlay : Option ℕ)
  /-- The overlay's `Completion`. -/
  | completed (kind : TerminalTransportResultKind) (exitCode : Option ℤ)
  deriving DecidableEq

/-- The status of a request whose overlay has ended. -/
def exitStatus (kind : TerminalTransportResultKind) (exitCode : Option ℤ) : ℤ :=
  if kind = .cleanEof ∨ kind = .reportedExit ∧ exitCode.getD 0 = 0 then 0 else 255

structure HostState where
  session : TerminalSession
  /-- The operations of the session its owner has called. -/
  frames : List Frame
  /-- `_sessionReady` is set. -/
  attached : Bool
  /-- The coordinator's `_disposed`. -/
  disposed : Bool
  /-- The coordinator's `_overlay`. -/
  overlay : Option ℕ
  request : Option Request
  deriving DecidableEq

inductive HostEvent
  /-- The session and its owner. -/
  | session (event : SessionEvent)
  | attach
  /-- `Dispose` of the coordinator. -/
  | dispose
  /-- The broker accepts an embedded request. -/
  | accept
  | request (answer : RequestAnswer)
  deriving DecidableEq

namespace HostState

/-- A new session and its coordinator. -/
def start : HostState where
  session := .create
  frames := []
  attached := false
  disposed := false
  overlay := none
  request := none

/-- The request goes on to another position. -/
def goTo (s : HostState) (r : Request) (position : RequestPosition) : HostState :=
  { s with request := some { r with position := position } }

/-- The request is in an operation of the session. -/
def inSession (s : HostState) (r : Request) (position : Next → RequestPosition)
    (result : TerminalSession × Next) : HostState :=
  { s with session := result.1, request := some { r with position := position result.2 } }

/-- An await of the operation of the session ends. -/
def resume (s : HostState) (r : Request) (position : Next → RequestPosition) (frame : Frame)
    (answer : Answer) : Option HostState :=
  (s.session.resume frame answer).map fun result => s.inSession r position result

/-- `HandleEmbeddedAsync` returns; the broker checks its status. -/
def handled (s : HostState) (r : Request) (status : ℤ) : HostState :=
  s.goTo r (if status ≠ 0 ∧ status ≠ 255 then .finished true else .complete status)

/-- The inner `finally` of `HandleEmbeddedAsync`. -/
def released (s : HostState) : HostState := { s with overlay := none }

/-- `HandleEmbeddedAsync` with a new overlay. -/
def startOverlay (s : HostState) (r : Request) (overlay : ℕ) : HostState :=
  let result := s.session.startOverlayAsync overlay false
  { s with
    overlay := some overlay
    session := result.1
    request := some
      { r with
        position := .starting result.2
        began := r.began || s.session.state = .runningRoot } }

/-- Behind the overlay's `Completion`. -/
def overlayEnded (s : HostState) (r : Request) (status : ℤ) : HostState :=
  if s.session.state = .runningOverlay then
    s.inSession r (.stopping status) (s.session.stopOverlayAsync false)
  else s.inSession r (.endedLine status) s.session.appendHostLineAsync

/-- The handler's line. -/
def failLine (s : HostState) (r : Request) : HostState :=
  s.inSession r .failedLine s.session.appendHostLineAsync

/-- The handler of `HandleEmbeddedAsync`. -/
def recover (s : HostState) (r : Request) : HostState :=
  if s.session.state = .runningOverlay then
    s.inSession r .recovering (s.session.stopOverlayAsync false)
  else s.failLine r

/-- `ResumeRootAfterCompleteAsync`, and the end of the request. -/
def resumeRootAfterComplete (s : HostState) (r : Request) (threw : Bool) : HostState :=
  if s.session.state = .stoppingOverlay then
    s.inSession r (fun next => .finished (threw || next = .threw)) s.session.resumeRootAsync
  else s.goTo r (.finished threw)

/-- A request goes on. -/
def requestStep (s : HostState) (r : Request) (answer : RequestAnswer) : Option HostState :=
  match r.position, answer with
  | .barrier, .await .returned => some (s.goTo r .gate)
  | .barrier, .await .threw => some (s.goTo r (.finished true))
  | .gate, .await .returned =>
    if s.disposed then some (s.handled r 255) else some (s.goTo r .ready)
  | .ready, .await .returned => some (s.goTo r .prompt)
  | .prompt, .prompted none => some (s.inSession r .cancelledLine s.session.appendHostLineAsync)
  | .prompt, .prompted (some overlay) => some (s.startOverlay r overlay)
  | .prompt, .await .threw => some (s.goTo r (.finished true))
  | .cancelledLine (.awaits frame), .await answer => s.resume r .cancelledLine frame answer
  | .cancelledLine .returned, .goesOn => some (s.handled r 255)
  | .cancelledLine .threw, .goesOn => some (s.goTo r (.finished true))
  | .starting (.awaits frame), .await answer => s.resume r .starting frame answer
  | .starting .returned, .goesOn => some (s.goTo r .completion)
  | .starting .threw, .goesOn => some (s.recover r)
  | .completion, .completed kind exitCode => some (s.overlayEnded r (exitStatus kind exitCode))
  | .stopping status (.awaits frame), .await answer => s.resume r (.stopping status) frame answer
  | .stopping status .returned, .goesOn =>
    some (s.inSession r (.endedLine status) s.session.appendHostLineAsync)
  | .stopping _ .threw, .goesOn => some (s.recover r)
  | .endedLine status (.awaits frame), .await answer => s.resume r (.endedLine status) frame answer
  | .endedLine status .returned, .goesOn => some (s.released.handled r status)
  | .endedLine _ .threw, .goesOn => some (s.recover r)
  | .recovering (.awaits frame), .await answer => s.resume r .recovering frame answer
  | .recovering .returned, .goesOn | .recovering .threw, .goesOn => some (s.failLine r)
  | .failedLine (.awaits frame), .await answer => s.resume r .failedLine frame answer
  | .failedLine .returned, .goesOn | .failedLine .threw, .goesOn =>
    some (s.released.handled r 255)
  -- root input reopens also when the frame cannot be written
  | .complete _, .await .returned => some (s.resumeRootAfterComplete r false)
  | .complete _, .await .threw => some (s.resumeRootAfterComplete r true)
  | _, _ => none

/-- What the owner does with the session: no overlay operations, and `Dispose` behind `CloseAsync`. -/
def ownerMay (s : HostState) : SessionEvent → Bool
  | .call (.startOverlayAsync _ _) | .call (.stopOverlayAsync _) | .call .resumeRootAsync => false
  | .call .dispose => s.session.closeTask.isSome
  | _ => true

/-- **A step of the host.** -/
def step (s : HostState) : HostEvent → Option HostState
  | .session event =>
    if s.ownerMay event then
      (SessionState.step ⟨s.session, s.frames⟩ event).map fun t =>
        { s with session := t.session, frames := t.frames }
    else none
  | .attach =>
    -- the owner attaches behind its `StartAsync`
    if s.attached = false ∧ s.session.rootMonitor.isSome = true ∧ s.session.rootGeneration = 1 then
      some { s with attached := true }
    else none
  | .dispose => some { s with disposed := true }
  | .accept =>
    if s.attached = true ∧ s.request.all Request.done = true then
      some
        { s with
          request := some
            { position := .barrier
              priorOutbound := s.session.outbound
              priorQueues := s.session.queues.length
              began := false } }
    else none
  | .request answer => s.request.bind fun r => s.requestStep r answer

end HostState

end VT7.Session
