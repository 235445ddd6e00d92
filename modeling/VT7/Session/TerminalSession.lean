import VT7.Session.Outbound

/-!
# The terminal session

A `TerminalSession` owns a root transport, at most one overlay over it and the outbound queue that
takes the user's input.  Its operations are asynchronous: each is split here at its awaits, and what
it does between two of them is one step.  An operation that has not returned is a `Frame`, the await
it stands at with its local variables; the close task and the root monitor, of which there is one
each, are fields of the session as they are in the source.

How an await ends is an argument of the step (`Answer`): the transports, the dispatcher and the output
pump may answer in any way, at any time.  A `Completion` task has a result.  The one subscriber of
`ActiveOutboundChanged` posts to the dispatcher and returns, so the event is no step of its own.

A queue is the machine of `VT7.Session.OutboundState` with its sink.  `moves` and `writes` are the
record of the run; no step reads them.
-/

namespace VT7.Session

open VT7.Lib

inductive TerminalSessionState
  | created
  | startingRoot
  | runningRoot
  | startingOverlay
  | runningOverlay
  | stoppingOverlay
  | closing
  | closed
  | failed
  deriving DecidableEq

inductive TerminalTransportResultKind
  | cleanEof
  | reportedExit
  | connectionFailure
  | cancelled
  | forcedTermination
  deriving DecidableEq

/-- A transport of the session; a number tells the overlay objects apart. -/
inductive Transport
  | root
  | overlay (object : ℕ)
  deriving DecidableEq

/-! ### The sinks of the outbound queues -/

/-- An `ISessionOutboundSink` the session gives to a queue. -/
inductive OutboundSink
  /-- The root transport. -/
  | root
  /-- `OverlayOutboundSink`. -/
  | overlay (object : ℕ)
  deriving DecidableEq

/-- A call of a transport's `WriteAsync`. -/
structure TransportWrite where
  transport : Transport
  operation : SessionOutboundOperation
  deriving DecidableEq

/-- `WriteAsync` of the sink: the writes it makes, one after the other. -/
def OutboundSink.writeAsync (operation : SessionOutboundOperation) :
    OutboundSink → List TransportWrite
  | .root => [⟨.root, operation⟩]
  | .overlay object =>
    (if operation.kind = .resize then [⟨.root, operation⟩] else []) ++
      [⟨.overlay object, operation⟩]

/-- A queue of the session. -/
structure SessionQueue where
  outbound : OutboundState
  sink : OutboundSink
  /-- The writes of the sink's current `WriteAsync` that are not made yet. -/
  remaining : List TransportWrite
  /-- The writes the sink has made. -/
  writes : List TransportWrite
  deriving DecidableEq

namespace SessionQueue

/-- The default capacity of a queue. -/
def defaultCapacity : ℕ := 256

/-- The constructor. -/
def create (generation : ℤ) (sink : OutboundSink) : SessionQueue where
  outbound := .start generation defaultCapacity
  sink := sink
  remaining := []
  writes := []

def generation (q : SessionQueue) : ℤ := q.outbound.queue.generation

/-- `TryEnqueue` does not find the queue closed. -/
def accepts (q : SessionQueue) : Bool :=
  !q.outbound.queue.disposed && q.outbound.queue.accepting

def completeAsync (q : SessionQueue) : SessionQueue :=
  { q with outbound := { q.outbound with queue := q.outbound.queue.completeAsync } }

def dispose (q : SessionQueue) : SessionQueue :=
  { q with outbound := { q.outbound with queue := q.outbound.queue.dispose } }

/-- The operation the worker is about to hand to the sink. -/
def sinkCall (q : SessionQueue) : List TransportWrite :=
  q.outbound.worker.held.flatMap fun operation => q.sink.writeAsync operation

/-- A call of `TryEnqueue` or a step of the worker.  The sink's `WriteAsync` returns when all of its
writes are made. -/
def step (q : SessionQueue) (e : OutboundEvent) : Option SessionQueue :=
  match e with
  | .completeAsync | .dispose => none
  | .write =>
    (q.outbound.step .write).map fun outbound =>
      { q with outbound := outbound, remaining := q.sinkCall }
  | .written =>
    if q.remaining = [] then (q.outbound.step .written).map fun outbound =>
      { q with outbound := outbound }
    else none
  | e => (q.outbound.step e).map fun outbound => { q with outbound := outbound }

/-- The sink writes to the next transport. -/
def write (q : SessionQueue) : Option SessionQueue :=
  match q.outbound.worker, q.remaining with
  | .writing, next :: rest => some { q with remaining := rest, writes := q.writes ++ [next] }
  | _, _ => none

end SessionQueue

/-! ### The session -/

/-- How an await ends. -/
inductive Answer
  | returned
  | threw
  /-- The result of a `Completion` task. -/
  | result (kind : TerminalTransportResultKind)
  deriving DecidableEq

/-- Where `CloseCoreAsync` stands. -/
inductive CloseTask
  /-- Before `_lifetime.Cancel`, which may run other operations. -/
  | cancel (outbound overlay : Option ℕ)
  /-- Awaiting the queue that is retired. -/
  | retire (outbound : ℕ) (overlay : Option ℕ)
  | overlayClose
  | overlayCompletion
  | rootClose
  | rootCompletion
  /-- Awaiting `CompleteAsync` of the output pump. -/
  | output (result : TerminalTransportResultKind)
  | returned
  | faulted
  deriving DecidableEq

/-- `CloseCoreAsync` is under way. -/
def CloseTask.pending : CloseTask → Bool
  | .returned | .faulted => false
  | _ => true

/-- Where `MonitorRootAsync` stands. -/
inductive RootMonitor
  | completion
  | close
  | returned
  deriving DecidableEq

/-- An operation at one of its awaits. -/
inductive Frame
  /-- `StartAsync` awaits `CreateStartContextAsync`. -/
  | startContext (generation : ℤ)
  /-- `StartAsync` awaits the root's `StartAsync`. -/
  | startRoot (generation : ℤ)
  /-- `StartOverlayAsync` awaits the queue of the root. -/
  | overlayPrior (prior overlay : ℕ) (resumeRootOnFailure : Bool)
  | overlayContext (generation : ℤ) (overlay : ℕ) (resumeRootOnFailure : Bool)
  | overlayStart (generation : ℤ) (overlay : ℕ) (resumeRootOnFailure : Bool)
  /-- The handler of `StartOverlayAsync` awaits the overlay's `CloseAsync`. -/
  | overlayFailed (overlay : ℕ) (resumeRootOnFailure : Bool)
  /-- `StopOverlayAsync` awaits the queue of the overlay. -/
  | stopRetire (outbound overlay : Option ℕ) (resumeRoot : Bool)
  | stopClose (resumeRoot : Bool)
  | stopCompletion (resumeRoot : Bool)
  /-- `AppendHostLineAsync` awaits the output pump. -/
  | hostLine
  deriving DecidableEq

/-- How a step of an operation ends. -/
inductive Next
  | awaits (frame : Frame)
  | returned
  | threw
  deriving DecidableEq

/-- The operation, when it is still under way. -/
def Next.frames : Next → List Frame
  | .awaits frame => [frame]
  | .returned | .threw => []

/-- The fields of a `TerminalSession`.  A queue is its place in `queues`.  `_activeGeneration` counts
without a bound: a process does not make `long.MaxValue` calls. -/
structure TerminalSession where
  state : TerminalSessionState
  /-- `_lifetime` is cancelled. -/
  cancelled : Bool
  disposed : Bool
  overlay : Option ℕ
  startingOverlay : Option ℕ
  outbound : Option ℕ
  /-- Every queue that was created, the oldest first. -/
  queues : List SessionQueue
  activeGeneration : ℤ
  rootGeneration : ℤ
  closeTask : Option CloseTask
  rootMonitor : Option RootMonitor
  completion : Option TerminalTransportResultKind
  /-- The assignments to `State`, each with the state before it. -/
  moves : List (TerminalSessionState × TerminalSessionState)
  deriving DecidableEq

namespace TerminalSession

/-- The constructor. -/
def create : TerminalSession where
  state := .created
  cancelled := false
  disposed := false
  overlay := none
  startingOverlay := none
  outbound := none
  queues := []
  activeGeneration := 0
  rootGeneration := 0
  closeTask := none
  rootMonitor := none
  completion := none
  moves := []

/-- An assignment to `State`. -/
def setState (s : TerminalSession) (state : TerminalSessionState) : TerminalSession :=
  { s with state := state, moves := s.moves ++ [(s.state, state)] }

/-- `NextGeneration`; the generation is `activeGeneration` behind it. -/
def nextGeneration (s : TerminalSession) : TerminalSession :=
  { s with activeGeneration := s.activeGeneration + 1 }

/-- `_outbound = new SessionOutboundQueue(..)`. -/
def openQueue (s : TerminalSession) (generation : ℤ) (sink : OutboundSink) : TerminalSession :=
  { s with
    queues := s.queues ++ [.create generation sink]
    outbound := some s.queues.length }

/-- `CompleteAsync` of a queue, up to its task. -/
def completeQueue (s : TerminalSession) (queue : Option ℕ) : TerminalSession :=
  match queue with
  | some k => { s with queues := s.queues.modify k SessionQueue.completeAsync }
  | none => s

def disposeQueue (s : TerminalSession) (queue : Option ℕ) : TerminalSession :=
  match queue with
  | some k => { s with queues := s.queues.modify k SessionQueue.dispose }
  | none => s

/-- `_completion.TrySetResult`. -/
def trySetResult (s : TerminalSession) (kind : TerminalTransportResultKind) : TerminalSession :=
  { s with completion := s.completion <|> some kind }

/-- The state is `Closing`, `Closed` or `Failed`. -/
def ended (s : TerminalSession) : Bool :=
  s.state = .closing || s.state = .closed || s.state = .failed

/-! #### `StartAsync` -/

/-- The handler of `StartAsync`. -/
def startFailed (s : TerminalSession) : TerminalSession × Next :=
  let s := if s.state ≠ .closing ∧ s.state ≠ .closed then s.setState .failed else s
  (s.trySetResult (if s.cancelled then .cancelled else .connectionFailure), .threw)

/-- `StartAsync` up to its first await. -/
def startAsync (s : TerminalSession) : TerminalSession × Next :=
  if s.state ≠ .created then (s, .threw)
  else
    let s := (s.setState .startingRoot).nextGeneration
    ({ s with rootGeneration := s.activeGeneration }, .awaits (.startContext s.activeGeneration))

/-- Behind the root's `StartAsync`. -/
def rootStarted (s : TerminalSession) (generation : ℤ) : TerminalSession × Next :=
  if s.state ≠ .startingRoot ∨ s.cancelled = true then s.startFailed
  else
    let s := (s.openQueue generation .root).setState .runningRoot
    ({ s with rootMonitor := some .completion }, .returned)

/-! #### `StartOverlayAsync` -/

/-- `ResumeRoot`. -/
def resumeRoot (s : TerminalSession) : TerminalSession :=
  if s.state ≠ .stoppingOverlay ∨ s.cancelled = true then s
  else
    let s := s.nextGeneration
    (s.openQueue s.activeGeneration .root).setState .runningRoot

/-- `StartOverlayAsync` up to its first await. -/
def startOverlayAsync (s : TerminalSession) (overlay : ℕ) (resumeRootOnFailure : Bool) :
    TerminalSession × Next :=
  if s.state ≠ .runningRoot then (s, .threw)
  else
    let prior := s.outbound
    let s := s.setState .startingOverlay
    let s := { s with startingOverlay := some overlay, outbound := none }
    match prior with
    | some prior =>
      (s.completeQueue prior, .awaits (.overlayPrior prior overlay resumeRootOnFailure))
    | none => (s, .awaits (.overlayFailed overlay resumeRootOnFailure))

/-- Behind the queue of the root. -/
def priorCompleted (s : TerminalSession) (overlay : ℕ) (resumeRootOnFailure : Bool) :
    TerminalSession × Next :=
  if s.cancelled then (s, .awaits (.overlayFailed overlay resumeRootOnFailure))
  else
    let s := s.nextGeneration
    (s, .awaits (.overlayContext s.activeGeneration overlay resumeRootOnFailure))

/-- Behind the overlay's `StartAsync`. -/
def overlayStarted (s : TerminalSession) (generation : ℤ) (overlay : ℕ)
    (resumeRootOnFailure : Bool) : TerminalSession × Next :=
  if s.state ≠ .startingOverlay ∨ s.cancelled = true then
    (s, .awaits (.overlayFailed overlay resumeRootOnFailure))
  else
    let s := { s with overlay := some overlay, startingOverlay := none }
    ((s.openQueue generation (.overlay overlay)).setState .runningOverlay, .returned)

/-- The handler of `StartOverlayAsync` gives up its overlay. -/
def forgetOverlay (s : TerminalSession) (overlay : ℕ) : TerminalSession :=
  { s with
    overlay := if s.overlay = some overlay then none else s.overlay
    startingOverlay := if s.startingOverlay = some overlay then none else s.startingOverlay }

/-- The handler of `StartOverlayAsync`, behind the overlay's `CloseAsync`. -/
def overlaySettled (s : TerminalSession) (overlay : ℕ) (resumeRootOnFailure : Bool) :
    TerminalSession :=
  let s := s.forgetOverlay overlay
  if s.cancelled = false ∧ s.state = .startingOverlay then
    let s := s.setState .stoppingOverlay
    if resumeRootOnFailure then s.resumeRoot else s
  else s

/-! #### `StopOverlayAsync` and `ResumeRootAsync` -/

/-- `StopOverlayAsync` up to its first await. -/
def stopOverlayAsync (s : TerminalSession) (resumeRoot : Bool) : TerminalSession × Next :=
  if s.state ≠ .runningOverlay then (s, .threw)
  else
    let outbound := s.outbound
    let s := { s.setState .stoppingOverlay with outbound := none }
    (s.completeQueue outbound, .awaits (.stopRetire outbound s.overlay resumeRoot))

/-- Behind the queue of the overlay. -/
def overlayRetired (s : TerminalSession) (overlay : Option ℕ) (resumeRoot : Bool) : Next :=
  -- `_lifetime.Token` throws once the session is disposed
  if overlay = none ∨ s.disposed = true then .threw else .awaits (.stopClose resumeRoot)

/-- Behind the overlay's `Completion`. -/
def overlayStopped (s : TerminalSession) (resumeRoot : Bool) : TerminalSession :=
  let s := { s with overlay := none }
  if resumeRoot then s.resumeRoot else s

/-- `ResumeRootAsync`. -/
def resumeRootAsync (s : TerminalSession) : TerminalSession × Next :=
  if s.state ≠ .stoppingOverlay then (s, .threw) else (s.resumeRoot, .returned)

/-! #### `AppendHostLineAsync` and `Dispose` -/

/-- `AppendHostLineAsync` up to its await. -/
def appendHostLineAsync (s : TerminalSession) : TerminalSession × Next :=
  let s := s.nextGeneration
  if s.disposed ∨ s.ended then (s, .threw) else (s, .awaits .hostLine)

def dispose (s : TerminalSession) : TerminalSession :=
  if s.disposed then s
  else { s.disposeQueue s.outbound with disposed := true, cancelled := true }

/-! #### `CloseAsync` -/

/-- `CloseCoreAsync` behind the queue. -/
def closeTransports (overlay : Option ℕ) : CloseTask :=
  if overlay.isSome then .overlayClose else .rootClose

/-- `CloseCoreAsync` from the queue on. -/
def closeQueue (s : TerminalSession) (outbound overlay : Option ℕ) : TerminalSession :=
  match outbound with
  | some k => { s.completeQueue outbound with closeTask := some (.retire k overlay) }
  | none => { s with closeTask := some (closeTransports overlay) }

/-- `CloseCoreAsync` up to its first await. -/
def closeCoreAsync (s : TerminalSession) : TerminalSession :=
  if s.state = .closed then { s with closeTask := some .returned }
  else if s.state = .created then
    { (s.setState .closed).trySetResult .cancelled with closeTask := some .returned }
  else
    let wasStarting := s.state = .startingRoot ∨ s.state = .startingOverlay
    let outbound := s.outbound
    let overlay := s.overlay <|> s.startingOverlay
    let s := { s.setState .closing with outbound := none }
    if wasStarting then { s with closeTask := some (.cancel outbound overlay) }
    else s.closeQueue outbound overlay

/-- `CloseAsync`. -/
def closeAsync (s : TerminalSession) : TerminalSession :=
  if s.closeTask.isSome then s else s.closeCoreAsync

/-- `CloseCoreAsync` behind the output pump. -/
def finishClose (s : TerminalSession) (result : TerminalTransportResultKind) : TerminalSession :=
  let s := s.setState (if result = .connectionFailure then .failed else .closed)
  { s.trySetResult result with closeTask := some .returned }

/-- The close task goes on. -/
def closeStep (s : TerminalSession) (answer : Answer) : Option TerminalSession :=
  match s.closeTask, answer with
  | some (.cancel outbound overlay), .returned =>
    if s.disposed then some { s with closeTask := some .faulted }
    else some (({ s with cancelled := true } : TerminalSession).closeQueue outbound overlay)
  | some (.cancel _ _), .threw => some { s with cancelled := true, closeTask := some .faulted }
  -- `RetireOutboundAsync` swallows what the queue throws
  | some (.retire outbound overlay), .returned | some (.retire outbound overlay), .threw =>
    some { s.disposeQueue (some outbound) with closeTask := some (closeTransports overlay) }
  | some .overlayClose, .returned => some { s with closeTask := some .overlayCompletion }
  | some .overlayCompletion, .result _ =>
    some { s with overlay := none, startingOverlay := none, closeTask := some .rootClose }
  | some .rootClose, .returned => some { s with closeTask := some .rootCompletion }
  | some .rootCompletion, .result kind => some { s with closeTask := some (.output kind) }
  | some (.output result), .returned => some (s.finishClose result)
  | some .overlayClose, .threw | some .rootClose, .threw | some (.output _), .threw =>
    some { s with closeTask := some .faulted }
  | _, _ => none

/-- The root monitor goes on. -/
def monitorStep (s : TerminalSession) (answer : Answer) : Option TerminalSession :=
  match s.rootMonitor, answer with
  | some .completion, .result _ => some { s.closeAsync with rootMonitor := some .close }
  | some .close, .returned =>
    if s.closeTask = some .returned then some { s with rootMonitor := some .returned } else none
  | some .close, .threw =>
    if s.closeTask = some .faulted then
      let s := (s.setState .failed).trySetResult .connectionFailure
      some { s with rootMonitor := some .returned }
    else none
  | _, _ => none

end TerminalSession

/-! ### Runs -/

/-- A call of an operation of the session. -/
inductive SessionCall
  | startAsync
  | startOverlayAsync (overlay : ℕ) (resumeRootOnFailure : Bool)
  | stopOverlayAsync (resumeRoot : Bool)
  | resumeRootAsync
  | closeAsync
  | appendHostLineAsync
  | dispose
  deriving DecidableEq

namespace TerminalSession

/-- A call up to its first await. -/
def call (s : TerminalSession) : SessionCall → TerminalSession × Next
  | .startAsync => s.startAsync
  | .startOverlayAsync overlay resumeRootOnFailure =>
    s.startOverlayAsync overlay resumeRootOnFailure
  | .stopOverlayAsync resumeRoot => s.stopOverlayAsync resumeRoot
  | .resumeRootAsync => s.resumeRootAsync
  | .closeAsync => (s.closeAsync, .returned)
  | .appendHostLineAsync => s.appendHostLineAsync
  | .dispose => (s.dispose, .returned)

/-- An operation goes on behind an await. -/
def resume (s : TerminalSession) (frame : Frame) (answer : Answer) :
    Option (TerminalSession × Next) :=
  match frame, answer with
  | .startContext generation, .returned =>
    if s.disposed then some s.startFailed else some (s, .awaits (.startRoot generation))
  | .startContext _, .threw | .startRoot _, .threw => some s.startFailed
  | .startRoot generation, .returned => some (s.rootStarted generation)
  | .overlayPrior prior overlay resumeRootOnFailure, .returned =>
    some ((s.disposeQueue prior).priorCompleted overlay resumeRootOnFailure)
  | .overlayPrior prior overlay resumeRootOnFailure, .threw =>
    some (s.disposeQueue prior, .awaits (.overlayFailed overlay resumeRootOnFailure))
  | .overlayContext generation overlay resumeRootOnFailure, .returned =>
    if s.disposed then some (s, .awaits (.overlayFailed overlay resumeRootOnFailure))
    else some (s, .awaits (.overlayStart generation overlay resumeRootOnFailure))
  | .overlayContext _ overlay resumeRootOnFailure, .threw
  | .overlayStart _ overlay resumeRootOnFailure, .threw =>
    some (s, .awaits (.overlayFailed overlay resumeRootOnFailure))
  | .overlayStart generation overlay resumeRootOnFailure, .returned =>
    some (s.overlayStarted generation overlay resumeRootOnFailure)
  | .overlayFailed overlay resumeRootOnFailure, .returned =>
    some (s.overlaySettled overlay resumeRootOnFailure, .threw)
  | .overlayFailed _ _, .threw => some (s, .threw)
  | .stopRetire outbound overlay resumeRoot, .returned
  | .stopRetire outbound overlay resumeRoot, .threw =>
    some (s.disposeQueue outbound, s.overlayRetired overlay resumeRoot)
  | .stopClose resumeRoot, .returned => some (s, .awaits (.stopCompletion resumeRoot))
  | .stopClose _, .threw => some (s, .threw)
  | .stopCompletion resumeRoot, .result _ => some (s.overlayStopped resumeRoot, .returned)
  | .hostLine, .returned => some (s, .returned)
  | .hostLine, .threw => some (s, .threw)
  | _, _ => none

end TerminalSession

/-- A session with the operations that are under way. -/
structure SessionState where
  session : TerminalSession
  frames : List Frame
  deriving DecidableEq

inductive SessionEvent
  | call (call : SessionCall)
  /-- An await of an operation ends. -/
  | resume (frame : Frame) (answer : Answer)
  /-- An await of the close task ends. -/
  | close (answer : Answer)
  /-- An await of the root monitor ends. -/
  | monitor (answer : Answer)
  /-- `TryEnqueue` of a queue or a step of its worker. -/
  | queue (queue : ℕ) (event : OutboundEvent)
  /-- The sink of a queue writes to a transport. -/
  | write (queue : ℕ)
  deriving DecidableEq

namespace SessionState

/-- A new session. -/
def start : SessionState := ⟨.create, []⟩

/-- A step of one of the queues. -/
def withQueue (s : SessionState) (queue : ℕ) (f : SessionQueue → Option SessionQueue) :
    Option SessionState := do
  let q ← s.session.queues[queue]?
  let q' ← f q
  return { s with session := { s.session with queues := s.session.queues.set queue q' } }

/-- **A step of the session.** -/
def step (s : SessionState) : SessionEvent → Option SessionState
  | .call call =>
    let result := s.session.call call
    some ⟨result.1, result.2.frames ++ s.frames⟩
  | .resume frame answer =>
    if frame ∈ s.frames then
      (s.session.resume frame answer).map fun result =>
        ⟨result.1, result.2.frames ++ s.frames.erase frame⟩
    else none
  | .close answer => (s.session.closeStep answer).map fun session => { s with session := session }
  | .monitor answer =>
    (s.session.monitorStep answer).map fun session => { s with session := session }
  | .queue queue event => s.withQueue queue fun q => q.step event
  | .write queue => s.withQueue queue SessionQueue.write

end SessionState

end VT7.Session
