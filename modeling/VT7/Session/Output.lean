import VT7.Lib.Run
import VT7.Session.Document

/-!
# Output of the producers of a session

The root transport and its overlays feed one document.  Every block goes through `AcceptOutputAsync`:
the session checks and records its sequence, the output pump commits it on the dispatcher, the call
drains the document's replies and writes each to the transport that is registered for the reply's
origin generation.

The machine interleaves the calls of all producers at their awaits with the pump, with the transports
that start and stop and with the session that registers and unregisters them.  A producer awaits its
call before it sends the next block, so there is one call for each generation.

`owners`, `taken`, `written` and `failures` are the record of the run; no step reads them, except
that a generation is registered once (`NextGeneration` never returns it again).
-/

namespace VT7.Session

open VT7.Dotnet VT7.Lib

/-- `SessionOutputPump.MaximumChunkBytes`. -/
def maximumChunkBytes : ℕ := 64 * 1024
/-- `SessionOutputPump.MaximumQueuedChunks`. -/
def maximumQueuedChunks : ℕ := 16

structure TerminalOutputBlock where
  generation : ℕ
  sequence : ℕ
  bytes : Bytes

/-- A write the pump has queued.  `accepted` tells the block of an `AcceptOutputAsync` call, which
awaits the completion, from a host line. -/
structure PendingWrite where
  originGeneration : ℕ
  sequence : ℕ
  bytes : Bytes
  accepted : Bool

/-- How an `AcceptOutputAsync` call fails. -/
inductive AcceptError
  | cancelled
  /-- The terminal session no longer accepts output. -/
  | closed
  /-- A transport output generation was not registered with this session. -/
  | notRegistered
  /-- A transport output sequence was stale or duplicated. -/
  | stale
  /-- A session output chunk cannot exceed 65536 bytes. -/
  | chunk
  /-- The output pump completes, is disposed or has failed. -/
  | pump
  /-- A terminal reply had no originating transport generation. -/
  | noOrigin (reply : Reply)
  /-- `WriteAsync` of the origin's transport threw; `stopped` says that the transport did not run. -/
  | write (reply : Reply) (stopped : Bool)

/-- The reply whose transport has stopped or is not registered, when that is why the call failed. -/
def AcceptError.blames : AcceptError → Option Reply
  | .noOrigin reply => some reply
  | .write reply true => some reply
  | _ => none

/-- Where the call of a producer stands. -/
inductive AcceptCall
  /-- No call is under way. -/
  | idle
  /-- Awaiting a slot of the pump. -/
  | waiting (sequence : ℕ) (bytes : Bytes)
  /-- Awaiting the commit of the block. -/
  | pumping
  /-- Awaiting the dispatcher for the drain. -/
  | draining
  /-- In the loop over the drained replies. -/
  | delivering (replies : List Reply)
  /-- Awaiting `WriteAsync` of the reply's transport. -/
  | writing (transport : ℕ) (reply : Reply) (rest : List Reply)

/-- The replies a call still has to write. -/
def AcceptCall.held : AcceptCall → List Reply
  | .delivering replies => replies
  | .writing _ reply rest => reply :: rest
  | _ => []

@[simp] theorem AcceptCall.held_delivering (replies : List Reply) :
    (AcceptCall.delivering replies).held = replies := rfl

@[simp] theorem AcceptCall.held_writing (transport : ℕ) (reply : Reply) (rest : List Reply) :
    (AcceptCall.writing transport reply rest).held = reply :: rest := rfl

/-- A `WriteAsync` call of a transport with a reply, and whether the transport took it. -/
structure Delivery where
  transport : ℕ
  reply : Reply
  taken : Bool

/-- A call of `AcceptOutputAsync` that failed. -/
structure AcceptFailure where
  producer : ℕ
  /-- The producer's transport was running. -/
  running : Bool
  error : AcceptError

structure OutputState where
  document : Document
  /-- The pump's `_streamGeneration`. -/
  streamGeneration : ℕ
  /-- The pump's `_writes`. -/
  writes : List PendingWrite
  /-- The pump's `_accepting`. -/
  accepting : Bool
  /-- The session is neither created, failed, closing nor closed. -/
  acceptsOutput : Bool
  activeGeneration : ℕ
  producerGenerations : ℕ → Bool
  producerSequences : ℕ → ℕ
  producerTransports : ℕ → Option ℕ
  /-- The transports whose `State` is `Running`. -/
  running : ℕ → Bool
  calls : ℕ → AcceptCall
  /-- The transport each generation was registered for. -/
  owners : ℕ → Option ℕ
  /-- The replies that were drained. -/
  taken : List Reply
  /-- The writes of replies to transports, the oldest first. -/
  written : List Delivery
  failures : List AcceptFailure

inductive OutputEvent
  /-- `NextGeneration`. -/
  | nextGeneration
  /-- `StartAsync`, `StartOverlayAsync` or `AppendHostLineAsync` registers a generation. -/
  | register (generation transport : ℕ)
  /-- The failure handler of `StartOverlayAsync` removes a generation. -/
  | unregister (generation : ℕ)
  /-- A transport starts or stops running. -/
  | transport (transport : ℕ) (running : Bool)
  /-- The state of the session changes. -/
  | session (acceptsOutput : Bool)
  /-- A producer calls `AcceptOutputAsync`. -/
  | accept (block : TerminalOutputBlock) (cancelled : Bool)
  /-- The call has a slot of the pump. -/
  | enqueue (generation : ℕ)
  /-- The token is cancelled or the dispatcher is shut down while the call waits for a slot, or the
  dispatcher or the document is gone before the drain. -/
  | abandon (generation : ℕ)
  /-- `AppendHostLineAsync` has a slot of the pump. -/
  | hostLine (generation : ℕ) (bytes : Bytes)
  /-- The pump's `Drain` commits its first write; the terminal gives these answers. -/
  | commit (responses : List (List UInt16)) (intact : Bool)
  /-- The pump's `CompleteAsync`. -/
  | complete
  /-- The pump's `Drain` ends the stream. -/
  | endStream
  /-- The pump's `Dispose`. -/
  | dispose
  /-- The dispatcher runs `DrainReplies` for the call. -/
  | drain (generation : ℕ)
  /-- The loop of the call reaches its next reply, or its end. -/
  | deliver (generation : ℕ)
  /-- `WriteAsync` of the transport returns, or throws. -/
  | write (generation : ℕ) (taken : Bool)

namespace OutputState

/-- The transport of the producer runs. -/
def producerRunning (s : OutputState) (generation : ℕ) : Bool :=
  (s.owners generation).any s.running

def setCall (s : OutputState) (generation : ℕ) (call : AcceptCall) : OutputState :=
  { s with calls := Function.update s.calls generation call }

/-- A generation and its transport enter the tables. -/
def register (s : OutputState) (generation transport : ℕ) : OutputState :=
  { s with
    producerGenerations := Function.update s.producerGenerations generation true
    producerTransports := Function.update s.producerTransports generation (some transport)
    owners := Function.update s.owners generation (some transport) }

/-- A generation leaves the tables. -/
def unregister (s : OutputState) (generation : ℕ) : OutputState :=
  { s with
    producerGenerations := Function.update s.producerGenerations generation false
    producerTransports := Function.update s.producerTransports generation none }

/-- The call throws. -/
def fail (s : OutputState) (generation : ℕ) (error : AcceptError) : OutputState :=
  { s with
    calls := Function.update s.calls generation .idle
    failures := s.failures ++ [⟨generation, s.producerRunning generation, error⟩] }

/-- The generations whose calls await one of the writes. -/
def awaiting (writes : List PendingWrite) : List ℕ :=
  (writes.filter (·.accepted)).map (·.originGeneration)

/-- The pump fails all its writes: no more are taken, and the calls that await one throw. -/
def failWrites (s : OutputState) (writes : List PendingWrite) : OutputState :=
  { s with
    accepting := false
    writes := []
    calls := fun g => if g ∈ awaiting writes then .idle else s.calls g
    failures := s.failures ++
      (awaiting writes).map fun g => { producer := g, running := s.producerRunning g, error := .pump } }

/-- `AcceptOutputAsync` up to its first await. -/
def accept (s : OutputState) (block : TerminalOutputBlock) (cancelled : Bool) : OutputState :=
  let g := block.generation
  if cancelled then s.fail g .cancelled
  else if !s.acceptsOutput then s.fail g .closed
  else if !s.producerGenerations g then s.fail g .notRegistered
  else if block.sequence ≤ s.producerSequences g then s.fail g .stale
  else
    let s := { s with producerSequences := Function.update s.producerSequences g block.sequence }
    -- the pump returns at once from an empty write
    if block.bytes = [] then s.setCall g .draining
    else if maximumChunkBytes < block.bytes.length then s.fail g .chunk
    else s.setCall g (.waiting block.sequence block.bytes)

/-- `WriteAsync` of the pump behind the semaphore. -/
def enqueue (s : OutputState) (generation sequence : ℕ) (bytes : Bytes) : OutputState :=
  if !s.accepting then s.fail generation .pump
  else
    { s with
      writes := s.writes ++ [⟨generation, sequence, bytes, true⟩]
      calls := Function.update s.calls generation .pumping }

/-- One round of the pump's `Drain`. -/
def commit (s : OutputState) (pending : PendingWrite) (rest : List PendingWrite)
    (responses : List (List UInt16)) (intact : Bool) : OutputState :=
  let (document, success) := s.document.writeDocumentStream s.streamGeneration
    pending.originGeneration pending.sequence responses intact
  let s := { s with document := document }
  if success then
    if pending.accepted then { s.setCall pending.originGeneration .draining with writes := rest }
    else { s with writes := rest }
  else s.failWrites (pending :: rest)

/-- `DrainReplies` for a call. -/
def drain (s : OutputState) (generation : ℕ) : OutputState :=
  { s with
    document := s.document.drainReplies.2
    taken := s.taken ++ s.document.drainReplies.1
    calls := Function.update s.calls generation (.delivering s.document.drainReplies.1) }

/-- The head of the loop over the replies. -/
def deliver (s : OutputState) (generation : ℕ) : List Reply → OutputState
  | [] => s.setCall generation .idle
  | reply :: rest =>
    match s.producerTransports reply.origin with
    | none => s.fail generation (.noOrigin reply)
    | some transport => s.setCall generation (.writing transport reply rest)

/-- `WriteAsync` of a transport: it throws when the transport does not run. -/
def write (s : OutputState) (generation transport : ℕ) (reply : Reply) (rest : List Reply)
    (taken : Bool) : OutputState :=
  let s' : OutputState :=
    { s with written := s.written ++ [⟨transport, reply, s.running transport && taken⟩] }
  if s.running transport && taken then s'.setCall generation (.delivering rest)
  else s'.fail generation (.write reply (!s.running transport))

/-- **A step of the session's output.** -/
def step (s : OutputState) : OutputEvent → Option OutputState
  | .nextGeneration => some { s with activeGeneration := s.activeGeneration + 1 }
  | .register g t =>
    if 0 < g ∧ g ≤ s.activeGeneration ∧ s.owners g = none then some (s.register g t) else none
  | .unregister g => some (s.unregister g)
  | .transport t running => some { s with running := Function.update s.running t running }
  | .session acceptsOutput => some { s with acceptsOutput := acceptsOutput }
  | .accept block cancelled =>
    match s.calls block.generation with
    | .idle =>
      -- `TerminalOutputBlock` refuses other numbers
      if 0 < block.generation ∧ 0 < block.sequence then some (s.accept block cancelled) else none
    | _ => none
  | .enqueue g =>
    match s.calls g with
    | .waiting sequence bytes =>
      if s.writes.length < maximumQueuedChunks then some (s.enqueue g sequence bytes) else none
    | _ => none
  | .abandon g =>
    match s.calls g with
    | .waiting _ _ => some (s.fail g .cancelled)
    | .draining => some (s.fail g .cancelled)
    | _ => none
  | .hostLine g bytes =>
    if s.accepting = true ∧ s.writes.length < maximumQueuedChunks ∧ s.owners g ≠ none ∧
        bytes ≠ [] ∧ bytes.length ≤ maximumChunkBytes then
      some { s with writes := s.writes ++ [⟨g, 1, bytes, false⟩] }
    else none
  | .commit responses intact =>
    match s.writes with
    | [] => none
    | pending :: rest => some (s.commit pending rest responses intact)
  | .complete => some { s with accepting := false }
  | .endStream =>
    if s.writes = [] ∧ s.accepting = false then
      some { s with document := s.document.endDocumentStream }
    else none
  | .dispose => some (s.failWrites s.writes)
  | .drain g =>
    match s.calls g with
    | .draining => some (s.drain g)
    | _ => none
  | .deliver g =>
    match s.calls g with
    | .delivering replies => some (s.deliver g replies)
    | _ => none
  | .write g taken =>
    match s.calls g with
    | .writing transport reply rest => some (s.write g transport reply rest taken)
    | _ => none

/-- The session before `StartAsync`: the pump has begun its stream on the document. -/
def start (document : Document) (streamGeneration : ℕ) : OutputState where
  document := document.beginDocumentStream streamGeneration
  streamGeneration := streamGeneration
  writes := []
  accepting := true
  acceptsOutput := false
  activeGeneration := 0
  producerGenerations _ := false
  producerSequences _ := 0
  producerTransports _ := none
  running _ := false
  calls _ := .idle
  owners _ := none
  taken := []
  written := []
  failures := []

/-! ### What a step can do -/

variable {s s' : OutputState} {e : OutputEvent}

/-- The steps, each with the state it needs and the state it leads to. -/
inductive Acts (s : OutputState) : OutputEvent → OutputState → Prop
  | nextGeneration : Acts s .nextGeneration { s with activeGeneration := s.activeGeneration + 1 }
  | register {g t : ℕ} (handedOut : g ≤ s.activeGeneration) (new : s.owners g = none) :
      Acts s (.register g t) (s.register g t)
  | unregister {g : ℕ} : Acts s (.unregister g) (s.unregister g)
  | transport {t : ℕ} {running : Bool} :
      Acts s (.transport t running) { s with running := Function.update s.running t running }
  | session {acceptsOutput : Bool} :
      Acts s (.session acceptsOutput) { s with acceptsOutput := acceptsOutput }
  | accept {block : TerminalOutputBlock} {cancelled : Bool} :
      Acts s (.accept block cancelled) (s.accept block cancelled)
  | enqueue {g sequence : ℕ} {bytes : Bytes} (call : s.calls g = .waiting sequence bytes) :
      Acts s (.enqueue g) (s.enqueue g sequence bytes)
  | abandon {g : ℕ} : Acts s (.abandon g) (s.fail g .cancelled)
  | hostLine {g : ℕ} {bytes : Bytes} :
      Acts s (.hostLine g bytes) { s with writes := s.writes ++ [⟨g, 1, bytes, false⟩] }
  | commit {responses : List (List UInt16)} {intact : Bool} {pending : PendingWrite}
      {rest : List PendingWrite} (head : s.writes = pending :: rest) :
      Acts s (.commit responses intact) (s.commit pending rest responses intact)
  | complete : Acts s .complete { s with accepting := false }
  | endStream : Acts s .endStream { s with document := s.document.endDocumentStream }
  | dispose : Acts s .dispose (s.failWrites s.writes)
  | drain {g : ℕ} (call : s.calls g = .draining) : Acts s (.drain g) (s.drain g)
  | deliver {g : ℕ} {replies : List Reply} (call : s.calls g = .delivering replies) :
      Acts s (.deliver g) (s.deliver g replies)
  | write {g t : ℕ} {r : Reply} {rest : List Reply} {taken : Bool}
      (call : s.calls g = .writing t r rest) :
      Acts s (.write g taken) (s.write g t r rest taken)

/-- **Inversion of a step.** -/
theorem acts_of_step (h : s.step e = some s') : Acts s e s' := by
  unfold step at h
  cases e with
  | nextGeneration =>
    cases h
    exact .nextGeneration
  | register g t =>
    dsimp only at h
    split at h
    · next hg =>
      cases h
      exact .register hg.2.1 hg.2.2
    · cases h
  | unregister g =>
    cases h
    exact .unregister
  | transport t running =>
    cases h
    exact .transport
  | session acceptsOutput =>
    cases h
    exact .session
  | accept block cancelled =>
    dsimp only at h
    split at h
    · split at h
      · cases h
        exact .accept
      · cases h
    · cases h
  | enqueue g =>
    dsimp only at h
    split at h
    · next hg =>
      split at h
      · cases h
        exact .enqueue hg
      · cases h
    · cases h
  | abandon g =>
    dsimp only at h
    split at h
    · cases h
      exact .abandon
    · cases h
      exact .abandon
    · cases h
  | hostLine g bytes =>
    dsimp only at h
    split at h
    · cases h
      exact .hostLine
    · cases h
  | commit responses intact =>
    dsimp only at h
    split at h
    · cases h
    · next hwrites =>
      cases h
      exact .commit hwrites
  | complete =>
    cases h
    exact .complete
  | endStream =>
    dsimp only at h
    split at h
    · cases h
      exact .endStream
    · cases h
  | dispose =>
    cases h
    exact .dispose
  | drain g =>
    dsimp only at h
    split at h
    · next hg =>
      cases h
      exact .drain hg
    · cases h
  | deliver g =>
    dsimp only at h
    split at h
    · next hg =>
      cases h
      exact .deliver hg
    · cases h
  | write g taken =>
    dsimp only at h
    split at h
    · next hg =>
      cases h
      exact .write hg
    · cases h

/-! ### What becomes of the replies -/

/-- The calls that fail in this step do not blame a reply. -/
def Blameless (s s' : OutputState) : Prop :=
  ∃ more, s'.failures = s.failures ++ more ∧ ∀ f ∈ more, f.error.blames = none

/-- What a step can do to the replies. -/
inductive Moves (s : OutputState) (e : OutputEvent) (s' : OutputState) : Prop
  /-- No reply is drained or written.  A call keeps what it holds, or ends and drops it. -/
  | settle (origin : ℕ) (added : List Reply)
      (appends : Document.Appends origin s.document s'.document added)
      (taken : s'.taken = s.taken) (written : s'.written = s.written)
      (calls : ∀ g, s'.calls g = s.calls g ∨ (s'.calls g).held = []) (blameless : Blameless s s')
  /-- A call drains the queue. -/
  | drain (g : ℕ) (eq : s' = s.drain g)
  /-- A call looks up the transport of its next reply. -/
  | route (g t : ℕ) (r : Reply) (rest : List Reply) (call : s.calls g = .delivering (r :: rest))
      (registered : s.producerTransports r.origin = some t) (eq : s' = s.setCall g (.writing t r rest))
  /-- A call finds no transport for its next reply. -/
  | refuse (g : ℕ) (r : Reply) (rest : List Reply) (event : e = .deliver g)
      (call : s.calls g = .delivering (r :: rest)) (missing : s.producerTransports r.origin = none)
      (eq : s' = s.fail g (.noOrigin r))
  /-- A call writes a reply. -/
  | write (g t : ℕ) (r : Reply) (rest : List Reply) (taken : Bool) (event : e = .write g taken)
      (call : s.calls g = .writing t r rest) (eq : s' = s.write g t r rest taken)

theorem Blameless.of_eq (h : s'.failures = s.failures) : Blameless s s' :=
  ⟨[], by rw [h, List.append_nil], by simp⟩

theorem Blameless.of_append {f : AcceptFailure} (h : s'.failures = s.failures ++ [f])
    (hf : f.error.blames = none) : Blameless s s' :=
  ⟨[f], h, by simpa using hf⟩

theorem failWrites_blameless (s : OutputState) (writes : List PendingWrite) :
    Blameless s (s.failWrites writes) := by
  refine ⟨_, rfl, ?_⟩
  intro f hf
  obtain ⟨g, -, rfl⟩ := List.mem_map.mp hf
  rfl

/-- A step that leaves the document's queue. -/
theorem Moves.quiet (document : s'.document.replies = s.document.replies)
    (sequence : s'.document.replySequence = s.document.replySequence) (taken : s'.taken = s.taken)
    (written : s'.written = s.written)
    (calls : ∀ g, s'.calls g = s.calls g ∨ (s'.calls g).held = []) (blameless : Blameless s s') :
    Moves s e s' :=
  .settle 0 [] ((Document.Appends.refl 0 s.document).congr rfl rfl document sequence) taken written
    calls blameless

/-- A step that only changes the tables, the pump or the transports. -/
theorem Moves.still (document : s'.document.replies = s.document.replies)
    (sequence : s'.document.replySequence = s.document.replySequence) (taken : s'.taken = s.taken)
    (written : s'.written = s.written) (calls : s'.calls = s.calls)
    (failures : s'.failures = s.failures) : Moves s e s' :=
  .quiet document sequence taken written (fun g => .inl (congrFun calls g)) (.of_eq failures)

/-- A call that is set to one without replies. -/
theorem update_held {calls : ℕ → AcceptCall} {g : ℕ} {call : AcceptCall} (h : call.held = [])
    (j : ℕ) : Function.update calls g call j = calls j ∨ (Function.update calls g call j).held = [] := by
  rcases eq_or_ne j g with rfl | hj
  · exact .inr (by rw [Function.update_self, h])
  · exact .inl (Function.update_of_ne hj _ _)

theorem Moves.of_fail (s : OutputState) (g : ℕ) {error : AcceptError} (h : error.blames = none) :
    Moves s e (s.fail g error) :=
  .quiet rfl rfl rfl rfl (update_held rfl) (.of_append rfl h)

theorem failWrites_calls (s : OutputState) (writes : List PendingWrite) (g : ℕ) :
    (s.failWrites writes).calls g = s.calls g ∨ ((s.failWrites writes).calls g).held = [] := by
  unfold failWrites
  dsimp only
  split
  · exact .inr rfl
  · exact .inl rfl

theorem Moves.of_accept (s : OutputState) (block : TerminalOutputBlock) (cancelled : Bool) :
    Moves s e (s.accept block cancelled) := by
  unfold accept
  dsimp only
  split
  · exact .of_fail s _ rfl
  · split
    · exact .of_fail s _ rfl
    · split
      · exact .of_fail s _ rfl
      · split
        · exact .of_fail s _ rfl
        · split
          · exact .quiet rfl rfl rfl rfl (update_held rfl) (.of_eq rfl)
          · split
            · exact .quiet rfl rfl rfl rfl (update_held rfl) (.of_append rfl rfl)
            · exact .quiet rfl rfl rfl rfl (update_held rfl) (.of_eq rfl)

theorem Moves.of_commit (s : OutputState) (pending : PendingWrite) (rest : List PendingWrite)
    (responses : List (List UInt16)) (intact : Bool) :
    Moves s e (s.commit pending rest responses intact) := by
  obtain ⟨added, h⟩ := s.document.writeDocumentStream_appends s.streamGeneration
    pending.originGeneration pending.sequence responses intact
  unfold commit
  dsimp only
  split
  · split
    · exact .settle _ added h rfl rfl (update_held rfl) (.of_eq rfl)
    · exact .settle _ added h rfl rfl (fun _ => .inl rfl) (.of_eq rfl)
  · exact .settle _ added h rfl rfl (failWrites_calls _ _) (failWrites_blameless _ _)

theorem Moves.of_deliver (s : OutputState) {g : ℕ} {replies : List Reply}
    (h : s.calls g = .delivering replies) : Moves s (.deliver g) (s.deliver g replies) := by
  cases replies with
  | nil => exact .quiet rfl rfl rfl rfl (update_held rfl) (.of_eq rfl)
  | cons reply rest =>
    simp only [deliver]
    split
    · next ht => exact .refuse g reply rest rfl h ht rfl
    · next t ht => exact .route g t reply rest h ht rfl

theorem Moves.of_enqueue (s : OutputState) (g sequence : ℕ) (bytes : Bytes) :
    Moves s e (s.enqueue g sequence bytes) := by
  unfold enqueue
  split
  · exact .of_fail s g rfl
  · exact .quiet rfl rfl rfl rfl (update_held rfl) (.of_eq rfl)

/-- **What a step does to the replies.** -/
theorem moves_of_acts (h : Acts s e s') : Moves s e s' := by
  cases h with
  | nextGeneration | register | unregister | transport | session | hostLine | complete | endStream =>
    exact .still rfl rfl rfl rfl rfl rfl
  | accept => exact .of_accept s _ _
  | enqueue call => exact .of_enqueue s _ _ _
  | abandon => exact .of_fail s _ rfl
  | commit head => exact .of_commit s _ _ _ _
  | dispose => exact .quiet rfl rfl rfl rfl (failWrites_calls s _) (failWrites_blameless s _)
  | drain call => exact .drain _ rfl
  | deliver call => exact .of_deliver s call
  | write call => exact .write _ _ _ _ _ rfl call rfl

end OutputState

end VT7.Session
