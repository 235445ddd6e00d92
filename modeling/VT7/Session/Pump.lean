import VT7.Dotnet.Text
import VT7.Lib.Permits
import VT7.Lib.Run
import VT7.Session.Output

/-!
# The output pump of a session

Producers call `WriteAsync` of a `SessionOutputPump` on any thread.  A call waits for one of the
sixteen permits of `_available`, puts its write into the queue under the lock and awaits the write's
completion.  `Drain` runs on the dispatcher, takes the writes out one by one, hands each to the
document and gives the permit back.  When the document throws, `Fail` abandons what is queued; so does
`Dispose`, on any thread and at any time.

The machine interleaves the calls, `CompleteAsync`, the dispatcher's `Drain` and `Dispose` at every
access to the lock, to the document, to a completion and to the semaphore.  The document is a
parameter: its `WriteUtf8` returns or throws as the run says, and so does the scheduling of `Drain`.
A write counts as written when `WriteUtf8` returned.

The fields below `disposing` are the record of the run; no step reads them, except that a call has a
number of its own.
-/

namespace VT7.Session

open VT7.Dotnet VT7.Lib

/-- A call of `WriteAsync` with its arguments; `call` tells the calls apart. -/
structure PumpWrite where
  call : ℕ
  originGeneration : ℕ
  sequence : ℕ
  bytes : Bytes
  deriving DecidableEq

/-- The loop over abandoned writes in `Fail` and in `Dispose`. -/
structure Abandoning where
  rest : List PumpWrite
  /-- The permit of the last write is to be released. -/
  owes : Bool
  /-- The `_completion` that was read under the lock was not null. -/
  completes : Bool
  deriving DecidableEq

/-- Where `Drain` stands. -/
inductive DrainState
  /-- The dispatcher does not run `Drain`. -/
  | idle
  /-- At the head of the loop. -/
  | looking
  /-- Before `WriteUtf8` of the document, when there was one. -/
  | committing (pending : PumpWrite) (attached : Bool)
  /-- Before the write's completion is set. -/
  | settling (pending : PumpWrite) (success : Bool)
  /-- Before the permit is released. -/
  | releasing (success : Bool)
  /-- Before the lock of `Fail`. -/
  | failing
  /-- In the loop of `Fail`. -/
  | abandoning (abandoned : Abandoning)
  /-- Before `EndStream` of the document, when there was one. -/
  | ending (attached : Bool)
  deriving DecidableEq

structure PumpState where
  writes : List PumpWrite
  /-- The count of `_available`. -/
  available : ℕ
  /-- `_document` is not null. -/
  attached : Bool
  /-- The task of `_completion`, when there is one; a task that is done has its outcome. -/
  completion : Option (Option Bool)
  /-- `_failure` is not null. -/
  failed : Bool
  accepting : Bool
  drainScheduled : Bool
  disposed : Bool
  /-- The `Drain` callbacks in the dispatcher's queue. -/
  scheduled : ℕ
  drain : DrainState
  /-- The loop of `Dispose`. -/
  disposing : Option Abandoning
  /-- The calls that await a permit. -/
  waiting : List PumpWrite
  /-- The calls that have a permit and are before the lock. -/
  admitted : List PumpWrite
  /-- The calls whose lock threw: they release their permit and throw. -/
  throwing : List PumpWrite
  /-- All calls. -/
  called : List ℕ
  /-- The calls that got a permit. -/
  passed : List PumpWrite
  /-- The writes that entered the queue and were not rolled back. -/
  enqueued : List PumpWrite
  /-- What was enqueued, and what the rollback took out. -/
  rollbacks : List (PumpWrite × Option PumpWrite)
  /-- The writes `WriteUtf8` was called with. -/
  reached : List PumpWrite
  /-- The writes `WriteUtf8` returned from. -/
  written : List PumpWrite
  /-- The writes that `Fail` and `Dispose` took out of the queue. -/
  dropped : List PumpWrite
  /-- The calls that are over behind their permit, with their outcome. -/
  outcomes : List (PumpWrite × Bool)
  /-- The calls of `EndStream`. -/
  ends : ℕ
  /-- A `Release` of `_available` found it full. -/
  overReleased : Bool

inductive PumpEvent
  /-- `WriteAsync` up to its first await. -/
  | call (write : PumpWrite)
  /-- `WaitAsync` throws: the token is cancelled. -/
  | cancel (write : PumpWrite)
  /-- `WaitAsync` returns. -/
  | pass (write : PumpWrite)
  /-- The lock of `WriteAsync`; scheduling throws, if it comes to that. -/
  | enter (write : PumpWrite) (throws : Bool)
  /-- The call whose lock threw releases its permit and throws. -/
  | leave (write : PumpWrite)
  | completeAsync (throws : Bool)
  | dispose
  /-- A round of the loop of `Dispose`. -/
  | disposeRound
  /-- The dispatcher starts `Drain`. -/
  | dispatch
  /-- The lock of `Drain`. -/
  | look
  /-- `WriteUtf8` returns or throws. -/
  | commit (success : Bool)
  /-- `Drain` sets the completion of the write. -/
  | settle
  /-- `Drain` releases the permit of the write. -/
  | release
  /-- The lock of `Fail`. -/
  | fail
  /-- A round of the loop of `Fail`. -/
  | failRound
  /-- `EndStream` returns or throws. -/
  | endStream (success : Bool)
  deriving DecidableEq

/-- The write `Drain` has taken out of the queue and not settled. -/
def DrainState.inFlight : DrainState → List PumpWrite
  | .committing pending _ | .settling pending _ => [pending]
  | _ => []

/-- The loop of `Fail`. -/
def DrainState.loop : DrainState → Option Abandoning
  | .abandoning abandoned => some abandoned
  | _ => none

/-- The permit of the write `Drain` has settled. -/
def DrainState.debt : DrainState → ℕ
  | .releasing _ => 1
  | _ => 0

/-- The writes of a loop that are not settled. -/
def unsettled (abandoned : Option Abandoning) : List PumpWrite :=
  abandoned.elim [] (·.rest)

/-- The permit a loop has to release. -/
def debt (abandoned : Option Abandoning) : ℕ :=
  if abandoned.any (·.owes) then 1 else 0

namespace PumpState

/-- A new pump on a document. -/
def start : PumpState where
  writes := []
  available := maximumQueuedChunks
  attached := true
  completion := none
  failed := false
  accepting := true
  drainScheduled := false
  disposed := false
  scheduled := 0
  drain := .idle
  disposing := none
  waiting := []
  admitted := []
  throwing := []
  called := []
  passed := []
  enqueued := []
  rollbacks := []
  reached := []
  written := []
  dropped := []
  outcomes := []
  ends := 0
  overReleased := false

/-- `_available.Release()`: it throws at the maximum. -/
def releasePermit (s : PumpState) : PumpState :=
  if s.available < maximumQueuedChunks then { s with available := s.available + 1 }
  else { s with overReleased := true }

/-- The completion of a write is set. -/
def settled (s : PumpState) (write : PumpWrite) (success : Bool) : PumpState :=
  { s with outcomes := s.outcomes ++ [(write, success)] }

/-- `_completion.TrySet…`: the first outcome stays. -/
def trySetCompletion (s : PumpState) (success : Bool) : PumpState :=
  { s with completion := s.completion.map fun task => some (task.getD success) }

/-- `ScheduleDrainLocked`; `none` when it throws. -/
def scheduleDrainLocked (s : PumpState) (throws : Bool) : Option PumpState :=
  if s.drainScheduled then some s
  else if throws then none
  else some { s with drainScheduled := true, scheduled := s.scheduled + 1 }

/-- `WriteAsync` up to its first await: an empty write returns, other arguments are checked. -/
def call (s : PumpState) (write : PumpWrite) : PumpState :=
  let s : PumpState := { s with called := s.called ++ [write.call] }
  if write.bytes = [] then s
  else if write.originGeneration = 0 ∨ write.sequence = 0 then s
  else if maximumChunkBytes < write.bytes.length then s
  else { s with waiting := s.waiting ++ [write] }

/-- The lock of `WriteAsync`. -/
def enter (s : PumpState) (write : PumpWrite) (throws : Bool) : PumpState :=
  let s : PumpState := { s with admitted := s.admitted.erase write }
  -- `ThrowIfClosed`
  if s.disposed || !s.accepting then { s with throwing := s.throwing ++ [write] }
  else
    let queued : PumpState := { s with writes := s.writes ++ [write] }
    match queued.scheduleDrainLocked throws with
    | some scheduled => { scheduled with enqueued := s.enqueued ++ [write] }
    | none =>
      { queued with
        writes := queued.writes.tail
        rollbacks := s.rollbacks ++ [(write, queued.writes.head?)]
        throwing := s.throwing ++ [write] }

/-- `CompleteAsync` up to the task it returns. -/
def completeAsync (s : PumpState) (throws : Bool) : PumpState :=
  if s.disposed || s.failed || s.completion.isSome then s
  else
    let s : PumpState := { s with accepting := false, completion := some none }
    match s.scheduleDrainLocked throws with
    | some scheduled => scheduled
    | none => { s with failed := true, completion := some (some false) }

/-- The lock of `Drain`. -/
def look (s : PumpState) : PumpState :=
  if s.disposed then { s with drainScheduled := false, drain := .idle }
  else
    match s.writes with
    | [] =>
      { s with
        drainScheduled := false
        drain := if !s.accepting && s.completion.isSome then .ending s.attached else .idle }
    | pending :: rest => { s with writes := rest, drain := .committing pending s.attached }

/-- `WriteUtf8`. -/
def commit (s : PumpState) (pending : PumpWrite) (attached success : Bool) : PumpState :=
  if !attached then { s with drain := .settling pending true }
  else if success then
    { s with
      drain := .settling pending true
      reached := s.reached ++ [pending]
      written := s.written ++ [pending] }
  else { s with drain := .settling pending false, reached := s.reached ++ [pending] }

/-- What `Fail` and `Dispose` do with the queue under their lock. -/
def takeAll (s : PumpState) : Abandoning × PumpState :=
  (⟨s.writes, false, s.completion.isSome⟩,
    { s with accepting := false, writes := [], dropped := s.dropped ++ s.writes })

/-- The lock of `Fail`. -/
def fail (s : PumpState) : PumpState :=
  let (abandoned, s) := s.takeAll
  { s with drainScheduled := false, failed := true, drain := .abandoning abandoned }

/-- The lock of `Dispose`. -/
def dispose (s : PumpState) : PumpState :=
  if s.disposed then s
  else
    let (abandoned, s) := s.takeAll
    { s with disposed := true, attached := false, disposing := some abandoned }

/-- A round of the loop over abandoned writes, up to its next access; `none` behind the loop. -/
def abandon (s : PumpState) (abandoned : Abandoning) : Option Abandoning × PumpState :=
  if abandoned.owes then (some { abandoned with owes := false }, s.releasePermit)
  else
    match abandoned.rest with
    | pending :: rest => (some { abandoned with rest := rest, owes := true }, s.settled pending false)
    | [] => (none, if abandoned.completes then s.trySetCompletion false else s)

/-- **A step of the pump.** -/
def step (s : PumpState) : PumpEvent → Option PumpState
  | .call write => if write.call ∈ s.called then none else some (s.call write)
  | .cancel write =>
    if write ∈ s.waiting then some { s with waiting := s.waiting.erase write } else none
  | .pass write =>
    if write ∈ s.waiting ∧ 0 < s.available then
      some
        { s with
          available := s.available - 1
          waiting := s.waiting.erase write
          admitted := s.admitted ++ [write]
          passed := s.passed ++ [write] }
    else none
  | .enter write throws => if write ∈ s.admitted then some (s.enter write throws) else none
  | .leave write =>
    if write ∈ s.throwing then
      some ({ s with throwing := s.throwing.erase write }.releasePermit.settled write false)
    else none
  | .completeAsync throws => some (s.completeAsync throws)
  | .dispose => some s.dispose
  | .disposeRound =>
    match s.disposing with
    | some abandoned =>
      let (next, s) := s.abandon abandoned
      some { s with disposing := next }
    | none => none
  | .dispatch =>
    if s.drain = .idle ∧ 0 < s.scheduled then
      some { s with drain := .looking, scheduled := s.scheduled - 1 }
    else none
  | .look => if s.drain = .looking then some s.look else none
  | .commit success =>
    match s.drain with
    | .committing pending attached => some (s.commit pending attached success)
    | _ => none
  | .settle =>
    match s.drain with
    | .settling pending success => some { s.settled pending success with drain := .releasing success }
    | _ => none
  | .release =>
    match s.drain with
    | .releasing success =>
      some { s.releasePermit with drain := if success then .looking else .failing }
    | _ => none
  | .fail => if s.drain = .failing then some s.fail else none
  | .failRound =>
    match s.drain with
    | .abandoning abandoned =>
      let (next, s) := s.abandon abandoned
      some { s with drain := next.elim .idle .abandoning }
    | _ => none
  | .endStream success =>
    match s.drain with
    | .ending attached =>
      if attached then
        some { { s with ends := s.ends + 1 }.trySetCompletion success with drain := .idle }
      else some { s.trySetCompletion true with drain := .idle }
    | _ => none

/-! ### The permits -/

/-- The writes that are not settled. -/
def held (s : PumpState) : List PumpWrite :=
  s.drain.inFlight ++ (unsettled s.drain.loop ++ (unsettled s.disposing ++ s.writes))

/-- The permits of writes that are settled and to be released. -/
def owed (s : PumpState) : ℕ :=
  s.drain.debt + (debt s.drain.loop + debt s.disposing)

/-- The permits of the semaphore and the calls that got one. -/
def permits (s : PumpState) : Permits PumpWrite Bool where
  available := s.available
  entering := s.admitted
  leaving := s.throwing
  held := s.held
  owed := s.owed
  finished := s.outcomes
  passed := s.passed

/-- Every permit is free, with a call or with a write. -/
abbrev Sound (s : PumpState) : Prop := s.permits.Sound maximumQueuedChunks

/-! ### What a step can do -/

variable {s s' : PumpState} {e : PumpEvent}

/-- The steps of a pump whose permits are in order, each with the state it needs and the state it
leads to. -/
inductive Acts (s : PumpState) : PumpEvent → PumpState → Prop
  | refused {write : PumpWrite} (new : write.call ∉ s.called) :
      Acts s (.call write) { s with called := s.called ++ [write.call] }
  | call {write : PumpWrite} (new : write.call ∉ s.called) :
      Acts s (.call write)
        { s with called := s.called ++ [write.call], waiting := s.waiting ++ [write] }
  | cancel {write : PumpWrite} (mem : write ∈ s.waiting) :
      Acts s (.cancel write) { s with waiting := s.waiting.erase write }
  | pass {write : PumpWrite} (mem : write ∈ s.waiting) (free : 0 < s.available) :
      Acts s (.pass write)
        { s with
          available := s.available - 1
          waiting := s.waiting.erase write
          admitted := s.admitted ++ [write]
          passed := s.passed ++ [write] }
  | enterClosed {write : PumpWrite} {throws : Bool} (mem : write ∈ s.admitted)
      (closed : s.disposed = true ∨ s.accepting = false) :
      Acts s (.enter write throws)
        { s with admitted := s.admitted.erase write, throwing := s.throwing ++ [write] }
  | enterQueued {write : PumpWrite} {throws : Bool} (mem : write ∈ s.admitted)
      (accepting : s.accepting = true) (undisposed : s.disposed = false)
      (drainScheduled : s.drainScheduled = true) :
      Acts s (.enter write throws)
        { s with
          admitted := s.admitted.erase write
          writes := s.writes ++ [write]
          enqueued := s.enqueued ++ [write] }
  | enterScheduled {write : PumpWrite} {throws : Bool} (mem : write ∈ s.admitted)
      (accepting : s.accepting = true) (undisposed : s.disposed = false)
      (drainScheduled : s.drainScheduled = false) :
      Acts s (.enter write throws)
        { s with
          admitted := s.admitted.erase write
          writes := s.writes ++ [write]
          enqueued := s.enqueued ++ [write]
          drainScheduled := true
          scheduled := s.scheduled + 1 }
  | enterRolledBack {write : PumpWrite} {throws : Bool} (mem : write ∈ s.admitted)
      (drainScheduled : s.drainScheduled = false) :
      Acts s (.enter write throws)
        { s with
          admitted := s.admitted.erase write
          writes := (s.writes ++ [write]).tail
          rollbacks := s.rollbacks ++ [(write, (s.writes ++ [write]).head?)]
          throwing := s.throwing ++ [write] }
  | leave {write : PumpWrite} (mem : write ∈ s.throwing) :
      Acts s (.leave write)
        { s with
          throwing := s.throwing.erase write
          available := s.available + 1
          outcomes := s.outcomes ++ [(write, false)] }
  | completedBefore {throws : Bool} : Acts s (.completeAsync throws) s
  | complete {throws : Bool} (unfailed : s.failed = false) (undisposed : s.disposed = false)
      (first : s.completion = none) (drainScheduled : s.drainScheduled = true) :
      Acts s (.completeAsync throws) { s with accepting := false, completion := some none }
  | completeScheduled {throws : Bool} (unfailed : s.failed = false)
      (undisposed : s.disposed = false) (first : s.completion = none)
      (drainScheduled : s.drainScheduled = false) :
      Acts s (.completeAsync throws)
        { s with
          accepting := false
          completion := some none
          drainScheduled := true
          scheduled := s.scheduled + 1 }
  | completeFailed {throws : Bool} (first : s.completion = none)
      (drainScheduled : s.drainScheduled = false) :
      Acts s (.completeAsync throws)
        { s with accepting := false, completion := some (some false), failed := true }
  | disposedBefore : Acts s .dispose s
  | dispose {completes : Bool} (undisposed : s.disposed = false) :
      Acts s .dispose
        { s with
          accepting := false
          writes := []
          dropped := s.dropped ++ s.writes
          disposed := true
          attached := false
          disposing := some ⟨s.writes, false, completes⟩ }
  | disposeRelease {rest : List PumpWrite} {completes : Bool}
      (loop : s.disposing = some ⟨rest, true, completes⟩) :
      Acts s .disposeRound
        { s with disposing := some ⟨rest, false, completes⟩, available := s.available + 1 }
  | disposeSettle {write : PumpWrite} {rest : List PumpWrite} {completes : Bool}
      (loop : s.disposing = some ⟨write :: rest, false, completes⟩) :
      Acts s .disposeRound
        { s with
          disposing := some ⟨rest, true, completes⟩
          outcomes := s.outcomes ++ [(write, false)] }
  | disposeEnd {completes : Bool} {completion : Option (Option Bool)}
      (loop : s.disposing = some ⟨[], false, completes⟩)
      (kept : completion.isSome = s.completion.isSome) :
      Acts s .disposeRound { s with disposing := none, completion := completion }
  | dispatch (drain : s.drain = .idle) (scheduled : 0 < s.scheduled) :
      Acts s .dispatch { s with drain := .looking, scheduled := s.scheduled - 1 }
  | lookDisposed (drain : s.drain = .looking) (disposed : s.disposed = true) :
      Acts s .look { s with drainScheduled := false, drain := .idle }
  | lookEmpty (drain : s.drain = .looking) (writes : s.writes = []) :
      Acts s .look { s with drainScheduled := false, drain := .idle }
  | lookEnd (drain : s.drain = .looking) (writes : s.writes = [])
      (undisposed : s.disposed = false) (accepting : s.accepting = false)
      (completion : s.completion.isSome = true) :
      Acts s .look { s with drainScheduled := false, drain := .ending s.attached }
  | lookTake {pending : PumpWrite} {rest : List PumpWrite} (drain : s.drain = .looking)
      (writes : s.writes = pending :: rest) (undisposed : s.disposed = false) :
      Acts s .look { s with writes := rest, drain := .committing pending s.attached }
  | commitDetached {pending : PumpWrite} {success : Bool}
      (drain : s.drain = .committing pending false) :
      Acts s (.commit success) { s with drain := .settling pending true }
  | commit {pending : PumpWrite} (drain : s.drain = .committing pending true) :
      Acts s (.commit true)
        { s with
          drain := .settling pending true
          reached := s.reached ++ [pending]
          written := s.written ++ [pending] }
  | commitFailed {pending : PumpWrite} (drain : s.drain = .committing pending true) :
      Acts s (.commit false)
        { s with drain := .settling pending false, reached := s.reached ++ [pending] }
  | settle {pending : PumpWrite} {success : Bool} (drain : s.drain = .settling pending success) :
      Acts s .settle
        { s with
          drain := .releasing success
          outcomes := s.outcomes ++ [(pending, success)] }
  | release (drain : s.drain = .releasing true) :
      Acts s .release { s with drain := .looking, available := s.available + 1 }
  | releaseFailed (drain : s.drain = .releasing false) :
      Acts s .release { s with drain := .failing, available := s.available + 1 }
  | fail {completes : Bool} (drain : s.drain = .failing) :
      Acts s .fail
        { s with
          accepting := false
          writes := []
          dropped := s.dropped ++ s.writes
          drainScheduled := false
          failed := true
          drain := .abandoning ⟨s.writes, false, completes⟩ }
  | failRelease {rest : List PumpWrite} {completes : Bool}
      (loop : s.drain = .abandoning ⟨rest, true, completes⟩) :
      Acts s .failRound
        { s with drain := .abandoning ⟨rest, false, completes⟩, available := s.available + 1 }
  | failSettle {write : PumpWrite} {rest : List PumpWrite} {completes : Bool}
      (loop : s.drain = .abandoning ⟨write :: rest, false, completes⟩) :
      Acts s .failRound
        { s with
          drain := .abandoning ⟨rest, true, completes⟩
          outcomes := s.outcomes ++ [(write, false)] }
  | failEnd {completes : Bool} {completion : Option (Option Bool)}
      (loop : s.drain = .abandoning ⟨[], false, completes⟩)
      (kept : completion.isSome = s.completion.isSome) :
      Acts s .failRound { s with drain := .idle, completion := completion }
  | endStream {success : Bool} {completion : Option (Option Bool)}
      (drain : s.drain = .ending true) (kept : completion.isSome = s.completion.isSome) :
      Acts s (.endStream success)
        { s with drain := .idle, completion := completion, ends := s.ends + 1 }
  | endDetached {success : Bool} {completion : Option (Option Bool)}
      (drain : s.drain = .ending false) (kept : completion.isSome = s.completion.isSome) :
      Acts s (.endStream success) { s with drain := .idle, completion := completion }

/-- Who owes a permit finds the semaphore below its maximum. -/
theorem releasePermit_eq (hfree : s.available < maximumQueuedChunks) :
    s.releasePermit = { s with available := s.available + 1 } :=
  if_pos hfree

theorem acts_of_enter {write : PumpWrite} {throws : Bool} (hmem : write ∈ s.admitted) :
    Acts s (.enter write throws) (s.enter write throws) := by
  unfold enter
  dsimp only
  split
  · next hclosed =>
    refine .enterClosed hmem ?_
    simpa using hclosed
  next hopen =>
  simp only [Bool.or_eq_true, not_or, Bool.not_eq_true, Bool.not_eq_false'] at hopen
  by_cases hscheduled : s.drainScheduled = true
  · simp only [scheduleDrainLocked, hscheduled, if_true]
    simpa only [hscheduled] using Acts.enterQueued hmem hopen.2 hopen.1 hscheduled
  · have hunscheduled : s.drainScheduled = false := by simpa using hscheduled
    cases throws with
    | true =>
      simp only [scheduleDrainLocked, hunscheduled, Bool.false_eq_true, if_false, if_true]
      simpa only [hunscheduled] using Acts.enterRolledBack hmem hunscheduled
    | false =>
      simp only [scheduleDrainLocked, hunscheduled, Bool.false_eq_true, if_false]
      exact .enterScheduled hmem hopen.2 hopen.1 hunscheduled

theorem acts_of_completeAsync (throws : Bool) :
    Acts s (.completeAsync throws) (s.completeAsync throws) := by
  unfold completeAsync
  split
  · exact .completedBefore
  next hfirst =>
  simp only [Bool.or_eq_true, not_or, Bool.not_eq_true, Option.isSome_eq_false_iff,
    Option.isNone_iff_eq_none] at hfirst
  obtain ⟨⟨hundisposed, hunfailed⟩, hcompletion⟩ := hfirst
  by_cases hscheduled : s.drainScheduled = true
  · simp only [scheduleDrainLocked, hscheduled, if_true]
    simpa only [hscheduled] using Acts.complete hunfailed hundisposed hcompletion hscheduled
  · have hunscheduled : s.drainScheduled = false := by simpa using hscheduled
    cases throws with
    | true =>
      simp only [scheduleDrainLocked, hunscheduled, Bool.false_eq_true, if_false, if_true]
      simpa only [hunscheduled] using Acts.completeFailed hcompletion hunscheduled
    | false =>
      simp only [scheduleDrainLocked, hunscheduled, Bool.false_eq_true, if_false]
      exact .completeScheduled hunfailed hundisposed hcompletion hunscheduled

theorem acts_of_look (hdrain : s.drain = .looking) : Acts s .look s.look := by
  unfold look
  split
  · next hdisposed => exact .lookDisposed hdrain hdisposed
  next hundisposed =>
  have hundisposed : s.disposed = false := by simpa using hundisposed
  split
  · next hwrites =>
    by_cases hends : (!s.accepting && s.completion.isSome) = true
    · simp only [hends, if_true]
      simp only [Bool.and_eq_true, Bool.not_eq_eq_eq_not, Bool.not_true] at hends
      simpa only [hwrites] using Acts.lookEnd hdrain hwrites hundisposed hends.1 hends.2
    · simp only [hends, Bool.false_eq_true, if_false]
      simpa only [hwrites] using Acts.lookEmpty hdrain hwrites
  · next pending rest hwrites => exact .lookTake hdrain hwrites hundisposed

theorem isSome_trySetCompletion (s : PumpState) (success : Bool) :
    (s.trySetCompletion success).completion.isSome = s.completion.isSome := by
  simp [trySetCompletion]

theorem acts_of_disposeRound (hi : Sound s) {abandoned : Abandoning}
    (hloop : s.disposing = some abandoned) :
    Acts s .disposeRound
      { (s.abandon abandoned).2 with disposing := (s.abandon abandoned).1 } := by
  obtain ⟨rest, owes, completes⟩ := abandoned
  cases owes with
  | true =>
    have howes : 0 < s.owed := by
      simp only [owed, debt, hloop, Option.any_some, if_true]
      omega
    simp only [abandon, if_true, releasePermit_eq (hi.lt_of_owed howes)]
    exact .disposeRelease hloop
  | false =>
    cases rest with
    | cons write rest => exact .disposeSettle hloop
    | nil =>
      cases completes with
      | true => exact .disposeEnd hloop (isSome_trySetCompletion s false)
      | false => exact .disposeEnd hloop rfl

theorem acts_of_failRound (hi : Sound s) {abandoned : Abandoning}
    (hloop : s.drain = .abandoning abandoned) :
    Acts s .failRound
      { (s.abandon abandoned).2 with drain := (s.abandon abandoned).1.elim .idle .abandoning } := by
  obtain ⟨rest, owes, completes⟩ := abandoned
  cases owes with
  | true =>
    have howes : 0 < s.owed := by
      simp only [owed, DrainState.loop, debt, hloop, Option.any_some, if_true]
      omega
    simp only [abandon, if_true, releasePermit_eq (hi.lt_of_owed howes)]
    exact .failRelease hloop
  | false =>
    cases rest with
    | cons write rest => exact .failSettle hloop
    | nil =>
      cases completes with
      | true => exact .failEnd hloop (isSome_trySetCompletion s false)
      | false => exact .failEnd hloop rfl

/-- **Inversion of a step.** -/
theorem acts_of_step (hi : Sound s) (h : s.step e = some s') : Acts s e s' := by
  cases e with
  | call write =>
    obtain ⟨hnew, ⟨⟩⟩ := Option.ite_none_left_eq_some.mp h
    unfold call
    dsimp only
    split
    · exact .refused hnew
    split
    · exact .refused hnew
    split
    · exact .refused hnew
    · exact .call hnew
  | cancel write =>
    obtain ⟨hmem, ⟨⟩⟩ := Option.ite_none_right_eq_some.mp h
    exact .cancel hmem
  | pass write =>
    obtain ⟨⟨hmem, hfree⟩, ⟨⟩⟩ := Option.ite_none_right_eq_some.mp h
    exact .pass hmem hfree
  | enter write throws =>
    obtain ⟨hmem, ⟨⟩⟩ := Option.ite_none_right_eq_some.mp h
    exact acts_of_enter hmem
  | leave write =>
    obtain ⟨hmem, ⟨⟩⟩ := Option.ite_none_right_eq_some.mp h
    have hfree : s.available < maximumQueuedChunks := hi.lt_of_leaving hmem
    simp only [releasePermit, hfree, if_true]
    exact .leave hmem
  | completeAsync throws =>
    obtain rfl := Option.some.inj h
    exact acts_of_completeAsync throws
  | dispose =>
    obtain rfl := Option.some.inj h
    unfold dispose
    split
    · exact .disposedBefore
    · next hundisposed => exact .dispose (by simpa using hundisposed)
  | disposeRound =>
    simp only [step] at h
    split at h
    · next abandoned hloop =>
      obtain rfl := Option.some.inj h
      exact acts_of_disposeRound hi hloop
    · cases h
  | dispatch =>
    obtain ⟨⟨hdrain, hscheduled⟩, ⟨⟩⟩ := Option.ite_none_right_eq_some.mp h
    exact .dispatch hdrain hscheduled
  | look =>
    obtain ⟨hdrain, ⟨⟩⟩ := Option.ite_none_right_eq_some.mp h
    exact acts_of_look hdrain
  | commit success =>
    simp only [step] at h
    split at h
    · next pending attached hdrain =>
      obtain rfl := Option.some.inj h
      cases attached with
      | false => exact .commitDetached hdrain
      | true =>
        cases success with
        | true => exact .commit hdrain
        | false => exact .commitFailed hdrain
    · cases h
  | settle =>
    simp only [step] at h
    split at h
    · next pending success hdrain =>
      obtain rfl := Option.some.inj h
      exact .settle hdrain
    · cases h
  | release =>
    simp only [step] at h
    split at h
    · next success hdrain =>
      obtain rfl := Option.some.inj h
      have howes : 0 < s.owed := by
        simp only [owed, DrainState.debt, hdrain]
        omega
      rw [releasePermit_eq (hi.lt_of_owed howes)]
      cases success with
      | true => exact .release hdrain
      | false => exact .releaseFailed hdrain
    · cases h
  | fail =>
    obtain ⟨hdrain, ⟨⟩⟩ := Option.ite_none_right_eq_some.mp h
    exact .fail hdrain
  | failRound =>
    simp only [step] at h
    split at h
    · next abandoned hloop =>
      obtain rfl := Option.some.inj h
      exact acts_of_failRound hi hloop
    · cases h
  | endStream success =>
    simp only [step] at h
    split at h
    · next attached hdrain =>
      cases attached with
      | true =>
        obtain rfl := Option.some.inj h
        exact .endStream hdrain (isSome_trySetCompletion s success)
      | false =>
        obtain rfl := Option.some.inj h
        exact .endDetached hdrain (isSome_trySetCompletion s true)
    · cases h

end PumpState

end VT7.Session
