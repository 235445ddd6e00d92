import Mathlib.Data.List.Nodup
import Mathlib.Data.List.Pairwise
import VT7.Dotnet.Text
import VT7.Lib.Run

/-!
# The outbound queue of a session

Any thread puts operations into a `SessionOutboundQueue`; one worker takes them out and hands them to
the sink.  Two semaphores go with the list of pending operations: `_slots` counts the free places,
`_available` what the worker may take, and one permit more once the queue is completed.  A resize
replaces a resize that is the last pending operation and touches neither.

The machine interleaves the callers with the worker, which is split at its awaits and at its lock.
`calls`, `sunk`, `completions` and `overReleased` are the record of the run; no step reads them.

`outbound_delivery` says what the sink gets: everything that was accepted, once and in order, and its
`CompleteAsync` behind all of it.
-/

namespace VT7.Session

open VT7.Dotnet VT7.Lib

inductive SessionOutboundKind
  | inputBytes
  | interrupt
  | breakSignal
  | focus
  | resize
  | paste
  | terminalReply
  deriving DecidableEq

inductive SessionEnqueueResult
  | accepted
  | coalesced
  | staleGeneration
  | closed
  | full
  deriving DecidableEq

/-- An operation; `object` tells the objects of the program apart. -/
structure SessionOutboundOperation where
  object : ℕ
  kind : SessionOutboundKind
  bytes : Bytes := []
  focused : Bool := false
  columns : ℕ := 0
  rows : ℕ := 0
  pixelWidth : ℕ := 0
  pixelHeight : ℕ := 0
  generation : ℤ := 0
  sequence : ℕ := 0
  deriving DecidableEq

def SessionOutboundOperation.stamp (operation : SessionOutboundOperation) (generation : ℤ)
    (sequence : ℕ) : SessionOutboundOperation :=
  { operation with generation := generation, sequence := sequence }

/-- `long.MaxValue`. -/
def maximumSequence : ℕ := 2 ^ 63 - 1

/-- The fields of a `SessionOutboundQueue`.  `_available` counts without a bound: its own maximum is
`int.MaxValue`, more than the operations a process can hold. -/
structure OutboundQueue where
  generation : ℤ
  /-- The maximum of `_slots`. -/
  capacity : ℕ
  pending : List SessionOutboundOperation
  available : ℕ
  slots : ℕ
  nextSequence : ℕ
  accepting : Bool
  disposed : Bool
  deriving DecidableEq

namespace OutboundQueue

/-- The constructor. -/
def create (generation : ℤ) (capacity : ℕ) : OutboundQueue where
  generation := generation
  capacity := capacity
  pending := []
  available := 0
  slots := capacity
  nextSequence := 0
  accepting := true
  disposed := false

/-- `TryEnqueue`: its result, the operation, which it may stamp, and the queue.  It throws when the
sequence overflows. -/
def tryEnqueue (q : OutboundQueue) (generation : ℤ) (operation : SessionOutboundOperation) :
    Option SessionEnqueueResult × SessionOutboundOperation × OutboundQueue :=
  if q.disposed || !q.accepting then (some .closed, operation, q)
  else if generation ≠ q.generation then (some .staleGeneration, operation, q)
  else if q.nextSequence = maximumSequence then (none, operation, q)
  else
    let sequence := q.nextSequence + 1
    let q := { q with nextSequence := sequence }
    let stamped := operation.stamp q.generation sequence
    if operation.kind = .resize ∧ q.pending.getLast?.any (·.kind = .resize) then
      (some .coalesced, stamped, { q with pending := q.pending.dropLast ++ [stamped] })
    else if q.slots = 0 then (some .full, operation, q)
    else
      (some .accepted, stamped,
        { q with
          slots := q.slots - 1
          pending := q.pending ++ [stamped]
          available := q.available + 1 })

/-- `CompleteAsync` up to the task it returns. -/
def completeAsync (q : OutboundQueue) : OutboundQueue :=
  if q.disposed then q
  else if q.accepting then { q with accepting := false, available := q.available + 1 }
  else q

/-- `Dispose` up to its wait for the worker. -/
def dispose (q : OutboundQueue) : OutboundQueue :=
  if q.disposed then q
  else
    { q with disposed := true, accepting := false, pending := [], available := q.available + 1 }

end OutboundQueue

/-- Where `ProcessAsync` stands. -/
inductive OutboundWorker
  /-- Awaiting `_available`. -/
  | waiting
  /-- Before the lock, with a permit. -/
  | taking
  /-- Behind the lock, with an operation. -/
  | holding (operation : SessionOutboundOperation)
  /-- Awaiting the sink's `WriteAsync`. -/
  | writing
  /-- Behind the loop. -/
  | leaving
  /-- Awaiting the sink's `CompleteAsync`. -/
  | completing
  | finished
  | canceled
  | faulted
  deriving DecidableEq

/-- The operation the worker has taken and not yet handed to the sink. -/
def OutboundWorker.held : OutboundWorker → List SessionOutboundOperation
  | .holding operation => [operation]
  | _ => []

/-- The worker is in the loop. -/
def OutboundWorker.looping : OutboundWorker → Bool
  | .waiting | .taking | .holding _ | .writing => true
  | _ => false

/-- A call of `TryEnqueue`, with its operation as the call left it. -/
structure EnqueueCall where
  operation : SessionOutboundOperation
  result : Option SessionEnqueueResult
  deriving DecidableEq

/-- The call returned `Accepted` or `Coalesced`. -/
def EnqueueCall.taken (call : EnqueueCall) : Prop :=
  call.result = some .accepted ∨ call.result = some .coalesced

instance (call : EnqueueCall) : Decidable call.taken :=
  inferInstanceAs (Decidable (_ ∨ _))

structure OutboundState where
  queue : OutboundQueue
  worker : OutboundWorker
  calls : List EnqueueCall
  /-- The operations handed to the sink's `WriteAsync`. -/
  sunk : List SessionOutboundOperation
  /-- The calls of the sink's `CompleteAsync`. -/
  completions : ℕ
  /-- A `Release` of `_slots` found it full. -/
  overReleased : Bool
  deriving DecidableEq

inductive OutboundEvent
  | tryEnqueue (generation : ℤ) (operation : SessionOutboundOperation)
  | completeAsync
  | dispose
  /-- The worker's `WaitAsync` returns. -/
  | wait
  /-- The worker's `WaitAsync` throws: the token is cancelled. -/
  | cancel
  /-- The worker's lock. -/
  | take
  /-- The worker calls the sink's `WriteAsync`. -/
  | write
  /-- `WriteAsync` is done. -/
  | written
  /-- The worker calls the sink's `CompleteAsync`. -/
  | complete
  /-- `CompleteAsync` of the sink is done. -/
  | completed
  /-- The sink throws. -/
  | sinkThrows
  deriving DecidableEq

/-- The steps of the worker. -/
def OutboundEvent.worker : OutboundEvent → Bool
  | .tryEnqueue _ _ | .completeAsync | .dispose => false
  | _ => true

namespace OutboundState

/-- A new queue; its worker runs. -/
def start (generation : ℤ) (capacity : ℕ) : OutboundState where
  queue := .create generation capacity
  worker := .waiting
  calls := []
  sunk := []
  completions := 0
  overReleased := false

/-- `TryEnqueue`, with its result recorded. -/
def tryEnqueue (s : OutboundState) (generation : ℤ) (operation : SessionOutboundOperation) :
    OutboundState :=
  let result := s.queue.tryEnqueue generation operation
  { s with queue := result.2.2, calls := s.calls ++ [⟨result.2.1, result.1⟩] }

/-- The worker's exception handler. -/
def fault (s : OutboundState) : OutboundState :=
  { s with queue := { s.queue with accepting := false }, worker := .faulted }

/-- The worker's lock. -/
def take (s : OutboundState) : OutboundState :=
  match s.queue.pending with
  | operation :: rest =>
    let s : OutboundState := { s with queue := { s.queue with pending := rest } }
    -- `Release` throws when the semaphore is at its maximum
    if s.queue.slots = s.queue.capacity then { s.fault with overReleased := true }
    else
      { s with
        queue := { s.queue with slots := s.queue.slots + 1 }
        worker := .holding operation }
  | [] => if s.queue.accepting then { s with worker := .waiting } else { s with worker := .leaving }

/-- **A step of the queue.** -/
def step (s : OutboundState) : OutboundEvent → Option OutboundState
  | .tryEnqueue generation operation => some (s.tryEnqueue generation operation)
  | .completeAsync => some { s with queue := s.queue.completeAsync }
  | .dispose => some { s with queue := s.queue.dispose }
  | .wait =>
    if s.worker = .waiting ∧ 0 < s.queue.available then
      some
        { s with
          queue := { s.queue with available := s.queue.available - 1 }
          worker := .taking }
    else none
  | .cancel =>
    if s.worker = .waiting ∧ s.queue.disposed = true then some { s with worker := .canceled }
    else none
  | .take => if s.worker = .taking then some s.take else none
  | .write =>
    match s.worker with
    | .holding operation => some { s with worker := .writing, sunk := s.sunk ++ [operation] }
    | _ => none
  | .written => if s.worker = .writing then some { s with worker := .waiting } else none
  | .complete =>
    if s.worker = .leaving then
      some { s with worker := .completing, completions := s.completions + 1 }
    else none
  | .completed => if s.worker = .completing then some { s with worker := .finished } else none
  | .sinkThrows =>
    if s.worker = .writing ∨ s.worker = .completing then some s.fault else none

/-! ### What a step can do -/

/-- What the claims about a run assume: every operation is an object of its own, the sink does not
fail and nobody disposes the queue. -/
def Undisturbed (s : OutboundState) : OutboundEvent → Prop
  | .tryEnqueue _ operation => ∀ call ∈ s.calls, call.operation.object ≠ operation.object
  | .dispose | .sinkThrows => False
  | _ => True

instance (s : OutboundState) : (e : OutboundEvent) → Decidable (s.Undisturbed e)
  | .tryEnqueue _ operation =>
    inferInstanceAs (Decidable (∀ call ∈ s.calls, call.operation.object ≠ operation.object))
  | .dispose | .sinkThrows => inferInstanceAs (Decidable False)
  | .completeAsync | .wait | .cancel | .take | .write | .written | .complete | .completed =>
    inferInstanceAs (Decidable True)

variable {s s' : OutboundState} {e : OutboundEvent}

/-- The steps of a queue that is not disturbed, each with the state it needs and the state it leads
to. -/
inductive Acts (s : OutboundState) : OutboundEvent → OutboundState → Prop
  | refused {generation : ℤ} {operation : SessionOutboundOperation}
      {result : Option SessionEnqueueResult} {sequence : ℕ}
      (not_taken : ¬ (EnqueueCall.mk operation result).taken)
      (sequence_le : s.queue.nextSequence ≤ sequence) :
      Acts s (.tryEnqueue generation operation)
        { s with
          queue := { s.queue with nextSequence := sequence }
          calls := s.calls ++ [⟨operation, result⟩] }
  | accepted {generation : ℤ} {operation stamped : SessionOutboundOperation}
      (stamped_eq : stamped = operation.stamp s.queue.generation (s.queue.nextSequence + 1))
      (accepting : s.queue.accepting = true) (slots : 0 < s.queue.slots) :
      Acts s (.tryEnqueue generation operation)
        { s with
          queue :=
            { s.queue with
              nextSequence := s.queue.nextSequence + 1
              slots := s.queue.slots - 1
              pending := s.queue.pending ++ [stamped]
              available := s.queue.available + 1 }
          calls := s.calls ++ [⟨stamped, some .accepted⟩] }
  | coalesced {generation : ℤ} {operation stamped last : SessionOutboundOperation}
      {front : List SessionOutboundOperation}
      (stamped_eq : stamped = operation.stamp s.queue.generation (s.queue.nextSequence + 1))
      (accepting : s.queue.accepting = true) (resize : operation.kind = .resize)
      (pending : s.queue.pending = front ++ [last]) (last_resize : last.kind = .resize) :
      Acts s (.tryEnqueue generation operation)
        { s with
          queue :=
            { s.queue with
              nextSequence := s.queue.nextSequence + 1
              pending := front ++ [stamped] }
          calls := s.calls ++ [⟨stamped, some .coalesced⟩] }
  | completes (accepting : s.queue.accepting = true) :
      Acts s .completeAsync
        { s with
          queue := { s.queue with accepting := false, available := s.queue.available + 1 } }
  | completed_before : Acts s .completeAsync s
  | wait (worker : s.worker = .waiting) (available : 0 < s.queue.available) :
      Acts s .wait
        { s with
          queue := { s.queue with available := s.queue.available - 1 }
          worker := .taking }
  | cancel (disposed : s.queue.disposed = true) : Acts s .cancel { s with worker := .canceled }
  | take {operation : SessionOutboundOperation} {rest : List SessionOutboundOperation}
      (worker : s.worker = .taking) (pending : s.queue.pending = operation :: rest)
      (slots : s.queue.slots ≠ s.queue.capacity) :
      Acts s .take
        { s with
          queue := { s.queue with pending := rest, slots := s.queue.slots + 1 }
          worker := .holding operation }
  | overRelease {operation : SessionOutboundOperation} {rest : List SessionOutboundOperation}
      (pending : s.queue.pending = operation :: rest) (slots : s.queue.slots = s.queue.capacity) :
      Acts s .take
        { s with
          queue := { s.queue with pending := rest, accepting := false }
          worker := .faulted
          overReleased := true }
  | takeNothing (worker : s.worker = .taking) (pending : s.queue.pending = [])
      (accepting : s.queue.accepting = true) : Acts s .take { s with worker := .waiting }
  | leave (worker : s.worker = .taking) (pending : s.queue.pending = [])
      (accepting : s.queue.accepting = false) : Acts s .take { s with worker := .leaving }
  | write {operation : SessionOutboundOperation} (worker : s.worker = .holding operation) :
      Acts s .write { s with worker := .writing, sunk := s.sunk ++ [operation] }
  | written (worker : s.worker = .writing) : Acts s .written { s with worker := .waiting }
  | complete (worker : s.worker = .leaving) :
      Acts s .complete { s with worker := .completing, completions := s.completions + 1 }
  | completed (worker : s.worker = .completing) : Acts s .completed { s with worker := .finished }

/-- The last entry, when there is one and it is a resize. -/
theorem eq_append_of_any_getLast {pending : List SessionOutboundOperation}
    (h : pending.getLast?.any (·.kind = .resize) = true) :
    ∃ last, pending = pending.dropLast ++ [last] ∧ last.kind = .resize := by
  rcases List.eq_nil_or_concat pending with rfl | ⟨front, last, rfl⟩
  · simp at h
  · simp only [List.concat_eq_append, List.getLast?_append, List.getLast?_singleton, Option.some_or,
      Option.any_some, decide_eq_true_eq] at h
    exact ⟨last, by simp, h⟩

theorem acts_of_tryEnqueue (generation : ℤ) (operation : SessionOutboundOperation) :
    Acts s (.tryEnqueue generation operation) (s.tryEnqueue generation operation) := by
  unfold tryEnqueue OutboundQueue.tryEnqueue
  by_cases hclosed : (s.queue.disposed || !s.queue.accepting) = true
  · rw [if_pos hclosed]
    exact .refused (by simp [EnqueueCall.taken]) le_rfl
  rw [if_neg hclosed]
  have haccepting : s.queue.accepting = true := by simp_all
  by_cases hstale : generation ≠ s.queue.generation
  · rw [if_pos hstale]
    exact .refused (by simp [EnqueueCall.taken]) le_rfl
  rw [if_neg hstale]
  by_cases hoverflow : s.queue.nextSequence = maximumSequence
  · rw [if_pos hoverflow]
    exact .refused (by simp [EnqueueCall.taken]) le_rfl
  rw [if_neg hoverflow]
  dsimp only
  split
  · next hresize =>
    obtain ⟨last, hpending, hlast⟩ := eq_append_of_any_getLast hresize.2
    exact .coalesced rfl haccepting hresize.1 hpending hlast
  split
  · exact .refused (by simp [EnqueueCall.taken]) (Nat.le_succ _)
  · next hslots => exact .accepted rfl haccepting (Nat.pos_of_ne_zero hslots)

theorem acts_of_take (hworker : s.worker = .taking) : Acts s .take s.take := by
  unfold take
  split
  · next operation rest hpending =>
    dsimp only
    split
    · next hslots => exact .overRelease hpending hslots
    · next hslots => exact .take hworker hpending hslots
  · next hpending =>
    split
    · next haccepting => exact .takeNothing hworker hpending haccepting
    · next haccepting => exact .leave hworker hpending (by simpa using haccepting)

/-- **Inversion of a step.** -/
theorem acts_of_step (hgood : s.Undisturbed e) (h : s.step e = some s') : Acts s e s' := by
  cases e with
  | tryEnqueue generation operation =>
    obtain rfl := Option.some.inj h
    exact acts_of_tryEnqueue generation operation
  | completeAsync =>
    obtain rfl := Option.some.inj h
    unfold OutboundQueue.completeAsync
    split
    · exact .completed_before
    split
    · next haccepting => exact .completes haccepting
    · exact .completed_before
  | dispose | sinkThrows => exact hgood.elim
  | wait =>
    obtain ⟨⟨hworker, havailable⟩, ⟨⟩⟩ := Option.ite_none_right_eq_some.mp h
    exact .wait hworker havailable
  | cancel =>
    obtain ⟨⟨-, hdisposed⟩, ⟨⟩⟩ := Option.ite_none_right_eq_some.mp h
    exact .cancel hdisposed
  | take =>
    obtain ⟨hworker, ⟨⟩⟩ := Option.ite_none_right_eq_some.mp h
    exact acts_of_take hworker
  | write =>
    simp only [step] at h
    split at h
    · next operation hworker =>
      obtain rfl := Option.some.inj h
      exact .write hworker
    · cases h
  | written =>
    obtain ⟨hworker, ⟨⟩⟩ := Option.ite_none_right_eq_some.mp h
    exact .written hworker
  | complete =>
    obtain ⟨hworker, ⟨⟩⟩ := Option.ite_none_right_eq_some.mp h
    exact .complete hworker
  | completed =>
    obtain ⟨hworker, ⟨⟩⟩ := Option.ite_none_right_eq_some.mp h
    exact .completed hworker

/-! ### The semaphores -/

/-- The list and the two semaphores are in step. -/
structure Counted (s : OutboundState) : Prop where
  undisposed : s.queue.disposed = false
  slots : s.queue.slots + s.queue.pending.length = s.queue.capacity
  /-- One permit for each pending operation, and one more for the end of the loop. -/
  permits : s.queue.available + (if s.worker = .taking then 1 else 0) =
    s.queue.pending.length + (if s.queue.accepting = false ∧ s.worker.looping = true then 1 else 0)
  /-- The loop ends when nothing is pending and nothing can come. -/
  left : s.worker.looping = false → s.queue.accepting = false ∧ s.queue.pending = []
  running : s.worker ≠ .canceled ∧ s.worker ≠ .faulted
  completions : s.completions = if s.worker = .completing ∨ s.worker = .finished then 1 else 0
  neverOverReleased : s.overReleased = false

theorem counted_start (generation : ℤ) (capacity : ℕ) : Counted (start generation capacity) := by
  constructor <;> simp [start, OutboundQueue.create, OutboundWorker.looping]

theorem counted_of_acts (h : Acts s e s') (hi : Counted s) : Counted s' := by
  obtain ⟨hdisposed, hslots, hpermits, hleft, hrunning, hcompletions, hover⟩ := hi
  cases h with
  | refused | completed_before => exact ⟨hdisposed, hslots, hpermits, hleft, hrunning, hcompletions, hover⟩
  | accepted _ haccepting hfree =>
    have hloop : s.worker.looping = true := by
      by_contra hloop
      simp [haccepting] at hleft
      exact hloop hleft
    refine ⟨hdisposed, ?_, ?_, ?_, hrunning, hcompletions, hover⟩
    · simp
      omega
    · simp [haccepting] at hpermits ⊢
      omega
    · simp [hloop]
  | coalesced _ haccepting _ hpending _ =>
    refine ⟨hdisposed, ?_, ?_, ?_, hrunning, hcompletions, hover⟩
    · simpa [hpending] using hslots
    · simpa [hpending] using hpermits
    · simp_all
  | completes haccepting =>
    have hloop : s.worker.looping = true := by
      by_contra hloop
      simp [haccepting] at hleft
      exact hloop hleft
    refine ⟨hdisposed, hslots, ?_, ?_, hrunning, hcompletions, hover⟩
    · simp [haccepting] at hpermits
      simp [hloop]
      omega
    · simp [hloop]
  | wait hworker havailable =>
    refine ⟨hdisposed, hslots, ?_, ?_, ?_, ?_, hover⟩
    · simp [hworker, OutboundWorker.looping] at hpermits ⊢
      omega
    · simp [OutboundWorker.looping]
    · simp
    · simpa [hworker] using hcompletions
  | cancel hcancel => simp [hdisposed] at hcancel
  | take hworker hpending hroom =>
    refine ⟨hdisposed, ?_, ?_, ?_, ?_, ?_, hover⟩
    · simp [hpending] at hslots ⊢
      omega
    · simp [hworker, hpending, OutboundWorker.looping] at hpermits ⊢
      omega
    · simp [OutboundWorker.looping]
    · simp
    · simpa [hworker] using hcompletions
  | overRelease hpending hfull =>
    -- a pending operation occupies a slot
    simp [hpending] at hslots
    omega
  | takeNothing hworker hpending haccepting =>
    -- the permit stands for a pending operation
    simp [hworker, hpending, haccepting] at hpermits
  | leave hworker hpending haccepting =>
    refine ⟨hdisposed, hslots, ?_, ?_, ?_, ?_, hover⟩
    · simp [hworker, hpending, haccepting, OutboundWorker.looping] at hpermits ⊢
      omega
    · simp [hpending, haccepting]
    · simp
    · simpa [hworker] using hcompletions
  | write hworker | written hworker =>
    refine ⟨hdisposed, hslots, ?_, ?_, ?_, ?_, hover⟩
    · simpa [hworker, OutboundWorker.looping] using hpermits
    · simp [OutboundWorker.looping]
    · simp
    · simpa [hworker] using hcompletions
  | complete hworker | completed hworker =>
    refine ⟨hdisposed, hslots, ?_, ?_, ?_, ?_, hover⟩
    · simpa [hworker, OutboundWorker.looping] using hpermits
    · simpa [hworker, OutboundWorker.looping] using hleft
    · simp
    · simpa [hworker] using hcompletions

/-! ### The operations and their places -/

/-- Everything that was taken in and not replaced: handed to the sink, held by the worker or pending. -/
def placed (s : OutboundState) : List SessionOutboundOperation :=
  s.sunk ++ (s.worker.held ++ s.queue.pending)

/-- What a step does to the places: nothing, a new operation behind all others, or a new resize
instead of a resize that was the last pending operation. -/
inductive Places (s : OutboundState) : OutboundEvent → OutboundState → Prop
  | keep {e : OutboundEvent} {s' : OutboundState} (placed_eq : s'.placed = s.placed)
      (sequence_le : s.queue.nextSequence ≤ s'.queue.nextSequence)
      (calls : s'.calls = s.calls ∨ ∃ generation call, e = .tryEnqueue generation call.operation ∧
        ¬ call.taken ∧ s'.calls = s.calls ++ [call]) :
      Places s e s'
  | append {generation : ℤ} {operation stamped : SessionOutboundOperation} {s' : OutboundState}
      (stamped_eq : stamped = operation.stamp s.queue.generation (s.queue.nextSequence + 1))
      (sequence : s'.queue.nextSequence = s.queue.nextSequence + 1)
      (placed_eq : s'.placed = s.placed ++ [stamped])
      (calls : s'.calls = s.calls ++ [⟨stamped, some .accepted⟩]) :
      Places s (.tryEnqueue generation operation) s'
  | replace {generation : ℤ} {operation stamped last : SessionOutboundOperation}
      {front : List SessionOutboundOperation} {s' : OutboundState}
      (stamped_eq : stamped = operation.stamp s.queue.generation (s.queue.nextSequence + 1))
      (sequence : s'.queue.nextSequence = s.queue.nextSequence + 1)
      (resize : operation.kind = .resize) (last_resize : last.kind = .resize)
      (pending : s.queue.pending.getLast? = some last)
      (before : s.placed = front ++ [last]) (placed_eq : s'.placed = front ++ [stamped])
      (calls : s'.calls = s.calls ++ [⟨stamped, some .coalesced⟩]) :
      Places s (.tryEnqueue generation operation) s'

theorem places_of_acts (h : Acts s e s') (hi : Counted s) : Places s e s' := by
  cases h with
  | refused not_taken sequence_le =>
    exact .keep rfl sequence_le (.inr ⟨_, ⟨_, _⟩, rfl, not_taken, rfl⟩)
  | accepted stamped_eq => exact .append stamped_eq rfl (by simp [placed]) rfl
  | coalesced stamped_eq _ resize pending last_resize =>
    exact .replace stamped_eq rfl resize last_resize (by simp [pending])
      (by simp only [placed, pending, ← List.append_assoc]; rfl)
      (by simp only [placed, ← List.append_assoc]) rfl
  | completes | completed_before => exact .keep rfl le_rfl (.inl rfl)
  | wait hworker | takeNothing hworker | leave hworker | write hworker | written hworker | complete hworker
  | completed hworker => exact .keep (by simp [placed, hworker, OutboundWorker.held]) le_rfl (.inl rfl)
  | cancel hcancel => simp [hi.undisposed] at hcancel
  | take hworker hpending =>
    exact .keep (by simp [placed, hworker, hpending, OutboundWorker.held]) le_rfl (.inl rfl)
  | overRelease hpending hfull =>
    have hslots := hi.slots
    simp only [hpending, List.length_cons] at hslots
    omega

/-- The operations are in the order of their sequence numbers, and each comes from a call that took
it. -/
structure Ordered (s : OutboundState) : Prop where
  sorted : s.placed.Pairwise (·.sequence < ·.sequence)
  stamped : ∀ operation ∈ s.placed, operation.sequence ≤ s.queue.nextSequence
  callStamped : ∀ call ∈ s.calls, call.taken → call.operation.sequence ≤ s.queue.nextSequence
  distinct : s.calls.Pairwise (·.operation.object ≠ ·.operation.object)
  origin : ∀ operation ∈ s.placed, ∃ call ∈ s.calls, call.taken ∧ call.operation = operation

theorem ordered_start (generation : ℤ) (capacity : ℕ) : Ordered (start generation capacity) := by
  constructor <;> simp [start, OutboundQueue.create, placed, OutboundWorker.held]

/-- An operation with the next sequence number goes behind operations that were there before. -/
theorem Ordered.behind (hi : Ordered s) {kept : List SessionOutboundOperation}
    {stamped : SessionOutboundOperation} {result : SessionEnqueueResult}
    (hkept : kept.Sublist s.placed) (hsequence : stamped.sequence = s.queue.nextSequence + 1)
    (hnew : ∀ call ∈ s.calls, call.operation.object ≠ stamped.object)
    (htaken : (EnqueueCall.mk stamped (some result)).taken)
    (hnext : s'.queue.nextSequence = s.queue.nextSequence + 1)
    (hplaced : s'.placed = kept ++ [stamped])
    (hcalls : s'.calls = s.calls ++ [⟨stamped, some result⟩]) : Ordered s' where
  sorted := by
    rw [hplaced]
    refine List.pairwise_append.mpr ⟨hi.sorted.sublist hkept, List.pairwise_singleton _ _, ?_⟩
    intro a ha b hb
    have hle := hi.stamped a (hkept.subset ha)
    rw [List.mem_singleton.mp hb]
    omega
  stamped := by
    intro a ha
    rw [hplaced] at ha
    rcases List.mem_append.mp ha with ha | ha
    · have hle := hi.stamped a (hkept.subset ha)
      omega
    · rw [List.mem_singleton.mp ha]
      omega
  callStamped := by
    intro call hcall hcallTaken
    rw [hcalls] at hcall
    rcases List.mem_append.mp hcall with hcall | hcall
    · have hle := hi.callStamped call hcall hcallTaken
      omega
    · rw [List.mem_singleton.mp hcall]
      show stamped.sequence ≤ _
      omega
  distinct := by
    rw [hcalls]
    refine List.pairwise_append.mpr ⟨hi.distinct, List.pairwise_singleton _ _, ?_⟩
    intro a ha b hb
    rw [List.mem_singleton.mp hb]
    exact hnew a ha
  origin := by
    intro a ha
    rw [hplaced] at ha
    rw [hcalls]
    rcases List.mem_append.mp ha with ha | ha
    · obtain ⟨call, hcall, h⟩ := hi.origin a (hkept.subset ha)
      exact ⟨call, List.mem_append_left _ hcall, h⟩
    · exact ⟨_, List.mem_append_right _ (List.mem_singleton_self _), htaken, (List.mem_singleton.mp ha).symm⟩

theorem ordered_of_places (h : Places s e s') (hgood : s.Undisturbed e) (hi : Ordered s) :
    Ordered s' := by
  cases h with
  | keep placed_eq sequence_le calls =>
    refine ⟨placed_eq ▸ hi.sorted, ?_, ?_, ?_, ?_⟩
    · intro operation hmem
      exact le_trans (hi.stamped operation (placed_eq ▸ hmem)) sequence_le
    · intro call hcall htaken
      rcases calls with heq | ⟨_, call', _, hrefused, heq⟩
      · exact le_trans (hi.callStamped call (heq ▸ hcall) htaken) sequence_le
      · rw [heq] at hcall
        rcases List.mem_append.mp hcall with hcall | hcall
        · exact le_trans (hi.callStamped call hcall htaken) sequence_le
        · exact absurd (List.mem_singleton.mp hcall ▸ htaken) hrefused
    · rcases calls with heq | ⟨_, call', rfl, _, heq⟩
      · exact heq ▸ hi.distinct
      · rw [heq]
        refine List.pairwise_append.mpr ⟨hi.distinct, List.pairwise_singleton _ _, ?_⟩
        intro a ha b hb
        rw [List.mem_singleton.mp hb]
        exact hgood a ha
    · intro operation hmem
      obtain ⟨call, hcall, h⟩ := hi.origin operation (placed_eq ▸ hmem)
      refine ⟨call, ?_, h⟩
      rcases calls with heq | ⟨_, _, _, _, heq⟩
      · exact heq ▸ hcall
      · exact heq ▸ List.mem_append_left _ hcall
  | append stamped_eq sequence placed_eq calls =>
    exact hi.behind (List.Sublist.refl _) (by rw [stamped_eq]; rfl) (by rw [stamped_eq]; exact hgood)
      (.inl rfl) sequence placed_eq calls
  | replace stamped_eq sequence _ _ _ before placed_eq calls =>
    exact hi.behind (before ▸ List.sublist_append_left _ _) (by rw [stamped_eq]; rfl)
      (by rw [stamped_eq]; exact hgood) (.inr rfl) sequence placed_eq calls

/-! ### Runs -/

/-- What every undisturbed run keeps. -/
structure OutboundInv (s : OutboundState) : Prop where
  counted : Counted s
  ordered : Ordered s

theorem outboundInv_of_step (hgood : s.Undisturbed e) (h : s.step e = some s') (hi : OutboundInv s) :
    OutboundInv s' where
  counted := counted_of_acts (acts_of_step hgood h) hi.counted
  ordered := ordered_of_places (places_of_acts (acts_of_step hgood h) hi.counted) hgood hi.ordered

variable {generation : ℤ} {capacity : ℕ} {events : List OutboundEvent}

theorem run_outboundInv (hgood : Run.Along step Undisturbed (start generation capacity) events)
    (hrun : Run.run step (start generation capacity) events = some s) : OutboundInv s :=
  Run.run_invariant_along (fun _ _ _ => outboundInv_of_step) hgood hrun
    ⟨counted_start generation capacity, ordered_start generation capacity⟩

/-- In the run a resize came while the operation, a resize too, was the last pending one. -/
def Superseded (generation : ℤ) (capacity : ℕ) (events : List OutboundEvent)
    (operation : SessionOutboundOperation) : Prop :=
  ∃ before later after s g, events = before ++ .tryEnqueue g later :: after ∧
    Run.run step (start generation capacity) before = some s ∧
    s.queue.pending.getLast? = some operation ∧ operation.kind = .resize ∧ later.kind = .resize

/-- An operation leaves its place only for a later resize. -/
theorem superseded_of_places (h : Places s e s') {call : EnqueueCall} (htaken : call.taken)
    (hcall : call ∈ s'.calls) (hgone : call.operation ∉ s'.placed)
    (hbefore : call ∈ s.calls → call.operation ∈ s.placed) :
    ∃ g later, e = .tryEnqueue g later ∧ s.queue.pending.getLast? = some call.operation ∧
      call.operation.kind = .resize ∧ later.kind = .resize := by
  cases h with
  | keep placed_eq _ calls =>
    rw [placed_eq] at hgone
    rcases calls with heq | ⟨_, call', _, hrefused, heq⟩
    · exact absurd (hbefore (heq ▸ hcall)) hgone
    · rw [heq] at hcall
      rcases List.mem_append.mp hcall with hcall | hcall
      · exact absurd (hbefore hcall) hgone
      · exact absurd (List.mem_singleton.mp hcall ▸ htaken) hrefused
  | append _ _ placed_eq calls =>
    rw [placed_eq, List.mem_append, not_or] at hgone
    rw [calls] at hcall
    rcases List.mem_append.mp hcall with hcall | hcall
    · exact absurd (hbefore hcall) hgone.1
    · exact absurd (by simp [List.mem_singleton.mp hcall]) hgone.2
  | replace _ _ resize last_resize pending before placed_eq calls =>
    rw [placed_eq, List.mem_append, not_or] at hgone
    rw [calls] at hcall
    rcases List.mem_append.mp hcall with hcall | hcall
    · rcases List.mem_append.mp (before ▸ hbefore hcall) with hmem | hmem
      · exact absurd hmem hgone.1
      · have hlast := List.mem_singleton.mp hmem
        exact ⟨_, _, rfl, hlast ▸ pending, hlast ▸ last_resize, resize⟩
    · exact absurd (by simp [List.mem_singleton.mp hcall]) hgone.2

/-- **Nothing is lost.** -/
theorem placed_or_superseded
    (hgood : Run.Along step Undisturbed (start generation capacity) events)
    (hrun : Run.run step (start generation capacity) events = some s) {call : EnqueueCall}
    (hcall : call ∈ s.calls) (htaken : call.taken) :
    call.operation ∈ s.placed ∨
      (call.operation ∉ s.placed ∧ Superseded generation capacity events call.operation) := by
  by_cases hmem : call.operation ∈ s.placed
  · exact .inl hmem
  have hturn := Run.run_turn (P := fun s => call ∈ s.calls ∧ call.operation ∉ s.placed) hgood hrun
    (by simp [start]) ⟨hcall, hmem⟩
  obtain ⟨before, e, after, s₁, s₂, hevents, hgood₁, hrun₁, hgoodE, hstep, hnot, hcall₂, hgone⟩ := hturn
  have hi := run_outboundInv hgood₁ hrun₁
  have hplaces := places_of_acts (acts_of_step hgoodE hstep) hi.counted
  obtain ⟨g, later, rfl, hlast, hkind, hlater⟩ :=
    superseded_of_places hplaces htaken hcall₂ hgone (by simpa using hnot)
  exact .inr ⟨hmem, before, later, after, s₁, g, hevents, hrun₁, hlast, hkind, hlater⟩

/-! ### Progress -/

/-- How many steps the worker still takes behind the pending operations. -/
def remaining : OutboundWorker → ℕ
  | .holding _ => 6
  | .writing => 5
  | .waiting => 4
  | .taking => 3
  | .leaving => 2
  | .completing => 1
  | _ => 0

/-- How many steps the worker takes for the pending operations that satisfy `p`, and to its end. -/
def work (p : SessionOutboundOperation → Bool) (s : OutboundState) : ℕ :=
  4 * s.queue.pending.countP p + remaining s.worker

theorem work_of_acts {p : SessionOutboundOperation → Bool} (h : Acts s e s') (hi : Counted s)
    (hnew : ∀ operation, s.queue.accepting = true → operation.sequence = s.queue.nextSequence + 1 →
      p operation = false)
    (hhead : ∀ operation rest, s.worker = .taking → s.queue.pending = operation :: rest →
      p operation = true) :
    s'.work p + (if e.worker then 1 else 0) ≤ s.work p := by
  cases h with
  | refused | completes => simp [work, OutboundEvent.worker]
  | accepted stamped_eq haccepting =>
    have hp := hnew _ haccepting (congrArg (·.sequence) stamped_eq)
    simp [work, OutboundEvent.worker, List.countP_append, hp]
  | coalesced stamped_eq haccepting _ hpending =>
    have hp := hnew _ haccepting (congrArg (·.sequence) stamped_eq)
    simp [work, OutboundEvent.worker, List.countP_append, hp, hpending]
  | completed_before => simp [OutboundEvent.worker]
  | cancel hcancel => simp [hi.undisposed] at hcancel
  | take hworker hpending =>
    have hp := hhead _ _ hworker hpending
    simp [work, OutboundEvent.worker, remaining, hworker, hpending, hp]
    omega
  | overRelease hpending hfull =>
    have hslots := hi.slots
    simp only [hpending, List.length_cons] at hslots
    omega
  | takeNothing hworker hpending haccepting =>
    have hpermits := hi.permits
    simp [hworker, hpending, haccepting] at hpermits
  | wait hworker | leave hworker | write hworker | written hworker | complete hworker
  | completed hworker => simp [work, OutboundEvent.worker, remaining, hworker]

/-- An operation up to a sequence number has not reached the sink. -/
def Unsunk (sequence : ℕ) (s : OutboundState) : Prop :=
  ∃ operation ∈ s.worker.held ++ s.queue.pending, operation.sequence ≤ sequence

theorem Ordered.unplaced_sorted (hi : Ordered s) :
    (s.worker.held ++ s.queue.pending).Pairwise (·.sequence < ·.sequence) :=
  (List.pairwise_append.mp hi.sorted).2.1

/-- What has not reached the sink had not before the step, and the worker is a step nearer to it. -/
theorem unsunk_of_acts {sequence : ℕ} (h : Acts s e s') (hi : OutboundInv s)
    (hsequence : sequence ≤ s.queue.nextSequence) (hunsunk : Unsunk sequence s') :
    Unsunk sequence s ∧
      s'.work (·.sequence ≤ sequence) + (if e.worker then 1 else 0) ≤
        s.work (·.sequence ≤ sequence) := by
  -- the operations behind an early one the worker takes next
  have hbefore : Unsunk sequence s := by
    obtain ⟨operation, hmem, hle⟩ := hunsunk
    cases h with
    | accepted stamped_eq =>
      refine ⟨operation, ?_, hle⟩
      simp only [List.mem_append, List.mem_singleton] at hmem ⊢
      rcases hmem with hmem | hmem | rfl
      · exact .inl hmem
      · exact .inr hmem
      · rw [stamped_eq] at hle
        exact absurd hle (by simp only [SessionOutboundOperation.stamp]; omega)
    | coalesced stamped_eq _ _ hpending =>
      refine ⟨operation, ?_, hle⟩
      simp only [hpending, List.mem_append, List.mem_singleton] at hmem ⊢
      rcases hmem with hmem | hmem | rfl
      · exact .inl hmem
      · exact .inr (.inl hmem)
      · rw [stamped_eq] at hle
        exact absurd hle (by simp only [SessionOutboundOperation.stamp]; omega)
    | refused | completes | completed_before => exact ⟨operation, hmem, hle⟩
    | overRelease hpending =>
      refine ⟨operation, ?_, hle⟩
      simp only [OutboundWorker.held, List.nil_append] at hmem
      simp [hpending, hmem]
    | cancel | write =>
      refine ⟨operation, ?_, hle⟩
      simp only [OutboundWorker.held, List.nil_append] at hmem
      simp [hmem]
    | take hworker hpending =>
      refine ⟨operation, ?_, hle⟩
      simpa [hworker, hpending, OutboundWorker.held] using hmem
    | wait hworker | takeNothing hworker | leave hworker | written hworker | complete hworker
    | completed hworker =>
      refine ⟨operation, ?_, hle⟩
      simpa [hworker, OutboundWorker.held] using hmem
  refine ⟨hbefore, work_of_acts h hi.counted ?_ ?_⟩
  · intro operation _ hnew
    simp only [decide_eq_false_iff_not]
    omega
  · intro operation rest hworker hpending
    obtain ⟨early, hmem, hle⟩ := hbefore
    have hsorted := hi.ordered.unplaced_sorted
    simp only [hworker, hpending, OutboundWorker.held, List.nil_append, List.mem_cons] at hmem hsorted
    simp only [decide_eq_true_eq]
    rcases hmem with rfl | hmem
    · exact hle
    · have hlt := (List.pairwise_cons.mp hsorted).1 early hmem
      omega

theorem nextSequence_le_of_places (h : Places s e s') :
    s.queue.nextSequence ≤ s'.queue.nextSequence := by
  cases h with
  | keep _ sequence_le => exact sequence_le
  | append | replace => omega

theorem work_le (p : SessionOutboundOperation → Bool) : s.work p ≤ s.work fun _ => true := by
  have hle := List.countP_le_length (p := p) (l := s.queue.pending)
  simp only [work, List.countP_true]
  omega

/-- **What was taken reaches the sink** within so many steps of the worker, whatever else happens. -/
theorem not_unsunk_of_run (hi : OutboundInv s) {later : List OutboundEvent} {t : OutboundState}
    (hgood : Run.Along step Undisturbed s later) (hrun : Run.run step s later = some t)
    (hwork : s.work (fun _ => true) ≤ later.countP (·.worker)) :
    ¬ Unsunk s.queue.nextSequence t := by
  intro hunsunk
  have hkeeps : ∀ (r : OutboundState) e r', r.Undisturbed e → r.step e = some r' →
      (OutboundInv r ∧ s.queue.nextSequence ≤ r.queue.nextSequence) →
      OutboundInv r' ∧ s.queue.nextSequence ≤ r'.queue.nextSequence := by
    intro r e r' hgood h hr
    have hplaces := places_of_acts (acts_of_step hgood h) hr.1.counted
    exact ⟨outboundInv_of_step hgood h hr.1, hr.2.trans (nextSequence_le_of_places hplaces)⟩
  have hexhausts := Run.run_exhausts_measure hkeeps
    (fun r e r' hgood h hr hu => unsunk_of_acts (acts_of_step hgood h) hr.1 hr.2 hu)
    hgood hrun ⟨hi, le_rfl⟩ hunsunk
  obtain ⟨operation, hmem, hle⟩ := hunsunk
  have hpos : 0 < t.work (·.sequence ≤ s.queue.nextSequence) := by
    rcases List.mem_append.mp hmem with hmem | hmem
    · cases hworker : t.worker with
      | holding operation => simp [work, remaining, hworker]
      | _ => simp [hworker, OutboundWorker.held] at hmem
    · have hcount : 0 < t.queue.pending.countP (·.sequence ≤ s.queue.nextSequence) :=
        List.countP_pos_iff.mpr ⟨operation, hmem, by simpa using hle⟩
      simp only [work]
      omega
  have hle := work_le (s := s) (·.sequence ≤ s.queue.nextSequence)
  omega

theorem closed_of_acts (h : Acts s e s') (hclosed : s.queue.accepting = false) :
    s'.queue.accepting = false := by
  cases h with
  | accepted _ haccepting | coalesced _ haccepting => simp [hclosed] at haccepting
  | completes | overRelease => rfl
  | _ => exact hclosed

/-- Once the queue is completed, every step of the worker brings it nearer to its end. -/
theorem unfinished_of_acts (h : Acts s e s') (hi : Counted s) (hclosed : s.queue.accepting = false)
    (hunfinished : s'.worker ≠ .finished) :
    s.worker ≠ .finished ∧
      s'.work (fun _ => true) + (if e.worker then 1 else 0) ≤ s.work fun _ => true := by
  refine ⟨?_, work_of_acts h hi (by simp [hclosed]) (by simp)⟩
  intro hfinished
  have hleft := (hi.left (by simp [hfinished, OutboundWorker.looping])).2
  cases h with
  | refused | accepted | coalesced | completes | completed_before => exact hunfinished hfinished
  | cancel hcancel => simp [hi.undisposed] at hcancel
  | overRelease hpending => simp [hleft] at hpending
  | wait hworker | take hworker | takeNothing hworker | leave hworker | write hworker
  | written hworker | complete hworker | completed hworker => simp [hfinished] at hworker

/-- **A completed queue finishes** within so many steps of the worker. -/
theorem finished_of_run (hi : OutboundInv s) (hclosed : s.queue.accepting = false)
    {later : List OutboundEvent} {t : OutboundState}
    (hgood : Run.Along step Undisturbed s later) (hrun : Run.run step s later = some t)
    (hwork : s.work (fun _ => true) ≤ later.countP (·.worker)) : t.worker = .finished := by
  by_contra hunfinished
  have hkeeps : ∀ (r : OutboundState) e r', r.Undisturbed e → r.step e = some r' →
      (OutboundInv r ∧ r.queue.accepting = false) → OutboundInv r' ∧ r'.queue.accepting = false :=
    fun r e r' hgood h hr =>
      ⟨outboundInv_of_step hgood h hr.1, closed_of_acts (acts_of_step hgood h) hr.2⟩
  have hexhausts := Run.run_exhausts_measure hkeeps
    (fun r e r' hgood h hr hu => unfinished_of_acts (acts_of_step hgood h) hr.1.counted hr.2 hu)
    hgood hrun ⟨hi, hclosed⟩ hunfinished
  have hinv := Run.run_invariant_along (fun _ _ _ => outboundInv_of_step) hgood hrun hi
  have hpos : 0 < remaining t.worker := by
    have hrunning := hinv.counted.running
    cases hworker : t.worker <;> simp_all [remaining]
  simp only [work] at hexhausts hwork
  omega

/-- The worker can go on while something is to be done. -/
theorem worker_enabled (hi : Counted s) (hunfinished : s.worker ≠ .finished)
    (htodo : s.worker.held ++ s.queue.pending ≠ [] ∨ s.queue.accepting = false) :
    ∃ e : OutboundEvent, e.worker = true ∧ (s.step e).isSome := by
  cases hworker : s.worker with
  | waiting =>
    have hpermits := hi.permits
    have havailable : 0 < s.queue.available := by
      rcases htodo with hpending | hclosed
      · have hlength : 0 < s.queue.pending.length := by
          simpa [hworker, OutboundWorker.held, List.length_pos_iff] using hpending
        simp only [hworker, reduceCtorEq, if_false] at hpermits
        omega
      · simp only [hworker, hclosed, OutboundWorker.looping, reduceCtorEq, if_false, and_self,
          if_true] at hpermits
        omega
    exact ⟨.wait, rfl, by simp [step, hworker, havailable]⟩
  | taking => exact ⟨.take, rfl, by simp [step, hworker]⟩
  | holding operation => exact ⟨.write, rfl, by simp [step, hworker]⟩
  | writing => exact ⟨.written, rfl, by simp [step, hworker]⟩
  | leaving => exact ⟨.complete, rfl, by simp [step, hworker]⟩
  | completing => exact ⟨.completed, rfl, by simp [step, hworker]⟩
  | finished => exact absurd hworker hunfinished
  | canceled => exact absurd hworker hi.running.1
  | faulted => exact absurd hworker hi.running.2

/-! ### Delivery -/

/-- How often an object is among the operations. -/
def copies (operations : List SessionOutboundOperation) (object : ℕ) : ℕ :=
  (operations.map (·.object)).count object

/-- Two calls that took one object are one call. -/
theorem Ordered.call_eq (hi : Ordered s) {call call' : EnqueueCall} (hcall : call ∈ s.calls)
    (hcall' : call' ∈ s.calls) (hobject : call.operation.object = call'.operation.object) :
    call = call' := by
  by_contra hne
  have : Std.Symm fun a b : EnqueueCall => a.operation.object ≠ b.operation.object :=
    ⟨fun _ _ h => h.symm⟩
  exact hi.distinct.forall hcall hcall' hne hobject

theorem Ordered.nodup_objects (hi : Ordered s) : (s.placed.map (·.object)).Nodup := by
  rw [List.Nodup, List.pairwise_map]
  refine hi.sorted.imp_of_mem ?_
  intro a b ha hb hlt hobject
  obtain ⟨call, hcall, -, rfl⟩ := hi.origin a ha
  obtain ⟨call', hcall', -, rfl⟩ := hi.origin b hb
  rw [hi.call_eq hcall hcall' hobject] at hlt
  exact lt_irrefl _ hlt

/-- An operation of a call that took it is in place whenever its object is. -/
theorem Ordered.mem_placed (hi : Ordered s) {call : EnqueueCall} (hcall : call ∈ s.calls)
    (hmem : call.operation.object ∈ s.placed.map (·.object)) :
    call.taken ∧ call.operation ∈ s.placed := by
  obtain ⟨operation, hplaced, hobject⟩ := List.mem_map.mp hmem
  obtain ⟨call', hcall', htaken, rfl⟩ := hi.origin operation hplaced
  obtain rfl := hi.call_eq hcall hcall' hobject.symm
  exact ⟨htaken, hplaced⟩

/-- The list holds every operation that was taken once, no operation that was refused, and misses only
resizes that a later one replaced. -/
structure Accounts (generation : ℤ) (capacity : ℕ) (events : List OutboundEvent)
    (calls : List EnqueueCall) (operations : List SessionOutboundOperation) : Prop where
  taken : ∀ call ∈ calls, call.taken → copies operations call.operation.object = 1 ∨
    (copies operations call.operation.object = 0 ∧
      Superseded generation capacity events call.operation)
  refused : ∀ call ∈ calls, ¬ call.taken → copies operations call.operation.object = 0

theorem accounts_placed (hgood : Run.Along step Undisturbed (start generation capacity) events)
    (hrun : Run.run step (start generation capacity) events = some s) :
    Accounts generation capacity events s.calls s.placed := by
  have hi := (run_outboundInv hgood hrun).ordered
  refine ⟨?_, ?_⟩
  · intro call hcall htaken
    rcases placed_or_superseded hgood hrun hcall htaken with hmem | ⟨hgone, hsuperseded⟩
    · exact .inl (List.count_eq_one_of_mem hi.nodup_objects (List.mem_map_of_mem hmem))
    · refine .inr ⟨List.count_eq_zero_of_not_mem ?_, hsuperseded⟩
      intro hmem
      exact hgone (hi.mem_placed hcall hmem).2
  · intro call hcall hrefused
    refine List.count_eq_zero_of_not_mem ?_
    intro hmem
    exact hrefused (hi.mem_placed hcall hmem).1

theorem calls_of_step (hgood : s.Undisturbed e) (h : s.step e = some s') : s.calls ⊆ s'.calls := by
  cases acts_of_step hgood h with
  | refused | accepted | coalesced => exact List.subset_append_left _ _
  | _ => exact List.Subset.refl _

theorem capacity_of_step (hgood : s.Undisturbed e) (h : s.step e = some s') :
    s'.queue.capacity = s.queue.capacity := by
  cases acts_of_step hgood h <;> rfl

/-- Behind enough steps of the worker, what was taken before is with the sink. -/
theorem accounts_sunk (hgood : Run.Along step Undisturbed (start generation capacity) events)
    (hrun : Run.run step (start generation capacity) events = some s) {later : List OutboundEvent}
    {t : OutboundState} (hlater : Run.Along step Undisturbed s later)
    (hrunLater : Run.run step s later = some t)
    (hwork : s.work (fun _ => true) ≤ later.countP (·.worker)) :
    Accounts generation capacity (events ++ later) s.calls t.sunk := by
  have hi := run_outboundInv hgood hrun
  have hgood' := Run.along_append hgood hrun hlater
  have hrun' := Run.run_append hrun hrunLater
  have hit := (run_outboundInv hgood' hrun').ordered
  have hcalls : s.calls ⊆ t.calls :=
    Run.run_invariant_along (I := fun r => s.calls ⊆ r.calls)
      (fun _ _ _ hgood h hr => List.Subset.trans hr (calls_of_step hgood h)) hlater hrunLater
      (List.Subset.refl _)
  have hsunk := not_unsunk_of_run hi hlater hrunLater hwork
  have hobjects : (t.sunk.map (·.object)).Nodup :=
    hit.nodup_objects.sublist ((List.sublist_append_left _ _).map _)
  have hplaced : ∀ object ∈ t.sunk.map (·.object), object ∈ t.placed.map (·.object) := by
    intro object hmem
    rw [placed, List.map_append]
    exact List.mem_append_left _ hmem
  refine ⟨?_, ?_⟩
  · intro call hcall htaken
    rcases placed_or_superseded hgood' hrun' (hcalls hcall) htaken with hmem | ⟨hgone, hsuperseded⟩
    · rcases List.mem_append.mp hmem with hmem | hmem
      · exact .inl (List.count_eq_one_of_mem hobjects (List.mem_map_of_mem hmem))
      · exact absurd ⟨_, hmem, hi.ordered.callStamped call hcall htaken⟩ hsunk
    · refine .inr ⟨List.count_eq_zero_of_not_mem ?_, hsuperseded⟩
      intro hmem
      exact hgone (hit.mem_placed (hcalls hcall) (hplaced _ hmem)).2
  · intro call hcall hrefused
    refine List.count_eq_zero_of_not_mem ?_
    intro hmem
    exact hrefused (hit.mem_placed (hcalls hcall) (hplaced _ hmem)).1

/-- What the queue promises in a state of a run. -/
structure Delivers (generation : ℤ) (capacity : ℕ) (events : List OutboundEvent)
    (s : OutboundState) : Prop where
  increasing : s.sunk.Pairwise (·.sequence < ·.sequence)
  onlyTaken : ∀ operation ∈ s.sunk, ∃ call ∈ s.calls, call.taken ∧ call.operation = operation
  accounted : Accounts generation capacity events s.calls s.placed
  bounded : s.queue.pending.length ≤ capacity
  neverOverReleased : s.overReleased = false
  completedOnce : s.completions ≤ 1
  /-- When the sink's `CompleteAsync` is called, nothing is left and nothing can come. -/
  completedLast : 0 < s.completions → s.queue.accepting = false ∧ s.placed = s.sunk
  /-- The worker is not stuck while it has something to do. -/
  enabled : s.worker ≠ .finished → s.placed ≠ s.sunk ∨ s.queue.accepting = false →
    ∃ e : OutboundEvent, e.worker = true ∧ (s.step e).isSome
  /-- Enough of its steps bring all to the sink, and a completed queue to its end. -/
  delivered : ∀ later t, Run.Along step Undisturbed s later → Run.run step s later = some t →
    s.work (fun _ => true) ≤ later.countP (·.worker) →
    Accounts generation capacity (events ++ later) s.calls t.sunk ∧
      (s.queue.accepting = false → t.completions = 1)

/-- **The queue delivers what it has taken, once and in order, and then completes the sink.** -/
theorem outbound_delivery (hgood : Run.Along step Undisturbed (start generation capacity) events)
    (hrun : Run.run step (start generation capacity) events = some s) :
    Delivers generation capacity events s := by
  have hi := run_outboundInv hgood hrun
  have hcapacity : s.queue.capacity = capacity :=
    Run.run_invariant_along (I := fun r => r.queue.capacity = capacity)
      (fun _ _ _ hgood h hr => (capacity_of_step hgood h).trans hr) hgood hrun rfl
  have hcompletions := hi.counted.completions
  refine ⟨(List.pairwise_append.mp hi.ordered.sorted).1, ?_, accounts_placed hgood hrun, ?_,
    hi.counted.neverOverReleased, ?_, ?_, ?_, ?_⟩
  · intro operation hmem
    exact hi.ordered.origin operation (List.mem_append_left _ hmem)
  · have hslots := hi.counted.slots
    omega
  · split at hcompletions <;> omega
  · intro hpos
    have hworker : s.worker = .completing ∨ s.worker = .finished := by
      by_contra hworker
      rw [if_neg hworker] at hcompletions
      omega
    have hleft := hi.counted.left (by rcases hworker with h | h <;> rw [h] <;> rfl)
    refine ⟨hleft.1, ?_⟩
    rcases hworker with h | h <;> simp [placed, h, hleft.2, OutboundWorker.held]
  · intro hunfinished htodo
    refine worker_enabled hi.counted hunfinished (htodo.imp_left ?_)
    intro hplaced hnothing
    exact hplaced (by simp [placed, hnothing])
  · intro later t hlater hrunLater hwork
    refine ⟨accounts_sunk hgood hrun hlater hrunLater hwork, ?_⟩
    intro hclosed
    have hfinished := finished_of_run hi hclosed hlater hrunLater hwork
    have hit := Run.run_invariant_along (fun _ _ _ => outboundInv_of_step) hlater hrunLater hi
    simpa [hfinished] using hit.counted.completions

end OutboundState

section Sample

open OutboundState

/-- A queue of two places: a key, two resizes of which the second replaces the first, a key that
finds the queue full, one for another generation, and one behind the end. -/
def resizedRun : List OutboundEvent :=
  [.tryEnqueue 7 ⟨1, .inputBytes, [0x61], false, 0, 0, 0, 0, 0, 0⟩,
    .tryEnqueue 7 ⟨2, .resize, [], false, 80, 25, 0, 0, 0, 0⟩, .wait,
    .tryEnqueue 7 ⟨3, .resize, [], false, 90, 25, 0, 0, 0, 0⟩,
    .tryEnqueue 7 ⟨4, .inputBytes, [0x62], false, 0, 0, 0, 0, 0, 0⟩,
    .tryEnqueue 6 ⟨5, .inputBytes, [0x63], false, 0, 0, 0, 0, 0, 0⟩,
    .take, .completeAsync, .write,
    .tryEnqueue 7 ⟨6, .inputBytes, [0x64], false, 0, 0, 0, 0, 0, 0⟩,
    .written, .wait, .take, .write, .written, .wait, .take, .complete, .completed]

/-- The sink gets the first key and the second resize. -/
theorem outbound_delivery_resized : ∃ s,
    Run.run step (start 7 2) resizedRun = some s ∧
      s.sunk.map (fun operation => (operation.object, operation.sequence)) = [(1, 1), (3, 3)] ∧
      s.calls.map (·.result) =
        [some .accepted, some .accepted, some .coalesced, some .full, some .staleGeneration,
          some .closed] ∧
      s.completions = 1 ∧ Delivers 7 2 resizedRun s := by
  have hrun : (Run.run step (start 7 2) resizedRun).map (fun s =>
      (s.sunk.map (fun operation => (operation.object, operation.sequence)),
        s.calls.map (·.result), s.completions)) =
      some ([(1, 1), (3, 3)],
        [some .accepted, some .accepted, some .coalesced, some .full, some .staleGeneration,
          some .closed], 1) := by
    decide
  obtain ⟨s, hs, hrecord⟩ := Option.map_eq_some_iff.mp hrun
  simp only [Prod.mk.injEq] at hrecord
  have hgood : Run.Along step Undisturbed (start 7 2) resizedRun :=
    Run.along_of_decide (by decide)
  exact ⟨s, hs, hrecord.1, hrecord.2.1, hrecord.2.2, outbound_delivery hgood hs⟩

end Sample

end VT7.Session
