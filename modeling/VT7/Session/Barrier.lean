import Mathlib.Logic.Function.Basic
import VT7.Dotnet.Text
import VT7.Lib.Run

/-!
# The committed-output barrier

Before an embedded request is handled, the shim has printed a barrier line on the console.  The broker
calls `WaitForCommittedOutputAsync` and waits, for ten seconds, until the session has committed the
line as output of the root transport.  The session keeps the last 8192 bytes of every generation and
one waiter for a generation; `RecordCommittedOutput` looks for the waiter's marker after every block.

The machine serves requests one after the other while blocks are committed.  A request that times out
leaves its waiter behind: only the commit of its marker removes it.  `later_request_iff` says what
this does to the requests that follow.
-/

namespace VT7.Session

open VT7.Dotnet VT7.Lib

/-- `maximumTail`. -/
def maximumTail : ℕ := 8192

/-- `Contains`: some position of the haystack holds the whole needle. -/
def contains (haystack needle : Bytes) : Bool :=
  if needle = [] ∨ haystack.length < needle.length then false
  else
    (List.range (haystack.length - needle.length + 1)).any fun start =>
      (haystack.drop start).take needle.length == needle

/-- A `CommittedOutputWaiter`; `completion` is its task. -/
structure CommittedOutputWaiter where
  marker : Bytes
  completion : ℕ
  deriving DecidableEq

/-- How `WaitForCommittedOutputAsync` fails. -/
inductive WaitError
  | generation
  /-- A committed-output marker is required. -/
  | marker
  /-- The terminal session cannot accept a committed-output waiter. -/
  | closed
  /-- A committed-output waiter already exists for this generation. -/
  | waiterExists
  deriving DecidableEq

/-- The session's part: the tails and the waiters of the generations, and the tasks it has given
out. -/
structure CommittedOutput where
  /-- The session is neither disposed, closing, closed nor failed. -/
  accepts : Bool
  committedTails : ℕ → Option Bytes
  committedWaiters : ℕ → Option CommittedOutputWaiter
  /-- The number of tasks. -/
  tasks : ℕ
  /-- The tasks that are completed. -/
  completed : List ℕ

namespace CommittedOutput

/-- `WaitForCommittedOutputAsync`: the task it returns. -/
def waitForCommittedOutput (s : CommittedOutput) (generation : ℕ) (marker : Text) :
    Except WaitError (ℕ × CommittedOutput) :=
  if generation = 0 then .error .generation
  else if marker = [] then .error .marker
  else
    let bytes := utf8Bytes marker
    if !s.accepts then .error .closed
    else if (s.committedWaiters generation).isSome then .error .waiterExists
    else if (s.committedTails generation).any (contains · bytes) then
      .ok (s.tasks, { s with tasks := s.tasks + 1, completed := s.tasks :: s.completed })
    else
      .ok (s.tasks,
        { s with
          tasks := s.tasks + 1
          committedWaiters :=
            Function.update s.committedWaiters generation (some ⟨bytes, s.tasks⟩) })

/-- The tail behind a block. -/
def tailBehind (tail : Option Bytes) (bytes : Bytes) : Bytes :=
  let tail := tail.getD [] ++ bytes
  tail.drop (tail.length - maximumTail)

/-- `RecordCommittedOutput`. -/
def recordCommittedOutput (s : CommittedOutput) (generation : ℕ) (bytes : Bytes) :
    CommittedOutput :=
  let tail := tailBehind (s.committedTails generation) bytes
  let s : CommittedOutput :=
    { s with committedTails := Function.update s.committedTails generation (some tail) }
  match s.committedWaiters generation with
  | some waiter =>
    if contains tail waiter.marker then
      { s with
        committedWaiters := Function.update s.committedWaiters generation none
        completed := waiter.completion :: s.completed }
    else s
  | none => s

end CommittedOutput

/-- `SshOverlayCoordinator.RootGeneration`. -/
def rootGeneration : ℕ := 1

/-- How a request that was acknowledged goes on. -/
inductive BarrierOutcome
  /-- The embedded handler is called. -/
  | handled
  /-- The barrier was not committed in time. -/
  | timedOut
  | refused (error : WaitError)
  deriving DecidableEq

structure BarrierState where
  session : CommittedOutput
  /-- The task the broker awaits. -/
  request : Option ℕ
  outcomes : List BarrierOutcome

inductive BarrierEvent
  /-- A block of a generation is committed. -/
  | commit (generation : ℕ) (bytes : Bytes)
  /-- A request reaches the barrier wait. -/
  | request (marker : Text)
  /-- The task is completed within the timeout. -/
  | proceed
  | timeout
  deriving DecidableEq

def BarrierEvent.isCommit : BarrierEvent → Bool
  | .commit _ _ => true
  | _ => false

namespace BarrierState

/-- **A step of the broker or of the session.** -/
def step (s : BarrierState) : BarrierEvent → Option BarrierState
  | .commit generation bytes =>
    some { s with session := s.session.recordCommittedOutput generation bytes }
  | .request marker =>
    if s.request.isSome then none
    else
      match s.session.waitForCommittedOutput rootGeneration marker with
      | .ok (task, session) => some { s with session := session, request := some task }
      | .error error => some { s with outcomes := s.outcomes ++ [.refused error] }
  | .proceed =>
    match s.request with
    | some task =>
      if task ∈ s.session.completed then
        some { s with request := none, outcomes := s.outcomes ++ [.handled] }
      else none
    | none => none
  | .timeout =>
    match s.request with
    | some task =>
      if task ∈ s.session.completed then none
      else some { s with request := none, outcomes := s.outcomes ++ [.timedOut] }
    | none => none

/-- A running session, before the first request. -/
def start : BarrierState where
  session :=
    { accepts := true
      committedTails := fun _ => none
      committedWaiters := fun _ => none
      tasks := 0
      completed := [] }
  request := none
  outcomes := []

/-- The commits of the blocks. -/
def commits (blocks : List (ℕ × Bytes)) : List BarrierEvent :=
  blocks.map fun block => .commit block.1 block.2

/-- The request goes on to the embedded handler when the blocks are committed in time. -/
def Proceeds (s : BarrierState) (marker : Text) (blocks : List (ℕ × Bytes)) : Prop :=
  (Run.run step s (.request marker :: commits blocks ++ [.proceed])).isSome = true

/-! ### Finding the marker -/

theorem contains_append_self (front : Bytes) {needle : Bytes} (h : needle ≠ []) :
    contains (front ++ needle) needle = true := by
  rw [contains, if_neg (by simp [h])]
  refine List.any_eq_true.mpr ⟨front.length, ?_, ?_⟩
  · simp
  · simp

theorem utf8Bytes_ne_nil {marker : Text} (h : marker ≠ []) : utf8Bytes marker ≠ [] := by
  intro hnil
  exact h (utf8Bytes_inj (t := []) hnil)

/-- A block that is the marker ends the tail, unless the marker is longer than the tail may be. -/
theorem contains_tailBehind (tail : Option Bytes) {needle : Bytes} (h : needle ≠ [])
    (hlength : needle.length ≤ maximumTail) :
    contains (CommittedOutput.tailBehind tail needle) needle = true := by
  have hdrop : (tail.getD [] ++ needle).length - maximumTail ≤ (tail.getD []).length := by
    rw [List.length_append]
    omega
  rw [CommittedOutput.tailBehind, List.drop_append_of_le_length hdrop]
  exact contains_append_self _ h

/-- A marker longer than the tail is never found. -/
theorem not_contains_of_lt {haystack needle : Bytes} (h : haystack.length < needle.length) :
    contains haystack needle = false :=
  if_pos (.inr h)

theorem length_tailBehind (tail : Option Bytes) (bytes : Bytes) :
    (CommittedOutput.tailBehind tail bytes).length ≤ maximumTail := by
  simp only [CommittedOutput.tailBehind, List.length_drop]
  omega

/-- The marker is in the root's tail, now or behind one of the blocks. -/
def recognised (bytes : Bytes) : Option Bytes → List (ℕ × Bytes) → Bool
  | tail, [] => tail.any (contains · bytes)
  | tail, (generation, block) :: rest =>
    tail.any (contains · bytes) ||
      recognised bytes
        (if generation = rootGeneration then some (CommittedOutput.tailBehind tail block) else tail) rest

theorem recognised_of_any {bytes : Bytes} {tail : Option Bytes}
    (h : tail.any (contains · bytes) = true) (blocks : List (ℕ × Bytes)) :
    recognised bytes tail blocks = true := by
  cases blocks with
  | nil => exact h
  | cons block rest => simp [recognised, h]

theorem not_recognised_of_lt {bytes : Bytes} (hlong : maximumTail < bytes.length)
    {tail : Option Bytes} (htail : ∀ t, tail = some t → t.length ≤ maximumTail)
    (blocks : List (ℕ × Bytes)) : recognised bytes tail blocks = false := by
  have hmissing : ∀ tail : Option Bytes, (∀ t, tail = some t → t.length ≤ maximumTail) →
      tail.any (contains · bytes) = false := by
    intro tail htail
    cases tail with
    | none => rfl
    | some t => exact not_contains_of_lt (lt_of_le_of_lt (htail t rfl) hlong)
  induction blocks generalizing tail with
  | nil => exact hmissing tail htail
  | cons block rest ih =>
    rw [recognised, hmissing tail htail, Bool.false_or]
    refine ih ?_
    split
    · intro t h
      rw [Option.some.injEq] at h
      rw [← h]
      exact length_tailBehind _ _
    · exact htail

/-! ### One step of the session -/

variable {s s' t : BarrierState} {e : BarrierEvent}

/-- What every run keeps: the broker waits for the root's output only, and tasks are new. -/
structure BarrierInv (s : BarrierState) : Prop where
  accepts : s.session.accepts = true
  onlyRoot : ∀ generation, generation ≠ rootGeneration → s.session.committedWaiters generation = none
  tasks : ∀ task ∈ s.session.completed, task < s.session.tasks
  waiter : ∀ waiter, s.session.committedWaiters rootGeneration = some waiter →
    waiter.completion < s.session.tasks
  tail : ∀ tail, s.session.committedTails rootGeneration = some tail → tail.length ≤ maximumTail

theorem barrierInv_start : BarrierInv start := by
  constructor <;> simp [start]

/-- A commit: the tail of the generation, and the waiter when its marker is there. -/
theorem recordCommittedOutput_cases (session : CommittedOutput) (generation : ℕ) (bytes : Bytes) :
    let tail := CommittedOutput.tailBehind (session.committedTails generation) bytes
    let tails := Function.update session.committedTails generation (some tail)
    (session.recordCommittedOutput generation bytes = { session with committedTails := tails } ∧
      ∀ waiter, session.committedWaiters generation = some waiter → contains tail waiter.marker = false) ∨
    ∃ waiter, session.committedWaiters generation = some waiter ∧ contains tail waiter.marker = true ∧
      session.recordCommittedOutput generation bytes =
        { session with
          committedTails := tails
          committedWaiters := Function.update session.committedWaiters generation none
          completed := waiter.completion :: session.completed } := by
  intro tail tails
  simp only [CommittedOutput.recordCommittedOutput]
  split
  · next waiter hwaiter =>
    split
    · next hfound => exact .inr ⟨waiter, hwaiter, hfound, rfl⟩
    · next hmissing =>
      refine .inl ⟨rfl, ?_⟩
      intro other hother
      cases hwaiter.symm.trans hother
      simpa using hmissing
  · next hnone =>
    refine .inl ⟨rfl, ?_⟩
    intro other hother
    cases hnone.symm.trans hother

theorem barrierInv_of_commit (hi : BarrierInv s) (generation : ℕ) (bytes : Bytes) :
    BarrierInv { s with session := s.session.recordCommittedOutput generation bytes } := by
  have htail : ∀ tail, Function.update s.session.committedTails generation
      (some (CommittedOutput.tailBehind (s.session.committedTails generation) bytes)) rootGeneration =
        some tail → tail.length ≤ maximumTail := by
    intro tail h
    rcases eq_or_ne rootGeneration generation with rfl | hne
    · rw [Function.update_self, Option.some.injEq] at h
      rw [← h]
      exact length_tailBehind _ _
    · rw [Function.update_of_ne hne] at h
      exact hi.tail tail h
  rcases recordCommittedOutput_cases s.session generation bytes with
    ⟨heq, -⟩ | ⟨waiter, hwaiter, -, heq⟩
  · rw [heq]
    exact ⟨hi.accepts, hi.onlyRoot, hi.tasks, hi.waiter, htail⟩
  · -- the only waiter is the root's
    have hroot : generation = rootGeneration := by
      by_contra hne
      simp [hi.onlyRoot generation hne] at hwaiter
    subst hroot
    rw [heq]
    refine ⟨hi.accepts, ?_, ?_, ?_, htail⟩
    · intro other hother
      show Function.update _ _ _ _ = _
      rw [Function.update_of_ne hother]
      exact hi.onlyRoot other hother
    · intro task hmem
      rcases List.mem_cons.mp hmem with rfl | hmem
      · exact hi.waiter waiter hwaiter
      · exact hi.tasks task hmem
    · simp

/-- What `WaitForCommittedOutputAsync` does in a running session. -/
theorem waitForCommittedOutput_eq {session : CommittedOutput} (haccepts : session.accepts = true)
    {marker : Text} (hmarker : marker ≠ []) :
    session.waitForCommittedOutput rootGeneration marker =
      if (session.committedWaiters rootGeneration).isSome then .error .waiterExists
      else if (session.committedTails rootGeneration).any (contains · (utf8Bytes marker)) then
        .ok (session.tasks,
          { session with tasks := session.tasks + 1, completed := session.tasks :: session.completed })
      else
        .ok (session.tasks,
          { session with
            tasks := session.tasks + 1
            committedWaiters := Function.update session.committedWaiters rootGeneration
              (some ⟨utf8Bytes marker, session.tasks⟩) }) := by
  rw [CommittedOutput.waitForCommittedOutput, if_neg (by simp [rootGeneration]), if_neg hmarker]
  simp [haccepts]

theorem barrierInv_of_wait (hi : BarrierInv s) {marker : Text} {task : ℕ} {session : CommittedOutput}
    (h : s.session.waitForCommittedOutput rootGeneration marker = .ok (task, session))
    (request : Option ℕ) : BarrierInv { s with session := session, request := request } := by
  have hmarker : marker ≠ [] := by
    rintro rfl
    simp [CommittedOutput.waitForCommittedOutput, rootGeneration] at h
  rw [waitForCommittedOutput_eq hi.accepts hmarker] at h
  split at h
  · cases h
  split at h
  · cases h
    refine ⟨hi.accepts, hi.onlyRoot, ?_, ?_, hi.tail⟩
    · intro task hmem
      rcases List.mem_cons.mp hmem with rfl | hmem
      · exact Nat.lt_succ_self _
      · exact (hi.tasks task hmem).trans (Nat.lt_succ_self _)
    · intro waiter hwaiter
      exact (hi.waiter waiter hwaiter).trans (Nat.lt_succ_self _)
  · cases h
    refine ⟨hi.accepts, ?_, ?_, ?_, hi.tail⟩
    · intro generation hne
      show Function.update _ _ _ _ = _
      rw [Function.update_of_ne hne]
      exact hi.onlyRoot generation hne
    · intro task hmem
      exact (hi.tasks task hmem).trans (Nat.lt_succ_self _)
    · intro waiter hwaiter
      simp only [Function.update_self, Option.some.injEq] at hwaiter
      simp [← hwaiter]

theorem barrierInv_of_step (h : s.step e = some s') (hi : BarrierInv s) : BarrierInv s' := by
  cases e with
  | commit generation bytes =>
    obtain rfl := Option.some.inj h
    exact barrierInv_of_commit hi generation bytes
  | request marker =>
    simp only [step] at h
    split at h
    · cases h
    split at h
    · next task session hwait =>
      obtain rfl := Option.some.inj h
      exact barrierInv_of_wait hi hwait _
    · obtain rfl := Option.some.inj h
      exact ⟨hi.accepts, hi.onlyRoot, hi.tasks, hi.waiter, hi.tail⟩
  | proceed | timeout =>
    simp only [step] at h
    split at h
    · split at h
      · cases h <;> exact ⟨hi.accepts, hi.onlyRoot, hi.tasks, hi.waiter, hi.tail⟩
      · cases h <;> exact ⟨hi.accepts, hi.onlyRoot, hi.tasks, hi.waiter, hi.tail⟩
    · cases h

/-! ### One request -/

/-- Behind the commits the broker goes on when its task is completed. -/
theorem run_commits_proceed_of_completed {task : ℕ} (hrequest : s.request = some task)
    (hcompleted : task ∈ s.session.completed) (blocks : List (ℕ × Bytes)) :
    (Run.run step s (commits blocks ++ [.proceed])).isSome = true := by
  induction blocks generalizing s with
  | nil => simp [commits, Run.run, step, hrequest, hcompleted]
  | cons block rest ih =>
    have hcompleted' : task ∈ (s.session.recordCommittedOutput block.1 block.2).completed := by
      rcases recordCommittedOutput_cases s.session block.1 block.2 with ⟨heq, -⟩ | ⟨_, -, -, heq⟩
      · rw [heq]
        exact hcompleted
      · rw [heq]
        exact List.mem_cons_of_mem _ hcompleted
    exact ih (s := { s with session := s.session.recordCommittedOutput block.1 block.2 })
      hrequest hcompleted'

/-- A registered waiter is completed when its marker is recognised. -/
theorem run_commits_proceed_iff (hi : BarrierInv s) {task : ℕ} {bytes : Bytes}
    (hrequest : s.request = some task) (hpending : task ∉ s.session.completed)
    (hwaiter : s.session.committedWaiters rootGeneration = some ⟨bytes, task⟩)
    (hmissing : (s.session.committedTails rootGeneration).any (contains · bytes) = false)
    (blocks : List (ℕ × Bytes)) :
    (Run.run step s (commits blocks ++ [.proceed])).isSome = true ↔
      recognised bytes (s.session.committedTails rootGeneration) blocks = true := by
  induction blocks generalizing s with
  | nil => simp [commits, Run.run, step, hrequest, hpending, recognised, hmissing]
  | cons block rest ih =>
    obtain ⟨generation, block⟩ := block
    have hi' := barrierInv_of_commit hi generation block
    show (Run.run step { s with session := s.session.recordCommittedOutput generation block }
      (commits rest ++ [.proceed])).isSome = true ↔ _
    rcases recordCommittedOutput_cases s.session generation block with
      ⟨heq, habsent⟩ | ⟨waiter, hfound, hcontains, heq⟩
    · rw [heq] at hi' ⊢
      rw [recognised, hmissing, Bool.false_or]
      rcases eq_or_ne generation rootGeneration with rfl | hne
      · have hmissing' := habsent _ hwaiter
        rw [if_pos rfl]
        have hiff := ih hi' hrequest hpending hwaiter
          (by simpa only [Function.update_self, Option.any_some] using hmissing')
        simpa only [Function.update_self] using hiff
      · rw [if_neg hne]
        have hiff := ih hi' hrequest hpending hwaiter
          (by simpa only [Function.update_of_ne hne.symm] using hmissing)
        simpa only [Function.update_of_ne hne.symm] using hiff
    · have hroot : generation = rootGeneration := by
        by_contra hne
        simp [hi.onlyRoot generation hne] at hfound
      subst hroot
      cases hwaiter.symm.trans hfound
      rw [heq]
      have hdone := run_commits_proceed_of_completed
        (s := { s with session := { s.session with
            committedTails := Function.update s.session.committedTails rootGeneration
              (some (CommittedOutput.tailBehind (s.session.committedTails rootGeneration) block))
            committedWaiters := Function.update s.session.committedWaiters rootGeneration none
            completed := task :: s.session.completed } })
        hrequest (List.mem_cons_self) rest
      refine iff_of_true hdone ?_
      rw [recognised, if_pos rfl, recognised_of_any (by simpa using hcontains), Bool.or_true]

/-- **A request with no waiter before it** goes on when its marker is recognised. -/
theorem proceeds_iff (hi : BarrierInv s) (hidle : s.request = none)
    (hnone : s.session.committedWaiters rootGeneration = none) {marker : Text} (hmarker : marker ≠ [])
    (blocks : List (ℕ × Bytes)) :
    Proceeds s marker blocks ↔
      recognised (utf8Bytes marker) (s.session.committedTails rootGeneration) blocks = true := by
  have hwait := waitForCommittedOutput_eq hi.accepts hmarker
  rw [hnone, Option.isSome_none, if_neg (by simp)] at hwait
  unfold Proceeds
  by_cases hthere : (s.session.committedTails rootGeneration).any (contains · (utf8Bytes marker)) = true
  · rw [if_pos hthere] at hwait
    refine iff_of_true ?_ (recognised_of_any hthere blocks)
    have hdone := run_commits_proceed_of_completed
      (s := { s with
        session :=
          { s.session with
            tasks := s.session.tasks + 1
            completed := s.session.tasks :: s.session.completed }
        request := some s.session.tasks })
      rfl List.mem_cons_self blocks
    simpa [Run.run, step, hidle, hwait] using hdone
  · rw [if_neg hthere] at hwait
    have hi' := barrierInv_of_wait hi hwait (some s.session.tasks)
    have hregistered : Function.update s.session.committedWaiters rootGeneration
        (some ⟨utf8Bytes marker, s.session.tasks⟩) rootGeneration =
          some ⟨utf8Bytes marker, s.session.tasks⟩ := Function.update_self _ _ _
    have hiff := run_commits_proceed_iff hi' rfl
      (fun hmem => lt_irrefl _ (hi.tasks _ hmem)) hregistered (by simpa using hthere) blocks
    simpa [Run.run, step, hidle, hwait] using hiff

/-- **A request that finds a waiter** does not go on, whatever is committed. -/
theorem not_proceeds (hi : BarrierInv s) (hidle : s.request = none) {waiter : CommittedOutputWaiter}
    (hwaiter : s.session.committedWaiters rootGeneration = some waiter) {marker : Text}
    (hmarker : marker ≠ []) (blocks : List (ℕ × Bytes)) : ¬ Proceeds s marker blocks := by
  have hwait := waitForCommittedOutput_eq hi.accepts hmarker
  rw [hwaiter, Option.isSome_some, if_pos rfl] at hwait
  -- the broker goes back to the pipe and awaits nothing
  have hstuck : ∀ (blocks : List (ℕ × Bytes)) (s : BarrierState), s.request = none →
      Run.run step s (commits blocks ++ [.proceed]) = none := by
    intro blocks
    induction blocks with
    | nil =>
      intro s hidle
      simp [commits, Run.run, step, hidle]
    | cons block rest ih =>
      intro s hidle
      exact ih _ hidle
  unfold Proceeds
  simp only [List.cons_append, Run.run, step, hidle, hwait, Option.isSome_none, Bool.false_eq_true,
    if_false, Option.bind_some]
  rw [hstuck blocks _ rfl]
  simp

/-! ### The requests before -/

/-- The session has committed the same, and nobody has waited. -/
structure Unwaited (s s' : BarrierState) : Prop where
  tails : s'.session.committedTails = s.session.committedTails
  accepts : s'.session.accepts = true
  waiters : ∀ generation, s'.session.committedWaiters generation = none
  idle : s'.request = none

/-- **The run without its requests** has the same tails and no waiter. -/
theorem run_unwaited {events : List BarrierEvent} (hrun : Run.run step s events = some t)
    (h : Unwaited s s') :
    ∃ t', Run.run step s' (events.filter (·.isCommit)) = some t' ∧ Unwaited t t' := by
  induction events generalizing s s' with
  | nil =>
    obtain rfl := Run.run_nil.mp hrun
    exact ⟨s', rfl, h⟩
  | cons e events ih =>
    obtain ⟨r, hstep, hrest⟩ := Run.run_cons.mp hrun
    cases e with
    | commit generation bytes =>
      obtain rfl := Option.some.inj hstep
      have hsession : s'.session.recordCommittedOutput generation bytes =
          { s'.session with
            committedTails := Function.update s'.session.committedTails generation
              (some (CommittedOutput.tailBehind (s'.session.committedTails generation) bytes)) } := by
        rcases recordCommittedOutput_cases s'.session generation bytes with
          ⟨heq, -⟩ | ⟨waiter, hwaiter, -, -⟩
        · exact heq
        · simp [h.waiters generation] at hwaiter
      have htails : (s.session.recordCommittedOutput generation bytes).committedTails =
          Function.update s.session.committedTails generation
            (some (CommittedOutput.tailBehind (s.session.committedTails generation) bytes)) := by
        rcases recordCommittedOutput_cases s.session generation bytes with ⟨heq, -⟩ | ⟨_, -, -, heq⟩ <;>
          rw [heq]
      have hnext : Unwaited { s with session := s.session.recordCommittedOutput generation bytes }
          { s' with session := s'.session.recordCommittedOutput generation bytes } := by
        rw [hsession]
        refine ⟨?_, h.accepts, h.waiters, h.idle⟩
        show Function.update _ _ _ = (s.session.recordCommittedOutput generation bytes).committedTails
        rw [htails, h.tails]
      exact ih hrest hnext
    | request marker =>
      refine ih hrest ⟨?_, h.accepts, h.waiters, h.idle⟩
      rw [h.tails]
      simp only [step] at hstep
      split at hstep
      · cases hstep
      split at hstep
      · next task session hwait =>
        obtain rfl := Option.some.inj hstep
        simp only [CommittedOutput.waitForCommittedOutput] at hwait
        repeat' split at hwait
        all_goals cases hwait
        all_goals rfl
      · obtain rfl := Option.some.inj hstep
        rfl
    | proceed | timeout =>
      refine ih hrest ⟨?_, h.accepts, h.waiters, h.idle⟩
      rw [h.tails]
      simp only [step] at hstep
      split at hstep
      · split at hstep
        · cases hstep <;> rfl
        · cases hstep <;> rfl
      · cases hstep

/-- **What a request does to those that follow.**  Behind any run, a request goes on exactly as it
would had no request been before it, if and only if no earlier waiter is left for the root (or its
marker is too long to be recognised at all).  Without a waiter it goes on when its marker is
recognised. -/
theorem later_request_iff {events : List BarrierEvent} {alone : BarrierState}
    (hrun : Run.run step start events = some s) (hidle : s.request = none)
    (halone : Run.run step start (events.filter (·.isCommit)) = some alone)
    {marker : Text} (hmarker : marker ≠ []) :
    ((∀ blocks, Proceeds s marker blocks ↔ Proceeds alone marker blocks) ↔
      s.session.committedWaiters rootGeneration = none ∨ maximumTail < (utf8Bytes marker).length) ∧
    (s.session.committedWaiters rootGeneration = none → ∀ blocks, Proceeds s marker blocks ↔
      recognised (utf8Bytes marker) (s.session.committedTails rootGeneration) blocks = true) := by
  have hstart : Unwaited start start := ⟨rfl, rfl, fun _ => rfl, rfl⟩
  obtain ⟨alone', halone', hunwaited⟩ := run_unwaited hrun hstart
  obtain rfl := Option.some.inj (halone'.symm.trans halone)
  have hi := Run.run_invariant (fun _ _ _ => barrierInv_of_step) hrun barrierInv_start
  have hi' := Run.run_invariant (fun _ _ _ => barrierInv_of_step) halone' barrierInv_start
  have halone_iff := proceeds_iff hi' hunwaited.idle (hunwaited.waiters _) hmarker
  refine ⟨?_, fun hnone => proceeds_iff hi hidle hnone hmarker⟩
  cases hwaiter : s.session.committedWaiters rootGeneration with
  | none =>
    refine iff_of_true ?_ (.inl rfl)
    intro blocks
    rw [proceeds_iff hi hidle hwaiter hmarker, halone_iff, hunwaited.tails]
  | some waiter =>
    have hstuck := not_proceeds hi hidle hwaiter hmarker
    simp only [reduceCtorEq, false_or]
    refine ⟨?_, ?_⟩
    · -- alone, the block that is the marker is enough
      intro hsame
      by_contra hshort
      have hfound := contains_tailBehind (alone'.session.committedTails rootGeneration)
        (utf8Bytes_ne_nil hmarker) (not_lt.mp hshort)
      have hproceeds : Proceeds alone' marker [(rootGeneration, utf8Bytes marker)] := by
        rw [halone_iff, recognised, if_pos rfl, recognised_of_any (by simpa using hfound), Bool.or_true]
      exact hstuck _ ((hsame _).mpr hproceeds)
    · intro hlong blocks
      refine iff_of_false (hstuck blocks) ?_
      rw [halone_iff, not_recognised_of_lt hlong hi'.tail]
      simp

end BarrierState

section Sample

open BarrierState

/-- The barriers of two requests. -/
def firstBarrier : Text := "VT7: H01 connecting to a [00000001]".toList
def secondBarrier : Text := "VT7: H01 connecting to b [00000002]".toList

/-- The first request times out; its line is committed late, before the second request. -/
def lateRun : List BarrierEvent :=
  [.commit 1 (utf8Bytes "C:".toList), .request firstBarrier, .timeout, .commit 1 (utf8Bytes firstBarrier)]

/-- Behind the late commit the second request goes on as it would alone. -/
theorem later_request_iff_late : ∃ s alone,
    Run.run step start lateRun = some s ∧ s.outcomes = [.timedOut] ∧
      Run.run step start (lateRun.filter (·.isCommit)) = some alone ∧
      (∀ blocks, Proceeds s secondBarrier blocks ↔ Proceeds alone secondBarrier blocks) ∧
      Proceeds s secondBarrier [(1, utf8Bytes secondBarrier)] := by
  have hrun : (Run.run step start lateRun).map (fun s =>
      (s.outcomes, s.request, s.session.committedWaiters rootGeneration,
        recognised (utf8Bytes secondBarrier) (s.session.committedTails rootGeneration)
          [(1, utf8Bytes secondBarrier)])) = some ([.timedOut], none, none, true) := by
    decide
  have halone : (Run.run step start (lateRun.filter (·.isCommit))).isSome = true := by decide
  obtain ⟨s, hs, hstate⟩ := Option.map_eq_some_iff.mp hrun
  obtain ⟨alone, halone⟩ := Option.isSome_iff_exists.mp halone
  simp only [Prod.mk.injEq] at hstate
  obtain ⟨houtcomes, hidle, hnone, hrecognised⟩ := hstate
  have hmarker : secondBarrier ≠ [] := by decide
  have hlater := later_request_iff hs hidle halone hmarker
  exact ⟨s, alone, hs, houtcomes, halone, hlater.1.mpr (.inl hnone),
    (hlater.2 hnone _).mpr hrecognised⟩

/-- The first request times out. -/
def timedOutRun : List BarrierEvent := [.request firstBarrier, .timeout]

/-- The second request does not go on although its line is committed in time; alone it would. -/
theorem later_request_poisoned :
    ∃ s alone, Run.run step start timedOutRun = some s ∧ s.outcomes = [.timedOut] ∧
      Run.run step start (timedOutRun.filter (·.isCommit)) = some alone ∧
      ¬ Proceeds s secondBarrier [(1, utf8Bytes secondBarrier)] ∧
      Proceeds alone secondBarrier [(1, utf8Bytes secondBarrier)] := by
  have hrun : (Run.run step start timedOutRun).map (fun s =>
      (s.outcomes, (Run.run step s (.request secondBarrier ::
        commits [(1, utf8Bytes secondBarrier)] ++ [.proceed])).isSome)) =
        some ([.timedOut], false) := by
    decide
  have halone : (Run.run step start (timedOutRun.filter (·.isCommit))).map (fun s =>
      (Run.run step s (.request secondBarrier ::
        commits [(1, utf8Bytes secondBarrier)] ++ [.proceed])).isSome) = some true := by
    decide
  obtain ⟨s, hs, hstate⟩ := Option.map_eq_some_iff.mp hrun
  obtain ⟨alone, halone, hproceeds⟩ := Option.map_eq_some_iff.mp halone
  simp only [Prod.mk.injEq] at hstate
  have hstuck : ¬ Proceeds s secondBarrier [(1, utf8Bytes secondBarrier)] := by
    unfold Proceeds
    rw [hstate.2]
    simp
  exact ⟨s, alone, hs, hstate.1, halone, hstuck, hproceeds⟩

end Sample

end VT7.Session
