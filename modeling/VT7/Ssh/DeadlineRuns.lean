import Mathlib.Data.Option.Basic
import Mathlib.Order.Monotone.Defs
import Mathlib.Order.Nat
import VT7.Ssh.Deadline

/-!
# Runs of the startup deadline

An operation of `SshStartupDeadline` reads the stopwatch up to four times, and time may pass between the readings.  A
run takes its readings from a clock that never goes back.  Beside the deadline a run keeps the phase that was entered
last and the reading at which it was; entering the phase again does not count, and behind a pause there is none.

`deadline_expires` and `deadline_charges` say that expiry is exactly what this ghost accounts for.
-/

namespace VT7.Ssh

namespace SshStartupDeadline

/-! ### The operations with their readings -/

/-- `TryEnter`, whose second reading is the time at which the phase begins. -/
def tryEnterAt (d : SshStartupDeadline) (phase : SshStartupPhase) (observed entered : ℕ) :
    SshStartupDeadline × Bool :=
  let d := d.observeExpiry observed
  if d.stopped = true ∨ d.expired ≠ none ∨ d.cancelled = true then (d, false)
  else if d.phase = some phase then (d, true)
  else ({ d with phase := some phase, entered := entered }, true)

/-- `TryAdvance`. -/
def tryAdvanceAt (d : SshStartupDeadline) (expected next : SshStartupPhase) (observed entered : ℕ) :
    SshStartupDeadline × Bool :=
  if d.phase ≠ some expected then (d, false) else d.tryEnterAt next observed entered

/-- `Enter`. -/
def enterAt (d : SshStartupDeadline) (phase : SshStartupPhase) (checked observed entered rechecked : ℕ) :
    SshStartupDeadline × Option StartError :=
  match d.check checked with
  | (d, some error) => (d, some error)
  | (d, none) =>
    match d.tryEnterAt phase observed entered with
    | (d, true) => (d, none)
    | (d, false) => d.check rechecked

/-- `Pause`. -/
def pauseAt (d : SshStartupDeadline) (checked observed : ℕ) : SshStartupDeadline × Option StartError :=
  match d.check checked with
  | (d, some error) => (d, some error)
  | (d, none) =>
    let d := d.observeExpiry observed
    match d.expired with
    | some category => (d, some (.transport category))
    | none => ({ d with phase := none }, none)

/-- The category of a phase that has expired. -/
def timeout (phase : SshStartupPhase) : String := name phase ++ " timeout"

end SshStartupDeadline

/-! ### Runs -/

inductive DeadlineEvent where
  | enter (phase : SshStartupPhase)
  | tryEnter (phase : SshStartupPhase)
  | tryAdvance (expected next : SshStartupPhase)
  | pause
  | check
  /-- `ExpiredCategory` is read. -/
  | expiredCategory
  /-- The watchdog looks at the clock. -/
  | watch
  /-- The linked token is cancelled. -/
  | cancel
  deriving DecidableEq

/-- What the caller of an operation sees. -/
inductive DeadlineOutcome where
  | threw (error : StartError)
  | returned (answer : Bool)
  | category (expired : Option String)
  | done
  deriving DecidableEq

structure DeadlineRun where
  deadline : SshStartupDeadline
  /-- The number of operations so far. -/
  turn : ℕ
  /-- The phase entered last and the reading at which it was. -/
  current : Option (SshStartupPhase × ℕ)

namespace DeadlineRun

/-- An operation that throws or not. -/
def outcomeOf : Option StartError → DeadlineOutcome
  | some error => .threw error
  | none => .done

/-- The phase that the event entered or left, when it succeeded. -/
def note (current : Option (SshStartupPhase × ℕ)) (now : ℕ) : DeadlineEvent → DeadlineOutcome → Option (SshStartupPhase × ℕ)
  | .enter phase, .done => renew phase
  | .tryEnter phase, .returned true => renew phase
  | .tryAdvance _ next, .returned true => renew next
  | .pause, .done => none
  | _, _ => current
where
  /-- A phase that is already current goes on. -/
  renew (phase : SshStartupPhase) : Option (SshStartupPhase × ℕ) :=
    if current.map Prod.fst = some phase then current else some (phase, now)

variable (clock : ℕ → ℕ)

/-- The operation with the readings `4 * turn`, …, `4 * turn + 3`. -/
def operate (d : SshStartupDeadline) (turn : ℕ) : DeadlineEvent → SshStartupDeadline × DeadlineOutcome
  | .enter phase =>
    (d.enterAt phase (clock (4 * turn)) (clock (4 * turn + 1)) (clock (4 * turn + 2)) (clock (4 * turn + 3))).map id outcomeOf
  | .tryEnter phase => (d.tryEnterAt phase (clock (4 * turn + 1)) (clock (4 * turn + 2))).map id .returned
  | .tryAdvance expected next =>
    (d.tryAdvanceAt expected next (clock (4 * turn + 1)) (clock (4 * turn + 2))).map id .returned
  | .pause => (d.pauseAt (clock (4 * turn)) (clock (4 * turn + 1))).map id outcomeOf
  | .check => (d.check (clock (4 * turn))).map id outcomeOf
  | .expiredCategory =>
    let d := d.observeExpiry (clock (4 * turn))
    (d, .category d.expired)
  | .watch => (d.watch (clock (4 * turn)), .done)
  | .cancel => (d.cancel, .done)

/-- What an event shows. -/
def outcome (s : DeadlineRun) (event : DeadlineEvent) : DeadlineOutcome := (operate clock s.deadline s.turn event).2

/-- **A step of the run.** -/
def step (s : DeadlineRun) (event : DeadlineEvent) : DeadlineRun where
  deadline := (operate clock s.deadline s.turn event).1
  turn := s.turn + 1
  current := note s.current (clock (4 * s.turn + 2)) event (s.outcome clock event)

def runAll (s : DeadlineRun) (events : List DeadlineEvent) : DeadlineRun := events.foldl (step clock) s

/-- A deadline that has just been created. -/
def start (budget : ℕ) : DeadlineRun := ⟨.create budget, 0, none⟩

end DeadlineRun

/-- The event fails because of a phase that has expired: it throws its category, or answers no. -/
def DeadlineEvent.Fails (category : String) : DeadlineEvent → DeadlineOutcome → Prop
  | .enter _, outcome | .pause, outcome | .check, outcome => outcome = .threw (.transport category)
  | .tryEnter _, outcome | .tryAdvance _ _, outcome => outcome = .returned false
  | .expiredCategory, outcome => outcome = .category (some category)
  | .watch, outcome | .cancel, outcome => outcome = .done

/-! ### What an operation does -/

namespace SshStartupDeadline

variable {d : SshStartupDeadline}

/-- What looking at the clock leaves alone. -/
structure SamePhase (d d' : SshStartupDeadline) : Prop where
  budget : d'.budget = d.budget
  stopped : d'.stopped = d.stopped
  phase : d'.phase = d.phase
  entered : d'.entered = d.entered

theorem SamePhase.trans {d₁ d₂ d₃ : SshStartupDeadline} (h : d₁.SamePhase d₂) (h' : d₂.SamePhase d₃) : d₁.SamePhase d₃ :=
  ⟨h'.budget.trans h.budget, h'.stopped.trans h.stopped, h'.phase.trans h.phase, h'.entered.trans h.entered⟩

theorem samePhase_observeExpiry (d : SshStartupDeadline) (now : ℕ) : d.SamePhase (d.observeExpiry now) := by
  unfold observeExpiry
  split
  · split_ifs
    · exact ⟨rfl, rfl, rfl, rfl⟩
    · exact ⟨rfl, rfl, rfl, rfl⟩
  · exact ⟨rfl, rfl, rfl, rfl⟩

/-- **What looking at the clock finds**: what it found before, or a phase whose budget is used up. -/
theorem observeExpiry_expired_iff {now : ℕ} {category : String} (hstopped : d.stopped = false) :
    (d.observeExpiry now).expired = some category ↔ d.expired = some category ∨
      d.expired = none ∧ ∃ phase, d.phase = some phase ∧ category = timeout phase ∧ d.budget ≤ now - d.entered := by
  unfold observeExpiry
  cases hphase : d.phase with
  | none => simp
  | some phase =>
    simp only [hstopped, true_and, Option.some.injEq]
    cases hexpired : d.expired with
    | none =>
      simp only [true_and]
      split_ifs with hdue
      · simp [timeout, hdue, eq_comm]
      · simp [hexpired, hdue]
    | some other => simp [hexpired]

/-- The deadline behind looks at the clock, none of them later than `now`. -/
structure Looked (d d' : SshStartupDeadline) (now : ℕ) : Prop extends SamePhase d d' where
  stays : ∀ category, d.expired = some category → d'.expired = some category
  expired : ∀ category, d'.expired = some category → (d.observeExpiry now).expired = some category

theorem Looked.refl (hstopped : d.stopped = false) (now : ℕ) : d.Looked d now :=
  ⟨⟨rfl, rfl, rfl, rfl⟩, fun _ h => h, fun _ h => (observeExpiry_expired_iff hstopped).mpr (.inl h)⟩

theorem Looked.later {d' : SshStartupDeadline} {now later : ℕ} (hstopped : d.stopped = false) (h : d.Looked d' now)
    (hle : now ≤ later) : d.Looked d' later := by
  refine ⟨h.toSamePhase, h.stays, fun category hcategory => ?_⟩
  rw [observeExpiry_expired_iff hstopped]
  rcases (observeExpiry_expired_iff hstopped).mp (h.expired category hcategory) with hthen | ⟨hnone, phase, hphase, hname, hdue⟩
  · exact .inl hthen
  · exact .inr ⟨hnone, phase, hphase, hname, by omega⟩

theorem Looked.observe {d' : SshStartupDeadline} {now later : ℕ} (hstopped : d.stopped = false) (h : d.Looked d' now)
    (hle : now ≤ later) : d.Looked (d'.observeExpiry later) later := by
  have hstopped' : d'.stopped = false := h.stopped.trans hstopped
  refine ⟨h.toSamePhase.trans (samePhase_observeExpiry d' later), fun category hcategory => ?_, fun category hcategory => ?_⟩
  · exact (observeExpiry_expired_iff hstopped').mpr (.inl (h.stays category hcategory))
  · rcases (observeExpiry_expired_iff hstopped').mp hcategory with hthen | ⟨hnone, phase, hphase, hname, hdue⟩
    · exact (h.later hstopped hle).expired category hthen
    · rw [h.budget, h.entered] at hdue
      rw [h.phase] at hphase
      have hexpired : d.expired = none := by
        cases hexpired : d.expired with
        | none => rfl
        | some other => exact absurd (h.stays other hexpired) (by simp [hnone])
      exact (observeExpiry_expired_iff hstopped).mpr (.inr ⟨hexpired, phase, hphase, hname, hdue⟩)

@[simp]
theorem observeExpiry_cancelled (d : SshStartupDeadline) (now : ℕ) : (d.observeExpiry now).cancelled = d.cancelled := by
  unfold observeExpiry
  split
  · split_ifs
    · rfl
    · rfl
  · rfl

/-- A check looks at the clock, and throws what has expired or that the start is cancelled. -/
theorem check_cases (d : SshStartupDeadline) (now : ℕ) :
    (∃ category, (d.observeExpiry now).expired = some category ∧
      d.check now = (d.observeExpiry now, some (.transport category))) ∨
    ((d.observeExpiry now).expired = none ∧
      (d.cancelled = false ∧ d.check now = (d.observeExpiry now, none) ∨
        d.check now = (d.observeExpiry now, some .cancelled))) := by
  unfold check
  simp only
  split
  · next category hcategory => exact .inl ⟨category, hcategory, rfl⟩
  · next hnone =>
    refine .inr ⟨hnone, ?_⟩
    rw [observeExpiry_cancelled]
    split_ifs with hcancelled
    · exact .inr rfl
    · exact .inl ⟨by simpa using hcancelled, rfl⟩

/-- A phase is refused, is current already, or begins. -/
theorem tryEnterAt_cases (hstopped : d.stopped = false) (phase : SshStartupPhase) (observed entered : ℕ) :
    ((d.observeExpiry observed).expired ≠ none ∨ (d.observeExpiry observed).cancelled = true) ∧
        d.tryEnterAt phase observed entered = (d.observeExpiry observed, false) ∨
      (d.observeExpiry observed).expired = none ∧
        ((d.observeExpiry observed).phase = some phase ∧ d.tryEnterAt phase observed entered = (d.observeExpiry observed, true) ∨
          (d.observeExpiry observed).phase ≠ some phase ∧ d.tryEnterAt phase observed entered =
            ({ d.observeExpiry observed with phase := some phase, entered := entered }, true)) := by
  unfold tryEnterAt
  simp only
  split_ifs with hover hsame
  · rw [(samePhase_observeExpiry d observed).stopped, hstopped] at hover
    exact .inl ⟨by simpa using hover, rfl⟩
  · exact .inr ⟨by_contra fun h => hover (.inr (.inl h)), .inl ⟨hsame, rfl⟩⟩
  · exact .inr ⟨by_contra fun h => hover (.inr (.inl h)), .inr ⟨hsame, rfl⟩⟩

end SshStartupDeadline

namespace DeadlineRun

open SshStartupDeadline

variable {clock : ℕ → ℕ} {d : SshStartupDeadline}

/-- **What an operation does to the deadline and to the ghost**: it looks at the clock, and may then enter a phase or
pause if nothing has expired. -/
inductive Moved (clock : ℕ → ℕ) (d : SshStartupDeadline) (turn : ℕ) (event : DeadlineEvent) :
    SshStartupDeadline × DeadlineOutcome → Prop
  | looked {d' : SshStartupDeadline} {outcome : DeadlineOutcome} (h : d.Looked d' (clock (4 * turn + 3)))
    (hnote : ∀ current now, current.map Prod.fst = d.phase → note current now event outcome = current) :
    Moved clock d turn event (d', outcome)
  | entered {d' : SshStartupDeadline} {outcome : DeadlineOutcome} {phase : SshStartupPhase}
    (h : d.Looked d' (clock (4 * turn + 3))) (hin : d'.expired = none)
    (hnote : ∀ current now, current.map Prod.fst = d.phase → note current now event outcome = some (phase, now)) :
    Moved clock d turn event ({ d' with phase := some phase, entered := clock (4 * turn + 2) }, outcome)
  | paused {d' : SshStartupDeadline} {outcome : DeadlineOutcome} (h : d.Looked d' (clock (4 * turn + 3)))
    (hin : d'.expired = none) (hnote : ∀ current now, note current now event outcome = none) :
    Moved clock d turn event ({ d' with phase := none }, outcome)

/-- A phase is entered behind looks at the clock. -/
lemma moved_of_tryEnterAt {turn : ℕ} {event : DeadlineEvent} {d' : SshStartupDeadline} (hstopped : d.stopped = false)
    (hclock : Monotone clock) {phase : SshStartupPhase} (h : d.Looked d' (clock (4 * turn + 1)))
    {answer : Bool → DeadlineOutcome} (hyes : ∀ current now, note current now event (answer true) = note.renew current now phase)
    (hno : ∀ current now, note current now event (answer false) = current) :
    Moved clock d turn event ((d'.tryEnterAt phase (clock (4 * turn + 1)) (clock (4 * turn + 2))).map id answer) := by
  have hlooked := (h.observe hstopped le_rfl).later hstopped (hclock (show 4 * turn + 1 ≤ 4 * turn + 3 by omega))
  rcases tryEnterAt_cases (h.stopped.trans hstopped) phase (clock (4 * turn + 1)) (clock (4 * turn + 2)) with
    ⟨-, heq⟩ | ⟨hin, ⟨hsame, heq⟩ | ⟨hnew, heq⟩⟩
  · rw [heq]
    exact .looked hlooked fun current now _ => hno current now
  · rw [heq]
    refine .looked hlooked fun current now hcurrent => ?_
    rw [hyes, note.renew, if_pos (hcurrent.trans (hlooked.phase.symm.trans hsame))]
  · rw [heq]
    refine .entered hlooked hin fun current now hcurrent => ?_
    rw [hyes, note.renew, if_neg fun hsame => hnew (hlooked.phase.trans (hcurrent.symm.trans hsame))]

lemma note_threw (current : Option (SshStartupPhase × ℕ)) (now : ℕ) (event : DeadlineEvent) (error : StartError) :
    note current now event (.threw error) = current := by
  cases event <;> rfl

theorem operate_moved (hstopped : d.stopped = false) (hclock : Monotone clock) (turn : ℕ) (event : DeadlineEvent) :
    Moved clock d turn event (operate clock d turn event) := by
  have hfirst : d.Looked (d.observeExpiry (clock (4 * turn))) (clock (4 * turn)) :=
    (Looked.refl hstopped _).observe hstopped le_rfl
  have hlast := hfirst.later hstopped (hclock (show 4 * turn ≤ 4 * turn + 3 by omega))
  have hrefl := Looked.refl hstopped (clock (4 * turn + 1))
  cases event with
  | enter phase =>
    unfold operate enterAt
    rcases check_cases d (clock (4 * turn)) with ⟨category, -, heq⟩ | ⟨-, ⟨hlive, heq⟩ | heq⟩
    · rw [heq]
      exact .looked hlast fun _ _ _ => note_threw _ _ _ _
    · rw [heq]
      simp only
      have hsecond := hfirst.later hstopped (hclock (show 4 * turn ≤ 4 * turn + 1 by omega))
      have hanswer := @moved_of_tryEnterAt clock d turn (.enter phase) _ hstopped hclock phase hsecond
        (fun answer => bif answer then .done else .threw .cancelled) (fun _ _ => rfl) (fun _ _ => rfl)
      rcases tryEnterAt_cases (hfirst.stopped.trans hstopped) phase (clock (4 * turn + 1)) (clock (4 * turn + 2)) with
        ⟨hrefused, hno⟩ | ⟨-, ⟨-, hyes⟩ | ⟨-, hyes⟩⟩
      · -- a phase is refused because something has expired, and then the second check throws
        rw [hno]
        simp only
        have hthird := (hsecond.observe hstopped le_rfl).observe hstopped
          (hclock (show 4 * turn + 1 ≤ 4 * turn + 3 by omega))
        rw [observeExpiry_cancelled, observeExpiry_cancelled, hlive] at hrefused
        have hexpired := hrefused.resolve_right (by decide)
        rcases check_cases ((d.observeExpiry (clock (4 * turn))).observeExpiry (clock (4 * turn + 1))) (clock (4 * turn + 3))
          with ⟨category, -, hthrows⟩ | ⟨hnone, -⟩
        · rw [hthrows]
          exact .looked hthird fun _ _ _ => note_threw _ _ _ _
        · rw [observeExpiry_expired hexpired] at hnone
          exact absurd hnone hexpired
      · rw [hyes] at hanswer ⊢
        exact hanswer
      · rw [hyes] at hanswer ⊢
        exact hanswer
    · rw [heq]
      exact .looked hlast fun _ _ _ => note_threw _ _ _ _
  | tryEnter phase =>
    exact moved_of_tryEnterAt hstopped hclock hrefl (fun _ _ => rfl) (fun _ _ => rfl)
  | tryAdvance expected next =>
    simp only [operate, tryAdvanceAt]
    split_ifs
    · exact .looked (hrefl.later hstopped (hclock (by omega))) fun _ _ _ => rfl
    · exact moved_of_tryEnterAt hstopped hclock hrefl (fun _ _ => rfl) (fun _ _ => rfl)
  | pause =>
    unfold operate pauseAt
    rcases check_cases d (clock (4 * turn)) with ⟨category, -, heq⟩ | ⟨-, ⟨-, heq⟩ | heq⟩
    · rw [heq]
      exact .looked hlast fun _ _ _ => note_threw _ _ _ _
    · rw [heq]
      have hsecond := (hfirst.observe hstopped (hclock (show 4 * turn ≤ 4 * turn + 1 by omega))).later hstopped
        (hclock (show 4 * turn + 1 ≤ 4 * turn + 3 by omega))
      simp only
      split
      · exact .looked hsecond fun _ _ _ => note_threw _ _ _ _
      · next hnone => exact .paused hsecond hnone fun _ _ => rfl
    · rw [heq]
      exact .looked hlast fun _ _ _ => note_threw _ _ _ _
  | check =>
    unfold operate
    rcases check_cases d (clock (4 * turn)) with ⟨category, -, heq⟩ | ⟨-, ⟨-, heq⟩ | heq⟩
    · rw [heq]
      exact .looked hlast fun _ _ _ => rfl
    · rw [heq]
      exact .looked hlast fun _ _ _ => rfl
    · rw [heq]
      exact .looked hlast fun _ _ _ => rfl
  | expiredCategory => exact .looked hlast fun _ _ _ => rfl
  | watch =>
    refine .looked ?_ fun _ _ _ => rfl
    unfold watch
    simp only
    split_ifs
    · exact ⟨⟨hlast.budget, hlast.stopped, hlast.phase, hlast.entered⟩, hlast.stays, hlast.expired⟩
    · exact hlast
  | cancel =>
    have h := Looked.refl hstopped (clock (4 * turn + 3))
    exact .looked ⟨⟨rfl, rfl, rfl, rfl⟩, h.stays, h.expired⟩ fun _ _ _ => rfl

/-! ### What every run keeps -/

/-- The ghost is the phase that is charged, and what has expired is that phase. -/
structure Inv (clock : ℕ → ℕ) (budget : ℕ) (s : DeadlineRun) : Prop where
  budget_eq : s.deadline.budget = budget
  stopped : s.deadline.stopped = false
  phase : s.current.map Prod.fst = s.deadline.phase
  entered : ∀ phase since, s.current = some (phase, since) → s.deadline.entered = since
  expired : ∀ category, s.deadline.expired = some category → ∃ phase, s.deadline.phase = some phase ∧
    category = timeout phase ∧ budget ≤ clock (4 * s.turn) - s.deadline.entered

variable {s : DeadlineRun} {budget : ℕ}

theorem inv_start (clock : ℕ → ℕ) (budget : ℕ) : Inv clock budget (start budget) :=
  ⟨rfl, rfl, rfl, fun _ _ h => (nomatch h), fun _ h => nomatch h⟩

/-- What a look at the clock finds in a run. -/
lemma Inv.of_observe (hi : Inv clock budget s) {now : ℕ} {category : String} (hclock : clock (4 * s.turn) ≤ now)
    (h : (s.deadline.observeExpiry now).expired = some category) : ∃ phase, s.deadline.phase = some phase ∧
      category = timeout phase ∧ budget ≤ now - s.deadline.entered := by
  rcases (observeExpiry_expired_iff hi.stopped).mp h with hthen | ⟨-, phase, hphase, hname, hdue⟩
  · obtain ⟨phase, hphase, hname, hdue⟩ := hi.expired category hthen
    exact ⟨phase, hphase, hname, by omega⟩
  · exact ⟨phase, hphase, hname, hi.budget_eq ▸ hdue⟩

theorem inv_step (hclock : Monotone clock) (hi : Inv clock budget s) (event : DeadlineEvent) :
    Inv clock budget (s.step clock event) := by
  have hmoved := operate_moved hi.stopped hclock s.turn event
  have hlate : clock (4 * s.turn + 3) ≤ clock (4 * (s.turn + 1)) := hclock (by omega)
  unfold step outcome
  generalize operate clock s.deadline s.turn event = result at hmoved ⊢
  cases hmoved with
  | looked h hnote =>
    rw [hnote _ _ hi.phase]
    refine ⟨h.budget.trans hi.budget_eq, h.stopped.trans hi.stopped, hi.phase.trans h.phase.symm,
      fun phase since hcurrent => h.entered.trans (hi.entered phase since hcurrent), fun category hcategory => ?_⟩
    obtain ⟨phase, hphase, hname, hdue⟩ := hi.of_observe (hclock (by omega)) (h.expired category hcategory)
    exact ⟨phase, h.phase.trans hphase, hname, by rw [h.entered]; exact hdue.trans (Nat.sub_le_sub_right hlate _)⟩
  | entered h hin hnote =>
    rw [hnote _ _ hi.phase]
    refine ⟨h.budget.trans hi.budget_eq, h.stopped.trans hi.stopped, rfl, fun phase since hcurrent => ?_,
      fun category hcategory => ?_⟩
    · cases hcurrent
      rfl
    · rw [hin] at hcategory
      cases hcategory
  | paused h hin hnote =>
    rw [hnote]
    refine ⟨h.budget.trans hi.budget_eq, h.stopped.trans hi.stopped, rfl, fun phase since hcurrent => (nomatch hcurrent),
      fun category hcategory => ?_⟩
    rw [hin] at hcategory
    cases hcategory

theorem inv_runAll (hclock : Monotone clock) (hi : Inv clock budget s) (events : List DeadlineEvent) :
    Inv clock budget (s.runAll clock events) := by
  induction events generalizing s with
  | nil => exact hi
  | cons event events ih => exact ih (inv_step hclock hi event)

/-! ### Expiry -/

/-- The current phase has lasted its budget. -/
def Due (clock : ℕ → ℕ) (budget : ℕ) (phase : SshStartupPhase) (s : DeadlineRun) : Prop :=
  ∃ since, s.current = some (phase, since) ∧ budget ≤ clock (4 * s.turn) - since

/-- Whoever looks at the clock now finds the phase expired. -/
lemma Due.observe {phase : SshStartupPhase} (hi : Inv clock budget s) (h : Due clock budget phase s) {now : ℕ}
    (hclock : clock (4 * s.turn) ≤ now) : (s.deadline.observeExpiry now).expired = some (timeout phase) := by
  obtain ⟨since, hcurrent, hdue⟩ := h
  have hphase : s.deadline.phase = some phase := by rw [← hi.phase, hcurrent, Option.map_some]
  rw [observeExpiry_expired_iff hi.stopped]
  cases hexpired : s.deadline.expired with
  | none => exact .inr ⟨rfl, phase, hphase, rfl, by rw [hi.budget_eq, hi.entered _ _ hcurrent]; omega⟩
  | some category =>
    obtain ⟨other, hother, rfl, -⟩ := hi.expired category hexpired
    rw [Option.some.inj (hother.symm.trans hphase)]
    exact .inl rfl

/-- **An operation fails once the phase has lasted its budget.** -/
theorem Due.fails {phase : SshStartupPhase} (hclock : Monotone clock) (hi : Inv clock budget s)
    (h : Due clock budget phase s) (event : DeadlineEvent) : event.Fails (timeout phase) (s.outcome clock event) := by
  have hnow := h.observe hi le_rfl
  have hcheck : s.deadline.check (clock (4 * s.turn)) =
      (s.deadline.observeExpiry (clock (4 * s.turn)), some (.transport (timeout phase))) := by
    rcases check_cases s.deadline (clock (4 * s.turn)) with ⟨category, hcategory, heq⟩ | ⟨hnone, -⟩
    · rw [heq, Option.some.inj (hcategory.symm.trans hnow)]
    · rw [hnow] at hnone
      cases hnone
  have htry : ∀ next, (s.deadline.tryEnterAt next (clock (4 * s.turn + 1)) (clock (4 * s.turn + 2))).2 = false := by
    intro next
    rcases tryEnterAt_cases hi.stopped next (clock (4 * s.turn + 1)) (clock (4 * s.turn + 2)) with ⟨-, heq⟩ | ⟨hnone, -⟩
    · rw [heq]
    · rw [h.observe hi (hclock (by omega))] at hnone
      cases hnone
  cases event with
  | enter next => simp only [DeadlineEvent.Fails, outcome, operate, enterAt, hcheck, Prod.map, outcomeOf]
  | tryEnter next => exact congrArg DeadlineOutcome.returned (htry next)
  | tryAdvance expected next =>
    simp only [DeadlineEvent.Fails, outcome, operate, tryAdvanceAt]
    split_ifs
    · rfl
    · exact congrArg DeadlineOutcome.returned (htry next)
  | pause => simp only [DeadlineEvent.Fails, outcome, operate, pauseAt, hcheck, Prod.map, outcomeOf]
  | check => simp only [DeadlineEvent.Fails, outcome, operate, hcheck, Prod.map, outcomeOf]
  | expiredCategory => exact congrArg DeadlineOutcome.category hnow
  | watch => rfl
  | cancel => rfl

lemma note_of_fails {event : DeadlineEvent} {outcome : DeadlineOutcome} {category : String}
    (h : event.Fails category outcome) (current : Option (SshStartupPhase × ℕ)) (now : ℕ) :
    note current now event outcome = current := by
  cases event <;> simp only [DeadlineEvent.Fails] at h <;> subst h <;> rfl

theorem Due.step {phase : SshStartupPhase} (hclock : Monotone clock) (hi : Inv clock budget s)
    (h : Due clock budget phase s) (event : DeadlineEvent) : Due clock budget phase (s.step clock event) := by
  obtain ⟨since, hcurrent, hdue⟩ := h
  refine ⟨since, (note_of_fails (Due.fails hclock hi ⟨since, hcurrent, hdue⟩ event) _ _).trans hcurrent, ?_⟩
  have hlater : clock (4 * s.turn) ≤ clock (4 * (s.turn + 1)) := hclock (by omega)
  exact hdue.trans (Nat.sub_le_sub_right hlater since)

theorem Due.runAll {phase : SshStartupPhase} (hclock : Monotone clock) (hi : Inv clock budget s)
    (h : Due clock budget phase s) (events : List DeadlineEvent) : Due clock budget phase (s.runAll clock events) := by
  induction events generalizing s with
  | nil => exact h
  | cons event events ih => exact ih (inv_step hclock hi event) (h.step hclock hi event)

/-- The event says that a phase has expired. -/
def Reports (category : String) (outcome : DeadlineOutcome) : Prop :=
  outcome = .threw (.transport category) ∨ outcome = .category (some category)

lemma check_reports {now : ℕ} {category : String} (h : Reports category (outcomeOf (d.check now).2)) :
    (d.check now).1.expired = some category := by
  rcases check_cases d now with ⟨other, hother, heq⟩ | ⟨-, ⟨-, heq⟩ | heq⟩
  · rw [heq] at h ⊢
    simp only [Reports, outcomeOf, DeadlineOutcome.threw.injEq, StartError.transport.injEq, reduceCtorEq, or_false] at h
    rwa [← h]
  · rw [heq] at h
    simp [Reports, outcomeOf] at h
  · rw [heq] at h
    simp [Reports, outcomeOf] at h

/-- Who is told of an expiry finds it in the deadline. -/
lemma expired_of_reports {turn : ℕ} {event : DeadlineEvent} {category : String}
    (h : Reports category (operate clock d turn event).2) : (operate clock d turn event).1.expired = some category := by
  cases event with
  | enter phase =>
    simp only [operate, enterAt, Prod.map_fst, Prod.map_snd, id_eq] at h ⊢
    have hfirst := @check_reports d (clock (4 * turn)) category
    rcases hcheck : d.check (clock (4 * turn)) with ⟨d₁, _ | error⟩
    · rw [hcheck] at h
      simp only at h ⊢
      rcases htry : d₁.tryEnterAt phase (clock (4 * turn + 1)) (clock (4 * turn + 2)) with ⟨d₂, _ | _⟩
      · rw [htry] at h
        exact check_reports h
      · rw [htry] at h
        simp [Reports, outcomeOf] at h
    · rw [hcheck] at h hfirst
      exact hfirst h
  | tryEnter | tryAdvance | watch | cancel => exact absurd h (by simp [Reports, operate])
  | pause =>
    simp only [operate, pauseAt, Prod.map_fst, Prod.map_snd, id_eq] at h ⊢
    have hfirst := @check_reports d (clock (4 * turn)) category
    rcases hcheck : d.check (clock (4 * turn)) with ⟨d₁, _ | error⟩
    · rw [hcheck] at h
      simp only at h ⊢
      cases hsecond : (d₁.observeExpiry (clock (4 * turn + 1))).expired with
      | none =>
        rw [hsecond] at h
        simp [Reports, outcomeOf] at h
      | some other =>
        rw [hsecond] at h
        simp only [Reports, outcomeOf, DeadlineOutcome.threw.injEq, StartError.transport.injEq, reduceCtorEq,
          or_false] at h
        simpa only [hsecond, Option.some.injEq] using h
    · rw [hcheck] at h hfirst
      exact hfirst h
  | check => exact check_reports h
  | expiredCategory =>
    simpa [Reports, operate] using h

/-- What is found expired is the current phase. -/
lemma Inv.of_operate (hclock : Monotone clock) (hi : Inv clock budget s) {event : DeadlineEvent} {category : String}
    (h : (operate clock s.deadline s.turn event).1.expired = some category) : ∃ phase since,
      s.current = some (phase, since) ∧ category = timeout phase ∧ budget ≤ clock (4 * s.turn + 3) - since := by
  have hfound : (s.deadline.observeExpiry (clock (4 * s.turn + 3))).expired = some category := by
    have hmoved := operate_moved hi.stopped hclock s.turn event
    generalize operate clock s.deadline s.turn event = result at hmoved h
    cases hmoved with
    | looked hlooked _ => exact hlooked.expired category h
    | entered _ hin | paused _ hin => exact absurd (hin.symm.trans h) (by simp)
  obtain ⟨phase, hphase, hname, hdue⟩ := hi.of_observe (hclock (by omega)) hfound
  obtain ⟨⟨current, since⟩, hcurrent, rfl⟩ := Option.map_eq_some_iff.mp (hi.phase.trans hphase)
  exact ⟨current, since, hcurrent, hname, hi.entered _ _ hcurrent ▸ hdue⟩

lemma note_of_samePhase {current : Option (SshStartupPhase × ℕ)} {phase : SshStartupPhase} {now since : ℕ}
    (hcurrent : current = some (phase, since)) {event : DeadlineEvent} {outcome : DeadlineOutcome}
    (h : (note current now event outcome).map Prod.fst = some phase) :
    note current now event outcome = some (phase, since) := by
  subst hcurrent
  have hrenew : ∀ next, (note.renew (some (phase, since)) now next).map Prod.fst = some phase →
      note.renew (some (phase, since)) now next = some (phase, since) := by
    intro next hnext
    unfold note.renew at hnext ⊢
    split_ifs at hnext ⊢ with hsame
    · rfl
    · exact absurd hnext.symm hsame
  unfold note at h ⊢
  split at h
  · exact hrenew _ h
  · exact hrenew _ h
  · exact hrenew _ h
  · cases h
  · rfl

/-- **Expiry.**  In every run: once the current phase has lasted its budget, all that follows fails with its category;
entering the current phase again leaves the time at which it began; and an expiry that is reported is that of the current
phase, charged from the time at which it began, so that nothing is charged behind a pause. -/
theorem deadline_run (hclock : Monotone clock) (budget : ℕ) (events : List DeadlineEvent) :
    let s := (start budget).runAll clock events
    (∀ phase since, s.current = some (phase, since) → budget ≤ clock (4 * s.turn) - since →
      ∀ later (event : DeadlineEvent), event.Fails (timeout phase) ((s.runAll clock later).outcome clock event)) ∧
    (∀ phase since event, s.current = some (phase, since) → (s.step clock event).current.map Prod.fst = some phase →
      (s.step clock event).current = some (phase, since)) ∧
    ∀ event category, Reports category (s.outcome clock event) → ∃ phase since, s.current = some (phase, since) ∧
      category = timeout phase ∧ budget ≤ clock (4 * s.turn + 3) - since := by
  intro s
  have hi : Inv clock budget s := inv_runAll hclock (inv_start clock budget) events
  refine ⟨fun phase since hcurrent hdue later event => ?_, fun phase since event hcurrent hsame => ?_,
    fun event category hreport => ?_⟩
  · have h : Due clock budget phase s := ⟨since, hcurrent, hdue⟩
    exact (h.runAll hclock hi later).fails hclock (inv_runAll hclock hi later) event
  · exact note_of_samePhase hcurrent hsame
  · exact hi.of_operate hclock (expired_of_reports hreport)

/-- Key exchange is entered again and again. -/
def rekeys : List DeadlineEvent :=
  [.tryEnter .keyExchange, .tryEnter .keyExchange, .enter .keyExchange, .tryEnter .keyExchange, .tryEnter .keyExchange,
    .tryEnter .keyExchange]

/-- It expires all the same. -/
theorem deadline_run_rekey : DeadlineEvent.Fails (timeout .keyExchange) .check
    ((((start 20).runAll id rekeys).runAll id []).outcome id .check) :=
  (deadline_run monotone_id 20 rekeys).1 .keyExchange 2 (by decide) (by decide) [] .check

end DeadlineRun

end VT7.Ssh
