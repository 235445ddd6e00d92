import Mathlib.Data.Nat.Notation
import Mathlib.Tactic.SplitIfs

/-!
# The startup deadline

`SshStartupDeadline`: a budget for each phase of starting a connection.  Expiry is observed by
whichever operation comes next, and stays; the watchdog then cancels the work that is under way.

The clock is an argument of the operations, in ticks since the deadline was created; nothing is
assumed about it.
-/

namespace VT7.Ssh

/-- `SshStartupPhase`. -/
inductive SshStartupPhase where
  | resolution
  | knownHosts
  | credentials
  | identification
  | keyExchange
  | authentication
  | pty
  | trustUpdate
  deriving DecidableEq

/-- The exceptions of a start: `SshTransportException`, `OperationCanceledException`, and what the
library, the file system or a handler throws. -/
inductive StartError where
  | transport (category : String)
  | cancelled
  | other
  deriving DecidableEq

/-- `SshStartupDeadline`; `cancelled` says that `_operation` is cancelled. -/
structure SshStartupDeadline where
  budget : ℕ
  phase : Option SshStartupPhase
  entered : ℕ
  expired : Option String
  cancelled : Bool
  stopped : Bool

namespace SshStartupDeadline

/-- `Name`. -/
def name : SshStartupPhase → String
  | .resolution => "address-family resolution"
  | .knownHosts => "known-host store loading"
  | .credentials => "authentication setup"
  | .identification => "DNS, TCP or SSH identification"
  | .keyExchange => "SSH key exchange and host-key verification"
  | .authentication => "SSH authentication"
  | .pty => "remote PTY allocation"
  | .trustUpdate => "known-host durable addition"

/-- The constructor. -/
def create (budget : ℕ) : SshStartupDeadline := ⟨budget, none, 0, none, false, false⟩

/-- `ObserveExpiry`. -/
def observeExpiry (d : SshStartupDeadline) (now : ℕ) : SshStartupDeadline :=
  match d.phase with
  | some phase =>
    if d.stopped = false ∧ d.expired = none ∧ d.budget ≤ now - d.entered then
      { d with expired := some (name phase ++ " timeout") }
    else d
  | none => d

/-- `Check`, with the exception that it throws. -/
def check (d : SshStartupDeadline) (now : ℕ) : SshStartupDeadline × Option StartError :=
  let d := d.observeExpiry now
  match d.expired with
  | some category => (d, some (.transport category))
  | none => (d, if d.cancelled then some .cancelled else none)

/-- `TryEnter`. -/
def tryEnter (d : SshStartupDeadline) (phase : SshStartupPhase) (now : ℕ) :
    SshStartupDeadline × Bool :=
  let d := d.observeExpiry now
  if d.stopped = true ∨ d.expired ≠ none ∨ d.cancelled = true then (d, false)
  else if d.phase = some phase then (d, true)
  else ({ d with phase := some phase, entered := now }, true)

/-- `TryAdvance`. -/
def tryAdvance (d : SshStartupDeadline) (expected next : SshStartupPhase) (now : ℕ) :
    SshStartupDeadline × Bool :=
  if d.phase ≠ some expected then (d, false) else d.tryEnter next now

/-- `Enter`. -/
def enter (d : SshStartupDeadline) (phase : SshStartupPhase) (now : ℕ) :
    SshStartupDeadline × Option StartError :=
  match d.check now with
  | (d, some error) => (d, some error)
  | (d, none) =>
    match d.tryEnter phase now with
    | (d, true) => (d, none)
    | (d, false) => d.check now

/-- `Pause`. -/
def pause (d : SshStartupDeadline) (now : ℕ) : SshStartupDeadline × Option StartError :=
  match d.check now with
  | (d, some error) => (d, some error)
  | (d, none) =>
    let d := d.observeExpiry now
    match d.expired with
    | some category => (d, some (.transport category))
    | none => ({ d with phase := none }, none)

/-- A turn of `WatchAsync`. -/
def watch (d : SshStartupDeadline) (now : ℕ) : SshStartupDeadline :=
  let d := d.observeExpiry now
  if d.stopped = false ∧ d.expired ≠ none then { d with cancelled := true } else d

/-- `StopAsync`. -/
def stop (d : SshStartupDeadline) : SshStartupDeadline := { d with stopped := true }

/-- The linked token is cancelled. -/
def cancel (d : SshStartupDeadline) : SshStartupDeadline := { d with cancelled := true }

/-! ### Expiry stays -/

variable {d d' : SshStartupDeadline} {now : ℕ}

/-- The phase has expired, or does so when somebody looks at the clock. -/
def Overdue (d : SshStartupDeadline) (now : ℕ) : Prop := (d.observeExpiry now).expired ≠ none

theorem observeExpiry_expired (h : d.expired ≠ none) (now : ℕ) : d.observeExpiry now = d := by
  unfold observeExpiry
  cases d.phase with
  | none => rfl
  | some phase => exact if_neg fun hc => h hc.2.1

theorem overdue_of_expired (h : d.expired ≠ none) (now : ℕ) : d.Overdue now := by
  unfold Overdue
  rwa [observeExpiry_expired h]

/-- **A check passes** only in time. -/
theorem check_passed (h : d.check now = (d', none)) : ¬ d.Overdue now ∧ d' = d.observeExpiry now := by
  unfold check at h
  cases he : (d.observeExpiry now).expired with
  | some category => simp [he] at h
  | none =>
    simp only [he, Prod.mk.injEq] at h
    exact ⟨fun ho => ho he, h.1.symm⟩

theorem check_threw {error : Option StartError} (h : d.check now = (d', error)) (ho : d.Overdue now) :
    error ≠ none ∧ d'.expired ≠ none := by
  unfold check at h
  cases he : (d.observeExpiry now).expired with
  | none => exact absurd he ho
  | some category =>
    simp only [he, Prod.mk.injEq] at h
    obtain ⟨rfl, rfl⟩ := h
    simp [he]

/-- **A phase is entered** only in time. -/
theorem enter_passed {phase : SshStartupPhase} (h : d.enter phase now = (d', none)) :
    ¬ d.Overdue now := by
  unfold enter at h
  cases hc : d.check now with
  | mk d₁ error =>
    cases error with
    | some error => simp [hc] at h
    | none => exact (check_passed hc).1

theorem enter_threw {phase : SshStartupPhase} {error : Option StartError}
    (h : d.enter phase now = (d', error)) (ho : d.Overdue now) : error ≠ none ∧ d'.expired ≠ none := by
  unfold enter at h
  cases hc : d.check now with
  | mk d₁ error₁ =>
    obtain ⟨hne, hexpired⟩ := check_threw hc ho
    cases error₁ with
    | none => exact absurd rfl hne
    | some error₁ =>
      simp only [hc, Prod.mk.injEq] at h
      obtain ⟨rfl, rfl⟩ := h
      exact ⟨by simp, hexpired⟩

/-- **The clock is paused** only in time. -/
theorem pause_passed (h : d.pause now = (d', none)) : ¬ d.Overdue now := by
  unfold pause at h
  cases hc : d.check now with
  | mk d₁ error =>
    cases error with
    | some error => simp [hc] at h
    | none => exact (check_passed hc).1

theorem tryEnter_expired (phase : SshStartupPhase) (h : d.expired ≠ none) (now : ℕ) :
    (d.tryEnter phase now).1.expired ≠ none := by
  unfold tryEnter
  rw [observeExpiry_expired h, if_pos (.inr (.inl h))]
  exact h

theorem tryAdvance_expired (expected next : SshStartupPhase) (h : d.expired ≠ none) (now : ℕ) :
    (d.tryAdvance expected next now).1.expired ≠ none := by
  unfold tryAdvance
  split_ifs
  · exact h
  · exact tryEnter_expired next h now

theorem watch_expired (h : d.expired ≠ none) (now : ℕ) : (d.watch now).expired ≠ none := by
  unfold watch
  rw [observeExpiry_expired h]
  simp only
  split_ifs
  · exact h
  · exact h

end SshStartupDeadline

end VT7.Ssh
