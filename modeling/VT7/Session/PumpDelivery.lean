import VT7.Session.Pump

/-!
# What the output pump delivers

Every call that got a permit is in one place: before the lock, throwing, with a write that is not
settled, or over.  From this follow the bound on the writes under way and that the semaphore is never
released above its maximum (`Permits`), that a call is over once (`Placed`), and that writes reach the
document in order (`InOrder`).

`Scheduled` is the invariant behind the rollback: while no `Drain` is scheduled the queue is empty.
-/

namespace VT7.Session

open VT7.Lib

/-- `Drain` is behind the dispatch and has not given up `_drainScheduled`. -/
def DrainState.active : DrainState → Bool
  | .looking | .committing _ _ | .settling _ _ | .releasing _ | .failing => true
  | .idle | .abandoning _ | .ending _ => false

/-- The document has refused a write. -/
def DrainState.broken : DrainState → Bool
  | .settling _ false | .releasing false | .failing => true
  | _ => false

namespace PumpState

variable {s s' : PumpState} {e : PumpEvent}

/-! ### Scheduling -/

/-- The queue and the callbacks. -/
structure Scheduled (s : PumpState) : Prop where
  /-- One `Drain` is scheduled or runs, as the flag says. -/
  once : s.scheduled + (if s.drain.active then 1 else 0) = if s.drainScheduled then 1 else 0
  /-- **Without a scheduled `Drain` the queue is empty.** -/
  empty : s.drainScheduled = false → s.writes = []
  disposed : s.disposed = true → s.accepting = false ∧ s.writes = []
  attached : s.attached = !s.disposed
  disposing : s.disposed = false → s.disposing = none
  committing : ∀ pending, s.drain ≠ .committing pending false
  ending : s.drain ≠ .ending false
  closed : s.accepting = false → s.completion.isSome = true ∨ s.failed = true ∨ s.disposed = true
  /-- A rollback takes out what was put in. -/
  rollbacks : ∀ rollback ∈ s.rollbacks, rollback.2 = some rollback.1

theorem scheduled_start : Scheduled start := by
  constructor <;> simp [start, DrainState.active]

theorem scheduled_of_acts (h : Acts s e s') (hi : Scheduled s) : Scheduled s' := by
  obtain ⟨honce, hempty, hdisposed, hattached, hdisposing, hcommitting, hending, hclosed,
    hrollbacks⟩ := hi
  cases h with
  | enterQueued _ haccepting hundisposed hscheduled =>
    refine ⟨honce, ?_, ?_, hattached, hdisposing, hcommitting, hending, hclosed, hrollbacks⟩
    · simp [hscheduled]
    · simp [hundisposed]
  | enterScheduled _ haccepting hundisposed hunscheduled =>
    refine ⟨?_, ?_, ?_, hattached, hdisposing, hcommitting, hending, hclosed, hrollbacks⟩
    · simp only [hunscheduled, Bool.false_eq_true, if_false] at honce
      simp only [if_true]
      omega
    · simp
    · simp [hundisposed]
  | enterRolledBack _ hunscheduled =>
    refine ⟨honce, ?_, ?_, hattached, hdisposing, hcommitting, hending, hclosed, ?_⟩
    · simp [hempty hunscheduled]
    · intro h
      exact ⟨(hdisposed h).1, by simp [hempty hunscheduled]⟩
    · intro rollback hmem
      rcases List.mem_append.mp hmem with hmem | hmem
      · exact hrollbacks rollback hmem
      · simp [List.mem_singleton.mp hmem, hempty hunscheduled]
  | complete _ hundisposed _ hscheduled =>
    refine ⟨honce, hempty, ?_, hattached, hdisposing, hcommitting, hending, ?_, hrollbacks⟩
    · simp [hundisposed]
    · simp
  | completeScheduled _ hundisposed _ hunscheduled =>
    refine ⟨?_, ?_, ?_, hattached, hdisposing, hcommitting, hending, ?_, hrollbacks⟩
    · simp only [hunscheduled, Bool.false_eq_true, if_false] at honce
      simp only [if_true]
      omega
    · simp
    · simp [hundisposed]
    · simp
  | completeFailed _ hunscheduled =>
    refine ⟨honce, hempty, ?_, hattached, hdisposing, hcommitting, hending, ?_, hrollbacks⟩
    · intro h
      exact ⟨rfl, (hdisposed h).2⟩
    · simp
  | dispose hundisposed =>
    refine ⟨honce, ?_, ?_, ?_, ?_, hcommitting, hending, ?_, hrollbacks⟩ <;> simp
  | disposeRelease hloop | disposeSettle hloop =>
    refine ⟨honce, hempty, hdisposed, hattached, ?_, hcommitting, hending, hclosed, hrollbacks⟩
    intro h
    simp [hdisposing h] at hloop
  | disposeEnd hloop hkept =>
    refine ⟨honce, hempty, hdisposed, hattached, ?_, hcommitting, hending, ?_, hrollbacks⟩
    · simp
    · simpa [hkept] using hclosed
  | dispatch hdrain hscheduled =>
    refine ⟨?_, hempty, hdisposed, hattached, hdisposing, ?_, ?_, hclosed, hrollbacks⟩
    · simp only [hdrain, DrainState.active, Bool.false_eq_true, if_false] at honce
      simp only [DrainState.active, if_true]
      omega
    · simp
    · simp
  | lookDisposed hdrain h =>
    refine ⟨?_, ?_, hdisposed, hattached, hdisposing, ?_, ?_, hclosed, hrollbacks⟩
    · simp only [hdrain, DrainState.active, if_true] at honce
      simp only [DrainState.active, Bool.false_eq_true, if_false]
      split at honce <;> omega
    · exact fun _ => (hdisposed h).2
    · simp
    · simp
  | lookEmpty hdrain hwrites =>
    refine ⟨?_, ?_, hdisposed, hattached, hdisposing, ?_, ?_, hclosed, hrollbacks⟩
    · simp only [hdrain, DrainState.active, if_true] at honce
      simp only [DrainState.active, Bool.false_eq_true, if_false]
      split at honce <;> omega
    · exact fun _ => hwrites
    · simp
    · simp
  | lookEnd hdrain hwrites hundisposed =>
    refine ⟨?_, ?_, hdisposed, hattached, hdisposing, ?_, ?_, hclosed, hrollbacks⟩
    · simp only [hdrain, DrainState.active, if_true] at honce
      simp only [DrainState.active, Bool.false_eq_true, if_false]
      split at honce <;> omega
    · exact fun _ => hwrites
    · simp
    · simp [hattached, hundisposed]
  | lookTake hdrain hwrites hundisposed =>
    refine ⟨?_, ?_, ?_, hattached, hdisposing, ?_, ?_, hclosed, hrollbacks⟩
    · simpa [hdrain, DrainState.active] using honce
    · intro h
      simp [hempty h] at hwrites
    · simp [hundisposed]
    · simp [hattached, hundisposed]
    · simp
  | commitDetached hdrain => exact absurd hdrain (hcommitting _)
  | commit hdrain | commitFailed hdrain | settle hdrain | release hdrain | releaseFailed hdrain =>
    refine ⟨?_, hempty, hdisposed, hattached, hdisposing, ?_, ?_, hclosed, hrollbacks⟩
    · simpa [hdrain, DrainState.active] using honce
    · simp
    · simp
  | fail hdrain =>
    refine ⟨?_, ?_, ?_, hattached, hdisposing, ?_, ?_, ?_, hrollbacks⟩
    · simp only [hdrain, DrainState.active, if_true] at honce
      simp only [DrainState.active, Bool.false_eq_true, if_false]
      split at honce <;> omega
    all_goals simp
  | failRelease hdrain | failSettle hdrain =>
    refine ⟨?_, hempty, hdisposed, hattached, hdisposing, ?_, ?_, hclosed, hrollbacks⟩
    · simpa [hdrain, DrainState.active] using honce
    · simp
    · simp
  | failEnd hdrain hkept | endStream hdrain hkept | endDetached hdrain hkept =>
    refine ⟨?_, hempty, hdisposed, hattached, hdisposing, ?_, ?_, ?_, hrollbacks⟩
    · simpa [hdrain, DrainState.active] using honce
    · simp
    · simp
    · simpa [hkept] using hclosed
  | _ => exact ⟨honce, hempty, hdisposed, hattached, hdisposing, hcommitting, hending, hclosed, hrollbacks⟩

/-! ### Every call in one place -/

theorem sound_start : Sound start := by
  constructor <;>
    simp [permits, start, held, DrainState.inFlight, DrainState.loop, DrainState.debt, unsettled, owed,
      debt, Permits.places]

/-- **A step moves one call or one permit**, or none. -/
theorem move_of_acts (h : Acts s e s') (hs : Scheduled s) :
    s'.permits = s.permits ∨ Permits.Move s.permits s'.permits := by
  cases h with
  | refused | call | cancel | completedBefore | disposedBefore => exact .inl rfl
  | complete | completeScheduled | completeFailed => exact .inl rfl
  | pass _ free => exact .inr (.pass s.permits _ free)
  | enterClosed mem => exact .inr (.turnBack s.permits _ mem)
  | enterQueued mem | enterScheduled mem =>
    refine .inr (.hold s.permits _ mem _ ?_)
    simp only [permits, held, ← List.append_assoc]
    exact List.perm_append_singleton _ _
  | enterRolledBack mem hunscheduled =>
    have hmove := Permits.Move.turnBack s.permits _ mem
    refine .inr ?_
    simpa [permits, held, owed, hs.empty hunscheduled] using hmove
  | leave mem => exact .inr (.leave s.permits _ _ mem)
  | dispose hundisposed =>
    refine .inl ?_
    simp [permits, held, unsettled, owed, debt, hs.disposing hundisposed]
  | disposeRelease hloop =>
    have hmove := Permits.Move.release s.permits (s.drain.debt + debt s.drain.loop)
      (by simp [permits, owed, debt, hloop, add_assoc])
    refine .inr ?_
    simpa [permits, held, unsettled, owed, debt, hloop] using hmove
  | @disposeSettle write rest completes hloop =>
    have hperm : s.permits.held.Perm
        (write :: (s.drain.inFlight ++ (unsettled s.drain.loop ++ (rest ++ s.writes)))) := by
      simp only [permits, held, unsettled, hloop, Option.elim_some, List.cons_append]
      rw [← List.append_assoc, ← List.append_assoc]
      exact List.perm_middle
    have hmove := Permits.Move.finish s.permits write false _ hperm
    refine .inr ?_
    simpa [permits, held, unsettled, owed, debt, hloop, add_assoc] using hmove
  | disposeEnd hloop =>
    refine .inl ?_
    simp [permits, held, unsettled, owed, debt, hloop]
  | dispatch hdrain | lookDisposed hdrain | lookEmpty hdrain | lookEnd hdrain | commitDetached hdrain
  | commit hdrain | commitFailed hdrain | failEnd hdrain | endStream hdrain | endDetached hdrain =>
    refine .inl ?_
    simp [permits, held, owed, hdrain, DrainState.inFlight, DrainState.loop, DrainState.debt, unsettled,
      debt]
  | @lookTake pending rest hdrain hwrites =>
    have hperm : (pending :: (unsettled s.disposing ++ rest)).Perm s.permits.held := by
      simp only [permits, held, hdrain, DrainState.inFlight, DrainState.loop, unsettled,
        Option.elim_none, List.nil_append, hwrites]
      exact List.perm_middle.symm
    have hmove := Permits.Move.rearrange s.permits _ hperm
    refine .inr ?_
    simpa [permits, held, owed, hdrain, DrainState.inFlight, DrainState.loop, DrainState.debt,
      unsettled, debt] using hmove
  | @settle pending success hdrain =>
    have hperm : s.permits.held.Perm (pending :: (unsettled s.disposing ++ s.writes)) := by
      simp [permits, held, hdrain, DrainState.inFlight, DrainState.loop, unsettled]
    have hmove := Permits.Move.finish s.permits pending success _ hperm
    refine .inr ?_
    simpa [permits, held, owed, hdrain, DrainState.inFlight, DrainState.loop, DrainState.debt,
      unsettled, debt, add_comm] using hmove
  | release hdrain | releaseFailed hdrain =>
    have hmove := Permits.Move.release s.permits (debt s.disposing)
      (by simp [permits, owed, hdrain, DrainState.loop, DrainState.debt, debt, add_comm])
    refine .inr ?_
    simpa [permits, held, owed, hdrain, DrainState.inFlight, DrainState.loop, DrainState.debt,
      unsettled, debt] using hmove
  | fail hdrain =>
    have hperm : (s.writes ++ unsettled s.disposing).Perm s.permits.held := by
      simp only [permits, held, hdrain, DrainState.inFlight, DrainState.loop, unsettled,
        Option.elim_none, List.nil_append]
      exact List.perm_append_comm
    have hmove := Permits.Move.rearrange s.permits _ hperm
    refine .inr ?_
    simpa [permits, held, owed, hdrain, DrainState.inFlight, DrainState.loop, DrainState.debt,
      unsettled, debt] using hmove
  | failRelease hdrain =>
    have hmove := Permits.Move.release s.permits (debt s.disposing)
      (by simp [permits, owed, hdrain, DrainState.loop, DrainState.debt, debt, add_comm])
    refine .inr ?_
    simpa [permits, held, owed, hdrain, DrainState.inFlight, DrainState.loop, DrainState.debt,
      unsettled, debt] using hmove
  | @failSettle write rest completes hdrain =>
    have hperm : s.permits.held.Perm (write :: (rest ++ (unsettled s.disposing ++ s.writes))) := by
      simp [permits, held, hdrain, DrainState.inFlight, DrainState.loop, unsettled]
    have hmove := Permits.Move.finish s.permits write false _ hperm
    refine .inr ?_
    simpa [permits, held, owed, hdrain, DrainState.inFlight, DrainState.loop, DrainState.debt,
      unsettled, debt, add_comm] using hmove

theorem sound_of_acts (h : Acts s e s') (hs : Scheduled s) (hi : Sound s) : Sound s' := by
  rcases move_of_acts h hs with heq | hmove
  · show s'.permits.Sound maximumQueuedChunks
    rw [heq]
    exact hi
  · exact hi.of_move hmove

/-- No call gets two permits. -/
structure Distinct (s : PumpState) : Prop where
  nodup : ((s.waiting ++ s.passed).map (·.call)).Nodup
  called : ∀ write ∈ s.waiting ++ s.passed, write.call ∈ s.called

theorem distinct_start : Distinct start := by
  constructor <;> simp [start]

theorem distinct_of_acts (h : Acts s e s') (hi : Distinct s) : Distinct s' := by
  obtain ⟨hnodup, hcalled⟩ := hi
  cases h with
  | refused new =>
    refine ⟨hnodup, ?_⟩
    intro write hmem
    exact List.mem_append_left _ (hcalled write hmem)
  | @call write new =>
    have hperm : ((s.waiting ++ [write]) ++ s.passed).Perm (write :: (s.waiting ++ s.passed)) := by
      simp
    refine ⟨?_, ?_⟩
    · rw [(hperm.map _).nodup_iff, List.map_cons, List.nodup_cons]
      refine ⟨?_, hnodup⟩
      intro hmem
      obtain ⟨other, hother, heq⟩ := List.mem_map.mp hmem
      exact new (heq ▸ hcalled other hother)
    · intro other hmem
      rcases List.mem_cons.mp (hperm.mem_iff.mp hmem) with rfl | hmem
      · simp
      · exact List.mem_append_left _ (hcalled other hmem)
  | @cancel write =>
    have hsub := (List.erase_sublist (a := write) (l := s.waiting)).append_right s.passed
    exact ⟨hnodup.sublist (hsub.map _), fun other hmem => hcalled other (hsub.subset hmem)⟩
  | @pass write mem =>
    have hperm : (s.waiting.erase write ++ (s.passed ++ [write])).Perm (s.waiting ++ s.passed) := by
      rw [← List.append_assoc]
      exact (List.perm_append_singleton _ _).trans ((List.perm_cons_erase mem).symm.append_right _)
    refine ⟨((hperm.map _).nodup_iff).mpr hnodup, ?_⟩
    intro other hmem
    exact hcalled other (hperm.mem_iff.mp hmem)
  | _ => exact ⟨hnodup, hcalled⟩

/-- The calls that got a permit, place by place, are all different. -/
theorem places_nodup (hsound : Sound s) (hi : Distinct s) : s.permits.places.Nodup := by
  have hpassed : s.passed.Nodup := by
    have hnodup := hi.nodup
    rw [List.map_append] at hnodup
    exact (List.nodup_append.mp hnodup).2.1.of_map _
  exact (hsound.placed.nodup_iff).mp hpassed

/-! ### The order of the writes -/

/-- The write `Drain` has taken and not handed to the document. -/
def uncommitted : DrainState → List PumpWrite
  | .committing pending _ => [pending]
  | _ => []

/-- The writes go through the queue in order. -/
structure InOrder (s : PumpState) : Prop where
  enqueued : s.enqueued = s.reached ++ (uncommitted s.drain ++ (s.writes ++ s.dropped))
  /-- What was dropped was the end of the queue. -/
  dropped : s.dropped = [] ∨ (s.accepting = false ∧ s.writes = [])
  placed : ∀ write ∈ s.enqueued, write ∈ s.held ++ s.outcomes.map (·.1)
  nodup : s.enqueued.Nodup
  written : s.written.Sublist s.reached

theorem inOrder_start : InOrder start := by
  constructor <;> simp [start, uncommitted]

theorem mem_of_acts (h : Acts s e s') (hs : Scheduled s) {write : PumpWrite}
    (hmem : write ∈ s.held ++ s.outcomes.map (·.1)) :
    write ∈ s'.held ++ s'.outcomes.map (·.1) := by
  rcases move_of_acts h hs with heq | hmove
  · have hheld : s'.held = s.held := congrArg Permits.held heq
    have houtcomes : s'.outcomes = s.outcomes := congrArg Permits.finished heq
    rwa [hheld, houtcomes]
  · exact hmove.mem_of_mem hmem

/-- A call before the lock has not enqueued its write. -/
theorem not_mem_enqueued (hsound : Sound s) (hd : Distinct s) (hi : InOrder s) {write : PumpWrite}
    (hmem : write ∈ s.admitted) : write ∉ s.enqueued := by
  intro henqueued
  have hnodup := places_nodup hsound hd
  have hdisjoint := (List.nodup_append.mp hnodup).2.2 write hmem write
  exact hdisjoint (List.mem_append_right _ (hi.placed write henqueued)) rfl

theorem inOrder_of_acts (h : Acts s e s') (hs : Scheduled s) (hsound : Sound s) (hd : Distinct s)
    (hi : InOrder s) : InOrder s' := by
  have hplaced : ∀ write ∈ s.enqueued, write ∈ s'.held ++ s'.outcomes.map (·.1) :=
    fun write hmem => mem_of_acts h hs (hi.placed write hmem)
  obtain ⟨henqueued, hdropped, -, hnodup, hwritten⟩ := id hi
  cases h with
  | complete | completeScheduled | completeFailed =>
    exact ⟨henqueued, hdropped.imp_right fun h => ⟨rfl, h.2⟩, hplaced, hnodup, hwritten⟩
  | @enterQueued write _ mem haccepting | @enterScheduled write _ mem haccepting =>
    have hnew := not_mem_enqueued hsound hd hi mem
    have hnothing : s.dropped = [] := by simpa [haccepting] using hdropped
    refine ⟨?_, .inl hnothing, ?_, ?_, hwritten⟩
    · simp [henqueued, hnothing]
    · intro other hmem
      rcases List.mem_append.mp hmem with hmem | hmem
      · exact hplaced other hmem
      · rw [List.mem_singleton.mp hmem]
        simp [held]
    · rw [(List.perm_append_singleton _ _).nodup_iff, List.nodup_cons]
      exact ⟨hnew, hnodup⟩
  | enterRolledBack _ hunscheduled =>
    have hwrites := hs.empty hunscheduled
    refine ⟨?_, ?_, hplaced, hnodup, hwritten⟩
    · simpa [hwrites] using henqueued
    · simpa [hwrites] using hdropped
  | dispose hundisposed =>
    refine ⟨?_, .inr ⟨rfl, rfl⟩, hplaced, hnodup, hwritten⟩
    rcases hdropped with hdropped | ⟨-, hwrites⟩
    · simpa [hdropped] using henqueued
    · simpa [hwrites] using henqueued
  | dispatch hdrain | lookDisposed hdrain | lookEmpty hdrain | lookEnd hdrain | settle hdrain
  | release hdrain | releaseFailed hdrain | failRelease hdrain | failSettle hdrain | failEnd hdrain
  | endStream hdrain | endDetached hdrain =>
    refine ⟨?_, hdropped, hplaced, hnodup, hwritten⟩
    simpa [hdrain, uncommitted] using henqueued
  | lookTake hdrain hwrites =>
    refine ⟨?_, ?_, hplaced, hnodup, hwritten⟩
    · simpa [hdrain, hwrites, uncommitted] using henqueued
    · simp only [hwrites, reduceCtorEq, and_false, or_false] at hdropped
      exact .inl hdropped
  | commitDetached hdrain => exact absurd hdrain (hs.committing _)
  | commit hdrain =>
    refine ⟨?_, hdropped, hplaced, hnodup, hwritten.append_right _⟩
    simpa [hdrain, uncommitted] using henqueued
  | commitFailed hdrain =>
    refine ⟨?_, hdropped, hplaced, hnodup, hwritten.trans (List.sublist_append_left _ _)⟩
    simpa [hdrain, uncommitted] using henqueued
  | fail hdrain =>
    refine ⟨?_, .inr ⟨rfl, rfl⟩, hplaced, hnodup, hwritten⟩
    rcases hdropped with hdropped | ⟨-, hwrites⟩
    · simpa [hdrain, hdropped, uncommitted] using henqueued
    · simpa [hdrain, hwrites, uncommitted] using henqueued
  | _ => exact ⟨henqueued, hdropped, hplaced, hnodup, hwritten⟩

/-! ### Outcomes -/

/-- A call succeeds when its write was written. -/
structure Honest (s : PumpState) : Prop where
  success : ∀ write, (write, true) ∈ s.outcomes → write ∈ s.written
  written : ∀ write ∈ s.written, (write, true) ∈ s.outcomes ∨ s.drain = .settling write true
  settling : ∀ write, s.drain = .settling write true → write ∈ s.written

theorem honest_start : Honest start := by
  constructor <;> simp [start]

/-- A failure does not concern the writes that were written. -/
theorem Honest.fails (hi : Honest s) (write : PumpWrite)
    (houtcomes : s'.outcomes = s.outcomes ++ [(write, false)]) (hwritten : s'.written = s.written)
    (hdrain : ∀ other, s'.drain = .settling other true ↔ s.drain = .settling other true) :
    Honest s' where
  success := by
    intro other hmem
    rw [hwritten]
    exact hi.success other (by simpa [houtcomes] using hmem)
  written := by
    intro other hmem
    rw [hwritten] at hmem
    rw [houtcomes, hdrain other]
    exact (hi.written other hmem).imp_left (List.mem_append_left _)
  settling := by
    intro other h
    rw [hwritten]
    exact hi.settling other ((hdrain other).mp h)

theorem honest_of_acts (h : Acts s e s') (hs : Scheduled s) (hi : Honest s) : Honest s' := by
  obtain ⟨hsuccess, hwritten, hsettling⟩ := id hi
  cases h with
  | leave | disposeSettle => exact hi.fails _ rfl rfl fun _ => Iff.rfl
  | dispatch hdrain | lookDisposed hdrain | lookEmpty hdrain | lookEnd hdrain | lookTake hdrain
  | release hdrain | releaseFailed hdrain | fail hdrain | failRelease hdrain | failEnd hdrain
  | endStream hdrain | endDetached hdrain =>
    refine ⟨hsuccess, ?_, by simp⟩
    simpa [hdrain] using hwritten
  | commitDetached hdrain => exact absurd hdrain (hs.committing _)
  | @commit pending hdrain =>
    refine ⟨?_, ?_, ?_⟩
    · intro write hmem
      exact List.mem_append_left _ (hsuccess write hmem)
    · intro write hmem
      rcases List.mem_append.mp hmem with hmem | hmem
      · exact .inl (by simpa [hdrain] using hwritten write hmem)
      · exact .inr (by rw [List.mem_singleton.mp hmem])
    · intro write heq
      cases heq
      exact List.mem_append_right _ (List.mem_singleton_self _)
  | commitFailed hdrain =>
    refine ⟨hsuccess, ?_, by simp⟩
    simpa [hdrain] using hwritten
  | @settle pending success hdrain =>
    cases success with
    | false => exact hi.fails _ rfl rfl fun _ => by simp [hdrain]
    | true =>
      refine ⟨?_, ?_, by simp⟩
      · intro write hmem
        rcases List.mem_append.mp hmem with hmem | hmem
        · exact hsuccess write hmem
        · cases List.mem_singleton.mp hmem
          exact hsettling _ hdrain
      · intro write hmem
        refine .inl ?_
        rcases hwritten write hmem with h | h
        · exact List.mem_append_left _ h
        · cases hdrain.symm.trans h
          exact List.mem_append_right _ (List.mem_singleton_self _)
  | failSettle hdrain => exact hi.fails _ rfl rfl fun _ => by simp [hdrain]
  | _ => exact ⟨hsuccess, hwritten, hsettling⟩

/-- **A call that is over succeeded if and only if its write was written.** -/
theorem Honest.success_iff (hi : Honest s) (hsound : Sound s) (hd : Distinct s) {write : PumpWrite}
    {success : Bool} (hmem : (write, success) ∈ s.outcomes) :
    success = true ↔ write ∈ s.written := by
  cases success with
  | true => simp [hi.success write hmem]
  | false =>
    simp only [Bool.false_eq_true, false_iff]
    intro hwritten
    have hplaces := places_nodup hsound hd
    have hheld := (List.nodup_append.mp (List.nodup_append.mp hplaces).2.1).2.1
    rcases hi.written write hwritten with htrue | hsettling
    · have hnodup := (List.nodup_append.mp hheld).2.1
      have heq := List.inj_on_of_nodup_map hnodup hmem htrue rfl
      simp at heq
    · -- a write that is being settled is not settled
      refine (List.nodup_append.mp hheld).2.2 write ?_ write (List.mem_map_of_mem hmem) rfl
      simp [permits, held, hsettling, DrainState.inFlight]

/-! ### The end of the stream -/

/-- `EndStream` comes behind the last write. -/
structure Ended (s : PumpState) : Prop where
  /-- As long as `Drain` may go on, the document took every write. -/
  clean : s.accepting = true ∨ s.drainScheduled = true → s.drain.broken = false →
    s.written = s.reached ∧ (s.disposed = true ∨ s.dropped = [])
  loop : s.drain.loop ≠ none → s.accepting = false ∧ s.failed = true ∧ s.drainScheduled = false
  ended : 0 < s.ends ∨ s.drain = .ending true →
    s.accepting = false ∧ s.completion.isSome = true ∧ s.drainScheduled = false ∧
      s.written = s.enqueued
  once : s.ends + (if s.drain = .ending true then 1 else 0) ≤ 1

theorem ended_start : Ended start := by
  constructor <;> simp [start, DrainState.loop]

theorem Scheduled.of_active (hs : Scheduled s) (hactive : s.drain.active = true) :
    s.drainScheduled = true := by
  by_contra h
  have honce := hs.once
  rw [hactive, Bool.not_eq_true _ |>.mp h] at honce
  simp at honce

theorem Scheduled.of_scheduled (hs : Scheduled s) (hpos : 0 < s.scheduled) :
    s.drainScheduled = true := by
  by_contra h
  have honce := hs.once
  rw [Bool.not_eq_true _ |>.mp h] at honce
  simp only [Bool.false_eq_true, if_false] at honce
  omega

theorem Ended.ends_eq_zero (hi : Ended s) (hscheduled : s.drainScheduled = true) : s.ends = 0 := by
  by_contra hpos
  have hunscheduled := (hi.ended (.inl (Nat.pos_of_ne_zero hpos))).2.2.1
  simp [hscheduled] at hunscheduled

theorem ended_of_acts (h : Acts s e s') (hs : Scheduled s) (ho : InOrder s) (hi : Ended s) :
    Ended s' := by
  obtain ⟨hclean, hloop, hended, honce⟩ := id hi
  cases h with
  | enterQueued _ haccepting | enterScheduled _ haccepting =>
    refine ⟨fun _ => hclean (.inl haccepting), ?_, ?_, honce⟩
    · intro h
      simp [haccepting] at hloop
      exact absurd hloop h
    · intro h
      simpa [haccepting] using hended h
  | complete _ _ hfirst hscheduled =>
    refine ⟨fun _ => hclean (.inr hscheduled), ?_, ?_, honce⟩
    · intro h
      exact ⟨rfl, (hloop h).2⟩
    · intro h
      simpa [hfirst] using hended h
  | completeScheduled hunfailed hundisposed hfirst hunscheduled =>
    have haccepting : s.accepting = true := by
      by_contra hclosed
      simpa [hunfailed, hundisposed, hfirst] using hs.closed (by simpa using hclosed)
    refine ⟨fun _ => hclean (.inl haccepting), ?_, ?_, honce⟩
    · intro h
      simpa [hunfailed] using hloop h
    · intro h
      simpa [hfirst] using hended h
  | completeFailed hfirst hunscheduled =>
    refine ⟨by simp [hunscheduled], ?_, ?_, honce⟩
    · intro h
      exact ⟨rfl, rfl, hunscheduled⟩
    · intro h
      simpa [hfirst] using hended h
  | dispose =>
    refine ⟨?_, fun h => ⟨rfl, (hloop h).2⟩, fun h => ⟨rfl, (hended h).2⟩, honce⟩
    intro hscheduled hbroken
    exact ⟨(hclean (.inr (by simpa using hscheduled)) hbroken).1, .inl rfl⟩
  | disposeEnd _ hkept =>
    refine ⟨hclean, hloop, ?_, honce⟩
    simpa only [hkept] using hended
  | dispatch hdrain hpos =>
    have hscheduled := hs.of_scheduled hpos
    refine ⟨?_, by simp [DrainState.loop], ?_, by simpa [hdrain] using honce⟩
    · intro _ _
      exact hclean (.inr hscheduled) (by simp [hdrain, DrainState.broken])
    · simp [hi.ends_eq_zero hscheduled]
  | lookDisposed hdrain | lookEmpty hdrain =>
    have hscheduled := hs.of_active (by simp [hdrain, DrainState.active])
    refine ⟨?_, by simp [DrainState.loop], ?_, by simpa [hdrain] using honce⟩
    · intro _ _
      exact hclean (.inr hscheduled) (by simp [hdrain, DrainState.broken])
    · simp [hi.ends_eq_zero hscheduled]
  | lookEnd hdrain hwrites hundisposed haccepting hcompletion =>
    have hscheduled := hs.of_active (by simp [hdrain, DrainState.active])
    obtain ⟨hreached, hdropped⟩ := hclean (.inr hscheduled) (by simp [hdrain, DrainState.broken])
    refine ⟨?_, by simp [DrainState.loop], ?_, ?_⟩
    · simp [haccepting]
    · intro _
      refine ⟨haccepting, hcompletion, rfl, ?_⟩
      have henqueued := ho.enqueued
      simp only [hundisposed, Bool.false_eq_true, false_or] at hdropped
      simp [hdrain, hwrites, hdropped, uncommitted] at henqueued
      exact hreached.trans henqueued.symm
    · simp only [hi.ends_eq_zero hscheduled]
      split <;> omega
  | lookTake hdrain | release hdrain =>
    have hscheduled := hs.of_active (by simp [hdrain, DrainState.active])
    refine ⟨?_, by simp [DrainState.loop], ?_, by simpa [hdrain] using honce⟩
    · intro _ _
      exact hclean (.inr hscheduled) (by simp [hdrain, DrainState.broken])
    · simp [hi.ends_eq_zero hscheduled]
  | commitDetached hdrain => exact absurd hdrain (hs.committing _)
  | commit hdrain =>
    have hscheduled := hs.of_active (by simp [hdrain, DrainState.active])
    refine ⟨?_, by simp [DrainState.loop], ?_, by simpa [hdrain] using honce⟩
    · intro _ _
      obtain ⟨hreached, hdropped⟩ := hclean (.inr hscheduled) (by simp [hdrain, DrainState.broken])
      exact ⟨by rw [hreached], hdropped⟩
    · simp [hi.ends_eq_zero hscheduled]
  | commitFailed hdrain | releaseFailed hdrain =>
    have hscheduled := hs.of_active (by simp [hdrain, DrainState.active])
    refine ⟨by simp [DrainState.broken], by simp [DrainState.loop], ?_, by simpa [hdrain] using honce⟩
    simp [hi.ends_eq_zero hscheduled]
  | @settle pending success hdrain =>
    have hscheduled := hs.of_active (by simp [hdrain, DrainState.active])
    refine ⟨?_, by simp [DrainState.loop], ?_, by simpa [hdrain] using honce⟩
    · intro _ hbroken
      refine hclean (.inr hscheduled) ?_
      rw [hdrain]
      cases success with
      | true => rfl
      | false => simp [DrainState.broken] at hbroken
    · simp [hi.ends_eq_zero hscheduled]
  | fail hdrain =>
    have hscheduled := hs.of_active (by simp [hdrain, DrainState.active])
    refine ⟨by simp, fun _ => ⟨rfl, rfl, rfl⟩, ?_, by simpa [hdrain] using honce⟩
    simp [hi.ends_eq_zero hscheduled]
  | failRelease hdrain | failSettle hdrain =>
    have hstopped := hloop (by simp [hdrain, DrainState.loop])
    refine ⟨?_, fun _ => hstopped, ?_, by simpa [hdrain] using honce⟩
    · simp [hstopped.1, hstopped.2.2]
    · intro h
      exact hended (.inl (by simpa using h))
  | failEnd hdrain hkept =>
    have hstopped := hloop (by simp [hdrain, DrainState.loop])
    refine ⟨?_, by simp [DrainState.loop], ?_, by simpa [hdrain] using honce⟩
    · simp [hstopped.1, hstopped.2.2]
    · intro h
      simpa only [hkept] using hended (.inl (by simpa using h))
  | endStream hdrain hkept =>
    obtain ⟨haccepting, hcompletion, hunscheduled, hwritten⟩ := hended (.inr hdrain)
    refine ⟨by simp [haccepting, hunscheduled], by simp [DrainState.loop], ?_, ?_⟩
    · intro _
      exact ⟨haccepting, hkept.trans hcompletion, hunscheduled, hwritten⟩
    · simpa [hdrain] using honce
  | endDetached hdrain => exact absurd hdrain hs.ending
  | _ => exact ⟨hclean, hloop, hended, honce⟩

end PumpState

end VT7.Session
