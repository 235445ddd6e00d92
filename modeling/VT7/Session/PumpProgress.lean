import VT7.Session.PumpDelivery

/-!
# Every call of the output pump comes to its end

A call that got a permit waits for one of three: for its own thread, which is before the lock or
throws; for the dispatcher, while its write is queued, with `Drain` or in the loop of `Fail`; or for
the thread that disposes the pump.  `Away` counts the steps this one still has to take.  None of them
is ever stuck, each of its steps brings the call nearer to its end, and no other step puts it back.

`pump_delivery` puts everything together.
-/

namespace VT7.Session

open VT7.Lib

/-- Whom a call waits for. -/
inductive Mover
  | caller
  | dispatcher
  | disposer
  deriving DecidableEq

/-- Who takes a step, as far as it concerns the call. -/
def PumpEvent.mover (write : PumpWrite) : PumpEvent → Option Mover
  | .enter other _ | .leave other => if other = write then some .caller else none
  | .disposeRound => some .disposer
  | .dispatch | .look | .commit _ | .settle | .release | .fail | .failRound | .endStream _ =>
    some .dispatcher
  | .call _ | .cancel _ | .pass _ | .completeAsync _ | .dispose => none

/-- The steps up to the next take of `Drain`. -/
def DrainState.turn : DrainState → ℕ
  | .committing _ _ => 6
  | .settling _ _ => 5
  | .idle | .releasing _ | .abandoning _ | .ending _ => 4
  | .looking | .failing => 3

/-- The steps of a loop up to its next write. -/
def Abandoning.turn (abandoned : Abandoning) : ℕ := if abandoned.owes then 2 else 1

namespace PumpState

variable {s s' : PumpState} {e : PumpEvent} {write : PumpWrite}

/-- No call is farther from its end than this. -/
def farthest : ℕ := 4 * maximumQueuedChunks + 7

/-- Whom a call that got a permit waits for. -/
def waitsFor (s : PumpState) (write : PumpWrite) : Mover :=
  if write ∈ s.admitted ∨ write ∈ s.throwing then .caller
  else if write ∈ unsettled s.disposing then .disposer
  else .dispatcher

/-- The call waits for a number of steps. -/
inductive Away (s : PumpState) (write : PumpWrite) : Mover → ℕ → Prop
  | admitted (mem : write ∈ s.admitted) : Away s write .caller farthest
  | throwing (mem : write ∈ s.throwing) : Away s write .caller 1
  | disposing {abandoned : Abandoning} {i : ℕ} (loop : s.disposing = some abandoned)
      (mem : abandoned.rest[i]? = some write) :
      Away s write .disposer (4 * i + abandoned.turn)
  | failing {abandoned : Abandoning} {i : ℕ} (loop : s.drain = .abandoning abandoned)
      (mem : abandoned.rest[i]? = some write) :
      Away s write .dispatcher (4 * i + abandoned.turn)
  | committing {attached : Bool} (drain : s.drain = .committing write attached) :
      Away s write .dispatcher 2
  | settling {success : Bool} (drain : s.drain = .settling write success) :
      Away s write .dispatcher 1
  | queued {i : ℕ} (mem : s.writes[i]? = some write) :
      Away s write .dispatcher (4 * i + s.drain.turn)

/-- What every run keeps. -/
structure PumpInv (s : PumpState) : Prop where
  scheduled : Scheduled s
  sound : Sound s
  distinct : Distinct s
  inOrder : InOrder s
  honest : Honest s
  ended : Ended s
  neverOverReleased : s.overReleased = false

theorem pumpInv_start : PumpInv start :=
  ⟨scheduled_start, sound_start, distinct_start, inOrder_start, honest_start, ended_start, rfl⟩

theorem pumpInv_of_step (h : s.step e = some s') (hi : PumpInv s) : PumpInv s' := by
  have hacts := acts_of_step hi.sound h
  exact
    { scheduled := scheduled_of_acts hacts hi.scheduled
      sound := sound_of_acts hacts hi.scheduled hi.sound
      distinct := distinct_of_acts hacts hi.distinct
      inOrder := inOrder_of_acts hacts hi.scheduled hi.sound hi.distinct hi.inOrder
      honest := honest_of_acts hacts hi.scheduled hi.honest
      ended := ended_of_acts hacts hi.scheduled hi.inOrder hi.ended
      neverOverReleased := by cases hacts <;> exact hi.neverOverReleased }

/-! ### Where a call waits -/

theorem PumpInv.nodup (hi : PumpInv s) : s.permits.places.Nodup :=
  places_nodup hi.sound hi.distinct

/-- A held write is of a call that is behind the lock. -/
theorem PumpInv.not_mem_of_held (hi : PumpInv s) (hheld : write ∈ s.held) :
    write ∉ s.admitted ∧ write ∉ s.throwing := by
  have hnodup := hi.nodup
  have hmem : write ∈ s.held ++ s.outcomes.map (·.1) := List.mem_append_left _ hheld
  refine ⟨?_, ?_⟩
  · intro h
    exact (List.nodup_append.mp hnodup).2.2 write h write (List.mem_append_right _ hmem) rfl
  · intro h
    exact (List.nodup_append.mp (List.nodup_append.mp hnodup).2.1).2.2 write h write hmem rfl

theorem PumpInv.held_nodup (hi : PumpInv s) : s.held.Nodup :=
  (List.nodup_append.mp (List.nodup_append.mp (List.nodup_append.mp hi.nodup).2.1).2.1).1

/-- A write in the queue or with `Drain` is not in the loop of `Dispose`. -/
theorem PumpInv.not_mem_disposing (hi : PumpInv s)
    (h : write ∈ s.drain.inFlight ∨ write ∈ unsettled s.drain.loop ∨ write ∈ s.writes) :
    write ∉ unsettled s.disposing := by
  intro hmem
  have hnodup := List.nodup_append.mp hi.held_nodup
  have hnodup' := List.nodup_append.mp hnodup.2.1
  rcases h with h | h | h
  · exact hnodup.2.2 write h write (by simp [hmem]) rfl
  · exact hnodup'.2.2 write h write (by simp [hmem]) rfl
  · exact (List.nodup_append.mp hnodup'.2.1).2.2 write hmem write h rfl

theorem waitsFor_of_dispatched (hi : PumpInv s)
    (h : write ∈ s.drain.inFlight ∨ write ∈ unsettled s.drain.loop ∨ write ∈ s.writes) :
    s.waitsFor write = .dispatcher := by
  have hheld : write ∈ s.held := by
    simp only [held, List.mem_append]
    tauto
  have hnot := hi.not_mem_of_held hheld
  rw [waitsFor, if_neg (by simp [hnot]), if_neg (hi.not_mem_disposing h)]

theorem waitsFor_eq {mover : Mover} {n : ℕ} (h : Away s write mover n) (hi : PumpInv s) :
    s.waitsFor write = mover := by
  cases h with
  | admitted mem => exact if_pos (.inl mem)
  | throwing mem => exact if_pos (.inr mem)
  | disposing loop mem =>
    have hmem : write ∈ unsettled s.disposing := by
      rw [loop]
      exact List.mem_of_getElem? mem
    have hnot := hi.not_mem_of_held (show write ∈ s.held by simp [held, hmem])
    rw [waitsFor, if_neg (by simp [hnot]), if_pos hmem]
  | failing loop mem =>
    refine waitsFor_of_dispatched hi (.inr (.inl ?_))
    rw [loop]
    exact List.mem_of_getElem? mem
  | committing drain | settling drain =>
    exact waitsFor_of_dispatched hi (.inl (by simp [drain, DrainState.inFlight]))
  | queued mem => exact waitsFor_of_dispatched hi (.inr (.inr (List.mem_of_getElem? mem)))

/-- Every call that got a permit and is not over waits somewhere. -/
theorem exists_away (hi : PumpInv s) (hpassed : write ∈ s.passed)
    (hunder : write ∉ s.outcomes.map (·.1)) :
    ∃ mover n, Away s write mover n ∧ n ≤ farthest := by
  have htotal := hi.sound.total
  have hplaces : write ∈ s.permits.places := hi.sound.placed.mem_iff.mp hpassed
  simp only [Permits.places, permits, held, List.mem_append] at hplaces
  simp only [permits, held, List.length_append] at htotal
  rcases hplaces with h | h | (h | h | h | h) | h
  · exact ⟨_, _, .admitted h, le_rfl⟩
  · exact ⟨_, _, .throwing h, by simp [farthest]⟩
  · cases hdrain : s.drain with
    | committing pending attached =>
      have heq : write = pending := by simpa [hdrain, DrainState.inFlight] using h
      exact ⟨_, _, .committing (heq ▸ hdrain), by simp [farthest]⟩
    | settling pending success =>
      have heq : write = pending := by simpa [hdrain, DrainState.inFlight] using h
      exact ⟨_, _, .settling (heq ▸ hdrain), by simp [farthest]⟩
    | _ => simp [hdrain, DrainState.inFlight] at h
  · cases hdrain : s.drain with
    | abandoning abandoned =>
      simp only [hdrain, DrainState.loop, unsettled, Option.elim_some] at h htotal
      obtain ⟨i, hmem⟩ := List.mem_iff_getElem?.mp h
      have hlt := (List.getElem?_eq_some_iff.mp hmem).1
      refine ⟨_, _, .failing hdrain hmem, ?_⟩
      simp only [Abandoning.turn, farthest]
      split <;> omega
    | _ => simp [hdrain, DrainState.loop, unsettled] at h
  · cases hloop : s.disposing with
    | none => simp [hloop, unsettled] at h
    | some abandoned =>
      simp only [hloop, unsettled, Option.elim_some] at h htotal
      obtain ⟨i, hmem⟩ := List.mem_iff_getElem?.mp h
      have hlt := (List.getElem?_eq_some_iff.mp hmem).1
      refine ⟨_, _, .disposing hloop hmem, ?_⟩
      simp only [Abandoning.turn, farthest]
      split <;> omega
  · obtain ⟨i, hmem⟩ := List.mem_iff_getElem?.mp h
    have hlt := (List.getElem?_eq_some_iff.mp hmem).1
    refine ⟨_, _, .queued hmem, ?_⟩
    have hturn : s.drain.turn ≤ 6 := by cases s.drain <;> simp [DrainState.turn]
    simp only [farthest]
    omega
  · exact absurd h hunder

/-! ### What a step does to the distance -/

/-- The step leaves the call where it is, or nearer to its end by one when it is the step of the one
it waits for. -/
def Nearer (e : PumpEvent) (s' : PumpState) (write : PumpWrite) (mover : Mover) (n : ℕ) : Prop :=
  ∃ mover' m, Away s' write mover' m ∧ m + (if e.mover write = some mover then 1 else 0) ≤ n

/-- The call stays where it is, and somebody else takes the step. -/
theorem Away.stays {mover : Mover} {n : ℕ} (h : Away s' write mover n)
    (hother : e.mover write ≠ some mover) : Nearer e s' write mover n :=
  ⟨mover, n, h, by simp [hother]⟩

/-- The one it waits for takes the step. -/
theorem Away.moves {mover mover' : Mover} {m n : ℕ} (h : Away s' write mover' m) (hlt : m < n) :
    Nearer e s' write mover n := by
  refine ⟨mover', m, h, ?_⟩
  split <;> omega

theorem nearer_of_admitted (hacts : Acts s e s') (hi : PumpInv s) (hmem : write ∈ s.admitted)
    (hunder : write ∉ s'.outcomes.map (·.1)) : Nearer e s' write .caller farthest := by
  have hlength := hi.sound.total
  simp only [permits, held, List.length_append] at hlength
  cases hacts with
  | pass => exact Away.stays (.admitted (List.mem_append_left _ hmem)) (by simp [PumpEvent.mover])
  | @enterClosed other | @enterRolledBack other =>
    rcases eq_or_ne other write with rfl | hne
    · exact Away.moves (.throwing (by simp)) (by simp [farthest])
    · exact Away.stays (.admitted ((List.mem_erase_of_ne hne.symm).mpr hmem)) (by simp [PumpEvent.mover, hne])
  | @enterQueued other | @enterScheduled other =>
    rcases eq_or_ne other write with rfl | hne
    · have hqueued : (s.writes ++ [other])[s.writes.length]? = some other := by simp
      have hturn : s.drain.turn ≤ 6 := by cases s.drain <;> simp [DrainState.turn]
      refine Away.moves (.queued hqueued) ?_
      simp only [farthest]
      omega
    · exact Away.stays (.admitted ((List.mem_erase_of_ne hne.symm).mpr hmem)) (by simp [PumpEvent.mover, hne])
  | @leave other =>
    rcases eq_or_ne other write with rfl | hne
    · simp at hunder
    · exact Away.stays (.admitted hmem) (by simp [PumpEvent.mover, hne])
  | _ => exact Away.stays (.admitted hmem) (by simp [PumpEvent.mover])

theorem nearer_of_throwing (hacts : Acts s e s') (hi : PumpInv s) (hmem : write ∈ s.throwing)
    (hunder : write ∉ s'.outcomes.map (·.1)) : Nearer e s' write .caller 1 := by
  have hentered : write ∉ s.admitted := by
    intro h
    exact (List.nodup_append.mp hi.nodup).2.2 write h write (List.mem_append_left _ hmem) rfl
  cases hacts with
  | @enterClosed other _ mem | @enterRolledBack other _ mem =>
    have hne : other ≠ write := fun h => hentered (h ▸ mem)
    exact Away.stays (.throwing (List.mem_append_left _ hmem)) (by simp [PumpEvent.mover, hne])
  | @enterQueued other _ mem | @enterScheduled other _ mem =>
    have hne : other ≠ write := fun h => hentered (h ▸ mem)
    exact Away.stays (.throwing hmem) (by simp [PumpEvent.mover, hne])
  | @leave other =>
    rcases eq_or_ne other write with rfl | hne
    · simp at hunder
    · exact Away.stays (.throwing ((List.mem_erase_of_ne hne.symm).mpr hmem)) (by simp [PumpEvent.mover, hne])
  | _ => exact Away.stays (.throwing hmem) (by simp [PumpEvent.mover])

theorem nearer_of_disposing (hacts : Acts s e s') (hi : PumpInv s) {abandoned : Abandoning} {i : ℕ}
    (hloop : s.disposing = some abandoned) (hmem : abandoned.rest[i]? = some write)
    (hunder : write ∉ s'.outcomes.map (·.1)) :
    Nearer e s' write .disposer (4 * i + abandoned.turn) := by
  cases hacts with
  | dispose hundisposed => simp [hi.scheduled.disposing hundisposed] at hloop
  | disposeRelease loop =>
    cases hloop.symm.trans loop
    exact Away.moves (.disposing rfl hmem) (by simp [Abandoning.turn])
  | disposeSettle loop =>
    cases hloop.symm.trans loop
    cases i with
    | zero =>
      simp only [List.getElem?_cons_zero, Option.some.injEq] at hmem
      simp [hmem] at hunder
    | succ i => exact Away.moves (.disposing rfl (by simpa using hmem)) (by simp [Abandoning.turn]; omega)
  | disposeEnd loop =>
    cases hloop.symm.trans loop
    simp at hmem
  | _ => exact Away.stays (.disposing hloop hmem) (by simp [PumpEvent.mover])

theorem nearer_of_failing (hacts : Acts s e s') {abandoned : Abandoning} {i : ℕ}
    (hloop : s.drain = .abandoning abandoned) (hmem : abandoned.rest[i]? = some write)
    (hunder : write ∉ s'.outcomes.map (·.1)) :
    Nearer e s' write .dispatcher (4 * i + abandoned.turn) := by
  cases hacts with
  | failRelease loop =>
    cases hloop.symm.trans loop
    exact Away.moves (.failing rfl hmem) (by simp [Abandoning.turn])
  | failSettle loop =>
    cases hloop.symm.trans loop
    cases i with
    | zero =>
      simp only [List.getElem?_cons_zero, Option.some.injEq] at hmem
      simp [hmem] at hunder
    | succ i => exact Away.moves (.failing rfl (by simpa using hmem)) (by simp [Abandoning.turn]; omega)
  | failEnd loop =>
    cases hloop.symm.trans loop
    simp at hmem
  | dispatch drain | lookDisposed drain | lookEmpty drain | lookEnd drain | lookTake drain
  | commitDetached drain | commit drain | commitFailed drain | settle drain | release drain
  | releaseFailed drain | fail drain | endStream drain | endDetached drain => simp [hloop] at drain
  | _ => exact Away.stays (.failing hloop hmem) (by simp [PumpEvent.mover])

theorem nearer_of_committing (hacts : Acts s e s') {attached : Bool}
    (hdrain : s.drain = .committing write attached) : Nearer e s' write .dispatcher 2 := by
  cases hacts with
  | commitDetached drain | commit drain | commitFailed drain =>
    cases hdrain.symm.trans drain
    exact Away.moves (.settling rfl) (by simp)
  | dispatch drain | lookDisposed drain | lookEmpty drain | lookEnd drain | lookTake drain
  | settle drain | release drain | releaseFailed drain | fail drain | failRelease drain
  | failSettle drain | failEnd drain | endStream drain | endDetached drain => simp [hdrain] at drain
  | _ => exact Away.stays (.committing hdrain) (by simp [PumpEvent.mover])

theorem nearer_of_settling (hacts : Acts s e s') {success : Bool}
    (hdrain : s.drain = .settling write success) (hunder : write ∉ s'.outcomes.map (·.1)) :
    Nearer e s' write .dispatcher 1 := by
  cases hacts with
  | settle drain =>
    cases hdrain.symm.trans drain
    simp at hunder
  | dispatch drain | lookDisposed drain | lookEmpty drain | lookEnd drain | lookTake drain
  | commitDetached drain | commit drain | commitFailed drain | release drain | releaseFailed drain
  | fail drain | failRelease drain | failSettle drain | failEnd drain | endStream drain
  | endDetached drain => simp [hdrain] at drain
  | _ => exact Away.stays (.settling hdrain) (by simp [PumpEvent.mover])

theorem nearer_of_queued (hacts : Acts s e s') (hi : PumpInv s) {i : ℕ}
    (hmem : s.writes[i]? = some write) :
    Nearer e s' write .dispatcher (4 * i + s.drain.turn) := by
  have hne : s.writes ≠ [] := by
    intro h
    simp [h] at hmem
  have hscheduled : s.drainScheduled = true := by
    by_contra h
    exact hne (hi.scheduled.empty (by simpa using h))
  cases hacts with
  | enterQueued | enterScheduled =>
    have hlt := (List.getElem?_eq_some_iff.mp hmem).1
    exact Away.stays (.queued ((List.getElem?_append_left hlt).trans hmem)) (by simp [PumpEvent.mover])
  | enterRolledBack _ hunscheduled => simp [hscheduled] at hunscheduled
  | dispose =>
    -- the whole queue goes into the loop of `Dispose`
    have hturn : 3 ≤ s.drain.turn := by cases s.drain <;> simp [DrainState.turn]
    exact Away.moves (.disposing rfl hmem) (by simp [Abandoning.turn]; omega)
  | dispatch drain | commitDetached drain | commit drain | commitFailed drain | settle drain
  | release drain | releaseFailed drain =>
    exact Away.moves (.queued hmem) (by simp [drain, DrainState.turn])
  | lookDisposed _ hdisposed => exact absurd (hi.scheduled.disposed hdisposed).2 hne
  | lookEmpty _ hwrites | lookEnd _ hwrites => exact absurd hwrites hne
  | lookTake drain hwrites =>
    rw [hwrites] at hmem
    cases i with
    | zero =>
      simp only [List.getElem?_cons_zero, Option.some.injEq] at hmem
      subst hmem
      exact Away.moves (.committing rfl) (by simp [drain, DrainState.turn])
    | succ i =>
      exact Away.moves (.queued (by simpa using hmem)) (by simp [drain, DrainState.turn]; omega)
  | fail drain =>
    exact Away.moves (.failing rfl hmem) (by simp [drain, DrainState.turn, Abandoning.turn])
  | failRelease drain | failSettle drain | failEnd drain =>
    have hstopped := hi.ended.loop (by simp [drain, DrainState.loop])
    simp [hscheduled] at hstopped
  | endStream drain =>
    have hstopped := (hi.ended.ended (.inr drain)).2.2.1
    simp [hscheduled] at hstopped
  | endDetached drain => exact absurd drain hi.scheduled.ending
  | _ => exact Away.stays (.queued hmem) (by simp [PumpEvent.mover])

/-- **A step of the one a call waits for brings it nearer to its end, and no step puts it back.** -/
theorem nearer_of_acts (hacts : Acts s e s') (hi : PumpInv s) {mover : Mover} {n : ℕ}
    (haway : Away s write mover n) (hunder : write ∉ s'.outcomes.map (·.1)) :
    Nearer e s' write mover n := by
  cases haway with
  | admitted mem => exact nearer_of_admitted hacts hi mem hunder
  | throwing mem => exact nearer_of_throwing hacts hi mem hunder
  | disposing loop mem => exact nearer_of_disposing hacts hi loop mem hunder
  | failing loop mem => exact nearer_of_failing hacts loop mem hunder
  | committing drain => exact nearer_of_committing hacts drain
  | settling drain => exact nearer_of_settling hacts drain hunder
  | queued mem => exact nearer_of_queued hacts hi mem

/-- **The one a call waits for can go on.** -/
theorem mover_enabled (hi : PumpInv s) {mover : Mover} {n : ℕ} (haway : Away s write mover n) :
    ∃ e : PumpEvent, e.mover write = some mover ∧ (s.step e).isSome := by
  cases haway with
  | admitted mem => exact ⟨.enter write false, by simp [PumpEvent.mover], by simp [step, mem]⟩
  | throwing mem => exact ⟨.leave write, by simp [PumpEvent.mover], by simp [step, mem]⟩
  | disposing loop mem => exact ⟨.disposeRound, rfl, by simp [step, loop]⟩
  | failing loop mem => exact ⟨.failRound, rfl, by simp [step, loop]⟩
  | committing drain => exact ⟨.commit true, rfl, by simp [step, drain]⟩
  | settling drain => exact ⟨.settle, rfl, by simp [step, drain]⟩
  | queued mem =>
    have hscheduled : s.drainScheduled = true := by
      by_contra h
      simp [hi.scheduled.empty (by simpa using h)] at mem
    have honce := hi.scheduled.once
    cases hdrain : s.drain with
    | idle =>
      simp only [hdrain, DrainState.active, hscheduled, Bool.false_eq_true, if_false, if_true] at honce
      exact ⟨.dispatch, rfl, by simp [step, hdrain]; omega⟩
    | looking => exact ⟨.look, rfl, by simp [step, hdrain]⟩
    | committing pending attached => exact ⟨.commit true, rfl, by simp [step, hdrain]⟩
    | settling pending success => exact ⟨.settle, rfl, by simp [step, hdrain]⟩
    | releasing success => exact ⟨.release, rfl, by simp [step, hdrain]⟩
    | failing => exact ⟨.fail, rfl, by simp [step, hdrain]⟩
    | abandoning abandoned => exact ⟨.failRound, rfl, by simp [step, hdrain]⟩
    | ending attached => exact ⟨.endStream true, rfl, by simp [step, hdrain]; split <;> simp⟩

/-! ### Delivery -/

theorem finished_of_step (h : s.step e = some s') (hi : PumpInv s)
    (hover : write ∈ s.outcomes.map (·.1)) : write ∈ s'.outcomes.map (·.1) := by
  have hacts := acts_of_step hi.sound h
  have hsubset : s.outcomes ⊆ s'.outcomes := by
    rcases move_of_acts hacts hi.scheduled with heq | hmove
    · have houtcomes : s'.outcomes = s.outcomes := congrArg Permits.finished heq
      rw [houtcomes]
      exact List.Subset.refl _
    · exact hmove.finished_subset
  exact List.map_subset _ hsubset hover

/-- The step is of the one the call waits for. -/
def awaited (write : PumpWrite) (s : PumpState) (e : PumpEvent) : Bool :=
  e.mover write = some (s.waitsFor write)

/-- **No call that got a permit waits for more than so many steps of the one it waits for.** -/
theorem awaited_le (hi : PumpInv s) (hpassed : write ∈ s.passed) {later : List PumpEvent}
    {t : PumpState} (hrun : Run.run step s later = some t) (hunder : write ∉ t.outcomes.map (·.1)) :
    Run.countAlong step (awaited write) s later ≤ farthest := by
  have hinv : ∀ (r : PumpState) e r', True → r.step e = some r' → PumpInv r → PumpInv r' :=
    fun _ _ _ _ => pumpInv_of_step
  have hback : ∀ (r : PumpState) e r', True → r.step e = some r' → PumpInv r →
      write ∉ r'.outcomes.map (·.1) → write ∉ r.outcomes.map (·.1) :=
    fun _ _ _ _ h hr hnot hover => hnot (finished_of_step h hr hover)
  have halong : Run.Along step (fun _ _ => True) s later := Run.along_true
  have hlower : ∀ (r : PumpState) e r' n, True → r.step e = some r' → PumpInv r →
      Away r write (r.waitsFor write) n → write ∉ r'.outcomes.map (·.1) →
      ∃ m, Away r' write (r'.waitsFor write) m ∧ m + (if awaited write r e then 1 else 0) ≤ n := by
    intro r e r' n _ h hr haway hnot
    obtain ⟨mover, m, haway', hle⟩ := nearer_of_acts (acts_of_step hr.sound h) hr haway hnot
    refine ⟨m, ?_, by simpa [awaited] using hle⟩
    rwa [waitsFor_eq haway' (pumpInv_of_step h hr)]
  obtain ⟨mover, n, haway, hn⟩ := exists_away hi hpassed (Run.run_back hinv hback halong hrun hi hunder)
  rw [← waitsFor_eq haway hi] at haway
  obtain ⟨m, -, hle⟩ := Run.run_exhausts hinv hback hlower halong hrun hi haway hunder
  omega

/-- What the pump promises in a state of a run. -/
structure PumpDelivers (s : PumpState) : Prop where
  /-- Writes reach the document in the order in which they were enqueued, each at most once. -/
  inOrder : s.reached <+: s.enqueued
  atMostOnce : s.enqueued.Nodup
  written : s.written.Sublist s.reached
  /-- No call is over twice. -/
  overOnce : (s.outcomes.map (·.1.call)).Nodup
  /-- A call that is over succeeded if and only if its bytes were written. -/
  success : ∀ write success, (write, success) ∈ s.outcomes →
    write ∈ s.passed ∧ (success = true ↔ write ∈ s.written)
  /-- A call that got a permit and is not over waits for somebody who can go on, and not for many
  steps. -/
  ends : ∀ write ∈ s.passed, write ∉ s.outcomes.map (·.1) →
    (∃ e, awaited write s e = true ∧ (s.step e).isSome) ∧
      ∀ later t, Run.run step s later = some t → write ∉ t.outcomes.map (·.1) →
        Run.countAlong step (awaited write) s later ≤ farthest
  bounded : s.passed.length ≤ s.outcomes.length + maximumQueuedChunks
  neverOverReleased : s.overReleased = false
  endStreamOnce : s.ends ≤ 1
  /-- `EndStream` comes behind the last write. -/
  endStreamLast : 0 < s.ends → s.written = s.enqueued
  emptyUnscheduled : s.drainScheduled = false → s.writes = []
  /-- A rollback takes out what was put in. -/
  rollbacks : ∀ rollback ∈ s.rollbacks, rollback.2 = some rollback.1

/-- **Every run of the output pump** keeps the order of the writes, ends every call once and keeps the
permits. -/
theorem pump_delivery {events : List PumpEvent} (hrun : Run.run step start events = some s) :
    PumpDelivers s := by
  have hi := Run.run_invariant (fun _ _ _ => pumpInv_of_step) hrun pumpInv_start
  refine ⟨?_, hi.inOrder.nodup, hi.inOrder.written, ?_, ?_, ?_, ?_, hi.neverOverReleased, ?_, ?_,
    hi.scheduled.empty, hi.scheduled.rollbacks⟩
  · rw [hi.inOrder.enqueued]
    exact List.prefix_append _ _
  · -- the calls that are over are among those that got a permit
    have hpassed : (s.passed.map (·.call)).Nodup := by
      have hnodup := hi.distinct.nodup
      rw [List.map_append] at hnodup
      exact (List.nodup_append.mp hnodup).2.1
    have hplaces := ((hi.sound.placed.map (·.call)).nodup_iff).mp hpassed
    have hsub : (s.outcomes.map (·.1)).Sublist s.permits.places :=
      ((List.sublist_append_right _ _).trans (List.sublist_append_right _ _)).trans
        (List.sublist_append_right _ _)
    have hnodup := hplaces.sublist (hsub.map _)
    rwa [List.map_map] at hnodup
  · intro write success hmem
    refine ⟨?_, hi.honest.success_iff hi.sound hi.distinct hmem⟩
    refine hi.sound.placed.mem_iff.mpr ?_
    exact List.mem_append_right _ (List.mem_append_right _ (List.mem_append_right _
      (List.mem_map_of_mem (f := Prod.fst) hmem)))
  · intro write hpassed hunder
    refine ⟨?_, fun later t hrun' hunder' => awaited_le hi hpassed hrun' hunder'⟩
    obtain ⟨mover, n, haway, -⟩ := exists_away hi hpassed hunder
    obtain ⟨e, hmover, henabled⟩ := mover_enabled hi haway
    exact ⟨e, by simp [awaited, hmover, waitsFor_eq haway hi], henabled⟩
  · have hlength := hi.sound.placed.length_eq
    have hunderway := hi.sound.underway_le
    simp only [Permits.places, Permits.underway, permits, List.length_append, List.length_map]
      at hlength hunderway
    omega
  · have honce := hi.ended.once
    omega
  · intro hpos
    exact (hi.ended.ended (.inl hpos)).2.2.2

end PumpState

section Sample

open PumpState

/-- The first call finds the dispatcher gone and is rolled back; the second and the third are queued,
the second is written, and the stream is completed and disposed before the third. -/
def rolledBackRun : List PumpEvent :=
  [.call ⟨1, 1, 1, [0x61]⟩, .call ⟨2, 1, 2, [0x62]⟩, .call ⟨3, 1, 3, [0x63]⟩,
    .pass ⟨1, 1, 1, [0x61]⟩, .pass ⟨2, 1, 2, [0x62]⟩, .pass ⟨3, 1, 3, [0x63]⟩,
    .enter ⟨1, 1, 1, [0x61]⟩ true, .enter ⟨2, 1, 2, [0x62]⟩ false, .leave ⟨1, 1, 1, [0x61]⟩,
    .dispatch, .look, .enter ⟨3, 1, 3, [0x63]⟩ true, .completeAsync false, .dispose, .commit true,
    .disposeRound, .settle, .disposeRound, .release, .look, .disposeRound]

theorem pump_delivery_rolledBack : ∃ s, Run.run step start rolledBackRun = some s ∧
    s.outcomes.map (fun outcome => (outcome.1.call, outcome.2)) = [(1, false), (3, false), (2, true)] ∧
    s.written.map (·.call) = [2] ∧ s.rollbacks.length = 1 ∧ s.available = maximumQueuedChunks ∧
    PumpDelivers s := by
  have hrun : (Run.run step start rolledBackRun).map (fun s =>
      (s.outcomes.map (fun outcome => (outcome.1.call, outcome.2)), s.written.map (·.call),
        s.rollbacks.length, s.available)) =
      some ([(1, false), (3, false), (2, true)], [2], 1, maximumQueuedChunks) := by
    decide
  obtain ⟨s, hs, hrecord⟩ := Option.map_eq_some_iff.mp hrun
  simp only [Prod.mk.injEq] at hrecord
  exact ⟨s, hs, hrecord.1, hrecord.2.1, hrecord.2.2.1, hrecord.2.2.2, pump_delivery hs⟩

end Sample

end VT7.Session
