import VT7.KnownHosts.LostUpdate

/-!
# Several calls of the writer

Any number of calls that add and remove records work on the same four files, together with other
programs.  A named mutex lets one call at a time through; behind it, a call takes the steps of its
machine.  To one call, what the others do is what other programs do: every run of the system is,
seen from one call, a run of that call's machine (`run_addView`, `run_removeView`).
-/

namespace VT7.KnownHosts

open VT7.Dotnet VT7.Lib

/-- The call is between the acquisition and the release of the mutex. -/
def AddPc.inMutex : AddPc → Bool
  | .checking | .waiting | .returned _ | .threw _ => false
  | _ => true

theorem AddPc.inMutex_of_isHolding {pc : AddPc} (h : pc.isHolding = true) : pc.inMutex = true := by
  cases pc with
  | holding fresh existed => rfl
  | writing fresh content addition => rfl
  | _ => cases h

/-- What belongs to one call. -/
structure CallState (Pc : Type) where
  untouched : DiskEntry
  written : Option (DiskEntry × DiskEntry)
  pc : Pc

/-- Another call has made the primary file what it is now, or has not changed it. -/
def CallState.seeing {Pc : Type} (call : CallState Pc) (before after : DiskEntry) : CallState Pc :=
  { call with untouched := if after = before then call.untouched else after }

/-- The files, the owner of the mutex and the calls: those that add, and those that remove. -/
structure Writers where
  disk : Disk
  backup : DiskEntry
  mutex : Option (ℕ ⊕ ℕ)
  adds : ℕ → CallState AddPc
  removes : ℕ → CallState RemovePc

namespace Writers

/-- The system as a call that adds sees it. -/
def addView (s : Writers) (i : ℕ) : AddState :=
  ⟨s.disk, (s.adds i).untouched, (s.adds i).written, (s.adds i).pc⟩

/-- The system as a call that removes sees it. -/
def removeView (s : Writers) (i : ℕ) : RemoveState :=
  ⟨s.disk, s.backup, (s.removes i).untouched, (s.removes i).written, (s.removes i).pc⟩

/-- Some call holds the primary file open and does not share it for writing. -/
def isHeld (s : Writers) : Bool :=
  match s.mutex with
  | some (.inl i) => (s.adds i).pc.isHolding
  | _ => false

/-- The owner of the mutex behind a step of a call. -/
def handOver (mutex : Option (ℕ ⊕ ℕ)) (caller : ℕ ⊕ ℕ) (inMutex : Bool) : Option (ℕ ⊕ ℕ) :=
  if inMutex then some caller else if mutex = some caller then none else mutex

/-- The mutex lets the caller through. -/
def admits (mutex : Option (ℕ ⊕ ℕ)) (caller : ℕ ⊕ ℕ) : Bool := mutex = none || mutex = some caller

/-- The system behind a step of a call that adds. -/
def afterAdd (s : Writers) (i : ℕ) (v : AddState) : Writers where
  disk := v.disk
  backup := s.backup
  mutex := handOver s.mutex (.inl i) v.pc.inMutex
  adds j := if j = i then ⟨v.untouched, v.written, v.pc⟩ else (s.adds j).seeing (s.disk 0) (v.disk 0)
  removes j := (s.removes j).seeing (s.disk 0) (v.disk 0)

/-- The system behind a step of a call that removes. -/
def afterRemove (s : Writers) (i : ℕ) (v : RemoveState) : Writers where
  disk := v.disk
  backup := v.backup
  mutex := handOver s.mutex (.inr i) v.pc.inMutex
  adds j := (s.adds j).seeing (s.disk 0) (v.disk 0)
  removes j := if j = i then ⟨v.untouched, v.written, v.pc⟩ else (s.removes j).seeing (s.disk 0) (v.disk 0)

/-- Another program changes a file. -/
def afterExternal (s : Writers) (number : ℕ) (entry : DiskEntry) : Writers where
  disk := Function.update s.disk number entry
  backup := s.backup
  mutex := s.mutex
  adds j := { s.adds j with untouched := if number = 0 then entry else (s.adds j).untouched }
  removes j := { s.removes j with untouched := if number = 0 then entry else (s.removes j).untouched }

end Writers

/-- The event is a step of the call itself. -/
def AddEvent.isOwn : AddEvent → Bool
  | .external _ _ => false
  | _ => true

inductive WritersEvent where
  | external (number : ℕ) (entry : DiskEntry)
  | add (i : ℕ) (event : AddEvent)
  | remove (i : ℕ) (event : RemoveEvent)

namespace Writers

variable {P : Platform} (adds : ℕ → AddCall P) (removes : ℕ → RemoveCall P)

/-- **A step of the system.** -/
def step (s : Writers) : WritersEvent → Option Writers
  | .external number entry =>
    if number = 0 ∧ s.isHeld = true then none else some (s.afterExternal number entry)
  | .add i event =>
    if event.isOwn then
      ((adds i).step (s.addView i) event).bind fun v =>
        if v.pc.inMutex = true ∧ admits s.mutex (.inl i) = false then none
        else some (s.afterAdd i v)
    else none
  | .remove i event =>
    if event.isOwn then
      ((removes i).step (s.removeView i) event).bind fun v =>
        if v.pc.inMutex = true ∧ admits s.mutex (.inr i) = false then none
        else some (s.afterRemove i v)
    else none

/-- No call has begun. -/
def start (disk : Disk) (backup : DiskEntry) : Writers :=
  ⟨disk, backup, none, fun _ => ⟨disk 0, none, .checking⟩, fun _ => ⟨disk 0, none, .checking⟩⟩

/-! ### Mutual exclusion -/

/-- The calls between acquisition and release own the mutex. -/
structure Exclusive (s : Writers) : Prop where
  add : ∀ i, (s.adds i).pc.inMutex = true → s.mutex = some (.inl i)
  remove : ∀ i, (s.removes i).pc.inMutex = true → s.mutex = some (.inr i)

theorem exclusive_start (disk : Disk) (backup : DiskEntry) : (start disk backup).Exclusive := by
  constructor
  · intro i h
    cases h
  · intro i h
    cases h

/-- The owner keeps the mutex in the step of another call, which does not pass it. -/
theorem handOver_other {mutex : Option (ℕ ⊕ ℕ)} {caller owner : ℕ ⊕ ℕ} {inMutex : Bool}
    (hadmits : ¬ (inMutex = true ∧ admits mutex caller = false)) (hne : owner ≠ caller)
    (howner : mutex = some owner) : handOver mutex caller inMutex = some owner := by
  have hcaller : ¬ mutex = some caller := by
    rw [howner]
    simpa using hne
  have hout : inMutex = false := by
    by_contra hin
    exact hadmits ⟨by simpa using hin, by simp [admits, howner, hne]⟩
  unfold handOver
  rw [hout, if_neg (by simp), if_neg hcaller, howner]

variable {adds removes} in
/-- A step of a call in the system is a step of its machine, and only the owner has the mutex. -/
theorem step_add {s s' : Writers} {i : ℕ} {event : AddEvent}
    (h : step adds removes s (.add i event) = some s') :
    ∃ v, event.isOwn = true ∧ (adds i).step (s.addView i) event = some v ∧ s' = s.afterAdd i v ∧
      ¬(v.pc.inMutex = true ∧ admits s.mutex (.inl i) = false) := by
  simp only [step] at h
  split_ifs at h with hown
  obtain ⟨v, hstep, hv⟩ := Option.bind_eq_some_iff.mp h
  split_ifs at hv with hadmits
  exact ⟨v, hown, hstep, (Option.some.inj hv).symm, hadmits⟩

variable {adds removes} in
theorem step_remove {s s' : Writers} {i : ℕ} {event : RemoveEvent}
    (h : step adds removes s (.remove i event) = some s') :
    ∃ v, event.isOwn = true ∧ (removes i).step (s.removeView i) event = some v ∧
      s' = s.afterRemove i v ∧ ¬(v.pc.inMutex = true ∧ admits s.mutex (.inr i) = false) := by
  simp only [step] at h
  split_ifs at h with hown
  obtain ⟨v, hstep, hv⟩ := Option.bind_eq_some_iff.mp h
  split_ifs at hv with hadmits
  exact ⟨v, hown, hstep, (Option.some.inj hv).symm, hadmits⟩

/-- **Mutual exclusion.** -/
theorem exclusive_step (s : Writers) (event : WritersEvent) (s' : Writers)
    (hstep : step adds removes s event = some s') (h : s.Exclusive) : s'.Exclusive := by
  cases event with
  | external number entry =>
    simp only [step] at hstep
    split_ifs at hstep
    cases hstep
    exact ⟨fun i hi => h.add i hi, fun i hi => h.remove i hi⟩
  | add i event =>
    obtain ⟨v, -, -, rfl, hadmits⟩ := step_add hstep
    constructor
    · intro j hj
      by_cases hji : j = i
      · subst hji
        have hin : v.pc.inMutex = true := by simpa [afterAdd] using hj
        simp [afterAdd, handOver, hin]
      · have hj : (s.adds j).pc.inMutex = true := by simpa [afterAdd, hji, CallState.seeing] using hj
        exact handOver_other hadmits (by simpa using hji) (h.add j hj)
    · intro j hj
      exact handOver_other hadmits (by simp) (h.remove j hj)
  | remove i event =>
    obtain ⟨v, -, -, rfl, hadmits⟩ := step_remove hstep
    constructor
    · intro j hj
      exact handOver_other hadmits (by simp) (h.add j hj)
    · intro j hj
      by_cases hji : j = i
      · subst hji
        have hin : v.pc.inMutex = true := by simpa [afterRemove] using hj
        simp [afterRemove, handOver, hin]
      · have hj : (s.removes j).pc.inMutex = true := by
          simpa [afterRemove, hji, CallState.seeing] using hj
        exact handOver_other hadmits (by simpa using hji) (h.remove j hj)

/-! ### What one call sees of the others -/

section Views

variable {adds removes}

/-- The files change in steps of a call only behind the mutex, and only the primary file. -/
def Confined (disk disk' : Disk) (inMutex : Bool) : Prop :=
  disk' = disk ∨ inMutex = true ∧ ∃ entry, disk' = Function.update disk 0 entry

theorem confined_add {call : AddCall P} {s v : AddState} {event : AddEvent}
    (hown : event.isOwn = true) (hstep : call.step s event = some v) :
    Confined s.disk v.disk s.pc.inMutex := by
  have hmoves := call.moves_of_step hstep
  cases hmoves with
  | external free => cases hown
  | failWriteSome pc | createFile pc | write pc => exact .inr ⟨by rw [pc]; rfl, _, rfl⟩
  | _ => exact .inl rfl

theorem confined_remove {call : RemoveCall P} {s v : RemoveState} {event : RemoveEvent}
    (hown : event.isOwn = true) (hstep : call.step s event = some v) :
    Confined s.disk v.disk s.pc.inMutex ∧ (v.backup = s.backup ∨ s.pc.inMutex = true) := by
  have hmoves := call.moves_of_step hstep
  cases hmoves with
  | external => cases hown
  | externalBackup outside => cases hown
  | failReplace pc | replace pc => exact ⟨.inr ⟨by rw [pc]; rfl, _, rfl⟩, .inr (by rw [pc]; rfl)⟩
  | _ => exact ⟨.inl rfl, .inl rfl⟩

/-- A step of another call, for a call that adds. -/
theorem addView_of_confined (call : AddCall P) {disk disk' : Disk} {state : CallState AddPc}
    {inMutex : Bool} (h : Confined disk disk' inMutex)
    (hfree : inMutex = true → state.pc.inMutex = false) :
    ∃ events, Run.run call.step ⟨disk, state.untouched, state.written, state.pc⟩ events =
      some ⟨disk', (state.seeing (disk 0) (disk' 0)).untouched, state.written, state.pc⟩ := by
  rcases h with rfl | ⟨hin, entry, rfl⟩
  · exact ⟨[], by simp [Run.run, CallState.seeing]⟩
  · rw [Function.update_self]
    by_cases hsame : entry = disk 0
    · subst hsame
      exact ⟨[], by simp [Run.run, CallState.seeing]⟩
    · have hholding : ¬ (state.pc.isHolding = true ∧ 0 = 0) := by
        rintro ⟨hholding, -⟩
        have hin' := AddPc.inMutex_of_isHolding hholding
        rw [hfree hin] at hin'
        cases hin'
      refine ⟨[.external 0 entry], Run.run_cons.mpr ⟨_, if_neg hholding, ?_⟩⟩
      simp [Run.run, CallState.seeing, hsame]

/-- A step of another call, for a call that removes. -/
theorem removeView_of_confined (call : RemoveCall P) {disk disk' : Disk} {backup backup' : DiskEntry}
    {state : CallState RemovePc} {inMutex : Bool} (h : Confined disk disk' inMutex)
    (hbackup : backup' = backup ∨ inMutex = true)
    (hfree : inMutex = true → state.pc.inMutex = false) :
    ∃ events, Run.run call.step ⟨disk, backup, state.untouched, state.written, state.pc⟩ events =
      some ⟨disk', backup', (state.seeing (disk 0) (disk' 0)).untouched, state.written, state.pc⟩ := by
  have hfirst : ∃ events, Run.run call.step
      ⟨disk, backup, state.untouched, state.written, state.pc⟩ events =
        some ⟨disk', backup, (state.seeing (disk 0) (disk' 0)).untouched, state.written, state.pc⟩ := by
    rcases h with rfl | ⟨hin, entry, rfl⟩
    · exact ⟨[], by simp [Run.run, CallState.seeing]⟩
    · rw [Function.update_self]
      by_cases hsame : entry = disk 0
      · subst hsame
        exact ⟨[], by simp [Run.run, CallState.seeing]⟩
      · exact ⟨[.external 0 entry], Run.run_cons.mpr ⟨_, rfl, by simp [Run.run, CallState.seeing, hsame]⟩⟩
  obtain ⟨events, hrun⟩ := hfirst
  rcases hbackup with rfl | hin
  · exact ⟨events, hrun⟩
  · refine ⟨events ++ [.externalBackup backup'], Run.run_append hrun (Run.run_cons.mpr ⟨_, ?_, rfl⟩)⟩
    exact if_neg (by simp [hfree hin])

/-- A call behind the mutex keeps the others out of it. -/
theorem not_inMutex {mutex : Option (ℕ ⊕ ℕ)} {owner caller : ℕ ⊕ ℕ} {inMutex : Bool} (hne : owner ≠ caller)
    (howner : mutex = some owner) (hcaller : inMutex = true → mutex = some caller) : inMutex = false := by
  by_contra hin
  exact hne (Option.some.inj (howner.symm.trans (hcaller (by simpa using hin))))

@[simp] theorem addView_afterAdd (s : Writers) (i : ℕ) (v : AddState) :
    (s.afterAdd i v).addView i = v := by
  simp [addView, afterAdd]

@[simp] theorem removeView_afterRemove (s : Writers) (i : ℕ) (v : RemoveState) :
    (s.afterRemove i v).removeView i = v := by
  simp [removeView, afterRemove]

/-- **One step, seen from a call that adds.** -/
theorem addView_step (i : ℕ) (s : Writers) (event : WritersEvent) (s' : Writers)
    (hstep : step adds removes s event = some s') (h : s.Exclusive) :
    ∃ events, Run.run (adds i).step (s.addView i) events = some (s'.addView i) := by
  cases event with
  | external number entry =>
    simp only [step] at hstep
    split_ifs at hstep with hheld
    cases hstep
    refine ⟨[.external number entry], Run.run_cons.mpr ⟨_, if_neg ?_, rfl⟩⟩
    rintro ⟨hholding, rfl⟩
    refine hheld ⟨rfl, ?_⟩
    have howner : s.mutex = some (.inl i) := h.add i (AddPc.inMutex_of_isHolding hholding)
    simp only [isHeld, howner]
    exact hholding
  | add j event =>
    obtain ⟨v, hown, hv, rfl, -⟩ := step_add hstep
    by_cases hji : j = i
    · subst hji
      rw [addView_afterAdd]
      exact ⟨[event], Run.run_cons.mpr ⟨v, hv, rfl⟩⟩
    · have hview : (s.afterAdd j v).addView i = ⟨v.disk,
          ((s.adds i).seeing (s.disk 0) (v.disk 0)).untouched, (s.adds i).written, (s.adds i).pc⟩ := by
        simp [addView, afterAdd, Ne.symm hji, CallState.seeing]
      rw [hview]
      exact addView_of_confined (adds i) (confined_add hown hv) fun hj =>
        not_inMutex (by simpa using hji) (h.add j hj) (h.add i)
  | remove j event =>
    obtain ⟨v, hown, hv, rfl, -⟩ := step_remove hstep
    exact addView_of_confined (adds i) (confined_remove hown hv).1 fun hj =>
      not_inMutex (by simp) (h.remove j hj) (h.add i)

/-- **One step, seen from a call that removes.** -/
theorem removeView_step (i : ℕ) (s : Writers) (event : WritersEvent) (s' : Writers)
    (hstep : step adds removes s event = some s') (h : s.Exclusive) :
    ∃ events, Run.run (removes i).step (s.removeView i) events = some (s'.removeView i) := by
  cases event with
  | external number entry =>
    simp only [step] at hstep
    split_ifs at hstep with hheld
    cases hstep
    exact ⟨[.external number entry], Run.run_cons.mpr ⟨_, rfl, rfl⟩⟩
  | add j event =>
    obtain ⟨v, hown, hv, rfl, -⟩ := step_add hstep
    exact removeView_of_confined (removes i) (confined_add hown hv) (.inl rfl) fun hj =>
      not_inMutex (by simp) (h.add j hj) (h.remove i)
  | remove j event =>
    obtain ⟨v, hown, hv, rfl, -⟩ := step_remove hstep
    by_cases hji : j = i
    · subst hji
      rw [removeView_afterRemove]
      exact ⟨[event], Run.run_cons.mpr ⟨v, hv, rfl⟩⟩
    · have hview : (s.afterRemove j v).removeView i = ⟨v.disk, v.backup,
          ((s.removes i).seeing (s.disk 0) (v.disk 0)).untouched, (s.removes i).written,
          (s.removes i).pc⟩ := by
        simp [removeView, afterRemove, Ne.symm hji, CallState.seeing]
      obtain ⟨hconfined, hbackup⟩ := confined_remove hown hv
      rw [hview]
      exact removeView_of_confined (removes i) hconfined hbackup fun hj =>
        not_inMutex (by simpa using hji) (h.remove j hj) (h.remove i)

/-- **A run of the system is a run of each call that adds.** -/
theorem run_addView (i : ℕ) {events : List WritersEvent} {s t : Writers}
    (hrun : Run.run (step adds removes) s events = some t) (h : s.Exclusive) :
    ∃ events', Run.run (adds i).step (s.addView i) events' = some (t.addView i) :=
  Run.run_project (exclusive_step adds removes) (addView_step i) hrun h

/-- **A run of the system is a run of each call that removes.** -/
theorem run_removeView (i : ℕ) {events : List WritersEvent} {s t : Writers}
    (hrun : Run.run (step adds removes) s events = some t) (h : s.Exclusive) :
    ∃ events', Run.run (removes i).step (s.removeView i) events' = some (t.removeView i) :=
  Run.run_project (exclusive_step adds removes) (removeView_step i) hrun h

end Views

/-! ### No lost update -/

section LostUpdate

variable {adds removes} {addEntries removeEntries : ℕ → Disk}
  {addFaults removeFaults : ℕ → ℕ → Option LoadFault}

theorem safeInv_addView (hP : P.CollisionFree)
    (hadds : ∀ i, LoadedFrom P (addEntries i) (addFaults i) (adds i).discoverySnapshot) {disk : Disk}
    {backup : DiskEntry} {events : List WritersEvent} {s : Writers}
    (hrun : Run.run (step adds removes) (start disk backup) events = some s) (i : ℕ) :
    (adds i).SafeInv (addEntries i) (s.addView i) := by
  obtain ⟨events', hview⟩ := run_addView i hrun (exclusive_start disk backup)
  exact Run.run_invariant (AddCall.safeInv_step hP (hadds i)) hview ⟨rfl, rfl⟩

theorem safeInv_removeView (hP : P.CollisionFree)
    (hremoves : ∀ i, LoadedFrom P (removeEntries i) (removeFaults i) (removes i).reviewedSnapshot)
    {disk : Disk} {backup : DiskEntry} {events : List WritersEvent} {s : Writers}
    (hrun : Run.run (step adds removes) (start disk backup) events = some s) (i : ℕ) :
    (removes i).SafeInv (removeEntries i) (s.removeView i) := by
  obtain ⟨events', hview⟩ := run_removeView i hrun (exclusive_start disk backup)
  exact Run.run_invariant (RemoveCall.safeInv_step hP (hremoves i)) hview ⟨rfl, rfl⟩

theorem exclusive_run {disk : Disk} {backup : DiskEntry} {events : List WritersEvent} {s : Writers}
    (hrun : Run.run (step adds removes) (start disk backup) events = some s) : s.Exclusive :=
  Run.run_invariant (exclusive_step adds removes) hrun (exclusive_start disk backup)

variable (adds removes)

/-- The call that adds throws with its next step, whatever else happens, and the primary file is as
everybody else has made it. -/
def AddThrows (s : Writers) (i : ℕ) (loaded : List KnownHostsSourceSnapshot) : Prop :=
  (∀ lastWriteUtc, ∃ s', step adds removes s (.add i (.proceed lastWriteUtc)) = some s' ∧
    (s'.adds i).pc = .threw "store-generation-changed") ∧
  ∀ events s', Run.run (step adds removes) s events = some s' →
    AddCall.StaleInv loaded (s'.addView i)

/-- The same for a call that removes. -/
def RemoveThrows (s : Writers) (i : ℕ) (loaded : List KnownHostsSourceSnapshot) : Prop :=
  (∀ lastWriteUtc, ∃ s', step adds removes s (.remove i (.proceed lastWriteUtc)) = some s' ∧
    (s'.removes i).pc = .threw "store-generation-changed") ∧
  ∀ events s', Run.run (step adds removes) s events = some s' →
    RemoveCall.StaleInv loaded (s'.removeView i)

variable {adds removes}

/-- A snapshot that differs from the reviewed one has another identity. -/
theorem identity_ne (hP : P.CollisionFree) {reviewed : KnownHostsStoreSnapshot} {entries : Disk}
    {faults : ℕ → Option LoadFault} (hreviewed : LoadedFrom P entries faults reviewed)
    {loaded : List KnownHostsSourceSnapshot}
    (hloaded : Loaded P (reviewed.sources.map (·.definition)) loaded)
    (hcomplete : reviewed.sources.length ≤ loaded.length) (hstale : loaded ≠ reviewed.sources) :
    (⟨loaded⟩ : KnownHostsStoreSnapshot).identity P ≠ reviewed.identity P := by
  intro hsame
  have heq := snapshot_eq_of_identity hP hloaded hreviewed.loaded (by simpa using hcomplete)
    (by simp) hsame
  exact hstale (congrArg (·.sources) heq)

/-- **A stale call that adds.** -/
theorem addThrows_of_stale {s : Writers} (hexclusive : s.Exclusive) {i : ℕ}
    {loaded : List KnownHostsSourceSnapshot} (hpc : (s.adds i).pc = .loading loaded)
    (hsafe : s.disk 0 = (s.adds i).untouched ∧ (s.adds i).written = none)
    (hcomplete : (adds i).definitions.length ≤ loaded.length)
    (hstale : (⟨loaded⟩ : KnownHostsStoreSnapshot).identity P ≠ (adds i).discoverySnapshot.identity P) :
    AddThrows adds removes s i loaded := by
  constructor
  · intro lastWriteUtc
    have hstep : (adds i).step (s.addView i) (.proceed lastWriteUtc) =
        some { s.addView i with pc := .threw "store-generation-changed" } := by
      simp only [AddCall.step, AddCall.proceed, addView, hpc]
      rw [if_neg (by omega), if_pos hstale]
    refine ⟨s.afterAdd i { s.addView i with pc := .threw "store-generation-changed" }, ?_, ?_⟩
    · simp [step, AddEvent.isOwn, hstep, AddPc.inMutex]
    · simp [afterAdd]
  · intro events s' hrun
    obtain ⟨events', hview⟩ := run_addView i hrun hexclusive
    exact Run.run_invariant (AddCall.staleInv_step hcomplete hstale) hview
      ⟨.inl hpc, hsafe.1, hsafe.2⟩

/-- **A stale call that removes.** -/
theorem removeThrows_of_stale {s : Writers} (hexclusive : s.Exclusive) {i : ℕ}
    {loaded : List KnownHostsSourceSnapshot} (hpc : (s.removes i).pc = .loading loaded)
    (hsafe : s.disk 0 = (s.removes i).untouched ∧ (s.removes i).written = none)
    (hcomplete : (removes i).definitions.length ≤ loaded.length)
    (hstale : (⟨loaded⟩ : KnownHostsStoreSnapshot).identity P ≠
      (removes i).reviewedSnapshot.identity P) :
    RemoveThrows adds removes s i loaded := by
  constructor
  · intro lastWriteUtc
    have hstep : (removes i).step (s.removeView i) (.proceed lastWriteUtc) =
        some { s.removeView i with pc := .threw "store-generation-changed" } := by
      simp only [RemoveCall.step, RemoveCall.proceed, removeView, hpc]
      rw [if_neg (by omega), if_pos hstale]
    refine ⟨s.afterRemove i { s.removeView i with pc := .threw "store-generation-changed" }, ?_, ?_⟩
    · simp [step, RemoveEvent.isOwn, hstep, RemovePc.inMutex]
    · simp [afterRemove]
  · intro events s' hrun
    obtain ⟨events', hview⟩ := run_removeView i hrun hexclusive
    exact Run.run_invariant (RemoveCall.staleInv_step hcomplete hstale) hview
      ⟨.inl hpc, hsafe.1, hsafe.2⟩

/-- **No lost update.**  In every run of any number of calls and other programs:

* a call that adds and returns has replaced the reviewed content of the primary file by that content
  with the record added, and has read this back;
* a call that removes and returns has replaced the reviewed content by its other lines, has read
  these back, and returns with the reviewed content in the backup;
* a call whose first load differs from the reviewed snapshot throws without a change. -/
theorem no_lost_update (hP : P.CollisionFree)
    (hadds : ∀ i, LoadedFrom P (addEntries i) (addFaults i) (adds i).discoverySnapshot)
    (hremoves : ∀ i, LoadedFrom P (removeEntries i) (removeFaults i) (removes i).reviewedSnapshot)
    (disk : Disk) (backup : DiskEntry) (events : List WritersEvent) (s : Writers)
    (hrun : Run.run (step adds removes) (start disk backup) events = some s) (i : ℕ) :
    (∀ verified, (s.adds i).pc = .returned verified →
      (adds i).Committed (addEntries i) (s.adds i).written verified) ∧
    (∀ verified original retained, (s.removes i).pc = .returned verified original retained →
      (removes i).Committed (removeEntries i) (s.removes i).written verified original retained) ∧
    (∀ event s' verified original retained, step adds removes s (.remove i event) = some s' →
      (s'.removes i).pc = .returned verified original retained →
      RemoveCall.BackedUp (s'.removes i).written s'.backup) ∧
    (∀ loaded, (s.adds i).pc = .loading loaded → (adds i).definitions.length ≤ loaded.length →
      loaded ≠ (adds i).discoverySnapshot.sources → AddThrows adds removes s i loaded) ∧
    ∀ loaded, (s.removes i).pc = .loading loaded → (removes i).definitions.length ≤ loaded.length →
      loaded ≠ (removes i).reviewedSnapshot.sources → RemoveThrows adds removes s i loaded := by
  have hadd := safeInv_addView hP hadds hrun i
  have hremove := safeInv_removeView hP hremoves hrun i
  refine ⟨?_, ?_, ?_, ?_, ?_⟩
  · intro verified hpc
    simpa only [AddCall.SafeInv, addView, hpc] using hadd
  · intro verified original retained hpc
    simpa only [RemoveCall.SafeInv, removeView, hpc] using hremove
  · intro event s' verified original retained hstep hpc
    obtain ⟨v, hown, hv, rfl, -⟩ := step_remove hstep
    have hview := removeView_afterRemove s i v
    rw [← hview] at hv
    exact RemoveCall.backedUp_of_return hown hv hremove hpc
  · intro loaded hpc hcomplete hstale
    simp only [AddCall.SafeInv, addView, hpc] at hadd
    refine addThrows_of_stale (exclusive_run hrun) hpc ⟨hadd.1, hadd.2.1⟩ hcomplete ?_
    exact identity_ne hP (hadds i) hadd.2.2 (by simpa [AddCall.definitions] using hcomplete) hstale
  · intro loaded hpc hcomplete hstale
    simp only [RemoveCall.SafeInv, removeView, hpc] at hremove
    refine removeThrows_of_stale (exclusive_run hrun) hpc ⟨hremove.1, hremove.2.1⟩ hcomplete ?_
    exact identity_ne hP (hremoves i) hremove.2.2
      (by simpa [RemoveCall.definitions] using hcomplete) hstale

end LostUpdate

end Writers

section Sample

theorem storePlatform_collisionFree : storePlatform.CollisionFree :=
  Platform.ofDigests_collisionFree (by decide +kernel) (by decide +kernel)

theorem loadedFrom_load (P : Platform) (definitions : List KnownHostsSourceDefinition) (disk : Disk) :
    LoadedFrom P disk (fun _ => none) (load P definitions disk) := by
  have hdefinitions : (load P definitions disk).sources.map (·.definition) = definitions := by
    apply List.ext_getElem?
    intro number
    rw [List.getElem?_map, load_getElem?]
    cases definitions[number]? with
    | none => rfl
    | some definition => simp
  unfold LoadedFrom
  rw [hdefinitions]
  rfl

/-- The call that removes the record of the host `a`. -/
def sampleRemove : RemoveCall storePlatform :=
  ⟨load storePlatform sampleDefinitions fullDisk, "a".toList, [1]⟩

/-- The call that removes, undisturbed, up to its last step. -/
def quietRemoval : List RemoveEvent :=
  let loads := List.replicate 4 (.load none)
  [.proceed 0, .proceed 0] ++ loads ++ List.replicate 5 (.proceed 0) ++ loads ++
    [.proceed 0, .proceed 8] ++ loads ++ [.proceed 0]

/-- One call adds the record of the host `a`, then another one removes it. -/
def addThenRemove : List WritersEvent :=
  (untilAdmitted ++ [.proceed 5] ++ loads ++ [.proceed 0] : List AddEvent).map (.add 0) ++
    quietRemoval.map (.remove 0)

/-- The snapshot that a call returns, with the bytes it found and kept. -/
def RemovePc.verified : RemovePc → Option (KnownHostsStoreSnapshot × Bytes × Bytes)
  | .returned verified original retained => some (verified, original, retained)
  | _ => none

theorem pc_of_removeVerified {pc : RemovePc} {verified : KnownHostsStoreSnapshot}
    {original retained : Bytes} (h : pc.verified = some (verified, original, retained)) :
    pc = .returned verified original retained := by
  cases pc <;> cases h
  rfl

def sampleStep : Writers → WritersEvent → Option Writers :=
  Writers.step (fun _ => sampleAdd emptyDisk "a") fun _ => sampleRemove

/-- The record is added and removed again: both calls return, and the backup is what was replaced. -/
theorem no_lost_update_added_removed : ∃ s s' added removed,
    Run.run sampleStep (.start emptyDisk .missing) addThenRemove = some s ∧
      sampleStep s (.remove 0 (.proceed 0)) = some s' ∧
      (s.adds 0).pc.verified = some added ∧ (s'.removes 0).pc.verified = some removed ∧
      (sampleAdd emptyDisk "a").Committed emptyDisk (s.adds 0).written added ∧
      RemoveCall.BackedUp (s'.removes 0).written s'.backup := by
  have hruns : ((Run.run sampleStep (.start emptyDisk .missing) addThenRemove).bind fun s =>
      (sampleStep s (.remove 0 (.proceed 0))).map fun s' =>
        ((s.adds 0).pc.verified.isSome, (s'.removes 0).pc.verified.isSome)) = some (true, true) := by
    decide +kernel
  obtain ⟨s, hs, hnext⟩ := Option.bind_eq_some_iff.mp hruns
  obtain ⟨s', hs', hboth⟩ := Option.map_eq_some_iff.mp hnext
  obtain ⟨hadded, hremoved⟩ := Prod.mk.inj hboth
  obtain ⟨added, hadded⟩ := Option.isSome_iff_exists.mp hadded
  obtain ⟨⟨verified, original, retained⟩, hremoved⟩ := Option.isSome_iff_exists.mp hremoved
  obtain ⟨hadd, -, hbackup, -, -⟩ := Writers.no_lost_update storePlatform_collisionFree
    (fun _ => loadedFrom_load _ _ emptyDisk) (fun _ => loadedFrom_load _ _ fullDisk) emptyDisk .missing
    addThenRemove s hs 0
  exact ⟨s, s', added, _, hs, hs', hadded, hremoved, hadd added (pc_of_verified hadded),
    hbackup _ s' verified original retained hs' (pc_of_removeVerified hremoved)⟩

end Sample

end VT7.KnownHosts
