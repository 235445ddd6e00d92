import VT7.Session.OverlaySteps

/-!
# Recovery of the root behind a request

When the broker is done with a request, the session is back in `RunningRoot` or it has ended, whatever
happened to the prompt, to the overlay and to the completion frame (`overlay_recovery`).

`Placed` ties every position of a request to the one state the session has there, unless it has ended.
-/

namespace VT7.Session

open VT7.Lib

/-! ### Positions of a request -/

namespace RequestPosition

/-- The state of the session, unless it has ended. -/
def expected (began : Bool) : RequestPosition → TerminalSessionState
  | .barrier | .gate | .ready | .prompt | .cancelledLine _ | .finished _ => .runningRoot
  | .starting (.awaits _) => .startingOverlay
  | .starting .returned | .completion => .runningOverlay
  | .starting .threw | .stopping _ _ | .endedLine _ _ | .recovering _ | .failedLine _ =>
    .stoppingOverlay
  | .complete _ => if began then .stoppingOverlay else .runningRoot

/-- The operation of the session that is awaited. -/
def frames : RequestPosition → List Frame
  | .cancelledLine next | .starting next | .stopping _ next | .endedLine _ next
  | .recovering next | .failedLine next => next.frames
  | _ => []

/-- The operations that can be awaited. -/
def allows : RequestPosition → Frame → Bool
  | .cancelledLine _, frame | .endedLine _ _, frame | .failedLine _, frame => frame = .hostLine
  | .starting _, frame => frame.starts
  | .stopping _ _, frame | .recovering _, frame => frame.stops
  | _, _ => false

/-- There is no overlay yet. -/
def early : RequestPosition → Bool
  | .barrier | .gate | .ready | .prompt | .cancelledLine _ => true
  | _ => false

/-- In the `try` of `HandleEmbeddedAsync`. -/
def inTry : RequestPosition → Bool
  | .starting _ | .completion | .stopping _ _ | .endedLine _ _ | .recovering _
  | .failedLine _ => true
  | _ => false

/-- The status the handler will return. -/
def status : RequestPosition → Option ℤ
  | .stopping status _ | .endedLine status _ => some status
  | _ => none

end RequestPosition

/-- **A request at its position.** -/
structure Placed (s : HostState) (r : Request) : Prop where
  state : s.session.InState (r.position.expected r.began)
  frames : ∀ frame ∈ r.position.frames, r.position.allows frame = true
  early : r.position.early = true → r.began = false
  late : r.position.inTry = true → r.began = true ∨ s.session.ended = true
  overlay : r.position.inTry = false → s.overlay = none
  status : ∀ status, r.position.status = some status → status = 0 ∨ status = 255
  queues : r.priorQueues ≤ s.session.queues.length ∨ s.session.ended = true
  kept : r.began = false → s.session.state = .runningRoot → s.session.outbound = r.priorOutbound
  fresh : r.done = true → r.began = true → ∀ k, s.session.outbound = some k → r.priorQueues ≤ k

structure Hosted (s : HostState) : Prop where
  gated : Gated [] s.session (s.frames ++ (s.request.elim [] fun r => r.position.frames))
  lasting : s.session.Lasting
  isOpen : s.session.rootMonitor.isSome = true → s.session.Open
  owner : ∀ frame ∈ s.frames, frame.ofOwner = true
  started : s.session.rootMonitor.isSome = true → ∀ frame ∈ s.frames, frame = .hostLine
  attached : s.attached = true → s.session.rootMonitor.isSome = true
  unattached : s.attached = false → s.request = none
  idle : s.request = none → s.overlay = none ∧
    (s.session.rootMonitor.isSome = true → s.session.InState .runningRoot)
  placed : ∀ r, s.request = some r → Placed s r

theorem ended_ne_runningRoot {s : TerminalSession} (h : s.ended = true) : s.state ≠ .runningRoot := by
  intro hstate
  simp [TerminalSession.ended, hstate] at h

theorem InState.recedes {s s' : TerminalSession} {state : TerminalSessionState}
    (h : s.InState state) (hrecedes : Recedes s s') : s'.InState state := by
  rcases hrecedes with hended | ⟨hstate, _⟩
  · exact .inr hended
  · exact h.of_state hstate

/-- A request under a step of the owner. -/
theorem Placed.recedes {base : List Move} {s : HostState} {r : Request} {t : SessionState}
    (h : Placed s r) (ht : Queued base t.session) (hrecedes : Recedes s.session t.session) :
    Placed { s with session := t.session, frames := t.frames } r := by
  have hstate : t.session.InState (r.position.expected r.began) := InState.recedes h.state hrecedes
  rcases hrecedes with hended | ⟨hsame, houtbound, hlength, _, _⟩
  · have hnone := ht.outbound_of_ended hended
    exact
      { state := hstate
        frames := h.frames
        early := h.early
        late := fun _ => .inr hended
        overlay := h.overlay
        status := h.status
        queues := .inr hended
        kept := fun _ hrunning => absurd hrunning (ended_ne_runningRoot hended)
        fresh := fun _ _ k hk => by
          rw [hnone] at hk
          cases hk }
  · have hended : t.session.ended = s.session.ended := by
      simp only [TerminalSession.ended, hsame]
    exact
      { state := hstate
        frames := h.frames
        early := h.early
        late := fun hin => hended ▸ h.late hin
        overlay := h.overlay
        status := h.status
        queues := by
          rw [hended, hlength]
          exact h.queues
        kept := fun hbegan hrunning =>
          houtbound.trans (h.kept hbegan (hsame.symm.trans hrunning))
        fresh := fun hdone hbegan k hk => h.fresh hdone hbegan k (houtbound.symm.trans hk) }

theorem InState.not_created {s : TerminalSession} {state : TerminalSessionState}
    (h : s.InState state) (hstate : state ≠ .created) : s.state ≠ .created := by
  intro hcreated
  rcases h with h | h
  · exact hstate (h.symm.trans hcreated)
  · simp [TerminalSession.ended, hcreated] at h

theorem RequestPosition.expected_ne_created (position : RequestPosition) (began : Bool) :
    position.expected began ≠ .created := by
  cases position with
  | starting next => cases next <;> simp [expected]
  | complete status => cases began <;> simp [expected]
  | _ => simp [expected]

theorem Hosted.not_created {s : HostState} (h : Hosted s)
    (hmonitor : s.session.rootMonitor.isSome = true) : s.session.state ≠ .created := by
  cases hrequest : s.request with
  | none => exact InState.not_created ((h.idle hrequest).2 hmonitor) (by simp)
  | some r => exact InState.not_created (h.placed r hrequest).state (r.position.expected_ne_created _)

namespace HostState

variable {s : HostState} {r : Request}

/-- **A step of the owner.** -/
theorem hosted_session {e : SessionEvent} {t : SessionState} (h : Hosted s)
    (hmay : s.ownerMay e = true) (hstep : SessionState.step ⟨s.session, s.frames⟩ e = some t) :
    Hosted { s with session := t.session, frames := t.frames } := by
  have hgated := SessionState.gated_of_step hstep h.gated
  cases hmonitor : s.session.rootMonitor.isSome with
  | false =>
    have hattached : s.attached = false := by
      by_contra hne
      have := h.attached (by simpa using hne)
      rw [hmonitor] at this
      cases this
    have hnone := h.unattached hattached
    have hkeeps := owner_starts h.gated hmay h.lasting hmonitor h.owner hstep
    exact
      { gated := hgated
        lasting := hkeeps.lasting
        isOpen := fun hstarted => (hkeeps.started hstarted).2.1
        owner := hkeeps.frames
        started := fun hstarted => (hkeeps.started hstarted).2.2
        attached := fun h' => by
          rw [hattached] at h'
          cases h'
        unattached := fun _ => hnone
        idle := fun _ => ⟨(h.idle hnone).1, fun hstarted => .inl (hkeeps.started hstarted).1⟩
        placed := fun r hr => by
          rw [hnone] at hr
          cases hr }
  | true =>
    obtain ⟨hrecedes, hmonitor', hlines⟩ :=
      owner_keeps h.gated hmay hmonitor (h.started hmonitor) (h.not_created hmonitor) hstep
    have hopen : t.session.Open := by
      rcases hrecedes with hended | ⟨_, _, _, _, hopen⟩
      · exact Open.of_none (hgated.queued.outbound_of_ended hended)
      · exact hopen (h.isOpen hmonitor)
    exact
      { gated := hgated
        lasting := hrecedes.lasting h.lasting
        isOpen := fun _ => hopen
        owner := fun frame hframe => by
          rw [hlines frame hframe]
          rfl
        started := fun _ => hlines
        attached := fun _ => hmonitor'
        unattached := h.unattached
        idle := fun hnone => ⟨(h.idle hnone).1, fun _ =>
          InState.recedes ((h.idle hnone).2 hmonitor) hrecedes⟩
        placed := fun r hr => (h.placed r hr).recedes hgated.queued hrecedes }

/-! ### Steps of a request -/

theorem gated_inner {session : TerminalSession} {frames : List Frame} {frame : Frame}
    {answer : Answer} {result : TerminalSession × Next} (h : Gated [] session (frames ++ [frame]))
    (hresume : session.resume frame answer = some result) :
    Gated [] result.1 (frames ++ result.2.frames) :=
  (TerminalSession.gated_resume (h.perm List.perm_append_comm) hresume).perm List.perm_append_comm

theorem gated_outer {session : TerminalSession} {frames : List Frame} (h : Gated [] session frames)
    (call : SessionCall) :
    Gated [] (session.call call).1 (frames ++ (session.call call).2.frames) :=
  (TerminalSession.gated_call h call).perm List.perm_append_comm

/-- A step of the request leaves the owner's side alone. -/
theorem hosted_request {s' : HostState} {r' : Request} (h : Hosted s) (hr : s.request = some r)
    (hr' : s'.request = some r') (hframes : s'.frames = s.frames)
    (hattached : s'.attached = s.attached)
    (hgated : Gated [] s'.session (s.frames ++ r'.position.frames))
    (hcarries : Carries s.session s'.session) (hplaced : Placed s' r') : Hosted s' where
  gated := by rw [hframes, hr']; exact hgated
  lasting := hcarries.lasting h.lasting
  isOpen hmonitor := hcarries.isOpen (h.isOpen (hcarries.monitor ▸ hmonitor))
  owner := hframes ▸ h.owner
  started hmonitor := hframes ▸ h.started (hcarries.monitor ▸ hmonitor)
  attached hattached' := by
    rw [hcarries.monitor]
    exact h.attached (hattached ▸ hattached')
  unattached hattached' := by
    have := h.unattached (hattached ▸ hattached')
    rw [hr] at this
    cases this
  idle hnone := by
    rw [hr'] at hnone
    cases hnone
  placed r'' hr'' := by
    obtain rfl := Option.some.inj (hr'.symm.trans hr'')
    exact hplaced

end HostState

section Positions

variable {s : HostState} {r : Request}

/-- Before there is an overlay: the session is as it was. -/
theorem Placed.ofEarly (h : Placed s r) (hearly : r.position.early = true) (s' : HostState)
    (position : RequestPosition) (hsession : s'.session = s.session)
    (hoverlay : s'.overlay = s.overlay) (hinTry : position.inTry = false)
    (hexpected : position.expected false = .runningRoot) (hstatus : position.status = none)
    (hframes : ∀ frame ∈ position.frames, position.allows frame = true) :
    Placed s' { r with position := position } := by
  have hbegan := h.early hearly
  have hnotTry : r.position.inTry = false := by
    revert hearly
    cases r.position <;> simp [RequestPosition.early, RequestPosition.inTry]
  have hstate : r.position.expected r.began = .runningRoot := by
    revert hearly
    cases r.position <;> simp [RequestPosition.early, RequestPosition.expected]
  exact
    { state := by
        rw [hsession, hbegan, hexpected, ← hstate]
        exact h.state
      frames := hframes
      early := fun _ => hbegan
      late := fun hin => by
        rw [hinTry] at hin
        cases hin
      overlay := fun _ => hoverlay.trans (h.overlay hnotTry)
      status := fun status hsome => by
        rw [hstatus] at hsome
        cases hsome
      queues := by rw [hsession]; exact h.queues
      kept := by rw [hsession]; exact h.kept
      fresh := fun _ hbegan' => by
        rw [hbegan] at hbegan'
        cases hbegan' }

/-- Inside the `try`: the overlay was taken up, or the session has ended. -/
theorem Placed.ofTry {s' : HostState} (h : Placed s r) (hin : r.position.inTry = true)
    (hcarries : Carries s.session s'.session) {position : RequestPosition}
    (hin' : position.inTry = true)
    (hstate : s'.session.InState (position.expected r.began))
    (hframes : ∀ frame ∈ position.frames, position.allows frame = true)
    (hstatus : ∀ status, position.status = some status → status = 0 ∨ status = 255) :
    Placed s' { r with position := position } := by
  have hlate : r.began = true ∨ s'.session.ended = true := (h.late hin).imp id hcarries.ended
  exact
    { state := hstate
      frames := hframes
      early := fun hearly => by
        revert hin' hearly
        cases position <;> simp [RequestPosition.early, RequestPosition.inTry]
      late := fun _ => hlate
      overlay := fun hout => by
        rw [hin'] at hout
        cases hout
      status := hstatus
      queues := h.queues.imp (fun hle => hle.trans hcarries.queues) hcarries.ended
      kept := fun hbegan hrunning => by
        rw [hbegan] at hlate
        exact absurd hrunning (ended_ne_runningRoot (hlate.resolve_left Bool.false_ne_true))
      fresh := fun hdone => by
        revert hin' hdone
        cases position <;> simp [Request.done, RequestPosition.inTry] }

/-- The handler returns from inside the `try`. -/
theorem Placed.completes (h : Placed s r) (hin : r.position.inTry = true)
    (hstopping : s.session.InState .stoppingOverlay) (status : ℤ) :
    Placed (s.released.goTo r (.complete status)) { r with position := .complete status } where
  state := by
    show s.session.InState (if r.began then .stoppingOverlay else .runningRoot)
    rcases h.late hin with hbegan | hended
    · rw [if_pos hbegan]
      exact hstopping
    · exact .inr hended
  frames := by simp [RequestPosition.frames]
  early hearly := by cases hearly
  late hin := by cases hin
  overlay _ := rfl
  status status hstatus := by cases hstatus
  queues := h.queues
  kept hbegan hrunning := by
    have hlate := h.late hin
    rw [hbegan] at hlate
    exact absurd hrunning (ended_ne_runningRoot (hlate.resolve_left Bool.false_ne_true))
  fresh hdone := by cases hdone

end Positions

namespace HostState

variable {s : HostState} {r : Request}

/-- Before there is an overlay, and no operation of the session is awaited. -/
theorem hosted_goTo (h : Hosted s) (hr : s.request = some r) (hearly : r.position.early = true)
    (hframes : r.position.frames = []) {position : RequestPosition}
    (hinTry : position.inTry = false) (hexpected : position.expected false = .runningRoot)
    (hstatus : position.status = none) (hframes' : position.frames = []) :
    Hosted (s.goTo r position) := by
  have hgated := h.gated
  rw [hr] at hgated
  refine hosted_request h hr rfl rfl rfl ?_ (.refl _) ?_
  · show Gated [] s.session (s.frames ++ position.frames)
    rw [hframes', ← hframes]
    exact hgated
  · exact (h.placed r hr).ofEarly hearly (s.goTo r position) position rfl rfl hinTry hexpected hstatus
      (by simp [hframes'])

/-- `AppendHostLineAsync` keeps the session where it is. -/
theorem carries_appendHostLineAsync (session : TerminalSession) :
    Carries session session.appendHostLineAsync.1 ∧
      session.appendHostLineAsync.1.state = session.state := by
  unfold TerminalSession.appendHostLineAsync
  dsimp only
  split_ifs
  · exact ⟨TerminalSession.carries_of_fields rfl rfl rfl rfl rfl, rfl⟩
  · exact ⟨TerminalSession.carries_of_fields rfl rfl rfl rfl rfl, rfl⟩

/-- The line of a prompt that was cancelled. -/
theorem hosted_cancelled (h : Hosted s) (hr : s.request = some r) (hposition : r.position = .prompt) :
    Hosted (s.inSession r .cancelledLine s.session.appendHostLineAsync) := by
  have hgated := h.gated
  rw [hr, Option.elim_some, hposition] at hgated
  have hgated := gated_outer hgated .appendHostLineAsync
  rw [List.append_assoc] at hgated
  obtain ⟨hrecedes, _, hline⟩ := appendHostLineAsync_keeps s.session
  have hplaced := (h.placed r hr).recedes (t := ⟨_, s.frames⟩) hgated.queued hrecedes
  refine hosted_request h hr rfl rfl rfl hgated (carries_appendHostLineAsync _).1 ?_
  refine hplaced.ofEarly (by rw [hposition]; rfl) _ (.cancelledLine _) rfl rfl rfl rfl rfl ?_
  intro frame hframe
  rw [hline frame hframe]
  rfl

/-- A line that is written inside the `try`. -/
theorem hosted_line (h : Hosted s) (hr : s.request = some r) (hin : r.position.inTry = true)
    (hframes : r.position.frames = []) (hstopping : s.session.InState .stoppingOverlay)
    {position : Next → RequestPosition}
    (hposition : position = .failedLine ∨ ∃ status, (status = 0 ∨ status = 255) ∧
      position = .endedLine status) :
    Hosted (s.inSession r position s.session.appendHostLineAsync) := by
  have hgated := h.gated
  rw [hr, Option.elim_some, hframes] at hgated
  have hgated := gated_outer hgated .appendHostLineAsync
  rw [List.append_assoc] at hgated
  obtain ⟨_, _, hline⟩ := appendHostLineAsync_keeps s.session
  obtain ⟨hcarries, hstate⟩ := carries_appendHostLineAsync s.session
  have hline : ∀ frame ∈ s.session.appendHostLineAsync.2.frames, decide (frame = .hostLine) = true :=
    fun frame hframe => decide_eq_true (hline frame hframe)
  rcases hposition with rfl | ⟨status, hstatus, rfl⟩
  · exact hosted_request h hr rfl rfl rfl hgated hcarries
      ((h.placed r hr).ofTry hin hcarries rfl (hstopping.of_state hstate) hline
        (by simp [RequestPosition.status]))
  · refine hosted_request h hr rfl rfl rfl hgated hcarries
      ((h.placed r hr).ofTry hin hcarries rfl (hstopping.of_state hstate) hline ?_)
    intro status' hsome
    obtain rfl := Option.some.inj hsome
    exact hstatus

/-- The handler of `HandleEmbeddedAsync`. -/
theorem hosted_recover (h : Hosted s) (hr : s.request = some r) (hin : r.position.inTry = true)
    (hframes : r.position.frames = []) (hstopping : s.session.InState .stoppingOverlay) :
    Hosted (s.recover r) := by
  have hnot : s.session.state ≠ .runningOverlay := by
    intro hstate
    rcases hstopping with hstopping | hended
    · rw [hstate] at hstopping
      cases hstopping
    · simp [TerminalSession.ended, hstate] at hended
  unfold recover
  rw [if_neg hnot]
  exact hosted_line h hr hin hframes hstopping (.inl rfl)

/-- The handler returns from inside the `try`. -/
theorem hosted_handled (h : Hosted s) (hr : s.request = some r) (hin : r.position.inTry = true)
    (hframes : r.position.frames = []) (hstopping : s.session.InState .stoppingOverlay)
    {status : ℤ} (hstatus : status = 0 ∨ status = 255) : Hosted (s.released.handled r status) := by
  have hgated := h.gated
  rw [hr, Option.elim_some, hframes] at hgated
  have hposition : (if status ≠ 0 ∧ status ≠ 255 then RequestPosition.finished true
      else .complete status) = .complete status := by
    rw [if_neg]
    rintro ⟨h0, h255⟩
    exact hstatus.elim h0 h255
  unfold handled
  rw [hposition]
  exact hosted_request h hr rfl rfl rfl hgated (TerminalSession.carries_of_fields rfl rfl rfl rfl rfl)
    ((h.placed r hr).completes hin hstopping status)

theorem startOverlayAsync_taken {session : TerminalSession} {frames : List Frame}
    (h : Gated [] session frames) (hstate : session.state = .runningRoot) (overlay : ℕ) :
    ∃ prior, (session.startOverlayAsync overlay false).2 = .awaits (.overlayPrior prior overlay false) ∧
      (session.startOverlayAsync overlay false).1.state = .startingOverlay ∧
      Carries session (session.startOverlayAsync overlay false).1 := by
  obtain ⟨prior, hprior⟩ : ∃ prior, session.outbound = some prior := by
    rw [← Option.isSome_iff_exists, h.queued.outbound, hstate]
    rfl
  have hended : session.ended = false := by simp [TerminalSession.ended, hstate]
  unfold TerminalSession.startOverlayAsync
  rw [if_neg (by simpa using hstate), hprior]
  exact ⟨prior, rfl, rfl,
    TerminalSession.carries_leave hended (List.length_modify ..) rfl rfl rfl⟩

/-- `StartOverlayAsync` is called. -/
theorem hosted_startOverlay (h : Hosted s) (hr : s.request = some r)
    (hposition : r.position = .prompt) (overlay : ℕ) : Hosted (s.startOverlay r overlay) := by
  have hplaced := h.placed r hr
  have hbegan : r.began = false := hplaced.early (by rw [hposition]; rfl)
  have hgated := h.gated
  rw [hr, Option.elim_some, hposition] at hgated
  have hgated' := gated_outer hgated (.startOverlayAsync overlay false)
  rw [List.append_assoc] at hgated'
  have hstate : s.session.InState .runningRoot := by
    have := hplaced.state
    rwa [hposition] at this
  unfold startOverlay
  rcases hstate with hstate | hended
  · obtain ⟨prior, hnext, hstarting, hcarries⟩ := startOverlayAsync_taken hgated hstate overlay
    refine hosted_request h hr rfl rfl rfl hgated' hcarries ?_
    dsimp only
    rw [hnext]
    exact
      { state := .inl hstarting
        frames := by simp [RequestPosition.frames, Next.frames, RequestPosition.allows, Frame.starts]
        early := fun hearly => by cases hearly
        late := fun _ => .inl (by simp [hstate])
        overlay := fun hout => by cases hout
        status := by simp [RequestPosition.status]
        queues := hplaced.queues.imp (fun hle => hle.trans hcarries.queues) hcarries.ended
        kept := fun hfalse => by simp [hstate] at hfalse
        fresh := fun hdone => by cases hdone }
  · have hstate : s.session.state ≠ .runningRoot := ended_ne_runningRoot hended
    have hcall : s.session.startOverlayAsync overlay false = (s.session, .threw) := by
      unfold TerminalSession.startOverlayAsync
      rw [if_pos hstate]
    have hfalse : (r.began || decide (s.session.state = .runningRoot)) = false := by
      simp [hbegan, hstate]
    refine hosted_request h hr rfl rfl rfl hgated' ?_ ?_
    · rw [hcall]
      exact .refl _
    dsimp only
    rw [hcall, hfalse]
    exact
      { state := .inr hended
        frames := by simp [RequestPosition.frames, Next.frames]
        early := fun hearly => by cases hearly
        late := fun _ => .inr hended
        overlay := fun hout => by cases hout
        status := by simp [RequestPosition.status]
        queues := hplaced.queues
        kept := fun _ hrunning => absurd hrunning hstate
        fresh := fun hdone => by cases hdone }

/-- The overlay has ended. -/
theorem hosted_overlayEnded (h : Hosted s) (hr : s.request = some r)
    (hposition : r.position = .completion) {status : ℤ} (hstatus : status = 0 ∨ status = 255) :
    Hosted (s.overlayEnded r status) := by
  have hplaced := h.placed r hr
  have hin : r.position.inTry = true := by rw [hposition]; rfl
  have hframes : r.position.frames = [] := by rw [hposition]; rfl
  unfold overlayEnded
  split_ifs with hstate
  · have hgated := h.gated
    rw [hr, Option.elim_some, hframes] at hgated
    have hgated' := gated_outer hgated (.stopOverlayAsync false)
    rw [List.append_assoc] at hgated'
    have hended : s.session.ended = false := by simp [TerminalSession.ended, hstate]
    have hcall : (s.session.stopOverlayAsync false).1.state = .stoppingOverlay ∧
        (∀ frame ∈ (s.session.stopOverlayAsync false).2.frames, frame.stops = true) ∧
        Carries s.session (s.session.stopOverlayAsync false).1 := by
      unfold TerminalSession.stopOverlayAsync
      rw [if_neg (by simpa using hstate)]
      refine ⟨by simp [TerminalSession.setState], by simp [Next.frames, Frame.stops], ?_⟩
      refine TerminalSession.carries_leave hended ?_ ?_ (by simp) ?_
      · exact (TerminalSession.calms_completeQueue
          { s.session.setState .stoppingOverlay with outbound := none } _).length
      · cases s.session.outbound <;> rfl
      · cases s.session.outbound <;> rfl
    obtain ⟨hstopping, hstops, hcarries⟩ := hcall
    refine hosted_request h hr rfl rfl rfl hgated' hcarries
      (hplaced.ofTry hin hcarries rfl (.inl hstopping) hstops ?_)
    intro status' hsome
    obtain rfl := Option.some.inj hsome
    exact hstatus
  · have hended : s.session.ended = true := by
      have := hplaced.state
      rw [hposition] at this
      exact this.resolve_left hstate
    exact hosted_line h hr hin hframes (.inr hended) (.inr ⟨status, hstatus, rfl⟩)

theorem exitStatus_cases (kind : TerminalTransportResultKind) (exitCode : Option ℤ) :
    exitStatus kind exitCode = 0 ∨ exitStatus kind exitCode = 255 := by
  unfold exitStatus
  split_ifs
  · exact .inl rfl
  · exact .inr rfl

/-- The completion frame is written, or cannot be. -/
theorem hosted_resumeRootAfterComplete (h : Hosted s) (hr : s.request = some r) {status : ℤ}
    (hposition : r.position = .complete status) (threw : Bool) :
    Hosted (s.resumeRootAfterComplete r threw) := by
  have hplaced := h.placed r hr
  have hgated := h.gated
  rw [hr, Option.elim_some, hposition] at hgated
  have hoverlay : s.overlay = none := hplaced.overlay (by rw [hposition]; rfl)
  have hstate := hplaced.state
  rw [hposition] at hstate
  unfold resumeRootAfterComplete
  split_ifs with hstopping
  · have hgated' := gated_outer hgated .resumeRootAsync
    rw [List.append_assoc] at hgated'
    have hended : s.session.ended = false := by simp [TerminalSession.ended, hstopping]
    have hcancelled : s.session.cancelled ≠ true := by
      intro hcancelled
      rw [h.lasting hcancelled] at hended
      cases hended
    have hcall : s.session.resumeRootAsync =
        ((s.session.nextGeneration.openQueue s.session.nextGeneration.activeGeneration
          .root).setState .runningRoot, .returned) := by
      unfold TerminalSession.resumeRootAsync TerminalSession.resumeRoot
      rw [if_neg (by simpa using hstopping), if_neg (by simp [hstopping, hcancelled])]
    have hcarries : Carries s.session s.session.resumeRootAsync.1 := by
      rw [hcall]
      have hnext : Carries s.session s.session.nextGeneration :=
        TerminalSession.carries_of_fields rfl rfl rfl rfl rfl
      have hended' : s.session.nextGeneration.ended = false := hended
      exact hnext.trans (TerminalSession.carries_open hended' _ _ _)
    refine hosted_request h hr rfl rfl rfl ?_ hcarries ?_
    · show Gated [] s.session.resumeRootAsync.1 (s.frames ++ [])
      have hgated' : Gated [] s.session.resumeRootAsync.1
        (s.frames ++ s.session.resumeRootAsync.2.frames) := hgated'
      rw [hcall] at hgated' ⊢
      exact hgated'
    · unfold inSession
      rw [hcall]
      exact
        { state := .inl rfl
          frames := by simp [RequestPosition.frames]
          early := fun hearly => by cases hearly
          late := fun hin => by cases hin
          overlay := fun _ => hoverlay
          status := by simp [RequestPosition.status]
          queues := by
            refine .inl ?_
            show r.priorQueues ≤ (s.session.queues ++ [_]).length
            rw [List.length_append]
            exact (hplaced.queues.resolve_right (by simp [hended])).trans (Nat.le_add_right _ _)
          kept := fun hbegan _ => by
            -- a request that did not begin leaves the session in `RunningRoot`
            rw [RequestPosition.expected, hbegan] at hstate
            rcases hstate with hstate | hstate
            · rw [hstopping] at hstate
              cases hstate
            · rw [hended] at hstate
              cases hstate
          fresh := fun _ _ k hk => by
            obtain rfl := Option.some.inj hk
            exact hplaced.queues.resolve_right (by simp [hended]) }
  · refine hosted_request h hr rfl rfl rfl hgated (.refl _) ?_
    have hlate : r.began = true → s.session.ended = true := by
      intro hbegan
      rw [RequestPosition.expected, if_pos hbegan] at hstate
      exact hstate.resolve_left hstopping
    exact
      { state := by
          show s.session.InState .runningRoot
          cases hbegan : r.began with
          | true => exact .inr (hlate hbegan)
          | false =>
            rw [RequestPosition.expected, hbegan] at hstate
            exact hstate
        frames := by simp [RequestPosition.frames]
        early := fun hearly => by cases hearly
        late := fun hin => by cases hin
        overlay := fun _ => hoverlay
        status := by simp [RequestPosition.status]
        queues := hplaced.queues
        kept := hplaced.kept
        fresh := fun _ hbegan k hk => by
          have hnone := hgated.queued.outbound_of_ended (hlate hbegan)
          have hk : s.session.outbound = some k := hk
          rw [hnone] at hk
          cases hk }

/-- An operation of the session goes on. -/
theorem hosted_resume {frame : Frame} {answer : Answer} {s' : HostState}
    {position : Next → RequestPosition} (h : Hosted s) (hr : s.request = some r)
    (hframes : r.position.frames = [frame]) (hposition : ∀ next, (position next).frames = next.frames)
    (hresume : s.resume r position frame answer = some s')
    (hplaced : ∀ result, s.session.resume frame answer = some result →
      Carries s.session result.1 ∧
        Placed (s.inSession r position result) { r with position := position result.2 }) :
    Hosted s' := by
  obtain ⟨result, hresult, rfl⟩ := Option.map_eq_some_iff.mp hresume
  obtain ⟨hcarries, hplaced⟩ := hplaced result hresult
  have hgated := h.gated
  rw [hr, Option.elim_some, hframes] at hgated
  refine hosted_request h hr rfl rfl rfl ?_ hcarries hplaced
  show Gated [] result.1 (s.frames ++ (position result.2).frames)
  rw [hposition]
  exact gated_inner hgated hresult

theorem resume_hostLine {session : TerminalSession} {answer : Answer}
    {result : TerminalSession × Next} (h : session.resume .hostLine answer = some result) :
    result.1 = session ∧ result.2.frames = [] := by
  cases answer with
  | returned | threw => obtain rfl := Option.some.inj h; exact ⟨rfl, rfl⟩
  | result kind => cases h

/-- An operation that is awaited while the overlay is stopping. -/
structure Stopping (position : Next → RequestPosition) : Prop where
  expected : ∀ next began, (position next).expected began = .stoppingOverlay
  inTry : ∀ next, (position next).inTry = true
  frames : ∀ next, (position next).frames = next.frames
  status : ∀ next next', (position next).status = (position next').status
  allows : ∀ next next' frame, (position next).allows frame = (position next').allows frame

/-- It goes on. -/
theorem hosted_resumeStopping {frame : Frame} {answer : Answer} {s' : HostState}
    {position : Next → RequestPosition} (h : Hosted s) (hr : s.request = some r)
    (hposition : Stopping position) (hr' : r.position = position (.awaits frame))
    (hkeeps : ∀ result, s.session.resume frame answer = some result →
      (position (.awaits frame)).allows frame = true →
      (∀ frame' ∈ result.2.frames, (position (.awaits frame)).allows frame' = true) ∧
        result.1.InState .stoppingOverlay ∧ Carries s.session result.1)
    (hresume : s.resume r position frame answer = some s') : Hosted s' := by
  have hplaced := h.placed r hr
  have hframes : r.position.frames = [frame] := by
    rw [hr', hposition.frames]
    rfl
  refine hosted_resume h hr hframes hposition.frames hresume fun result hresult => ?_
  have hallowed := hplaced.frames frame (by rw [hframes]; exact List.mem_singleton_self _)
  rw [hr'] at hallowed
  obtain ⟨hnext, hstate, hcarries⟩ := hkeeps result hresult hallowed
  refine ⟨hcarries, hplaced.ofTry (by rw [hr', hposition.inTry]) hcarries (hposition.inTry _) ?_ ?_ ?_⟩
  · rw [hposition.expected]
    exact hstate
  · intro frame' hframe'
    rw [hposition.frames] at hframe'
    rw [hposition.allows _ (.awaits frame)]
    exact hnext frame' hframe'
  · intro status hsome
    refine hplaced.status status ?_
    rw [hr', hposition.status _ result.2]
    exact hsome

/-- A line goes on. -/
theorem keeps_line {frame : Frame} {answer : Answer} (allows : Frame → Bool)
    (hallows : ∀ frame, allows frame = decide (frame = .hostLine))
    (hstate : s.session.InState .stoppingOverlay) :
    ∀ result, s.session.resume frame answer = some result → allows frame = true →
      (∀ frame' ∈ result.2.frames, allows frame' = true) ∧
        result.1.InState .stoppingOverlay ∧ Carries s.session result.1 := by
  intro result hresult hallowed
  rw [hallows] at hallowed
  obtain rfl := of_decide_eq_true hallowed
  obtain ⟨hsame, hnone⟩ := resume_hostLine hresult
  rw [hsame, hnone]
  exact ⟨by simp, hstate, .refl _⟩

/-- The line of a prompt that was cancelled goes on. -/
theorem hosted_resumeCancelled {frame : Frame} {answer : Answer} {s' : HostState} (h : Hosted s)
    (hr : s.request = some r) (hposition : r.position = .cancelledLine (.awaits frame))
    (hresume : s.resume r .cancelledLine frame answer = some s') : Hosted s' := by
  have hplaced := h.placed r hr
  have hframes : r.position.frames = [frame] := by rw [hposition]; rfl
  refine hosted_resume h hr hframes (fun _ => rfl) hresume fun result hresult => ?_
  have hallowed := hplaced.frames frame (by rw [hframes]; exact List.mem_singleton_self _)
  rw [hposition] at hallowed
  obtain rfl := of_decide_eq_true hallowed
  obtain ⟨hsame, hnone⟩ := resume_hostLine hresult
  refine ⟨hsame ▸ .refl _, hplaced.ofEarly (by rw [hposition]; rfl) _ (.cancelledLine _) hsame rfl
    rfl rfl rfl ?_⟩
  simp [RequestPosition.frames, hnone]

/-- `StartOverlayAsync` goes on. -/
theorem hosted_resumeStarting {frame : Frame} {answer : Answer} {s' : HostState} (h : Hosted s)
    (hr : s.request = some r) (hposition : r.position = .starting (.awaits frame))
    (hsettles : ∀ overlay resume, frame = .overlayFailed overlay resume → answer ≠ .threw)
    (hresume : s.resume r .starting frame answer = some s') : Hosted s' := by
  have hplaced := h.placed r hr
  have hstate := hplaced.state
  rw [hposition] at hstate
  have hframes : r.position.frames = [frame] := by rw [hposition]; rfl
  refine hosted_resume h hr hframes (fun _ => rfl) hresume fun result hresult => ?_
  have hallowed := hplaced.frames frame (by rw [hframes]; exact List.mem_singleton_self _)
  rw [hposition] at hallowed
  obtain ⟨hstarted, hcarries⟩ :=
    TerminalSession.resume_starts h.gated.queued h.lasting hstate hallowed hsettles hresult
  refine ⟨hcarries, hplaced.ofTry (by rw [hposition]; rfl) hcarries rfl ?_ ?_
    (by simp [RequestPosition.status])⟩
  · revert hstarted
    show result.1.StartedAs result.2 →
      result.1.InState ((RequestPosition.starting result.2).expected r.began)
    cases result.2 with
    | awaits frame' => exact And.right
    | returned => exact id
    | threw => exact id
  · revert hstarted
    cases hnext : result.2 with
    | awaits frame' =>
      intro hstarted frame'' hmem
      obtain rfl := List.mem_singleton.mp hmem
      exact hstarted.1
    | returned | threw => simp [RequestPosition.frames, Next.frames]

/-- The overlay runs. -/
theorem hosted_running (h : Hosted s) (hr : s.request = some r)
    (hposition : r.position = .starting .returned) : Hosted (s.goTo r .completion) := by
  have hplaced := h.placed r hr
  have hstate := hplaced.state
  have hgated := h.gated
  rw [hposition] at hstate
  rw [hr, Option.elim_some, hposition] at hgated
  have hcarries : Carries s.session (s.goTo r .completion).session := .refl _
  have hplaced' : Placed (s.goTo r .completion) { r with position := .completion } :=
    hplaced.ofTry (by rw [hposition]; rfl) hcarries rfl hstate
      (by simp [RequestPosition.frames]) (by simp [RequestPosition.status])
  exact hosted_request h hr rfl rfl rfl hgated hcarries hplaced'

theorem stopping_stopping (status : ℤ) : Stopping (.stopping status) :=
  ⟨fun _ _ => rfl, fun _ => rfl, fun _ => rfl, fun _ _ => rfl, fun _ _ _ => rfl⟩

theorem stopping_endedLine (status : ℤ) : Stopping (.endedLine status) :=
  ⟨fun _ _ => rfl, fun _ => rfl, fun _ => rfl, fun _ _ => rfl, fun _ _ _ => rfl⟩

theorem stopping_recovering : Stopping .recovering :=
  ⟨fun _ _ => rfl, fun _ => rfl, fun _ => rfl, fun _ _ => rfl, fun _ _ _ => rfl⟩

theorem stopping_failedLine : Stopping .failedLine :=
  ⟨fun _ _ => rfl, fun _ => rfl, fun _ => rfl, fun _ _ => rfl, fun _ _ _ => rfl⟩

end HostState

/-- The overlay's `CloseAsync` does not throw in the handler of `StartOverlayAsync`. -/
def OverlaySettles (s : HostState) (e : HostEvent) : Prop :=
  ∀ r overlay resumeRootOnFailure, s.request = some r →
    r.position = .starting (.awaits (.overlayFailed overlay resumeRootOnFailure)) →
    e ≠ .request (.await .threw)

namespace HostState

variable {s s' : HostState} {r : Request}

/-- **A step of a request.** -/
theorem hosted_requestStep {answer : RequestAnswer} (h : Hosted s) (hr : s.request = some r)
    (hsettles : OverlaySettles s (.request answer))
    (hstep : s.requestStep r answer = some s') : Hosted s' := by
  have hplaced := h.placed r hr
  have hstate := hplaced.state
  unfold requestStep at hstep
  split at hstep
  · next hposition =>
    obtain rfl := Option.some.inj hstep
    exact hosted_goTo h hr (by rw [hposition]; rfl) (by rw [hposition]; rfl) rfl rfl rfl rfl
  · next hposition =>
    obtain rfl := Option.some.inj hstep
    exact hosted_goTo h hr (by rw [hposition]; rfl) (by rw [hposition]; rfl) rfl rfl rfl rfl
  · next hposition =>
    split_ifs at hstep <;> obtain rfl := Option.some.inj hstep
    · exact hosted_goTo h hr (by rw [hposition]; rfl) (by rw [hposition]; rfl) rfl rfl rfl rfl
    · exact hosted_goTo h hr (by rw [hposition]; rfl) (by rw [hposition]; rfl) rfl rfl rfl rfl
  · next hposition =>
    obtain rfl := Option.some.inj hstep
    exact hosted_goTo h hr (by rw [hposition]; rfl) (by rw [hposition]; rfl) rfl rfl rfl rfl
  · next hposition =>
    obtain rfl := Option.some.inj hstep
    exact hosted_cancelled h hr hposition
  · next overlay hposition =>
    obtain rfl := Option.some.inj hstep
    exact hosted_startOverlay h hr hposition overlay
  · next hposition =>
    obtain rfl := Option.some.inj hstep
    exact hosted_goTo h hr (by rw [hposition]; rfl) (by rw [hposition]; rfl) rfl rfl rfl rfl
  · next frame answer hposition =>
    exact hosted_resumeCancelled h hr hposition hstep
  · next hposition =>
    obtain rfl := Option.some.inj hstep
    exact hosted_goTo h hr (by rw [hposition]; rfl) (by rw [hposition]; rfl) rfl rfl rfl rfl
  · next hposition =>
    obtain rfl := Option.some.inj hstep
    exact hosted_goTo h hr (by rw [hposition]; rfl) (by rw [hposition]; rfl) rfl rfl rfl rfl
  · next frame answer hposition =>
    refine hosted_resumeStarting h hr hposition ?_ hstep
    rintro overlay resumeRootOnFailure rfl rfl
    exact hsettles r overlay resumeRootOnFailure hr hposition rfl
  · next hposition =>
    obtain rfl := Option.some.inj hstep
    exact hosted_running h hr hposition
  · next hposition =>
    rw [hposition] at hstate
    obtain rfl := Option.some.inj hstep
    exact hosted_recover h hr (by rw [hposition]; rfl) (by rw [hposition]; rfl) hstate
  · next kind exitCode hposition =>
    obtain rfl := Option.some.inj hstep
    exact hosted_overlayEnded h hr hposition (exitStatus_cases kind exitCode)
  · next status frame answer hposition =>
    rw [hposition] at hstate
    exact hosted_resumeStopping h hr (stopping_stopping status) hposition
      (fun result hresult hallowed =>
        TerminalSession.resume_stops h.gated.queued hstate hallowed hresult) hstep
  · next status hposition =>
    have hstatus := hplaced.status status (by rw [hposition]; rfl)
    rw [hposition] at hstate
    obtain rfl := Option.some.inj hstep
    exact hosted_line h hr (by rw [hposition]; rfl) (by rw [hposition]; rfl) hstate
      (.inr ⟨status, hstatus, rfl⟩)
  · next hposition =>
    rw [hposition] at hstate
    obtain rfl := Option.some.inj hstep
    exact hosted_recover h hr (by rw [hposition]; rfl) (by rw [hposition]; rfl) hstate
  · next status frame answer hposition =>
    rw [hposition] at hstate
    exact hosted_resumeStopping h hr (stopping_endedLine status) hposition
      (keeps_line _ (fun _ => rfl) hstate) hstep
  · next status hposition =>
    have hstatus := hplaced.status status (by rw [hposition]; rfl)
    rw [hposition] at hstate
    obtain rfl := Option.some.inj hstep
    exact hosted_handled h hr (by rw [hposition]; rfl) (by rw [hposition]; rfl) hstate hstatus
  · next hposition =>
    rw [hposition] at hstate
    obtain rfl := Option.some.inj hstep
    exact hosted_recover h hr (by rw [hposition]; rfl) (by rw [hposition]; rfl) hstate
  · next frame answer hposition =>
    rw [hposition] at hstate
    exact hosted_resumeStopping h hr stopping_recovering hposition
      (fun result hresult hallowed =>
        TerminalSession.resume_stops h.gated.queued hstate hallowed hresult) hstep
  · next hposition =>
    rw [hposition] at hstate
    obtain rfl := Option.some.inj hstep
    exact hosted_line h hr (by rw [hposition]; rfl) (by rw [hposition]; rfl) hstate (.inl rfl)
  · next hposition =>
    rw [hposition] at hstate
    obtain rfl := Option.some.inj hstep
    exact hosted_line h hr (by rw [hposition]; rfl) (by rw [hposition]; rfl) hstate (.inl rfl)
  · next frame answer hposition =>
    rw [hposition] at hstate
    exact hosted_resumeStopping h hr stopping_failedLine hposition
      (keeps_line _ (fun _ => rfl) hstate) hstep
  · next hposition =>
    rw [hposition] at hstate
    obtain rfl := Option.some.inj hstep
    exact hosted_handled h hr (by rw [hposition]; rfl) (by rw [hposition]; rfl) hstate (.inr rfl)
  · next hposition =>
    rw [hposition] at hstate
    obtain rfl := Option.some.inj hstep
    exact hosted_handled h hr (by rw [hposition]; rfl) (by rw [hposition]; rfl) hstate (.inr rfl)
  · next hposition =>
    obtain rfl := Option.some.inj hstep
    exact hosted_resumeRootAfterComplete h hr hposition false
  · next hposition =>
    obtain rfl := Option.some.inj hstep
    exact hosted_resumeRootAfterComplete h hr hposition true
  · cases hstep

theorem hosted_start : Hosted start where
  gated := SessionState.gated_start
  lasting h := by cases h
  isOpen h := by cases h
  owner := by simp [start]
  started h := by cases h
  attached h := by cases h
  unattached _ := rfl
  idle _ := ⟨rfl, fun h => by cases h⟩
  placed r hr := by cases hr

/-- A request is accepted. -/
theorem hosted_accept (h : Hosted s) (hattached : s.attached = true)
    (hdone : s.request.all Request.done = true) :
    Hosted
      { s with
        request := some
          { position := .barrier
            priorOutbound := s.session.outbound
            priorQueues := s.session.queues.length
            began := false } } := by
  have hmonitor := h.attached hattached
  -- the session and the coordinator are as the request before has left them
  have hstate : s.session.InState .runningRoot ∧ s.overlay = none := by
    cases hr : s.request with
    | none => exact ⟨(h.idle hr).2 hmonitor, (h.idle hr).1⟩
    | some r =>
      have hplaced := h.placed r hr
      rw [hr, Option.all_some] at hdone
      unfold Request.done at hdone
      split at hdone
      · next hposition =>
        have hstate := hplaced.state
        rw [hposition] at hstate
        exact ⟨hstate, hplaced.overlay (by rw [hposition]; rfl)⟩
      · cases hdone
  have hgated : Gated [] s.session (s.frames ++ []) := by
    cases hr : s.request with
    | none =>
      have := h.gated
      rwa [hr] at this
    | some r =>
      have := h.gated
      rw [hr] at this
      rw [hr, Option.all_some] at hdone
      unfold Request.done at hdone
      split at hdone
      · next hposition =>
        rw [Option.elim_some, hposition] at this
        exact this
      · cases hdone
  exact
    { gated := hgated
      lasting := h.lasting
      isOpen := h.isOpen
      owner := h.owner
      started := h.started
      attached := h.attached
      unattached := fun hnot => by
        have hnot : s.attached = false := hnot
        rw [hattached] at hnot
        cases hnot
      idle := fun hnone => by cases hnone
      placed := fun r hr => by
        obtain rfl := Option.some.inj hr
        exact
          { state := hstate.1
            frames := by simp [RequestPosition.frames]
            early := fun _ => rfl
            late := fun hin => by cases hin
            overlay := fun _ => hstate.2
            status := by simp [RequestPosition.status]
            queues := .inl le_rfl
            kept := fun _ _ => rfl
            fresh := fun hdone => by cases hdone } }

/-- **What a step keeps.** -/
theorem hosted_of_step {e : HostEvent} (hsettles : OverlaySettles s e) (hstep : s.step e = some s')
    (h : Hosted s) : Hosted s' := by
  cases e with
  | session event =>
    simp only [step] at hstep
    split_ifs at hstep with hmay
    obtain ⟨t, ht, rfl⟩ := Option.map_eq_some_iff.mp hstep
    exact hosted_session h hmay ht
  | attach =>
    simp only [step] at hstep
    split_ifs at hstep with hready
    obtain rfl := Option.some.inj hstep
    have hnone := h.unattached hready.1
    exact
      { h with
        attached := fun _ => hready.2.1
        unattached := fun _ => hnone
        placed := fun r hr => by
          have hr : s.request = some r := hr
          rw [hnone] at hr
          cases hr }
  | dispose =>
    obtain rfl := Option.some.inj hstep
    exact { h with placed := fun r hr => { h.placed r hr with } }
  | accept =>
    simp only [step] at hstep
    split_ifs at hstep with hready
    obtain rfl := Option.some.inj hstep
    exact hosted_accept h hready.1 hready.2
  | request answer =>
    simp only [step, Option.bind_eq_some_iff] at hstep
    obtain ⟨r, hr, hstep⟩ := hstep
    exact hosted_requestStep h hr hsettles hstep

/-- **What a run keeps.** -/
theorem hosted_of_run {es : List HostEvent} (halong : Run.Along step OverlaySettles start es)
    (hrun : Run.run step start es = some s) : Hosted s :=
  Run.run_invariant_along (fun _ _ _ => hosted_of_step) halong hrun hosted_start

end HostState

/-- The root takes input again: the queue is a new one when the overlay was taken up, else the one the
session had when the request was accepted. -/
structure RootResumed (s : HostState) (r : Request) : Prop where
  state : s.session.state = .runningRoot
  outbound : ∃ (k : ℕ) (q : SessionQueue), s.session.outbound = some k ∧
    s.session.queues[k]? = some q ∧ q.sink = .root ∧
    (q.accepts = true ∨ q.outbound.worker = .faulted) ∧
    (r.began = true → r.priorQueues ≤ k) ∧ (r.began = false → r.priorOutbound = some k)

/-- **Recovery, in every run in which the overlay's `CloseAsync` does not throw.** -/
theorem overlay_recovery (es : List HostEvent) (s : HostState) (r : Request) (threw : Bool)
    (halong : Run.Along HostState.step OverlaySettles .start es)
    (hrun : Run.run HostState.step .start es = some s) (hrequest : s.request = some r)
    (hfinished : r.position = .finished threw) :
    s.overlay = none ∧ (s.session.ended = true ∨ RootResumed s r) := by
  have h := HostState.hosted_of_run halong hrun
  have hplaced := h.placed r hrequest
  have hattached : s.attached = true := by
    by_contra hnot
    rw [h.unattached (by simpa using hnot)] at hrequest
    cases hrequest
  have hstate := hplaced.state
  rw [hfinished] at hstate
  refine ⟨hplaced.overlay (by rw [hfinished]; rfl), ?_⟩
  rcases hstate with hstate | hended
  · refine .inr ⟨hstate, ?_⟩
    obtain ⟨k, hk⟩ : ∃ k, s.session.outbound = some k := by
      rw [← Option.isSome_iff_exists, h.gated.queued.outbound, hstate]
      rfl
    obtain ⟨q, hq, hserves⟩ := h.gated.queued.current k hk
    have hdone : r.done = true := by
      rw [Request.done, hfinished]
    exact ⟨k, q, hk, hq, hserves.1 hstate, h.isOpen (h.attached hattached) k q hk hq,
      fun hbegan => hplaced.fresh hdone hbegan k hk,
      fun hbegan => (hplaced.kept hbegan hstate).symm.trans hk⟩
  · exact .inl hended

/-- A run without an exception at an await of the request. -/
theorem along_of_quiet {es : List HostEvent}
    (h : Run.checkAlong HostState.step (fun _ e => decide (e ≠ .request (.await .threw)))
      HostState.start es = true) : Run.Along HostState.step OverlaySettles .start es :=
  Run.along_of_check (fun _ _ hcheck _ _ _ _ _ => of_decide_eq_true hcheck) h

/-- A session is started and a request is accepted, up to its prompt. -/
def samplePrompt : List HostEvent :=
  [.session (.call .startAsync), .session (.resume (.startContext 1) .returned),
    .session (.resume (.startRoot 1) .returned), .attach, .accept, .request (.await .returned),
    .request (.await .returned), .request (.await .returned)]

/-- The overlay runs and ends. -/
def sampleOverlayRequest : List HostEvent :=
  samplePrompt ++ [.request (.prompted (some 7)), .request (.await .returned),
    .request (.await .returned), .request (.await .returned), .request .goesOn,
    .request (.completed .cleanEof none), .request (.await .returned), .request (.await .returned),
    .request (.await (.result .cleanEof)), .request .goesOn, .request (.await .returned),
    .request .goesOn, .request (.await .returned)]

theorem overlay_recovery_ended :
    ∃ s r, Run.run HostState.step .start sampleOverlayRequest = some s ∧ s.request = some r ∧
      r.position = .finished false ∧ r.began = true ∧
      s.overlay = none ∧ (s.session.ended = true ∨ RootResumed s r) := by
  have hrun : ((Run.run HostState.step .start sampleOverlayRequest).map fun s =>
      s.request.map fun r => (r.position, r.began)) = some (some (.finished false, true)) := by
    decide
  obtain ⟨s, hs, hrequest⟩ := Option.map_eq_some_iff.mp hrun
  obtain ⟨r, hr, hposition⟩ := Option.map_eq_some_iff.mp hrequest
  obtain ⟨hposition, hbegan⟩ := Prod.mk.inj hposition
  exact ⟨s, r, hs, hr, hposition, hbegan,
    overlay_recovery sampleOverlayRequest s r false (along_of_quiet (by decide)) hs hr
      hposition⟩

/-- The prompt is cancelled. -/
def sampleCancelledRequest : List HostEvent :=
  samplePrompt ++ [.request (.prompted none), .request (.await .returned), .request .goesOn,
    .request (.await .returned)]

/-- The prompt is cancelled, and the root has failed a write before. -/
def sampleFailedRequest : List HostEvent :=
  samplePrompt ++ [.session (.queue 0 (.tryEnqueue 1 { object := 0, kind := .inputBytes })),
    .session (.queue 0 .wait), .session (.queue 0 .take), .session (.queue 0 .write),
    .session (.queue 0 .sinkThrows), .request (.prompted none), .request (.await .returned),
    .request .goesOn, .request (.await .returned)]

/-- A request whose prompt is cancelled leaves the session the queue it had; and a queue in
`RunningRoot` takes no input when the root has failed a write. -/
theorem cancelled_keeps_queue :
    ¬ (∀ es s r threw, Run.Along HostState.step OverlaySettles .start es →
        Run.run HostState.step .start es = some s → s.request = some r →
        r.position = .finished threw → s.session.ended = false →
        ∀ k, s.session.outbound = some k → r.priorQueues ≤ k) ∧
      ¬ (∀ es s r threw, Run.Along HostState.step OverlaySettles .start es →
        Run.run HostState.step .start es = some s → s.request = some r →
        r.position = .finished threw → s.session.ended = false →
        s.session.queues.any SessionQueue.accepts = true) := by
  constructor
  · intro hclaim
    have hrun : ((Run.run HostState.step .start sampleCancelledRequest).map fun s =>
        (s.session.ended, s.session.outbound, s.request.map fun r => (r.position, r.priorQueues))) =
        some (false, some 0, some (.finished false, 1)) := by
      decide
    obtain ⟨s, hs, hstate⟩ := Option.map_eq_some_iff.mp hrun
    simp only [Prod.mk.injEq, Option.map_eq_some_iff] at hstate
    obtain ⟨hended, houtbound, r, hr, hposition, hprior⟩ := hstate
    have := hclaim _ s r false (along_of_quiet (by decide)) hs hr hposition hended 0 houtbound
    omega
  · intro hclaim
    have hrun : ((Run.run HostState.step .start sampleFailedRequest).map fun s =>
        (s.session.ended, s.session.queues.any SessionQueue.accepts,
          s.request.map fun r => r.position)) =
        some (false, false, some (.finished false)) := by
      decide
    obtain ⟨s, hs, hstate⟩ := Option.map_eq_some_iff.mp hrun
    simp only [Prod.mk.injEq, Option.map_eq_some_iff] at hstate
    obtain ⟨hended, haccepts, r, hr, hposition⟩ := hstate
    have := hclaim _ s r false (along_of_quiet (by decide)) hs hr hposition hended
    rw [haccepts] at this
    cases this

end VT7.Session
