import VT7.Session.Coordinator

/-!
# What the owner does to a session

The owner of a session starts it, closes it and disposes it behind the close; beside it there are the
close task, the root monitor and the queues.  Once the root has started they can only end the session
(`Recedes`, `owner_keeps`): a request finds it as it left it, or ended.  Before that they start it
(`owner_starts`).
-/

namespace VT7.Session

open VT7.Lib

/-- The session has the state, unless it has ended. -/
def TerminalSession.InState (s : TerminalSession) (state : TerminalSessionState) : Prop :=
  s.state = state ∨ s.ended = true

/-- The queue of the session takes input, unless its own worker has failed. -/
def TerminalSession.Open (s : TerminalSession) : Prop :=
  ∀ (k : ℕ) q, s.outbound = some k → s.queues[k]? = some q →
    q.accepts = true ∨ q.outbound.worker = .faulted

/-- What others do to a session under a request. -/
def Recedes (s s' : TerminalSession) : Prop :=
  s'.ended = true ∨
    s'.state = s.state ∧ s'.outbound = s.outbound ∧ s'.queues.length = s.queues.length ∧
      s'.cancelled = s.cancelled ∧ (s.Open → s'.Open)

theorem Recedes.refl (s : TerminalSession) : Recedes s s :=
  .inr ⟨rfl, rfl, rfl, rfl, id⟩

section Session

variable {base : List Move} {s : TerminalSession} {frames : List Frame}

theorem Queued.ended_of_closeTask (h : Queued base s) (htask : s.closeTask.isSome = true) :
    s.ended = true := by
  by_contra hended
  rw [TerminalSession.closeTask_none h (by simpa using hended)] at htask
  cases htask

theorem Queued.outbound_of_ended (h : Queued base s) (hended : s.ended = true) :
    s.outbound = none := by
  refine h.outbound_none ?_
  simp only [TerminalSession.ended, Bool.or_eq_true, decide_eq_true_eq] at hended
  rcases hended with (hstate | hstate) | hstate <;> rw [hstate] <;> rfl

theorem Open.of_none (h : s.outbound = none) : s.Open := by
  intro k q hk
  rw [h] at hk
  cases hk

/-! ### The owner -/

theorem SessionQueue.step_open {q q' : SessionQueue} {e : OutboundEvent} (hstep : q.step e = some q')
    (h : q.accepts = true ∨ q.outbound.worker = .faulted) :
    q'.accepts = true ∨ q'.outbound.worker = .faulted := by
  cases e with
  | completeAsync => cases hstep
  | dispose => cases hstep
  | tryEnqueue generation operation =>
    obtain rfl := Option.some.inj hstep
    obtain ⟨_, haccepting, hdisposed⟩ := q.outbound.queue.tryEnqueue_keeps generation operation
    refine h.imp (fun h => ?_) id
    show (!(q.outbound.queue.tryEnqueue generation operation).2.2.disposed &&
      (q.outbound.queue.tryEnqueue generation operation).2.2.accepting) = true
    rw [haccepting, hdisposed]
    exact h
  | take =>
    obtain ⟨outbound, houtbound, rfl⟩ := Option.map_eq_some_iff.mp hstep
    simp only [OutboundState.step, Option.ite_none_right_eq_some, Option.some.injEq] at houtbound
    obtain ⟨hworker, rfl⟩ := houtbound
    have haccepts : q.accepts = true := h.resolve_right (by simp [hworker])
    unfold OutboundState.take
    split
    · dsimp only
      split
      · exact .inr rfl
      · exact .inl haccepts
    · split <;> exact .inl haccepts
  | write =>
    obtain ⟨outbound, houtbound, rfl⟩ := Option.map_eq_some_iff.mp hstep
    simp only [OutboundState.step] at houtbound
    split at houtbound
    · next hworker =>
      obtain rfl := Option.some.inj houtbound
      exact .inl (h.resolve_right (by simp [hworker]))
    · cases houtbound
  | written =>
    simp only [SessionQueue.step] at hstep
    split at hstep
    · obtain ⟨outbound, houtbound, rfl⟩ := Option.map_eq_some_iff.mp hstep
      simp only [OutboundState.step, Option.ite_none_right_eq_some, Option.some.injEq] at houtbound
      obtain ⟨hworker, rfl⟩ := houtbound
      exact .inl (h.resolve_right (by simp [hworker]))
    · cases hstep
  | sinkThrows =>
    obtain ⟨outbound, houtbound, rfl⟩ := Option.map_eq_some_iff.mp hstep
    simp only [OutboundState.step, Option.ite_none_right_eq_some, Option.some.injEq] at houtbound
    obtain ⟨_, rfl⟩ := houtbound
    exact .inr rfl
  | wait | cancel | complete | completed =>
    obtain ⟨outbound, houtbound, rfl⟩ := Option.map_eq_some_iff.mp hstep
    simp only [OutboundState.step, Option.ite_none_right_eq_some, Option.some.injEq] at houtbound
    obtain ⟨hworker, rfl⟩ := houtbound
    exact .inl (h.resolve_right (by simp [hworker]))

theorem SessionQueue.write_open {q q' : SessionQueue} (hstep : q.write = some q')
    (h : q.accepts = true ∨ q.outbound.worker = .faulted) :
    q'.accepts = true ∨ q'.outbound.worker = .faulted := by
  unfold SessionQueue.write at hstep
  split at hstep
  · obtain rfl := Option.some.inj hstep
    exact h
  · cases hstep

theorem recedes_withQueue {t t' : SessionState} {queue : ℕ} {f : SessionQueue → Option SessionQueue}
    (hf : ∀ q q', f q = some q' → q.accepts = true ∨ q.outbound.worker = .faulted →
      q'.accepts = true ∨ q'.outbound.worker = .faulted)
    (hstep : t.withQueue queue f = some t') :
    Recedes t.session t'.session ∧ t'.frames = t.frames ∧
      t'.session.rootMonitor = t.session.rootMonitor := by
  simp only [SessionState.withQueue, Option.bind_eq_bind, Option.bind_eq_some_iff] at hstep
  obtain ⟨q, hq, q', hq', ht'⟩ := hstep
  obtain rfl := Option.some.inj ht'
  refine ⟨.inr ⟨rfl, rfl, List.length_set, rfl, fun hopen k r hk hr => ?_⟩, rfl, rfl⟩
  have hr : (t.session.queues.set queue q')[k]? = some r := hr
  rw [List.getElem?_set] at hr
  split_ifs at hr with hqueue
  · obtain rfl := Option.some.inj hr
    exact hf q _ hq' (hopen k q hk (hqueue ▸ hq))
  · exact hopen k r hk hr

theorem appendHostLineAsync_keeps (s : TerminalSession) :
    Recedes s s.appendHostLineAsync.1 ∧ s.appendHostLineAsync.1.rootMonitor = s.rootMonitor ∧
      ∀ frame ∈ s.appendHostLineAsync.2.frames, frame = .hostLine := by
  unfold TerminalSession.appendHostLineAsync
  dsimp only
  split_ifs
  · exact ⟨.inr ⟨rfl, rfl, rfl, rfl, id⟩, rfl, by simp [Next.frames]⟩
  · exact ⟨.inr ⟨rfl, rfl, rfl, rfl, id⟩, rfl, by simp [Next.frames]⟩

theorem closeQueue_task (s : TerminalSession) (outbound overlay : Option ℕ) :
    (s.closeQueue outbound overlay).closeTask.isSome = true ∧
      (s.closeQueue outbound overlay).rootMonitor = s.rootMonitor := by
  cases outbound <;> exact ⟨rfl, rfl⟩

theorem closeAsync_task (s : TerminalSession) :
    s.closeAsync.closeTask.isSome = true ∧ s.closeAsync.rootMonitor = s.rootMonitor := by
  unfold TerminalSession.closeAsync TerminalSession.closeCoreAsync
  dsimp only
  split_ifs with htask
  · exact ⟨htask, rfl⟩
  · exact ⟨rfl, rfl⟩
  · exact ⟨rfl, rfl⟩
  · exact ⟨rfl, rfl⟩
  · exact closeQueue_task _ _ _

theorem closeStep_task {s' : TerminalSession} {answer : Answer}
    (hstep : s.closeStep answer = some s') :
    s'.closeTask.isSome = true ∧ s'.rootMonitor = s.rootMonitor := by
  unfold TerminalSession.closeStep at hstep
  split at hstep
  · split_ifs at hstep
    · obtain rfl := Option.some.inj hstep
      exact ⟨rfl, rfl⟩
    · obtain rfl := Option.some.inj hstep
      exact closeQueue_task _ _ _
  all_goals first
    | exact Option.some.inj hstep ▸ ⟨rfl, rfl⟩
    | cases hstep

/-- What closes the session ends it. -/
theorem closeAsync_keeps (h : Gated base s frames) :
    Recedes s s.closeAsync ∧ s.closeAsync.rootMonitor = s.rootMonitor := by
  obtain ⟨htask, hmonitor⟩ := closeAsync_task s
  exact ⟨.inl ((TerminalSession.gated_closeAsync h).queued.ended_of_closeTask htask), hmonitor⟩

theorem closeStep_keeps {s' : TerminalSession} {answer : Answer} (h : Gated base s frames)
    (hstep : s.closeStep answer = some s') : Recedes s s' ∧ s'.rootMonitor = s.rootMonitor := by
  obtain ⟨htask, hmonitor⟩ := closeStep_task hstep
  exact ⟨.inl ((TerminalSession.gated_closeStep h hstep).queued.ended_of_closeTask htask), hmonitor⟩

theorem monitorStep_keeps {s' : TerminalSession} {answer : Answer} (h : Gated base s frames)
    (hstep : s.monitorStep answer = some s') :
    Recedes s s' ∧ s'.rootMonitor.isSome = true := by
  unfold TerminalSession.monitorStep at hstep
  split at hstep
  · obtain rfl := Option.some.inj hstep
    exact ⟨(closeAsync_keeps h).1, rfl⟩
  · split_ifs at hstep
    obtain rfl := Option.some.inj hstep
    exact ⟨.inr ⟨rfl, rfl, rfl, rfl, id⟩, rfl⟩
  · split_ifs at hstep
    obtain rfl := Option.some.inj hstep
    exact ⟨.inl rfl, rfl⟩
  · cases hstep

theorem dispose_keeps (h : Gated base s frames) (htask : s.closeTask.isSome = true) :
    Recedes s s.dispose ∧ s.dispose.rootMonitor = s.rootMonitor := by
  unfold TerminalSession.dispose
  split_ifs
  · exact ⟨.refl s, rfl⟩
  · have hended := h.queued.ended_of_closeTask htask
    rw [h.queued.outbound_of_ended hended]
    exact ⟨.inl hended, rfl⟩

end Session

/-- An operation the owner of a session calls. -/
def Frame.ofOwner : Frame → Bool
  | .startContext _ | .startRoot _ | .hostLine => true
  | _ => false

/-- The lifetime of a session is cancelled when it ends. -/
def TerminalSession.Lasting (s : TerminalSession) : Prop :=
  s.cancelled = true → s.ended = true

theorem Recedes.lasting {s s' : TerminalSession} (h : Recedes s s') (hs : s.Lasting) :
    s'.Lasting := by
  intro hcancelled
  rcases h with hended | ⟨hstate, _, _, hsame, _⟩
  · exact hended
  · have hended := hs (hsame ▸ hcancelled)
    simpa only [TerminalSession.ended, hstate] using hended

namespace HostState

variable {base : List Move} {s : HostState} {t : SessionState} {others : List Frame}

/-- **What the owner can do to a session whose root has started.** -/
theorem owner_keeps {e : SessionEvent} (h : Gated base s.session (s.frames ++ others))
    (hmay : s.ownerMay e = true) (hmonitor : s.session.rootMonitor.isSome = true)
    (hframes : ∀ frame ∈ s.frames, frame = .hostLine) (hcreated : s.session.state ≠ .created)
    (hstep : SessionState.step ⟨s.session, s.frames⟩ e = some t) :
    Recedes s.session t.session ∧ t.session.rootMonitor.isSome = true ∧
      ∀ frame ∈ t.frames, frame = .hostLine := by
  cases e with
  | call call =>
    obtain rfl := Option.some.inj hstep
    cases call with
    | startAsync =>
      simp only [TerminalSession.call, TerminalSession.startAsync, if_pos hcreated]
      exact ⟨.refl _, hmonitor, hframes⟩
    | startOverlayAsync | stopOverlayAsync | resumeRootAsync => cases hmay
    | closeAsync =>
      obtain ⟨hrecedes, hkept⟩ := closeAsync_keeps h
      exact ⟨hrecedes, hkept ▸ hmonitor, hframes⟩
    | appendHostLineAsync =>
      obtain ⟨hrecedes, hkept, hline⟩ := appendHostLineAsync_keeps s.session
      refine ⟨hrecedes, hkept ▸ hmonitor, fun frame hframe => ?_⟩
      rcases List.mem_append.mp hframe with hmem | hmem
      · exact hline frame hmem
      · exact hframes frame hmem
    | dispose =>
      obtain ⟨hrecedes, hkept⟩ := dispose_keeps h hmay
      exact ⟨hrecedes, hkept ▸ hmonitor, hframes⟩
  | resume frame answer =>
    simp only [SessionState.step] at hstep
    split_ifs at hstep with hframe
    obtain ⟨result, hresult, rfl⟩ := Option.map_eq_some_iff.mp hstep
    obtain rfl := hframes frame hframe
    have hkept : result.1 = s.session ∧ result.2.frames = [] := by
      cases answer with
      | returned | threw => obtain rfl := Option.some.inj hresult; exact ⟨rfl, rfl⟩
      | result kind => cases hresult
    rw [hkept.1, hkept.2]
    exact ⟨.refl _, hmonitor, fun frame hmem => hframes frame (List.mem_of_mem_erase hmem)⟩
  | close answer =>
    obtain ⟨session, hsession, rfl⟩ := Option.map_eq_some_iff.mp hstep
    obtain ⟨hrecedes, hkept⟩ := closeStep_keeps h hsession
    exact ⟨hrecedes, hkept ▸ hmonitor, hframes⟩
  | monitor answer =>
    obtain ⟨session, hsession, rfl⟩ := Option.map_eq_some_iff.mp hstep
    obtain ⟨hrecedes, hkept⟩ := monitorStep_keeps h hsession
    exact ⟨hrecedes, hkept, hframes⟩
  | queue queue event =>
    obtain ⟨hrecedes, hkept, hmon⟩ :=
      recedes_withQueue (fun _ _ => SessionQueue.step_open) hstep
    exact ⟨hrecedes, hmon ▸ hmonitor, hkept ▸ hframes⟩
  | write queue =>
    obtain ⟨hrecedes, hkept, hmon⟩ :=
      recedes_withQueue (fun _ _ => SessionQueue.write_open) hstep
    exact ⟨hrecedes, hmon ▸ hmonitor, hkept ▸ hframes⟩

/-- A start that fails ends the session. -/
theorem startFailed_ended (s : TerminalSession) :
    s.startFailed.1.ended = true ∧ s.startFailed.1.rootMonitor = s.rootMonitor ∧
      s.startFailed.2.frames = [] := by
  unfold TerminalSession.startFailed
  dsimp only
  split
  · exact ⟨rfl, rfl, rfl⟩
  · next hstate =>
    refine ⟨?_, rfl, rfl⟩
    simp only [ne_eq, not_and_or, not_not] at hstate
    show s.ended = true
    rcases hstate with hstate | hstate <;> simp [TerminalSession.ended, hstate]

/-- What the owner's operations do before the root has started, and when it starts. -/
structure StartKeeps (s : HostState) (t : SessionState) : Prop where
  lasting : t.session.Lasting
  frames : ∀ frame ∈ t.frames, frame.ofOwner = true
  started : t.session.rootMonitor.isSome = true →
    t.session.state = .runningRoot ∧ t.session.Open ∧ ∀ frame ∈ t.frames, frame = .hostLine

theorem startKeeps_of_recedes (hlasting : s.session.Lasting)
    (hframes : ∀ frame ∈ t.frames, frame.ofOwner = true)
    (hmonitor : t.session.rootMonitor.isSome = false) (h : Recedes s.session t.session) :
    StartKeeps s t where
  lasting := h.lasting hlasting
  frames := hframes
  started hstarted := by
    rw [hmonitor] at hstarted
    cases hstarted

theorem startKeeps_of_failed (hmonitor : s.session.rootMonitor.isSome = false)
    (hframes : ∀ frame ∈ s.frames, frame.ofOwner = true) {frame : Frame} :
    StartKeeps s ⟨s.session.startFailed.1, s.session.startFailed.2.frames ++ s.frames.erase frame⟩ := by
  obtain ⟨hended, hkept, hnone⟩ := startFailed_ended s.session
  refine ⟨fun _ => hended, ?_, fun hstarted => ?_⟩
  · intro frame hframe
    rw [hnone] at hframe
    exact hframes frame (List.mem_of_mem_erase hframe)
  · rw [hkept, hmonitor] at hstarted
    cases hstarted

theorem startKeeps_of_rootStarted (h : Gated base s.session (s.frames ++ others))
    (hmonitor : s.session.rootMonitor.isSome = false)
    (hframes : ∀ frame ∈ s.frames, frame.ofOwner = true) {generation : ℤ}
    (hframe : Frame.startRoot generation ∈ s.frames) :
    StartKeeps s ⟨(s.session.rootStarted generation).1,
      (s.session.rootStarted generation).2.frames ++ s.frames.erase (.startRoot generation)⟩ := by
  unfold TerminalSession.rootStarted
  split_ifs with hstate
  · exact startKeeps_of_failed hmonitor hframes
  simp only [ne_eq, not_or, not_not] at hstate
  have hperm := (List.perm_cons_erase hframe).append_right others
  obtain ⟨_, hidle⟩ := (h.perm hperm).owned.alone rfl (by simp [TerminalSession.ended, hstate.1])
  refine ⟨fun hcancelled => absurd hcancelled hstate.2, ?_, fun _ => ⟨rfl, ?_, ?_⟩⟩
  · intro frame hmem
    exact hframes frame (List.mem_of_mem_erase hmem)
  · intro k q hk hq
    obtain rfl := Option.some.inj hk
    have hq : (s.session.queues ++ [.create generation .root])[s.session.queues.length]? = some q := hq
    rw [List.getElem?_concat_length] at hq
    obtain rfl := Option.some.inj hq
    exact .inl rfl
  · intro frame hmem
    have howner := hframes frame (List.mem_of_mem_erase hmem)
    have hnot := List.countP_eq_zero.mp hidle frame (List.mem_append_left _ hmem)
    cases frame <;> first | rfl | exact absurd rfl hnot | cases howner

/-- **What the owner does before the root has started.** -/
theorem owner_starts {e : SessionEvent} (h : Gated base s.session (s.frames ++ others))
    (hmay : s.ownerMay e = true) (hlasting : s.session.Lasting)
    (hmonitor : s.session.rootMonitor.isSome = false)
    (hframes : ∀ frame ∈ s.frames, frame.ofOwner = true)
    (hstep : SessionState.step ⟨s.session, s.frames⟩ e = some t) : StartKeeps s t := by
  cases e with
  | call call =>
    obtain rfl := Option.some.inj hstep
    cases call with
    | startAsync =>
      simp only [TerminalSession.call, TerminalSession.startAsync]
      split_ifs with hstate
      · exact startKeeps_of_recedes hlasting hframes hmonitor (.refl _)
      simp only [ne_eq, not_not] at hstate
      refine ⟨fun hcancelled => ?_, ?_, fun hstarted => ?_⟩
      · have hended := hlasting hcancelled
        simp [TerminalSession.ended, hstate] at hended
      · intro frame hframe
        rcases List.mem_cons.mp hframe with rfl | hmem
        · rfl
        · exact hframes frame hmem
      · have hstarted : s.session.rootMonitor.isSome = true := hstarted
        rw [hmonitor] at hstarted
        cases hstarted
    | startOverlayAsync | stopOverlayAsync | resumeRootAsync => cases hmay
    | closeAsync =>
      obtain ⟨hrecedes, hkept⟩ := closeAsync_keeps h
      exact startKeeps_of_recedes hlasting hframes (hkept ▸ hmonitor) hrecedes
    | appendHostLineAsync =>
      obtain ⟨hrecedes, hkept, hline⟩ := appendHostLineAsync_keeps s.session
      refine startKeeps_of_recedes hlasting (fun frame hframe => ?_) (hkept ▸ hmonitor) hrecedes
      rcases List.mem_append.mp hframe with hmem | hmem
      · rw [hline frame hmem]
        rfl
      · exact hframes frame hmem
    | dispose =>
      obtain ⟨hrecedes, hkept⟩ := dispose_keeps h hmay
      exact startKeeps_of_recedes hlasting hframes (hkept ▸ hmonitor) hrecedes
  | resume frame answer =>
    simp only [SessionState.step] at hstep
    split_ifs at hstep with hframe
    obtain ⟨result, hresult, rfl⟩ := Option.map_eq_some_iff.mp hstep
    have herased : ∀ frame' ∈ s.frames.erase frame, frame'.ofOwner = true :=
      fun frame' hmem => hframes frame' (List.mem_of_mem_erase hmem)
    have howner := hframes frame hframe
    unfold TerminalSession.resume at hresult
    split at hresult
    · split_ifs at hresult <;> obtain rfl := Option.some.inj hresult
      · exact startKeeps_of_failed hmonitor hframes
      · refine startKeeps_of_recedes hlasting ?_ hmonitor (.refl _)
        intro frame' hframe'
        rcases List.mem_cons.mp hframe' with rfl | hmem
        · rfl
        · exact herased frame' hmem
    · obtain rfl := Option.some.inj hresult
      exact startKeeps_of_failed hmonitor hframes
    · obtain rfl := Option.some.inj hresult
      exact startKeeps_of_failed hmonitor hframes
    · obtain rfl := Option.some.inj hresult
      exact startKeeps_of_rootStarted h hmonitor hframes hframe
    all_goals first
      | cases howner
      | cases hresult
    · obtain rfl := Option.some.inj hresult
      exact startKeeps_of_recedes hlasting herased hmonitor (.refl _)
    · obtain rfl := Option.some.inj hresult
      exact startKeeps_of_recedes hlasting herased hmonitor (.refl _)
  | close answer =>
    obtain ⟨session, hsession, rfl⟩ := Option.map_eq_some_iff.mp hstep
    obtain ⟨hrecedes, hkept⟩ := closeStep_keeps h hsession
    exact startKeeps_of_recedes hlasting hframes (hkept ▸ hmonitor) hrecedes
  | monitor answer =>
    obtain ⟨session, hsession, rfl⟩ := Option.map_eq_some_iff.mp hstep
    have hnone : s.session.rootMonitor = none := by simpa using hmonitor
    simp [TerminalSession.monitorStep, hnone] at hsession
  | queue queue event =>
    obtain ⟨hrecedes, hkept, hmon⟩ :=
      recedes_withQueue (fun _ _ => SessionQueue.step_open) hstep
    exact startKeeps_of_recedes hlasting (hkept ▸ hframes) (hmon ▸ hmonitor) hrecedes
  | write queue =>
    obtain ⟨hrecedes, hkept, hmon⟩ :=
      recedes_withQueue (fun _ _ => SessionQueue.write_open) hstep
    exact startKeeps_of_recedes hlasting (hkept ▸ hframes) (hmon ▸ hmonitor) hrecedes

end HostState

end VT7.Session
