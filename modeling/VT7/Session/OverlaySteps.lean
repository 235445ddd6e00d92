import VT7.Session.Owner

/-!
# What a request does to a session

`StartOverlayAsync` and `StopOverlayAsync` as a request calls them: without resuming the root.  Where a
step leaves the session is one state, unless the session has ended (`resume_starts`, `resume_stops`);
`Carries` is what all of these steps keep.
-/

namespace VT7.Session

open VT7.Lib

/-- `StartOverlayAsync` with `resumeRootOnFailure` false. -/
def Frame.starts : Frame → Bool
  | .overlayPrior _ _ false | .overlayContext _ _ false | .overlayStart _ _ false
  | .overlayFailed _ false => true
  | _ => false

/-- `StopOverlayAsync` with `resumeRoot` false. -/
def Frame.stops : Frame → Bool
  | .stopRetire _ _ false | .stopClose false | .stopCompletion false => true
  | _ => false

/-- What every operation of a request keeps. -/
structure Carries (s s' : TerminalSession) : Prop where
  queues : s.queues.length ≤ s'.queues.length
  lasting : s.Lasting → s'.Lasting
  isOpen : s.Open → s'.Open
  monitor : s'.rootMonitor = s.rootMonitor
  ended : s.ended = true → s'.ended = true

theorem Carries.refl (s : TerminalSession) : Carries s s :=
  ⟨le_rfl, id, id, rfl, id⟩

theorem Carries.trans {s s' s'' : TerminalSession} (h : Carries s s') (h' : Carries s' s'') :
    Carries s s'' :=
  ⟨h.queues.trans h'.queues, h'.lasting ∘ h.lasting, h'.isOpen ∘ h.isOpen,
    h'.monitor.trans h.monitor, h'.ended ∘ h.ended⟩

namespace TerminalSession

variable {base : List Move} {s s' : TerminalSession} {state : TerminalSessionState}

theorem InState.of_state (h : s.InState state) (hstate : s'.state = s.state) : s'.InState state := by
  rcases h with h | h
  · exact .inl (hstate.trans h)
  · exact .inr (by simpa only [ended, hstate] using h)

/-- Fields that a request does not look at. -/
theorem carries_of_fields (hqueues : s'.queues = s.queues) (hcancelled : s'.cancelled = s.cancelled)
    (hstate : s'.state = s.state) (houtbound : s'.outbound = s.outbound)
    (hmonitor : s'.rootMonitor = s.rootMonitor) : Carries s s' where
  queues := by rw [hqueues]
  lasting h hs' := by
    have := h (hcancelled ▸ hs')
    simpa only [ended, hstate] using this
  isOpen h k q hk hq := h k q (houtbound ▸ hk) (hqueues ▸ hq)
  monitor := hmonitor
  ended h := by simpa only [TerminalSession.ended, hstate] using h

theorem carries_disposeQueue (h : s.outbound = none) (queue : Option ℕ) :
    Carries s (s.disposeQueue queue) := by
  cases queue with
  | none => exact .refl s
  | some k => exact ⟨(List.length_modify ..).ge, id, fun _ => Open.of_none h, rfl, id⟩

/-- `State` moves to a state without a queue; the session has not ended before. -/
theorem carries_leave (hended : s.ended = false) (hqueues : s'.queues.length = s.queues.length)
    (hcancelled : s'.cancelled = s.cancelled) (houtbound : s'.outbound = none)
    (hmonitor : s'.rootMonitor = s.rootMonitor) : Carries s s' where
  queues := hqueues.ge
  lasting h hs' := by
    have := h (hcancelled ▸ hs')
    rw [hended] at this
    cases this
  isOpen _ := Open.of_none houtbound
  monitor := hmonitor
  ended h := by
    rw [hended] at h
    cases h

theorem carries_open (hended : s.ended = false) (generation : ℤ) (sink : OutboundSink)
    (state : TerminalSessionState) :
    Carries s ((s.openQueue generation sink).setState state) where
  queues := by
    show s.queues.length ≤ (s.queues ++ [_]).length
    simp
  lasting h hs' := by
    have := h hs'
    rw [hended] at this
    cases this
  isOpen _ k q hk hq := by
    obtain rfl := Option.some.inj hk
    have hq : (s.queues ++ [.create generation sink])[s.queues.length]? = some q := hq
    rw [List.getElem?_concat_length] at hq
    obtain rfl := Option.some.inj hq
    exact .inl rfl
  monitor := rfl
  ended h := by
    rw [hended] at h
    cases h

theorem outbound_of_inState (h : Queued base s) (hstate : s.InState state)
    (hrunning : state.running = false) : s.outbound = none := by
  rcases hstate with hstate | hended
  · exact h.outbound_none (hstate ▸ hrunning)
  · exact h.outbound_of_ended hended

/-- Where a step of `StartOverlayAsync` leaves the session. -/
def StartedAs (s : TerminalSession) : Next → Prop
  | .awaits frame => frame.starts = true ∧ s.InState .startingOverlay
  | .returned => s.InState .runningOverlay
  | .threw => s.InState .stoppingOverlay

theorem priorCompleted_starts (hstate : s.InState .startingOverlay) (overlay : ℕ) :
    (s.priorCompleted overlay false).1.StartedAs (s.priorCompleted overlay false).2 ∧
      Carries s (s.priorCompleted overlay false).1 := by
  unfold priorCompleted
  split_ifs
  · exact ⟨⟨rfl, hstate⟩, .refl s⟩
  · exact ⟨⟨rfl, hstate.of_state rfl⟩, carries_of_fields rfl rfl rfl rfl rfl⟩

theorem overlayStarted_starts (hstate : s.InState .startingOverlay) (generation : ℤ)
    (overlay : ℕ) :
    (s.overlayStarted generation overlay false).1.StartedAs
        (s.overlayStarted generation overlay false).2 ∧
      Carries s (s.overlayStarted generation overlay false).1 := by
  unfold overlayStarted
  split_ifs with hstopped
  · exact ⟨⟨rfl, hstate⟩, .refl s⟩
  simp only [ne_eq, not_or, not_not] at hstopped
  refine ⟨.inl rfl, ?_⟩
  have hfields : Carries s { s with overlay := some overlay, startingOverlay := none } :=
    carries_of_fields rfl rfl rfl rfl rfl
  exact hfields.trans (carries_open (by simp [ended, hstopped.1]) _ _ _)

theorem overlaySettled_stops (h : Queued base s) (hlasting : s.Lasting)
    (hstate : s.InState .startingOverlay) (overlay : ℕ) :
    (s.overlaySettled overlay false).InState .stoppingOverlay ∧
      Carries s (s.overlaySettled overlay false) := by
  have hnone := outbound_of_inState h hstate rfl
  simp only [overlaySettled, Bool.false_eq_true, if_false]
  split_ifs with hstarting
  · exact ⟨.inl rfl, carries_leave (by simp [ended, show s.state = _ from hstarting.2]) rfl rfl hnone rfl⟩
  · refine ⟨.inr ?_, carries_of_fields rfl rfl rfl rfl rfl⟩
    -- the session has ended: it would be `StartingOverlay`, and its lifetime not cancelled
    rcases hstate with hstate | hended
    · rw [not_and_or] at hstarting
      rcases hstarting with hcancelled | hother
      · exact hlasting (by simpa [forgetOverlay] using hcancelled)
      · exact absurd hstate hother
    · exact hended

/-- **`StartOverlayAsync` under a request.**  The overlay's `CloseAsync` does not throw. -/
theorem resume_starts {frame : Frame} {answer : Answer} {result : TerminalSession × Next}
    (h : Queued base s) (hlasting : s.Lasting) (hstate : s.InState .startingOverlay)
    (hframe : frame.starts = true)
    (hsettles : ∀ overlay resume, frame = .overlayFailed overlay resume → answer ≠ .threw)
    (hresume : s.resume frame answer = some result) :
    result.1.StartedAs result.2 ∧ Carries s result.1 := by
  have hnone := outbound_of_inState h hstate rfl
  cases frame with
  | overlayPrior prior overlay resumeRootOnFailure =>
    cases resumeRootOnFailure with
    | true => cases hframe
    | false =>
      have hdisposed := carries_disposeQueue hnone (some prior)
      have hstate' : (s.disposeQueue (some prior)).InState .startingOverlay := hstate.of_state rfl
      cases answer with
      | returned =>
        obtain rfl := Option.some.inj hresume
        obtain ⟨hstarted, hcarries⟩ := priorCompleted_starts hstate' overlay
        exact ⟨hstarted, hdisposed.trans hcarries⟩
      | threw =>
        obtain rfl := Option.some.inj hresume
        exact ⟨⟨rfl, hstate'⟩, hdisposed⟩
      | result kind => cases hresume
  | overlayContext generation overlay resumeRootOnFailure =>
    cases resumeRootOnFailure with
    | true => cases hframe
    | false =>
      cases answer with
      | returned =>
        simp only [resume] at hresume
        split_ifs at hresume <;> obtain rfl := Option.some.inj hresume
        · exact ⟨⟨rfl, hstate⟩, .refl s⟩
        · exact ⟨⟨rfl, hstate⟩, .refl s⟩
      | threw =>
        obtain rfl := Option.some.inj hresume
        exact ⟨⟨rfl, hstate⟩, .refl s⟩
      | result kind => cases hresume
  | overlayStart generation overlay resumeRootOnFailure =>
    cases resumeRootOnFailure with
    | true => cases hframe
    | false =>
      cases answer with
      | returned =>
        obtain rfl := Option.some.inj hresume
        exact overlayStarted_starts hstate generation overlay
      | threw =>
        obtain rfl := Option.some.inj hresume
        exact ⟨⟨rfl, hstate⟩, .refl s⟩
      | result kind => cases hresume
  | overlayFailed overlay resumeRootOnFailure =>
    cases resumeRootOnFailure with
    | true => cases hframe
    | false =>
      cases answer with
      | returned =>
        obtain rfl := Option.some.inj hresume
        exact overlaySettled_stops h hlasting hstate overlay
      | threw => exact absurd rfl (hsettles overlay false rfl)
      | result kind => cases hresume
  | _ => cases hframe

/-- **`StopOverlayAsync` under a request.** -/
theorem resume_stops {frame : Frame} {answer : Answer} {result : TerminalSession × Next}
    (h : Queued base s) (hstate : s.InState .stoppingOverlay) (hframe : frame.stops = true)
    (hresume : s.resume frame answer = some result) :
    (∀ frame' ∈ result.2.frames, frame'.stops = true) ∧ result.1.InState .stoppingOverlay ∧
      Carries s result.1 := by
  have hnone := outbound_of_inState h hstate rfl
  cases frame with
  | stopRetire outbound overlay resumeRoot =>
    cases resumeRoot with
    | true => cases hframe
    | false =>
      have hdisposed := carries_disposeQueue hnone outbound
      have hstate' : (s.disposeQueue outbound).InState .stoppingOverlay :=
        hstate.of_state (by cases outbound <;> rfl)
      have hnext : ∀ frame' ∈ (s.overlayRetired overlay false).frames, frame'.stops = true := by
        unfold overlayRetired
        split_ifs <;> simp [Next.frames, Frame.stops]
      cases answer with
      | returned | threw =>
        obtain rfl := Option.some.inj hresume
        exact ⟨hnext, hstate', hdisposed⟩
      | result kind => cases hresume
  | stopClose resumeRoot =>
    cases resumeRoot with
    | true => cases hframe
    | false =>
      cases answer with
      | returned =>
        obtain rfl := Option.some.inj hresume
        exact ⟨by simp [Next.frames, Frame.stops], hstate, .refl s⟩
      | threw =>
        obtain rfl := Option.some.inj hresume
        exact ⟨by simp [Next.frames], hstate, .refl s⟩
      | result kind => cases hresume
  | stopCompletion resumeRoot =>
    cases resumeRoot with
    | true => cases hframe
    | false =>
      cases answer with
      | result kind =>
        obtain rfl := Option.some.inj hresume
        exact ⟨by simp [Next.frames], hstate.of_state rfl, carries_of_fields rfl rfl rfl rfl rfl⟩
      | returned | threw => cases hresume
  | _ => cases hframe

end TerminalSession

end VT7.Session
