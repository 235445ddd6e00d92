import VT7.KnownHosts.Writer
import VT7.Ssh.Transport

/-!
# A session goes live on a verified key

The invariants of `StartCoreAsync` over whole runs: what the fields say about the last host key of
an attempt, what the check behind `ConnectAsync` has seen, which prompts were shown, and where the
pin for one connection comes from.
-/

namespace VT7.Ssh

open VT7.Dotnet VT7.Lib VT7.KnownHosts

namespace StartPc

variable {P : Platform}

/-- The places at which a host key of the attempt can have been received. -/
def inAttempt : StartPc P → Bool
  | .preparing | .constructing | .identifying | .connecting | .checking _ _ | .recovering _
  | .connected | .opening | .publishing | .running => true
  | _ => false

/-- The places behind the check of the host key. -/
def isVerified : StartPc P → Bool
  | .connected | .opening | .publishing | .running => true
  | _ => false

/-- The places at which a prompt has been shown and the attempt behind it has not begun. -/
def pastPrompt : StartPc P → Bool
  | .prompting _ | .pinning _ | .saving _ | .failed _ => true
  | _ => false

/-- The request that the user sees or has answered. -/
def request : StartPc P → Option (HostTrustPromptRequest P)
  | .prompting request | .pinning request | .saving request => some request
  | _ => none

end StartPc

namespace StartCall

variable {P : Platform} (call : StartCall)

/-! ### Starts that never go live -/

/-- The session never goes live from here. -/
def NeverRuns (s : StartState P) : Prop :=
  ∀ events s', Run.run call.step s events = some s' → s'.transport ≠ .running

/-- The start has failed, waits for the review of a changed key, or has used up a phase. -/
def Doomed (s : StartState P) : Prop :=
  s.transport ≠ .running ∧ ((∃ error, s.pc = .failed error) ∨
    s.pc = .reviewing ∧ s.subscribed = false ∨ s.deadline.expired ≠ none ∧ s.pc ≠ .running)

variable {call}

/-- A place where the code goes on is none of the last ones. -/
theorem not_doomed_of_passed {s : StartState P} {event : StartEvent} (h : Doomed s)
    (hfailed : ∀ error, s.pc ≠ .failed error) (hreviewing : s.pc ≠ .reviewing)
    (hpassed : Passed s.deadline event) : False := by
  obtain ⟨now, -, hinTime⟩ := hpassed
  obtain ⟨-, ⟨error, hpc⟩ | ⟨hpc, -⟩ | ⟨hexpired, -⟩⟩ := h
  · exact hfailed error hpc
  · exact hreviewing hpc
  · exact hinTime (SshStartupDeadline.overdue_of_expired hexpired now)

theorem doomed_step (s : StartState P) (event : StartEvent) (s' : StartState P)
    (hstep : call.step s event = some s') (h : Doomed s) : Doomed s' := by
  have hmoves := moves_of_step hstep
  cases hmoves with
  | hostKeyReceived subscribed decides kept =>
    obtain ⟨htransport, hfailed | ⟨-, hsubscribed⟩ | ⟨hexpired, hpc⟩⟩ := h
    · exact ⟨htransport, .inl hfailed⟩
    · rw [hsubscribed] at subscribed
      cases subscribed
    · exact ⟨htransport, .inr (.inr ⟨kept hexpired, hpc⟩)⟩
  | serverIdentification subscribed =>
    obtain ⟨htransport, hfailed | ⟨-, hsubscribed⟩ | ⟨hexpired, hpc⟩⟩ := h
    · exact ⟨htransport, .inl hfailed⟩
    · rw [hsubscribed] at subscribed
      cases subscribed
    · exact ⟨htransport, .inr (.inr
        ⟨SshStartupDeadline.tryAdvance_expired .identification .keyExchange hexpired _, hpc⟩)⟩
  | watchdog =>
    obtain ⟨htransport, hfailed | hreviewing | ⟨hexpired, hpc⟩⟩ := h
    · exact ⟨htransport, .inl hfailed⟩
    · exact ⟨htransport, .inr (.inl hreviewing)⟩
    · exact ⟨htransport, .inr (.inr ⟨SshStartupDeadline.watch_expired hexpired _, hpc⟩)⟩
  | cancel => exact h
  | close not =>
    refine ⟨?_, h.2⟩
    rcases not with rfl | rfl
    · exact h.1
    · simp
  | dispose => exact h
  | givesUp up here live => exact ⟨up.transport, .inl up.pc⟩
  | attemptFails trying kept =>
    obtain ⟨htransport, ⟨error, hpc⟩ | ⟨hpc, -⟩ | ⟨hexpired, -⟩⟩ := h
    · rw [hpc] at trying
      cases trying
    · rw [hpc] at trying
      cases trying
    · exact ⟨htransport, .inr (.inr ⟨kept.expired hexpired, by simp⟩)⟩
  | connectReturned pc =>
    obtain ⟨htransport, ⟨error, hpc⟩ | ⟨hpc, -⟩ | ⟨hexpired, -⟩⟩ := h
    · rw [pc] at hpc
      cases hpc
    · rw [pc] at hpc
      cases hpc
    · exact ⟨htransport, .inr (.inr ⟨hexpired, by simp⟩)⟩
  | resolve pc created passed | verify pc passed | prompt pc passed | once pc passed | publish pc passed =>
    exact (not_doomed_of_passed h (by simp [pc]) (by simp [pc]) passed).elim
  | resolved pc passed | loop pc passed | load pc passed | prepare pc passed | construct pc passed
  | identify pc passed | review pc passed | save pc passed | pin pc passed | saved pc passed
  | openShell pc passed | opened pc passed =>
    exact (not_doomed_of_passed h (by simp [pc]) (by simp [pc]) passed).elim

theorem neverRuns_of_doomed {s : StartState P} (h : Doomed s) : call.NeverRuns s := by
  intro events s' hrun
  exact (Run.run_invariant doomed_step hrun h).1

/-- **An expired phase.** -/
theorem doomed_of_overdue {s s' : StartState P} {event : StartEvent} {now : ℕ}
    (hstep : call.step s event = some s') (hclock : event.clock = some now)
    (hlive : s.transport ≠ .running) (ho : s.deadline.Overdue now) : Doomed s' := by
  have hlate : ∀ {event}, event.clock = some now → ¬ Passed s.deadline event := by
    rintro event hclock ⟨now', hnow, hinTime⟩
    obtain rfl : now = now' := Option.some.inj (hclock.symm.trans hnow)
    exact hinTime ho
  have hmoves := moves_of_step hstep
  cases hmoves with
  | hostKeyReceived | serverIdentification | watchdog | cancel | close | dispose | connectReturned => cases hclock
  | givesUp up here live => exact ⟨up.transport, .inl up.pc⟩
  | attemptFails trying kept => exact ⟨hlive, .inr (.inr ⟨kept.overdue now hclock ho, by simp⟩)⟩
  | resolve pc created passed | verify pc passed | prompt pc passed | once pc passed | publish pc passed =>
    exact absurd passed (hlate hclock)
  | resolved pc passed | loop pc passed | load pc passed | prepare pc passed | construct pc passed
  | identify pc passed | review pc passed | save pc passed | pin pc passed | saved pc passed
  | openShell pc passed | opened pc passed => exact absurd passed (hlate hclock)

/-! ### The last key of the attempt -/

variable (call)

/-- The fields say what the policy decides for the last key of the attempt. -/
def LastDecided (s : StartState P) : Prop :=
  ∃ token snapshot, createHostToken call.host call.port = .ok token ∧
    s.knownHostToken = some token ∧ s.knownHosts = some snapshot ∧
    match s.received with
    | [] => s.hostKeyTrusted = false ∧ s.trustDecision = none
    | event :: _ => ∃ decision, s.trustDecision = some decision ∧
      match decideHostKey P event token snapshot call.expectedHostKeyFingerprint
        s.oneConnectionPin with
      | .ok decided => s.hostKeyTrusted = decided.canTrust ∧ decision = decided ∧
          s.presentedHostKey = (PresentedHostKey.parse P event.hostKey).toOption
      | .error _ => s.hostKeyTrusted = false ∧
          decision = invalidKeyDecision call.expectedHostKeyFingerprint

/-- What the check behind `ConnectAsync` has seen: the last key of the attempt so far was trusted, by
the policy, for the token of the configured host and on the store loaded in this attempt.  Keys that
came in later are in front of it. -/
def Vouched (s : StartState P) : Prop :=
  ∃ token snapshot event earlier later decision,
    createHostToken call.host call.port = .ok token ∧ s.knownHosts = some snapshot ∧
    s.verified = some ⟨event :: earlier, some snapshot, s.oneConnectionPin⟩ ∧
    s.received = later ++ event :: earlier ∧
    decideHostKey P event token snapshot call.expectedHostKeyFingerprint s.oneConnectionPin =
      .ok decision ∧ decision.canTrust = true

/-- The invariant of the attempts. -/
structure AttemptInv (s : StartState P) : Prop where
  running : s.transport = .running → s.pc = .running
  token : s.pc ≠ .entering → (∀ error, s.pc ≠ .failed error) →
    ∃ token, createHostToken call.host call.port = .ok token ∧ s.knownHostToken = some token
  subscribed : s.subscribed = true → s.pc.inAttempt = true
  decided : s.pc.inAttempt = true → call.LastDecided s
  vouched : s.pc.isVerified = true → call.Vouched s

variable {call}

/-- A trusted key was received in the attempt, and the policy trusts it. -/
theorem LastDecided.trusted {s : StartState P} (h : call.LastDecided s)
    (htrusted : s.hostKeyTrusted = true) : ∃ token snapshot event earlier decision,
      createHostToken call.host call.port = .ok token ∧ s.knownHosts = some snapshot ∧
      s.received = event :: earlier ∧
      decideHostKey P event token snapshot call.expectedHostKeyFingerprint s.oneConnectionPin =
        .ok decision ∧ decision.canTrust = true := by
  obtain ⟨token, snapshot, htoken, -, hsnapshot, hlast⟩ := h
  cases hreceived : s.received with
  | nil =>
    rw [hreceived, htrusted] at hlast
    cases hlast.1
  | cons event earlier =>
    rw [hreceived] at hlast
    obtain ⟨decision, -, hlast⟩ := hlast
    cases hd : decideHostKey P event token snapshot call.expectedHostKeyFingerprint
        s.oneConnectionPin with
    | error message =>
      rw [hd, htrusted] at hlast
      cases hlast.1
    | ok decided =>
      rw [hd, htrusted] at hlast
      exact ⟨token, snapshot, event, earlier, decided, htoken, hsnapshot, rfl, hd, hlast.1.symm⟩

/-- An unknown host was received in the attempt, and the policy says so. -/
theorem LastDecided.unknown {s : StartState P} (h : call.LastDecided s)
    {decision : KnownHostTrustDecision} (hdecision : s.trustDecision = some decision)
    (hstate : decision.result.state = .unknown) : ∃ token snapshot event,
      createHostToken call.host call.port = .ok token ∧ s.knownHostToken = some token ∧
      s.knownHosts = some snapshot ∧
      decideHostKey P event token snapshot call.expectedHostKeyFingerprint s.oneConnectionPin =
        .ok decision ∧
      s.presentedHostKey = (PresentedHostKey.parse P event.hostKey).toOption := by
  obtain ⟨token, snapshot, htoken, hknown, hsnapshot, hlast⟩ := h
  cases hreceived : s.received with
  | nil =>
    rw [hreceived, hdecision] at hlast
    cases hlast.2
  | cons event earlier =>
    rw [hreceived] at hlast
    obtain ⟨decision', hdecision', hlast⟩ := hlast
    obtain rfl : decision = decision' := Option.some.inj (hdecision.symm.trans hdecision')
    cases hd : decideHostKey P event token snapshot call.expectedHostKeyFingerprint
        s.oneConnectionPin with
    | error message =>
      rw [hd] at hlast
      rw [hlast.2] at hstate
      cases hstate
    | ok decided =>
      rw [hd] at hlast
      obtain ⟨-, rfl, hpresented⟩ := hlast
      exact ⟨token, snapshot, event, htoken, hknown, hsnapshot, hd, hpresented⟩

/-- A callback decides for its own key. -/
theorem LastDecided.hostKeyReceived {s : StartState P} (h : call.LastDecided s) {event : HostKeyEvent}
    {trusted : Bool} {decision : KnownHostTrustDecision} {presented : Option (PresentedHostKey P)}
    {d : SshStartupDeadline} (hdecides : Decides call s event trusted decision presented) :
    call.LastDecided { s with
      hostKeySeen := true, received := event :: s.received, presentedHostKey := presented,
      trustDecision := some decision, hostKeyTrusted := trusted, deadline := d } := by
  obtain ⟨token, snapshot, htoken, hknown, hsnapshot, -⟩ := h
  refine ⟨token, snapshot, htoken, hknown, hsnapshot, decision, rfl, ?_⟩
  exact hdecides token snapshot hknown hsnapshot

theorem inAttempt_of_isTrying {pc : StartPc P} (h : StartPc.isTrying pc = true) :
    pc.inAttempt = true := by
  cases pc with
  | preparing | constructing | identifying | connecting | checking => rfl
  | _ => cases h

theorem pastPrompt_of_isTrying {pc : StartPc P} (h : StartPc.isTrying pc = true) :
    pc.pastPrompt = false := by
  cases pc with
  | preparing | constructing | identifying | connecting | checking => rfl
  | _ => cases h

/-- A step of the code that neither begins nor publishes anything. -/
theorem AttemptInv.frame {s t : StartState P} (h : call.AttemptInv s) (hlive : s.pc ≠ .running)
    (hentered : s.pc ≠ .entering) (hfailed : ∀ error, s.pc ≠ .failed error)
    (htransport : t.transport = s.transport) (htoken : t.knownHostToken = s.knownHostToken)
    (hsubscribed : t.subscribed = true → t.pc.inAttempt = true)
    (hdecided : t.pc.inAttempt = true → call.LastDecided t)
    (hvouched : t.pc.isVerified = true → call.Vouched t) : call.AttemptInv t := by
  refine ⟨fun hr => ?_, fun _ _ => ?_, hsubscribed, hdecided, hvouched⟩
  · exact absurd (h.running (htransport ▸ hr)) hlive
  · rw [htoken]
    exact h.token hentered hfailed

/-- **The step lemma for the attempts.** -/
theorem attemptInv_step (s : StartState P) (event : StartEvent) (s' : StartState P)
    (hstep : call.step s event = some s') (h : call.AttemptInv s) : call.AttemptInv s' := by
  have hmoves := moves_of_step hstep
  cases hmoves with
  | hostKeyReceived subscribed decides kept =>
    refine ⟨h.running, h.token, h.subscribed, fun hin => ?_, fun hverified => ?_⟩
    · exact (h.decided hin).hostKeyReceived decides
    · obtain ⟨token, snapshot, event, earlier, later, decision, htoken, hsnapshot, hseen, hreceived,
        hdecision⟩ := h.vouched hverified
      exact ⟨token, snapshot, event, earlier, _ :: later, decision, htoken, hsnapshot, hseen,
        congrArg _ hreceived, hdecision⟩
  | serverIdentification | watchdog | cancel | dispose =>
    exact ⟨h.running, h.token, h.subscribed, h.decided, h.vouched⟩
  | close not =>
    refine ⟨fun hrunning => ?_, h.token, h.subscribed, h.decided, h.vouched⟩
    rcases not with rfl | rfl
    · exact h.running hrunning
    · cases hrunning
  | givesUp up here live =>
    obtain ⟨error, hpc⟩ := up.pc
    refine ⟨fun hr => absurd hr up.transport, fun _ hf => absurd hpc (hf error), fun hs => ?_,
      fun hin => ?_, fun hv => ?_⟩
    · rw [up.subscribed] at hs
      cases hs
    · rw [hpc] at hin
      cases hin
    · rw [hpc] at hv
      cases hv
  | attemptFails trying kept =>
    have hin := inAttempt_of_isTrying trying
    refine h.frame ?_ ?_ ?_ rfl rfl (fun _ => rfl) (fun _ => h.decided hin) fun hv => by cases hv
    · rintro hpc
      rw [hpc] at trying
      cases trying
    · rintro hpc
      rw [hpc] at trying
      cases trying
    · rintro error hpc
      rw [hpc] at trying
      cases trying
  | @resolve event d token pc created passed =>
    refine ⟨fun hr => ?_, fun _ _ => ⟨token, created, rfl⟩, fun hs => ?_, fun hin => ?_, fun hv => ?_⟩
    · have := h.running hr
      rw [pc] at this
      cases this
    · have := h.subscribed hs
      rw [pc] at this
      cases this
    · cases hin
    · cases hv
  | resolved pc | loop pc =>
    refine h.frame (by simp [pc]) (by simp [pc]) (by simp [pc]) rfl rfl (fun hs => ?_)
      (fun hin => by cases hin) fun hv => by cases hv
    have := h.subscribed hs
    rw [pc] at this
    cases this
  | load pc passed =>
    refine h.frame (by simp [pc]) (by simp [pc]) (by simp [pc]) rfl rfl (fun _ => rfl) (fun _ => ?_)
      fun hv => by cases hv
    obtain ⟨token, htoken, hknown⟩ := h.token (by simp [pc]) (by simp [pc])
    exact ⟨token, _, htoken, hknown, rfl, rfl, rfl⟩
  | prepare pc | construct pc | identify pc | connectReturned pc =>
    exact h.frame (by simp [pc]) (by simp [pc]) (by simp [pc]) rfl rfl (fun _ => rfl)
      (fun _ => h.decided (by simp [pc, StartPc.inAttempt])) fun hv => by cases hv
  | verify pc passed seen trusted =>
    have hdecided := h.decided (by simp [pc, StartPc.inAttempt])
    refine h.frame (by simp [pc]) (by simp [pc]) (by simp [pc]) rfl rfl (fun _ => rfl)
      (fun _ => hdecided) fun _ => ?_
    obtain ⟨token, snapshot, event, earlier, decision, htoken, hsnapshot, hreceived, hdecision⟩ :=
      hdecided.trusted trusted
    refine ⟨token, snapshot, event, earlier, [], decision, htoken, hsnapshot, ?_, hreceived, hdecision⟩
    rw [hreceived, hsnapshot]
  | prompt pc | review pc =>
    exact h.frame (by simp [pc]) (by simp [pc]) (by simp [pc]) rfl rfl (fun hs => by cases hs)
      (fun hin => by cases hin) fun hv => by cases hv
  | once pc passed action own =>
    refine h.frame (by simp [pc]) (by simp [pc]) (by simp [pc]) rfl rfl (fun hs => ?_)
      (fun hin => by cases hin) fun hv => by cases hv
    have := h.subscribed hs
    rw [pc] at this
    cases this
  | save pc | pin pc | saved pc =>
    refine h.frame (by simp [pc]) (by simp [pc]) (by simp [pc]) rfl rfl (fun hs => ?_)
      (fun hin => by cases hin) fun hv => by cases hv
    have := h.subscribed hs
    rw [pc] at this
    cases this
  | openShell pc | opened pc =>
    exact h.frame (by simp [pc]) (by simp [pc]) (by simp [pc]) rfl rfl (fun _ => rfl)
      (fun _ => h.decided (by simp [pc, StartPc.inAttempt]))
      fun _ => h.vouched (by simp [pc, StartPc.isVerified])
  | publish pc passed calm live =>
    refine ⟨fun _ => rfl, fun _ _ => h.token (by simp [pc]) (by simp [pc]), fun _ => rfl, fun _ => ?_,
      fun _ => ?_⟩
    · exact h.decided (by simp [pc, StartPc.inAttempt])
    · exact h.vouched (by simp [pc, StartPc.isVerified])

/-! ### Prompts and pins -/

variable (call)

/-- A prompt is for an unknown host: the policy has decided so for the key in the request, and a
fingerprint that was supplied is the key's. -/
def Promptable (request : HostTrustPromptRequest P) (decision : KnownHostTrustDecision) : Prop :=
  decision.result.state = .unknown ∧
    (decision.fingerprintSupplied = true → decision.fingerprintMatched = true) ∧
    createHostToken call.host call.port = .ok request.hostToken ∧ ∃ event snapshot pin,
      decideHostKey P event request.hostToken snapshot call.expectedHostKeyFingerprint pin =
        .ok decision ∧
      PresentedHostKey.parse P event.hostKey = .ok request.presented ∧
      request.storeIdentity = snapshot.identity P

/-- The user has answered a prompt that was shown with `ConnectOnce`. -/
def AnsweredOnce (s : StartState P) (request : HostTrustPromptRequest P) : Prop :=
  (∃ decision, (request, decision) ∈ s.shown) ∧ ∃ response, (request, response) ∈ s.answers ∧
    response.action = .connectOnce ∧ response.requestId = request.requestId

/-- The invariant of prompts and pins. -/
structure PromptInv (s : StartState P) : Prop where
  attempt : call.AttemptInv s
  once : s.shown.length ≤ 1
  first : s.shown ≠ [] → s.prompted = true ∨ s.pc.pastPrompt = true
  promptable : ∀ shown ∈ s.shown, call.Promptable shown.1 shown.2
  request : ∀ request ∈ s.pc.request, ∃ decision, (request, decision) ∈ s.shown
  pinning : ∀ request, s.pc = .pinning request → AnsweredOnce s request
  pin : ∀ pin ∈ s.oneConnectionPin, ∃ request, AnsweredOnce s request ∧ pin = request.pin

variable {call}

theorem AnsweredOnce.mono {s t : StartState P} {request : HostTrustPromptRequest P}
    (h : AnsweredOnce s request) (hshown : s.shown ⊆ t.shown) (hanswers : s.answers ⊆ t.answers) :
    AnsweredOnce t request := by
  obtain ⟨⟨decision, hs⟩, response, ha, haction⟩ := h
  exact ⟨⟨decision, hshown hs⟩, response, hanswers ha, haction⟩

/-- A step that shows nothing, asks nothing and pins nothing. -/
theorem PromptInv.frame {s t : StartState P} (h : call.PromptInv s) (hattempt : call.AttemptInv t)
    (hshown : t.shown = s.shown) (hanswers : s.answers ⊆ t.answers)
    (hpin : ∀ pin ∈ t.oneConnectionPin, pin ∈ s.oneConnectionPin)
    (hfirst : s.prompted = true ∨ s.pc.pastPrompt = true → t.prompted = true ∨ t.pc.pastPrompt = true)
    (hrequest : ∀ request ∈ t.pc.request, request ∈ s.pc.request)
    (hpinning : ∀ request, t.pc = .pinning request → AnsweredOnce t request) : call.PromptInv t := by
  have hsubset : s.shown ⊆ t.shown := by rw [hshown]; exact fun _ h => h
  refine ⟨hattempt, ?_, ?_, ?_, ?_, hpinning, ?_⟩
  · rw [hshown]
    exact h.once
  · rw [hshown]
    exact fun hne => hfirst (h.first hne)
  · rw [hshown]
    exact h.promptable
  · intro request hr
    obtain ⟨decision, hs⟩ := h.request request (hrequest request hr)
    exact ⟨decision, hsubset hs⟩
  · intro pin hp
    obtain ⟨request, ha, heq⟩ := h.pin pin (hpin pin hp)
    exact ⟨request, ha.mono hsubset hanswers, heq⟩

/-- **The prompt** is for the last key of the attempt. -/
theorem promptable_of_create {s : StartState P} (hdecided : call.LastDecided s) {guid : ℕ}
    {request : HostTrustPromptRequest P} {decision : KnownHostTrustDecision}
    (hcan : s.canPromptForUnknownHost call = true)
    (hcreate : s.createTrustPromptRequest call guid = some (request, decision)) :
    call.Promptable request decision := by
  unfold StartState.canPromptForUnknownHost at hcan
  cases hdecision : s.trustDecision with
  | none => simp [hdecision] at hcan
  | some decision' =>
    simp only [hdecision, Bool.and_eq_true, decide_eq_true_eq, Bool.or_eq_true,
      Bool.not_eq_true'] at hcan
    obtain ⟨⟨⟨-, hsome⟩, hstate⟩, hfingerprint⟩ := hcan
    obtain ⟨token, snapshot, event, htoken, hknown, hsnapshot, hd, hpresented⟩ :=
      hdecided.unknown hdecision hstate
    obtain ⟨_, presented, -, hparse, -⟩ := parse_of_decideHostKey hd
    rw [hparse] at hpresented
    simp only [StartState.createTrustPromptRequest, hsnapshot, hknown, hdecision, hpresented,
      Except.toOption] at hcreate
    cases hsources : snapshot.sources with
    | nil => simp [hsources] at hcreate
    | cons first others =>
      simp only [hsources, Option.some.injEq, Prod.mk.injEq] at hcreate
      obtain ⟨rfl, rfl⟩ := hcreate
      refine ⟨hstate, fun hs => ?_, htoken, event, snapshot, s.oneConnectionPin, hd, hparse, rfl⟩
      rcases hfingerprint with hn | hm
      · rw [hs] at hn
        cases hn
      · exact hm

/-- **The step lemma for prompts and pins.** -/
theorem promptInv_step (s : StartState P) (event : StartEvent) (s' : StartState P)
    (hstep : call.step s event = some s') (h : call.PromptInv s) : call.PromptInv s' := by
  have hattempt := attemptInv_step s event s' hstep h.attempt
  have hmoves := moves_of_step hstep
  cases hmoves with
  | hostKeyReceived | serverIdentification | watchdog | cancel | close | dispose =>
    exact h.frame hattempt rfl (fun _ ha => ha) (fun _ hp => hp) id (fun _ hr => hr) h.pinning
  | givesUp up here live =>
    obtain ⟨error, hpc⟩ := up.pc
    refine h.frame hattempt up.shown up.answers ?_ ?_ ?_ ?_
    · rw [up.pin]
      exact fun _ hp => hp
    · exact fun _ => .inr (by simp [hpc, StartPc.pastPrompt])
    · simp [hpc, StartPc.request]
    · simp [hpc]
  | attemptFails trying kept =>
    exact h.frame hattempt rfl (fun _ ha => ha) (fun _ hp => hp)
      (fun hf => .inl (hf.resolve_right (by simp [pastPrompt_of_isTrying trying])))
      (fun _ hr => by cases hr) fun _ hr => by cases hr
  | connectReturned pc | resolve pc | verify pc | publish pc =>
    exact h.frame hattempt rfl (fun _ ha => ha) (fun _ hp => hp)
      (fun hf => .inl (hf.resolve_right (by simp [pc, StartPc.pastPrompt])))
      (fun _ hr => by cases hr) fun _ hr => by cases hr
  | resolved pc | loop pc | load pc | prepare pc | construct pc | identify pc | review pc | openShell pc
  | opened pc =>
    exact h.frame hattempt rfl (fun _ ha => ha) (fun _ hp => hp)
      (fun hf => .inl (hf.resolve_right (by simp [pc, StartPc.pastPrompt])))
      (fun _ hr => by cases hr) fun _ hr => by cases hr
  | @prompt event d attemptError guid request decision pc passed first can created =>
    -- No prompt was shown before: this one is the first.
    have hnone : s.shown = [] := by
      by_contra hne
      rcases h.first hne with hp | hp
      · rw [first] at hp
        cases hp
      · rw [pc] at hp
        cases hp
    have hdecided := h.attempt.decided (by simp [pc, StartPc.inAttempt])
    refine ⟨hattempt, by simp [hnone], fun _ => .inr rfl, ?_, ?_, ?_, ?_⟩
    · simp only [hnone, List.nil_append, List.mem_singleton]
      rintro shown rfl
      exact promptable_of_create hdecided can created
    · intro request' hr
      obtain rfl : request = request' := Option.some.inj hr
      exact ⟨decision, by simp⟩
    · intro request' hr
      cases hr
    · intro pin hp
      obtain ⟨request', ha, heq⟩ := h.pin pin hp
      exact ⟨request', ha.mono (by simp [hnone]) fun _ ha => ha, heq⟩
  | @once event d request response pc passed action own =>
    obtain ⟨decision, hs⟩ := h.request request (by rw [pc]; rfl)
    refine h.frame hattempt rfl (List.subset_append_left _ _) (fun _ hp => hp) (fun _ => .inr rfl)
      (fun _ hr => ?_) fun request' hr => ?_
    · rw [pc]
      exact hr
    · cases hr
      exact ⟨⟨decision, hs⟩, response, by simp, action, own⟩
  | save pc passed =>
    refine h.frame hattempt rfl (List.subset_append_left _ _) (fun _ hp => hp) (fun _ => .inr rfl)
      (fun _ hr => ?_) fun request' hr => by cases hr
    rw [pc]
    exact hr
  | @pin event d request pc passed =>
    have hanswered := h.pinning request pc
    refine ⟨hattempt, h.once, fun _ => .inl rfl, h.promptable, ?_, ?_, ?_⟩
    · intro request' hr
      cases hr
    · intro request' hr
      cases hr
    · intro pin hp
      obtain rfl : request.pin = pin := Option.some.inj hp
      exact ⟨request, hanswered, rfl⟩
  | saved pc passed =>
    exact h.frame hattempt rfl (fun _ ha => ha) (fun _ hp => by cases hp) (fun _ => .inl rfl)
      (fun _ hr => by cases hr) fun _ hr => by cases hr

theorem promptInv_start : call.PromptInv (call.start P) := by
  refine ⟨⟨?_, ?_, ?_, ?_, ?_⟩, ?_, ?_, ?_, ?_, ?_, ?_⟩ <;> simp [start, StartPc.inAttempt,
    StartPc.isVerified, StartPc.request]

theorem promptInv_run {events : List StartEvent} {s : StartState P}
    (hrun : Run.run call.step (call.start P) events = some s) : call.PromptInv s :=
  Run.run_invariant promptInv_step hrun promptInv_start

/-- **What a pin authorises**: one host, one key, one state of the store. -/
theorem pin_authorises {event : HostKeyEvent} {token : Text} {snapshot : KnownHostsStoreSnapshot}
    {fingerprint : Text} {pin : KnownHostConnectionPin} {decision : KnownHostTrustDecision}
    (h : decideHostKey P event token snapshot fingerprint (some pin) = .ok decision)
    (htrust : decision.canTrust = true) : decision.result.state = .matching ∨
      decision.result.state = .unknown ∧ token = pin.hostToken ∧ event.hostKey = pin.keyBlob ∧
        snapshot.identity P = pin.storeIdentity := by
  obtain ⟨certificate, presented, -, hparse, hdecide⟩ := parse_of_decideHostKey h
  obtain ⟨-, hdecision⟩ := decide_ok hdecide
  rw [hdecision] at htrust
  obtain ⟨-, hmatching | ⟨hunknown, hpin⟩⟩ := decideResult_canTrust _ _ _ _ _ _ htrust
  · exact .inl hmatching
  · obtain ⟨pin', heq, htoken, hidentity, hblob⟩ := (pinAuthorises_iff _ _ _ _).mp hpin
    obtain rfl : pin = pin' := Option.some.inj heq
    refine .inr ⟨hunknown, htoken.symm, ?_, hidentity.symm⟩
    rw [hblob]
    exact (PresentedHostKey.blob_of_parse hparse).symm

/-! ### Answers that end the start -/

theorem doomed_fail (s : StartState P) (error : StartError) : Doomed (s.fail error) :=
  ⟨(givesUp_fail (s := s) error rfl rfl fun _ h => h).transport, .inl ⟨error, rfl⟩⟩

/-- The response is not for the prompt of this start as it is now. -/
def Stale (s : StartState P) (request : HostTrustPromptRequest P)
    (response : Option HostTrustPromptResponse) : Prop :=
  s.disposed = true ∨ s.transport ≠ .starting ∨
    request.connectionGeneration ≠ s.connectionGeneration ∨
    request.promptGeneration ≠ s.promptGeneration ∨
    ∀ answer ∈ response, answer.requestId ≠ request.requestId

theorem validate_of_stale (call : StartCall) {s : StartState P} {request : HostTrustPromptRequest P}
    {response : Option HostTrustPromptResponse} (h : Stale s request response) :
    ∃ error, s.validateTrustPromptResponse call request response = .error error := by
  unfold StartState.validateTrustPromptResponse
  split_ifs
  · exact ⟨_, rfl⟩
  · cases response with
    | none => exact ⟨_, rfl⟩
    | some answer =>
      simp only
      rw [if_pos]
      · exact ⟨_, rfl⟩
      · rcases h with h | h | h | h | h
        · exact .inl h
        · exact .inr (.inl h)
        · exact .inr (.inr (.inr (.inr (.inr (.inl h)))))
        · exact .inr (.inr (.inr (.inr (.inr (.inr (.inl h))))))
        · exact .inr (.inr (.inr (.inr (.inr (.inr (.inr (h answer rfl)))))))

/-- **A stale answer, or `Cancel`.** -/
theorem doomed_of_answer {s s' : StartState P} {request : HostTrustPromptRequest P}
    {response : Option HostTrustPromptResponse} {now : ℕ} (hpc : s.pc = .prompting request)
    (hstep : call.step s (.answered response now) = some s')
    (h : Stale s request response ∨ ∀ answer ∈ response, answer.action = .cancel) : Doomed s' := by
  simp only [step, hpc, Option.some.injEq] at hstep
  subst hstep
  unfold answer
  rcases h with hstale | hcancel
  · obtain ⟨error, herror⟩ := validate_of_stale call hstale
    rw [herror]
    exact doomed_fail s error
  · cases hvalid : s.validateTrustPromptResponse call request response with
    | error error => exact doomed_fail s error
    | ok answer =>
      have hanswer : response = some answer := by
        unfold StartState.validateTrustPromptResponse at hvalid
        split_ifs at hvalid
        cases response with
        | none => cases hvalid
        | some answer' =>
          simp only at hvalid
          split_ifs at hvalid
          cases hvalid
          rfl
      simp only [hcancel answer hanswer]
      exact doomed_fail _ _

/-- **A store that has changed under a pin.** -/
theorem doomed_of_changedStore {s s' : StartState P} {request : HostTrustPromptRequest P}
    {snapshot : KnownHostsStoreSnapshot} {now : ℕ} (hpc : s.pc = .pinning request)
    (hstep : call.step s (.loaded snapshot now) = some s')
    (h : snapshot.identity P ≠ request.storeIdentity) : Doomed s' := by
  simp only [step, StartState.storeLoaded, hpc, Option.some.injEq] at hstep
  subst hstep
  obtain ⟨error, -, heq⟩ | ⟨-, heq⟩ := behind_cases s (s.deadline.check now) StartState.fail _
  · rw [heq]
    exact doomed_fail _ _
  · rw [heq, if_pos h]
    exact doomed_fail _ _

/-- **A changed key** is never asked about. -/
theorem doomed_of_changedKey {s s' : StartState P} {attemptError : StartError} {now guid : ℕ}
    {decision : KnownHostTrustDecision} (hlive : s.transport ≠ .running)
    (hpc : s.pc = .recovering attemptError) (hdecision : s.trustDecision = some decision)
    (hchanged : decision.result.state = .changed)
    (hstep : call.step s (.proceed now guid) = some s') : Doomed s' := by
  simp only [step, proceed, hpc, Option.some.injEq] at hstep
  subst hstep
  have hcannot : s.canPromptForUnknownHost call = false := by
    simp [StartState.canPromptForUnknownHost, hdecision, hchanged]
  unfold recover
  obtain h | ⟨-, h⟩ := unlessCancelled_cases s StartState.fail _ <;> rw [h]
  · exact doomed_fail _ _
  obtain ⟨error, -, h⟩ | ⟨-, h⟩ := behind_cases s (s.deadline.check now) StartState.fail _ <;> rw [h]
  · exact doomed_fail _ _
  split
  · next hcan =>
    have := hcan.2
    rw [show StartState.canPromptForUnknownHost { s with deadline := (s.deadline.check now).1 } call =
      false from hcannot] at this
    cases this
  · split
    · obtain ⟨error, -, h⟩ | ⟨-, h⟩ := behind_cases { s with deadline := (s.deadline.check now).1 }
        ((s.deadline.check now).1.pause now) StartState.fail
        (fun s => { s with pc := .reviewing, subscribed := false }) <;> rw [h]
      · exact doomed_fail _ _
      · exact ⟨hlive, .inr (.inl ⟨rfl, rfl⟩)⟩
    · exact doomed_fail _ _

/-! ### The whole start -/

/-- **A session goes live only on a verified key.**  In every run of a start:

* when the session is live, the check behind the last `ConnectAsync` has seen a host key of that
  attempt, and the policy trusted the last one it had seen, on the store of that attempt;
* at most one prompt was shown, for an unknown host with the right fingerprint or none;
* a pin comes from an answer `ConnectOnce` to that prompt, and authorises its host and key on the
  store that the prompt was about;
* `Cancel`, a stale answer, a store that changed under the answer, a changed key and an expired phase
  never lead to a live session. -/
theorem running_only_verified (events : List StartEvent) (s : StartState P)
    (hrun : Run.run call.step (call.start P) events = some s) :
    (s.transport = .running → call.Vouched s) ∧
    (s.shown.length ≤ 1 ∧ ∀ shown ∈ s.shown, call.Promptable shown.1 shown.2) ∧
    (∀ pin, s.oneConnectionPin = some pin →
      (∃ request, AnsweredOnce s request ∧ pin = request.pin) ∧
      ∀ event token snapshot decision,
        decideHostKey P event token snapshot call.expectedHostKeyFingerprint (some pin) = .ok decision →
        decision.canTrust = true → decision.result.state = .matching ∨
          decision.result.state = .unknown ∧ token = pin.hostToken ∧ event.hostKey = pin.keyBlob ∧
            snapshot.identity P = pin.storeIdentity) ∧
    (∀ request response now s', s.pc = .prompting request →
      call.step s (.answered response now) = some s' →
      (Stale s request response ∨ ∀ answer ∈ response, answer.action = .cancel) →
      call.NeverRuns s') ∧
    (∀ request snapshot now s', s.pc = .pinning request →
      call.step s (.loaded snapshot now) = some s' → snapshot.identity P ≠ request.storeIdentity →
      call.NeverRuns s') ∧
    (∀ attemptError decision now guid s', s.pc = .recovering attemptError →
      s.trustDecision = some decision → decision.result.state = .changed →
      call.step s (.proceed now guid) = some s' → call.NeverRuns s') ∧
    (s.transport ≠ .running → s.pc ≠ .running → s.deadline.expired ≠ none → call.NeverRuns s) ∧
    ∀ event now s', s.transport ≠ .running → event.clock = some now → s.deadline.Overdue now →
      call.step s event = some s' → call.NeverRuns s' := by
  have hinv : call.PromptInv s := promptInv_run hrun
  refine ⟨fun hr => ?_, ⟨hinv.once, hinv.promptable⟩, fun pin hp => ⟨hinv.pin pin hp, ?_⟩, ?_, ?_, ?_,
    ?_, ?_⟩
  · exact hinv.attempt.vouched (by rw [hinv.attempt.running hr]; rfl)
  · exact fun event token snapshot decision => pin_authorises
  · intro request response now s' hpc hstep h
    exact neverRuns_of_doomed (doomed_of_answer hpc hstep h)
  · intro request snapshot now s' hpc hstep h
    exact neverRuns_of_doomed (doomed_of_changedStore hpc hstep h)
  · intro attemptError decision now guid s' hpc hdecision hchanged hstep
    refine neverRuns_of_doomed (doomed_of_changedKey (fun hr => ?_) hpc hdecision hchanged hstep)
    have := hinv.attempt.running hr
    rw [hpc] at this
    cases this
  · intro htransport hpc hexpired
    exact neverRuns_of_doomed ⟨htransport, .inr (.inr ⟨hexpired, hpc⟩)⟩
  · intro event now s' htransport hclock ho hstep
    exact neverRuns_of_doomed (doomed_of_overdue hstep hclock htransport ho)

end StartCall

section Sample

/-- A key of another type, with its SHA-256 digest. -/
def otherBlob : Bytes := [0, 0, 0, 1, 0x6a]

def otherDigest : Bytes :=
  [235, 188, 175, 181, 105, 159, 17, 175, 190, 249, 159, 106, 21, 17, 107, 250, 76, 47, 67, 98,
    157, 81, 169, 172, 160, 60, 67, 18, 173, 92, 42, 245]

def livePlatform : Platform := .ofDigests ((otherBlob, otherDigest) :: storeDigests) []

/-- A start for the host `a`, with a prompt and a budget of 15 for each phase. -/
def sampleStart : StartCall := ⟨"a".toList, 22, "u".toList, [], true, true, 1, 2, 3, 15⟩

def receives (blob : Bytes) (now : ℕ) : StartEvent := .hostKeyReceived ⟨blob, .ok none, 0⟩ now

/-- An attempt on a store, up to the end of `ConnectAsync`. -/
def attempt (disk : Disk) (connected : Bool) (now : ℕ) : List StartEvent :=
  [.proceed now 0, .loaded (load livePlatform sampleDefinitions disk) now, .proceed now 0,
    .proceed now 0, .proceed now 0, receives sampleBlob now, .connectReturned connected connected]

/-- The host is unknown; the user connects once. -/
def onceRun : List StartEvent :=
  [.proceed 0 0, .proceed 1 0] ++ attempt emptyDisk false 2 ++
    [.proceed 3 0, .proceed 3 9, .answered (some ⟨9, .connectOnce⟩) 100,
      .loaded (load livePlatform sampleDefinitions emptyDisk) 101] ++ attempt emptyDisk true 102 ++
    List.replicate 4 (.proceed 103 0)

/-- The second attempt is live on the key that the user has seen. -/
theorem running_only_verified_once : ∃ s,
    Run.run sampleStart.step (sampleStart.start livePlatform) onceRun = some s ∧
      s.transport = .running ∧ sampleStart.Vouched s ∧ s.shown.length = 1 ∧
      ∀ shown ∈ s.shown, sampleStart.Promptable shown.1 shown.2 := by
  have hrun : (Run.run sampleStart.step (sampleStart.start livePlatform) onceRun).map
      (fun s => (s.transport, s.shown.length)) = some (.running, 1) := by decide +kernel
  obtain ⟨s, hs, hlive⟩ := Option.map_eq_some_iff.mp hrun
  obtain ⟨hrunning, hlength⟩ := Prod.mk.inj hlive
  obtain ⟨hvouched, hshown, -⟩ := StartCall.running_only_verified onceRun s hs
  exact ⟨s, hs, hrunning, hvouched hrunning, hlength, hshown.2⟩

/-- The key is stored; another key comes in while the shell is opened. -/
def rekeyRun : List StartEvent :=
  [.proceed 0 0, .proceed 1 0] ++ attempt fullDisk true 2 ++ [.proceed 3 0, .proceed 3 0] ++
    [receives otherBlob 4] ++ [.proceed 5 0, .proceed 5 0]

/-- The session goes live, although the last key that was received is a changed one. -/
theorem untrusted_rekey_goes_live :
    (Run.run sampleStart.step (sampleStart.start livePlatform) rekeyRun).map (fun s =>
        (s.transport, s.received.head?.map (·.hostKey), s.hostKeyTrusted,
          s.trustDecision.map fun decision => (decision.canTrust, decision.result.state))) =
      some (.running, some otherBlob, false, some (false, .changed)) := by
  decide

end Sample

end VT7.Ssh
