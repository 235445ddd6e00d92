import VT7.Session.SessionQueues

/-!
# The gate on user input

Whatever is called on a session, and however the awaits of its operations end, `State` moves along the
lines of the design, one queue at most takes input, and it is the one the session holds in `RunningRoot`
and `RunningOverlay` (`session_gating`).

The invariant has two parts.  `Queued` is about the session alone.  `Owned` is about the operations
under way: an operation that is starting the root or an overlay owns the state until it commits or its
handler is done, so outside `Closing`, `Closed` and `Failed` there is one of them at most.  That is why
the generation it took before its awaits is still the largest when its queue is created.
-/

namespace VT7.Session

open VT7.Lib

/-- The moves of `State`. -/
def mayMove : TerminalSessionState → TerminalSessionState → Bool
  | .closed, _ => false
  | _, .closing | _, .closed | _, .failed => true
  | .created, .startingRoot | .startingRoot, .runningRoot | .runningRoot, .startingOverlay
  | .startingOverlay, .runningOverlay | .runningOverlay, .stoppingOverlay
  | .stoppingOverlay, .runningRoot | .startingOverlay, .stoppingOverlay => true
  | _, _ => false

/-- An assignment to `State`. -/
abbrev Move := TerminalSessionState × TerminalSessionState

/-- The moves lead from one state to another. -/
def Leads : TerminalSessionState → List Move → TerminalSessionState → Prop
  | first, [], last => first = last
  | first, move :: moves, last => first = move.1 ∧ Leads move.2 moves last

theorem Leads.concat {first last : TerminalSessionState} {moves : List Move}
    (h : Leads first moves last) (state : TerminalSessionState) :
    Leads first (moves ++ [(last, state)]) state := by
  induction moves generalizing first with
  | nil => exact ⟨h, rfl⟩
  | cons move moves ih => exact ⟨h.1, ih h.2⟩

/-- From where the first moves lead, the others go on. -/
theorem Leads.rest {first middle last : TerminalSessionState} {moves moves' : List Move}
    (h : Leads first (moves ++ moves') last) (hmiddle : Leads first moves middle) :
    Leads middle moves' last := by
  induction moves generalizing first with
  | nil =>
    obtain rfl := hmiddle
    exact h
  | cons move moves ih => exact ih h.2 hmiddle.2

/-! ### The invariant -/

/-- The states in which the session holds a queue. -/
def TerminalSessionState.running (state : TerminalSessionState) : Bool :=
  state = .runningRoot || state = .runningOverlay

/-- How many operations may be starting a transport. -/
def TerminalSessionState.starters : TerminalSessionState → ℕ
  | .startingRoot | .startingOverlay => 1
  | _ => 0

/-- The sink a queue has in a state. -/
def TerminalSessionState.Serves (state : TerminalSessionState) (sink : OutboundSink) : Prop :=
  (state = .runningRoot → sink = .root) ∧ (state = .runningOverlay → ∃ object, sink = .overlay object)

/-- The close task in a state. -/
def CloseFits (state : TerminalSessionState) : Option CloseTask → Prop
  | none => state ≠ .closing ∧ state ≠ .closed
  | some .returned => state = .closing ∨ state = .closed ∨ state = .failed
  | some .faulted => state = .closing ∨ state = .failed
  | some _ => state = .closing

/-- The invariant of a session that has made the moves `base` before. -/
structure Queued (base : List Move) (s : TerminalSession) : Prop where
  base : base <+: s.moves
  leads : Leads .created s.moves s.state
  moves : ∀ move ∈ s.moves, mayMove move.1 move.2 = true
  outbound : s.outbound.isSome = s.state.running
  current : ∀ k : ℕ, s.outbound = some k → ∃ q, s.queues[k]? = some q ∧ s.state.Serves q.sink
  accepts : ∀ (k : ℕ) q, s.queues[k]? = some q → q.accepts = true → s.outbound = some k
  generations : (s.queues.map SessionQueue.generation).Pairwise (· < ·)
  issued : ∀ q ∈ s.queues, q.generation ≤ s.activeGeneration
  close : CloseFits s.state s.closeTask
  routed : ∀ q ∈ s.queues, q.Routed

/-- The operation is starting the root or an overlay. -/
def Frame.owns : Frame → Bool
  | .startContext _ | .startRoot _ | .overlayPrior _ _ _ | .overlayContext _ _ _
  | .overlayStart _ _ _ | .overlayFailed _ _ => true
  | _ => false

/-- The generation the operation has taken for its queue. -/
def Frame.generation : Frame → Option ℤ
  | .startContext generation | .startRoot generation | .overlayContext generation _ _
  | .overlayStart generation _ _ => some generation
  | _ => none

theorem Frame.owns_of_generation {frame : Frame} {generation : ℤ}
    (h : frame.generation = some generation) : frame.owns = true := by
  cases frame <;> first | rfl | cases h

structure Owned (s : TerminalSession) (frames : List Frame) : Prop where
  owners : s.ended = false → frames.countP Frame.owns ≤ s.state.starters
  fresh : ∀ frame ∈ frames, ∀ generation, frame.generation = some generation →
    generation ≤ s.activeGeneration ∧ ∀ q ∈ s.queues, q.generation < generation

section Rules

variable {base : List Move} {s s' : TerminalSession} {frames frames' : List Frame}

/-- What a step that creates no queue keeps of the queues. -/
theorem Queued.queues (h : Queued base s) (hqueues : Calms s.queues s'.queues)
    (hactive : s.activeGeneration ≤ s'.activeGeneration) :
    (s'.queues.map SessionQueue.generation).Pairwise (· < ·) ∧
      (∀ q ∈ s'.queues, q.generation ≤ s'.activeGeneration) ∧ ∀ q ∈ s'.queues, q.Routed := by
  refine ⟨hqueues.generations ▸ h.generations, fun q' hq' => ?_, fun q' hq' => ?_⟩
  · obtain ⟨q, hq, hcalmer⟩ := hqueues.mem hq'
    rw [hcalmer.generation]
    exact (h.issued q hq).trans hactive
  · obtain ⟨q, hq, hcalmer⟩ := hqueues.mem hq'
    exact hcalmer.routed (h.routed q hq)

/-- **A step in which `State` stays.** -/
theorem Queued.keep (h : Queued base s) (hstate : s'.state = s.state) (hmoves : s'.moves = s.moves)
    (houtbound : s'.outbound = s.outbound) (hqueues : Calms s.queues s'.queues)
    (hactive : s.activeGeneration ≤ s'.activeGeneration)
    (hclose : CloseFits s.state s'.closeTask) : Queued base s' := by
  obtain ⟨hgenerations, hissued, hrouted⟩ := h.queues hqueues hactive
  refine ⟨by rw [hmoves]; exact h.base, by rw [hmoves, hstate]; exact h.leads,
    by rw [hmoves]; exact h.moves, by rw [houtbound, hstate]; exact h.outbound, ?_, ?_,
    hgenerations, hissued, by rw [hstate]; exact hclose, hrouted⟩
  · intro k hk
    rw [houtbound] at hk
    obtain ⟨q, hq, hserves⟩ := h.current k hk
    have hlt : k < s'.queues.length := by
      rw [hqueues.length]
      exact (List.getElem?_eq_some_iff.mp hq).1
    obtain ⟨r, hr, hcalmer⟩ := hqueues.calmer k _ (List.getElem?_eq_getElem hlt)
    obtain rfl := Option.some.inj (hq.symm.trans hr)
    exact ⟨_, List.getElem?_eq_getElem hlt, by rw [hstate, hcalmer.sink]; exact hserves⟩
  · intro k q' hq' haccepts
    obtain ⟨q, hq, hcalmer⟩ := hqueues.calmer k q' hq'
    rw [houtbound]
    exact h.accepts k q hq (hcalmer.accepts haccepts)

/-- **A step into a state without a queue.** -/
theorem Queued.leave (h : Queued base s) (hmove : mayMove s.state s'.state = true)
    (hmoves : s'.moves = s.moves ++ [(s.state, s'.state)]) (houtbound : s'.outbound = none)
    (hrunning : s'.state.running = false) (hqueues : Calms s.queues s'.queues)
    (hretired : ∀ (k : ℕ) q, s.outbound = some k → s'.queues[k]? = some q → q.accepts = false)
    (hactive : s.activeGeneration ≤ s'.activeGeneration)
    (hclose : CloseFits s'.state s'.closeTask) : Queued base s' := by
  obtain ⟨hgenerations, hissued, hrouted⟩ := h.queues hqueues hactive
  refine ⟨by rw [hmoves]; exact h.base.trans (List.prefix_append _ _),
    by rw [hmoves]; exact h.leads.concat _, ?_, by rw [houtbound, hrunning]; rfl,
    by simp [houtbound], ?_, hgenerations, hissued,
    hclose, hrouted⟩
  · intro move hmem
    rw [hmoves, List.mem_append, List.mem_singleton] at hmem
    rcases hmem with hmem | rfl
    · exact h.moves move hmem
    · exact hmove
  · intro k q' hq' haccepts
    obtain ⟨q, hq, hcalmer⟩ := hqueues.calmer k q' hq'
    have hcurrent := h.accepts k q hq (hcalmer.accepts haccepts)
    rw [hretired k q' hcurrent hq'] at haccepts
    cases haccepts

theorem Queued.outbound_none (h : Queued base s) (hstate : s.state.running = false) :
    s.outbound = none := by
  rw [← Option.not_isSome_iff_eq_none, h.outbound, hstate]
  exact Bool.false_ne_true

/-- A step into a state without a queue, from another one. -/
theorem Queued.pass (h : Queued base s) (hstate : s.state.running = false)
    (hmove : mayMove s.state s'.state = true)
    (hmoves : s'.moves = s.moves ++ [(s.state, s'.state)]) (houtbound : s'.outbound = s.outbound)
    (hrunning : s'.state.running = false) (hqueues : s'.queues = s.queues)
    (hactive : s.activeGeneration ≤ s'.activeGeneration)
    (hclose : CloseFits s'.state s'.closeTask) : Queued base s' := by
  have hnone : s.outbound = none := h.outbound_none hstate
  refine h.leave hmove hmoves (houtbound.trans hnone) hrunning (hqueues ▸ .refl _) ?_ hactive hclose
  simp [hnone]

/-- **A queue is created.** -/
theorem Queued.enter (h : Queued base s) {state : TerminalSessionState} {sink : OutboundSink}
    {generation : ℤ} (hstate : s.state.running = false) (hmove : mayMove s.state state = true)
    (hrunning : state.running = true) (hserves : state.Serves sink)
    (hnew : ∀ q ∈ s.queues, q.generation < generation) (hissued : generation ≤ s.activeGeneration)
    (hclose : CloseFits state s.closeTask) :
    Queued base ((s.openQueue generation sink).setState state) where
  base := h.base.trans (List.prefix_append _ _)
  leads := h.leads.concat _
  moves := by
    intro move hmem
    rcases List.mem_append.mp hmem with hmem | hmem
    · exact h.moves move hmem
    · obtain rfl := List.mem_singleton.mp hmem
      exact hmove
  outbound := hrunning.symm
  current := by
    intro k hk
    obtain rfl := Option.some.inj hk
    exact ⟨.create generation sink, List.getElem?_concat_length, hserves⟩
  accepts := by
    intro k q hq haccepts
    have hq : (s.queues ++ [.create generation sink])[k]? = some q := hq
    rw [List.getElem?_append] at hq
    split_ifs at hq with hlt
    · have hout := h.outbound
      rw [h.accepts k q hq haccepts, hstate] at hout
      cases hout
    · have hk : k - s.queues.length = 0 := by
        by_contra hne
        obtain ⟨j, hj⟩ := Nat.exists_eq_succ_of_ne_zero hne
        simp [hj] at hq
      have hk : k = s.queues.length := by omega
      exact hk ▸ rfl
  generations := by
    show ((s.queues ++ [SessionQueue.create generation sink]).map _).Pairwise _
    rw [List.map_append, List.pairwise_append]
    refine ⟨h.generations, List.pairwise_singleton _ _, ?_⟩
    intro a ha b hb
    obtain ⟨q, hq, rfl⟩ := List.mem_map.mp ha
    obtain rfl := List.mem_singleton.mp hb
    exact hnew q hq
  issued := by
    intro q hq
    rcases List.mem_append.mp hq with hq | hq
    · exact h.issued q hq
    · obtain rfl := List.mem_singleton.mp hq
      exact hissued
  close := hclose
  routed := by
    intro q hq
    rcases List.mem_append.mp hq with hq | hq
    · exact h.routed q hq
    · obtain rfl := List.mem_singleton.mp hq
      exact ⟨rfl, fun hne => absurd rfl hne⟩

/-- The operations under way behind a step that creates no queue.  A generation that an operation has
was taken before, or in this step. -/
theorem Owned.keep (h : Owned s frames) (hs : Queued base s) (hqueues : Calms s.queues s'.queues)
    (hactive : s.activeGeneration ≤ s'.activeGeneration)
    (howners : s'.ended = false → frames'.countP Frame.owns ≤ s'.state.starters)
    (hfrom : ∀ frame ∈ frames', ∀ generation, frame.generation = some generation →
      (∃ before ∈ frames, before.generation = some generation) ∨
        s.activeGeneration < generation ∧ generation ≤ s'.activeGeneration) : Owned s' frames' where
  owners := howners
  fresh := by
    intro frame hframe generation hgeneration
    rcases hfrom frame hframe generation hgeneration with ⟨before, hbefore, heq⟩ | ⟨hlt, hle⟩
    · obtain ⟨hle, hnew⟩ := h.fresh before hbefore generation heq
      refine ⟨hle.trans hactive, fun q' hq' => ?_⟩
      obtain ⟨q, hq, hcalmer⟩ := hqueues.mem hq'
      rw [hcalmer.generation]
      exact hnew q hq
    · refine ⟨hle, fun q' hq' => ?_⟩
      obtain ⟨q, hq, hcalmer⟩ := hqueues.mem hq'
      rw [hcalmer.generation]
      exact (hs.issued q hq).trans_lt hlt

/-- No operation is starting a transport. -/
theorem Owned.idle (h : frames.countP Frame.owns = 0) : Owned s frames where
  owners _ := by omega
  fresh := by
    intro frame hframe generation hgeneration
    have := List.countP_eq_zero.mp h frame hframe
    exact absurd (Frame.owns_of_generation hgeneration) this

/-- While an operation that starts a transport is under way, it is the only one. -/
theorem Owned.alone {frame : Frame} (h : Owned s (frame :: frames)) (howns : frame.owns = true)
    (hended : s.ended = false) : s.state.starters = 1 ∧ frames.countP Frame.owns = 0 := by
  have howners := h.owners hended
  rw [List.countP_cons_of_pos howns] at howners
  have hle : s.state.starters ≤ 1 := by
    cases s.state <;> simp [TerminalSessionState.starters]
  omega

end Rules

/-- **The invariant of a session and its operations.** -/
structure Gated (base : List Move) (s : TerminalSession) (frames : List Frame) : Prop where
  queued : Queued base s
  owned : Owned s frames

namespace Gated

variable {base : List Move} {s s' : TerminalSession} {frames frames' rest : List Frame} {frame : Frame}

/-- A step in which `State` stays and no operation begins. -/
theorem keep (h : Gated base s frames) (hstate : s'.state = s.state) (hmoves : s'.moves = s.moves)
    (houtbound : s'.outbound = s.outbound) (hqueues : Calms s.queues s'.queues)
    (hactive : s.activeGeneration ≤ s'.activeGeneration)
    (hclose : CloseFits s.state s'.closeTask)
    (howners : frames'.countP Frame.owns ≤ frames.countP Frame.owns)
    (hfrom : ∀ frame ∈ frames', ∀ generation, frame.generation = some generation →
      (∃ before ∈ frames, before.generation = some generation) ∨
        s.activeGeneration < generation ∧ generation ≤ s'.activeGeneration) : Gated base s' frames' where
  queued := h.queued.keep hstate hmoves houtbound hqueues hactive hclose
  owned := by
    refine h.owned.keep h.queued hqueues hactive (fun hended => ?_) hfrom
    rw [hstate]
    have hended : s.ended = false := by
      simpa only [TerminalSession.ended, hstate] using hended
    exact howners.trans (h.owned.owners hended)

/-- A step that changes the queues, or fields the invariant does not read. -/
theorem quiet (h : Gated base s frames) (hstate : s'.state = s.state) (hmoves : s'.moves = s.moves)
    (houtbound : s'.outbound = s.outbound) (hqueues : Calms s.queues s'.queues)
    (hactive : s.activeGeneration ≤ s'.activeGeneration)
    (hclose : s'.closeTask = s.closeTask) : Gated base s' frames :=
  h.keep hstate hmoves houtbound hqueues hactive (hclose ▸ h.queued.close) le_rfl
    fun frame hframe _ hgeneration => .inl ⟨frame, hframe, hgeneration⟩

theorem perm (h : Gated base s frames) (hperm : frames.Perm frames') : Gated base s frames' :=
  h.keep rfl rfl rfl (.refl _) le_rfl h.queued.close (hperm.countP_eq _).ge
    fun frame hframe _ hgeneration => .inl ⟨frame, hperm.mem_iff.mpr hframe, hgeneration⟩

/-- An operation is done. -/
theorem done (h : Gated base s (frame :: rest)) : Gated base s rest :=
  h.keep rfl rfl rfl (.refl _) le_rfl h.queued.close (List.sublist_cons_self frame rest).countP_le
    fun before hbefore _ hgeneration => .inl ⟨before, List.mem_cons_of_mem _ hbefore, hgeneration⟩

/-- An operation goes on to its next await. -/
theorem goOn (h : Gated base s (frame :: rest)) (frame' : Frame)
    (howns : frame'.owns = true → frame.owns = true)
    (hgeneration : ∀ generation, frame'.generation = some generation →
      frame.generation = some generation) : Gated base s (frame' :: rest) := by
  refine h.keep rfl rfl rfl (.refl _) le_rfl h.queued.close ?_ ?_
  · by_cases howns' : frame'.owns = true
    · rw [List.countP_cons_of_pos howns', List.countP_cons_of_pos (howns howns')]
    · rw [List.countP_cons_of_neg howns']
      exact (List.sublist_cons_self frame rest).countP_le
  · intro before hbefore generation heq
    rcases List.mem_cons.mp hbefore with rfl | hmem
    · exact .inl ⟨frame, List.mem_cons_self, hgeneration generation heq⟩
    · exact .inl ⟨before, List.mem_cons_of_mem _ hmem, heq⟩

/-- A start goes on to its handler. -/
theorem fails (h : Gated base s (frame :: rest)) (howns : frame.owns = true) (overlay : ℕ)
    (resumeRootOnFailure : Bool) : Gated base s (.overlayFailed overlay resumeRootOnFailure :: rest) :=
  h.goOn _ (fun _ => howns) fun _ hgeneration => by cases hgeneration

end Gated

/-! ### The operations keep the invariant -/

namespace TerminalSession

variable {base : List Move} {s : TerminalSession} {frames rest : List Frame}

section Queues

variable (s) (queue : Option ℕ)

@[simp] theorem completeQueue_state : (s.completeQueue queue).state = s.state := by
  cases queue <;> rfl

@[simp] theorem completeQueue_moves : (s.completeQueue queue).moves = s.moves := by
  cases queue <;> rfl

@[simp] theorem completeQueue_outbound : (s.completeQueue queue).outbound = s.outbound := by
  cases queue <;> rfl

@[simp] theorem completeQueue_closeTask : (s.completeQueue queue).closeTask = s.closeTask := by
  cases queue <;> rfl

@[simp] theorem completeQueue_activeGeneration :
    (s.completeQueue queue).activeGeneration = s.activeGeneration := by
  cases queue <;> rfl

theorem calms_completeQueue : Calms s.queues (s.completeQueue queue).queues := by
  cases queue with
  | none => exact .refl _
  | some k => exact .modify SessionQueue.calmer_completeAsync k

/-- The queue is closed. -/
theorem completeQueue_accepts (k : ℕ) (q : SessionQueue) (h : queue = some k)
    (hq : (s.completeQueue queue).queues[k]? = some q) : q.accepts = false := by
  subst h
  simp only [completeQueue, List.getElem?_modify_eq] at hq
  obtain ⟨q, _, rfl⟩ := Option.map_eq_some_iff.mp hq
  exact q.completeAsync_accepts

theorem gated_disposeQueue (h : Gated base s frames) : Gated base (s.disposeQueue queue) frames := by
  cases queue with
  | none => exact h
  | some k => exact h.quiet rfl rfl rfl (.modify SessionQueue.calmer_dispose k) le_rfl rfl

end Queues

theorem closeTask_none (h : Queued base s) (hended : s.ended = false) : s.closeTask = none := by
  have hclose := h.close
  simp only [ended, Bool.or_eq_false_iff, decide_eq_false_iff_not] at hended
  obtain ⟨⟨hclosing, hclosed⟩, hfailed⟩ := hended
  cases htask : s.closeTask with
  | none => rfl
  | some task =>
    rw [htask] at hclose
    cases task <;> simp_all [CloseFits]

/-- The session has no queue, and no operation is starting a transport: a queue may be created. -/
theorem gated_open (h : Gated base s frames) {state : TerminalSessionState} {sink : OutboundSink}
    {generation : ℤ} (hidle : frames.countP Frame.owns = 0) (hended : s.ended = false)
    (hstate : s.state.running = false) (hmove : mayMove s.state state = true)
    (hrunning : state.running = true) (hserves : state.Serves sink)
    (hnew : ∀ q ∈ s.queues, q.generation < generation) (hissued : generation ≤ s.activeGeneration) :
    Gated base ((s.openQueue generation sink).setState state) frames where
  queued := by
    refine h.queued.enter hstate hmove hrunning hserves hnew hissued ?_
    rw [closeTask_none h.queued hended]
    cases state <;> simp [TerminalSessionState.running, CloseFits] at hrunning ⊢
  owned := .idle hidle

/-- The handler of a start that fails. -/
theorem gated_startFailed {frame : Frame} (h : Gated base s (frame :: rest)) (howns : frame.owns = true) :
    Gated base s.startFailed.1 rest := by
  have hrest : Gated base s rest := h.done
  unfold startFailed
  dsimp only
  split
  · next hstate =>
    -- the state is `StartingRoot`, or `Failed` already
    have hrunning : s.state.running = false := by
      by_cases hended : s.ended = true
      · simp_all [ended, TerminalSessionState.running]
      · obtain ⟨hstarters, _⟩ := h.owned.alone howns (by simpa using hended)
        revert hstarters
        cases s.state <;> simp [TerminalSessionState.starters, TerminalSessionState.running]
    have hmove : mayMove s.state .failed = true := by
      revert hstate
      cases s.state <;> simp [mayMove]
    have hclose : CloseFits .failed s.closeTask := by
      have := h.queued.close
      revert this
      cases s.closeTask with
      | none => simp [CloseFits]
      | some task => cases task <;> simp_all [CloseFits]
    refine ⟨hrest.queued.pass hrunning hmove rfl rfl rfl rfl le_rfl hclose,
      hrest.owned.keep hrest.queued (.refl _) le_rfl (fun hended => ?_) ?_⟩
    · cases hended
    · exact fun frame hframe _ hgeneration => .inl ⟨frame, hframe, hgeneration⟩
  · exact hrest.quiet rfl rfl rfl (.refl _) le_rfl rfl

theorem gated_startAsync (h : Gated base s frames) :
    Gated base s.startAsync.1 (s.startAsync.2.frames ++ frames) := by
  unfold startAsync
  split_ifs with hstate
  · exact h
  simp only [ne_eq, not_not] at hstate
  have hended : s.ended = false := by simp [ended, hstate]
  have hidle : frames.countP Frame.owns = 0 := by
    have := h.owned.owners hended
    simpa [hstate, TerminalSessionState.starters] using this
  have htask := closeTask_none h.queued hended
  refine ⟨h.queued.pass (by rw [hstate]; rfl) (by rw [hstate]; rfl) rfl rfl rfl rfl ?_ ?_,
    h.owned.keep h.queued (.refl _) ?_ (fun _ => ?_) ?_⟩
  · show s.activeGeneration ≤ s.activeGeneration + 1
    omega
  · show CloseFits .startingRoot s.closeTask
    simp [htask, CloseFits]
  · show s.activeGeneration ≤ s.activeGeneration + 1
    omega
  · show (_ :: frames).countP Frame.owns ≤ 1
    rw [List.countP_cons_of_pos rfl, hidle]
  · intro frame hframe generation hgeneration
    rcases List.mem_append.mp hframe with hmem | hmem
    · obtain rfl := List.mem_singleton.mp hmem
      obtain rfl := Option.some.inj hgeneration
      refine .inr ⟨?_, le_rfl⟩
      show s.activeGeneration < s.activeGeneration + 1
      omega
    · exact .inl ⟨frame, hmem, hgeneration⟩

theorem gated_rootStarted {generation : ℤ} (h : Gated base s (.startRoot generation :: rest)) :
    Gated base (s.rootStarted generation).1 ((s.rootStarted generation).2.frames ++ rest) := by
  unfold rootStarted
  split_ifs with hstate
  · exact gated_startFailed h rfl
  simp only [ne_eq, not_or, not_not] at hstate
  have hended : s.ended = false := by simp [ended, hstate.1]
  obtain ⟨_, hidle⟩ := h.owned.alone rfl hended
  obtain ⟨hissued, hnew⟩ := h.owned.fresh _ List.mem_cons_self generation rfl
  have hrest : Gated base s rest := h.done
  have hopen : Gated base ((s.openQueue generation .root).setState .runningRoot) rest :=
    gated_open hrest hidle hended (by rw [hstate.1]; rfl) (by rw [hstate.1]; rfl) rfl
      ⟨fun _ => rfl, fun h => by cases h⟩ hnew hissued
  exact hopen.quiet rfl rfl rfl (.refl _) le_rfl rfl

theorem gated_nextGeneration (h : Gated base s frames) : Gated base s.nextGeneration frames := by
  refine h.quiet rfl rfl rfl (.refl _) ?_ rfl
  show s.activeGeneration ≤ s.activeGeneration + 1
  omega

theorem gated_resumeRoot (h : Gated base s frames) : Gated base s.resumeRoot frames := by
  unfold resumeRoot
  split_ifs with hstate
  · exact h
  simp only [ne_eq, not_or, not_not] at hstate
  have hended : s.ended = false := by simp [ended, hstate.1]
  have hidle : frames.countP Frame.owns = 0 := by
    have := h.owned.owners hended
    simpa [hstate.1, TerminalSessionState.starters] using this
  refine gated_open (gated_nextGeneration h) hidle hended (by rw [nextGeneration, hstate.1]; rfl)
    (by rw [nextGeneration, hstate.1]; rfl) rfl ⟨fun _ => rfl, fun h => by cases h⟩ ?_ le_rfl
  intro q hq
  have := h.queued.issued q hq
  show q.generation < s.activeGeneration + 1
  omega

/-- The queue is taken away from the session and closed. -/
theorem queued_retire (h : Queued base s) {state : TerminalSessionState} (task : Option CloseTask)
    (hmove : mayMove s.state state = true) (hrunning : state.running = false)
    (hclose : CloseFits state task) :
    Queued base { ({ s.setState state with outbound := none } : TerminalSession).completeQueue s.outbound with
      closeTask := task } := by
  refine h.leave ?_ ?_ ?_ ?_ (calms_completeQueue { s.setState state with outbound := none } _) ?_ ?_ ?_
  · simpa [setState] using hmove
  · simp [setState]
  · simp
  · simpa [setState] using hrunning
  · intro k q hk hq
    exact completeQueue_accepts _ _ k q hk hq
  · simp [setState]
  · simpa [setState] using hclose

theorem gated_startOverlayAsync (h : Gated base s frames) (overlay : ℕ) (resumeRootOnFailure : Bool) :
    Gated base (s.startOverlayAsync overlay resumeRootOnFailure).1
      ((s.startOverlayAsync overlay resumeRootOnFailure).2.frames ++ frames) := by
  unfold startOverlayAsync
  split_ifs with hstate
  · exact h
  simp only [ne_eq, not_not] at hstate
  have hended : s.ended = false := by simp [ended, hstate]
  have hidle : frames.countP Frame.owns = 0 := by
    have := h.owned.owners hended
    simpa [hstate, TerminalSessionState.starters] using this
  have hclose : CloseFits .startingOverlay s.closeTask := by
    simp [closeTask_none h.queued hended, CloseFits]
  have hretired := queued_retire h.queued _ (by rw [hstate]; rfl) rfl hclose
  obtain ⟨prior, hprior⟩ : ∃ prior, s.outbound = some prior := by
    rw [← Option.isSome_iff_exists, h.queued.outbound, hstate]
    rfl
  rw [hprior] at hretired ⊢
  refine ⟨hretired.keep rfl rfl rfl (.refl _) le_rfl hretired.close,
    h.owned.keep h.queued (.modify SessionQueue.calmer_completeAsync prior) le_rfl (fun _ => ?_) ?_⟩
  · show (_ :: frames).countP Frame.owns ≤ 1
    rw [List.countP_cons_of_pos rfl, hidle]
  · intro frame hframe generation hgeneration
    rcases List.mem_append.mp hframe with hmem | hmem
    · obtain rfl := List.mem_singleton.mp hmem
      cases hgeneration
    · exact .inl ⟨frame, hmem, hgeneration⟩

theorem gated_priorCompleted {frame : Frame} (h : Gated base s (frame :: rest))
    (howns : frame.owns = true) (overlay : ℕ) (resumeRootOnFailure : Bool) :
    Gated base (s.priorCompleted overlay resumeRootOnFailure).1
      ((s.priorCompleted overlay resumeRootOnFailure).2.frames ++ rest) := by
  unfold priorCompleted
  split_ifs
  · exact h.fails howns overlay resumeRootOnFailure
  refine h.keep rfl rfl rfl (.refl _) ?_ h.queued.close ?_ ?_
  · show s.activeGeneration ≤ s.activeGeneration + 1
    omega
  · show (_ :: rest).countP Frame.owns ≤ _
    rw [List.countP_cons_of_pos howns, List.countP_cons_of_pos rfl]
  · intro frame' hframe' generation hgeneration
    rcases List.mem_append.mp hframe' with hmem | hmem
    · obtain rfl := List.mem_singleton.mp hmem
      obtain rfl := Option.some.inj hgeneration
      refine .inr ⟨?_, le_rfl⟩
      show s.activeGeneration < s.activeGeneration + 1
      omega
    · exact .inl ⟨frame', List.mem_cons_of_mem _ hmem, hgeneration⟩

theorem gated_overlayStarted {generation : ℤ} {overlay : ℕ} {resumeRootOnFailure : Bool}
    (h : Gated base s (.overlayStart generation overlay resumeRootOnFailure :: rest)) :
    Gated base (s.overlayStarted generation overlay resumeRootOnFailure).1
      ((s.overlayStarted generation overlay resumeRootOnFailure).2.frames ++ rest) := by
  unfold overlayStarted
  split_ifs with hstate
  · exact h.fails rfl overlay resumeRootOnFailure
  simp only [ne_eq, not_or, not_not] at hstate
  have hended : s.ended = false := by simp [ended, hstate.1]
  obtain ⟨_, hidle⟩ := h.owned.alone rfl hended
  obtain ⟨hissued, hnew⟩ := h.owned.fresh _ List.mem_cons_self generation rfl
  have hrest : Gated base s rest := h.done
  have hset : Gated base { s with overlay := some overlay, startingOverlay := none } rest :=
    hrest.quiet rfl rfl rfl (.refl _) le_rfl rfl
  exact gated_open hset hidle hended (by rw [hstate.1]; rfl) (by rw [hstate.1]; rfl) rfl
    ⟨fun h => by (cases h), fun _ => ⟨overlay, rfl⟩⟩ hnew hissued

/-- `StartingOverlay` is left: its operation is done. -/
theorem gated_stopStarting {frame : Frame} (h : Gated base s (frame :: rest)) (howns : frame.owns = true)
    (hstate : s.state = .startingOverlay) : Gated base (s.setState .stoppingOverlay) rest := by
  have hended : s.ended = false := by simp [ended, hstate]
  obtain ⟨_, hidle⟩ := h.owned.alone howns hended
  refine ⟨h.queued.pass (by rw [hstate]; rfl) (by rw [hstate]; rfl) rfl rfl rfl rfl le_rfl ?_,
    .idle hidle⟩
  show CloseFits .stoppingOverlay s.closeTask
  simp [closeTask_none h.queued hended, CloseFits]

theorem gated_overlaySettled {overlay : ℕ} {resumeRootOnFailure : Bool}
    (h : Gated base s (.overlayFailed overlay resumeRootOnFailure :: rest)) :
    Gated base (s.overlaySettled overlay resumeRootOnFailure) rest := by
  have hforgot : Gated base (s.forgetOverlay overlay) (.overlayFailed overlay resumeRootOnFailure :: rest) :=
    h.quiet rfl rfl rfl (.refl _) le_rfl rfl
  unfold overlaySettled
  dsimp only
  split_ifs with hstate hresume
  · exact gated_resumeRoot (gated_stopStarting hforgot rfl hstate.2)
  · exact gated_stopStarting hforgot rfl hstate.2
  · exact hforgot.done

theorem gated_stopOverlayAsync (h : Gated base s frames) (resumeRoot : Bool) :
    Gated base (s.stopOverlayAsync resumeRoot).1
      ((s.stopOverlayAsync resumeRoot).2.frames ++ frames) := by
  unfold stopOverlayAsync
  split_ifs with hstate
  · exact h
  simp only [ne_eq, not_not] at hstate
  have hended : s.ended = false := by simp [ended, hstate]
  have hidle : frames.countP Frame.owns = 0 := by
    have := h.owned.owners hended
    simpa [hstate, TerminalSessionState.starters] using this
  have hclose : CloseFits .stoppingOverlay s.closeTask := by
    simp [closeTask_none h.queued hended, CloseFits]
  have hretired := queued_retire h.queued _ (by rw [hstate]; rfl) rfl hclose
  refine ⟨hretired.keep rfl rfl rfl (.refl _) le_rfl ?_, .idle ?_⟩
  · simpa [setState] using hretired.close
  · show (_ :: frames).countP Frame.owns = 0
    rwa [List.countP_cons_of_neg (by simp [Frame.owns])]

theorem gated_overlayRetired {frame : Frame} (h : Gated base s (frame :: rest))
    (outbound overlay : Option ℕ) (resumeRoot : Bool) :
    Gated base (s.disposeQueue outbound) ((s.overlayRetired overlay resumeRoot).frames ++ rest) := by
  have hdisposed := gated_disposeQueue s outbound h
  unfold overlayRetired
  split_ifs
  · exact hdisposed.done
  · exact hdisposed.goOn (.stopClose resumeRoot) (fun h => by cases h)
      fun _ hgeneration => by cases hgeneration

theorem gated_overlayStopped (h : Gated base s frames) (resumeRoot : Bool) :
    Gated base (s.overlayStopped resumeRoot) frames := by
  have hset : Gated base { s with overlay := none } frames := h.quiet rfl rfl rfl (.refl _) le_rfl rfl
  unfold overlayStopped
  dsimp only
  split_ifs
  · exact gated_resumeRoot hset
  · exact hset

theorem gated_dispose (h : Gated base s frames) : Gated base s.dispose frames := by
  unfold dispose
  split_ifs
  · exact h
  · exact (gated_disposeQueue s s.outbound h).quiet rfl rfl rfl (.refl _) le_rfl rfl

theorem gated_appendHostLineAsync (h : Gated base s frames) :
    Gated base s.appendHostLineAsync.1 (s.appendHostLineAsync.2.frames ++ frames) := by
  have hnext := gated_nextGeneration h
  unfold appendHostLineAsync
  dsimp only
  split_ifs
  · exact hnext
  · refine hnext.keep rfl rfl rfl (.refl _) le_rfl hnext.queued.close ?_ ?_
    · exact (List.countP_cons_of_neg (by simp [Frame.owns])).le
    · intro frame hframe generation hgeneration
      rcases List.mem_append.mp hframe with hmem | hmem
      · obtain rfl := List.mem_singleton.mp hmem
        cases hgeneration
      · exact .inl ⟨frame, hmem, hgeneration⟩

/-! #### The close task -/

/-- The close task goes on while the session is `Closing`. -/
theorem gated_closing (h : Gated base s frames) (hstate : s.state = .closing) {task : CloseTask}
    (htask : task.pending = true ∨ task = .faulted) :
    Gated base { s with closeTask := some task } frames := by
  refine h.keep rfl rfl rfl (.refl _) le_rfl ?_ le_rfl
    fun frame hframe _ hgeneration => .inl ⟨frame, hframe, hgeneration⟩
  rw [hstate]
  cases task <;> simp_all [CloseFits, CloseTask.pending]

theorem closeTransports_pending (overlay : Option ℕ) : (closeTransports overlay).pending = true := by
  unfold closeTransports
  split_ifs <;> rfl

theorem state_of_pending (h : Queued base s) {task : CloseTask} (htask : s.closeTask = some task)
    (hpending : task.pending = true) : s.state = .closing := by
  have hclose := h.close
  rw [htask] at hclose
  cases task <;> first | exact hclose | cases hpending

/-- What is starting is cut off by a state that is an end. -/
theorem owned_of_ended {s' : TerminalSession} (h : Gated base s frames) (hended : s'.ended = true)
    (hqueues : Calms s.queues s'.queues) (hactive : s'.activeGeneration = s.activeGeneration) :
    Owned s' frames := by
  refine h.owned.keep h.queued hqueues hactive.ge (fun hnot => ?_)
    fun frame hframe _ hgeneration => .inl ⟨frame, hframe, hgeneration⟩
  rw [hended] at hnot
  cases hnot

theorem mayMove_closing {state : TerminalSessionState} (h : state ≠ .closed) :
    mayMove state .closing = true := by
  cases state <;> first | rfl | exact absurd rfl h

theorem gated_closeQueue (h : Gated base s frames) (hstate : s.state = .closing)
    (outbound overlay : Option ℕ) : Gated base (s.closeQueue outbound overlay) frames := by
  unfold closeQueue
  split
  · next k =>
    have hcompleted : Gated base (s.completeQueue (some k)) frames :=
      h.quiet rfl rfl rfl (calms_completeQueue s _) le_rfl rfl
    exact gated_closing hcompleted hstate (.inl rfl)
  · exact gated_closing h hstate (.inl (closeTransports_pending overlay))

theorem gated_closeCoreAsync (h : Gated base s frames) (htask : s.closeTask = none) :
    Gated base s.closeCoreAsync frames := by
  unfold closeCoreAsync
  dsimp only
  have hopen := h.queued.close
  rw [htask] at hopen
  split_ifs with hclosed hcreated hstarting
  · exact absurd hclosed hopen.2
  · refine ⟨h.queued.pass (by rw [hcreated]; rfl) (by rw [hcreated]; rfl) rfl rfl rfl rfl le_rfl ?_,
      owned_of_ended h rfl (.refl _) rfl⟩
    exact .inr (.inl rfl)
  · have hrunning : s.state.running = false := by
      rcases hstarting with hstate | hstate <;> rw [hstate] <;> rfl
    have hnone : s.outbound = none := h.queued.outbound_none hrunning
    refine ⟨h.queued.leave (mayMove_closing hclosed) rfl rfl rfl (.refl _) (by simp [hnone]) le_rfl rfl,
      owned_of_ended h rfl (.refl _) rfl⟩
  · unfold closeQueue
    split
    · next k hk =>
      have hretired := queued_retire h.queued (some (.retire k (s.overlay <|> s.startingOverlay)))
        (mayMove_closing hclosed) rfl rfl
      refine ⟨hretired, owned_of_ended h ?_ (calms_completeQueue { s.setState .closing with outbound := none } _) ?_⟩
      · simp [ended, setState]
      · simp [setState]
    · next hnone =>
      have hfits : CloseFits .closing (some (closeTransports (s.overlay <|> s.startingOverlay))) := by
        unfold closeTransports
        split_ifs <;> rfl
      exact ⟨h.queued.leave (mayMove_closing hclosed) rfl rfl rfl (.refl _) (by simp [hnone]) le_rfl hfits,
        owned_of_ended h rfl (.refl _) rfl⟩

theorem gated_closeAsync (h : Gated base s frames) : Gated base s.closeAsync frames := by
  unfold closeAsync
  split_ifs with htask
  · exact h
  · exact gated_closeCoreAsync h (by simpa using htask)

theorem gated_finishClose (h : Gated base s frames) (hstate : s.state = .closing)
    (result : TerminalTransportResultKind) : Gated base (s.finishClose result) frames := by
  unfold finishClose
  dsimp only
  split_ifs
  · exact ⟨h.queued.pass (by rw [hstate]; rfl) (by rw [hstate]; rfl) rfl rfl rfl rfl le_rfl
      (.inr (.inr rfl)), owned_of_ended h rfl (.refl _) rfl⟩
  · exact ⟨h.queued.pass (by rw [hstate]; rfl) (by rw [hstate]; rfl) rfl rfl rfl rfl le_rfl
      (.inr (.inl rfl)), owned_of_ended h rfl (.refl _) rfl⟩

theorem gated_closeStep {s' : TerminalSession} {answer : Answer} (h : Gated base s frames)
    (hstep : s.closeStep answer = some s') : Gated base s' frames := by
  have hclosing : ∀ task, s.closeTask = some task → task.pending = true → s.state = .closing :=
    fun task htask => state_of_pending h.queued htask
  unfold closeStep at hstep
  split at hstep
  · next htask =>
    have hstate := hclosing _ htask rfl
    split_ifs at hstep
    · obtain rfl := Option.some.inj hstep
      exact gated_closing h hstate (.inr rfl)
    · obtain rfl := Option.some.inj hstep
      have hcancelled : Gated base { s with cancelled := true } frames :=
        h.quiet rfl rfl rfl (.refl _) le_rfl rfl
      exact gated_closeQueue hcancelled hstate _ _
  · next htask =>
    obtain rfl := Option.some.inj hstep
    have hcancelled : Gated base { s with cancelled := true } frames :=
      h.quiet rfl rfl rfl (.refl _) le_rfl rfl
    exact gated_closing hcancelled (hclosing _ htask rfl) (.inr rfl)
  · next outbound overlay htask =>
    obtain rfl := Option.some.inj hstep
    exact gated_closing (gated_disposeQueue s (some outbound) h) (hclosing _ htask rfl)
      (.inl (closeTransports_pending overlay))
  · next outbound overlay htask =>
    obtain rfl := Option.some.inj hstep
    exact gated_closing (gated_disposeQueue s (some outbound) h) (hclosing _ htask rfl)
      (.inl (closeTransports_pending overlay))
  · next htask =>
    obtain rfl := Option.some.inj hstep
    exact gated_closing h (hclosing _ htask rfl) (.inl rfl)
  · next htask =>
    obtain rfl := Option.some.inj hstep
    have hcleared : Gated base { s with overlay := none, startingOverlay := none } frames :=
      h.quiet rfl rfl rfl (.refl _) le_rfl rfl
    exact gated_closing hcleared (hclosing _ htask rfl) (.inl rfl)
  · next htask =>
    obtain rfl := Option.some.inj hstep
    exact gated_closing h (hclosing _ htask rfl) (.inl rfl)
  · next htask =>
    obtain rfl := Option.some.inj hstep
    exact gated_closing h (hclosing _ htask rfl) (.inl rfl)
  · next result htask =>
    obtain rfl := Option.some.inj hstep
    exact gated_finishClose h (hclosing _ htask rfl) result
  · next htask =>
    obtain rfl := Option.some.inj hstep
    exact gated_closing h (hclosing _ htask rfl) (.inr rfl)
  · next htask =>
    obtain rfl := Option.some.inj hstep
    exact gated_closing h (hclosing _ htask rfl) (.inr rfl)
  · next htask =>
    obtain rfl := Option.some.inj hstep
    exact gated_closing h (hclosing _ htask rfl) (.inr rfl)
  · cases hstep

theorem gated_monitorStep {s' : TerminalSession} {answer : Answer} (h : Gated base s frames)
    (hstep : s.monitorStep answer = some s') : Gated base s' frames := by
  unfold monitorStep at hstep
  split at hstep
  · obtain rfl := Option.some.inj hstep
    exact (gated_closeAsync h).quiet rfl rfl rfl (.refl _) le_rfl rfl
  · split_ifs at hstep
    obtain rfl := Option.some.inj hstep
    exact h.quiet rfl rfl rfl (.refl _) le_rfl rfl
  · split_ifs at hstep with hfaulted
    obtain rfl := Option.some.inj hstep
    -- the close task has failed: the session is still `Closing`, or `Failed` already
    have hstate := h.queued.close
    rw [hfaulted] at hstate
    refine ⟨h.queued.pass ?_ ?_ rfl rfl rfl rfl le_rfl ?_, owned_of_ended h rfl (.refl _) rfl⟩
    · rcases hstate with hstate | hstate <;> rw [hstate] <;> rfl
    · rcases hstate with hstate | hstate <;> rw [hstate] <;> rfl
    · show CloseFits .failed s.closeTask
      rw [hfaulted]
      exact .inr rfl
  · cases hstep

/-! #### Calls and awaits -/

/-- **What a call keeps.** -/
theorem gated_call (h : Gated base s frames) (call : SessionCall) :
    Gated base (s.call call).1 ((s.call call).2.frames ++ frames) := by
  cases call with
  | startAsync => exact gated_startAsync h
  | startOverlayAsync overlay resumeRootOnFailure => exact gated_startOverlayAsync h _ _
  | stopOverlayAsync resumeRoot => exact gated_stopOverlayAsync h resumeRoot
  | resumeRootAsync =>
    simp only [TerminalSession.call, resumeRootAsync]
    split_ifs
    · exact h
    · exact gated_resumeRoot h
  | closeAsync => exact gated_closeAsync h
  | appendHostLineAsync => exact gated_appendHostLineAsync h
  | dispose => exact gated_dispose h

/-- **What an operation keeps from one await to the next.** -/
theorem gated_resume {frame : Frame} {answer : Answer} {result : TerminalSession × Next}
    (h : Gated base s (frame :: rest)) (hresume : s.resume frame answer = some result) :
    Gated base result.1 (result.2.frames ++ rest) := by
  unfold resume at hresume
  split at hresume
  -- `StartAsync`
  · split_ifs at hresume <;> obtain rfl := Option.some.inj hresume
    · exact gated_startFailed h rfl
    · exact h.goOn (.startRoot _) (fun _ => rfl) fun _ hgeneration => hgeneration
  · obtain rfl := Option.some.inj hresume
    exact gated_startFailed h rfl
  · obtain rfl := Option.some.inj hresume
    exact gated_startFailed h rfl
  · obtain rfl := Option.some.inj hresume
    exact gated_rootStarted h
  -- `StartOverlayAsync`
  · obtain rfl := Option.some.inj hresume
    exact gated_priorCompleted (gated_disposeQueue s _ h) rfl _ _
  · next prior overlay resumeRootOnFailure =>
    obtain rfl := Option.some.inj hresume
    exact (gated_disposeQueue s (some prior) h).fails rfl overlay resumeRootOnFailure
  · split_ifs at hresume <;> obtain rfl := Option.some.inj hresume
    · exact h.fails rfl _ _
    · exact h.goOn (.overlayStart _ _ _) (fun _ => rfl) fun _ hgeneration => hgeneration
  · obtain rfl := Option.some.inj hresume
    exact h.fails rfl _ _
  · obtain rfl := Option.some.inj hresume
    exact h.fails rfl _ _
  · obtain rfl := Option.some.inj hresume
    exact gated_overlayStarted h
  · obtain rfl := Option.some.inj hresume
    exact gated_overlaySettled h
  · obtain rfl := Option.some.inj hresume
    exact h.done
  -- `StopOverlayAsync`
  · obtain rfl := Option.some.inj hresume
    exact gated_overlayRetired h _ _ _
  · obtain rfl := Option.some.inj hresume
    exact gated_overlayRetired h _ _ _
  · obtain rfl := Option.some.inj hresume
    exact h.goOn (.stopCompletion _) (fun h => by cases h) fun _ hgeneration => by cases hgeneration
  · obtain rfl := Option.some.inj hresume
    exact h.done
  · obtain rfl := Option.some.inj hresume
    exact gated_overlayStopped h.done _
  -- `AppendHostLineAsync`
  · obtain rfl := Option.some.inj hresume
    exact h.done
  · obtain rfl := Option.some.inj hresume
    exact h.done
  · cases hresume

end TerminalSession

/-! ### Runs -/

namespace SessionState

variable {base : List Move} {s s' : SessionState}

theorem gated_start : Gated [] start.session start.frames where
  queued :=
    { base := List.nil_prefix
      leads := rfl
      moves := by simp [start, TerminalSession.create]
      outbound := rfl
      current := by simp [start, TerminalSession.create]
      accepts := by simp [start, TerminalSession.create]
      generations := List.Pairwise.nil
      issued := by simp [start, TerminalSession.create]
      close := by simp [start, TerminalSession.create, CloseFits]
      routed := by simp [start, TerminalSession.create] }
  owned := .idle rfl

theorem gated_withQueue {queue : ℕ} {f : SessionQueue → Option SessionQueue}
    {others : List Frame} (hf : ∀ q q', f q = some q' → Calmer q q')
    (h : Gated base s.session (s.frames ++ others)) (hstep : s.withQueue queue f = some s') :
    Gated base s'.session (s'.frames ++ others) := by
  simp only [withQueue, Option.bind_eq_bind, Option.bind_eq_some_iff] at hstep
  obtain ⟨q, hq, q', hq', hs'⟩ := hstep
  obtain rfl := Option.some.inj hs'
  exact h.quiet rfl rfl rfl (.set hq (hf q q' hq')) le_rfl rfl

/-- What a step keeps, beside operations that take no part in it. -/
theorem gated_of_step {e : SessionEvent} {others : List Frame} (hstep : s.step e = some s')
    (h : Gated base s.session (s.frames ++ others)) :
    Gated base s'.session (s'.frames ++ others) := by
  cases e with
  | call call =>
    obtain rfl := Option.some.inj hstep
    rw [List.append_assoc]
    exact TerminalSession.gated_call h call
  | resume frame answer =>
    simp only [step] at hstep
    split_ifs at hstep with hframe
    obtain ⟨result, hresult, rfl⟩ := Option.map_eq_some_iff.mp hstep
    have hperm := (List.perm_cons_erase hframe).append_right others
    rw [List.append_assoc]
    exact TerminalSession.gated_resume (h.perm hperm) hresult
  | close answer =>
    obtain ⟨session, hsession, rfl⟩ := Option.map_eq_some_iff.mp hstep
    exact TerminalSession.gated_closeStep h hsession
  | monitor answer =>
    obtain ⟨session, hsession, rfl⟩ := Option.map_eq_some_iff.mp hstep
    exact TerminalSession.gated_monitorStep h hsession
  | queue queue event => exact gated_withQueue (fun _ _ => SessionQueue.calmer_of_step) h hstep
  | write queue => exact gated_withQueue (fun _ _ => SessionQueue.calmer_of_write) h hstep

/-- **What a run keeps.** -/
theorem gated_of_run {es : List SessionEvent} (hrun : Run.run step s es = some s')
    (h : Gated base s.session s.frames) : Gated base s'.session s'.frames := by
  refine Run.run_invariant (I := fun s => Gated base s.session s.frames) ?_ hrun h
  intro t e t' hstep ht
  rw [← List.append_nil t.frames] at ht
  rw [← List.append_nil t'.frames]
  exact gated_of_step hstep ht

/-- A session that is `Closed` stays so. -/
theorem closed_of_run {es : List SessionEvent} (h : Gated base s.session s.frames)
    (hclosed : s.session.state = .closed) (hrun : Run.run step s es = some s') :
    s'.session.state = .closed := by
  -- from here on the invariant counts the moves that were made up to now
  have hbase : Gated s.session.moves s.session s.frames :=
    ⟨{ h.queued with base := List.prefix_rfl }, h.owned⟩
  have h' := gated_of_run hrun hbase
  obtain ⟨moves, hmoves⟩ := h'.queued.base
  have hleads := h'.queued.leads
  rw [← hmoves] at hleads
  have hrest := hleads.rest h.queued.leads
  cases moves with
  | nil => exact hrest.symm.trans hclosed
  | cons move moves =>
    have hmem : move ∈ s'.session.moves := by
      rw [← hmoves]
      exact List.mem_append_right _ List.mem_cons_self
    have hmove := h'.queued.moves move hmem
    rw [← hrest.1, hclosed] at hmove
    cases hmove

end SessionState

/-! ### The gate -/

/-- What holds of a session: how `State` moves, who takes input and where it goes. -/
structure InputGate (s : TerminalSession) : Prop where
  /-- `moves` are all assignments to `State`. -/
  leads : Leads .created s.moves s.state
  moves : ∀ move ∈ s.moves, mayMove move.1 move.2 = true
  outbound : s.outbound ≠ none ↔ s.state = .runningRoot ∨ s.state = .runningOverlay
  /-- One queue at most takes input. -/
  accepts : ∀ (i j : ℕ) q r, s.queues[i]? = some q → s.queues[j]? = some r → q.accepts = true →
    r.accepts = true → i = j
  /-- A queue has a larger generation than the queues before it. -/
  generations : ∀ (i j : ℕ) q r, i < j → s.queues[i]? = some q → s.queues[j]? = some r →
    q.generation < r.generation
  /-- No queue takes what is stamped for a queue that is retired. -/
  refused : ∀ (i j : ℕ) q r operation, s.queues[i]? = some q → s.outbound ≠ some i →
    s.queues[j]? = some r →
    (r.outbound.queue.tryEnqueue q.generation operation).1 = some .closed ∨
      (r.outbound.queue.tryEnqueue q.generation operation).1 = some .staleGeneration
  /-- In `RunningOverlay` the queue is one of an overlay. -/
  overlay : s.state = .runningOverlay → ∃ (k : ℕ) (q : SessionQueue) (object : ℕ),
    s.outbound = some k ∧ s.queues[k]? = some q ∧ q.sink = .overlay object
  /-- Such a queue writes to its overlay; to the root it writes resizes only. -/
  input : ∀ q ∈ s.queues, ∀ object, q.sink = .overlay object → ∀ write ∈ q.writes,
    write.transport = .overlay object ∨
      write.transport = .root ∧ write.operation.kind = .resize
  /-- What its sink was given is written to the overlay, and to the root when it is a resize: all of
  it, when the last call of the sink has returned. -/
  resize : ∀ q ∈ s.queues, ∀ object, q.sink = .overlay object →
    q.outbound.worker ≠ .writing → q.outbound.worker ≠ .faulted →
    ∀ operation ∈ q.outbound.sunk, ⟨.overlay object, operation⟩ ∈ q.writes ∧
      (operation.kind = .resize → ⟨.root, operation⟩ ∈ q.writes)

section Gate

variable {s : TerminalSession}

theorem Queued.ordered {base : List Move} (h : Queued base s) {i j : ℕ} {q r : SessionQueue}
    (hij : i < j) (hq : s.queues[i]? = some q) (hr : s.queues[j]? = some r) :
    q.generation < r.generation := by
  obtain ⟨hi, hqi⟩ := List.getElem?_eq_some_iff.mp hq
  obtain ⟨hj, hrj⟩ := List.getElem?_eq_some_iff.mp hr
  have := List.pairwise_iff_getElem.mp h.generations i j (by simpa using hi) (by simpa using hj) hij
  rwa [List.getElem_map, List.getElem_map, hqi, hrj] at this

theorem Queued.refused {base : List Move} (h : Queued base s) {i j : ℕ} {q r : SessionQueue}
    (operation : SessionOutboundOperation) (hq : s.queues[i]? = some q)
    (hretired : s.outbound ≠ some i) (hr : s.queues[j]? = some r) :
    (r.outbound.queue.tryEnqueue q.generation operation).1 = some .closed ∨
      (r.outbound.queue.tryEnqueue q.generation operation).1 = some .staleGeneration := by
  cases haccepts : r.accepts with
  | false => exact .inl (OutboundQueue.tryEnqueue_closed haccepts _ _)
  | true =>
    have hcurrent := h.accepts j r hr haccepts
    have hne : i ≠ j := fun heq => hretired (heq ▸ hcurrent)
    refine .inr (OutboundQueue.tryEnqueue_stale haccepts ?_ operation)
    rcases Nat.lt_or_gt_of_ne hne with hlt | hlt
    · exact (h.ordered hlt hq hr).ne
    · exact (h.ordered hlt hr hq).ne'

theorem Queued.inputGate {base : List Move} (h : Queued base s) : InputGate s where
  leads := h.leads
  moves := h.moves
  outbound := by
    have := h.outbound
    rw [Bool.eq_iff_iff, TerminalSessionState.running, Bool.or_eq_true, decide_eq_true_iff,
      decide_eq_true_iff] at this
    rw [← this, Option.isSome_iff_ne_none]
  accepts := by
    intro i j q r hq hr hqaccepts hraccepts
    exact Option.some.inj ((h.accepts i q hq hqaccepts).symm.trans (h.accepts j r hr hraccepts))
  generations i j q r hij hq hr := h.ordered hij hq hr
  refused i j q r operation hq hretired hr := h.refused operation hq hretired hr
  overlay := by
    intro hstate
    obtain ⟨k, hk⟩ : ∃ k, s.outbound = some k := by
      rw [← Option.isSome_iff_exists, h.outbound, hstate]
      rfl
    obtain ⟨q, hq, hserves⟩ := h.current k hk
    obtain ⟨object, hsink⟩ := hserves.2 hstate
    exact ⟨k, q, object, hk, hq, hsink⟩
  input q hq object hsink write hwrite := (h.routed q hq).input hsink hwrite
  resize q hq object hsink hwriting hfaulted operation hsunk :=
    (h.routed q hq).resize hsink hwriting hfaulted hsunk

end Gate

/-- **The gate on user input, in every run of a session.** -/
theorem session_gating (es : List SessionEvent) (s : SessionState)
    (h : Run.run SessionState.step .start es = some s) :
    InputGate s.session ∧
      ∀ es' s', Run.run SessionState.step s es' = some s' → s.session.state = .closed →
        s'.session.state = .closed := by
  have hgated := SessionState.gated_of_run h SessionState.gated_start
  exact ⟨hgated.queued.inputGate, fun es' s' hrun hclosed =>
    SessionState.closed_of_run hgated hclosed hrun⟩

/-- A session whose overlay runs and is resized. -/
def sampleOverlayRun : List SessionEvent :=
  [.call .startAsync, .resume (.startContext 1) .returned, .resume (.startRoot 1) .returned,
    .call (.startOverlayAsync 7 false), .resume (.overlayPrior 0 7 false) .returned,
    .resume (.overlayContext 2 7 false) .returned, .resume (.overlayStart 2 7 false) .returned,
    .queue 1 (.tryEnqueue 2 { object := 0, kind := .resize, columns := 80, rows := 24 }),
    .queue 1 .wait, .queue 1 .take, .queue 1 .write, .write 1, .write 1, .queue 1 .written]

theorem session_gating_overlay :
    ∃ s, Run.run SessionState.step .start sampleOverlayRun = some s ∧
      s.session.state = .runningOverlay ∧ s.session.outbound = some 1 ∧ InputGate s.session := by
  have hrun : ((Run.run SessionState.step .start sampleOverlayRun).map fun s =>
      (s.session.state, s.session.outbound)) = some (.runningOverlay, some 1) := by
    decide
  obtain ⟨s, hs, hstate⟩ := Option.map_eq_some_iff.mp hrun
  obtain ⟨hstate, houtbound⟩ := Prod.mk.inj hstate
  exact ⟨s, hs, hstate, houtbound, (session_gating sampleOverlayRun s hs).1⟩

end VT7.Session
