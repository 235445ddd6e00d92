import VT7.Session.TerminalSession

/-!
# The queues of a session

What a queue of a session keeps, whoever calls `TryEnqueue` and however its worker and its sink go on:
its generation and its sink, and that it takes no more input once it was closed (`Calmer`, for a list
of queues `Calms`).  `Routed` says where the sink has written to.
-/

namespace VT7.Session

open VT7.Lib

/-- What the sink of a queue has written, and what it still has to write, are the writes of the
operations it was given. -/
structure SessionQueue.Routed (q : SessionQueue) : Prop where
  writes : q.writes ++ q.remaining = q.outbound.sunk.flatMap fun operation =>
    q.sink.writeAsync operation
  remaining : q.remaining ≠ [] → q.outbound.worker = .writing ∨ q.outbound.worker = .faulted

/-- What a queue keeps in all of its steps. -/
structure Calmer (q q' : SessionQueue) : Prop where
  generation : q'.generation = q.generation
  sink : q'.sink = q.sink
  accepts : q'.accepts = true → q.accepts = true
  routed : q.Routed → q'.Routed

theorem Calmer.refl (q : SessionQueue) : Calmer q q :=
  ⟨rfl, rfl, id, id⟩

theorem OutboundQueue.tryEnqueue_keeps (q : OutboundQueue) (generation : ℤ)
    (operation : SessionOutboundOperation) :
    (q.tryEnqueue generation operation).2.2.generation = q.generation ∧
      (q.tryEnqueue generation operation).2.2.accepting = q.accepting ∧
      (q.tryEnqueue generation operation).2.2.disposed = q.disposed := by
  unfold tryEnqueue
  dsimp only
  split_ifs <;> exact ⟨rfl, rfl, rfl⟩

theorem OutboundQueue.tryEnqueue_closed {q : OutboundQueue} (h : (!q.disposed && q.accepting) = false)
    (generation : ℤ) (operation : SessionOutboundOperation) :
    (q.tryEnqueue generation operation).1 = some .closed := by
  have hclosed : (q.disposed || !q.accepting) = true := by
    rw [← Bool.not_not (q.disposed || !q.accepting), Bool.not_or, Bool.not_not, h]
    rfl
  rw [tryEnqueue, if_pos hclosed]

theorem OutboundQueue.tryEnqueue_stale {q : OutboundQueue} {generation : ℤ}
    (h : (!q.disposed && q.accepting) = true) (hstale : generation ≠ q.generation)
    (operation : SessionOutboundOperation) :
    (q.tryEnqueue generation operation).1 = some .staleGeneration := by
  have hopen : ¬ (q.disposed || !q.accepting) = true := by
    simp_all
  rw [tryEnqueue, if_neg hopen, if_pos hstale]

namespace SessionQueue

variable {q q' : SessionQueue}

theorem completeAsync_accepts (q : SessionQueue) : q.completeAsync.accepts = false := by
  simp only [completeAsync, accepts, OutboundQueue.completeAsync]
  split_ifs <;> simp_all

theorem dispose_accepts (q : SessionQueue) : q.dispose.accepts = false := by
  simp only [dispose, accepts, OutboundQueue.dispose]
  split_ifs <;> simp_all

theorem calmer_completeAsync (q : SessionQueue) : Calmer q q.completeAsync where
  generation := by
    simp only [completeAsync, SessionQueue.generation, OutboundQueue.completeAsync]
    split_ifs <;> rfl
  sink := rfl
  accepts h := by simp [completeAsync_accepts] at h
  routed h := ⟨h.writes, h.remaining⟩

theorem calmer_dispose (q : SessionQueue) : Calmer q q.dispose where
  generation := by
    simp only [dispose, SessionQueue.generation, OutboundQueue.dispose]
    split_ifs <;> rfl
  sink := rfl
  accepts h := by simp [dispose_accepts] at h
  routed h := ⟨h.writes, h.remaining⟩

/-- A step that hands nothing to the sink and is not the end of its call. -/
theorem calmer_of_outbound {outbound : OutboundState}
    (hgeneration : outbound.queue.generation = q.outbound.queue.generation)
    (haccepting : outbound.queue.accepting = true → q.outbound.queue.accepting = true)
    (hdisposed : outbound.queue.disposed = q.outbound.queue.disposed)
    (hsunk : outbound.sunk = q.outbound.sunk)
    (hworker : q.outbound.worker = .writing ∨ q.outbound.worker = .faulted →
      outbound.worker = .writing ∨ outbound.worker = .faulted) :
    Calmer q { q with outbound := outbound } where
  generation := hgeneration
  sink := rfl
  accepts h := by
    simp only [accepts, Bool.and_eq_true, hdisposed] at h ⊢
    exact ⟨h.1, haccepting h.2⟩
  routed h := ⟨by rw [hsunk]; exact h.writes, fun hne => hworker (h.remaining hne)⟩

theorem calmer_take (hworker : q.outbound.worker = .taking) :
    Calmer q { q with outbound := q.outbound.take } := by
  have htaking : ∀ P : Prop, q.outbound.worker = .writing ∨ q.outbound.worker = .faulted → P := by
    intro P h
    simp [hworker] at h
  unfold OutboundState.take
  split
  · dsimp only
    split
    · exact calmer_of_outbound rfl (by simp [OutboundState.fault]) rfl rfl (htaking _)
    · exact calmer_of_outbound rfl id rfl rfl (htaking _)
  · split <;> exact calmer_of_outbound rfl id rfl rfl (htaking _)

theorem calmer_write {outbound : OutboundState} (h : q.outbound.step .write = some outbound) :
    Calmer q { q with outbound := outbound, remaining := q.sinkCall } := by
  simp only [OutboundState.step] at h
  split at h
  · next operation hworker =>
    obtain rfl := Option.some.inj h
    refine ⟨rfl, rfl, id, fun hrouted => ⟨?_, fun _ => .inl rfl⟩⟩
    -- the worker holds an operation, so the call before it is done
    have hdone : q.remaining = [] := by
      by_contra hne
      have := hrouted.remaining hne
      simp [hworker] at this
    have hwrites := hrouted.writes
    rw [hdone, List.append_nil] at hwrites
    simp [sinkCall, hworker, OutboundWorker.held, hwrites]
  · cases h

/-- **What a step of the worker or a call of `TryEnqueue` keeps.** -/
theorem calmer_of_step {e : OutboundEvent} (h : q.step e = some q') : Calmer q q' := by
  cases e with
  | completeAsync => cases h
  | dispose => cases h
  | tryEnqueue generation operation =>
    obtain rfl := Option.some.inj h
    obtain ⟨hgeneration, haccepting, hdisposed⟩ :=
      q.outbound.queue.tryEnqueue_keeps generation operation
    exact calmer_of_outbound hgeneration (fun h => haccepting.symm.trans h) hdisposed rfl id
  | write =>
    obtain ⟨outbound, houtbound, rfl⟩ := Option.map_eq_some_iff.mp h
    exact calmer_write houtbound
  | written =>
    simp only [step] at h
    split at h
    · next hremaining =>
      obtain ⟨outbound, houtbound, rfl⟩ := Option.map_eq_some_iff.mp h
      simp only [OutboundState.step, Option.ite_none_right_eq_some, Option.some.injEq] at houtbound
      obtain ⟨_, rfl⟩ := houtbound
      exact ⟨rfl, rfl, id, fun hrouted => ⟨hrouted.writes, fun hne => absurd hremaining hne⟩⟩
    · cases h
  | take =>
    obtain ⟨outbound, houtbound, rfl⟩ := Option.map_eq_some_iff.mp h
    simp only [OutboundState.step, Option.ite_none_right_eq_some, Option.some.injEq] at houtbound
    obtain ⟨hworker, rfl⟩ := houtbound
    exact calmer_take hworker
  | wait | cancel | complete | completed | sinkThrows =>
    obtain ⟨outbound, houtbound, rfl⟩ := Option.map_eq_some_iff.mp h
    simp only [OutboundState.step, Option.ite_none_right_eq_some, Option.some.injEq] at houtbound
    obtain ⟨hworker, rfl⟩ := houtbound
    exact calmer_of_outbound rfl (by simp [OutboundState.fault]) rfl rfl
      (by simp_all [OutboundState.fault])

theorem calmer_of_write (h : q.write = some q') : Calmer q q' := by
  unfold write at h
  split at h
  · next next rest hworker hremaining =>
    obtain rfl := Option.some.inj h
    refine ⟨rfl, rfl, id, fun hrouted => ⟨?_, fun _ => .inl hworker⟩⟩
    rw [← hrouted.writes, hremaining]
    simp
  · cases h

end SessionQueue

/-- Every queue of a list keeps what a queue keeps. -/
structure Calms (queues queues' : List SessionQueue) : Prop where
  length : queues'.length = queues.length
  calmer : ∀ (k : ℕ) q', queues'[k]? = some q' → ∃ q, queues[k]? = some q ∧ Calmer q q'

namespace Calms

variable {queues queues' : List SessionQueue}

theorem refl (queues : List SessionQueue) : Calms queues queues :=
  ⟨rfl, fun _ q' h => ⟨q', h, .refl q'⟩⟩

theorem set {k : ℕ} {q q' : SessionQueue} (hk : queues[k]? = some q) (h : Calmer q q') :
    Calms queues (queues.set k q') where
  length := List.length_set
  calmer := by
    intro j r hr
    rw [List.getElem?_set] at hr
    split_ifs at hr with hjk hlt
    · obtain rfl := Option.some.inj hr
      exact ⟨q, hjk ▸ hk, h⟩
    · exact ⟨r, hr, .refl r⟩

theorem modify {f : SessionQueue → SessionQueue} (hf : ∀ q, Calmer q (f q)) (k : ℕ) :
    Calms queues (queues.modify k f) where
  length := List.length_modify ..
  calmer := by
    intro j r hr
    rw [List.getElem?_modify] at hr
    obtain ⟨q, hq, rfl⟩ := Option.map_eq_some_iff.mp hr
    refine ⟨q, hq, ?_⟩
    split_ifs
    · exact hf q
    · exact .refl q

theorem generations (h : Calms queues queues') :
    queues'.map SessionQueue.generation = queues.map SessionQueue.generation := by
  refine List.ext_getElem? fun k => ?_
  rw [List.getElem?_map, List.getElem?_map]
  cases hk : queues'[k]? with
  | none =>
    rw [List.getElem?_eq_none_iff, h.length, ← List.getElem?_eq_none_iff] at hk
    rw [hk]
  | some q' =>
    obtain ⟨q, hq, hcalmer⟩ := h.calmer k q' hk
    rw [hq, Option.map_some, Option.map_some, hcalmer.generation]

theorem mem (h : Calms queues queues') {q' : SessionQueue} (hq' : q' ∈ queues') :
    ∃ q ∈ queues, Calmer q q' := by
  obtain ⟨k, hk⟩ := List.mem_iff_getElem?.mp hq'
  obtain ⟨q, hq, hcalmer⟩ := h.calmer k q' hk
  exact ⟨q, List.mem_of_getElem? hq, hcalmer⟩

end Calms

/-! ### Where the input goes -/

theorem SessionQueue.Routed.input {q : SessionQueue} (h : q.Routed) {object : ℕ}
    (hsink : q.sink = .overlay object) {write : TransportWrite} (hwrite : write ∈ q.writes) :
    write.transport = .overlay object ∨
      write.transport = .root ∧ write.operation.kind = .resize := by
  have hmem : write ∈ q.outbound.sunk.flatMap fun operation => q.sink.writeAsync operation := by
    rw [← h.writes]
    exact List.mem_append_left _ hwrite
  obtain ⟨operation, _, hoperation⟩ := List.mem_flatMap.mp hmem
  rw [hsink, OutboundSink.writeAsync, List.mem_append, List.mem_singleton] at hoperation
  rcases hoperation with hroot | rfl
  · split_ifs at hroot with hresize
    · obtain rfl := List.mem_singleton.mp hroot
      exact .inr ⟨rfl, hresize⟩
    · cases hroot
  · exact .inl rfl

theorem SessionQueue.Routed.resize {q : SessionQueue} (h : q.Routed) {object : ℕ}
    (hsink : q.sink = .overlay object) (hwriting : q.outbound.worker ≠ .writing)
    (hfaulted : q.outbound.worker ≠ .faulted) {operation : SessionOutboundOperation}
    (hsunk : operation ∈ q.outbound.sunk) : ⟨.overlay object, operation⟩ ∈ q.writes ∧
      (operation.kind = .resize → ⟨.root, operation⟩ ∈ q.writes) := by
  have hdone : q.remaining = [] := by
    by_contra hne
    rcases h.remaining hne with hworker | hworker
    · exact hwriting hworker
    · exact hfaulted hworker
  have hall : ∀ write ∈ q.sink.writeAsync operation, write ∈ q.writes := by
    intro write hwrite
    have hwrites := h.writes
    rw [hdone, List.append_nil] at hwrites
    rw [hwrites]
    exact List.mem_flatMap.mpr ⟨operation, hsunk, hwrite⟩
  rw [hsink] at hall
  refine ⟨hall _ (List.mem_append_right _ (List.mem_singleton_self _)), fun hresize => hall _ ?_⟩
  rw [OutboundSink.writeAsync, if_pos hresize]
  exact List.mem_append_left _ (List.mem_singleton_self _)

end VT7.Session
