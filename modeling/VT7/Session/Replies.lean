import VT7.Lib.Courier
import VT7.Session.Output

/-!
# Replies and the transports they reach

Any call of `AcceptOutputAsync` drains the whole reply queue, so it carries the replies of other
producers too.  Whatever the interleaving, a reply is written once at most and only to the transport
its origin generation was registered for.  Order and isolation need more (`orderly`): a call must not
overtake another that still carries an earlier reply of the same origin, and the transport of a
carried reply must be registered and running.

The session is, seen from its replies, a queue emptied by several carriers (`Lib.Courier`).
-/

namespace VT7.Session

open VT7.Dotnet VT7.Lib

namespace OutputState

variable {s s' : OutputState} {e : OutputEvent} {events : List OutputEvent}

/-! ### The session as a courier -/

/-- Where the replies are. -/
def courier (s : OutputState) : Courier ℕ Reply where
  queue := s.document.replies
  taken := s.taken
  held g := (s.calls g).held
  delivered := s.written.map (·.reply)
  stamp := s.document.replySequence

/-- What the calls hold when one of them is set. -/
theorem held_update (calls : ℕ → AcceptCall) (g : ℕ) (call : AcceptCall) :
    (fun j => (Function.update calls g call j).held) =
      Function.update (fun j => (calls j).held) g call.held :=
  funext fun j => Function.apply_update (fun _ => AcceptCall.held) calls g call j

/-- A step moves the replies as a courier does; a reply is handed over when a call writes it. -/
theorem courier_moves (allowed : Courier ℕ Reply → ℕ → Reply → Prop) (h : Moves s e s')
    (hallowed : ∀ g t r rest taken, e = .write g taken → s.calls g = .writing t r rest →
      allowed s.courier g r) :
    Courier.Moves Reply.sequence allowed s.courier s'.courier := by
  cases h with
  | settle origin added appends taken written calls _ =>
    have heq : s'.courier = { s.courier with
        queue := s.courier.queue ++ added
        stamp := s'.document.replySequence
        held := s'.courier.held } := by
      simp [courier, appends.replies, taken, written]
    rw [heq]
    refine .settle appends.sorted appends.above appends.below appends.advances ?_
    intro g
    exact (calls g).imp (congrArg AcceptCall.held) id
  | drain g eq =>
    obtain ⟨hreplies, hempty, hstamp⟩ := s.document.drainReplies_spec
    have heq : s'.courier = { s.courier with
        queue := []
        taken := s.courier.taken ++ s.courier.queue
        held := Function.update s.courier.held g s.courier.queue } := by
      subst eq
      simp only [courier, drain, hreplies, hempty, hstamp, held_update, AcceptCall.held_delivering]
    rw [heq]
    exact .single (.take s.courier g)
  | route g t r rest call registered eq =>
    have heq : s'.courier = s.courier := by
      subst eq
      have hsame : (AcceptCall.writing t r rest).held = (s.calls g).held := by
        rw [call, AcceptCall.held_writing, AcceptCall.held_delivering]
      simp only [courier, setCall, held_update, hsame, Function.update_eq_self]
    rw [heq]
  | refuse g r rest event call missing eq =>
    subst eq
    refine .single (.lose s.courier _ fun j => ?_)
    exact (update_held rfl j).imp (congrArg AcceptCall.held) id
  | write g t r rest taken event call eq =>
    have hheld : s.courier.held g = r :: rest := by simp [courier, call]
    have heq : s'.courier = { s.courier with
        held := s'.courier.held
        delivered := s.courier.delivered ++ [r] } := by
      subst eq
      unfold write
      dsimp only
      split <;> simp [courier, setCall, fail]
    rw [heq]
    refine .hand hheld (hallowed g t r rest taken event call) ?_
    subst eq
    intro j
    unfold write
    dsimp only
    split
    · left
      exact congrFun (held_update s.calls g (.delivering rest)) j
    · simp only [courier, fail]
      rcases eq_or_ne j g with rfl | hj
      · right
        rw [Function.update_self]
        rfl
      · left
        rw [Function.update_of_ne hj, Function.update_of_ne hj]

/-! ### Once, and to its own transport -/

/-- Every reply the document has queued. -/
def queued (s : OutputState) : List Reply := s.taken ++ s.document.replies

/-- The replies have their own sequences, and each was written once at most. -/
structure WrittenOnce (s : OutputState) : Prop where
  sequences : s.queued.Pairwise (·.sequence < ·.sequence)
  queued : ∀ d ∈ s.written, d.reply ∈ s.queued
  once : (s.written.map (·.reply)).Nodup

/-- Every reply was written to the transport its origin generation was registered for. -/
def OwnTransport (s : OutputState) : Prop :=
  ∀ d ∈ s.written, s.owners d.reply.origin = some d.transport

theorem writtenOnce_of_sound (h : s.courier.Sound Reply.sequence) : s.WrittenOnce where
  sequences := h.sorted
  queued := by
    intro d hd
    exact List.mem_append_left _ (h.delivered_taken d.reply (List.mem_map_of_mem hd))
  once := h.once.imp fun hne heq => hne (congrArg Reply.sequence heq)

/-- What the session knows of its generations. -/
structure Registered (s : OutputState) : Prop where
  transports : ∀ g t, s.producerTransports g = some t → s.owners g = some t
  generations : ∀ g, s.producerGenerations g = true → s.owners g ≠ none
  handedOut : ∀ g, s.owners g ≠ none → g ≤ s.activeGeneration
  callers : ∀ g, s.calls g ≠ .idle → g ≤ s.activeGeneration
  pending : ∀ p ∈ s.writes, p.accepted = true → p.originGeneration ≤ s.activeGeneration
  writing : ∀ g t r rest, s.calls g = .writing t r rest → s.owners r.origin = some t
  written : s.OwnTransport

/-- A call that may stand in the place of `g`'s. -/
def MayFollow (s : OutputState) (g : ℕ) (call : AcceptCall) : Prop :=
  call = s.calls g ∨ call = .idle ∨
    g ≤ s.activeGeneration ∧ ∀ t r rest, call = .writing t r rest → s.owners r.origin = some t

/-- The tables stay; the calls and the writes are replaced by admissible ones. -/
theorem Registered.settle (h : Registered s) (htransports : s'.producerTransports = s.producerTransports)
    (hgenerations : s'.producerGenerations = s.producerGenerations) (howners : s'.owners = s.owners)
    (hactive : s'.activeGeneration = s.activeGeneration) (hwritten : s'.OwnTransport)
    (hcalls : ∀ g, s.MayFollow g (s'.calls g))
    (hwrites : ∀ p ∈ s'.writes, p.accepted = true → p.originGeneration ≤ s.activeGeneration) :
    Registered s' where
  transports := by
    rw [htransports, howners]
    exact h.transports
  generations := by
    rw [hgenerations, howners]
    exact h.generations
  handedOut := by
    rw [howners, hactive]
    exact h.handedOut
  callers := by
    intro g hg
    rw [hactive]
    rcases hcalls g with heq | heq | ⟨hle, -⟩
    · exact h.callers g (heq ▸ hg)
    · exact absurd heq hg
    · exact hle
  pending := by
    rw [hactive]
    exact hwrites
  writing := by
    intro g t r rest hg
    rw [howners]
    rcases hcalls g with heq | heq | ⟨-, hw⟩
    · exact h.writing g t r rest (heq ▸ hg)
    · rw [hg] at heq
      cases heq
    · exact hw t r rest hg
  written := hwritten

theorem mayFollow_update {g : ℕ} {call : AcceptCall} (h : s.MayFollow g call) (j : ℕ) :
    s.MayFollow j (Function.update s.calls g call j) := by
  rcases eq_or_ne j g with rfl | hj
  · rwa [Function.update_self]
  · rw [Function.update_of_ne hj]
    exact .inl rfl

theorem Registered.fail (h : Registered s) (g : ℕ) (error : AcceptError) :
    Registered (s.fail g error) :=
  h.settle rfl rfl rfl rfl h.written (mayFollow_update (.inr (.inl rfl))) h.pending

theorem Registered.setCall (h : Registered s) {g : ℕ} {call : AcceptCall}
    (hcall : s.MayFollow g call) : Registered (s.setCall g call) :=
  h.settle rfl rfl rfl rfl h.written (mayFollow_update hcall) h.pending

theorem Registered.failWrites (h : Registered s) (writes : List PendingWrite) :
    Registered (s.failWrites writes) := by
  refine h.settle rfl rfl rfl rfl h.written ?_ (by simp [OutputState.failWrites])
  intro g
  simp only [OutputState.failWrites]
  split
  · exact .inr (.inl rfl)
  · exact .inl rfl

/-- The call of a generation that was handed out, without a reply under way. -/
theorem mayFollow_of_le {g : ℕ} {call : AcceptCall} (hg : g ≤ s.activeGeneration)
    (hcall : ∀ t r rest, call ≠ .writing t r rest) : s.MayFollow g call :=
  .inr (.inr ⟨hg, fun t r rest heq => absurd heq (hcall t r rest)⟩)

theorem Registered.accept (h : Registered s) (block : TerminalOutputBlock) (cancelled : Bool) :
    Registered (s.accept block cancelled) := by
  unfold OutputState.accept
  dsimp only
  split
  · exact h.fail _ _
  · split
    · exact h.fail _ _
    · split
      · exact h.fail _ _
      · next hregistered =>
        have hle : block.generation ≤ s.activeGeneration :=
          h.handedOut _ (h.generations _ (by simpa using hregistered))
        have hs : Registered { s with
            producerSequences := Function.update s.producerSequences block.generation block.sequence } :=
          h.settle rfl rfl rfl rfl h.written (fun _ => .inl rfl) h.pending
        split
        · exact h.fail _ _
        · split
          · exact hs.setCall (mayFollow_of_le hle (by intros; simp))
          · split
            · exact hs.fail _ _
            · exact hs.setCall (mayFollow_of_le hle (by intros; simp))

theorem Registered.commit (h : Registered s) {pending : PendingWrite} {rest : List PendingWrite}
    (hwrites : s.writes = pending :: rest) (responses : List (List UInt16)) (intact : Bool) :
    Registered (s.commit pending rest responses intact) := by
  have hpending : ∀ p ∈ pending :: rest, p.accepted = true → p.originGeneration ≤ s.activeGeneration :=
    hwrites ▸ h.pending
  have hrest : ∀ p ∈ rest, p.accepted = true → p.originGeneration ≤ s.activeGeneration :=
    fun p hp => hpending p (List.mem_cons_of_mem _ hp)
  unfold OutputState.commit
  dsimp only
  split
  · split
    · next haccepted =>
      have hle := hpending pending List.mem_cons_self haccepted
      exact h.settle rfl rfl rfl rfl h.written
        (mayFollow_update (mayFollow_of_le hle (by intros; simp))) hrest
    · exact h.settle rfl rfl rfl rfl h.written (fun _ => .inl rfl) hrest
  · have hs : Registered { s with document := (s.document.writeDocumentStream s.streamGeneration
        pending.originGeneration pending.sequence responses intact).1 } :=
      h.settle rfl rfl rfl rfl h.written (fun _ => .inl rfl) h.pending
    exact hs.failWrites _

theorem Registered.deliver (h : Registered s) {g : ℕ} {replies : List Reply}
    (hcall : s.calls g = .delivering replies) : Registered (s.deliver g replies) := by
  have hle : g ≤ s.activeGeneration := h.callers g (by simp [hcall])
  cases replies with
  | nil => exact h.setCall (.inr (.inl rfl))
  | cons reply rest =>
    simp only [OutputState.deliver]
    split
    · exact h.fail _ _
    · next t ht =>
      refine h.setCall (.inr (.inr ⟨hle, ?_⟩))
      intro t' r' rest' heq
      cases heq
      exact h.transports _ _ ht

theorem Registered.write (h : Registered s) {g t : ℕ} {r : Reply} {rest : List Reply}
    (hcall : s.calls g = .writing t r rest) (taken : Bool) :
    Registered (s.write g t r rest taken) := by
  have hle : g ≤ s.activeGeneration := h.callers g (by simp [hcall])
  have hwritten : ∀ d ∈ s.written ++ [⟨t, r, s.running t && taken⟩],
      s.owners d.reply.origin = some d.transport := by
    intro d hd
    rcases List.mem_append.mp hd with hd | hd
    · exact h.written d hd
    · rw [List.mem_singleton.mp hd]
      exact h.writing g t r rest hcall
  unfold OutputState.write
  dsimp only
  split
  · exact h.settle rfl rfl rfl rfl hwritten
      (mayFollow_update (mayFollow_of_le hle (by intros; simp))) h.pending
  · exact h.settle rfl rfl rfl rfl hwritten (mayFollow_update (.inr (.inl rfl))) h.pending

/-- A generation is registered once, so what is known of its owner stays true. -/
theorem Registered.register (h : Registered s) {g : ℕ} (t : ℕ) (hle : g ≤ s.activeGeneration)
    (hnone : s.owners g = none) :
    Registered (s.register g t) := by
  have hkeep : ∀ j u, s.owners j = some u → Function.update s.owners g (some t) j = some u := by
    intro j u hj
    have hne : j ≠ g := by
      rintro rfl
      rw [hnone] at hj
      cases hj
    rwa [Function.update_of_ne hne]
  unfold OutputState.register
  refine ⟨?_, ?_, ?_, h.callers, h.pending, ?_, ?_⟩
  · intro j u hj
    rcases eq_or_ne j g with rfl | hne
    · simpa using hj
    · exact hkeep j u (h.transports j u (by simpa [Function.update_of_ne hne] using hj))
  · intro j hj
    rcases eq_or_ne j g with rfl | hne
    · simp
    · simp only [Function.update_of_ne hne] at hj ⊢
      exact h.generations j hj
  · intro j hj
    rcases eq_or_ne j g with rfl | hne
    · exact hle
    · simp only [Function.update_of_ne hne] at hj
      exact h.handedOut j hj
  · intro j u r rest hj
    exact hkeep _ _ (h.writing j u r rest hj)
  · intro d hd
    exact hkeep _ _ (h.written d hd)

theorem Registered.unregister (h : Registered s) (g : ℕ) : Registered (s.unregister g) := by
  refine ⟨?_, ?_, h.handedOut, h.callers, h.pending, h.writing, h.written⟩
  · intro j t hj
    rcases eq_or_ne j g with rfl | hne
    · simp [OutputState.unregister] at hj
    · exact h.transports j t (by simpa [OutputState.unregister, Function.update_of_ne hne] using hj)
  · intro j hj
    rcases eq_or_ne j g with rfl | hne
    · simp [OutputState.unregister] at hj
    · exact h.generations j (by simpa [OutputState.unregister, Function.update_of_ne hne] using hj)

theorem Registered.nextGeneration (h : Registered s) :
    Registered { s with activeGeneration := s.activeGeneration + 1 } := by
  have hgrow : ∀ {g}, g ≤ s.activeGeneration → g ≤ s.activeGeneration + 1 := fun hg => by omega
  exact ⟨h.transports, h.generations, fun g hg => hgrow (h.handedOut g hg),
    fun g hg => hgrow (h.callers g hg), fun p hp ha => hgrow (h.pending p hp ha), h.writing, h.written⟩

theorem Registered.enqueue (h : Registered s) {g sequence : ℕ} {bytes : Bytes}
    (hcall : s.calls g = .waiting sequence bytes) : Registered (s.enqueue g sequence bytes) := by
  have hle : g ≤ s.activeGeneration := h.callers g (by simp [hcall])
  unfold OutputState.enqueue
  split
  · exact h.fail _ _
  · refine h.settle rfl rfl rfl rfl h.written
      (mayFollow_update (mayFollow_of_le hle (by intros; simp))) ?_
    intro p hp ha
    rcases List.mem_append.mp hp with hp | hp
    · exact h.pending p hp ha
    · rw [List.mem_singleton.mp hp]
      exact hle

theorem Registered.hostLine (h : Registered s) (g : ℕ) (bytes : Bytes) :
    Registered { s with writes := s.writes ++ [⟨g, 1, bytes, false⟩] } := by
  refine h.settle rfl rfl rfl rfl h.written (fun _ => .inl rfl) ?_
  intro p hp ha
  rcases List.mem_append.mp hp with hp | hp
  · exact h.pending p hp ha
  · rw [List.mem_singleton.mp hp] at ha
    cases ha

theorem Registered.drain (h : Registered s) {g : ℕ} (hcall : s.calls g = .draining) :
    Registered (s.drain g) := by
  have hle : g ≤ s.activeGeneration := h.callers g (by simp [hcall])
  exact h.settle rfl rfl rfl rfl h.written
    (mayFollow_update (mayFollow_of_le hle (by intros; simp))) h.pending

/-- **The step lemma of the tables.** -/
theorem registered_of_acts (h : Acts s e s') (hi : Registered s) : Registered s' := by
  cases h with
  | nextGeneration => exact hi.nextGeneration
  | register handedOut new => exact hi.register _ handedOut new
  | unregister => exact hi.unregister _
  | transport | session | complete | endStream =>
    exact hi.settle rfl rfl rfl rfl hi.written (fun _ => .inl rfl) hi.pending
  | accept => exact hi.accept _ _
  | enqueue call => exact hi.enqueue call
  | abandon => exact hi.fail _ _
  | hostLine => exact hi.hostLine _ _
  | commit head => exact hi.commit head _ _
  | dispose => exact hi.failWrites _
  | drain call => exact hi.drain call
  | deliver call => exact hi.deliver call
  | write call => exact hi.write call _

/-! ### In order, and apart from the others -/

/-- The replies of one origin generation were written in the order of their sequences. -/
def InOrder (s : OutputState) : Prop :=
  s.written.Pairwise fun d d' =>
    d.reply.origin = d'.reply.origin → d.reply.sequence < d'.reply.sequence

instance (s : OutputState) : Decidable s.InOrder :=
  inferInstanceAs (Decidable (s.written.Pairwise _))

end OutputState

/-- The call of a running producer failed because of a reply of another one. -/
def AcceptFailure.harms (f : AcceptFailure) : Bool :=
  f.running && f.error.blames.any fun reply => reply.origin != f.producer

theorem AcceptFailure.harms_of_stopped {f : AcceptFailure} (h : f.running = false) :
    f.harms = false := by
  simp [harms, h]

theorem AcceptFailure.harms_of_own {f : AcceptFailure}
    (h : ∀ reply, f.error.blames = some reply → reply.origin = f.producer) : f.harms = false := by
  unfold harms
  cases hblames : f.error.blames with
  | none => simp
  | some reply => simp [h reply hblames]

namespace OutputState

variable {s s' : OutputState} {e : OutputEvent} {events : List OutputEvent}

/-- No call of a running producer failed because of a reply of another one whose transport has
stopped or was unregistered. -/
def Isolated (s : OutputState) : Prop := ∀ f ∈ s.failures, f.harms = false

instance (s : OutputState) : Decidable s.Isolated :=
  inferInstanceAs (Decidable (∀ f ∈ s.failures, _))

/-- **The condition on a step.**  A call that carries the reply of another producer finds its
transport registered and running, as long as its own transport runs.  A call writes a reply only when
no other call still holds an earlier one of the same origin. -/
def orderly (s : OutputState) : OutputEvent → Bool
  | .deliver g =>
    match s.calls g with
    | .delivering (reply :: _) =>
      !s.producerRunning g || reply.origin == g || (s.producerTransports reply.origin).isSome
    | _ => true
  | .write g _ =>
    match s.calls g with
    | .writing transport reply _ =>
      (!s.producerRunning g || reply.origin == g || s.running transport) &&
        (List.range (s.activeGeneration + 1)).all fun g' =>
          g' == g || (s.calls g').held.all fun other =>
            other.origin != reply.origin || reply.sequence ≤ other.sequence
    | _ => true
  | _ => true

/-- In an orderly step a reply is written in its turn. -/
theorem inTurn_of_orderly (hi : Registered s) {g t : ℕ} {r : Reply} {rest : List Reply} {taken : Bool}
    (hcall : s.calls g = .writing t r rest) (h : s.orderly (.write g taken) = true) :
    s.courier.InTurn Reply.sequence Reply.origin g r := by
  intro j hj other hother horigin
  have hle : j ≤ s.activeGeneration := by
    refine hi.callers j ?_
    intro hidle
    simp [courier, hidle, AcceptCall.held] at hother
  simp only [orderly, hcall, Bool.and_eq_true, List.all_eq_true, List.mem_range] at h
  have hheld := h.2 j (Nat.lt_succ_of_le hle)
  simp only [beq_eq_false_iff_ne.mpr hj, Bool.false_or, List.all_eq_true] at hheld
  simpa [horigin] using hheld other hother

theorem isolated_of_blameless (h : Blameless s s') (hi : s.Isolated) : s'.Isolated := by
  obtain ⟨more, heq, hmore⟩ := h
  intro f hf
  rw [heq] at hf
  rcases List.mem_append.mp hf with hf | hf
  · exact hi f hf
  · exact f.harms_of_own (by simp [hmore f hf])

theorem isolated_append {f : AcceptFailure} (heq : s'.failures = s.failures ++ [f])
    (hf : f.harms = false) (hi : s.Isolated) : s'.Isolated := by
  intro f' hf'
  rw [heq] at hf'
  rcases List.mem_append.mp hf' with hf' | hf'
  · exact hi f' hf'
  · rw [List.mem_singleton.mp hf']
    exact hf

theorem isolated_of_moves (h : Moves s e s') (hgood : s.orderly e = true) (hi : s.Isolated) :
    s'.Isolated := by
  cases h with
  | settle origin added appends taken written calls blameless =>
    exact isolated_of_blameless blameless hi
  | drain g eq | route g t r rest call registered eq =>
    subst eq
    exact hi
  | refuse g r rest event call missing eq =>
    subst eq event
    refine isolated_append rfl ?_ hi
    -- the reply is the producer's own, or its transport does not run
    simp only [orderly, call, missing, Option.isSome_none, Bool.or_false, Bool.or_eq_true,
      Bool.not_eq_true', beq_iff_eq] at hgood
    rcases hgood with hstopped | hown
    · exact AcceptFailure.harms_of_stopped hstopped
    · refine AcceptFailure.harms_of_own ?_
      rintro reply ⟨⟩
      exact hown
  | write g t r rest taken event call eq =>
    subst eq event
    unfold write
    dsimp only
    split
    · exact hi
    · refine isolated_append rfl ?_ hi
      simp only [orderly, call, Bool.and_eq_true, Bool.or_eq_true, Bool.not_eq_true',
        beq_iff_eq] at hgood
      rcases hgood.1 with (hstopped | hown) | hrunning
      · exact AcceptFailure.harms_of_stopped hstopped
      · refine AcceptFailure.harms_of_own ?_
        intro reply hreply
        cases hstop : s.running t <;> simp only [hstop, Bool.not_false, Bool.not_true] at hreply
        · cases hreply
          exact hown
        · cases hreply
      · refine AcceptFailure.harms_of_own ?_
        simp [AcceptError.blames, hrunning]

/-! ### Runs -/

theorem registered_start (document : Document) (streamGeneration : ℕ) :
    Registered (start document streamGeneration) where
  transports := by simp [start]
  generations := by simp [start]
  handedOut := by simp [start]
  callers := by simp [start]
  pending := by simp [start]
  writing := by simp [start]
  written := by simp [OwnTransport, start]

theorem sound_start (document : Document) (streamGeneration : ℕ) :
    (start document streamGeneration).courier.Sound Reply.sequence := by
  constructor <;> simp [courier, start, Document.beginDocumentStream, AcceptCall.held]

theorem ordered_start (document : Document) (streamGeneration : ℕ) :
    (start document streamGeneration).courier.Ordered Reply.sequence Reply.origin := by
  constructor <;> simp [courier, start]

/-- What every run keeps. -/
structure RepliesInv (s : OutputState) : Prop where
  registered : Registered s
  sound : s.courier.Sound Reply.sequence

/-- What every orderly run keeps. -/
structure OrderlyInv (s : OutputState) : Prop extends RepliesInv s where
  ordered : s.courier.Ordered Reply.sequence Reply.origin
  isolated : s.Isolated

theorem repliesInv_of_step (h : s.step e = some s') (hi : RepliesInv s) : RepliesInv s' where
  registered := registered_of_acts (acts_of_step h) hi.registered
  sound := by
    have hmoves := courier_moves (fun _ _ _ => True) (moves_of_acts (acts_of_step h)) fun _ _ _ _ _ _ _ => trivial
    exact hi.sound.of_moves hmoves

theorem orderlyInv_of_step (hgood : s.orderly e = true) (h : s.step e = some s')
    (hi : OrderlyInv s) : OrderlyInv s' where
  toRepliesInv := repliesInv_of_step h hi.toRepliesInv
  ordered := by
    refine hi.ordered.of_moves (courier_moves _ (moves_of_acts (acts_of_step h)) ?_) hi.sound
    rintro g t r rest taken rfl hcall
    exact inTurn_of_orderly hi.registered hcall hgood
  isolated := isolated_of_moves (moves_of_acts (acts_of_step h)) hgood hi.isolated

theorem inOrder_of_ordered (h : s.courier.Ordered Reply.sequence Reply.origin) : s.InOrder :=
  List.pairwise_map.mp h.delivered

/-- **Every run writes each reply once at most, and to its own transport.** -/
theorem run_repliesInv {document : Document} {streamGeneration : ℕ}
    (hrun : Run.run step (start document streamGeneration) events = some s) : RepliesInv s :=
  Run.run_invariant (fun _ _ _ => repliesInv_of_step) hrun
    ⟨registered_start _ _, sound_start _ _⟩

/-- **A reply reaches its own transport, once and in order, and never harms another producer**, in
every run whose steps are orderly.  The first two hold of any run. -/
theorem reply_once_in_order {document : Document} {streamGeneration : ℕ}
    (hrun : Run.run step (start document streamGeneration) events = some s) :
    s.WrittenOnce ∧ s.OwnTransport ∧
      (Run.Along step (fun s e => s.orderly e = true) (start document streamGeneration) events →
        s.InOrder ∧ s.Isolated) := by
  have hinv := run_repliesInv hrun
  refine ⟨writtenOnce_of_sound hinv.sound, hinv.registered.written, ?_⟩
  intro halong
  have hstart : OrderlyInv (start document streamGeneration) :=
    ⟨⟨registered_start _ _, sound_start _ _⟩, ordered_start _ _, by simp [Isolated, start]⟩
  have horderly := Run.run_invariant_along (fun _ _ _ => orderlyInv_of_step) halong hrun hstart
  exact ⟨inOrder_of_ordered horderly.ordered, horderly.isolated⟩

end OutputState

/-! ### Three interleavings -/

section Sample

open OutputState

/-- The root runs as generation 1 on transport 10, an overlay as generation 2 on transport 20. -/
def bothRun : List OutputEvent :=
  [.nextGeneration, .register 1 10, .session true, .transport 10 true,
    .nextGeneration, .register 2 20, .transport 20 true]

/-- A block of a producer enters the pump. -/
def sends (generation sequence : ℕ) : List OutputEvent :=
  [.accept ⟨generation, sequence, [0x41]⟩ false, .enqueue generation]

/-- The root's block asks for a reply, the overlay's call drains it and writes it. -/
def carriedRun : List OutputEvent :=
  bothRun ++ sends 1 1 ++ sends 2 1 ++ [.commit [[0x52]] true, .commit [[0x53]] true] ++
    [.drain 2, .drain 1, .deliver 1] ++
    [.deliver 2, .write 2 true, .deliver 2, .write 2 true, .deliver 2]

/-- Both replies reach their own transport, although one call carries them. -/
theorem reply_once_in_order_carried : ∃ s,
    Run.run step (start {} 1) carriedRun = some s ∧
      s.written.map (fun d => (d.transport, d.reply.origin, d.reply.sequence)) =
        [(10, 1, 1), (20, 2, 2)] ∧
      s.WrittenOnce ∧ s.OwnTransport ∧ s.InOrder ∧ s.Isolated := by
  have hrun : (Run.run step (start {} 1) carriedRun).map (fun s =>
      s.written.map fun d => (d.transport, d.reply.origin, d.reply.sequence)) =
        some [(10, 1, 1), (20, 2, 2)] := by decide
  obtain ⟨s, hs, hwritten⟩ := Option.map_eq_some_iff.mp hrun
  have halong : Run.Along step (fun s e => s.orderly e = true) (start {} 1) carriedRun :=
    Run.along_of_check (fun _ _ h => h) (by decide)
  obtain ⟨honce, hown, horderly⟩ := reply_once_in_order hs
  exact ⟨s, hs, hwritten, honce, hown, horderly halong⟩

/-- The overlay's call drains the root's first reply; before it writes it, the root's next call has
written the second one. -/
def overtakenRun : List OutputEvent :=
  bothRun ++ sends 1 1 ++ sends 2 1 ++ [.commit [[0x52]] true, .commit [] true] ++
    [.drain 2, .drain 1, .deliver 1] ++
    sends 1 2 ++ [.commit [[0x53]] true, .drain 1, .deliver 1, .write 1 true, .deliver 1] ++
    [.deliver 2, .write 2 true]

/-- The root's call drains the overlay's reply; before it writes it, the overlay has stopped. -/
def stoppedRun : List OutputEvent :=
  bothRun ++ sends 2 1 ++ sends 1 1 ++ [.commit [[0x52]] true, .commit [] true] ++
    [.drain 1, .drain 2, .deliver 2, .transport 20 false, .deliver 1, .write 1 true]

/-- As before; the overlay's start has failed and its generation is removed. -/
def unregisteredRun : List OutputEvent :=
  bothRun ++ sends 2 1 ++ sends 1 1 ++ [.commit [[0x52]] true, .commit [] true] ++
    [.drain 1, .drain 2, .deliver 2, .transport 20 false, .unregister 2, .deliver 1]

/-- The root receives its second reply before its first; and the root's call fails because of an
overlay that has stopped, or was unregistered, while the root runs. -/
theorem overtaken_and_harmed :
    (∃ s, Run.run step (start {} 1) overtakenRun = some s ∧ ¬ s.InOrder) ∧
      (∃ s, Run.run step (start {} 1) stoppedRun = some s ∧ ¬ s.Isolated) ∧
      ∃ s, Run.run step (start {} 1) unregisteredRun = some s ∧ ¬ s.Isolated := by
  refine ⟨?_, ?_, ?_⟩
  · have hrun : (Run.run step (start {} 1) overtakenRun).map (fun s => decide s.InOrder) =
        some false := by decide
    obtain ⟨s, hs, hbad⟩ := Option.map_eq_some_iff.mp hrun
    exact ⟨s, hs, of_decide_eq_false hbad⟩
  · have hrun : (Run.run step (start {} 1) stoppedRun).map (fun s => decide s.Isolated) =
        some false := by decide
    obtain ⟨s, hs, hbad⟩ := Option.map_eq_some_iff.mp hrun
    exact ⟨s, hs, of_decide_eq_false hbad⟩
  · have hrun : (Run.run step (start {} 1) unregisteredRun).map (fun s => decide s.Isolated) =
        some false := by decide
    obtain ⟨s, hs, hbad⟩ := Option.map_eq_some_iff.mp hrun
    exact ⟨s, hs, of_decide_eq_false hbad⟩

end Sample

end VT7.Session
