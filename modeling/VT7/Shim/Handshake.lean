import VT7.Shim.Fallback
import VT7.Shim.Freshness

/-!
One shim process against the broker.

Nothing is assumed of the pipe between them: the frames that either side reads are arbitrary, and any
call of either side can fail at any point, so a frame may be delivered, cut, delayed past a timeout or
lost with the pipe.  The shim is the holder of the capability: a frame with a valid MAC that the broker
reads carries a string that the shim has MACed.

`handshake_safety`: the request is handled by the embedded client or by the system client, and never
by both.
-/

namespace VT7.Shim

open VT7.Lib VT7.Lib.Wire VT7.Dotnet

structure HandshakeState where
  shim : Program.ShimState
  broker : BrokerState

inductive HandshakeEvent
  | shim (e : Program.Event)
  | broker (e : BrokerEvent)

namespace HandshakeState

def start : HandshakeState where
  shim := Program.start
  broker := BrokerState.start

def step (os : Program.Native) (p : Program.Process) (cfg : BrokerConfig) (s : HandshakeState) :
    HandshakeEvent → Option HandshakeState
  | .shim e => (s.shim.step os p e).map fun shim => { s with shim }
  | .broker e => (s.broker.step cfg e).map fun broker => { s with broker }

/-- A string with a valid MAC behind it was MACed by the shim. -/
def Unforged (cfg : BrokerConfig) (s : HandshakeState) (body : Bytes) : Prop :=
  ∀ (c : Bytes) (t : Mac), body = c ++ t.1 → t = cfg.hmacSha256 cfg.capability c → c ∈ s.shim.maced

/-- HMAC is unforgeable, and the capability is known to the shim only. -/
def Admissible (cfg : BrokerConfig) (s : HandshakeState) : HandshakeEvent → Prop
  | .broker (.received body) => s.Unforged cfg body
  | _ => True

structure HandshakeInv (os : Program.Native) (p : Program.Process) (cfg : BrokerConfig)
    (s : HandshakeState) : Prop where
  shim : s.shim.Coherent os p
  broker : s.broker.BrokerInv cfg
  frames : ∀ f ∈ s.broker.frames, s.Unforged cfg f.2

variable {os : Program.Native} {p : Program.Process} {cfg : BrokerConfig} {s s' : HandshakeState}
  {e : HandshakeEvent}

lemma handshakeInv_start : HandshakeInv os p cfg start := by
  refine ⟨Program.ShimState.coherent_start, BrokerState.brokerInv_start, ?_⟩
  intro f hf
  cases hf

/-- The frames of the broker grow by what it reads. -/
lemma frames_of_move {b b' : BrokerState} {e : BrokerEvent} (h : BrokerState.Move cfg b e b') :
    b'.frames = b.frames ∨ ∃ n body, e = .received body ∧ b'.frames = b.frames ++ [(n, body)] := by
  cases h with
  | connect | decide | handle | go => exact Or.inl rfl
  | read | accept | acknowledge => exact Or.inr ⟨_, _, rfl, rfl⟩

theorem handshakeInv_of_step (hgood : Admissible cfg s e) (h : step os p cfg s e = some s')
    (hi : HandshakeInv os p cfg s) : HandshakeInv os p cfg s' := by
  cases e with
  | shim e =>
    obtain ⟨t, ht, rfl⟩ := Option.map_eq_some_iff.mp h
    refine ⟨Program.ShimState.coherent_of_step ht hi.shim, hi.broker, ?_⟩
    intro f hf c m hbody hm
    exact Program.ShimState.maced_of_step ht (hi.frames f hf c m hbody hm)
  | broker e =>
    obtain ⟨b, hb, rfl⟩ := Option.map_eq_some_iff.mp h
    refine ⟨hi.shim, BrokerState.brokerInv_of_step hb hi.broker, ?_⟩
    rcases frames_of_move (BrokerState.move_of_step hb) with hsame | ⟨n, body, rfl, hnew⟩
    · show ∀ f ∈ b.frames, _
      rw [hsame]
      exact hi.frames
    · show ∀ f ∈ b.frames, _
      rw [hnew]
      exact BrokerState.forall_mem_concat hi.frames hgood

theorem handshakeInv_of_run {es : List HandshakeEvent}
    (hgood : Run.Along (step os p cfg) (Admissible cfg) start es)
    (hrun : Run.run (step os p cfg) start es = some s) : HandshakeInv os p cfg s :=
  Run.run_invariant_along (fun _ _ _ hgood h hi => handshakeInv_of_step hgood h hi) hgood hrun
    handshakeInv_start

/-- A MACed acknowledgement means that the shim follows an `Embedded` decision. -/
lemma embedded_of_maced {t : Program.ShimState} (hi : t.Coherent os p) {requestId : Guid}
    {serverNonce : Nonce} (h : Program.canonicalBarrier requestId serverNonce ∈ t.maced) :
    ∃ r, t.decisions = [r] ∧ r.action = .embedded := by
  rcases hi.maced _ h with ⟨challenge, hrequest⟩ | ⟨challenge, r, hr, haction, -⟩
  · have hword := (Program.canonicalRequest_eq_ok_iff.mp hrequest).2
    exact absurd (Option.some.inj (congrArg List.head? hword)) (by decide)
  · exact ⟨r, hr, haction⟩

/-- A shim that has started the system client has no decision, or a `System` decision. -/
lemma system_of_launches {t : Program.ShimState} (hi : t.Coherent os p) (h : t.launches ≠ []) :
    ∀ r ∈ t.decisions, r.action = .system := by
  rcases hi.launched with hnone | ⟨path, hash, files, sha256, -, -, hsource⟩
  · exact absurd hnone h
  · intro r hr
    rcases hsource with ⟨hd, -⟩ | ⟨r', hd, haction, -⟩
    · rw [hd] at hr
      cases hr
    · rw [hd] at hr
      obtain rfl := List.mem_singleton.mp hr
      exact haction

end HandshakeState

open HandshakeState

/-- **Handshake safety.**  In every run of a shim process and the broker: the embedded handler and the
system client are not both started; the system client is started at most once, and not by a shim
that has an `Embedded` or a `Reject` decision; and the handler runs only behind an acknowledgement
that the shim MACed for the identifier of an `Embedded` decision of the broker and for the server nonce
of that connection. -/
theorem handshake_safety {os : Program.Native} {p : Program.Process} {cfg : BrokerConfig}
    {es : List HandshakeEvent} {s : HandshakeState}
    (hgood : Run.Along (step os p cfg) (Admissible cfg) start es)
    (hrun : Run.run (step os p cfg) start es = some s) :
    (s.broker.handled = [] ∨ s.shim.launches = []) ∧
    s.shim.launches.length ≤ 1 ∧
    (∀ r ∈ s.shim.decisions, r.action = .embedded ∨ r.action = .reject → s.shim.launches = []) ∧
    ∀ k ∈ s.broker.handled,
      s.broker.Decided k.connection k.requestId .embedded ∧
      s.broker.nonces[k.connection.number]? = some k.connection.serverNonce ∧
      (k.connection.number, k.body) ∈ s.broker.frames ∧
      k.body = Program.authenticated cfg.hmacSha256 cfg.capability
        (Program.canonicalBarrier k.requestId k.connection.serverNonce) ∧
      Program.canonicalBarrier k.requestId k.connection.serverNonce ∈ s.shim.maced := by
  have hi := handshakeInv_of_run hgood hrun
  have hack : ∀ k ∈ s.broker.handled,
      Program.canonicalBarrier k.requestId k.connection.serverNonce ∈ s.shim.maced := by
    intro k hk
    obtain ⟨hknown, hauth, -⟩ := hi.broker.acknowledged k (hi.broker.handled k hk)
    exact hi.frames _ hknown.2 _ _ hauth rfl
  refine ⟨?_, ?_, ?_, ?_⟩
  · by_contra hboth
    rw [not_or] at hboth
    obtain ⟨k, hk⟩ := List.exists_mem_of_ne_nil _ hboth.1
    obtain ⟨r, hr, haction⟩ := embedded_of_maced hi.shim (hack k hk)
    have hsystem := system_of_launches hi.shim hboth.2 r (hr ▸ List.mem_singleton_self r)
    rw [haction] at hsystem
    cases hsystem
  · rcases hi.shim.launched with hnone | ⟨path, hash, files, sha256, hone, -⟩
    · rw [hnone]
      exact Nat.zero_le 1
    · rw [hone]
      exact le_rfl
  · intro r hr haction
    by_contra hlaunched
    rw [system_of_launches hi.shim hlaunched r hr] at haction
    rcases haction with h | h <;> cases h
  · intro k hk
    obtain ⟨hknown, hauth, hdecided⟩ := hi.broker.acknowledged k (hi.broker.handled k hk)
    exact ⟨hdecided, hknown.1, hknown.2, hauth, hack k hk⟩

/-! ### Runs on fixed inputs -/

namespace HandshakeState

/-- `Unforged`, computed: only the last 32 bytes can be a MAC. -/
def unforgedCheck (cfg : BrokerConfig) (s : HandshakeState) (body : Bytes) : Bool :=
  let c := body.take (body.length - 32)
  body.length < 32 || (cfg.hmacSha256 cfg.capability c).1 != body.drop (body.length - 32) ||
    s.shim.maced.contains c

def admissibleCheck (cfg : BrokerConfig) (s : HandshakeState) : HandshakeEvent → Bool
  | .broker (.received body) => unforgedCheck cfg s body
  | _ => true

lemma admissible_of_check {cfg : BrokerConfig} {s : HandshakeState} {e : HandshakeEvent}
    (h : admissibleCheck cfg s e = true) : Admissible cfg s e := by
  unfold admissibleCheck at h
  split at h
  · rintro c t rfl rfl
    have hlen : (c ++ (cfg.hmacSha256 cfg.capability c).1).length - 32 = c.length := by
      rw [List.length_append, (cfg.hmacSha256 _ _).2, Nat.add_sub_cancel]
    unfold unforgedCheck at h
    dsimp only at h
    rw [hlen, List.take_left' rfl, List.drop_left' rfl, Bool.or_eq_true, Bool.or_eq_true,
      decide_eq_true_eq, bne_self_eq_false, List.length_append, (cfg.hmacSha256 _ _).2] at h
    rcases h with (h | h) | h
    · omega
    · cases h
    · exact List.contains_iff_mem.mp h
  · next h₁ =>
    unfold Admissible
    split
    · next body => exact absurd rfl (h₁ body)
    · trivial

end HandshakeState

/-- The broker's response to the sample request. -/
def embeddedResponse : Bytes :=
  ((SshShimProtocol.response .embedded 0 sampleAnswers.requestId (BrokerState.ascii "eligible")
    (BrokerState.barrierText [0x61] sampleAnswers.requestId) []).toOption).getD []

/-- A request that the broker takes over, up to the start of its handler. -/
def acceptedRun : List HandshakeEvent :=
  [.shim .proceed, .shim .proceed, .shim .proceed, .shim .proceed,
    .broker (.connected sampleChallenge.serverNonce 42), .broker (.received (Program.hello sampleFacts)),
    .broker .wrote, .shim (.received (SshShimProtocol.challenge 1 sampleChallenge.serverNonce)),
    .shim .proceed, .shim .proceed,
    .broker (.received (Program.authenticated sampleMac sampleCapability
      (Program.requestWord sampleFacts sampleChallenge))),
    .broker (.associated sampleAnswers), .broker .wrote, .shim (.received embeddedResponse),
    .shim .proceed, .shim .proceed,
    .broker (.received (Program.authenticated sampleMac sampleCapability
      (Program.canonicalBarrier sampleAnswers.requestId sampleChallenge.serverNonce))),
    .broker .committed]

theorem handshake_safety_accepted :
    ∃ s, Run.run (step Program.sampleNative Program.sampleProcess sampleConfig) start acceptedRun = some s ∧
      s.broker.handled.length = 1 ∧ s.shim.launches = [] := by
  have hlogs : (Run.run (step Program.sampleNative Program.sampleProcess sampleConfig) start acceptedRun).map
      (fun s => s.broker.handled.length) = some 1 := by decide +kernel
  have hgood : Run.checkAlong (step Program.sampleNative Program.sampleProcess sampleConfig)
      (admissibleCheck sampleConfig) start acceptedRun = true := by decide +kernel
  obtain ⟨s, hrun, hs⟩ := Option.map_eq_some_iff.mp hlogs
  have h := handshake_safety (Run.along_of_check (fun _ _ => admissible_of_check) hgood) hrun
  refine ⟨s, hrun, hs, h.1.resolve_left fun hnone => ?_⟩
  rw [hnone] at hs
  cases hs

end VT7.Shim
