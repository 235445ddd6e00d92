import VT7.Shim.Broker

/-!
Freshness of the broker's decisions against an adversary on the pipe.

The capability holders of a session are its shims: what they MAC is a request for the challenge they
were given, or an acknowledgement.  The adversary chooses every frame the broker reads; HMAC is
unforgeable, so a frame with a valid MAC carries a byte string that a holder MACed before.  Server
nonces are fresh when a connection draws them.

A hello carries no MAC and can be replayed (`hello_replayed`).  Requests and acknowledgements cannot
(`request_freshness`).
-/

namespace VT7.Shim

open VT7.Lib VT7.Lib.Wire VT7.Dotnet

/-- What a capability holder MACs. -/
inductive Origin
  | request (facts : Program.Facts) (challenge : Program.Challenge)
  | barrier (requestId : Guid) (serverNonce : Nonce)

namespace Origin

/-- The byte string under the MAC. -/
def bytes : Origin → Except String Bytes
  | request facts challenge => Program.canonicalRequest facts challenge
  | barrier requestId serverNonce => .ok (Program.canonicalBarrier requestId serverNonce)

/-- The server nonce it was MACed for. -/
def serverNonce : Origin → Nonce
  | request _ challenge => challenge.serverNonce
  | barrier _ serverNonce => serverNonce

end Origin

/-! ### The nonce in a MACed string -/

/-- Where a request and an acknowledgement hold their server nonce. -/
def nonceAt (canonical : Bytes) : Option Bytes :=
  if canonical.head? = some SshShimMessage.request.value then some ((canonical.drop 31).take 16)
  else if canonical.head? = some SshShimMessage.barrierWritten.value then some ((canonical.drop 17).take 16)
  else none

lemma take_drop_middle {α : Type} {front middle : List α} (rest : List α) {n m : ℕ} (hn : front.length = n)
    (hm : middle.length = m) : ((front ++ (middle ++ rest)).drop n).take m = middle := by
  rw [List.drop_left' hn, List.take_left' hm]

lemma nonceAt_requestWord (facts : Program.Facts) (challenge : Program.Challenge) :
    nonceAt (Program.requestWord facts challenge) = some challenge.serverNonce.1 := by
  have hword : ∃ rest, Program.requestWord facts challenge =
      ([Program.Message.request.value] ++ (leBytes 2 Program.protocolVersion.toBitVec ++
        (leBytes 4 facts.pid.toBitVec ++ (leBytes 8 facts.creationTime.toBitVec ++ facts.clientNonce.1)))) ++
        (challenge.serverNonce.1 ++ rest) := by
    simp only [Program.requestWord, List.append_assoc]
    exact ⟨_, rfl⟩
  obtain ⟨rest, hrest⟩ := hword
  have hlen : ([Program.Message.request.value] ++ (leBytes 2 Program.protocolVersion.toBitVec ++
      (leBytes 4 facts.pid.toBitVec ++ (leBytes 8 facts.creationTime.toBitVec ++
        facts.clientNonce.1)))).length = 31 := by
    simp only [List.length_append, List.length_singleton, leBytes_length, facts.clientNonce.2]
  rw [nonceAt, hrest, take_drop_middle _ hlen challenge.serverNonce.2]
  rfl

lemma nonceAt_canonicalBarrier (requestId : Guid) (serverNonce : Nonce) :
    nonceAt (Program.canonicalBarrier requestId serverNonce) = some serverNonce.1 := by
  have hlen : (Program.Message.barrierWritten.value :: requestId.1).length = 17 := by
    rw [List.length_cons, requestId.2]
  have hdrop := take_drop_middle [] hlen serverNonce.2
  rw [List.append_nil] at hdrop
  rw [nonceAt, if_neg, if_pos]
  · exact congrArg some hdrop
  · rfl
  · exact fun h => absurd (Option.some.inj h) (by decide)

/-- A MACed string holds the nonce that it was MACed for. -/
lemma Origin.nonceAt_bytes {o : Origin} {c : Bytes} (h : o.bytes = .ok c) :
    nonceAt c = some o.serverNonce.1 := by
  cases o with
  | request facts challenge =>
    obtain ⟨-, rfl⟩ := Program.canonicalRequest_eq_ok_iff.mp h
    exact nonceAt_requestWord facts challenge
  | barrier requestId serverNonce =>
    cases h
    exact nonceAt_canonicalBarrier requestId serverNonce

/-! ### The broker among holders and an adversary -/

structure FreshState where
  broker : BrokerState
  /-- Everything that holders have MACed under the capability. -/
  maced : List Origin

inductive FreshEvent
  | broker (e : BrokerEvent)
  /-- A holder MACs a string. -/
  | mac (o : Origin)

namespace FreshState

def start : FreshState where
  broker := BrokerState.start
  maced := []

def step (cfg : BrokerConfig) (s : FreshState) : FreshEvent → Option FreshState
  | .broker e => (s.broker.step cfg e).map fun broker => { s with broker }
  | .mac o =>
    match o.bytes with
    | .ok _ => some { s with maced := s.maced ++ [o] }
    | .error _ => none

/-- A holder has MACed this string. -/
def Maced (s : FreshState) (c : Bytes) : Prop := ∃ o ∈ s.maced, o.bytes = .ok c

/-- The string with a valid MAC behind it was MACed by a holder. -/
def Presented (cfg : BrokerConfig) (s : FreshState) (body : Bytes) : Prop :=
  ∀ (c : Bytes) (t : Mac), body = c ++ t.1 → t = cfg.hmacSha256 cfg.capability c → s.Maced c

/-- **The adversary's limits**: server nonces are fresh, and MACs are not forged. -/
def Admissible (cfg : BrokerConfig) (s : FreshState) : FreshEvent → Prop
  | .broker (.connected serverNonce _) =>
    serverNonce ∉ s.broker.nonces ∧ ∀ o ∈ s.maced, o.serverNonce ≠ serverNonce
  | .broker (.received body) => s.Presented cfg body
  | _ => True

/-- **The invariant**: every frame was within the adversary's limits, and a frame of a connection was
MACed before the later connections drew their nonces. -/
structure FreshInv (cfg : BrokerConfig) (s : FreshState) : Prop where
  broker : BrokerState.BrokerInv cfg s.broker
  distinct : s.broker.nonces.Nodup
  presented : ∀ f ∈ s.broker.frames, s.Presented cfg f.2
  earlier : ∀ f ∈ s.broker.frames, ∀ (c : Bytes) (t : Mac), f.2 = c ++ t.1 →
    t = cfg.hmacSha256 cfg.capability c → ∀ (j : ℕ) (n : Nonce), f.1 < j →
      s.broker.nonces[j]? = some n → nonceAt c ≠ some n.1

variable {cfg : BrokerConfig} {s s' : FreshState} {e : FreshEvent}

lemma freshInv_start : FreshInv cfg start := by
  refine ⟨BrokerState.brokerInv_start, List.nodup_nil, ?_, ?_⟩
  · intro f hf
    cases hf
  · intro f hf
    cases hf

lemma Presented.mono {body : Bytes} {os : List Origin} (h : s.Presented cfg body) :
    Presented cfg { s with maced := s.maced ++ os } body := by
  intro c t hbody ht
  obtain ⟨o, ho, hbytes⟩ := h c t hbody ht
  exact ⟨o, List.mem_append_left _ ho, hbytes⟩

/-- A frame of the connection that is being served: no nonce is drawn after it yet. -/
lemma FreshInv.of_frame (hi : FreshInv cfg s) {c₀ : Connection} {body : Bytes}
    (hc : BrokerState.connectionOf s.broker.phase = some c₀) (hbody : s.Presented cfg body)
    (hinv : BrokerState.BrokerInv cfg s'.broker) (hn : s'.broker.nonces = s.broker.nonces)
    (hf : s'.broker.frames = s.broker.frames ++ [(c₀.number, body)]) (hm : s'.maced = s.maced) :
    FreshInv cfg s' := by
  have hmaced : ∀ {c : Bytes}, s.Maced c → s'.Maced c := by
    rintro c ⟨o, ho, hbytes⟩
    exact ⟨o, hm ▸ ho, hbytes⟩
  refine ⟨hinv, hn ▸ hi.distinct, ?_, ?_⟩
  · rw [hf]
    refine BrokerState.forall_mem_concat ?_ fun c t h ht => hmaced (hbody c t h ht)
    exact fun f hmem c t h ht => hmaced (hi.presented f hmem c t h ht)
  · rw [hf, hn]
    refine BrokerState.forall_mem_concat hi.earlier ?_
    intro c t _ _ j n hj hget
    obtain ⟨hlt, -⟩ := List.getElem?_eq_some_iff.mp hget
    have hcur := (hi.broker.current c₀ hc).1
    have hcount := hi.broker.count
    dsimp only at hj
    omega

/-- **Every admissible step keeps the invariant.** -/
theorem freshInv_of_step (hgood : Admissible cfg s e) (h : step cfg s e = some s') (hi : FreshInv cfg s) :
    FreshInv cfg s' := by
  cases e with
  | mac o =>
    simp only [step] at h
    split at h <;> cases h
    exact ⟨hi.broker, hi.distinct, fun f hf => (hi.presented f hf).mono, hi.earlier⟩
  | broker e =>
    obtain ⟨b, hb, rfl⟩ := Option.map_eq_some_iff.mp h
    have hinv := BrokerState.brokerInv_of_step hb hi.broker
    cases BrokerState.move_of_step hb with
    | connect serverNonce clientPid hphase =>
      refine ⟨hinv, ?_, hi.presented, ?_⟩
      · refine List.nodup_append.mpr ⟨hi.distinct, List.pairwise_singleton _ _, ?_⟩
        intro n hn m hm
        obtain rfl := List.mem_singleton.mp hm
        rintro rfl
        exact hgood.1 hn
      intro f hf c t hbody ht j n hj hn
      rcases Nat.lt_or_ge j s.broker.nonces.length with hold | hnew
      · rw [List.getElem?_append_left hold] at hn
        exact hi.earlier f hf c t hbody ht j n hj hn
      · -- the new nonce is in nothing that was MACed before
        have hmem : n = serverNonce := by
          rw [List.getElem?_append_right hnew] at hn
          exact List.mem_singleton.mp (List.mem_of_getElem? hn)
        obtain ⟨o, ho, hbytes⟩ := hi.presented f hf c t hbody ht
        rw [Origin.nonceAt_bytes hbytes, hmem]
        intro heq
        exact hgood.2 o ho (Subtype.ext (Option.some.inj heq))
    | read hc hplain => exact hi.of_frame hc hgood hinv rfl rfl rfl
    | accept hphase | acknowledge hphase => exact hi.of_frame (by rw [hphase]; rfl) hgood hinv rfl rfl rfl
    | decide | handle | go => exact ⟨hinv, hi.distinct, hi.presented, hi.earlier⟩

theorem freshInv_of_run {es : List FreshEvent} (hgood : Run.Along (step cfg) (Admissible cfg) start es)
    (hrun : Run.run (step cfg) start es = some s) : FreshInv cfg s :=
  Run.run_invariant_along (fun _ _ _ hgood h hi => freshInv_of_step hgood h hi) hgood hrun freshInv_start

/-! ### What an accepted frame is -/

/-- What an accepted request was MACed for: this connection's challenge, and what its hello claims. -/
structure MacedFor (cfg : BrokerConfig) (s : FreshState) (a : AcceptedRequest) (facts : Program.Facts)
    (challenge : Program.Challenge) : Prop where
  maced : Origin.request facts challenge ∈ s.maced
  canonical : Program.canonicalRequest facts challenge = .ok a.request.canonicalBytes
  body : a.body = Program.authenticated cfg.hmacSha256 cfg.capability a.request.canonicalBytes
  serverNonce : challenge.serverNonce = a.connection.serverNonce
  clientNonce : facts.clientNonce = a.hello.clientNonce
  generation : challenge.generation.toInt64 = cfg.generation
  claimed : a.hello.processId = a.connection.clientPid
  pid : facts.pid = a.hello.processId
  creationTime : facts.creationTime.toInt64 = a.hello.creationTime

lemma matchesChallenge_eq_true {c : Connection} {hello : Hello} {request : SshShimRequest}
    (h : BrokerState.matchesChallenge cfg c hello request = true) :
    request.processId = c.clientPid ∧ request.creationTime = hello.creationTime ∧
      request.clientNonce = hello.clientNonce ∧ request.serverNonce = c.serverNonce ∧
      request.generation = cfg.generation := by
  simp only [BrokerState.matchesChallenge, Bool.and_eq_true, beq_iff_eq] at h
  obtain ⟨⟨⟨⟨⟨-, hpid⟩, hcreation⟩, hclient⟩, hserver⟩, hgeneration⟩ := h
  exact ⟨hpid, hcreation, hclient, hserver, hgeneration⟩

/-- An acknowledgement is no request. -/
lemma readRequest_canonicalBarrier {canonical rest t : Bytes} {requestId : Guid} {serverNonce : Nonce}
    {r : SshShimRequest} (h : SshShimProtocol.readRequest canonical
      (Program.canonicalBarrier requestId serverNonce ++ rest) = .ok (r, t)) : False := by
  unfold SshShimProtocol.readRequest at h
  obtain ⟨b, u, hb, h⟩ := bind_eq_ok h
  obtain ⟨htype, -⟩ := require_bind_eq_ok h
  have hs := SshShimProtocol.readByte_eq_ok hb
  rw [Program.canonicalBarrier, List.cons_append, List.cons.injEq] at hs
  rw [← hs.1] at htype
  exact absurd htype (by decide)

/-- **An accepted request rests on a MAC for its own connection.** -/
theorem FreshInv.macedFor (hi : FreshInv cfg s) {a : AcceptedRequest} (ha : a ∈ s.broker.accepted) :
    ∃ facts challenge, MacedFor cfg s a facts challenge := by
  obtain ⟨hknown, hauth⟩ := hi.broker.accepted a ha
  obtain ⟨hbody, hread⟩ := SshShimProtocol.parseRequest_eq_ok hauth.parsed
  obtain ⟨hpid, hcreation, hclient, hserver, hgeneration⟩ := matchesChallenge_eq_true hauth.matched
  obtain ⟨o, ho, hbytes⟩ := hi.presented _ hknown.2 _ _ hbody hauth.mac
  rw [hbody] at hread
  cases o with
  | request facts challenge =>
    have hword := (Program.canonicalRequest_eq_ok_iff.mp hbytes).2
    nth_rewrite 2 [hword] at hread
    obtain ⟨fpid, fcreation, fclient, fserver, fgeneration⟩ :=
      SshShimProtocol.readRequest_requestWord hread
    refine ⟨facts, challenge, ho, hbytes, ?_, fserver.symm.trans hserver, fclient.symm.trans hclient,
      fgeneration.symm.trans hgeneration, hauth.claimed, ?_, fcreation.symm.trans hcreation⟩
    · rw [Program.authenticated, ← hauth.mac]
      exact hbody
    · exact (fpid.symm.trans hpid).trans hauth.claimed.symm
  | barrier requestId serverNonce =>
    exfalso
    have hword := Except.ok.inj hbytes
    nth_rewrite 2 [← hword] at hread
    exact readRequest_canonicalBarrier hread

/-- The bytes of an acknowledgement say which request it acknowledges, and on which connection. -/
lemma canonicalBarrier_inj {id id' : Guid} {nonce nonce' : Nonce} {t t' : Bytes}
    (h : Program.canonicalBarrier id nonce ++ t = Program.canonicalBarrier id' nonce' ++ t') :
    id = id' ∧ nonce = nonce' := by
  simp only [Program.canonicalBarrier, List.cons_append, List.append_assoc, List.cons.injEq,
    true_and] at h
  obtain ⟨hid, hrest⟩ := List.append_inj h (id.2.trans id'.2.symm)
  exact ⟨Subtype.ext hid, Subtype.ext (List.append_inj hrest (nonce.2.trans nonce'.2.symm)).1⟩

/-- **An accepted acknowledgement was MACed for its request and its connection.** -/
theorem FreshInv.acknowledged (hi : FreshInv cfg s) {k : Acknowledgement}
    (hk : k ∈ s.broker.acknowledged) :
    Origin.barrier k.requestId k.connection.serverNonce ∈ s.maced := by
  obtain ⟨hknown, hauth, -⟩ := hi.broker.acknowledged k hk
  obtain ⟨o, ho, hbytes⟩ := hi.presented _ hknown.2 _ _ hauth rfl
  cases o with
  | request facts challenge =>
    have hword := (Program.canonicalRequest_eq_ok_iff.mp hbytes).2
    have hhead := congrArg List.head? hword
    exact absurd (Option.some.inj hhead) (by decide)
  | barrier requestId serverNonce =>
    have hsame : Program.canonicalBarrier requestId serverNonce ++ [] =
        Program.canonicalBarrier k.requestId k.connection.serverNonce ++ [] :=
      congrArg (· ++ []) (Except.ok.inj hbytes)
    obtain ⟨rfl, rfl⟩ := canonicalBarrier_inj hsame
    exact ho

/-- **No authenticated frame comes from an earlier connection.** -/
theorem FreshInv.not_replayed (hi : FreshInv cfg s) {c : Connection} {body canonical : Bytes}
    (hknown : s.broker.Known c body)
    (hbody : body = Program.authenticated cfg.hmacSha256 cfg.capability canonical)
    (hnonce : nonceAt canonical = some c.serverNonce.1) :
    ∀ f ∈ s.broker.frames, f.1 < c.number → f.2 ≠ body := by
  intro f hf hlt heq
  exact hi.earlier f hf canonical _ (heq.trans hbody) rfl c.number c.serverNonce hlt hknown.1 hnonce

end FreshState

open FreshState

/-- **Freshness.**  In every run against an adversary who forges no MAC: the broker makes a decision
only on an accepted request; an accepted request was MACed by a holder for this connection's server
nonce, client nonce and generation and for the process that the hello claims; no accepted request or
acknowledgement was read on an earlier connection; and an accepted acknowledgement was MACed for its
own request and connection, and is one for no other. -/
theorem request_freshness {cfg : BrokerConfig} {es : List FreshEvent} {s : FreshState}
    (hgood : Run.Along (step cfg) (Admissible cfg) start es)
    (hrun : Run.run (step cfg) start es = some s) :
    s.broker.nonces.Nodup ∧
    (∀ d ∈ s.broker.decisions, d.toAcceptedRequest ∈ s.broker.accepted) ∧
    (∀ a ∈ s.broker.accepted, (∃ facts challenge, MacedFor cfg s a facts challenge) ∧
      s.broker.nonces[a.connection.number]? = some a.connection.serverNonce ∧
      (∀ f ∈ s.broker.frames, f.1 < a.connection.number → f.2 ≠ a.body) ∧
      ∀ (o : Origin) (c : Bytes), o.bytes = .ok c →
        Program.authenticated cfg.hmacSha256 cfg.capability c = a.body →
          o.serverNonce = a.connection.serverNonce) ∧
    (∀ k ∈ s.broker.handled, k ∈ s.broker.acknowledged) ∧
    (∀ k ∈ s.broker.acknowledged,
      Origin.barrier k.requestId k.connection.serverNonce ∈ s.maced ∧
      s.broker.nonces[k.connection.number]? = some k.connection.serverNonce ∧
      (∀ f ∈ s.broker.frames, f.1 < k.connection.number → f.2 ≠ k.body) ∧
      ∀ (id : Guid) (nonce : Nonce),
        Program.authenticated cfg.hmacSha256 cfg.capability (Program.canonicalBarrier id nonce) = k.body →
          id = k.requestId ∧ nonce = k.connection.serverNonce) := by
  have hi := freshInv_of_run hgood hrun
  refine ⟨hi.distinct, hi.broker.decisions, ?_, hi.broker.handled, ?_⟩
  · intro a ha
    obtain ⟨hknown, -⟩ := hi.broker.accepted a ha
    obtain ⟨facts, challenge, hmaced⟩ := hi.macedFor ha
    have hnonce : nonceAt a.request.canonicalBytes = some a.connection.serverNonce.1 := by
      rw [Origin.nonceAt_bytes (o := .request facts challenge) hmaced.canonical, ← hmaced.serverNonce]
      rfl
    refine ⟨⟨facts, challenge, hmaced⟩, hknown.1, hi.not_replayed hknown hmaced.body hnonce, ?_⟩
    intro o c hc hframe
    -- the frame ends with 32 bytes of MAC, so the MACed strings are the same
    have hsame : c = a.request.canonicalBytes :=
      (List.append_inj' (hframe.trans hmaced.body) ((cfg.hmacSha256 _ _).2.trans (cfg.hmacSha256 _ _).2.symm)).1
    have ho := Origin.nonceAt_bytes hc
    rw [hsame, hnonce] at ho
    exact Subtype.ext (Option.some.inj ho).symm
  · intro k hk
    obtain ⟨hknown, hauth, -⟩ := hi.broker.acknowledged k hk
    refine ⟨hi.acknowledged hk, hknown.1,
      hi.not_replayed hknown hauth (nonceAt_canonicalBarrier _ _), ?_⟩
    intro id nonce hframe
    exact canonicalBarrier_inj (hframe.trans hauth)

/-! ### Runs on fixed inputs -/

namespace FreshState

/-- `Presented`, computed: only the last 32 bytes can be a MAC. -/
def presentedCheck (cfg : BrokerConfig) (s : FreshState) (body : Bytes) : Bool :=
  let c := body.take (body.length - 32)
  body.length < 32 || (cfg.hmacSha256 cfg.capability c).1 != body.drop (body.length - 32) ||
    s.maced.any fun o => match o.bytes with
      | .ok bytes => bytes == c
      | .error _ => false

def admissibleCheck (cfg : BrokerConfig) (s : FreshState) : FreshEvent → Bool
  | .broker (.connected serverNonce _) =>
    !s.broker.nonces.contains serverNonce && s.maced.all fun o => o.serverNonce != serverNonce
  | .broker (.received body) => presentedCheck cfg s body
  | _ => true

lemma presented_of_check {cfg : BrokerConfig} {s : FreshState} {body : Bytes}
    (h : presentedCheck cfg s body = true) : s.Presented cfg body := by
  rintro c t rfl rfl
  have hlen : (c ++ (cfg.hmacSha256 cfg.capability c).1).length - 32 = c.length := by
    rw [List.length_append, (cfg.hmacSha256 _ _).2, Nat.add_sub_cancel]
  unfold presentedCheck at h
  dsimp only at h
  rw [hlen, List.take_left' rfl, List.drop_left' rfl, Bool.or_eq_true, Bool.or_eq_true,
    decide_eq_true_eq, bne_self_eq_false, List.length_append, (cfg.hmacSha256 _ _).2] at h
  rcases h with (h | h) | h
  · omega
  · cases h
  · obtain ⟨o, ho, hbytes⟩ := List.any_eq_true.mp h
    refine ⟨o, ho, ?_⟩
    split at hbytes
    · next bytes heq => rw [heq, beq_iff_eq.mp hbytes]
    · cases hbytes

lemma admissible_of_check {cfg : BrokerConfig} {s : FreshState} {e : FreshEvent}
    (h : admissibleCheck cfg s e = true) : Admissible cfg s e := by
  unfold admissibleCheck at h
  split at h
  · rw [Bool.and_eq_true, Bool.not_eq_eq_eq_not, Bool.not_true, List.all_eq_true] at h
    refine ⟨fun hmem => ?_, fun o ho => bne_iff_ne.mp (h.2 o ho)⟩
    rw [List.contains_iff_mem.mpr hmem] at h
    cases h.1
  · exact presented_of_check h
  · next h₁ h₂ =>
    unfold Admissible
    split
    · next n p => exact absurd rfl (h₁ n p)
    · next body => exact absurd rfl (h₂ body)
    · trivial

end FreshState

def sampleConfig : BrokerConfig where
  capability := sampleCapability
  generation := 1
  externalPath := []
  externalHash := []
  continuous := true
  hmacSha256 := sampleMac

lemma length_sampleRequestId : (List.replicate 16 (4 : UInt8)).length = 16 :=
  List.length_replicate

def sampleAnswers : Association where
  rootPid := 17
  actualCreation := 7
  rootCreation := 5
  descendant := true
  grammar := .ok [0x61]
  requestId := ⟨List.replicate 16 4, length_sampleRequestId⟩

/-- A shim asks, is accepted, and its acknowledgement releases the handler. -/
def embeddedRun : List FreshEvent :=
  [.broker (.connected sampleChallenge.serverNonce 42), .broker (.received (Program.hello sampleFacts)),
    .broker .wrote, .mac (.request sampleFacts sampleChallenge),
    .broker (.received (Program.authenticated sampleMac sampleCapability
      (Program.requestWord sampleFacts sampleChallenge))),
    .broker (.associated sampleAnswers), .broker .wrote,
    .mac (.barrier sampleAnswers.requestId sampleChallenge.serverNonce),
    .broker (.received (Program.authenticated sampleMac sampleCapability
      (Program.canonicalBarrier sampleAnswers.requestId sampleChallenge.serverNonce))),
    .broker .committed]

theorem request_freshness_embedded :
    ∃ s, Run.run (step sampleConfig) start embeddedRun = some s ∧ s.broker.decisions.length = 1 ∧
      s.broker.handled.length = 1 ∧
      ∀ a ∈ s.broker.accepted, ∃ facts challenge, MacedFor sampleConfig s a facts challenge := by
  have hlogs : (Run.run (step sampleConfig) start embeddedRun).map
      (fun s => (s.broker.decisions.length, s.broker.handled.length)) = some (1, 1) := by decide +kernel
  have hgood : Run.checkAlong (step sampleConfig) (admissibleCheck sampleConfig) start embeddedRun = true := by
    decide +kernel
  obtain ⟨s, hrun, hs⟩ := Option.map_eq_some_iff.mp hlogs
  have h := request_freshness (Run.along_of_check (fun _ _ => admissible_of_check) hgood) hrun
  exact ⟨s, hrun, congrArg Prod.fst hs, congrArg Prod.snd hs, fun a ha => (h.2.2.1 a ha).1⟩

/-- The hello of one connection, sent again on the next one. -/
def replayedRun : List FreshEvent :=
  [.broker (.connected sampleChallenge.serverNonce 42), .broker (.received (Program.hello sampleFacts)),
    .broker .raised, .broker (.connected ⟨List.replicate 16 9, rfl⟩ 42),
    .broker (.received (Program.hello sampleFacts))]

/-- A hello carries no MAC and no nonce of the host: a second connection of the same process answers a
recorded one with its challenge. -/
theorem hello_replayed :
    Run.Along (step sampleConfig) (Admissible sampleConfig) start replayedRun ∧
      ∃ s, Run.run (step sampleConfig) start replayedRun = some s ∧
        (0, Program.hello sampleFacts) ∈ s.broker.frames ∧
        ∃ c hello, s.broker.phase = .writeChallenge c hello ∧ c.number = 1 ∧
          (c.number, Program.hello sampleFacts) ∈ s.broker.frames := by
  have hgood : Run.checkAlong (step sampleConfig) (admissibleCheck sampleConfig) start replayedRun = true := by
    decide
  refine ⟨Run.along_of_check (fun _ _ => admissible_of_check) hgood, _, rfl, ?_, _, _, rfl, rfl, ?_⟩
  · exact List.mem_append_left _ (List.mem_singleton_self _)
  · exact List.mem_append_right _ (List.mem_singleton_self _)

end VT7.Shim
