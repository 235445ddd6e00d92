import VT7.Lib.Run
import VT7.Shim.Agreement

/-!
The host's broker (`SshShimBroker`): `RunAsync` serves one connection of its pipe after the other, and
`RunRequestAsync` takes a connection through hello, challenge, request, decision, barrier
acknowledgement and the embedded handler.

A step is the end of one `await`.  The bytes that come in are arbitrary: whoever holds the other end
of the pipe chooses them.  An await that fails (a timeout, a closed pipe, a cut frame, an exception of
the handler) is `raised`.  What the operating system knows of the two processes, and what
`SshInvocationParser.TryParse` makes of the arguments, are answers of the step that asks for them.
-/

namespace VT7.Shim

open VT7.Lib VT7.Lib.Wire VT7.Dotnet

/-- What a broker is created with. -/
structure BrokerConfig where
  capability : Bytes
  generation : Int64
  externalPath : Utf16
  externalHash : Utf16
  continuous : Bool
  /-- `HMACSHA256(key).ComputeHash(data)`. -/
  hmacSha256 : Bytes → Bytes → Mac

/-- One call of `RunRequestAsync` behind its connection. -/
structure Connection where
  number : ℕ
  serverNonce : Nonce
  clientPid : UInt32
  deriving DecidableEq

structure Hello where
  processId : UInt32
  creationTime : Int64
  clientNonce : Nonce
  deriving DecidableEq

/-- The answers that the decision on a request asks for. -/
structure Association where
  rootPid : UInt32
  /-- `GetCreationTime` of the client and of the root. -/
  actualCreation : Int64
  rootCreation : Int64
  descendant : Bool
  /-- `TryParse`: the destination, or the reason why the invocation is not eligible. -/
  grammar : Except Utf16 Utf16
  /-- `Guid.NewGuid()`. -/
  requestId : Guid

/-- A request that is authenticated, with its frame. -/
structure AcceptedRequest where
  connection : Connection
  hello : Hello
  request : SshShimRequest
  body : Bytes

/-- An acknowledgement that is authenticated, with its frame. -/
structure Acknowledgement where
  connection : Connection
  requestId : Guid
  body : Bytes

structure Decision extends AcceptedRequest where
  action : SshShimAction
  requestId : Guid

inductive BrokerPhase
  | idle
  | readHello (c : Connection)
  | writeChallenge (c : Connection) (hello : Hello)
  | readRequest (c : Connection) (hello : Hello)
  | associate (accepted : AcceptedRequest)
  | writeResponse (c : Connection) (requestId : Guid) (action : SshShimAction) (frame : Bytes)
  | readBarrier (c : Connection) (requestId : Guid)
  | waitCommitted (acknowledgement : Acknowledgement)
  | handle (c : Connection) (requestId : Guid)
  | writeComplete (c : Connection) (requestId : Guid) (exitCode : Int32)
  | embeddedCompleted (c : Connection)
  | stopped

structure BrokerState where
  phase : BrokerPhase
  /-- How many connections there have been, and their server nonces. -/
  connections : ℕ
  nonces : List Nonce
  /-- The frames that were read, with the numbers of their connections. -/
  frames : List (ℕ × Bytes)
  accepted : List AcceptedRequest
  decisions : List Decision
  acknowledged : List Acknowledgement
  /-- The calls of the embedded handler, with the acknowledgements that released them. -/
  handled : List Acknowledgement

inductive BrokerEvent
  /-- A nonce is drawn and a client connects. -/
  | connected (serverNonce : Nonce) (clientPid : UInt32)
  | received (body : Bytes)
  | wrote
  | associated (a : Association)
  /-- The barrier line is committed output. -/
  | committed
  /-- The embedded handler returned. -/
  | returned (exitCode : Int32)
  /-- The completion callback returned. -/
  | resumed
  | raised
  | disposed

namespace BrokerState

def start : BrokerState where
  phase := .idle
  connections := 0
  nonces := []
  frames := []
  accepted := []
  decisions := []
  acknowledged := []
  handled := []

/-- Where `RunAsync` is behind a connection: a continuous broker waits for the next one. -/
def nextPhase (cfg : BrokerConfig) : BrokerPhase := if cfg.continuous then .idle else .stopped

/-- `RunRequestAsync` ends, with a result or an exception, and `RunAsync` disconnects. -/
def finish (cfg : BrokerConfig) (s : BrokerState) : BrokerState := { s with phase := nextPhase cfg }

/-- `FixedEquals`. -/
def fixedEquals (left right : Mac) : Bool := left.1 == right.1

/-- The request repeats the hello and the challenge of its connection. -/
def matchesChallenge (cfg : BrokerConfig) (c : Connection) (hello : Hello) (request : SshShimRequest) : Bool :=
  request.protocol == SshShimProtocol.version && request.processId == c.clientPid &&
    request.creationTime == hello.creationTime && request.clientNonce == hello.clientNonce &&
    request.serverNonce == c.serverNonce && request.generation == cfg.generation

def processAssociationValid (request : SshShimRequest) (a : Association) : Bool :=
  a.actualCreation == request.creationTime && a.rootCreation ≤ a.actualCreation && a.descendant

def consoleAssociationValid (c : Connection) (request : SshShimRequest) (a : Association) : Bool :=
  request.consoleProcesses.contains c.clientPid && request.consoleProcesses.contains a.rootPid

/-- `requestId.ToString("N").Substring(0, 8)`: the first field of the identifier, high byte first. -/
def shortId (requestId : Guid) : Utf16 :=
  (requestId.1.take 4).reverse.flatMap fun b =>
    [b.toNat / 16, b.toNat % 16].map fun n => UInt16.ofNat (if n < 10 then 0x30 + n else 0x61 + (n - 10))

def ascii (s : String) : Utf16 := s.toList.map fun c => UInt16.ofNat c.toNat

/-- The line that the shim is to print. -/
def barrierText (destination : Utf16) (requestId : Guid) : Utf16 :=
  ascii "VT7: H01 connecting to " ++ destination ++ ascii " [" ++ shortId requestId ++ ascii "]"

/-- The broker's decision on a request: the action, and the reason and the two texts of its
response. -/
def respond (cfg : BrokerConfig) (request : SshShimRequest) (a : Association) :
    SshShimAction × Int32 × Utf16 × Utf16 × Utf16 :=
  let consoleHandles := SshShimProtocol.hasConsoleHandles request
  let external (reason : Utf16) :=
    if cfg.externalPath.isEmpty then (.reject, 255, ascii "external-client-unavailable", [], [])
    else (.system, 0, reason, cfg.externalPath, cfg.externalHash)
  match a.grammar with
  | .error reason => external (if consoleHandles then reason else ascii "redirected-standard-handle")
  | .ok destination =>
    if consoleHandles then (.embedded, 0, ascii "eligible", barrierText destination a.requestId, [])
    else external (ascii "redirected-standard-handle")

/-- A frame of the size that `ReadFrameAsync` and `WriteFrameAsync` let through. -/
def frameFits (body : Bytes) : Bool := 0 < body.length && body.length ≤ SshShimProtocol.maximumFrame

/-- One step of the broker. -/
def step (cfg : BrokerConfig) (s : BrokerState) (e : BrokerEvent) : Option BrokerState :=
  match s.phase, e with
  | .idle, .connected serverNonce clientPid =>
    some { s with
      phase := .readHello { number := s.connections, serverNonce, clientPid }
      connections := s.connections + 1
      nonces := s.nonces ++ [serverNonce] }
  | .idle, .raised => some (finish cfg s)
  | .idle, .disposed => some { s with phase := .stopped }
  | .readHello c, .received body =>
    if frameFits body then
      let s := { s with frames := s.frames ++ [(c.number, body)] }
      match SshShimProtocol.parseHello body with
      | .error _ => some (finish cfg s)
      | .ok (processId, creationTime, clientNonce) =>
        if processId = c.clientPid then
          some { s with phase := .writeChallenge c { processId, creationTime, clientNonce } }
        else some (finish cfg s)
    else none
  | .writeChallenge c hello, .wrote => some { s with phase := .readRequest c hello }
  | .readRequest c hello, .received body =>
    if frameFits body then
      let s := { s with frames := s.frames ++ [(c.number, body)] }
      match SshShimProtocol.parseRequest body with
      | .error _ => some (finish cfg s)
      | .ok request =>
        if matchesChallenge cfg c hello request &&
            fixedEquals (cfg.hmacSha256 cfg.capability request.canonicalBytes) request.mac then
          let accepted := { connection := c, hello, request, body }
          some { s with phase := .associate accepted, accepted := s.accepted ++ [accepted] }
        else some (finish cfg s)
    else none
  | .associate accepted, .associated a =>
    if processAssociationValid accepted.request a && consoleAssociationValid accepted.connection accepted.request a then
      let (action, exitCode, reason, first, second) := respond cfg accepted.request a
      let s := { s with decisions := s.decisions ++ [{ accepted with action, requestId := a.requestId }] }
      match SshShimProtocol.response action exitCode a.requestId reason first second with
      | .error _ => some (finish cfg s)
      | .ok frame =>
        if frameFits frame then
          some { s with phase := .writeResponse accepted.connection a.requestId action frame }
        else some (finish cfg s)
    else some (finish cfg s)
  | .writeResponse c requestId action _, .wrote =>
    match action with
    | .embedded => some { s with phase := .readBarrier c requestId }
    | _ => some (finish cfg s)
  | .readBarrier c requestId, .received body =>
    if frameFits body then
      let s := { s with frames := s.frames ++ [(c.number, body)] }
      match SshShimProtocol.parseBarrier body requestId c.serverNonce with
      | .error _ => some (finish cfg s)
      | .ok (canonical, mac) =>
        if fixedEquals (cfg.hmacSha256 cfg.capability canonical) mac then
          let acknowledgement := { connection := c, requestId, body }
          some { s with
            phase := .waitCommitted acknowledgement
            acknowledged := s.acknowledged ++ [acknowledgement] }
        else some (finish cfg s)
    else none
  | .waitCommitted acknowledgement, .committed =>
    some { s with
      phase := .handle acknowledgement.connection acknowledgement.requestId
      handled := s.handled ++ [acknowledgement] }
  | .handle c requestId, .returned exitCode =>
    if exitCode = 0 ∨ exitCode = 255 then some { s with phase := .writeComplete c requestId exitCode }
    else some (finish cfg s)
  | .writeComplete c _ _, .wrote | .writeComplete c _ _, .raised =>
    -- the callback runs whether or not the frame could be written
    some { s with phase := .embeddedCompleted c }
  | .embeddedCompleted _, .resumed => some (finish cfg s)
  | .readHello _, .raised | .writeChallenge _ _, .raised | .readRequest _ _, .raised
  | .associate _, .raised | .writeResponse _ _ _ _, .raised | .readBarrier _ _, .raised
  | .waitCommitted _, .raised | .handle _ _, .raised | .embeddedCompleted _, .raised => some (finish cfg s)
  | _, _ => none

/-! ### What a step can do -/

/-- The connection that is being served. -/
def connectionOf : BrokerPhase → Option Connection
  | .idle | .stopped => none
  | .readHello c | .writeChallenge c _ | .readRequest c _ | .writeResponse c _ _ _
  | .readBarrier c _ | .handle c _ | .writeComplete c _ _ | .embeddedCompleted c => some c
  | .associate accepted => some accepted.connection
  | .waitCommitted acknowledgement => some acknowledgement.connection

/-- The checks that a request has passed before its decision. -/
structure Authentic (cfg : BrokerConfig) (a : AcceptedRequest) : Prop where
  claimed : a.hello.processId = a.connection.clientPid
  parsed : SshShimProtocol.parseRequest a.body = .ok a.request
  matched : matchesChallenge cfg a.connection a.hello a.request = true
  mac : a.request.mac = cfg.hmacSha256 cfg.capability a.request.canonicalBytes

/-- The frame is the acknowledgement of this request on this connection, under the capability. -/
def Authenticated (cfg : BrokerConfig) (k : Acknowledgement) : Prop :=
  k.body = Program.authenticated cfg.hmacSha256 cfg.capability
    (Program.canonicalBarrier k.requestId k.connection.serverNonce)

/-- The broker has decided like this on a request of the connection, under this identifier. -/
def Decided (s : BrokerState) (c : Connection) (requestId : Guid) (action : SshShimAction) : Prop :=
  ∃ d ∈ s.decisions, d.connection = c ∧ d.requestId = requestId ∧ d.action = action

/-- What the checks behind the broker guarantee where it is. -/
def PhaseFacts (s : BrokerState) : BrokerPhase → Prop
  | .writeChallenge c hello | .readRequest c hello => hello.processId = c.clientPid
  | .associate accepted => accepted ∈ s.accepted
  | .writeResponse c requestId action _ => Decided s c requestId action
  | .readBarrier c requestId => Decided s c requestId .embedded
  | .waitCommitted acknowledgement => acknowledgement ∈ s.acknowledged
  | _ => True

/-- A phase that needs nothing that is not there. -/
structure Plain (s : BrokerState) (phase : BrokerPhase) : Prop where
  connection : connectionOf phase = none ∨ connectionOf phase = connectionOf s.phase
  facts : PhaseFacts s s.phase → PhaseFacts s phase

/-- **The moves of the broker.** -/
inductive Move (cfg : BrokerConfig) (s : BrokerState) : BrokerEvent → BrokerState → Prop
  | connect (serverNonce : Nonce) (clientPid : UInt32) (hphase : s.phase = .idle) :
    Move cfg s (.connected serverNonce clientPid)
      { s with
        phase := .readHello { number := s.connections, serverNonce, clientPid }
        connections := s.connections + 1
        nonces := s.nonces ++ [serverNonce] }
  | read {c : Connection} {body : Bytes} {phase : BrokerPhase} (hc : connectionOf s.phase = some c)
      (hplain : Plain s phase) :
    Move cfg s (.received body) { s with phase, frames := s.frames ++ [(c.number, body)] }
  | accept {a : AcceptedRequest} (hphase : s.phase = .readRequest a.connection a.hello)
      (hauth : a.hello.processId = a.connection.clientPid → Authentic cfg a) :
    Move cfg s (.received a.body)
      { s with
        phase := .associate a
        frames := s.frames ++ [(a.connection.number, a.body)]
        accepted := s.accepted ++ [a] }
  | decide {a : AcceptedRequest} {answers : Association} {action : SshShimAction} {phase : BrokerPhase}
      (hphase : s.phase = .associate a)
      (hnext : phase = nextPhase cfg ∨
        ∃ frame, phase = .writeResponse a.connection answers.requestId action frame) :
    Move cfg s (.associated answers)
      { s with
        phase
        decisions := s.decisions ++ [{ a with action, requestId := answers.requestId }] }
  | acknowledge {k : Acknowledgement} (hphase : s.phase = .readBarrier k.connection k.requestId)
      (hauth : Authenticated cfg k) :
    Move cfg s (.received k.body)
      { s with
        phase := .waitCommitted k
        frames := s.frames ++ [(k.connection.number, k.body)]
        acknowledged := s.acknowledged ++ [k] }
  | handle {k : Acknowledgement} (hphase : s.phase = .waitCommitted k) :
    Move cfg s .committed
      { s with phase := .handle k.connection k.requestId, handled := s.handled ++ [k] }
  | go {e : BrokerEvent} {phase : BrokerPhase} (hplain : Plain s phase) : Move cfg s e { s with phase }

variable {cfg : BrokerConfig} {s s' : BrokerState} {e : BrokerEvent}

lemma plain_nextPhase : Plain s (nextPhase cfg) := by
  unfold nextPhase
  split
  · exact ⟨Or.inl rfl, fun _ => trivial⟩
  · exact ⟨Or.inl rfl, fun _ => trivial⟩

lemma move_finish : Move cfg s e (finish cfg s) := .go plain_nextPhase

/-- A frame that is refused ends the connection. -/
lemma move_refused {c : Connection} {body : Bytes} (hc : connectionOf s.phase = some c) :
    Move cfg s (.received body) (finish cfg { s with frames := s.frames ++ [(c.number, body)] }) :=
  .read hc plain_nextPhase

lemma fixedEquals_eq_true {left right : Mac} (h : fixedEquals left right = true) : right = left :=
  Subtype.ext (beq_iff_eq.mp h).symm

/-- **A step is a move.** -/
theorem move_of_step (h : step cfg s e = some s') : Move cfg s e s' := by
  unfold step at h
  split at h
  · next hphase =>
    cases h
    exact .connect _ _ hphase
  · cases h
    exact move_finish
  · cases h
    exact .go ⟨Or.inl rfl, fun _ => trivial⟩
  · next c body hphase =>
    -- the hello
    have hc : connectionOf s.phase = some c := by rw [hphase]; rfl
    split at h
    · dsimp only at h
      split at h
      · cases h
        exact move_refused hc
      · split at h <;> cases h
        · next hpid => exact .read hc ⟨Or.inr hc.symm, fun _ => hpid⟩
        · exact move_refused hc
    · cases h
  · next hphase =>
    cases h
    refine .go ⟨Or.inr (by rw [hphase]; rfl), fun hf => ?_⟩
    rw [hphase] at hf
    exact hf
  · next c hello body hphase =>
    -- the request
    have hc : connectionOf s.phase = some c := by rw [hphase]; rfl
    split at h
    · dsimp only at h
      split at h
      · cases h
        exact move_refused hc
      · next request hparsed =>
        split at h <;> cases h
        · next hchecks =>
          rw [Bool.and_eq_true] at hchecks
          exact .accept (a := ⟨c, hello, request, body⟩) hphase fun hclaimed =>
            ⟨hclaimed, hparsed, hchecks.1, fixedEquals_eq_true hchecks.2⟩
        · exact move_refused hc
    · cases h
  · next accepted answers hphase =>
    -- the decision
    split at h
    · dsimp only at h
      split at h
      · cases h
        exact .decide hphase (Or.inl rfl)
      · split at h <;> cases h
        · exact .decide hphase (Or.inr ⟨_, rfl⟩)
        · exact .decide hphase (Or.inl rfl)
    · cases h
      exact move_finish
  · next hphase =>
    split at h <;> cases h
    · refine .go ⟨Or.inr (by rw [hphase]; rfl), fun hf => ?_⟩
      rw [hphase] at hf
      exact hf
    · exact move_finish
  · next c requestId body hphase =>
    -- the acknowledgement
    have hc : connectionOf s.phase = some c := by rw [hphase]; rfl
    split at h
    · dsimp only at h
      split at h
      · cases h
        exact move_refused hc
      · next canonical mac hparsed =>
        split at h <;> cases h
        · next hmac =>
          obtain ⟨rfl, hbody⟩ := SshShimProtocol.parseBarrier_eq_ok hparsed
          rw [fixedEquals_eq_true hmac] at hbody
          exact .acknowledge (k := ⟨c, requestId, body⟩) hphase hbody
        · exact move_refused hc
    · cases h
  · next hphase =>
    cases h
    exact .handle hphase
  · next hphase =>
    split at h <;> cases h
    · exact .go ⟨Or.inr (by rw [hphase]; rfl), fun _ => trivial⟩
    · exact move_finish
  iterate 2
    · next hphase =>
      cases h
      exact .go ⟨Or.inr (by rw [hphase]; rfl), fun _ => trivial⟩
  iterate 10
    · cases h
      exact move_finish
  · cases h

/-! ### What every run keeps -/

/-- The connection has been served with this nonce, and this frame was read on it. -/
def Known (s : BrokerState) (c : Connection) (body : Bytes) : Prop :=
  s.nonces[c.number]? = some c.serverNonce ∧ (c.number, body) ∈ s.frames

/-- **The invariant of the broker.**  The nonces are those of the connections in order, and every
decision and every call of the handler rests on a frame that passed its checks. -/
structure BrokerInv (cfg : BrokerConfig) (s : BrokerState) : Prop where
  count : s.nonces.length = s.connections
  current : ∀ c, connectionOf s.phase = some c →
    c.number + 1 = s.connections ∧ s.nonces[c.number]? = some c.serverNonce
  facts : PhaseFacts s s.phase
  frames : ∀ f ∈ s.frames, f.1 < s.connections
  accepted : ∀ a ∈ s.accepted, Known s a.connection a.body ∧ Authentic cfg a
  decisions : ∀ d ∈ s.decisions, d.toAcceptedRequest ∈ s.accepted
  acknowledged : ∀ k ∈ s.acknowledged, Known s k.connection k.body ∧ Authenticated cfg k ∧
    Decided s k.connection k.requestId .embedded
  handled : ∀ k ∈ s.handled, k ∈ s.acknowledged

lemma brokerInv_start : BrokerInv cfg start := by
  refine ⟨rfl, ?_, trivial, ?_, ?_, ?_, ?_, ?_⟩ <;> intro x hx <;> cases hx

/-- A longer log knows what the shorter one knew. -/
lemma Known.mono {c : Connection} {body : Bytes} (h : Known s c body) {ns : List Nonce}
    {fs : List (ℕ × Bytes)} (hn : s'.nonces = s.nonces ++ ns) (hf : s'.frames = s.frames ++ fs) :
    Known s' c body := by
  obtain ⟨hlt, -⟩ := List.getElem?_eq_some_iff.mp h.1
  refine ⟨?_, ?_⟩
  · rw [hn, List.getElem?_append_left hlt]
    exact h.1
  · rw [hf]
    exact List.mem_append_left _ h.2

lemma Decided.mono {c : Connection} {requestId : Guid} {action : SshShimAction}
    (h : Decided s c requestId action) (hd : s.decisions ⊆ s'.decisions) : Decided s' c requestId action := by
  obtain ⟨d, hmem, hrest⟩ := h
  exact ⟨d, hd hmem, hrest⟩

/-- The logs that grow keep what was known. -/
lemma BrokerInv.logs (hi : BrokerInv cfg s) {t : BrokerState} {ns : List Nonce} {fs : List (ℕ × Bytes)}
    (hn : t.nonces = s.nonces ++ ns) (hf : t.frames = s.frames ++ fs)
    (hd : s.decisions ⊆ t.decisions) :
    (∀ a ∈ s.accepted, Known t a.connection a.body ∧ Authentic cfg a) ∧
      ∀ k ∈ s.acknowledged, Known t k.connection k.body ∧ Authenticated cfg k ∧
        Decided t k.connection k.requestId .embedded := by
  constructor
  · intro a ha
    obtain ⟨hknown, hauth⟩ := hi.accepted a ha
    exact ⟨hknown.mono hn hf, hauth⟩
  · intro k hk
    obtain ⟨hknown, hauth, hdecided⟩ := hi.acknowledged k hk
    exact ⟨hknown.mono hn hf, hauth, hdecided.mono hd⟩

/-- The facts of a phase are about the logs only. -/
lemma PhaseFacts.of_logs {phase : BrokerPhase} (h : PhaseFacts s phase) (ha : s'.accepted = s.accepted)
    (hd : s'.decisions = s.decisions) (hk : s'.acknowledged = s.acknowledged) : PhaseFacts s' phase := by
  unfold PhaseFacts Decided at *
  rw [ha, hd, hk]
  exact h

lemma Plain.current {phase : BrokerPhase} (hp : Plain s phase) (hi : BrokerInv cfg s) (c : Connection)
    (hc : connectionOf phase = some c) :
    c.number + 1 = s.connections ∧ s.nonces[c.number]? = some c.serverNonce := by
  rcases hp.connection with h | h
  · rw [h] at hc
    cases hc
  · exact hi.current c (h ▸ hc)

/-- A frame of the connection that is being served. -/
lemma BrokerInv.frames_append (hi : BrokerInv cfg s) {c : Connection} (hc : connectionOf s.phase = some c)
    (body : Bytes) : ∀ f ∈ s.frames ++ [(c.number, body)], f.1 < s.connections := by
  intro f hf
  rcases List.mem_append.mp hf with hf | hf
  · exact hi.frames f hf
  · obtain rfl := List.mem_singleton.mp hf
    have hcur := (hi.current c hc).1
    show c.number < s.connections
    omega

lemma forall_mem_concat {α : Type} {P : α → Prop} {l : List α} {x : α} (hl : ∀ a ∈ l, P a) (hx : P x) :
    ∀ a ∈ l ++ [x], P a := by
  intro a ha
  rcases List.mem_append.mp ha with ha | ha
  · exact hl a ha
  · obtain rfl := List.mem_singleton.mp ha
    exact hx

/-- **Every step keeps the invariant.** -/
theorem brokerInv_of_step (h : step cfg s e = some s') (hi : BrokerInv cfg s) : BrokerInv cfg s' := by
  cases move_of_step h with
  | connect serverNonce clientPid hphase =>
    have hlogs := hi.logs (t := { s with
      phase := .readHello { number := s.connections, serverNonce, clientPid }
      connections := s.connections + 1
      nonces := s.nonces ++ [serverNonce] }) rfl (List.append_nil _).symm (List.Subset.refl _)
    refine ⟨?_, ?_, trivial, fun f hf => Nat.lt_succ_of_lt (hi.frames f hf), hlogs.1, hi.decisions,
      hlogs.2, hi.handled⟩
    · rw [List.length_append, hi.count]
      rfl
    · intro c hc
      cases hc
      refine ⟨rfl, ?_⟩
      rw [← hi.count]
      exact List.getElem?_concat_length
  | @read c body phase hc hplain =>
    have hlogs := hi.logs (t := { s with phase, frames := s.frames ++ [(c.number, body)] })
      (List.append_nil _).symm rfl (List.Subset.refl _)
    exact ⟨hi.count, hplain.current hi, (hplain.facts hi.facts).of_logs rfl rfl rfl,
      hi.frames_append hc body, hlogs.1, hi.decisions, hlogs.2, hi.handled⟩
  | @accept a hphase hauth =>
    have hc : connectionOf s.phase = some a.connection := by rw [hphase]; rfl
    have hcur := hi.current _ hc
    have hclaimed := hi.facts
    rw [hphase] at hclaimed
    have hlogs := hi.logs (t := { s with
      phase := .associate a
      frames := s.frames ++ [(a.connection.number, a.body)]
      accepted := s.accepted ++ [a] }) (List.append_nil _).symm rfl (List.Subset.refl _)
    have hnew : (a.connection.number, a.body) ∈ s.frames ++ [(a.connection.number, a.body)] :=
      List.mem_append_right _ (List.mem_singleton_self _)
    refine ⟨hi.count, ?_, List.mem_append_right _ (List.mem_singleton_self _), hi.frames_append hc _,
      forall_mem_concat hlogs.1 ⟨⟨hcur.2, hnew⟩, hauth hclaimed⟩,
      fun d hd => List.mem_append_left _ (hi.decisions d hd), hlogs.2, hi.handled⟩
    intro c' hc'
    cases hc'
    exact hcur
  | @decide a answers action phase hphase hnext =>
    have hc : connectionOf s.phase = some a.connection := by rw [hphase]; rfl
    have hfacts := hi.facts
    rw [hphase] at hfacts
    have hlogs := hi.logs (t := { s with
      phase
      decisions := s.decisions ++ [{ a with action, requestId := answers.requestId }] })
      (List.append_nil _).symm (List.append_nil _).symm (List.subset_append_left _ _)
    refine ⟨hi.count, ?_, ?_, hi.frames, hlogs.1, forall_mem_concat hi.decisions hfacts, hlogs.2,
      hi.handled⟩
    · rcases hnext with rfl | ⟨frame, rfl⟩
      · exact (plain_nextPhase (s := s)).current hi
      · intro c' hc'
        cases hc'
        exact hi.current _ hc
    · rcases hnext with rfl | ⟨frame, rfl⟩
      · unfold nextPhase
        split <;> trivial
      · exact ⟨_, List.mem_append_right _ (List.mem_singleton_self _), rfl, rfl, rfl⟩
  | @acknowledge k hphase hauth =>
    have hc : connectionOf s.phase = some k.connection := by rw [hphase]; rfl
    have hcur := hi.current _ hc
    have hdecided := hi.facts
    rw [hphase] at hdecided
    have hlogs := hi.logs (t := { s with
      phase := .waitCommitted k
      frames := s.frames ++ [(k.connection.number, k.body)]
      acknowledged := s.acknowledged ++ [k] }) (List.append_nil _).symm rfl (List.Subset.refl _)
    have hnew : (k.connection.number, k.body) ∈ s.frames ++ [(k.connection.number, k.body)] :=
      List.mem_append_right _ (List.mem_singleton_self _)
    refine ⟨hi.count, ?_, List.mem_append_right _ (List.mem_singleton_self _), hi.frames_append hc _,
      hlogs.1, hi.decisions, forall_mem_concat hlogs.2 ⟨⟨hcur.2, hnew⟩, hauth, hdecided⟩,
      fun h hh => List.mem_append_left _ (hi.handled h hh)⟩
    intro c' hc'
    cases hc'
    exact hcur
  | @handle k hphase =>
    have hc : connectionOf s.phase = some k.connection := by rw [hphase]; rfl
    have hfacts := hi.facts
    rw [hphase] at hfacts
    refine ⟨hi.count, ?_, trivial, hi.frames, hi.accepted, hi.decisions, hi.acknowledged,
      forall_mem_concat hi.handled hfacts⟩
    intro c' hc'
    cases hc'
    exact hi.current _ hc
  | go hplain =>
    exact ⟨hi.count, hplain.current hi, (hplain.facts hi.facts).of_logs rfl rfl rfl, hi.frames,
      hi.accepted, hi.decisions, hi.acknowledged, hi.handled⟩

end BrokerState

end VT7.Shim
