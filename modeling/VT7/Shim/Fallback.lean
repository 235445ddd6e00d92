import VT7.Shim.Agreement
import VT7.Shim.RunShim

/-!
Which external client the shim starts.

The session's fallback identity is a path and a SHA-256 in the environment.  Four of the five launch
sites of `RunShim` use it; the fifth takes path and hash from the response frame, which carries no
MAC, and does not compare them with the environment.  `launches_accepted` is what is left: only the
session's client is started in every run whose `System` responses name it.
-/

namespace VT7.Shim.Program

open VT7.Lib VT7.Lib.Wire VT7.Dotnet

/-! ### C strings -/

lemma cstr_cstr (t : Utf16) : cstr (cstr t) = cstr t := by
  unfold cstr
  rw [List.takeWhile_takeWhile]
  refine congrArg (List.takeWhile · t) (funext fun u => ?_)
  simp only [and_self, Bool.decide_eq_true]

lemma cstr_envText (t : EnvText) : cstr t.1 = t.1 := by
  refine List.takeWhile_eq_self_iff.mpr ?_
  intro u hu
  rw [bne_iff_ne]
  rintro rfl
  exact t.2 hu

lemma wcsicmp_refl (t : Utf16) : wcsicmp t t = true := beq_self_eq_true _

lemma wcsicmp_trans {t u v : Utf16} (h : wcsicmp t u = true) (h' : wcsicmp u v = true) :
    wcsicmp t v = true := by
  unfold wcsicmp at *
  rw [beq_iff_eq] at *
  exact h.trans h'

section Launch

variable {os : Native} {p : Process} {files : Utf16 → Option Bytes}

lemma equalPath_cstr (left right : Utf16) : equalPath os (cstr left) right = equalPath os left right := by
  unfold equalPath fullPath
  rw [cstr_cstr]

/-- What a launch has checked. -/
lemma launchChecks_eq_ok {path hash sha256 : Utf16} (h : launchChecks os p files path hash = .ok sha256) :
    wcsicmp sha256 hash = true ∧
      ∃ executable, currentExecutable os p = .ok executable ∧ equalPath os path executable = .ok false := by
  unfold launchChecks at h
  rw [check_bind_eq_ok, except_bind_eq_ok] at h
  obtain ⟨-, executable, hexe, h⟩ := h
  rw [except_bind_eq_ok] at h
  obtain ⟨same, hsame, h⟩ := h
  rw [check_bind_eq_ok, except_bind_eq_ok] at h
  obtain ⟨hdiff, file, -, h⟩ := h
  rw [check_bind_eq_ok] at h
  obtain ⟨hhash, h⟩ := h
  cases h
  refine ⟨hhash, executable, hexe, ?_⟩
  rw [hsame, Bool.not_eq_eq_eq_not.mp hdiff, Bool.not_true]

end Launch

/-! ### The host's decisions -/

/-- What the session accepts as its external client: the path of the environment, with the hash of the
environment, and not the shim. -/
def Accepted (os : Native) (p : Process) (l : Launch) : Prop :=
  l.application = p.external.1 ∧ wcsicmp l.sha256 p.externalHash.1 = true ∧
    ∃ executable, currentExecutable os p = .ok executable ∧
      equalPath os l.application executable = .ok false

/-- A response that, if it is a `System` decision, names the session's fallback identity. -/
def Response.namesFallback (p : Process) (r : Response) : Bool :=
  r.action != .system || (cstr r.first == p.external.1 && wcsicmp r.second p.externalHash.1)

/-- The condition on a step: the response that it reads names the session's fallback identity. -/
def readsFallback (p : Process) (s : ShimState) (e : Event) : Bool :=
  match s.phase, e with
  | .readResponse _, .received body =>
    match responseFrame body with
    | .ok response => response.namesFallback p
    | .error _ => true
  | _, _ => true

namespace ShimState

variable {os : Native} {p : Process} {s s' : ShimState} {e : Event}

/-- A step adds at most the response that it reads to the decisions. -/
lemma mem_decisions_of_step (h : step os p s e = some s') {r : Response} (hr : r ∈ s'.decisions) :
    r ∈ s.decisions ∨ ∃ challenge body, s.phase = .readResponse challenge ∧ e = .received body ∧
      responseFrame body = .ok r := by
  unfold step at h
  split at h
  case h_10 challenge body hphase =>
    split at h
    · split at h
      · cases h
        rw [raise_decisions] at hr
        exact Or.inl hr
      · next response hresponse =>
        cases h
        unfold follow at hr
        have hor : r ∈ s.decisions ∨ r = response := by
          split at hr
          all_goals first
            | exact (List.mem_append.mp hr).imp_right List.mem_singleton.mp
            | exact Or.inl (raise_decisions _ ▸ hr)
        rcases hor with hold | rfl
        · exact Or.inl hold
        · exact Or.inr ⟨challenge, body, hphase, rfl, hresponse⟩
    · cases h
  -- every other step leaves the decisions alone
  case h_8 =>
    left
    split at h
    · cases h
      rwa [raise_decisions] at hr
    · dsimp only at h
      split at h <;> cases h
      · rwa [raise_decisions] at hr
      · exact hr
  all_goals
    left
    repeat' split at h
    all_goals first
      | (cases h; done)
      | (cases h; simpa using hr)

/-- Along a run whose responses name the fallback identity, so do the decisions. -/
lemma decisions_of_step (hgood : readsFallback p s e = true) (h : step os p s e = some s')
    (hs : ∀ r ∈ s.decisions, r.namesFallback p = true) : ∀ r ∈ s'.decisions, r.namesFallback p = true := by
  intro r hr
  rcases mem_decisions_of_step h hr with hold | ⟨challenge, body, hphase, rfl, hbody⟩
  · exact hs r hold
  · simpa only [readsFallback, hphase, hbody] using hgood

end ShimState

open ShimState

/-- **Only the session's client is started**, in every run whose `System` responses name the session's
fallback identity. -/
theorem launches_accepted {os : Native} {p : Process} {es : List Event} {s : ShimState}
    (hgood : Run.Along (step os p) (fun s e => readsFallback p s e = true) start es)
    (hrun : Run.run (step os p) start es = some s) : ∀ l ∈ s.launches, Accepted os p l := by
  have hi : Coherent os p s := coherent_of_run hrun
  have hd : ∀ r ∈ s.decisions, r.namesFallback p = true :=
    Run.run_invariant_along (I := fun s => ∀ r ∈ s.decisions, r.namesFallback p = true)
      (fun _ _ _ hgood h => decisions_of_step hgood h) hgood hrun (fun r hr => by cases hr)
  intro l hl
  rcases hi.launched with hnone | ⟨path, hash, files, sha256, hone, hchecks, hsource⟩
  · rw [hnone] at hl
    cases hl
  · rw [hone] at hl
    obtain rfl := List.mem_singleton.mp hl
    obtain ⟨hhash, executable, hexe, hdiff⟩ := launchChecks_eq_ok hchecks
    have hnamed : cstr path = p.external.1 ∧ wcsicmp hash p.externalHash.1 = true := by
      rcases hsource with ⟨-, rfl, rfl⟩ | ⟨r, hr, haction, rfl, rfl⟩
      · exact ⟨cstr_envText p.external, wcsicmp_refl _⟩
      · have hname := hd r (hr ▸ List.mem_singleton_self r)
        simpa [Response.namesFallback, haction] using hname
    refine ⟨hnamed.1, wcsicmp_trans hhash hnamed.2, executable, hexe, ?_⟩
    rw [equalPath_cstr]
    exact hdiff

/-! ### A client that is not the session's -/

/-- The digest of the empty file, and that of a file with one zero byte. -/
def emptyDigest : Block UInt8 32 :=
  ⟨[227, 176, 196, 66, 152, 252, 28, 20, 154, 251, 244, 200, 153, 111, 185, 36, 39, 174, 65, 228, 100, 155,
    147, 76, 164, 149, 153, 27, 120, 82, 184, 85], rfl⟩
def zeroDigest : Block UInt8 32 :=
  ⟨[110, 52, 11, 156, 255, 179, 122, 152, 156, 165, 68, 230, 187, 120, 10, 44, 120, 144, 29, 63, 179, 55, 56,
    118, 133, 17, 163, 6, 23, 175, 160, 29], rfl⟩

/-- The services on the inputs of the samples; every path is absolute. -/
def sampleNative : Native where
  hmacSha256 := sampleMac
  sha256 := ofTable [([], emptyDigest), ([0], zeroDigest)]
  cryptStringToBinary t := Base64.decode (t.map fun u => Char.ofNat u.toNat)
  getFullPathName := some

/-- A session whose fallback is the empty file `C:\s`. -/
def sampleProcess : Process where
  external := .ofUnits [0x43, 0x3a, 0x5c, 0x73]
  externalHash := .ofUnits (hexText emptyDigest.1)
  mode := .ofUnits []
  protocol := .ofUnits [0x31]
  pipeName := .ofUnits [0x70]
  capabilityText := .ofUnits (List.replicate 43 0x41)
  moduleFileName := some [0x43, 0x3a, 0x5c, 0x68]
  facts := sampleFacts

def sampleFiles (path : Utf16) : Option Bytes :=
  if path = [0x43, 0x3a, 0x5c, 0x73] then some []
  else if path = [0x43, 0x3a, 0x5c, 0x78] then some [0]
  else none

/-- A `System` response for a client and its hash. -/
def systemResponse (path : Utf16) (digest : Block UInt8 32) : Bytes :=
  ((SshShimProtocol.response .system 0 ⟨List.replicate 16 4, List.length_replicate⟩ [0x72] path
    (hexText digest.1)).toOption).getD []

/-- The shim asks the host, and the host's response is this one. -/
def systemRun (path : Utf16) (digest : Block UInt8 32) : List Event :=
  [.proceed, .proceed, .proceed, .proceed,
    .received (SshShimProtocol.challenge 1 sampleChallenge.serverNonce), .proceed, .proceed,
    .received (systemResponse path digest), .launched sampleFiles (.ok (.ok 0))]

theorem launches_accepted_session :
    ∃ s, Run.run (step sampleNative sampleProcess) start (systemRun sampleProcess.external.1 emptyDigest) = some s ∧
      s.launches.map Launch.application = [sampleProcess.external.1] ∧
      ∀ l ∈ s.launches, Accepted sampleNative sampleProcess l := by
  have happ : (Run.run (step sampleNative sampleProcess) start
      (systemRun sampleProcess.external.1 emptyDigest)).map (fun s => s.launches.map Launch.application) =
        some [sampleProcess.external.1] := by decide +kernel
  have hgood : Run.checkAlong (step sampleNative sampleProcess) (readsFallback sampleProcess) start
      (systemRun sampleProcess.external.1 emptyDigest) = true := by decide +kernel
  obtain ⟨s, hrun, hs⟩ := Option.map_eq_some_iff.mp happ
  exact ⟨s, hrun, hs, launches_accepted (Run.along_of_check (fun _ _ => id) hgood) hrun⟩

/-- The response names the client `C:\x` and its hash: the shim starts it, although the session's
fallback is `C:\s`. -/
theorem launch_of_response_path :
    ∃ s, Run.run (step sampleNative sampleProcess) start (systemRun [0x43, 0x3a, 0x5c, 0x78] zeroDigest) = some s ∧
      ∃ l ∈ s.launches, ¬ Accepted sampleNative sampleProcess l := by
  have happ : (Run.run (step sampleNative sampleProcess) start
      (systemRun [0x43, 0x3a, 0x5c, 0x78] zeroDigest)).map (fun s => s.launches.map Launch.application) =
        some [[0x43, 0x3a, 0x5c, 0x78]] := by decide +kernel
  obtain ⟨s, hrun, hs⟩ := Option.map_eq_some_iff.mp happ
  refine ⟨s, hrun, ?_⟩
  have hmem : ([0x43, 0x3a, 0x5c, 0x78] : Utf16) ∈ s.launches.map Launch.application := by
    rw [hs]
    exact List.mem_singleton_self _
  obtain ⟨l, hl, happl⟩ := List.mem_map.mp hmem
  refine ⟨l, hl, fun haccepted => ?_⟩
  have hne : ([0x43, 0x3a, 0x5c, 0x78] : Utf16) ≠ sampleProcess.external.1 := by decide
  exact hne (happl ▸ haccepted.1)

end VT7.Shim.Program
