import VT7.KnownHosts.Evidence
import VT7.KnownHosts.Store

/-!
# The trust policy

`KnownHostTrustPolicy.Decide` combines the resolved state with an expected fingerprint and a pin for
one connection.  The main results say what a positive decision implies, for a plain key and for a
certificate.
-/

namespace VT7.KnownHosts

open VT7.Dotnet VT7.Lib

/-! ### Fingerprints -/

/-- `SshConnectionOptions.NormalizeFingerprint`. -/
def normalizeFingerprint (value : Text) : Text :=
  let normalized := trim value
  let normalized :=
    if (normalized.take 7).map lowerAscii = "sha256:".toList then normalized.drop 7 else normalized
  trimEnd (· == '=') (trim normalized)

/-- `FixedEquals` on strings. -/
def fixedEqualsText (first second : Text) : Bool :=
  fixedEquals (asciiBytes first) (asciiBytes second)

/-- The part of a fingerprint behind its scheme. -/
def fingerprintValue (fingerprint : Text) : Text :=
  if "SHA256:".toList.isPrefixOf fingerprint then fingerprint.drop 7 else fingerprint

/-! ### Decisions -/

/-- `KnownHostConnectionPin`. -/
structure KnownHostConnectionPin where
  hostToken : Text
  keyBlob : Bytes
  storeIdentity : Text

/-- `KnownHostTrustDecision`. -/
structure KnownHostTrustDecision where
  result : KnownHostTrustResult
  fingerprintSupplied : Bool
  fingerprintMatched : Bool
  canTrust : Bool
  authorization : String

variable {P : Platform}

/-- The pin is for this host, this store and this key. -/
def pinAuthorises (pin : Option KnownHostConnectionPin) (hostToken : Text)
    (presented : PresentedHostKey P) (snapshot : KnownHostsStoreSnapshot) : Bool :=
  match pin with
  | none => false
  | some pin => pin.hostToken = hostToken && pin.storeIdentity = snapshot.identity P &&
      fixedEquals pin.keyBlob presented.blob

/-- The resolver that `Decide` asks. -/
def resolved (hostToken : Text) (presented : PresentedHostKey P) (snapshot : KnownHostsStoreSnapshot)
    (certificate : Option KnownHostCertificateFacts) (now : ℕ) :
    Except String KnownHostTrustResult :=
  match certificate with
  | none => resolve hostToken presented snapshot.documents
  | some certificate => resolveCertificate hostToken presented certificate now snapshot.documents

/-- The fingerprint was supplied; it was supplied and is the key's. -/
def fingerprintFacts (presented : PresentedHostKey P) (expectedFingerprint : Text) : Bool × Bool :=
  let normalized := normalizeFingerprint expectedFingerprint
  let supplied := normalized.length != 0
  (supplied, supplied && fixedEqualsText (fingerprintValue presented.fingerprint) normalized)

/-- What `Decide` makes of the resolver's result. -/
def decideResult (hostToken : Text) (presented : PresentedHostKey P)
    (snapshot : KnownHostsStoreSnapshot) (expectedFingerprint : Text)
    (oneConnectionPin : Option KnownHostConnectionPin) (result : KnownHostTrustResult) :
    KnownHostTrustDecision :=
  let (supplied, matched) := fingerprintFacts presented expectedFingerprint
  if result.state = .matching then
    if supplied && !matched then ⟨result, true, false, false, "explicit-fingerprint-mismatch"⟩
    else ⟨result, supplied, matched, true, "stored-key-match"⟩
  else if result.state = .unknown ∧ (supplied && !matched) = true then
    ⟨result, true, false, false, "explicit-fingerprint-mismatch"⟩
  else if result.state = .unknown ∧
      pinAuthorises oneConnectionPin hostToken presented snapshot = true then
    ⟨result, supplied, matched, true, "one-connection-prompt-pin"⟩
  else
    ⟨result, supplied, matched, false,
      if result.state = .unknown then "unknown-decision-required" else "stored-policy-block"⟩

/-- `KnownHostTrustPolicy.Decide`, at the clock value `now`. -/
def KnownHostTrustPolicy.decide (hostToken : Text) (presented : PresentedHostKey P)
    (snapshot : KnownHostsStoreSnapshot) (expectedFingerprint : Text)
    (oneConnectionPin : Option KnownHostConnectionPin)
    (certificate : Option KnownHostCertificateFacts) (now : ℕ) :
    Except String KnownHostTrustDecision := do
  let result ← resolved hostToken presented snapshot certificate now
  return decideResult hostToken presented snapshot expectedFingerprint oneConnectionPin result

/-! ### Fingerprints that compare equal -/

theorem isLetter_of_mem_trimmed {bytes : Bytes} {c : Char}
    (h : c ∈ trimEnd (· == '=') (toBase64String bytes)) : Base64.IsLetter c :=
  Base64.isLetter_of_mem_encode ((List.rdropWhile_prefix _ _).subset h)

/-- **The comparison of fingerprints is exact**: a text that compares equal to the key's fingerprint
without its scheme is that text. -/
theorem fingerprint_eq_of_fixedEqualsText (presented : PresentedHostKey P) {value : Text}
    (h : fixedEqualsText (fingerprintValue presented.fingerprint) value = true) :
    presented.fingerprint = "SHA256:".toList ++ value := by
  have hvalue : fingerprintValue presented.fingerprint =
      trimEnd (· == '=') (toBase64String (P.sha256 presented.blob)) := by
    rw [presented.fingerprint_eq]
    rfl
  unfold fixedEqualsText at h
  rw [fixedEquals_iff, hvalue] at h
  have heq := eq_of_asciiBytes_eq
    (fun c hc => by have := Base64.toNat_of_isLetter (isLetter_of_mem_trimmed hc); omega)
    (fun hc => (Base64.toNat_of_isLetter (isLetter_of_mem_trimmed hc)).2.2 rfl) h
  rw [presented.fingerprint_eq, ← heq]
  rfl

theorem fingerprintFacts_ok (presented : PresentedHostKey P) (expectedFingerprint : Text)
    (h : ¬ ((fingerprintFacts presented expectedFingerprint).1 &&
      !(fingerprintFacts presented expectedFingerprint).2) = true) :
    normalizeFingerprint expectedFingerprint = [] ∨
      presented.fingerprint = "SHA256:".toList ++ normalizeFingerprint expectedFingerprint := by
  unfold fingerprintFacts at h
  by_cases hn : normalizeFingerprint expectedFingerprint = []
  · exact .inl hn
  · refine .inr (fingerprint_eq_of_fixedEqualsText presented ?_)
    simpa [hn] using h

/-! ### What a positive decision rests on -/

theorem pinAuthorises_iff (pin : Option KnownHostConnectionPin) (hostToken : Text)
    (presented : PresentedHostKey P) (snapshot : KnownHostsStoreSnapshot) :
    pinAuthorises pin hostToken presented snapshot = true ↔
      ∃ p, pin = some p ∧ p.hostToken = hostToken ∧ p.storeIdentity = snapshot.identity P ∧
        p.keyBlob = presented.blob := by
  cases pin with
  | none => simp [pinAuthorises]
  | some p => simp [pinAuthorises, fixedEquals_iff, and_assoc]

@[simp] theorem decideResult_result (hostToken : Text) (presented : PresentedHostKey P)
    (snapshot : KnownHostsStoreSnapshot) (fp : Text) (pin : Option KnownHostConnectionPin)
    (result : KnownHostTrustResult) :
    (decideResult hostToken presented snapshot fp pin result).result = result := by
  unfold decideResult
  simp only
  split_ifs <;> rfl

/-- **A positive decision** needs a fingerprint that is absent or right, and a stored key or, for an
unknown host, the pin. -/
theorem decideResult_canTrust (hostToken : Text) (presented : PresentedHostKey P)
    (snapshot : KnownHostsStoreSnapshot) (fp : Text) (pin : Option KnownHostConnectionPin)
    (result : KnownHostTrustResult)
    (h : (decideResult hostToken presented snapshot fp pin result).canTrust = true) :
    (normalizeFingerprint fp = [] ∨
        presented.fingerprint = "SHA256:".toList ++ normalizeFingerprint fp) ∧
      (result.state = .matching ∨
        result.state = .unknown ∧ pinAuthorises pin hostToken presented snapshot = true) := by
  unfold decideResult at h
  simp only at h
  split_ifs at h with h1 h2 h3 h4
  · exact ⟨fingerprintFacts_ok presented fp h2, .inl h1⟩
  · exact ⟨fingerprintFacts_ok presented fp fun hs => h3 ⟨h4.1, hs⟩, .inr h4⟩

theorem decide_ok {hostToken : Text} {presented : PresentedHostKey P}
    {snapshot : KnownHostsStoreSnapshot} {fp : Text} {pin : Option KnownHostConnectionPin}
    {certificate : Option KnownHostCertificateFacts} {now : ℕ} {d : KnownHostTrustDecision}
    (h : KnownHostTrustPolicy.decide hostToken presented snapshot fp pin certificate now = .ok d) :
    resolved hostToken presented snapshot certificate now = .ok d.result ∧
      d = decideResult hostToken presented snapshot fp pin d.result := by
  unfold KnownHostTrustPolicy.decide at h
  cases hr : resolved hostToken presented snapshot certificate now with
  | error message => rw [hr] at h; cases h
  | ok result =>
    rw [hr] at h
    obtain rfl : decideResult hostToken presented snapshot fp pin result = d := by
      simpa [bind, Except.bind, pure, Except.pure] using h
    simp

/-! ### Plain keys -/

/-- **A plain key is trusted for good reasons only.**  `Decide` without a certificate returns, and a
positive decision means that no source has a fatal error, the key is not revoked for the host, no
malformed line could be about the host, the key is no certificate, the expected fingerprint is
absent or right, and the key is stored for the host, or nothing is stored for it and the pin is for
this host, this store and this key.  A host with a different stored key is never trusted. -/
theorem plain_trust_sound (hostToken : Text) (presented : PresentedHostKey P)
    (snapshot : KnownHostsStoreSnapshot) (expectedFingerprint : Text)
    (pin : Option KnownHostConnectionPin) (now : ℕ) :
    ∃ decision, KnownHostTrustPolicy.decide hostToken presented snapshot expectedFingerprint pin none
        now = .ok decision ∧
      (decision.canTrust = true →
        (∀ document ∈ snapshot.documents, document.fatalError = none) ∧
        (∀ record, RecordIn snapshot.documents record → record.marker = .revoked →
          Applies P hostToken record → record.keyBlob ≠ presented.blob) ∧
        (∀ line, MalformedIn snapshot.documents line → line.indeterminateHost = false ∧
          candidateMatches P hostToken line.candidateHostField = false) ∧
        presented.isCertificate = false ∧
        (normalizeFingerprint expectedFingerprint = [] ∨
          presented.fingerprint = "SHA256:".toList ++ normalizeFingerprint expectedFingerprint) ∧
        ((∃ record, RecordIn snapshot.documents record ∧ record.marker = .none ∧
            Applies P hostToken record ∧ record.keyBlob = presented.blob) ∨
          (∀ record, RecordIn snapshot.documents record → record.marker = .none →
            ¬ Applies P hostToken record) ∧
          ∃ p, pin = some p ∧ p.hostToken = hostToken ∧ p.storeIdentity = snapshot.identity P ∧
            p.keyBlob = presented.blob) ∧
        decision.result.state ≠ .changed) := by
  obtain ⟨result, hresolve, hstate⟩ := resolve_total hostToken presented snapshot.documents
  refine ⟨decideResult hostToken presented snapshot expectedFingerprint pin result, ?_, fun ht => ?_⟩
  · unfold KnownHostTrustPolicy.decide resolved
    rw [hresolve]
    rfl
  obtain ⟨hfp, hreason⟩ := decideResult_canTrust hostToken presented snapshot _ _ _ ht
  rw [hstate] at hreason
  rw [decideResult_result, hstate]
  rcases hreason with hmatching | ⟨hunknown, hpin⟩
  · obtain ⟨hrevoked, hlegible, hplain, record, hin, happlies, hmarker, hblob⟩ :=
      (resolve_matching_iff hostToken presented _).mp hmatching
    refine ⟨hlegible.complete, fun r hr hm ha hb => hrevoked ⟨r, hr, ha, hm, hb⟩,
      fun line hl => ⟨hlegible.determinate line hl, hlegible.foreign line hl⟩, hplain, hfp,
      .inl ⟨record, hin, hmarker, happlies, hblob⟩, ?_⟩
    rw [hmatching]
    decide
  · obtain ⟨hrevoked, hlegible, hplain, hnone⟩ :=
      (resolve_unknown_iff hostToken presented _).mp hunknown
    refine ⟨hlegible.complete, fun r hr hm ha hb => hrevoked ⟨r, hr, ha, hm, hb⟩,
      fun line hl => ⟨hlegible.determinate line hl, hlegible.foreign line hl⟩, hplain, hfp,
      .inr ⟨fun r hr hm ha => hnone r.keyBlob ⟨r, hr, ha, hm, rfl⟩, ?_⟩, ?_⟩
    · exact (pinAuthorises_iff pin hostToken presented snapshot).mp hpin
    · rw [hunknown]
      decide

section Sample

/-- A key of type `k`, as short as a key can be. -/
def sampleBlob : Bytes := [0, 0, 0, 1, 0x6b]

theorem readKeyType_sampleBlob : readKeyType sampleBlob = .ok ['k'] := by decide

/-- Two files: the key stored for the host `a`, and an authority stored for it. -/
def storedText : String := "a k AAAAAWs=\n"
def authorityText : String := "@cert-authority a c AAAAAWM=\n"

/-- The SHA-256 digests of the key and of the two files. -/
def sampleDigest : Bytes :=
  [134, 223, 15, 31, 43, 106, 68, 53, 87, 200, 71, 28, 181, 216, 253, 51, 57, 211, 198, 180, 1,
    25, 149, 229, 50, 39, 208, 117, 27, 199, 234, 175]

def storedDigest : Bytes :=
  [52, 241, 50, 87, 7, 208, 169, 211, 195, 114, 191, 221, 76, 61, 9, 147, 72, 151, 209, 125,
    224, 249, 50, 120, 248, 167, 223, 143, 3, 139, 163, 125]

def authorityDigest : Bytes :=
  [103, 176, 175, 238, 235, 124, 152, 218, 192, 156, 147, 211, 148, 231, 124, 152, 230, 174, 68,
    50, 190, 3, 93, 131, 226, 137, 235, 239, 185, 90, 12, 7]

def samplePlatform : Platform :=
  .ofDigests [(sampleBlob, sampleDigest), (utf8Bytes storedText.toList, storedDigest),
    (utf8Bytes authorityText.toList, authorityDigest)] []

def sampleKey : PresentedHostKey samplePlatform :=
  ⟨['k'], sampleBlob, fingerprintOf samplePlatform sampleBlob, readKeyType_sampleBlob, rfl⟩

def samplePath : Text := "C:\\Users\\u\\.ssh\\known_hosts".toList

/-- The store with one file, of the given text. -/
def sampleStore (content : String) : KnownHostsStoreSnapshot :=
  ⟨[createSourceSnapshot samplePlatform ⟨"user-known-hosts", samplePath⟩
    (utf8Bytes content.toList) 0]⟩

end Sample

/-- The key is stored for the host `a` and the right fingerprint is given: it is trusted. -/
theorem plain_trust_sound_stored :
    (∃ decision, KnownHostTrustPolicy.decide "a".toList sampleKey (sampleStore storedText)
        "ht8PHytqRDVXyEcctdj9MznTxrQBGZXlMifQdRvH6q8".toList none none 0 = .ok decision ∧
      decision.canTrust = true) ∧
    ∀ document ∈ (sampleStore storedText).documents, document.fatalError = none := by
  obtain ⟨decision, hd, hsound⟩ := plain_trust_sound "a".toList sampleKey
    (sampleStore storedText) "ht8PHytqRDVXyEcctdj9MznTxrQBGZXlMifQdRvH6q8".toList none 0
  have ht : ((KnownHostTrustPolicy.decide "a".toList sampleKey (sampleStore storedText)
      "ht8PHytqRDVXyEcctdj9MznTxrQBGZXlMifQdRvH6q8".toList none none 0).map (·.canTrust)).toOption =
        some true := by decide
  rw [hd] at ht
  have ht : decision.canTrust = true := by simpa [Except.map, Except.toOption] using ht
  exact ⟨⟨decision, hd, ht⟩, (hsound ht).1⟩

/-! ### Certificates -/

/-- **A certificate is trusted for good reasons only.**  `Decide` trusts it only when
`ResolveCertificate` found it matching, which is exactly when the files are legible for the host,
none of its three keys is revoked there, its authority is stored for the host and the certificate
meets its own requirements.  The state is never one in which a pin counts. -/
theorem certificate_trust_sound (hostToken : Text) (certifiedKey : PresentedHostKey P)
    (certificate : KnownHostCertificateFacts) (now : ℕ) (snapshot : KnownHostsStoreSnapshot)
    (expectedFingerprint : Text) (pin : Option KnownHostConnectionPin) :
    (∀ decision, KnownHostTrustPolicy.decide hostToken certifiedKey snapshot expectedFingerprint pin
        (some certificate) now = .ok decision → decision.canTrust = true →
      resolveCertificate hostToken certifiedKey certificate now snapshot.documents =
          .ok decision.result ∧ decision.result.state = .matching ∧
        decision.authorization ≠ "one-connection-prompt-pin") ∧
    ((resolveCertificate hostToken certifiedKey certificate now snapshot.documents).map (·.state) =
        .ok .matching ↔
      Legible P hostToken snapshot.documents ∧
        ¬ Stored P hostToken snapshot.documents .revoked certificate.certificateBlob ∧
        ¬ Stored P hostToken snapshot.documents .revoked certifiedKey.blob ∧
        ¬ Stored P hostToken snapshot.documents .revoked certificate.authorityBlob ∧
        Stored P hostToken snapshot.documents .certAuthority certificate.authorityBlob ∧
        CertificateAcceptable hostToken certifiedKey certificate now) ∧
    (∀ result, resolveCertificate hostToken certifiedKey certificate now snapshot.documents =
      .ok result → result.state ≠ .unknown ∧ result.state ≠ .changed) := by
  refine ⟨fun decision hd ht => ?_,
    resolveCertificate_matching_iff hostToken certifiedKey certificate now _,
    fun result hr => resolveCertificate_state_ne hostToken certifiedKey certificate hr⟩
  obtain ⟨hresolved, hdecision⟩ := decide_ok hd
  have hresolved : resolveCertificate hostToken certifiedKey certificate now snapshot.documents =
      .ok decision.result := hresolved
  have hne := (resolveCertificate_state_ne hostToken certifiedKey certificate hresolved).1
  rw [hdecision] at ht
  obtain ⟨-, hmatching | ⟨hunknown, -⟩⟩ := decideResult_canTrust hostToken certifiedKey snapshot _ _ _ ht
  · refine ⟨hresolved, hmatching, ?_⟩
    rw [hdecision]
    unfold decideResult
    simp only [hmatching, if_true]
    split_ifs <;> simp
  · exact absurd hunknown hne

/-- A certificate of the sample key for the host `a`, by the authority whose key type is `c`. -/
def sampleCertificate : KnownHostCertificateFacts where
  certificateType := "k-cert-v01@openssh.com".toList
  certificateBlob := [0, 0, 0, 22] ++ utf8Bytes "k-cert-v01@openssh.com".toList
  authorityBlob := [0, 0, 0, 1, 0x63]
  isHost := true
  principals := ["a".toList]
  hasCriticalOptions := false
  validAfter := 1
  validBefore := 3

/-- The authority is stored for the host: the certificate is trusted. -/
theorem certificate_trust_sound_stored :
    ∃ decision, KnownHostTrustPolicy.decide "a".toList sampleKey
        (sampleStore authorityText) [] none (some sampleCertificate) 2 =
          .ok decision ∧ decision.canTrust = true ∧ decision.result.state = .matching ∧
      CertificateAcceptable "a".toList sampleKey sampleCertificate 2 := by
  have hsound := certificate_trust_sound "a".toList sampleKey sampleCertificate 2
    (sampleStore authorityText) [] none
  have ht : ((KnownHostTrustPolicy.decide "a".toList sampleKey
      (sampleStore authorityText) [] none (some sampleCertificate) 2).map
        (·.canTrust)).toOption = some true := by decide
  cases hd : KnownHostTrustPolicy.decide "a".toList sampleKey
      (sampleStore authorityText) [] none (some sampleCertificate) 2 with
  | error message => rw [hd] at ht; cases ht
  | ok decision =>
    rw [hd] at ht
    have ht : decision.canTrust = true := by simpa [Except.map, Except.toOption] using ht
    obtain ⟨hresolve, hstate, -⟩ := hsound.1 decision hd ht
    refine ⟨decision, rfl, ht, hstate, (hsound.2.1.mp ?_).2.2.2.2.2⟩
    rw [hresolve]
    simpa [Except.map] using hstate

end VT7.KnownHosts
