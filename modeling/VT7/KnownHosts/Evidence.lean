import VT7.KnownHosts.Resolver

/-!
# What the evidence means

The findings of the two resolvers in terms of the records and the malformed lines that stand in the
documents, and from it when each state is returned.
-/

namespace VT7.KnownHosts

open VT7.Dotnet VT7.Lib

variable {P : Platform} (hostToken : Text) (inspect : KnownHostRecord → Option Finding)

/-- The record stands on some line of the documents. -/
def RecordIn (documents : List KnownHostsDocument) (record : KnownHostRecord) : Prop :=
  ∃ document ∈ documents, ∃ line ∈ document.lines, line.record = some record

/-- The line is a malformed line of the documents. -/
def MalformedIn (documents : List KnownHostsDocument) (line : KnownHostsLine) : Prop :=
  ∃ document ∈ documents, line ∈ document.lines ∧ line.kind = .malformed

theorem mem_evidence_record {k : Finding} (hk : k ≠ .unreadable)
    (documents : List KnownHostsDocument) : k ∈ evidence P hostToken inspect documents ↔
      ∃ record, RecordIn documents record ∧ Applies P hostToken record ∧ inspect record = some k := by
  constructor
  · rintro ⟨document, hd, ⟨-, rfl⟩ | ⟨line, hl, ⟨-, -, rfl⟩ | ⟨record, hr, ha, hi⟩⟩⟩
    · exact absurd rfl hk
    · exact absurd rfl hk
    · exact ⟨record, ⟨document, hd, line, hl, hr⟩, ha, hi⟩
  · rintro ⟨record, ⟨document, hd, line, hl, hr⟩, ha, hi⟩
    exact ⟨document, hd, .inr ⟨line, hl, .inr ⟨record, hr, ha, hi⟩⟩⟩

theorem mem_evidence_unreadable (hi : ∀ record, inspect record ≠ some .unreadable)
    (documents : List KnownHostsDocument) : .unreadable ∈ evidence P hostToken inspect documents ↔
      (∃ document ∈ documents, document.fatalError ≠ none) ∨
        ∃ line, MalformedIn documents line ∧ isRelevant P hostToken line = true := by
  constructor
  · rintro ⟨document, hd, ⟨hf, -⟩ | ⟨line, hl, ⟨hm, hr, -⟩ | ⟨record, -, -, hr⟩⟩⟩
    · exact .inl ⟨document, hd, hf⟩
    · exact .inr ⟨line, ⟨document, hd, hl, hm⟩, hr⟩
    · exact absurd hr (hi record)
  · rintro (⟨document, hd, hf⟩ | ⟨line, ⟨document, hd, hl, hm⟩, hr⟩)
    · exact ⟨document, hd, .inl ⟨hf, rfl⟩⟩
    · exact ⟨document, hd, .inr ⟨line, hl, .inl ⟨hm, hr, rfl⟩⟩⟩

/-- A record for the host with this marker and exactly this key. -/
def Stored (P : Platform) (hostToken : Text) (documents : List KnownHostsDocument)
    (marker : KnownHostMarker) (keyBlob : Bytes) : Prop :=
  ∃ record, RecordIn documents record ∧ Applies P hostToken record ∧ record.marker = marker ∧
    record.keyBlob = keyBlob

/-- Nothing in the documents makes them unreadable for the host: no fatal error, and no malformed
line that could be about it. -/
structure Legible (P : Platform) (hostToken : Text) (documents : List KnownHostsDocument) : Prop where
  complete : ∀ document ∈ documents, document.fatalError = none
  determinate : ∀ line, MalformedIn documents line → line.indeterminateHost = false
  foreign : ∀ line, MalformedIn documents line →
    candidateMatches P hostToken line.candidateHostField = false

theorem unreadable_notMem_iff (hi : ∀ record, inspect record ≠ some .unreadable)
    (documents : List KnownHostsDocument) :
    .unreadable ∉ evidence P hostToken inspect documents ↔ Legible P hostToken documents := by
  rw [mem_evidence_unreadable hostToken inspect hi]
  constructor
  · intro h
    refine ⟨fun document hd => ?_, fun line hl => ?_, fun line hl => ?_⟩
    · by_contra hf
      exact h (.inl ⟨document, hd, hf⟩)
    · by_contra hind
      exact h (.inr ⟨line, hl, by simp [isRelevant, hind]⟩)
    · by_contra hc
      exact h (.inr ⟨line, hl, by simp [isRelevant, hc]⟩)
  · rintro ⟨hcomplete, hdet, hforeign⟩ (⟨document, hd, hf⟩ | ⟨line, hl, hr⟩)
    · exact hf (hcomplete document hd)
    · simp [isRelevant, hdet line hl, hforeign line hl] at hr

section Plain

variable (presented : PresentedHostKey P)

theorem inspectPlain_revoked_iff (record : KnownHostRecord) :
    inspectPlain presented record = some .revoked ↔
      record.marker = .revoked ∧ record.keyBlob = presented.blob := by
  rw [← fixedEquals_iff]
  unfold inspectPlain
  cases record.marker <;> cases fixedEquals record.keyBlob presented.blob <;>
    cases presented.isCertificate <;> simp

theorem inspectPlain_exact_iff (record : KnownHostRecord) :
    inspectPlain presented record = some .exact ↔
      record.marker = .none ∧ record.keyBlob = presented.blob := by
  rw [← fixedEquals_iff]
  unfold inspectPlain
  cases record.marker <;> cases fixedEquals record.keyBlob presented.blob <;>
    cases presented.isCertificate <;> simp

theorem inspectPlain_changed_iff (record : KnownHostRecord) :
    inspectPlain presented record = some .changed ↔
      record.marker = .none ∧ record.keyBlob ≠ presented.blob := by
  rw [ne_eq, ← fixedEquals_iff]
  unfold inspectPlain
  cases record.marker <;> cases fixedEquals record.keyBlob presented.blob <;>
    cases presented.isCertificate <;> simp

theorem inspectPlain_ne_unreadable (record : KnownHostRecord) :
    inspectPlain presented record ≠ some .unreadable := by
  unfold inspectPlain
  cases record.marker <;> cases fixedEquals record.keyBlob presented.blob <;>
    cases presented.isCertificate <;> simp

theorem revoked_mem_plainEvidence (documents : List KnownHostsDocument) :
    .revoked ∈ plainEvidence hostToken presented documents ↔
      Stored P hostToken documents .revoked presented.blob := by
  unfold plainEvidence Stored
  rw [mem_evidence_record hostToken _ (by decide)]
  simp only [inspectPlain_revoked_iff]

theorem exact_mem_plainEvidence (documents : List KnownHostsDocument) :
    .exact ∈ plainEvidence hostToken presented documents ↔
      Stored P hostToken documents .none presented.blob := by
  unfold plainEvidence Stored
  rw [mem_evidence_record hostToken _ (by decide)]
  simp only [inspectPlain_exact_iff]

theorem changed_mem_plainEvidence (documents : List KnownHostsDocument) :
    .changed ∈ plainEvidence hostToken presented documents ↔
      ∃ blob, blob ≠ presented.blob ∧ Stored P hostToken documents .none blob := by
  unfold plainEvidence Stored
  rw [mem_evidence_record hostToken _ (by decide)]
  simp only [inspectPlain_changed_iff]
  constructor
  · rintro ⟨record, hin, ha, hm, hk⟩
    exact ⟨record.keyBlob, hk, record, hin, ha, hm, rfl⟩
  · rintro ⟨blob, hne, record, hin, ha, hm, rfl⟩
    exact ⟨record, hin, ha, hm, hne⟩

theorem unreadable_notMem_plainEvidence (documents : List KnownHostsDocument) :
    .unreadable ∉ plainEvidence hostToken presented documents ↔ Legible P hostToken documents :=
  unreadable_notMem_iff hostToken _ (inspectPlain_ne_unreadable presented) documents

/-- **`Resolve` returns without an exception**, with the abstract verdict. -/
theorem resolve_total (documents : List KnownHostsDocument) :
    ∃ result, resolve hostToken presented documents = .ok result ∧
      result.state = Verdict.plain presented.isCertificate
        (plainEvidence hostToken presented documents) := by
  have h := resolve_state hostToken presented documents
  cases hr : resolve hostToken presented documents with
  | error message => rw [hr] at h; cases h
  | ok result =>
    rw [hr] at h
    exact ⟨result, rfl, by simpa [Except.map] using h⟩

theorem resolve_eq_ok {documents : List KnownHostsDocument} {result : KnownHostTrustResult}
    (h : resolve hostToken presented documents = .ok result) :
    result.state = Verdict.plain presented.isCertificate
      (plainEvidence hostToken presented documents) := by
  obtain ⟨result', h', hstate⟩ := resolve_total hostToken presented documents
  rw [h] at h'
  cases h'
  exact hstate

/-- **When a plain key is known.** -/
theorem resolve_matching_iff (documents : List KnownHostsDocument) :
    Verdict.plain presented.isCertificate (plainEvidence hostToken presented documents) = .matching ↔
      ¬ Stored P hostToken documents .revoked presented.blob ∧ Legible P hostToken documents ∧
        presented.isCertificate = false ∧ Stored P hostToken documents .none presented.blob := by
  rw [Verdict.plain_matching_iff, revoked_mem_plainEvidence, exact_mem_plainEvidence,
    unreadable_notMem_plainEvidence]

/-- **When a host is unknown**: no stored key at all applies to it. -/
theorem resolve_unknown_iff (documents : List KnownHostsDocument) :
    Verdict.plain presented.isCertificate (plainEvidence hostToken presented documents) = .unknown ↔
      ¬ Stored P hostToken documents .revoked presented.blob ∧ Legible P hostToken documents ∧
        presented.isCertificate = false ∧ ∀ blob, ¬ Stored P hostToken documents .none blob := by
  rw [Verdict.plain_unknown_iff, revoked_mem_plainEvidence, exact_mem_plainEvidence,
    unreadable_notMem_plainEvidence, changed_mem_plainEvidence]
  refine and_congr_right fun _ => and_congr_right fun _ => and_congr_right fun _ => ?_
  constructor
  · rintro ⟨hexact, hchanged⟩ blob hs
    by_cases hb : blob = presented.blob
    · exact hexact (hb ▸ hs)
    · exact hchanged ⟨blob, hb, hs⟩
  · exact fun h => ⟨h _, fun ⟨blob, _, hs⟩ => h blob hs⟩

end Plain

section Certificate

variable (certifiedKey : PresentedHostKey P) (certificate : KnownHostCertificateFacts)

theorem inspectCertificate_revoked_iff (record : KnownHostRecord) :
    inspectCertificate certifiedKey certificate record = some .revoked ↔
      record.marker = .revoked ∧ (record.keyBlob = certificate.certificateBlob ∨
        record.keyBlob = certifiedKey.blob ∨ record.keyBlob = certificate.authorityBlob) := by
  simp only [← fixedEquals_iff]
  unfold inspectCertificate
  cases record.marker with
  | none => simp
  | certAuthority => simp
  | revoked =>
    simp only [Bool.or_eq_true, or_assoc]
    split_ifs with h <;> simp [h]

theorem inspectCertificate_authorities_iff (record : KnownHostRecord) :
    inspectCertificate certifiedKey certificate record = some .authorities ↔
      record.marker = .certAuthority ∧ record.keyBlob = certificate.authorityBlob := by
  simp only [← fixedEquals_iff]
  unfold inspectCertificate
  cases record.marker <;> simp

theorem inspectCertificate_ne_unreadable (record : KnownHostRecord) :
    inspectCertificate certifiedKey certificate record ≠ some .unreadable := by
  unfold inspectCertificate
  cases record.marker <;> simp

/-- What `ResolveCertificate` asks of the certificate itself. -/
structure CertificateAcceptable (hostToken : Text) (certifiedKey : PresentedHostKey P)
    (certificate : KnownHostCertificateFacts) (now : ℕ) : Prop where
  host : certificate.isHost = true
  keyPlain : certifiedKey.isCertificate = false
  declaredType : readKeyType certificate.certificateBlob = .ok certificate.certificateType
  authorityPlain : ∃ authorityType, readKeyType certificate.authorityBlob = .ok authorityType ∧
    certificateSuffix.isSuffixOf authorityType = false
  keyTypeMatches :
    certificateTypeMatchesKey certificate.certificateType certifiedKey.keyType = true
  validAfter_le : certificate.validAfter ≤ now
  lt_validBefore : now < certificate.validBefore
  noCriticalOptions : certificate.hasCriticalOptions = false
  principals_pos : 1 ≤ certificate.principals.length
  principals_le : certificate.principals.length ≤ 256
  principal : ∃ principal ∈ certificate.principals,
    certificatePrincipalMatches (certificatePrincipalHost hostToken) principal = true

theorem certificateMaterialInvalid_false_iff :
    certificateMaterialInvalid certifiedKey certificate = .ok false ↔
      certificate.isHost = true ∧ certifiedKey.isCertificate = false ∧
        readKeyType certificate.certificateBlob = .ok certificate.certificateType ∧
        (∃ authorityType, readKeyType certificate.authorityBlob = .ok authorityType ∧
          certificateSuffix.isSuffixOf authorityType = false) ∧
        certificateTypeMatchesKey certificate.certificateType certifiedKey.keyType = true := by
  unfold certificateMaterialInvalid
  cases certificate.isHost
  · simp
  cases certifiedKey.isCertificate
  swap
  · simp
  cases hinner : readKeyType certificate.certificateBlob with
  | error message => simp [bind, Except.bind]
  | ok innerType =>
    by_cases htype : certificate.certificateType = innerType
    · subst htype
      cases hauthority : readKeyType certificate.authorityBlob with
      | error message => simp [bind, Except.bind]
      | ok authorityType => simp [bind, Except.bind, pure, Except.pure]
    · simp [bind, Except.bind, pure, Except.pure, htype, Ne.symm htype]

/-- **No reason to reject** is the same as meeting every requirement. -/
theorem certificateRejection_none_iff (now : ℕ) :
    certificateRejection hostToken certifiedKey certificate now = .ok none ↔
      CertificateAcceptable hostToken certifiedKey certificate now := by
  have hmaterial := certificateMaterialInvalid_false_iff certifiedKey certificate
  unfold certificateRejection
  constructor
  · intro h
    cases hm : certificateMaterialInvalid certifiedKey certificate with
    | error message => rw [hm] at h; cases h
    | ok invalid =>
      rw [hm] at h
      simp only [bind, Except.bind, pure, Except.pure] at h
      split_ifs at h with h1 h2 h3 h4 <;> try cases h
      obtain rfl : invalid = false := by simpa using h1
      obtain ⟨hhost, hplain, hdeclared, hauthority, htype⟩ := hmaterial.mp hm
      obtain ⟨hcount, hmany, hprincipal⟩ : certificate.principals.length ≠ 0 ∧
          certificate.principals.length ≤ 256 ∧ ∃ principal ∈ certificate.principals,
            certificatePrincipalMatches (certificatePrincipalHost hostToken) principal = true := by
        simpa only [not_or, Bool.not_eq_true', Bool.not_eq_false, not_lt, List.any_eq_true] using h4
      exact ⟨hhost, hplain, hdeclared, hauthority, htype, by omega, by omega, by simpa using h3,
        by omega, hmany, hprincipal⟩
  · rintro ⟨hhost, hplain, hdeclared, hauthority, htype, hafter, hbefore, hcritical, hpos, hmany,
      hprincipal⟩
    rw [hmaterial.mpr ⟨hhost, hplain, hdeclared, hauthority, htype⟩]
    have hany : certificate.principals.any
        (certificatePrincipalMatches (certificatePrincipalHost hostToken)) = true := by
      simpa only [List.any_eq_true] using hprincipal
    simp only [bind, Except.bind, pure, Except.pure, hcritical, hany]
    rw [if_neg (by decide), if_neg (by omega), if_neg (by decide),
      if_neg (by simp only [Bool.not_true, Bool.false_eq_true, or_false]; omega)]

theorem revoked_mem_certificateEvidence (documents : List KnownHostsDocument) :
    .revoked ∈ certificateEvidence hostToken certifiedKey certificate documents ↔
      Stored P hostToken documents .revoked certificate.certificateBlob ∨
        Stored P hostToken documents .revoked certifiedKey.blob ∨
        Stored P hostToken documents .revoked certificate.authorityBlob := by
  unfold certificateEvidence Stored
  rw [mem_evidence_record hostToken _ (by decide)]
  simp only [inspectCertificate_revoked_iff, and_or_left, exists_or]

theorem authorities_mem_certificateEvidence (documents : List KnownHostsDocument) :
    .authorities ∈ certificateEvidence hostToken certifiedKey certificate documents ↔
      Stored P hostToken documents .certAuthority certificate.authorityBlob := by
  unfold certificateEvidence Stored
  rw [mem_evidence_record hostToken _ (by decide)]
  simp only [inspectCertificate_authorities_iff]

theorem unreadable_notMem_certificateEvidence (documents : List KnownHostsDocument) :
    .unreadable ∉ certificateEvidence hostToken certifiedKey certificate documents ↔
      Legible P hostToken documents :=
  unreadable_notMem_iff hostToken _ (inspectCertificate_ne_unreadable certifiedKey certificate)
    documents

/-- **When a certificate is trusted**, in terms of the records and of the certificate. -/
theorem resolveCertificate_matching_iff (now : ℕ) (documents : List KnownHostsDocument) :
    (resolveCertificate hostToken certifiedKey certificate now documents).map (·.state) =
        .ok .matching ↔
      Legible P hostToken documents ∧
        ¬ Stored P hostToken documents .revoked certificate.certificateBlob ∧
        ¬ Stored P hostToken documents .revoked certifiedKey.blob ∧
        ¬ Stored P hostToken documents .revoked certificate.authorityBlob ∧
        Stored P hostToken documents .certAuthority certificate.authorityBlob ∧
        CertificateAcceptable hostToken certifiedKey certificate now := by
  rw [resolveCertificate_state, ← certificateRejection_none_iff,
    ← unreadable_notMem_certificateEvidence hostToken certifiedKey certificate,
    ← authorities_mem_certificateEvidence hostToken certifiedKey certificate]
  have hrevoked := revoked_mem_certificateEvidence hostToken certifiedKey certificate documents
  cases certificateRejection hostToken certifiedKey certificate now with
  | error message =>
    simp only
    split_ifs <;> simp
  | ok rejection =>
    rw [Except.ok.injEq, Verdict.certificate_matching_iff, hrevoked]
    simp only [not_or, Except.ok.injEq]
    tauto

/-- **A certificate never leaves a host unknown or changed.** -/
theorem resolveCertificate_state_ne {now : ℕ} {documents : List KnownHostsDocument}
    {result : KnownHostTrustResult}
    (h : resolveCertificate hostToken certifiedKey certificate now documents = .ok result) :
    result.state ≠ .unknown ∧ result.state ≠ .changed := by
  have hstate := resolveCertificate_state hostToken certifiedKey certificate now documents
  rw [h] at hstate
  cases hr : certificateRejection hostToken certifiedKey certificate now with
  | error message =>
    rw [hr] at hstate
    simp only [Except.map] at hstate
    split_ifs at hstate
    · rw [Except.ok.inj hstate]
      decide
    · rw [Except.ok.inj hstate]
      decide
  | ok rejection =>
    rw [hr] at hstate
    have hstate : result.state = Verdict.certificate (rejection = none)
        (certificateEvidence hostToken certifiedKey certificate documents) := by
      simpa [Except.map] using hstate
    rw [hstate]
    unfold Verdict.certificate
    split_ifs <;> simp

end Certificate

end VT7.KnownHosts
