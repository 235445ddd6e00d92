import VT7.KnownHosts.Parser
import VT7.KnownHosts.Verdict

/-!
# Trust resolution

`KnownHostTrustResolver`: every line of every document is looked at, the locations of what was found
are collected, and the state follows from which of the collections are nonempty.

Both resolvers share one scan; they differ in what they look for in a record.  `resolve_state` and
`resolveCertificate_state` connect the scan with the abstract verdict on the set of findings.
-/

namespace VT7.KnownHosts

open VT7.Dotnet VT7.Lib

/-- `KnownHostTrustResult`. -/
structure KnownHostTrustResult where
  state : KnownHostTrustState
  reason : String
  locations : List String

/-- `Result`: the locations without repetition. -/
def result (state : KnownHostTrustState) (reason : String) (locations : List String) :
    KnownHostTrustResult :=
  ⟨state, reason, locations.eraseDups⟩

/-! ### The scan -/

/-- The collected locations. -/
abbrev Findings := Finding → List String

def Findings.empty : Findings := fun _ => []

def Findings.add (found : Findings) (kind : Finding) (location : String) : Findings :=
  Function.update found kind (found kind ++ [location])

/-- Adds a location when there is something to add. -/
def Findings.note (found : Findings) (kind : Option Finding) (location : String) : Findings :=
  match kind with
  | some kind => found.add kind location
  | none => found

/-- The inner loop, over the lines of one document. -/
def scanLines (classify : KnownHostsLine → Except String (Option Finding)) (sourceId : String) :
    Findings → List KnownHostsLine → Except String Findings
  | found, [] => .ok found
  | found, line :: lines => do
    let kind ← classify line
    scanLines classify sourceId (found.note kind (sourceId ++ ":" ++ toString line.lineNumber)) lines

/-- The outer loop, over the documents. -/
def scan (classify : KnownHostsLine → Except String (Option Finding)) :
    Findings → List KnownHostsDocument → Except String Findings
  | found, [] => .ok found
  | found, document :: documents => do
    let found := match document.fatalError with
      | some error => found.add .unreadable (document.sourceId ++ ":" ++ error)
      | none => found
    let found ← scanLines classify document.sourceId found document.lines
    scan classify found documents

/-! ### Malformed lines -/

/-- `CandidateMatches`. -/
def candidateMatches (P : Platform) (hostToken : Text) (candidate : Option Text) : Bool :=
  match candidate with
  | none => false
  | some [] => false
  | some candidate =>
    match hostMatches P hostToken candidate with
    | .ok answer => answer
    | .error _ =>
      if candidate.head? = some '|' then true
      else (split ',' candidate).any fun item =>
        item ≠ [] && match hostMatches P hostToken item with
          | .ok answer => answer
          | .error _ => false

/-- A malformed line that could be about the host. -/
def isRelevant (P : Platform) (hostToken : Text) (line : KnownHostsLine) : Bool :=
  line.indeterminateHost || candidateMatches P hostToken line.candidateHostField

/-- The loop body that both resolvers share; `inspect` is what they do with an applicable record. -/
def classifyLine (P : Platform) (hostToken : Text) (inspect : KnownHostRecord → Option Finding)
    (line : KnownHostsLine) : Except String (Option Finding) :=
  if line.kind = .malformed then
    .ok (if isRelevant P hostToken line then some .unreadable else none)
  else
    match line.record with
    | none => .ok none
    | some record => do
      let applies ← hostMatches P hostToken record.hostField
      return if applies then inspect record else none

/-! ### Plain keys -/

variable {P : Platform}

/-- What `Resolve` does with an applicable record. -/
def inspectPlain (presented : PresentedHostKey P) (record : KnownHostRecord) : Option Finding :=
  let same := fixedEquals record.keyBlob presented.blob
  match record.marker with
  | .revoked => if same then some .revoked else none
  | .certAuthority => if presented.isCertificate then some .certificatePolicy else none
  | .none => if same then some .exact else some .changed

/-- `KnownHostTrustResolver.Resolve`. -/
def resolve (hostToken : Text) (presented : PresentedHostKey P)
    (documents : List KnownHostsDocument) : Except String KnownHostTrustResult := do
  let found ← scan (classifyLine P hostToken (inspectPlain presented)) .empty documents
  return if found .revoked ≠ [] then result .revoked "matching-revoked-key" (found .revoked)
  else if found .unreadable ≠ [] then
    result .unreadable "relevant-store-data-unreadable" (found .unreadable)
  else if presented.isCertificate then
    result .policyRejected "certificate-verification-unavailable" (found .certificatePolicy)
  else if found .exact ≠ [] then result .matching "exact-key-blob" (found .exact)
  else if found .changed ≠ [] then result .changed "different-key-for-host" (found .changed)
  else result .unknown "no-applicable-key" []

/-! ### Certificates -/

/-- What `ResolveCertificate` does with an applicable record. -/
def inspectCertificate (certifiedKey : PresentedHostKey P) (certificate : KnownHostCertificateFacts)
    (record : KnownHostRecord) : Option Finding :=
  let blob := record.keyBlob
  match record.marker with
  | .revoked =>
    if fixedEquals blob certificate.certificateBlob || fixedEquals blob certifiedKey.blob ||
      fixedEquals blob certificate.authorityBlob then some .revoked else none
  | .certAuthority =>
    if fixedEquals blob certificate.authorityBlob then some .authorities else none
  | .none => none

/-- `CertificateTypeMatchesKey`. -/
def certificateTypeMatchesKey (certificateType keyType : Text) : Bool :=
  if certificateSuffix.isSuffixOf certificateType then
    let baseType := certificateType.take (certificateType.length - certificateSuffix.length)
    let baseType :=
      if baseType = "rsa-sha2-256".toList ∨ baseType = "rsa-sha2-512".toList then "ssh-rsa".toList
      else baseType
    baseType = keyType
  else false

/-- `string.LastIndexOf`. -/
def lastIndexOf (part text : Text) : Option ℕ :=
  (List.range text.length).reverse.find? fun index => part.isPrefixOf (text.drop index)

/-- `CertificatePrincipalHost`: the host part of a token. -/
def certificatePrincipalHost (hostToken : Text) : Text :=
  if 2 < hostToken.length ∧ hostToken.head? = some '[' then
    match lastIndexOf "]:".toList hostToken with
    | some close => if 0 < close then (hostToken.drop 1).take (close - 1) else hostToken
    | none => hostToken
  else hostToken

/-- The wildcards of certificate principals; letters are compared as they are. -/
def principalWild : Glob.Wild Char where
  one q := q == '?'
  many q := q == '*'
  same q x := q == x
  many_not_one := star_not_question

/-- `CertificatePrincipalMatches`. -/
def certificatePrincipalMatches (host pattern : Text) : Bool :=
  if pattern = [] ∨ 1024 < pattern.length ∨
    pattern.any (fun c => c.toNat < 0x21 || 0x7e < c.toNat) then false
  else Glob.matcher principalWild host pattern

/-- The first check of `ResolveCertificate` on the certificate itself, with its short-circuits. -/
def certificateMaterialInvalid (certifiedKey : PresentedHostKey P)
    (certificate : KnownHostCertificateFacts) : Except String Bool :=
  if !certificate.isHost || certifiedKey.isCertificate then .ok true
  else do
    let innerType ← readKeyType certificate.certificateBlob
    if certificate.certificateType ≠ innerType then return true
    let authorityType ← readKeyType certificate.authorityBlob
    return certificateSuffix.isSuffixOf authorityType ||
      !certificateTypeMatchesKey certificate.certificateType certifiedKey.keyType

/-- The checks on the certificate itself: the reason to reject it, if there is one. -/
def certificateRejection (hostToken : Text) (certifiedKey : PresentedHostKey P)
    (certificate : KnownHostCertificateFacts) (now : ℕ) : Except String (Option String) := do
  let invalid ← certificateMaterialInvalid certifiedKey certificate
  if invalid then return some "certificate-material-invalid"
  if now < certificate.validAfter ∨ certificate.validBefore ≤ now then
    return some "certificate-expired-or-not-yet-valid"
  if certificate.hasCriticalOptions then return some "certificate-critical-option"
  let principalHost := certificatePrincipalHost hostToken
  if certificate.principals.length = 0 ∨ 256 < certificate.principals.length ∨
      !certificate.principals.any (certificatePrincipalMatches principalHost) then
    return some "certificate-principal-mismatch"
  return none

/-- `KnownHostTrustResolver.ResolveCertificate`, at the clock value `now`. -/
def resolveCertificate (hostToken : Text) (certifiedKey : PresentedHostKey P)
    (certificate : KnownHostCertificateFacts) (now : ℕ) (documents : List KnownHostsDocument) :
    Except String KnownHostTrustResult := do
  let found ← scan (classifyLine P hostToken (inspectCertificate certifiedKey certificate)) .empty
    documents
  if found .revoked ≠ [] then
    return result .revoked "certificate-material-revoked" (found .revoked)
  if found .unreadable ≠ [] then
    return result .unreadable "relevant-store-data-unreadable" (found .unreadable)
  match ← certificateRejection hostToken certifiedKey certificate now with
  | some reason => return result .policyRejected reason (found .authorities)
  | none =>
    return if found .authorities = [] then
      result .policyRejected "certificate-authority-untrusted" []
    else result .matching "certificate-authority-match" (found .authorities)

/-! ### The set of findings -/

/-- The host field of the record matches the token. -/
def Applies (P : Platform) (hostToken : Text) (record : KnownHostRecord) : Prop :=
  hostMatches P hostToken record.hostField = .ok true

/-- What a line contributes. -/
def Contributes (P : Platform) (hostToken : Text) (inspect : KnownHostRecord → Option Finding)
    (line : KnownHostsLine) (kind : Finding) : Prop :=
  (line.kind = .malformed ∧ isRelevant P hostToken line = true ∧ kind = .unreadable) ∨
    ∃ record, line.record = some record ∧ Applies P hostToken record ∧ inspect record = some kind

/-- **The evidence in a list of documents**: what some line contributes, and that a document could
not be read to its end. -/
def evidence (P : Platform) (hostToken : Text) (inspect : KnownHostRecord → Option Finding)
    (documents : List KnownHostsDocument) : Set Finding :=
  { kind | ∃ document ∈ documents, (document.fatalError ≠ none ∧ kind = .unreadable) ∨
    ∃ line ∈ document.lines, Contributes P hostToken inspect line kind }

variable (P) (hostToken : Text) (inspect : KnownHostRecord → Option Finding)

theorem record_none_of_malformed {line : KnownHostsLine} (h : line.kind = .malformed) :
    line.record = none := by
  have := line.record_iff
  rw [h] at this
  cases hr : line.record with
  | none => rfl
  | some r => simp [hr] at this

/-- **A line is classified without an exception**, as what it contributes. -/
theorem classifyLine_spec (line : KnownHostsLine) : ∃ kind,
    classifyLine P hostToken inspect line = .ok kind ∧
      ∀ k, kind = some k ↔ Contributes P hostToken inspect line k := by
  unfold classifyLine Contributes
  by_cases hm : line.kind = .malformed
  · have hr := record_none_of_malformed hm
    simp only [hm, if_true, hr, true_and]
    refine ⟨_, rfl, fun k => ?_⟩
    split_ifs with h <;> simp [h, eq_comm]
  · simp only [hm, if_false, false_and, false_or]
    cases hr : line.record with
    | none => exact ⟨none, rfl, by simp⟩
    | some record =>
      obtain ⟨b, hb⟩ := hostMatches_total P hostToken record.hostField_valid
      refine ⟨if b then inspect record else none, by simp [hb], fun k => ?_⟩
      cases b <;> simp [Applies, hb]

theorem note_ne_nil_iff (found : Findings) (kind : Option Finding) (location : String)
    (k : Finding) : found.note kind location k ≠ [] ↔ found k ≠ [] ∨ kind = some k := by
  cases kind with
  | none => simp [Findings.note]
  | some kind =>
    unfold Findings.note Findings.add
    by_cases h : k = kind
    · subst h
      simp
    · simp [Function.update_of_ne h, Ne.symm h]

theorem scanLines_spec (sourceId : String) (lines : List KnownHostsLine) (found : Findings) :
    ∃ found', scanLines (classifyLine P hostToken inspect) sourceId found lines = .ok found' ∧
      ∀ k, found' k ≠ [] ↔ found k ≠ [] ∨ ∃ line ∈ lines, Contributes P hostToken inspect line k := by
  induction lines generalizing found with
  | nil => exact ⟨found, rfl, by simp⟩
  | cons line lines ih =>
    obtain ⟨kind, hkind, hspec⟩ := classifyLine_spec P hostToken inspect line
    obtain ⟨found', hscan, hfound⟩ :=
      ih (found.note kind (sourceId ++ ":" ++ toString line.lineNumber))
    refine ⟨found', ?_, fun k => ?_⟩
    · unfold scanLines
      rw [hkind]
      exact hscan
    · rw [hfound, note_ne_nil_iff, hspec]
      simp [or_assoc]

/-- **The scan ends without an exception**, and each collection is nonempty exactly when the
documents hold evidence of its kind. -/
theorem scan_spec (documents : List KnownHostsDocument) (found : Findings) :
    ∃ found', scan (classifyLine P hostToken inspect) found documents = .ok found' ∧
      ∀ k, found' k ≠ [] ↔ found k ≠ [] ∨ k ∈ evidence P hostToken inspect documents := by
  induction documents generalizing found with
  | nil => exact ⟨found, rfl, by simp [evidence]⟩
  | cons document documents ih =>
    let started := found.note (document.fatalError.map fun _ => .unreadable)
      (document.sourceId ++ ":" ++ document.fatalError.getD "")
    obtain ⟨found₁, h₁, hf₁⟩ := scanLines_spec P hostToken inspect document.sourceId document.lines started
    obtain ⟨found', h₂, hf₂⟩ := ih found₁
    refine ⟨found', ?_, fun k => ?_⟩
    · have hstart : (match document.fatalError with
          | some error => found.add .unreadable (document.sourceId ++ ":" ++ error)
          | none => found) = started := by
        cases h : document.fatalError <;> simp [started, h, Findings.note]
      unfold scan
      simp only [hstart, h₁]
      exact h₂
    · rw [hf₂, hf₁, note_ne_nil_iff]
      unfold evidence
      simp only [Set.mem_ofPred_eq, List.mem_cons, exists_eq_or_imp, or_assoc]
      have : (Option.map (fun _ => Finding.unreadable) document.fatalError = some k) ↔
          (document.fatalError ≠ none ∧ k = .unreadable) := by
        cases document.fatalError <;> simp [eq_comm]
      rw [this]

/-! ### The two resolvers and the abstract verdict -/

variable {P}

/-- The evidence that `Resolve` collects. -/
def plainEvidence (hostToken : Text) (presented : PresentedHostKey P)
    (documents : List KnownHostsDocument) : Set Finding :=
  evidence P hostToken (inspectPlain presented) documents

/-- The evidence that `ResolveCertificate` collects. -/
def certificateEvidence (hostToken : Text) (certifiedKey : PresentedHostKey P)
    (certificate : KnownHostCertificateFacts) (documents : List KnownHostsDocument) : Set Finding :=
  evidence P hostToken (inspectCertificate certifiedKey certificate) documents

/-- **`Resolve` computes the abstract verdict on the set of findings.** -/
theorem resolve_state (hostToken : Text) (presented : PresentedHostKey P)
    (documents : List KnownHostsDocument) :
    (resolve hostToken presented documents).map (·.state) =
      .ok (Verdict.plain presented.isCertificate (plainEvidence hostToken presented documents)) := by
  obtain ⟨found, hscan, hfound⟩ := scan_spec P hostToken (inspectPlain presented) documents .empty
  have hfound : ∀ k, found k ≠ [] ↔ k ∈ plainEvidence hostToken presented documents := by
    intro k
    rw [hfound]
    simp [Findings.empty, plainEvidence]
  unfold resolve Verdict.plain
  rw [hscan]
  simp only [← hfound]
  simp only [bind, Except.bind, pure, Except.pure, Except.map]
  split_ifs <;> rfl

/-- **`ResolveCertificate` computes the abstract verdict on the set of findings**, unless nothing
blocks and a blob of the certificate has no readable type. -/
theorem resolveCertificate_state (hostToken : Text) (certifiedKey : PresentedHostKey P)
    (certificate : KnownHostCertificateFacts) (now : ℕ) (documents : List KnownHostsDocument) :
    (resolveCertificate hostToken certifiedKey certificate now documents).map (·.state) =
      match certificateRejection hostToken certifiedKey certificate now with
      | .ok rejection => .ok (Verdict.certificate (rejection = none)
          (certificateEvidence hostToken certifiedKey certificate documents))
      | .error message =>
        open Classical in
        if .revoked ∈ certificateEvidence hostToken certifiedKey certificate documents then
          .ok .revoked
        else if .unreadable ∈ certificateEvidence hostToken certifiedKey certificate documents then
          .ok .unreadable
        else .error message := by
  obtain ⟨found, hscan, hfound⟩ := scan_spec P hostToken
    (inspectCertificate certifiedKey certificate) documents .empty
  have hfound : ∀ k, found k ≠ [] ↔
      k ∈ certificateEvidence hostToken certifiedKey certificate documents := by
    intro k
    rw [hfound]
    simp [Findings.empty, certificateEvidence]
  unfold resolveCertificate Verdict.certificate
  rw [hscan]
  simp only [← hfound]
  simp only [bind, Except.bind, pure, Except.pure]
  cases certificateRejection hostToken certifiedKey certificate now with
  | error message =>
    simp only [Except.map]
    split_ifs <;> rfl
  | ok rejection =>
    cases rejection with
    | none | some =>
      simp only [Except.map]
      split_ifs <;> simp_all [result]

end VT7.KnownHosts
