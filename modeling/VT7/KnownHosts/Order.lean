import VT7.KnownHosts.Policy

/-!
# Order and growth of the documents

The state that a resolver returns is a function of the set of findings.  Reordering the documents, or
the lines inside them, does not change that set, and adding documents or lines only enlarges it.
So a resolver whose state follows from the findings by a precedence with the two blocking states on
top is independent of the order and fails closed (`FailClosed`).
-/

namespace VT7.KnownHosts

open VT7.Dotnet VT7.Lib

/-! ### Reordered and extended documents -/

/-- The same document with its lines in another order. -/
def SameLines (d d' : KnownHostsDocument) : Prop :=
  d.sourceId = d'.sourceId ∧ d.fatalError = d'.fatalError ∧ d.lines.Perm d'.lines

/-- The documents in another order, each with its lines in another order. -/
def Reordered (documents documents' : List KnownHostsDocument) : Prop :=
  ∃ middle, documents.Perm middle ∧ List.Forall₂ SameLines middle documents'

/-- The document with more lines, and possibly a fatal error behind them.  Line numbers and the
bytes of a line may differ: they are not looked at. -/
def Grown (d d' : KnownHostsDocument) : Prop :=
  (d.fatalError ≠ none → d'.fatalError ≠ none) ∧
    ∀ l ∈ d.lines, ∃ l' ∈ d'.lines, l.reading = l'.reading

/-- More lines or more documents. -/
def Extends (documents documents' : List KnownHostsDocument) : Prop :=
  ∀ d ∈ documents, ∃ d' ∈ documents', Grown d d'

theorem Grown.refl (d : KnownHostsDocument) : Grown d d := ⟨id, fun l hl => ⟨l, hl, rfl⟩⟩

/-- Every list of lines that contains the old ones is a growth. -/
theorem Grown.of_subset {d d' : KnownHostsDocument} (hf : d.fatalError = d'.fatalError)
    (hl : d.lines ⊆ d'.lines) : Grown d d' :=
  ⟨fun h => hf ▸ h, fun l h => ⟨l, hl h, rfl⟩⟩

theorem Reordered.extends {documents documents' : List KnownHostsDocument}
    (h : Reordered documents documents') : Extends documents documents' := by
  obtain ⟨middle, hperm, hlines⟩ := h
  intro d hd
  obtain ⟨i, hi, rfl⟩ := List.mem_iff_getElem.mp (hperm.subset hd)
  have hi' : i < documents'.length := hlines.length_eq ▸ hi
  obtain ⟨-, hf, hl⟩ := hlines.get hi hi'
  exact ⟨_, List.getElem_mem hi', .of_subset hf hl.subset⟩

theorem Reordered.symm_extends {documents documents' : List KnownHostsDocument}
    (h : Reordered documents documents') : Extends documents' documents := by
  obtain ⟨middle, hperm, hlines⟩ := h
  intro d hd
  obtain ⟨i, hi, rfl⟩ := List.mem_iff_getElem.mp hd
  have hi' : i < middle.length := hlines.length_eq ▸ hi
  obtain ⟨-, hf, hl⟩ := hlines.get hi' hi
  exact ⟨_, hperm.symm.subset (List.getElem_mem hi'), .of_subset hf.symm hl.symm.subset⟩

/-! ### The evidence -/

section Evidence

variable (P : Platform) (hostToken : Text) (inspect : KnownHostRecord → Option Finding)

theorem contributes_of_reading_eq {l l' : KnownHostsLine} (h : l.reading = l'.reading)
    {kind : Finding} (hc : Contributes P hostToken inspect l kind) :
    Contributes P hostToken inspect l' kind := by
  obtain ⟨hk, hr, hcand, hind⟩ := Reading.mk.inj h
  unfold Contributes isRelevant at hc ⊢
  rw [← hk, ← hr, ← hcand, ← hind]
  exact hc

/-- **More lines and more documents hold more evidence.** -/
theorem evidence_mono {documents documents' : List KnownHostsDocument}
    (h : Extends documents documents') :
    evidence P hostToken inspect documents ⊆ evidence P hostToken inspect documents' := by
  rintro kind ⟨d, hd, hkind⟩
  obtain ⟨d', hd', hfatal, hlines⟩ := h d hd
  refine ⟨d', hd', ?_⟩
  rcases hkind with ⟨hf, rfl⟩ | ⟨line, hline, hc⟩
  · exact .inl ⟨hfatal hf, rfl⟩
  · obtain ⟨line', hline', hsame⟩ := hlines line hline
    exact .inr ⟨line', hline', contributes_of_reading_eq P hostToken inspect hsame hc⟩

/-- **The order of documents and lines is no evidence.** -/
theorem evidence_reordered {documents documents' : List KnownHostsDocument}
    (h : Reordered documents documents') :
    evidence P hostToken inspect documents' = evidence P hostToken inspect documents :=
  Set.Subset.antisymm (evidence_mono P hostToken inspect h.symm_extends)
    (evidence_mono P hostToken inspect h.extends)

end Evidence

/-! ### Appending to a file -/

theorem Readable.of_append {content lead : Bytes} (hc : Closes content lead) {more : Bytes}
    (h : Readable (content ++ lead ++ more)) : Readable content := by
  rw [readable_iff, semanticLines_append hc, List.map_append, List.countP_append] at h
  obtain ⟨hlen, hlines, hcount⟩ := h
  rw [List.length_append, List.length_append] at hlen
  exact (readable_iff content).mpr
    ⟨by omega, fun line hl => hlines line (List.mem_append_left _ hl), by omega⟩

/-- **Lines behind the lines of a file** leave it unreadable or add to it. -/
theorem parse_append (sourceId : String) {content lead : Bytes} (hc : Closes content lead)
    (more : Bytes) :
    (parse sourceId (content ++ lead ++ more)).fatalError ≠ none ∨
      Grown (parse sourceId content) (parse sourceId (content ++ lead ++ more)) := by
  by_cases h : Readable (content ++ lead ++ more)
  · have hold := h.of_append hc
    refine .inr ⟨fun hf => absurd ((parse_fatalError_none_iff sourceId _).mpr hold) hf,
      fun line hl => ?_⟩
    have hmem : line.reading ∈
        (parse sourceId (content ++ lead ++ more)).lines.map (·.reading) := by
      rw [parse_readings sourceId h, semanticLines_append hc, List.map_append,
        ← parse_readings sourceId hold]
      exact List.mem_append_left _ (List.mem_map_of_mem hl)
    obtain ⟨line', hl', heq⟩ := List.mem_map.mp hmem
    exact ⟨line', hl', heq.symm⟩
  · exact .inl fun hf => h ((parse_fatalError_none_iff sourceId _).mp hf)

/-! ### Resolvers that fail closed -/

/-- A resolver whose state does not depend on the order of documents and lines, and in which more
data cannot lift a block. -/
structure FailClosed (state : List KnownHostsDocument → Except String KnownHostTrustState) :
    Prop where
  reordered : ∀ {documents documents'}, Reordered documents documents' →
    state documents' = state documents
  revoked : ∀ {documents documents'}, Extends documents documents' →
    state documents = .ok .revoked → state documents' = .ok .revoked
  blocked : ∀ {documents documents'}, Extends documents documents' →
    (∃ s, Verdict.Blocked s ∧ state documents = .ok s) →
      ∃ s, Verdict.Blocked s ∧ state documents' = .ok s
  /-- Any data, on lines of its own, at the end of one file. -/
  appended : ∀ (front back : List KnownHostsDocument) (sourceId : String)
    {content lead : Bytes} (more : Bytes), Closes content lead →
    (∃ s, Verdict.Blocked s ∧ state (front ++ parse sourceId content :: back) = .ok s) →
      ∃ s, Verdict.Blocked s ∧
        state (front ++ parse sourceId (content ++ lead ++ more) :: back) = .ok s

/-- **The state fails closed when it follows from the findings** by a verdict in which the blocking
states come first. -/
theorem FailClosed.of_evidence {P : Platform} {hostToken : Text}
    {inspect : KnownHostRecord → Option Finding}
    {state : List KnownHostsDocument → Except String KnownHostTrustState}
    {verdict : Set Finding → Except String KnownHostTrustState} (hv : Verdict.BlocksFirst verdict)
    (hstate : ∀ documents, state documents = verdict (evidence P hostToken inspect documents)) :
    FailClosed state where
  reordered h := by rw [hstate, hstate, evidence_reordered P hostToken inspect h]
  revoked h := by
    rw [hstate, hstate]
    exact (hv.mono (evidence_mono P hostToken inspect h)).1
  blocked h := by
    rw [hstate, hstate]
    exact (hv.mono (evidence_mono P hostToken inspect h)).2
  appended front back sourceId content lead more hc := by
    rw [hstate, hstate]
    rcases parse_append sourceId hc more with hfatal | hgrown
    · exact fun _ => (hv.blocked _).mpr (.inr ⟨_, by simp, .inl ⟨hfatal, rfl⟩⟩)
    · refine (hv.mono (evidence_mono P hostToken inspect fun d hd => ?_)).2
      rcases List.mem_append.mp hd with hd | hd
      · exact ⟨d, by simp [hd], .refl d⟩
      rcases List.mem_cons.mp hd with rfl | hd
      · exact ⟨_, by simp, hgrown⟩
      · exact ⟨d, by simp [hd], .refl d⟩

/-- **Both resolvers fail closed**, the second one at every clock value. -/
theorem resolvers_failClosed {P : Platform} (hostToken : Text)
    (presented certifiedKey : PresentedHostKey P) (certificate : KnownHostCertificateFacts)
    (now : ℕ) :
    FailClosed (fun documents => (resolve hostToken presented documents).map (·.state)) ∧
      FailClosed (fun documents =>
        (resolveCertificate hostToken certifiedKey certificate now documents).map (·.state)) := by
  refine ⟨.of_evidence Verdict.plain_blocksFirst (resolve_state hostToken presented), ?_⟩
  have hstate := resolveCertificate_state hostToken certifiedKey certificate now
  cases hr : certificateRejection hostToken certifiedKey certificate now with
  | ok rejection =>
    simp only [hr] at hstate
    exact .of_evidence Verdict.certificate_blocksFirst hstate
  | error message =>
    simp only [hr] at hstate
    exact .of_evidence (Verdict.error_blocksFirst message) hstate

/-- A letter behind a line that revokes a key and does not end with a line feed: the line names another key now, and
the revoked key is trusted. -/
theorem letter_lifts_revocation :
    ((resolve "a".toList sampleKey [parse "user-known-hosts"
      (utf8Bytes "a k AAAAAWs=\n@revoked a k AAAAAWs".toList)]).map (·.state)).toOption = some .revoked ∧
    ((resolve "a".toList sampleKey [parse "user-known-hosts"
      (utf8Bytes "a k AAAAAWs=\n@revoked a k AAAAAWs".toList ++ [0x41])]).map (·.state)).toOption =
        some .matching := by
  decide

end VT7.KnownHosts
