import VT7.KnownHosts.FailedAdd

/-!
# What an addition changes for other hosts

The added line has the token of one host as its host field, but a host field is a pattern.  The main
result compares the store before and after a successful `AddPrimaryUserRecord` for every other host:
nothing changes for the hosts that the token, read as a pattern, does not match, and for those that
it matches only when the store had already settled the matter.
-/

namespace VT7.KnownHosts

open VT7.Dotnet VT7.Lib

/-! ### Quiet runs -/

/-- Nobody else is at work. -/
def Quiet (_ : AddState) : AddEvent → Prop
  | .external _ _ => False
  | _ => True

namespace AddCall

variable {P : Platform} (call : AddCall P)

/-- The bytes of the primary file when the call opens it. -/
def Content (entry : DiskEntry) (content : Bytes) : Prop :=
  (∃ lastWriteUtc, entry = .file content lastWriteUtc) ∨ entry = .missing ∧ content = []

/-- What a load of the disk has read so far, with any faults. -/
def ReadsAll (disk : Disk) (loaded : List KnownHostsSourceSnapshot) : Prop :=
  ReadAs P call.definitions (fun number entry => entry = disk number) loaded

/-- A load of the disk, with any faults. -/
structure Read (disk : Disk) (snapshot : KnownHostsStoreSnapshot) : Prop where
  reads : call.ReadsAll disk snapshot.sources
  complete : call.definitions.length ≤ snapshot.sources.length

/-- The call has opened the primary file and found the content. -/
structure Opened (before disk : Disk) (fresh : KnownHostsStoreSnapshot) (content : Bytes) : Prop where
  found : Content (before 0) content
  now : ∃ lastWriteUtc, disk = Function.update before 0 (.file content lastWriteUtc)
  read : call.Read before fresh

/-- The call has written the addition. -/
structure Added (before disk : Disk) (fresh : KnownHostsStoreSnapshot) (content : Bytes) : Prop where
  found : Content (before 0) content
  now : ∃ lastWriteUtc, disk = Function.update before 0
    (.file (content ++ buildAddition content call.hostToken call.presented) lastWriteUtc)
  read : call.Read before fresh
  admitted : ∃ existed lastWriteUtc, call.planAddition fresh existed content lastWriteUtc =
    .ok (buildAddition content call.hostToken call.presented)

/-- The invariant of quiet runs from a disk. -/
def QuietInv (before : Disk) (s : AddState) : Prop :=
  match s.pc with
  | .checking | .waiting => s.disk = before
  | .loading loaded => s.disk = before ∧ call.ReadsAll before loaded
  | .preparing fresh | .probing fresh | .opening fresh _ => s.disk = before ∧ call.Read before fresh
  | .holding fresh _ => ∃ content, call.Opened before s.disk fresh content
  | .writing fresh content addition => call.Opened before s.disk fresh content ∧
      ∃ existed lastWriteUtc, call.planAddition fresh existed content lastWriteUtc = .ok addition
  | .verifying fresh _ _ loaded =>
    ∃ content, call.Added before s.disk fresh content ∧ call.ReadsAll s.disk loaded
  | .returned verified => ∃ fresh content length hash, call.Added before s.disk fresh content ∧
      call.Read s.disk verified ∧ call.readBack fresh verified length hash = .ok verified
  | .threw _ => True

/-- **The step lemma.** -/
theorem quietInv_step (before : Disk) (s : AddState) (event : AddEvent) (s' : AddState)
    (hquiet : Quiet s event) (hstep : call.step s event = some s') (h : call.QuietInv before s) :
    call.QuietInv before s' := by
  have hmoves := call.moves_of_step hstep
  cases hmoves with
  | external free => exact absurd hquiet id
  | load pc next =>
    simp only [QuietInv, pc] at h ⊢
    obtain ⟨rfl, hloaded⟩ := h
    exact ⟨rfl, hloaded.append next rfl _⟩
  | reload pc next =>
    simp only [QuietInv, pc] at h ⊢
    obtain ⟨content, hadded, hloaded⟩ := h
    exact ⟨content, hadded, hloaded.append next rfl _⟩
  | fail | failWriteNone | failWriteSome | refuse | stale | reject | unverified => trivial
  | accept pc | prepare pc | probe pc =>
    simp only [QuietInv, pc] at h ⊢
    exact h
  | acquire pc =>
    simp only [QuietInv, pc] at h ⊢
    exact ⟨h, readAs_nil⟩
  | current pc complete same =>
    simp only [QuietInv, pc] at h ⊢
    exact ⟨h.1, h.2, complete⟩
  | @openFile lastWriteUtc fresh content time pc file =>
    simp only [QuietInv, pc] at h ⊢
    obtain ⟨rfl, hfresh⟩ := h
    refine ⟨content, .inl ⟨time, file⟩, ⟨time, ?_⟩, hfresh⟩
    rw [← file, Function.update_eq_self]
  | @createFile lastWriteUtc fresh pc missing =>
    simp only [QuietInv, pc] at h ⊢
    obtain ⟨rfl, hfresh⟩ := h
    exact ⟨[], .inr ⟨missing, rfl⟩, ⟨lastWriteUtc, rfl⟩, hfresh⟩
  | @plan lastWriteUtc fresh existed content time addition pc file good =>
    simp only [QuietInv, pc] at h ⊢
    obtain ⟨content', hopened⟩ := h
    obtain ⟨time', hdisk⟩ := hopened.now
    have hsame : content' = content := by
      rw [hdisk, Function.update_self] at file
      cases file
      rfl
    exact ⟨hsame ▸ hopened, existed, time, good⟩
  | @write lastWriteUtc fresh content addition pc =>
    simp only [QuietInv, pc] at h ⊢
    obtain ⟨hopened, existed, time, hplan⟩ := h
    obtain ⟨-, -, -, -, -, -, rfl, -⟩ := planAddition_ok hplan
    obtain ⟨time', hdisk⟩ := hopened.now
    refine ⟨content, ⟨hopened.found, ⟨lastWriteUtc, ?_⟩, hopened.read, existed, time, hplan⟩, readAs_nil⟩
    change Function.update s.disk 0 _ = _
    rw [hdisk, Function.update_idem]
  | @verify lastWriteUtc fresh length hash loaded verified pc complete good =>
    simp only [QuietInv, pc] at h ⊢
    obtain ⟨content, hadded, hloaded⟩ := h
    obtain rfl := (readBack_iff.mp good).1
    exact ⟨fresh, content, length, hash, hadded, ⟨hloaded, complete⟩, good⟩

/-! ### The evidence before and after -/

/-- A load whose documents have no fatal error met no fault. -/
theorem Read.load_eq {disk : Disk} {snapshot : KnownHostsStoreSnapshot} (h : call.Read disk snapshot)
    (hlegible : ∀ document ∈ snapshot.documents, document.fatalError = none) :
    snapshot = load P call.definitions disk := by
  have hsources : snapshot.sources = (load P call.definitions disk).sources := by
    apply List.ext_getElem?
    intro number
    refine h.reads.getElem?_eq h.complete (fun entry hentry => hentry) ?_
    intro source hs
    cases hd : source.document with
    | none => rfl
    | some document =>
      exact hlegible document (List.mem_filterMap.mpr ⟨source, List.mem_of_getElem? hs, hd⟩)
  cases snapshot
  rw [KnownHostsStoreSnapshot.mk.injEq]
  exact hsources

/-- **What a successful call adds**: for every host and both resolvers, the evidence of one record. -/
theorem evidence_of_added (htoken : IsHostToken call.hostToken) {before after : Disk}
    {fresh verified : KnownHostsStoreSnapshot} {content : Bytes} {length : ℕ} {hash : Text}
    (hadded : call.Added before after fresh content) (hverified : call.Read after verified)
    (hread : call.readBack fresh verified length hash = .ok verified) :
    hostMatches P call.hostToken call.hostToken = .ok true ∧
      call.presented.isCertificate = false ∧ ∃ record : KnownHostRecord,
      record.marker = .none ∧ record.keyBlob = call.presented.blob ∧
      ∀ (host : Text) (inspect : KnownHostRecord → Option Finding),
        evidence P host inspect (load P call.definitions after).documents =
          evidence P host inspect (load P call.definitions before).documents ∪
            { kind | hostMatches P host call.hostToken = .ok true ∧ inspect record = some kind } := by
  obtain ⟨existed, time, hplan⟩ := hadded.admitted
  obtain ⟨first, others, hsources, hlimit, -, hunknown, -, hsize⟩ := planAddition_ok hplan
  obtain ⟨hfatal, hlegible⟩ := call.fatalError_of_unknown hunknown
  have hreads : call.Reads before fresh.sources := hadded.read.reads.mono fun _ _ h _ => h
  have hcomplete := hadded.read.complete
  rw [hsources] at hreads hcomplete
  obtain ⟨definition, entry, fault, hhead, hfirst, -⟩ := hreads 0 first rfl
  obtain ⟨definitions, hdefs⟩ : ∃ definitions, call.definitions = definition :: definitions := by
    cases hd : call.definitions with
    | nil =>
      rw [hd] at hhead
      cases hhead
    | cons definition' definitions =>
      rw [hd] at hhead
      cases hhead
      exact ⟨definitions, rfl⟩
  have hothers := hreads.others_eq call hcomplete hlegible
  rw [hdefs, load_cons, List.tail_cons] at hothers
  have hdefinition : first.definition = definition := by rw [hfirst, loadSource_definition]
  have hdocuments : others.filterMap (·.document) =
      (load P definitions fun number => before (number + 1)).documents := by
    rw [hothers]
    rfl
  rw [hdefinition, hdocuments] at hunknown
  rw [hdefinition] at hfatal
  obtain ⟨lastWriteUtc, hafter⟩ := hadded.now
  have hnew : (load P call.definitions after).documents = parse definition.sourceId
      (content ++ buildAddition content call.hostToken call.presented) ::
        (load P definitions fun number => before (number + 1)).documents := by
    unfold KnownHostsStoreSnapshot.documents
    rw [hdefs, load_cons, hafter, Function.update_self,
      loadSource_file (by rw [List.length_append]; exact hsize)]
    simp [createSourceSnapshot]
  have hold : ∀ host inspect, evidence P host inspect (load P call.definitions before).documents =
      evidence P host inspect (parse definition.sourceId content ::
        (load P definitions fun number => before (number + 1)).documents) := by
    intro host inspect
    unfold KnownHostsStoreSnapshot.documents
    rw [hdefs, load_cons]
    rcases hadded.found with ⟨t, hfile⟩ | ⟨hmissing, rfl⟩
    · rw [hfile, loadSource_file hlimit]
      rfl
    · rw [hmissing, evidence_parse_empty]
      rfl
  obtain ⟨-, -, -, -, -, -, -, -, -, hmatching⟩ := readBack_iff.mp hread
  have hclean : ∀ document ∈ verified.documents, document.fatalError = none := by
    obtain ⟨result, hresult, hstate⟩ := hmatching
    rw [resolve_eq_ok _ _ hresult] at hstate
    exact ((resolve_matching_iff call.hostToken call.presented _).mp hstate).2.1.complete
  rw [Read.load_eq call hverified hclean, hnew] at hmatching
  have hstorable := Storable.of_matching hfatal htoken hunknown hsize hmatching
  obtain ⟨-, hself, -⟩ := parse_of_storable hfatal htoken hsize hstorable
  obtain ⟨record, hmarker, -, hblob, hevidence⟩ := evidence_of_storable hfatal htoken hsize hstorable
  have hplain : call.presented.isCertificate = false := by
    obtain ⟨result, hresult, hstate⟩ := hunknown
    rw [resolve_eq_ok _ _ hresult] at hstate
    exact ((resolve_unknown_iff call.hostToken call.presented _).mp hstate).2.2.1
  refine ⟨hself, hplain, record, hmarker, hblob, fun host inspect => ?_⟩
  rw [hnew, hevidence, hold]

end AddCall

/-! ### Hosts for which one more key makes no difference -/

/-- The store says as much about the host without the key as with it: it is unreadable for the host,
or has the key, or has the key revoked and some other key stored (or all other keys revoked). -/
def Settled (P : Platform) (host : Text) (documents : List KnownHostsDocument) (keyBlob : Bytes) :
    Prop :=
  ¬ Legible P host documents ∨ Stored P host documents .none keyBlob ∨
    (Stored P host documents .revoked keyBlob ∧ ((∃ other, Stored P host documents .none other) ∨
      ∀ presented : PresentedHostKey P, presented.isCertificate = false →
        presented.blob ≠ keyBlob → Stored P host documents .revoked presented.blob))

section Settled

variable {P : Platform} {host : Text} {documents documents' : List KnownHostsDocument}
  {key : PresentedHostKey P} {record : KnownHostRecord}

/-- The state for one presented key, with one more record for the host. -/
theorem plain_same_iff (hmarker : record.marker = .none) (hblob : record.keyBlob = key.blob)
    (hplain : key.isCertificate = false) (presented : PresentedHostKey P)
    (hevidence : plainEvidence host presented documents' = plainEvidence host presented documents ∪
      { kind | inspectPlain presented record = some kind }) :
    Verdict.plain presented.isCertificate (plainEvidence host presented documents') =
        Verdict.plain presented.isCertificate (plainEvidence host presented documents) ↔
      ¬ Legible P host documents ∨ Stored P host documents .revoked presented.blob ∨
        if presented.blob = key.blob then Stored P host documents .none key.blob
        else presented.isCertificate = true ∨ ∃ other, Stored P host documents .none other := by
  have hinsert : ∀ {kind}, inspectPlain presented record = some kind →
      plainEvidence host presented documents' =
        insert kind (plainEvidence host presented documents) := by
    intro kind hk
    rw [hevidence, hk, Set.union_comm]
    ext k
    simp [eq_comm]
  have hread : .unreadable ∈ plainEvidence host presented documents ↔
      ¬ Legible P host documents := by
    rw [← unreadable_notMem_plainEvidence host presented, not_not]
  by_cases hsame : presented.blob = key.blob
  · have hkey := PresentedHostKey.ext_blob hsame
    subst hkey
    rw [hinsert ((inspectPlain_exact_iff presented record).mpr ⟨hmarker, hblob⟩), hplain,
      Verdict.plain_insert_exact_iff, revoked_mem_plainEvidence, exact_mem_plainEvidence, hread,
      if_pos rfl]
    exact or_left_comm
  · have hdiffers : record.keyBlob ≠ presented.blob := by
      rw [hblob]
      exact Ne.symm hsame
    have hany : (∃ other, Stored P host documents .none other) ↔
        Stored P host documents .none presented.blob ∨
          ∃ other, other ≠ presented.blob ∧ Stored P host documents .none other := by
      constructor
      · rintro ⟨other, hs⟩
        by_cases ho : other = presented.blob
        · exact .inl (ho ▸ hs)
        · exact .inr ⟨other, ho, hs⟩
      · rintro (hs | ⟨other, -, hs⟩)
        · exact ⟨_, hs⟩
        · exact ⟨other, hs⟩
    rw [hinsert ((inspectPlain_changed_iff presented record).mpr ⟨hmarker, hdiffers⟩),
      Verdict.plain_insert_changed_iff, revoked_mem_plainEvidence, exact_mem_plainEvidence,
      changed_mem_plainEvidence, hread, if_neg hsame, hany]
    exact or_left_comm

/-- **The state is the same for every presented key exactly when the host is settled.** -/
theorem settled_iff (hmarker : record.marker = .none) (hblob : record.keyBlob = key.blob)
    (hplain : key.isCertificate = false)
    (hevidence : ∀ presented : PresentedHostKey P, plainEvidence host presented documents' =
      plainEvidence host presented documents ∪
        { kind | inspectPlain presented record = some kind }) :
    (∀ presented : PresentedHostKey P,
      Verdict.plain presented.isCertificate (plainEvidence host presented documents') =
        Verdict.plain presented.isCertificate (plainEvidence host presented documents)) ↔
      Settled P host documents key.blob := by
  have hiff := fun presented => plain_same_iff hmarker hblob hplain presented (hevidence presented)
  simp only [hiff]
  unfold Settled
  constructor
  · intro h
    by_cases hlegible : Legible P host documents
    swap
    · exact .inl hlegible
    have hown := h key
    rw [if_pos rfl] at hown
    rcases hown with hbad | hrevoked | hstored
    · exact absurd hlegible hbad
    · by_cases hother : ∃ other, Stored P host documents .none other
      · exact .inr (.inr ⟨hrevoked, .inl hother⟩)
      · refine .inr (.inr ⟨hrevoked, .inr fun presented hcert hne => ?_⟩)
        have := h presented
        rw [if_neg hne, hcert] at this
        rcases this with hbad | hrev | hcert' | hother'
        · exact absurd hlegible hbad
        · exact hrev
        · cases hcert'
        · exact absurd hother' hother
    · exact .inr (.inl hstored)
  · rintro (hbad | hstored | ⟨hrevoked, hothers⟩) presented
    · exact .inl hbad
    · refine .inr (.inr ?_)
      split_ifs
      · exact hstored
      · exact .inr ⟨_, hstored⟩
    · by_cases hsame : presented.blob = key.blob
      · exact .inr (.inl (hsame ▸ hrevoked))
      rw [if_neg hsame]
      rcases hothers with hother | hall
      · exact .inr (.inr (.inr hother))
      · cases hcert : presented.isCertificate with
        | true => exact .inr (.inr (.inl rfl))
        | false => exact .inr (.inl (hall presented hcert hsame))

end Settled

/-! ### Tokens as patterns -/

/-- A letter in the place of each wildcard. -/
def withoutWildcard (c : Char) : Char := if c = '*' ∨ c = '?' then 'x' else c

theorem withoutWildcard_of_ne {c : Char} (h : ¬ (c = '*' ∨ c = '?')) : withoutWildcard c = c :=
  if_neg h

theorem withoutWildcard_ne (c : Char) : withoutWildcard c ≠ '*' ∧ withoutWildcard c ≠ '?' := by
  unfold withoutWildcard
  split_ifs with h
  · decide
  · exact not_or.mp h

/-- A test that treats the wildcards as it treats the letter does not see the difference. -/
theorem withoutWildcard_test (p : Char → Bool) (h : p '*' = p 'x' ∧ p '?' = p 'x') :
    p ∘ withoutWildcard = p := by
  funext c
  by_cases hc : c = '*' ∨ c = '?'
  · simp only [Function.comp, withoutWildcard, if_pos hc]
    rcases hc with rfl | rfl
    · exact h.1.symm
    · exact h.2.symm
  · simp only [Function.comp, withoutWildcard_of_ne hc]

theorem withoutWildcard_eq_iff {c d : Char} (hd : d ≠ 'x' ∧ d ≠ '*' ∧ d ≠ '?') :
    withoutWildcard c = d ↔ c = d := by
  unfold withoutWildcard
  split_ifs with h
  · constructor
    · exact fun hx => absurd hx.symm hd.1
    · rintro rfl
      rcases h with h | h
      · exact absurd h hd.2.1
      · exact absurd h hd.2.2
  · rfl

theorem lowerAscii_withoutWildcard (c : Char) :
    lowerAscii (withoutWildcard c) = withoutWildcard (lowerAscii c) := by
  by_cases hc : c = '*' ∨ c = '?'
  · rcases hc with rfl | rfl <;> decide
  · rw [withoutWildcard_of_ne hc]
    refine (withoutWildcard_of_ne ?_).symm
    have hn := lowerAscii_toNat c
    rintro (h | h)
    · rw [h] at hn
      have hstar : ('*' : Char).toNat = 42 := rfl
      rw [hstar] at hn
      split_ifs at hn
      · omega
      · exact hc (.inl (Char.toNat_inj.mp hn.symm))
    · rw [h] at hn
      have hquestion : ('?' : Char).toNat = 63 := rfl
      rw [hquestion] at hn
      split_ifs at hn
      · omega
      · exact hc (.inr (Char.toNat_inj.mp hn.symm))

theorem trim_withoutWildcard (t : Text) :
    trim (t.map withoutWildcard) = (trim t).map withoutWildcard := by
  have hspace : isWhiteSpace ∘ withoutWildcard = isWhiteSpace :=
    withoutWildcard_test _ (by decide)
  unfold trim trimEnd List.rdropWhile
  rw [List.dropWhile_map, hspace, ← List.map_reverse, List.dropWhile_map, hspace, List.map_reverse]

theorem unbracket_withoutWildcard (host : Text) :
    unbracket (host.map withoutWildcard) = (unbracket host).map withoutWildcard := by
  have hopen : (host.map withoutWildcard).head? = some '[' ↔ host.head? = some '[' := by
    cases host with
    | nil => simp
    | cons c host => simp [withoutWildcard_eq_iff (show '[' ≠ 'x' ∧ '[' ≠ '*' ∧ '[' ≠ '?' by decide)]
  have hclose : (host.map withoutWildcard).getLast? = some ']' ↔ host.getLast? = some ']' := by
    rw [List.getLast?_map]
    cases host.getLast? with
    | none => simp
    | some c => simp [withoutWildcard_eq_iff (show ']' ≠ 'x' ∧ ']' ≠ '*' ∧ ']' ≠ '?' by decide)]
  unfold unbracket
  simp only [List.length_map, hopen, hclose]
  split_ifs
  · rw [← List.map_tail, List.map_dropLast]
  · rfl

theorem decimal_withoutWildcard (n : ℕ) : (decimal n).map withoutWildcard = decimal n := by
  refine (List.map_congr_left fun c hc => ?_).trans (List.map_id _)
  refine withoutWildcard_of_ne ?_
  have hdigit : c.isDigit = true := Nat.isDigit_of_mem_toDigits (by decide) (by decide) hc
  rintro (rfl | rfl) <;> exact absurd hdigit (by decide)

/-- **A token with letters in the place of its wildcards is a token.** -/
theorem createHostToken_withoutWildcard {host : Text} {port : ℕ} {token : Text}
    (h : createHostToken host port = .ok token) :
    createHostToken (host.map withoutWildcard) port = .ok (token.map withoutWildcard) := by
  unfold createHostToken at h ⊢
  have htrim : host.map withoutWildcard ≠ trim (host.map withoutWildcard) → host ≠ trim host := by
    rw [trim_withoutWildcard]
    exact fun hne heq => hne (congrArg _ heq)
  have hany : ((unbracket host).map withoutWildcard).any isRefused = (unbracket host).any isRefused := by
    rw [List.any_map, withoutWildcard_test isRefused (by decide)]
  have hlower : ((unbracket host).map withoutWildcard).map lowerAscii =
      ((unbracket host).map lowerAscii).map withoutWildcard := by
    rw [List.map_map, List.map_map]
    exact List.map_congr_left fun c _ => lowerAscii_withoutWildcard c
  simp only [unbracket_withoutWildcard, List.length_map, hany, hlower] at h ⊢
  split_ifs at h with hport hlength hempty hrefused h22
  · rw [if_neg hport, if_neg fun hc => hlength (hc.imp_right (Or.imp_right htrim)), if_neg hempty,
      if_neg hrefused, if_pos h22]
    cases h
    rfl
  · rw [if_neg hport, if_neg fun hc => hlength (hc.imp_right (Or.imp_right htrim)), if_neg hempty,
      if_neg hrefused, if_neg h22]
    cases h
    simp only [List.map_append, List.map_cons, decimal_withoutWildcard]
    rfl

section Patterns

variable (P : Platform) {hostToken : Text} (htoken : IsHostToken hostToken)
  (hbar : hostToken.head? ≠ some '|') (hself : hostMatches P hostToken hostToken = .ok true)

include htoken hbar hself

/-- A token that is no hash and matches itself is one pattern. -/
theorem hostMatches_token (host : Text) :
    hostMatches P host hostToken = .ok (globMatches host hostToken) := by
  obtain ⟨h, port, hcreate⟩ := htoken
  obtain ⟨hne, -, hchars⟩ := createHostToken_ok hcreate
  have hbang := ((hostMatches_self_iff P hchars hne).mp hself).1
  unfold hostMatches
  rw [if_neg hbar, split_hostToken hchars]
  have hp : patternOf hostToken = hostToken := if_neg hbang
  cases hg : globMatches host hostToken <;> simp [matchItems, hne, hp, hg, hbang]

/-- **A token matches another token exactly when it has a wildcard.** -/
theorem matches_other_iff :
    (∃ host, IsHostToken host ∧ host ≠ hostToken ∧ hostMatches P host hostToken = .ok true) ↔
      '*' ∈ hostToken ∨ '?' ∈ hostToken := by
  have hmatch := hostMatches_token P htoken hbar hself
  obtain ⟨h, port, hcreate⟩ := htoken
  obtain ⟨hne, -, hchars⟩ := createHostToken_ok hcreate
  constructor
  · rintro ⟨host, ⟨h', port', hcreate'⟩, hother, hm⟩
    by_contra hwild
    rw [hmatch, Except.ok.injEq] at hm
    obtain ⟨-, -, hchars'⟩ := createHostToken_ok hcreate'
    have hliteral : ∀ q ∈ hostToken, hostWild.many q = false ∧ hostWild.one q = false := by
      intro q hq
      simp only [hostWild, beq_eq_false_iff_ne]
      exact ⟨by rintro rfl; exact hwild (.inl hq), by rintro rfl; exact hwild (.inr hq)⟩
    have hall := (Glob.matcher_literal hliteral host).mp hm
    refine hother (List.ext_getElem hall.length_eq.symm fun i hi hi' => ?_)
    have hsame : lowerAscii (hostToken[i]) = lowerAscii (host[i]) := by
      simpa [hostWild] using hall.get hi' hi
    rw [(hchars _ (List.getElem_mem hi')).lower, (hchars' _ (List.getElem_mem hi)).lower] at hsame
    exact hsame.symm
  · intro hwild
    refine ⟨hostToken.map withoutWildcard, ⟨_, port, createHostToken_withoutWildcard hcreate⟩, ?_, ?_⟩
    · intro heq
      have hfree : ∀ c ∈ hostToken, c ≠ '*' ∧ c ≠ '?' := by
        intro c hc
        rw [← heq] at hc
        obtain ⟨d, -, rfl⟩ := List.mem_map.mp hc
        exact withoutWildcard_ne d
      rcases hwild with hw | hw
      · exact (hfree _ hw).1 rfl
      · exact (hfree _ hw).2 rfl
    · rw [hmatch, Except.ok.injEq]
      have hplain : Glob.Plain hostWild hostToken (hostToken.map withoutWildcard) := by
        intro q _ x hx hq
        obtain rfl : q = '*' := by simpa [hostWild] using hq
        obtain ⟨c, hc, rfl⟩ := List.mem_map.mp hx
        have hne := (withoutWildcard_ne (lowerAscii c)).1
        rw [← lowerAscii_withoutWildcard] at hne
        simpa [hostWild, show lowerAscii '*' = '*' by decide] using Ne.symm hne
      refine (Glob.matcher_iff hplain).mpr (Glob.matches_of_forall₂ ?_)
      rw [List.forall₂_map_right_iff]
      refine List.forall₂_same.mpr fun c hc => ?_
      by_cases hw : c = '*' ∨ c = '?'
      · rcases hw with rfl | rfl
        · exact .inl rfl
        · exact .inr rfl
      · rw [withoutWildcard_of_ne hw]
        exact .inr (by simp [hostWild])

end Patterns

/-! ### The frame -/

/-- **An addition affects only its own host, exactly when the other hosts that its token matches are
settled.**  After a successful quiet run of `AddPrimaryUserRecord`, the state of every other host and
every presented key is what it was before, if and only if each other token that the new host field
matches as a pattern was settled.  A token that does not begin as a hash matches another token
exactly when it has a wildcard. -/
theorem add_frame_iff {P : Platform} (call : AddCall P) (htoken : IsHostToken call.hostToken)
    (before : Disk) (events : List AddEvent) (s : AddState)
    (hquiet : Run.Along call.step Quiet (AddCall.start before) events)
    (hrun : Run.run call.step (AddCall.start before) events = some s)
    (verified : KnownHostsStoreSnapshot) (hreturned : s.pc = .returned verified) :
    ((∀ host, IsHostToken host → host ≠ call.hostToken → ∀ presented : PresentedHostKey P,
        (resolve host presented (load P call.definitions s.disk).documents).map (·.state) =
          (resolve host presented (load P call.definitions before).documents).map (·.state)) ↔
      ∀ host, IsHostToken host → host ≠ call.hostToken →
        hostMatches P host call.hostToken = .ok true →
          Settled P host (load P call.definitions before).documents call.presented.blob) ∧
    (call.hostToken.head? ≠ some '|' →
      ((∃ host, IsHostToken host ∧ host ≠ call.hostToken ∧
        hostMatches P host call.hostToken = .ok true) ↔
          '*' ∈ call.hostToken ∨ '?' ∈ call.hostToken)) := by
  have hinv : call.QuietInv before s :=
    Run.run_invariant_along (call.quietInv_step before) hquiet hrun rfl
  simp only [AddCall.QuietInv, hreturned] at hinv
  obtain ⟨fresh, content, length, hash, hadded, hverified, hread⟩ := hinv
  obtain ⟨hself, hplain, record, hmarker, hblob, hevidence⟩ :=
    call.evidence_of_added htoken hadded hverified hread
  refine ⟨forall₃_congr fun host _ _ => ?_, fun hbar => matches_other_iff P htoken hbar hself⟩
  simp only [resolve_state, Except.ok.injEq]
  by_cases hmatch : hostMatches P host call.hostToken = .ok true
  · simp only [hmatch, true_imp_iff]
    refine settled_iff hmarker hblob hplain fun presented => ?_
    unfold plainEvidence
    rw [hevidence]
    simp [hmatch]
  · simp only [hmatch, false_imp_iff, iff_true]
    intro presented
    unfold plainEvidence
    rw [hevidence]
    simp [hmatch]

section Sample

/-- The whole call, undisturbed. -/
def quietRun : List AddEvent := untilAdmitted ++ [.proceed 7] ++ loads ++ [.proceed 9]

def quietCheck (_ : AddState) : AddEvent → Bool
  | .external _ _ => false
  | _ => true

theorem quiet_of_check (s : AddState) (event : AddEvent) (h : quietCheck s event = true) :
    Quiet s event := by
  cases event with
  | external number entry => cases h
  | _ => trivial

def AddPc.verified : AddPc → Option KnownHostsStoreSnapshot
  | .returned verified => some verified
  | _ => none

theorem pc_of_verified {pc : AddPc} {verified : KnownHostsStoreSnapshot}
    (h : pc.verified = some verified) : pc = .returned verified := by
  cases pc <;> cases h
  rfl

/-- The key of the host `a` is added to an empty store: the state of no other host changes. -/
theorem add_frame_iff_first : ∃ s,
    Run.run (sampleAdd emptyDisk "a").step (AddCall.start emptyDisk) quietRun = some s ∧
      ∀ host, IsHostToken host → host ≠ "a".toList → ∀ presented : PresentedHostKey storePlatform,
        (resolve host presented (load storePlatform sampleDefinitions s.disk).documents).map
            (·.state) =
          (resolve host presented (load storePlatform sampleDefinitions emptyDisk).documents).map
            (·.state) := by
  have hrun : ((Run.run (sampleAdd emptyDisk "a").step (AddCall.start emptyDisk) quietRun).bind
      (·.pc.verified)).isSome = true := by decide +kernel
  obtain ⟨verified, hverified⟩ := Option.isSome_iff_exists.mp hrun
  obtain ⟨s, hs, hpc⟩ := Option.bind_eq_some_iff.mp hverified
  obtain ⟨hframe, hwild⟩ := add_frame_iff (sampleAdd emptyDisk "a") ⟨"a".toList, 22, by decide⟩
    emptyDisk quietRun s (Run.along_of_check quiet_of_check (by decide +kernel)) hs verified
    (pc_of_verified hpc)
  refine ⟨s, hs, hframe.mpr fun host hhost hne hmatch => ?_⟩
  rcases (hwild (by decide)).mp ⟨host, hhost, hne, hmatch⟩ with hstar | hquestion
  · exact absurd hstar (by decide)
  · exact absurd hquestion (by decide)

/-- The host `*`: one confirmation makes the key known for the host `b`. -/
theorem wildcard_token_matches_other :
    createHostToken "*".toList 22 = .ok "*".toList ∧ createHostToken "b".toList 22 = .ok "b".toList ∧
      ((Run.run (sampleAdd emptyDisk "*").step (AddCall.start emptyDisk) quietRun).map fun s =>
        (s.pc.verified.isSome, ((resolve "b".toList storeKey
          (load storePlatform sampleDefinitions s.disk).documents).map (·.state)).toOption)) =
        some (true, some .matching) ∧
      ((resolve "b".toList storeKey
        (load storePlatform sampleDefinitions emptyDisk).documents).map (·.state)).toOption =
          some .unknown := by
  decide +kernel

end Sample

end VT7.KnownHosts
