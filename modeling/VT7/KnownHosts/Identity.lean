import VT7.KnownHosts.Writer

/-!
# The identity of a store

`ComputeIdentity` hashes a text with seven lines for each source.  Without collisions of the hash,
two loads of the same sources have the same identity only when they saw the same facts about every
file (`identity_inj`).
-/

namespace VT7.KnownHosts

open VT7.Dotnet VT7.Lib

/-- What the identity says about a file. -/
@[ext] structure SourceFacts where
  fileExists : Bool
  length : ℕ
  lastWriteUtc : ℕ
  contentHash : Text
  fatalError : Text

def KnownHostsSourceSnapshot.facts (source : KnownHostsSourceSnapshot) : SourceFacts :=
  ⟨source.fileExists, source.length, source.lastWriteUtc, source.contentHash,
    ((source.document.bind (·.fatalError)).getD "").toList⟩

/-- No line of the identity is broken by its own text. -/
def KnownHostsSourceSnapshot.Clean (source : KnownHostsSourceSnapshot) : Prop :=
  '\n' ∉ source.facts.contentHash ∧ '\n' ∉ source.facts.fatalError

/-! ### One line, one source -/

theorem line_inj {a b s t : Text} (ha : '\n' ∉ a) (hb : '\n' ∉ b)
    (h : a ++ '\n' :: s = b ++ '\n' :: t) : a = b ∧ s = t := by
  induction a generalizing b with
  | nil =>
    cases b with
    | nil => exact ⟨rfl, by simpa using h⟩
    | cons d b =>
      have : '\n' = d := (List.cons.inj h).1
      exact absurd (this ▸ List.mem_cons_self) hb
  | cons c a ih =>
    cases b with
    | nil =>
      have : c = '\n' := (List.cons.inj h).1
      exact absurd (this ▸ List.mem_cons_self) ha
    | cons d b =>
      obtain ⟨hcd, hrest⟩ := List.cons.inj h
      obtain ⟨hab, hst⟩ := ih (fun hc => ha (List.mem_cons_of_mem _ hc))
        (fun hc => hb (List.mem_cons_of_mem _ hc)) hrest
      exact ⟨by rw [hcd, hab], hst⟩

/-- **The lines of one source determine its facts.** -/
theorem identityLines_inj {P : Platform} {a b : KnownHostsSourceSnapshot} {s t : Text}
    (hdefinition : a.definition = b.definition) (ha : a.Clean) (hb : b.Clean)
    (h : identityLines P a ++ s = identityLines P b ++ t) : a.facts = b.facts ∧ s = t := by
  unfold identityLines at h
  simp only [List.append_assoc, List.cons_append, List.nil_append, hdefinition] at h
  have h := (List.cons.inj (List.append_cancel_left h)).2
  have h := (List.cons.inj (List.append_cancel_left h)).2
  obtain ⟨hexists, h⟩ := List.cons.inj h
  obtain ⟨hlength, h⟩ := line_inj (newline_notMem_decimal _) (newline_notMem_decimal _)
    (List.cons.inj h).2
  obtain ⟨htime, h⟩ := line_inj (newline_notMem_decimal _) (newline_notMem_decimal _) h
  obtain ⟨hhash, h⟩ := line_inj ha.1 hb.1 h
  obtain ⟨hfatal, h⟩ := line_inj ha.2 hb.2 h
  refine ⟨?_, h⟩
  have hexists : a.fileExists = b.fileExists := by
    cases ha : a.fileExists <;> cases hb : b.fileExists <;> simp_all
  exact SourceFacts.ext hexists (decimal_inj hlength) (decimal_inj htime) hhash hfatal

/-! ### Loaded sources -/

theorem newline_notMem_parseLines (sourceId : String) (raws : List Bytes) (lineNumber count : ℕ)
    (lines : List KnownHostsLine) :
    '\n' ∉ (((parseLines sourceId lineNumber count lines raws).fatalError).getD "").toList := by
  induction raws generalizing lineNumber count lines with
  | nil => simp [parseLines]
  | cons raw raws ih =>
    unfold parseLines
    by_cases hlong : maximumLineBytes < (semanticOf raw).length
    · have hdigits : '\n' ∉ (toString lineNumber).toList := by
        rw [Nat.toString_eq_ofList_toDigits, String.toList_ofList]
        exact newline_notMem_decimal lineNumber
      rw [if_pos hlong]
      simpa [String.toList_append] using hdigits
    · rw [if_neg hlong]
      extract_lets parsed counted
      by_cases hmany : parsed.kind = .record ∧ maximumRecords < counted
      · rw [if_pos hmany]
        have hlimit : '\n' ∉ "record-count-limit".toList := by decide
        exact hlimit
      · rw [if_neg hmany]
        exact ih _ _ _

theorem newline_notMem_parse (sourceId : String) (content : Bytes) :
    '\n' ∉ (((parse sourceId content).fatalError).getD "").toList := by
  unfold parse
  split_ifs
  · have hlimit : '\n' ∉ "file-size-limit".toList := by decide
    exact hlimit
  · exact newline_notMem_parseLines _ _ _ _ _

theorem clean_loadSource (P : Platform) (definition : KnownHostsSourceDefinition) (entry : DiskEntry)
    (fault : Option LoadFault) : (loadSource P definition entry fault).Clean := by
  have hfailed : ∀ reason length time, '\n' ∉ reason.toList →
      (failedSource definition reason length time).Clean :=
    fun reason length time h => ⟨List.not_mem_nil, h⟩
  unfold loadSource
  split
  · exact hfailed _ _ _ (by decide)
  · exact hfailed _ _ _ (by decide)
  · exact hfailed _ _ _ (by decide)
  · split
    · exact ⟨List.not_mem_nil, List.not_mem_nil⟩
    · exact hfailed _ _ _ (by decide)
    · split_ifs
      · exact hfailed _ _ _ (by decide)
      · exact ⟨newline_notMem_hex _, newline_notMem_parse _ _⟩

/-- **Without collisions the identity determines the facts.** -/
theorem identity_inj {P : Platform} (hP : P.CollisionFree)
    {a b : KnownHostsStoreSnapshot} (hdefinitions : a.sources.map (·.definition) = b.sources.map (·.definition))
    (ha : ∀ source ∈ a.sources, source.Clean) (hb : ∀ source ∈ b.sources, source.Clean)
    (h : a.identity P = b.identity P) : a.sources.map (·.facts) = b.sources.map (·.facts) := by
  have htext := utf8Bytes_inj (hP.injective (hex_inj h))
  obtain ⟨as⟩ := a
  obtain ⟨bs⟩ := b
  simp only at *
  clear h
  induction as generalizing bs with
  | nil =>
    cases bs with
    | nil => rfl
    | cons b bs => cases hdefinitions
  | cons a as ih =>
    cases bs with
    | nil => cases hdefinitions
    | cons b bs =>
      rw [List.flatMap_cons, List.flatMap_cons] at htext
      obtain ⟨hdefinition, hrest⟩ := List.cons.inj hdefinitions
      obtain ⟨hfacts, htext⟩ := identityLines_inj hdefinition (ha a List.mem_cons_self)
        (hb b List.mem_cons_self) htext
      rw [List.map_cons, List.map_cons, hfacts,
        ih (fun source hs => ha source (List.mem_cons_of_mem _ hs)) bs
          (fun source hs => hb source (List.mem_cons_of_mem _ hs)) hrest htext]

/-! ### Snapshots -/

/-- The sources come from a load, complete or not, whenever each of them was read. -/
def Loaded (P : Platform) (definitions : List KnownHostsSourceDefinition)
    (sources : List KnownHostsSourceSnapshot) : Prop :=
  ReadAs P definitions (fun _ _ => True) sources

/-- The snapshot comes from a load that found the entries. -/
def LoadedFrom (P : Platform) (entries : Disk) (faults : ℕ → Option LoadFault)
    (snapshot : KnownHostsStoreSnapshot) : Prop :=
  snapshot.sources = (snapshot.sources.map (·.definition)).mapIdx fun number definition =>
    loadSource P definition (entries number) (faults number)

theorem LoadedFrom.loaded {P : Platform} {entries : Disk} {faults : ℕ → Option LoadFault}
    {snapshot : KnownHostsStoreSnapshot} (h : LoadedFrom P entries faults snapshot) :
    Loaded P (snapshot.sources.map (·.definition)) snapshot.sources := by
  intro number source hs
  rw [h, List.getElem?_mapIdx] at hs
  obtain ⟨definition, hd, rfl⟩ := Option.map_eq_some_iff.mp hs
  exact ⟨definition, entries number, faults number, hd, rfl, trivial⟩

theorem LoadedFrom.head {P : Platform} {entries : Disk} {faults : ℕ → Option LoadFault}
    {snapshot : KnownHostsStoreSnapshot} {first : KnownHostsSourceSnapshot}
    {others : List KnownHostsSourceSnapshot} (h : LoadedFrom P entries faults snapshot)
    (hsources : snapshot.sources = first :: others) :
    first = loadSource P first.definition (entries 0) (faults 0) := by
  unfold LoadedFrom at h
  rw [hsources, List.map_cons, List.mapIdx_cons] at h
  exact (List.cons.inj h).1

theorem Loaded.definitions_eq {P : Platform} {definitions : List KnownHostsSourceDefinition}
    {sources : List KnownHostsSourceSnapshot} (h : Loaded P definitions sources)
    (hcomplete : definitions.length ≤ sources.length) : sources.map (·.definition) = definitions := by
  apply List.ext_getElem?
  intro number
  rw [List.getElem?_map]
  cases hs : sources[number]? with
  | none =>
    have hout : sources.length ≤ number := List.getElem?_eq_none_iff.mp hs
    rw [List.getElem?_eq_none_iff.mpr (by omega)]
    rfl
  | some source =>
    obtain ⟨definition, entry, fault, hd, rfl, -⟩ := h number source hs
    rw [hd, Option.map_some, loadSource_definition]

theorem Loaded.clean {P : Platform} {definitions : List KnownHostsSourceDefinition}
    {sources : List KnownHostsSourceSnapshot} (h : Loaded P definitions sources) :
    ∀ source ∈ sources, source.Clean := by
  intro source hs
  obtain ⟨number, hlt, rfl⟩ := List.mem_iff_getElem.mp hs
  obtain ⟨definition, entry, fault, -, heq, -⟩ := h number _ (List.getElem?_eq_getElem hlt)
  rw [heq]
  exact clean_loadSource P definition entry fault

/-- The three outcomes of loading a source. -/
theorem loadSource_cases (P : Platform) (definition : KnownHostsSourceDefinition) (entry : DiskEntry)
    (fault : Option LoadFault) :
    (entry = .missing ∧ loadSource P definition entry fault = missingSource definition) ∨
    (∃ reason length lastWriteUtc,
      loadSource P definition entry fault = failedSource definition reason length lastWriteUtc) ∨
    ∃ content lastWriteUtc, entry = .file content lastWriteUtc ∧
      loadSource P definition entry fault =
        createSourceSnapshot P definition content lastWriteUtc := by
  unfold loadSource
  split
  · exact .inr (.inl ⟨_, _, _, rfl⟩)
  · exact .inr (.inl ⟨_, _, _, rfl⟩)
  · exact .inr (.inl ⟨_, _, _, rfl⟩)
  · split
    · exact .inl ⟨rfl, rfl⟩
    · exact .inr (.inl ⟨_, _, _, rfl⟩)
    · split_ifs
      · exact .inr (.inl ⟨_, _, _, rfl⟩)
      · exact .inr (.inr ⟨_, _, rfl, rfl⟩)

/-- **Without collisions the facts determine a loaded source.** -/
theorem loadSource_inj {P : Platform} (hP : P.CollisionFree) {definition : KnownHostsSourceDefinition}
    {entry entry' : DiskEntry} {fault fault' : Option LoadFault}
    (h : (loadSource P definition entry fault).facts = (loadSource P definition entry' fault').facts) :
    loadSource P definition entry fault = loadSource P definition entry' fault' := by
  obtain ⟨-, ha⟩ | ⟨reason, length, time, ha⟩ | ⟨content, time, -, ha⟩ :=
    loadSource_cases P definition entry fault <;>
  obtain ⟨-, hb⟩ | ⟨reason', length', time', hb⟩ | ⟨content', time', -, hb⟩ :=
    loadSource_cases P definition entry' fault' <;>
  rw [ha, hb] at h ⊢ <;>
  obtain ⟨hexists, hlength, htime, hhash, hfatal⟩ := SourceFacts.ext_iff.mp h
  · cases hexists
  · cases hexists
  · cases hexists
  · obtain rfl : length = length' := hlength
    obtain rfl : time = time' := htime
    have hreason : reason = reason' := String.toList_injective hfatal
    rw [hreason]
  · exact absurd hhash.symm (hex_ne_nil (hP.nonempty _))
  · cases hexists
  · exact absurd hhash (hex_ne_nil (hP.nonempty _))
  · obtain rfl : time = time' := htime
    have hcontent : content = content' := hP.injective (hex_inj hhash)
    rw [hcontent]

/-- **Without collisions the identity determines a loaded snapshot.** -/
theorem snapshot_eq_of_identity {P : Platform} (hP : P.CollisionFree)
    {definitions : List KnownHostsSourceDefinition} {a b : KnownHostsStoreSnapshot}
    (ha : Loaded P definitions a.sources) (hb : Loaded P definitions b.sources)
    (ha' : definitions.length ≤ a.sources.length) (hb' : definitions.length ≤ b.sources.length)
    (h : a.identity P = b.identity P) : a = b := by
  have hfacts := identity_inj hP ((ha.definitions_eq ha').trans (hb.definitions_eq hb').symm)
    ha.clean hb.clean h
  obtain ⟨as⟩ := a
  obtain ⟨bs⟩ := b
  congr 1
  apply List.ext_getElem?
  intro number
  have hnumber := congrArg (·[number]?) hfacts
  simp only [List.getElem?_map] at hnumber
  cases hs : as[number]? with
  | none =>
    rw [hs] at hnumber
    cases ht : bs[number]? with
    | none => rfl
    | some source => rw [ht] at hnumber; cases hnumber
  | some source =>
    cases ht : bs[number]? with
    | none => rw [hs, ht] at hnumber; cases hnumber
    | some source' =>
      rw [hs, ht, Option.map_some, Option.map_some, Option.some.injEq] at hnumber
      obtain ⟨definition, entry, fault, hd, rfl, -⟩ := ha number source hs
      obtain ⟨definition', entry', fault', hd', rfl, -⟩ := hb number source' ht
      obtain rfl : definition = definition' := Option.some.inj (hd.symm.trans hd')
      rw [loadSource_inj hP hnumber]

/-- A file that is loaded with the hash of some content has that content. -/
theorem file_of_contentHash {P : Platform} (hP : P.CollisionFree)
    {definition : KnownHostsSourceDefinition} {entry : DiskEntry} {fault : Option LoadFault}
    {content : Bytes} (h : (loadSource P definition entry fault).contentHash = hex (P.sha256 content)) :
    ∃ lastWriteUtc, entry = .file content lastWriteUtc ∧ loadSource P definition entry fault =
      createSourceSnapshot P definition content lastWriteUtc := by
  have hne : hex (P.sha256 content) ≠ [] := hex_ne_nil (hP.nonempty _)
  obtain ⟨-, hload⟩ | ⟨reason, length, time, hload⟩ | ⟨content', time, hentry, hload⟩ :=
    loadSource_cases P definition entry fault
  · rw [hload] at h
    exact absurd h.symm hne
  · rw [hload] at h
    exact absurd h.symm hne
  · rw [hload] at h
    obtain rfl : content' = content := hP.injective (hex_inj h)
    exact ⟨time, hentry, hload⟩

/-- **The primary file is the one that was loaded**: the same content, or missing and empty now. -/
theorem content_of_primaryMatches {P : Platform} (hP : P.CollisionFree)
    {definition : KnownHostsSourceDefinition} {entry : DiskEntry} {fault : Option LoadFault}
    {content : Bytes} {lastWriteUtc : ℕ} {existed : Bool}
    (h : primaryMatchesFresh (loadSource P definition entry fault)
      (createSourceSnapshot P definition content lastWriteUtc) existed = true) :
    (∃ time, entry = .file content time) ∨ entry = .missing ∧ content = [] ∧ existed = false := by
  unfold primaryMatchesFresh at h
  by_cases hexists : (loadSource P definition entry fault).fileExists = true
  · rw [if_neg (by simp [hexists])] at h
    cases existed with
    | false => cases h
    | true =>
      simp only [Bool.not_true, Bool.false_eq_true, if_false, Bool.and_eq_true,
        decide_eq_true_eq] at h
      obtain ⟨time, hentry, -⟩ := file_of_contentHash hP h.2
      exact .inl ⟨time, hentry⟩
  · rw [if_pos (by simpa using hexists), Bool.and_eq_true, decide_eq_true_eq] at h
    obtain ⟨hmissing, hload⟩ | ⟨reason, length, time, hload⟩ | ⟨content', time, hentry, hload⟩ :=
      loadSource_cases P definition entry fault
    · exact .inr ⟨hmissing, List.length_eq_zero_iff.mp h.2, by simpa using h.1⟩
    · rw [hload] at hexists
      exact absurd rfl hexists
    · rw [hload] at hexists
      exact absurd rfl hexists

end VT7.KnownHosts
