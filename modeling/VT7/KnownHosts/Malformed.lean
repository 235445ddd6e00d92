import VT7.KnownHosts.Policy

/-!
# Malformed lines

A line that cannot be read as a record still remembers which host it could have been about: the host
field that `ParseLine` had already read, or the one that `TryCandidateHostField` finds.  The main
result says for which hosts such a line blocks every key (`Concerns`).
-/

namespace VT7.KnownHosts

open VT7.Dotnet VT7.Lib

/-! ### The host of a malformed line -/

/-- The first token starts as a marker does, and is none of the two that exist. -/
def HasUnknownMarker (semantic : Bytes) : Prop :=
  ∃ first rest, readToken semantic = .ok (first, rest) ∧ first.head? = some '@' ∧
    first ≠ "@cert-authority".toList ∧ first ≠ "@revoked".toList

theorem malformedHost_unreadable {semantic : Bytes} {message : String}
    (hc : readCandidate semantic = .error message) {e : Interrupted}
    (he : readRecord semantic = .error e) : malformedHost semantic e = (none, true) := by
  have hnone : e.hostField = none := by
    unfold readRecord at he
    unfold readCandidate at hc
    cases ht : readToken semantic with
    | error m =>
      rw [ht] at he
      cases he
      rfl
    | ok token =>
      obtain ⟨first, rest⟩ := token
      simp only [ht, bind, Except.bind, pure, Except.pure] at he hc
      by_cases hat : first.head? = some '@'
      · rw [if_pos hat] at hc
        unfold readHostField at he
        rw [if_pos hat] at he
        cases hs : readToken rest with
        | ok second => rw [hs] at hc; cases hc
        | error m =>
          simp only [hs, bind, Except.bind] at he
          split_ifs at he <;> (cases he; rfl)
      · rw [if_neg hat] at hc
        cases hc
  unfold malformedHost tryCandidateHostField
  rw [hnone, hc]

theorem malformedHost_field {semantic : Bytes} {field : Text}
    (hc : readCandidate semantic = .ok field) {e : Interrupted}
    (he : readRecord semantic = .error e) : (malformedHost semantic e).1 = some field ∧
      (HasUnknownMarker semantic → field.head? = some '|' → (malformedHost semantic e).2 = true) := by
  -- `ParseLine` has read the same field, or none and the search finds it
  have hfield : e.hostField = some field ∨ e.hostField = none := by
    unfold readRecord at he
    unfold readCandidate at hc
    cases ht : readToken semantic with
    | error m => rw [ht] at hc; cases hc
    | ok token =>
      obtain ⟨first, rest⟩ := token
      simp only [ht, bind, Except.bind, pure, Except.pure] at he hc
      cases hf : readHostField first rest with
      | error m =>
        rw [hf] at he
        cases he
        exact .inr rfl
      | ok found =>
        obtain ⟨marker, hostField, rest'⟩ := found
        have hsame : hostField = field := by
          unfold readHostField at hf
          by_cases hat : first.head? = some '@'
          · rw [if_pos hat] at hc hf
            cases hs : readToken rest with
            | error m => rw [hs] at hc; cases hc
            | ok second =>
              simp only [hs, bind, Except.bind, pure, Except.pure, Except.ok.injEq] at hc hf
              split_ifs at hf <;> (cases hf; exact hc)
          · rw [if_neg hat] at hc hf
            cases hc
            cases hf
            rfl
        subst hsame
        simp only [hf] at he
        split_ifs at he with hv
        · cases hk : readKey rest' with
          | error m =>
            rw [hk] at he
            cases he
            exact .inl rfl
          | ok key => rw [hk] at he; cases he
        · cases he
          exact .inl rfl
  have hfound : tryCandidateHostField semantic = (some field, decide (field.head? = some '|')) := by
    unfold tryCandidateHostField
    rw [hc]
  rcases hfield with hfield | hfield
  · refine ⟨by simp [malformedHost, hfield], ?_⟩
    rintro ⟨first, rest, ht, hat, hca, hrev⟩ -
    -- a marker that does not exist stops `ParseLine` in front of the field
    have hstop : readRecord semantic = .error ⟨"marker", none, false⟩ := by
      have hmark : readHostField first rest = .error "marker" := by
        unfold readHostField
        rw [if_pos hat, if_neg hca, if_neg hrev]
      unfold readRecord
      simp only [ht, hmark]
    rw [hstop] at he
    cases he
    cases hfield
  · unfold malformedHost
    simp only [hfield, hfound]
    exact ⟨trivial, fun _ hbar => by simpa using hbar⟩

/-! ### The hosts that it concerns -/

/-- The line of this text, when it is malformed, could be about the host. -/
inductive Concerns (P : Platform) (hostToken : Text) (semantic : Bytes) : Prop
  /-- The host field cannot be read. -/
  | unreadable {message : String} : readCandidate semantic = .error message →
    Concerns P hostToken semantic
  /-- The host field begins as a hash, behind a marker that does not exist. -/
  | marked {field : Text} : readCandidate semantic = .ok field → field.head? = some '|' →
    HasUnknownMarker semantic → Concerns P hostToken semantic
  /-- The host field begins as a hash, and is none or the host's. -/
  | hashed {field : Text} : readCandidate semantic = .ok field → field.head? = some '|' →
    (∀ parts, parseHash field = .ok parts → hostMatches P hostToken field = .ok true) →
    Concerns P hostToken semantic
  /-- A pattern matches the host and no negated pattern does. -/
  | pattern {field item : Text} : readCandidate semantic = .ok field → field.head? ≠ some '|' →
    item ∈ split ',' field → item ≠ [] → item.head? ≠ some '!' → item.head? ≠ some '|' →
    globMatches hostToken item = true →
    (∀ negated ∈ split ',' field, negated.head? = some '!' →
      globMatches hostToken negated.tail = false) → Concerns P hostToken semantic

theorem matchItems_positive {hostToken : Text} {items : List Text}
    (hneg : ∀ item ∈ items, item.head? = some '!' → globMatches hostToken item.tail = false)
    {positive : Bool} (hpos : positive = true ∨
      ∃ item ∈ items, item.head? ≠ some '!' ∧ globMatches hostToken item = true) :
    matchItems hostToken positive items = .ok true ∨
      ∃ message, matchItems hostToken positive items = .error message := by
  induction items generalizing positive with
  | nil =>
    rcases hpos with rfl | ⟨item, hitem, -⟩
    · exact .inl rfl
    · cases hitem
  | cons item items ih =>
    have ih := fun {positive} => @ih (fun i hi => hneg i (by simp [hi])) positive
    unfold matchItems
    split_ifs with h1 h2 h3 h4
    · exact .inr ⟨_, rfl⟩
    · exact .inr ⟨_, rfl⟩
    · -- this item does not match: the one that does is further behind
      refine ih (hpos.imp_right ?_)
      rintro ⟨i, hi, hbang, hglob⟩
      rcases List.mem_cons.mp hi with rfl | hi
      · rw [patternOf, if_neg hbang, hglob] at h3
        cases h3
      · exact ⟨i, hi, hbang, hglob⟩
    · have := hneg item (by simp) h4
      rw [patternOf, if_pos h4, this] at h3
      exact absurd rfl h3
    · exact ih (.inl rfl)

theorem candidateMatches_pattern (P : Platform) {hostToken field item : Text}
    (hfield : field.head? ≠ some '|') (hitem : item ∈ split ',' field) (hne : item ≠ [])
    (hbang : item.head? ≠ some '!') (hbar : item.head? ≠ some '|')
    (hglob : globMatches hostToken item = true)
    (hneg : ∀ negated ∈ split ',' field, negated.head? = some '!' →
      globMatches hostToken negated.tail = false) :
    candidateMatches P hostToken (some field) = true := by
  have hwhole : hostMatches P hostToken field = matchItems hostToken false (split ',' field) := by
    unfold hostMatches
    rw [if_neg hfield]
  unfold candidateMatches
  split
  · rename_i h
    cases h
  · rename_i h
    obtain rfl : field = [] := by simpa using h
    have : item = [] := by simpa [split, List.splitOn_nil] using hitem
    exact absurd this hne
  · rename_i candidate hcandidate h
    obtain rfl : field = candidate := by simpa using h
    rw [hwhole]
    rcases matchItems_positive hneg (.inr ⟨item, hitem, hbang, hglob⟩) with hok | ⟨message, herr⟩
    · rw [hok]
    · -- an empty pattern elsewhere in the field: the items are tried one by one
      rw [herr]
      simp only [if_neg hfield, List.any_eq_true]
      refine ⟨item, hitem, ?_⟩
      have hsingle : split ',' item = [item] :=
        List.splitOn_eq_singleton (notMem_of_mem_split hitem)
      have hone : hostMatches P hostToken item = .ok true := by
        unfold hostMatches
        rw [if_neg hbar, hsingle]
        have hp : patternOf item = item := by rw [patternOf, if_neg hbang]
        simp [matchItems, hne, hp, hglob, hbang]
      simp [hne, hone]

theorem candidateMatches_hash (P : Platform) {hostToken field : Text}
    (hbar : field.head? = some '|')
    (hhash : ∀ parts, parseHash field = .ok parts → hostMatches P hostToken field = .ok true) :
    candidateMatches P hostToken (some field) = true := by
  obtain ⟨c, rest, rfl⟩ : ∃ c rest, field = c :: rest := by
    cases field with
    | nil => cases hbar
    | cons c rest => exact ⟨c, rest, rfl⟩
  unfold candidateMatches
  simp only
  cases hp : parseHash (c :: rest) with
  | ok parts => rw [hhash parts hp]
  | error message =>
    have : hostMatches P hostToken (c :: rest) = .error message := by
      unfold hostMatches matchesHashed
      rw [if_pos hbar, hp]
      rfl
    rw [this]
    simp only [if_pos hbar]

/-- **A malformed line is relevant to every host that it concerns.** -/
theorem isRelevant_of_concerns {P : Platform} {hostToken : Text} {semantic : Bytes}
    (h : Concerns P hostToken semantic) (lineNumber : ℕ) (raw : Bytes)
    (hm : (parseLine lineNumber raw semantic).kind = .malformed) :
    isRelevant P hostToken (parseLine lineNumber raw semantic) = true := by
  unfold parseLine at hm ⊢
  split_ifs at hm with hcomment
  rw [if_neg hcomment]
  cases hr : readRecord semantic with
  | ok record => rw [hr] at hm; cases hm
  | error e =>
    unfold isRelevant
    simp only [Bool.or_eq_true]
    cases h with
    | unreadable hc => exact .inl (by rw [malformedHost_unreadable hc hr])
    | marked hc hbar hmarker => exact .inl ((malformedHost_field hc hr).2 hmarker hbar)
    | hashed hc hbar hhash =>
      rw [(malformedHost_field hc hr).1]
      exact .inr (candidateMatches_hash P hbar hhash)
    | pattern hc hfield hitem hne hbang hbar hglob hneg =>
      rw [(malformedHost_field hc hr).1]
      exact .inr (candidateMatches_pattern P hfield hitem hne hbang hbar hglob hneg)

/-- **Malformed lines fail closed.**  A line that is neither blank nor a comment nor a record blocks
every key of every host that it concerns, in every list of documents that contains it. -/
theorem malformed_line_blocks {P : Platform} (hostToken : Text) (presented : PresentedHostKey P)
    (lineNumber : ℕ) (raw semantic : Bytes) (hcomment : isCommentLine semantic = false)
    (hrecord : (parseLine lineNumber raw semantic).kind ≠ .record)
    (hconcerns : Concerns P hostToken semantic) (documents : List KnownHostsDocument)
    (hline : ∃ document ∈ documents, parseLine lineNumber raw semantic ∈ document.lines) :
    ∃ result, resolve hostToken presented documents = .ok result ∧
      (result.state = .revoked ∨ result.state = .unreadable) := by
  have hm : (parseLine lineNumber raw semantic).kind = .malformed := by
    unfold parseLine at hrecord ⊢
    rw [hcomment] at hrecord ⊢
    cases hr : readRecord semantic with
    | ok record => simp [hr] at hrecord
    | error e => simp
  obtain ⟨document, hd, hl⟩ := hline
  obtain ⟨result, hresolve, hstate⟩ := resolve_total hostToken presented documents
  refine ⟨result, hresolve, ?_⟩
  rw [hstate]
  refine Verdict.plain_blocked_iff.mpr (.inr ⟨document, hd, .inr ⟨_, hl, .inl ⟨hm, ?_, rfl⟩⟩⟩)
  exact isRelevant_of_concerns hconcerns lineNumber raw hm

/-- A line with an empty pattern and without a key: the host `b` is on it. -/
def unfinishedLine : Bytes := utf8Bytes "a,,b k".toList

theorem malformed_line_blocks_listed :
    ∃ result, resolve "b".toList sampleKey [⟨"user-known-hosts",
        [parseLine 1 unfinishedLine unfinishedLine], none⟩] = .ok result ∧
      (result.state = .revoked ∨ result.state = .unreadable) :=
  malformed_line_blocks "b".toList sampleKey 1 unfinishedLine unfinishedLine (by decide)
    (by decide)
    (@Concerns.pattern _ _ _ "a,,b".toList "b".toList (by rfl) (by decide) (by decide) (by decide)
      (by decide) (by decide) (by decide) (by decide +kernel)) _
    ⟨_, List.mem_singleton_self _, List.mem_singleton_self _⟩

/-! ### A well-formed hash of another host -/

section Hash

/-- The salt, and the HMAC-SHA1 of `a` under it. -/
def sampleSalt : Bytes := [0, 1, 2, 3, 4, 5, 6, 7, 8, 9, 10, 11, 12, 13, 14, 15, 16, 17, 18, 19]

def sampleMac : Bytes :=
  [16, 80, 170, 159, 41, 2, 90, 248, 16, 125, 178, 126, 129, 178, 8, 237, 17, 58, 224, 12]

def hashPlatform : Platform :=
  .ofDigests [(sampleBlob, sampleDigest)] [((sampleSalt, utf8Bytes "a".toList), sampleMac)]

def hashKey : PresentedHostKey hashPlatform :=
  ⟨['k'], sampleBlob, fingerprintOf hashPlatform sampleBlob, readKeyType_sampleBlob, rfl⟩

/-- The hashed host field of the host `b`, without a key behind it. -/
def hashedLine : Bytes :=
  utf8Bytes "|1|AAECAwQFBgcICQoLDA0ODxAREhM=|Ujye4I1M5sqOh64baNc92BydZDM= k".toList

/-- The line is malformed and its host field begins as a hash, and yet the host `a` is unknown: the
hash can be read and is another host's. -/
theorem hashed_line_of_other_host :
    hashedLine.length ≤ maximumLineBytes ∧ isCommentLine hashedLine = false ∧
      (parseLine 1 hashedLine hashedLine).kind ≠ .record ∧
      (readCandidate hashedLine).toOption.bind List.head? = some '|' ∧
      ((resolve "a".toList hashKey [⟨"user-known-hosts", [parseLine 1 hashedLine hashedLine],
        none⟩]).map (·.state)).toOption = some .unknown := by
  decide

end Hash

end VT7.KnownHosts
