import VT7.KnownHosts.Policy

/-!
# Patterns and their language

The loops of `GlobMatches` and `CertificatePrincipalMatches` compare a pattern character with the value before they
look whether it is a `*`.  They answer by the language of every pattern exactly when the value has no `*` of its own
(`globs_exact_iff`), and a list of patterns follows its items.
-/

namespace VT7.KnownHosts

open VT7.Dotnet VT7.Lib VT7.Lib.Glob

/-- A printable character of ASCII, as patterns and principals have them. -/
def IsPrintable (c : Char) : Prop := 0x21 ≤ c.toNat ∧ c.toNat ≤ 0x7e

/-- `GlobMatches` answers by the language of the pattern. -/
def GlobExact (token pattern : Text) : Prop :=
  globMatches token pattern = true ↔ Matches hostWild pattern token

/-- `CertificatePrincipalMatches` answers by the language of the principal. -/
def PrincipalExact (host principal : Text) : Prop :=
  certificatePrincipalMatches host principal = true ↔ Matches principalWild principal host

/-- An item of a list that begins with `!`. -/
def isNegated (item : Text) : Bool := item.head? = some '!'

/-- `Matches` answers by the languages of the items. -/
def ListExact (P : Platform) (token field : Text) : Prop :=
  hostMatches P token field = .ok true ↔
    (∃ item ∈ split ',' field, isNegated item = false ∧ Matches hostWild (patternOf item) token) ∧
      ∀ item ∈ split ',' field, isNegated item = true → ¬Matches hostWild (patternOf item) token

/-! ### Values without a star -/

section Plain

variable {token : Text}

lemma hostWild_many {q : Char} (h : hostWild.many q = true) : q = '*' := by
  simpa [hostWild] using h

lemma principalWild_many {q : Char} (h : principalWild.many q = true) : q = '*' := by
  simpa [principalWild] using h

/-- Only a `*` is folded to a `*`. -/
lemma lowerAscii_ne_star {x : Char} (h : x ≠ '*') : lowerAscii x ≠ lowerAscii '*' := by
  intro heq
  have hnat := congrArg Char.toNat heq
  rw [lowerAscii_toNat] at hnat
  have hstar : (lowerAscii '*').toNat = 42 := rfl
  have hx : x.toNat ≠ 42 := fun hx => h (Char.toNat_inj.mp hx)
  rw [hstar] at hnat
  split_ifs at hnat <;> omega

lemma globExact_of_plain {pattern : Text} (h : '*' ∉ token ∨ '*' ∉ pattern) : GlobExact token pattern := by
  refine matcher_iff fun q hq x hx hmany => ?_
  obtain rfl := hostWild_many hmany
  rcases h with h | h
  · have hne : x ≠ '*' := by
      rintro rfl
      exact h hx
    show (lowerAscii '*' == lowerAscii x) = false
    rw [beq_eq_false_iff_ne]
    exact (lowerAscii_ne_star hne).symm
  · exact absurd hq h

lemma principalExact_of_plain {host principal : Text} (hne : principal ≠ []) (hlength : principal.length ≤ 1024)
    (hprintable : ∀ c ∈ principal, IsPrintable c) (h : '*' ∉ host ∨ '*' ∉ principal) : PrincipalExact host principal := by
  have hchecks : ¬(principal = [] ∨ 1024 < principal.length ∨
      principal.any (fun c => c.toNat < 0x21 || 0x7e < c.toNat) = true) := by
    rw [not_or, not_or]
    refine ⟨hne, by omega, ?_⟩
    intro hany
    obtain ⟨c, hc, hbad⟩ := List.any_eq_true.mp hany
    have hc := hprintable c hc
    unfold IsPrintable at hc
    simp only [Bool.or_eq_true, decide_eq_true_eq] at hbad
    omega
  unfold PrincipalExact certificatePrincipalMatches
  rw [if_neg hchecks]
  refine matcher_iff fun q hq x hx hmany => ?_
  obtain rfl := principalWild_many hmany
  rcases h with h | h
  · show ('*' == x) = false
    rw [beq_eq_false_iff_ne]
    rintro rfl
    exact h hx
  · exact absurd hq h

end Plain

/-! ### Lists -/

/-- The loop over the items, without its early exit. -/
lemma matchItems_eq (token : Text) (positive : Bool) {items : List Text} (h : ∀ item ∈ items, patternOf item ≠ []) :
    matchItems token positive items = .ok
      ((positive || items.any fun item => !isNegated item && globMatches token (patternOf item)) &&
        !items.any fun item => isNegated item && globMatches token (patternOf item)) := by
  induction items generalizing positive with
  | nil => simp [matchItems]
  | cons item items ih =>
    have hpattern := h item List.mem_cons_self
    have hitem : item ≠ [] := by
      rintro rfl
      exact hpattern rfl
    have ih := fun positive => ih positive fun i hi => h i (List.mem_cons_of_mem _ hi)
    unfold matchItems
    rw [if_neg hitem, if_neg hpattern]
    cases hglob : globMatches token (patternOf item) with
    | false => simp [ih, hglob]
    | true =>
      cases hnegated : isNegated item with
      | true =>
        have hhead : item.head? = some '!' := by simpa [isNegated] using hnegated
        simp [hhead, hglob, hnegated]
      | false =>
        have hhead : item.head? ≠ some '!' := by simpa [isNegated] using hnegated
        simp [hhead, hglob, hnegated, ih]

lemma items_of_valid {field : Text} (hvalid : (isValidHostField field).1 = true) (hplain : field.head? ≠ some '|') :
    ∀ item ∈ split ',' field, patternOf item ≠ [] := by
  unfold isValidHostField at hvalid
  dsimp only at hvalid
  split_ifs at hvalid
  simpa using hvalid

lemma listExact_of_plain (P : Platform) {token field : Text} (hvalid : (isValidHostField field).1 = true)
    (hplain : field.head? ≠ some '|') (h : '*' ∉ token) : ListExact P token field := by
  have hglob (item : Text) : globMatches token (patternOf item) = true ↔ Matches hostWild (patternOf item) token :=
    globExact_of_plain (.inl h)
  unfold ListExact hostMatches
  rw [if_neg hplain, matchItems_eq token false (items_of_valid hvalid hplain), Except.ok.injEq, Bool.false_or,
    Bool.and_eq_true, List.any_eq_true, Bool.not_eq_true', List.any_eq_false]
  simp only [Bool.and_eq_true, Bool.not_eq_true', hglob, not_and]

/-! ### Values with a star -/

section Star

variable {token : Text}

/-- The pattern that misleads the loops. -/
def misleading (u w : Text) : Text := deceiving '?' '*' u w

lemma split_at_star (h : '*' ∈ token) : ∃ u w, token = u ++ '*' :: w := List.append_of_mem h

lemma mem_misleading {u w : Text} {c : Char} (h : c ∈ misleading u w) : c = '?' ∨ c = '*' := by
  unfold misleading deceiving at h
  rcases List.mem_append.mp h with h | h
  · exact .inl (List.eq_of_mem_replicate h)
  · rcases List.mem_cons.mp h with h | h
    · exact .inr h
    · exact .inl (List.eq_of_mem_replicate h)

lemma misleading_printable {u w : Text} : ∀ c ∈ misleading u w, IsPrintable c := by
  intro c hc
  rcases mem_misleading hc with rfl | rfl
  · exact ⟨by decide, by decide⟩
  · exact ⟨by decide, by decide⟩

lemma length_misleading (u w : Text) : (misleading u w).length = u.length + w.length + 2 := by
  unfold misleading deceiving
  rw [List.length_append, List.length_replicate, List.length_cons, List.length_replicate]
  omega

lemma misleading_ne_nil (u w : Text) : misleading u w ≠ [] := by
  rw [← List.length_pos_iff, length_misleading]
  omega

lemma not_globExact (u w : Text) : ¬GlobExact (u ++ '*' :: w) (misleading u w) := by
  intro h
  have hyes := h.mpr (matches_deceiving (W := hostWild) rfl rfl u w)
  rw [globMatches, misleading, matcher_deceiving (W := hostWild) rfl rfl u w] at hyes
  cases hyes

lemma not_principalExact {u w : Text} : ¬PrincipalExact (u ++ '*' :: w) (misleading u w) := by
  intro h
  have hyes := h.mpr (matches_deceiving (W := principalWild) rfl rfl u w)
  unfold certificatePrincipalMatches at hyes
  split_ifs at hyes
  rw [misleading, matcher_deceiving (W := principalWild) rfl rfl u w] at hyes
  cases hyes

lemma split_misleading (u w : Text) : split ',' (misleading u w) = [misleading u w] := by
  refine List.splitOn_eq_singleton fun h => ?_
  rcases mem_misleading h with h | h
  · cases h
  · cases h

lemma head_misleading {u w : Text} {c : Char} (h : (misleading u w).head? = some c) : c = '?' ∨ c = '*' :=
  mem_misleading (List.mem_of_mem_head? h)

lemma not_listExact (P : Platform) {u w : Text} (hlength : (misleading u w).length ≤ maximumHostFieldBytes) :
    (isValidHostField (misleading u w)).1 = true ∧ (misleading u w).head? ≠ some '|' ∧
      ¬ListExact P (u ++ '*' :: w) (misleading u w) := by
  have hbar : (misleading u w).head? ≠ some '|' := by
    intro h
    rcases head_misleading h with h | h
    · cases h
    · cases h
  have hbang : (misleading u w).head? ≠ some '!' := by
    intro h
    rcases head_misleading h with h | h
    · cases h
    · cases h
  have hpattern : patternOf (misleading u w) = misleading u w := if_neg hbang
  have hnegated : isNegated (misleading u w) = false := by simpa [isNegated] using hbang
  refine ⟨?_, hbar, fun h => ?_⟩
  · unfold isValidHostField
    rw [if_neg (by rw [not_or]; exact ⟨misleading_ne_nil u w, by omega⟩), if_neg hbar]
    dsimp only
    rw [split_misleading, List.length_singleton, if_neg (show ¬maximumPatternsPerLine < 1 by decide)]
    simp [hpattern, misleading_ne_nil]
  · have hyes := h.mpr (by
      rw [split_misleading]
      refine ⟨⟨misleading u w, List.mem_singleton_self _, hnegated, ?_⟩, fun item hitem hneg => ?_⟩
      · rw [hpattern]
        exact matches_deceiving (W := hostWild) rfl rfl u w
      · rw [List.mem_singleton.mp hitem, hnegated] at hneg
        cases hneg)
    have hno : globMatches (u ++ '*' :: w) (misleading u w) = false := matcher_deceiving (W := hostWild) rfl rfl u w
    unfold hostMatches at hyes
    rw [if_neg hbar, split_misleading, matchItems_eq _ _ (by
      intro item hitem
      rw [List.mem_singleton.mp hitem, hpattern]
      exact misleading_ne_nil u w)] at hyes
    simp [hpattern, hnegated, hno] at hyes

end Star

lemma length_certificatePrincipalHost_le (token : Text) : (certificatePrincipalHost token).length ≤ token.length := by
  unfold certificatePrincipalHost
  split_ifs
  · split
    · split_ifs
      · rw [List.length_take, List.length_drop]
        omega
      · exact le_rfl
    · exact le_rfl
  · exact le_rfl

/-- **The loops answer by the language of every pattern exactly when the value has no star**; a pattern without a star
is right for every value, and both loops end. -/
theorem globs_exact_iff (P : Platform) {token : Text} (htoken : IsHostToken token) :
    ((∀ pattern, pattern ≠ [] → (∀ c ∈ pattern, IsPrintable c) → GlobExact token pattern) ↔ '*' ∉ token) ∧
      ((∀ principal, principal ≠ [] → principal.length ≤ 1024 → (∀ c ∈ principal, IsPrintable c) →
        PrincipalExact (certificatePrincipalHost token) principal) ↔ '*' ∉ certificatePrincipalHost token) ∧
      ((∀ field, (isValidHostField field).1 = true → field.head? ≠ some '|' → ListExact P token field) ↔
        '*' ∉ token) ∧
      (∀ pattern, '*' ∉ pattern → GlobExact token pattern) ∧
      (∀ pattern, run hostWild (fuelFor (token.length + pattern.length)) ⟨token, pattern, none⟩ ≠ none) ∧
      ∀ host principal, run principalWild (fuelFor (host.length + principal.length)) ⟨host, principal, none⟩ ≠ none := by
  obtain ⟨host, port, hcreate⟩ := htoken
  have hshort := (createHostToken_ok hcreate).2.1
  refine ⟨⟨fun h hstar => ?_, fun h pattern _ _ => globExact_of_plain (.inl h)⟩,
    ⟨fun h hstar => ?_, fun h principal hne hlength hprintable => principalExact_of_plain hne hlength hprintable (.inl h)⟩,
    ⟨fun h hstar => ?_, fun h field hvalid hbar => listExact_of_plain P hvalid hbar h⟩,
    fun pattern h => globExact_of_plain (.inr h), fun pattern => run_ne_none _ _, fun host principal => run_ne_none _ _⟩
  · obtain ⟨u, w, rfl⟩ := split_at_star hstar
    exact not_globExact u w (h _ (misleading_ne_nil u w) misleading_printable)
  · obtain ⟨u, w, heq⟩ := split_at_star hstar
    have hle := length_certificatePrincipalHost_le token
    have hlength : (misleading u w).length ≤ 1024 := by
      have hparts := congrArg List.length heq
      rw [List.length_append, List.length_cons] at hparts
      rw [length_misleading]
      omega
    rw [heq] at h
    exact not_principalExact (h _ (misleading_ne_nil u w) hlength misleading_printable)
  · obtain ⟨u, w, rfl⟩ := split_at_star hstar
    have hlength : (misleading u w).length ≤ maximumHostFieldBytes := by
      rw [List.length_append, List.length_cons] at hshort
      rw [length_misleading]
      unfold maximumHostFieldBytes
      omega
    obtain ⟨hvalid, hbar, hwrong⟩ := not_listExact P hlength
    exact hwrong (h _ hvalid hbar)

/-- The token of the host of one letter is that letter. -/
theorem createHostToken_letter : createHostToken ['a'] 22 = .ok ['a'] := by
  decide

/-- An ordinary host. -/
theorem globs_exact_iff_plain : GlobExact ['a'] ['a', '*'] :=
  (globs_exact_iff samplePlatform ⟨['a'], 22, createHostToken_letter⟩).1.mpr (by decide) ['a', '*']
    (List.cons_ne_nil _ _) (List.forall_mem_cons.mpr
      ⟨⟨by decide, by decide⟩, List.forall_mem_singleton.mpr ⟨by decide, by decide⟩⟩)

/-- **The host `*x` and the pattern `*`**: the star of the pattern is taken for the one of the host. -/
theorem star_for_star : createHostToken "*x".toList 22 = .ok "*x".toList ∧
    globMatches "*x".toList "*".toList = false ∧ Matches hostWild "*".toList "*x".toList := by
  refine ⟨by decide, by decide, (matches_many rfl).mpr ⟨[], List.nil_suffix, rfl⟩⟩

end VT7.KnownHosts
