import VT7.KnownHosts.Keys
import VT7.Lib.Glob

/-!
# Host tokens and host fields

The lookup token of an endpoint (`OpenSshHostToken.Create`) and the matcher of a host field against
it (`OpenSshHostMatcher`): a comma-separated list of patterns with negation, or one salted hash.
-/

namespace VT7.KnownHosts

open VT7.Dotnet VT7.Lib

/-! ### Limits of the parser -/

/-- `OpenSshKnownHostsParser.MaximumPatternsPerLine`. -/
def maximumPatternsPerLine : ℕ := 256

/-- `OpenSshKnownHostsParser.MaximumHostFieldBytes`. -/
def maximumHostFieldBytes : ℕ := 8 * 1024

/-! ### Host tokens -/

/-- One pair of enclosing brackets is removed. -/
def unbracket (host : Text) : Text :=
  if 2 ≤ host.length ∧ host.head? = some '[' ∧ host.getLast? = some ']' then host.tail.dropLast
  else host

/-- A character that `Create` refuses. -/
def isRefused (character : Char) : Bool :=
  0x7f < character.toNat || isControl character || isWhiteSpace character || character == ','

/-- `OpenSshHostToken.Create`. -/
def createHostToken (host : Text) (port : ℕ) : Except String Text :=
  if port < 1 ∨ 65535 < port then .error "port"
  else if host.length = 0 ∨ 255 < host.length ∨ host ≠ trim host then
    .error "host-token-length-or-spacing"
  else
    let host := unbracket host
    if host.length = 0 then .error "host-token-empty"
    else if host.any isRefused then .error "host-token-character"
    else
      let normalized := host.map lowerAscii
      .ok (if port = 22 then normalized else '[' :: normalized ++ "]:".toList ++ decimal port)

/-- A text is a host token when `Create` produces it for some endpoint. -/
def IsHostToken (token : Text) : Prop := ∃ host port, createHostToken host port = .ok token

/-! ### The matcher -/

theorem star_not_question (q : Char) (h : (q == '*') = true) : (q == '?') = false := by
  obtain rfl : q = '*' := by simpa using h
  rfl

/-- The wildcards of host patterns; letters are compared without regard to ASCII case. -/
def hostWild : Glob.Wild Char where
  one q := q == '?'
  many q := q == '*'
  same q x := lowerAscii q == lowerAscii x
  many_not_one := star_not_question

/-- `OpenSshHostMatcher.GlobMatches`. -/
def globMatches (value pattern : Text) : Bool := Glob.matcher hostWild value pattern

/-- `OpenSshHostMatcher.ParseHash`: the salt and the digest. -/
def parseHash (field : Text) : Except String (Bytes × Bytes) :=
  match split '|' field with
  | [first, version, saltText, digestText] =>
    if first ≠ [] ∨ version ≠ ['1'] then .error "host-hash-format"
    else
      match fromBase64String saltText, fromBase64String digestText with
      | some salt, some digest =>
        if salt.length ≠ 20 ∨ digest.length ≠ 20 then .error "host-hash-length"
        else .ok (salt, digest)
      | _, _ => .error "host-hash-base64"
  | _ => .error "host-hash-format"

/-- `OpenSshHostMatcher.MatchesHashed`. -/
def matchesHashed (P : Platform) (hostToken hostField : Text) : Except String Bool := do
  let (salt, expected) ← parseHash hostField
  return fixedEquals (P.hmacSha1 salt (utf8Bytes hostToken)) expected

/-- The pattern of a list item, without its negation mark. -/
def patternOf (item : Text) : Text := if item.head? = some '!' then item.tail else item

/-- The loop of `OpenSshHostMatcher.Matches` over the items of the field. -/
def matchItems (hostToken : Text) : Bool → List Text → Except String Bool
  | positive, [] => .ok positive
  | positive, item :: items =>
    if item = [] then .error "host-pattern-empty"
    else if patternOf item = [] then .error "host-pattern-empty"
    else if !globMatches hostToken (patternOf item) then matchItems hostToken positive items
    else if item.head? = some '!' then .ok false
    else matchItems hostToken true items

/-- `OpenSshHostMatcher.Matches`. -/
def hostMatches (P : Platform) (hostToken hostField : Text) : Except String Bool :=
  if hostField.head? = some '|' then matchesHashed P hostToken hostField
  else matchItems hostToken false (split ',' hostField)

/-- `OpenSshHostMatcher.IsValidHostField`: the answer, and whether the host is indeterminate. -/
def isValidHostField (field : Text) : Bool × Bool :=
  if field = [] ∨ maximumHostFieldBytes < field.length then (false, false)
  else if field.head? = some '|' then
    match parseHash field with
    | .ok _ => (true, false)
    | .error _ => (false, true)
  else
    let items := split ',' field
    if maximumPatternsPerLine < items.length then (false, false)
    else (items.all fun item => patternOf item ≠ [], false)

/-! ### Facts about tokens -/

theorem lowerAscii_toNat (c : Char) :
    (lowerAscii c).toNat = if 65 ≤ c.toNat ∧ c.toNat ≤ 90 then c.toNat + 32 else c.toNat := by
  have hle : ('A' ≤ c ∧ c ≤ 'Z') ↔ 65 ≤ c.toNat ∧ c.toNat ≤ 90 := Iff.rfl
  unfold lowerAscii
  by_cases h : 65 ≤ c.toNat ∧ c.toNat ≤ 90
  · rw [if_pos (hle.mpr h), if_pos h, toNat_charOfNat (by omega)]
  · rw [if_neg (fun hc => h (hle.mp hc)), if_neg h]

theorem lowerAscii_idem (c : Char) : lowerAscii (lowerAscii c) = lowerAscii c := by
  apply Char.toNat_inj.mp
  rw [lowerAscii_toNat (lowerAscii c), lowerAscii_toNat]
  split_ifs <;> omega

/-- A character of a host token: printable ASCII, no comma, no upper case. -/
structure TokenChar (c : Char) : Prop where
  low : 0x21 ≤ c.toNat
  high : c.toNat ≤ 0x7e
  comma : c ≠ ','
  lower : lowerAscii c = c

theorem TokenChar.of_accepted {c : Char} (h : isRefused c = false) : TokenChar (lowerAscii c) := by
  simp only [isRefused, isControl, isWhiteSpace, Bool.or_eq_false_iff, Bool.and_eq_false_iff,
    decide_eq_false_iff_not, beq_eq_false_iff_ne] at h
  obtain ⟨⟨⟨h1, h2, h3⟩, h4⟩, h5⟩ := h
  have hcomma : c.toNat ≠ 44 := fun he => h5 (Char.toNat_inj.mp he)
  have hn := lowerAscii_toNat c
  refine ⟨?_, ?_, ?_, lowerAscii_idem c⟩
  · rw [hn]; split_ifs <;> omega
  · rw [hn]; split_ifs <;> omega
  · intro he
    rw [he] at hn
    have : (',' : Char).toNat = 44 := rfl
    rw [this] at hn
    split_ifs at hn <;> omega

theorem TokenChar.of_digit {c : Char} (h : c.isDigit = true) : TokenChar c := by
  have hd : 48 ≤ c.toNat ∧ c.toNat ≤ 57 := by
    simp only [Char.isDigit, Bool.and_eq_true, decide_eq_true_eq] at h
    exact h
  have hn := lowerAscii_toNat c
  rw [if_neg (by omega)] at hn
  refine ⟨by omega, by omega, ?_, Char.toNat_inj.mp hn⟩
  rintro rfl
  exact absurd hd.1 (by decide)

theorem length_unbracket_le (host : Text) : (unbracket host).length ≤ host.length := by
  unfold unbracket
  split_ifs
  · simp only [List.length_dropLast, List.length_tail]
    omega
  · exact le_rfl

theorem length_decimal_port {port : ℕ} (h : port ≤ 65535) : (decimal port).length ≤ 5 :=
  (Nat.length_toDigits_le_iff (by decide) (by decide)).mpr (by omega)

/-- **What `Create` produces**: a nonempty text of at most 263 token characters. -/
theorem createHostToken_ok {host : Text} {port : ℕ} {token : Text}
    (h : createHostToken host port = .ok token) :
    token ≠ [] ∧ token.length ≤ 263 ∧ ∀ c ∈ token, TokenChar c := by
  unfold createHostToken at h
  simp only at h
  split_ifs at h with hport hlen hempty hchar h22
  · obtain rfl : (unbracket host).map lowerAscii = token := by simpa using h
    have hle := length_unbracket_le host
    refine ⟨?_, by simp; omega, ?_⟩
    · rw [← List.length_pos_iff, List.length_map]
      omega
    · intro c hc
      obtain ⟨d, hd, rfl⟩ := List.mem_map.mp hc
      exact TokenChar.of_accepted (by simpa using List.any_eq_false.mp (by simpa using hchar) d hd)
  · obtain rfl : '[' :: (unbracket host).map lowerAscii ++ "]:".toList ++ decimal port = token := by
      simpa using h
    have hle := length_unbracket_le host
    have hdec := length_decimal_port (show port ≤ 65535 by omega)
    have hlit : ("]:".toList).length = 2 := rfl
    refine ⟨by simp, by simp only [List.length_append, List.length_cons, List.length_map]; omega, ?_⟩
    intro c hc
    simp only [List.cons_append, List.mem_cons, List.mem_append] at hc
    rcases hc with rfl | (hc | hc) | hc
    · exact ⟨by decide, by decide, by decide, by decide⟩
    · obtain ⟨d, hd, rfl⟩ := List.mem_map.mp hc
      exact TokenChar.of_accepted (by simpa using List.any_eq_false.mp (by simpa using hchar) d hd)
    · have : c = ']' ∨ c = ':' := by simpa using hc
      rcases this with rfl | rfl
      · exact ⟨by decide, by decide, by decide, by decide⟩
      · exact ⟨by decide, by decide, by decide, by decide⟩
    · exact TokenChar.of_digit (Nat.isDigit_of_mem_toDigits (by decide) (by decide) hc)

/-! ### A valid field is matched without an exception -/

theorem matchItems_total (hostToken : Text) {items : List Text}
    (h : ∀ item ∈ items, patternOf item ≠ []) (positive : Bool) :
    ∃ b, matchItems hostToken positive items = .ok b := by
  induction items generalizing positive with
  | nil => exact ⟨positive, rfl⟩
  | cons item items ih =>
    have hp := h item (by simp)
    have hi : item ≠ [] := by
      rintro rfl
      exact hp rfl
    have ih := ih fun i hi => h i (by simp [hi])
    unfold matchItems
    rw [if_neg hi, if_neg hp]
    split_ifs
    · exact ih positive
    · exact ⟨false, rfl⟩
    · exact ih true

/-- **A valid host field is matched against every token without an exception.** -/
theorem hostMatches_total (P : Platform) (hostToken : Text) {field : Text}
    (h : (isValidHostField field).1 = true) : ∃ b, hostMatches P hostToken field = .ok b := by
  unfold isValidHostField at h
  unfold hostMatches
  simp only at h
  split_ifs at h with h1 h2 h3
  · rw [if_pos h2]
    unfold matchesHashed
    cases hp : parseHash field with
    | ok r => exact ⟨_, rfl⟩
    | error e => rw [hp] at h; cases h
  · rw [if_neg h2]
    exact matchItems_total hostToken (by simpa using h) false

end VT7.KnownHosts
