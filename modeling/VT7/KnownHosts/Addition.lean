import VT7.KnownHosts.Order
import VT7.KnownHosts.Policy

/-!
# The bytes that a new record adds

`BuildAddition` writes the line of a new record behind the content of a file; the parser reads the
result.  The two have limits and a notation of their own.  `Storable` says what an added line needs
to be read as the record that was meant, and the main result that it needs nothing more.
-/

namespace VT7.KnownHosts

open VT7.Dotnet VT7.Lib

/-! ### Building the addition -/

/-- The line ends of a content: how many are CRLF, how many a bare LF. -/
def countNewlines (content : Bytes) : ℕ × ℕ :=
  (List.range content.length).foldl
    (fun (crlf, lf) index =>
      if content.getD index 0 ≠ newline then (crlf, lf)
      else if 0 < index ∧ content.getD (index - 1) 0 = carriageReturn then (crlf + 1, lf)
      else (crlf, lf + 1))
    (0, 0)

/-- `DominantNewline`. -/
def dominantNewline (content : Bytes) : Bytes :=
  let (crlf, lf) := countNewlines content
  if lf < crlf then [carriageReturn, newline] else [newline]

/-- What closes an unfinished last line. -/
def additionLead (content : Bytes) : Bytes :=
  if 0 < content.length ∧ content.getLast? ≠ some newline then
    if content.getLast? = some carriageReturn ∧ (dominantNewline content).length = 2 then [newline]
    else dominantNewline content
  else []

/-- The line of a record. -/
def recordText (hostToken keyType : Text) (blob : Bytes) : Text :=
  hostToken ++ ' ' :: (keyType ++ ' ' :: toBase64String blob)

variable {P : Platform}

/-- `BuildAddition`. -/
def buildAddition (content : Bytes) (hostToken : Text) (presented : PresentedHostKey P) : Bytes :=
  additionLead content ++ utf8Bytes (recordText hostToken presented.keyType presented.blob) ++
    dominantNewline content

theorem dominantNewline_cases (content : Bytes) :
    dominantNewline content = [newline] ∨ dominantNewline content = [carriageReturn, newline] := by
  unfold dominantNewline
  simp only
  split_ifs
  · exact .inr rfl
  · exact .inl rfl

/-- **The lead closes the last line** without changing how it reads. -/
theorem closes_additionLead (content : Bytes) : Closes content (additionLead content) := by
  unfold additionLead
  split_ifs with hopen hcr
  · exact .lf (List.length_pos_iff.mp hopen.1) hopen.2
  · rcases dominantNewline_cases content with hn | hn
    · rw [hn]
      exact .lf (List.length_pos_iff.mp hopen.1) hopen.2
    · rw [hn] at hcr ⊢
      exact .crlf (List.length_pos_iff.mp hopen.1) hopen.2 fun h => hcr ⟨h, rfl⟩
  · refine .complete fun b hb => ?_
    have hb : content.getLast? = some b := hb
    have hpos : 0 < content.length := by
      rw [List.length_pos_iff]
      rintro rfl
      cases hb
    have : content.getLast? = some newline := by
      by_contra hne
      exact hopen ⟨hpos, hne⟩
    rw [hb] at this
    simpa using this

/-! ### Reading tokens back -/

theorem isSpacing_of_token {c : Char} (h : 0x21 ≤ c.toNat ∧ c.toNat ≤ 0x7e) {b : UInt8}
    (hb : b.toNat = c.toNat) : isSpacing b = false ∧ isTokenByte b = true := by
  constructor
  · by_contra hs
    simp only [isSpacing, Bool.not_eq_false, Bool.or_eq_true, beq_iff_eq] at hs
    rcases hs with rfl | rfl
    · exact absurd hb (by simp; omega)
    · exact absurd hb (by simp; omega)
  · simp only [isTokenByte, Bool.and_eq_true, decide_eq_true_eq]
    omega

theorem readToken_space (line : Bytes) : readToken (0x20 :: line) = readToken line := by
  unfold readToken skipSpacing
  rfl

/-- **A token is read back** up to a blank or the end of the line. -/
theorem readToken_token {t : Text} (ht : IsToken t) (hne : t ≠ []) {rest : Bytes}
    (hrest : ∀ b ∈ rest.head?, isSpacing b = true) :
    readToken (utf8Bytes t ++ rest) = .ok (t, rest) := by
  have hbyte : ∀ b ∈ utf8Bytes t, isSpacing b = false ∧ isTokenByte b = true := by
    intro b hb
    obtain ⟨c, hc, hcb⟩ := mem_utf8Bytes_ascii ht.isAscii hb
    exact isSpacing_of_token (ht c hc) hcb
  have hbne : utf8Bytes t ≠ [] := by
    rw [← List.length_pos_iff, length_utf8Bytes_ascii ht.isAscii]
    exact List.length_pos_iff.mpr hne
  have hskip : skipSpacing (utf8Bytes t ++ rest) = utf8Bytes t ++ rest := by
    obtain ⟨b, bs, hbs⟩ := List.exists_cons_of_ne_nil hbne
    unfold skipSpacing
    rw [hbs, List.cons_append, List.dropWhile_cons_of_neg]
    simp [(hbyte b (hbs ▸ List.mem_cons_self)).1]
  have htake : (utf8Bytes t ++ rest).takeWhile (fun b => !isSpacing b) = utf8Bytes t := by
    rw [List.takeWhile_append_of_pos fun b hb => by simp [(hbyte b hb).1]]
    cases rest with
    | nil => simp
    | cons b bs => rw [List.takeWhile_cons_of_neg (by simp [hrest b rfl]), List.append_nil]
  have hdrop : (utf8Bytes t ++ rest).dropWhile (fun b => !isSpacing b) = rest := by
    rw [List.dropWhile_append_of_pos fun b hb => by simp [(hbyte b hb).1]]
    cases rest with
    | nil => rfl
    | cons b bs => rw [List.dropWhile_cons_of_neg (by simp [hrest b rfl])]
  unfold readToken
  simp only [hskip, htake, hdrop]
  rw [if_neg (by simp [hbne]), if_pos (List.all_eq_true.mpr fun b hb => (hbyte b hb).2),
    asciiString_utf8Bytes ht.isAscii]

/-- What `Convert.ToBase64String` writes, the parser decodes. -/
theorem decodeBase64_encode {blob : Bytes} (hpos : 0 < blob.length)
    (hmax : blob.length ≤ maximumDecodedBytes) : decodeBase64 (toBase64String blob) = some blob := by
  have hlen : (toBase64String blob).length = (blob.length + 2) / 3 * 4 := Base64.length_encode blob
  have hdecode : fromBase64String (toBase64String blob) = some blob := Base64.decode_encode blob
  have hall : (toBase64String blob).all (fun c => decide (Base64.IsLetter c)) = true := by
    rw [List.all_eq_true]
    exact fun c hc => decide_eq_true (Base64.isLetter_of_mem_encode hc)
  unfold decodeBase64
  rw [if_neg (by unfold maximumDecodedBytes at *; omega), hall]
  simp only [Bool.not_true, Bool.false_eq_true, if_false]
  rw [if_neg (by omega)]
  simp only [show (toBase64String blob).length % 4 = 0 by omega, if_true, hdecode]
  rw [if_neg (by omega)]

/-! ### Reading the added line -/

section Line

variable (presented : PresentedHostKey P)

theorem isToken_base64 (blob : Bytes) : IsToken (toBase64String blob) := by
  intro c hc
  have := Base64.toNat_of_isLetter (Base64.isLetter_of_mem_encode hc)
  omega

theorem base64_ne_nil : toBase64String presented.blob ≠ [] := by
  have h := (readKeyType_ok presented.keyType_eq).1
  rw [← List.length_pos_iff, show (toBase64String presented.blob).length = _ from
    Base64.length_encode presented.blob]
  omega

theorem isToken_of_tokenChar {hostToken : Text} (h : ∀ c ∈ hostToken, TokenChar c) :
    IsToken hostToken := fun c hc => ⟨(h c hc).low, (h c hc).high⟩

theorem utf8Bytes_cons_space (t : Text) : utf8Bytes (' ' :: t) = 0x20 :: utf8Bytes t := rfl

/-- The bytes of the line, token by token. -/
theorem utf8Bytes_recordText (hostToken : Text) :
    utf8Bytes (recordText hostToken presented.keyType presented.blob) =
      utf8Bytes hostToken ++ 0x20 :: (utf8Bytes presented.keyType ++
        0x20 :: utf8Bytes (toBase64String presented.blob)) := by
  unfold recordText
  rw [utf8Bytes_append, utf8Bytes_cons_space, utf8Bytes_append, utf8Bytes_cons_space]

theorem readToken_base64 : readToken (0x20 :: utf8Bytes (toBase64String presented.blob)) =
    .ok (toBase64String presented.blob, []) := by
  have := @readToken_token _ (isToken_base64 presented.blob) (base64_ne_nil presented) [] (by simp)
  rw [List.append_nil] at this
  rw [readToken_space, this]

theorem readToken_keyType : readToken (0x20 :: (utf8Bytes presented.keyType ++
      0x20 :: utf8Bytes (toBase64String presented.blob))) =
    .ok (presented.keyType, 0x20 :: utf8Bytes (toBase64String presented.blob)) := by
  obtain ⟨-, -, hne, -, htoken⟩ := readKeyType_ok presented.keyType_eq
  rw [readToken_space, readToken_token htoken hne (by simp [isSpacing])]

/-- **The key is read back.** -/
theorem readKey_written : readKey (0x20 :: (utf8Bytes presented.keyType ++
      0x20 :: utf8Bytes (toBase64String presented.blob))) =
    .ok ⟨(presented.keyType, presented.blob), presented.keyType_eq⟩ := by
  obtain ⟨hlow, hhigh, -, -, -⟩ := readKeyType_ok presented.keyType_eq
  unfold readKey
  rw [readToken_keyType]
  simp only [bind, Except.bind]
  rw [readToken_base64]
  simp only
  rw [decodeBase64_encode (by omega) hhigh]
  simp only
  split
  · rename_i message h
    rw [presented.keyType_eq] at h
    cases h
  · rename_i blobType h
    obtain rfl : presented.keyType = blobType := by
      rw [presented.keyType_eq] at h
      cases h
      rfl
    rw [dif_pos rfl]

variable {hostToken : Text} (hchars : ∀ c ∈ hostToken, TokenChar c) (hne : hostToken ≠ [])

include hchars hne

theorem readToken_hostToken :
    readToken (utf8Bytes (recordText hostToken presented.keyType presented.blob)) =
      .ok (hostToken, 0x20 :: (utf8Bytes presented.keyType ++
        0x20 :: utf8Bytes (toBase64String presented.blob))) := by
  rw [utf8Bytes_recordText,
    readToken_token (isToken_of_tokenChar hchars) hne (by simp [isSpacing])]

theorem isCommentLine_recordText :
    isCommentLine (utf8Bytes (recordText hostToken presented.keyType presented.blob)) = true ↔
      hostToken.head? = some '#' := by
  obtain ⟨c, rest, rfl⟩ := List.exists_cons_of_ne_nil hne
  have hc := hchars c (by simp)
  have hascii := (isToken_of_tokenChar hchars).isAscii
  rw [utf8Bytes_recordText, utf8Bytes_ascii hascii, List.map_cons, List.cons_append]
  have hn := toNat_ofNat_ascii (hascii c (by simp))
  have hspace := (isSpacing_of_token ⟨hc.low, hc.high⟩ hn).1
  unfold isCommentLine skipSpacing
  rw [List.dropWhile_cons_of_neg (by simp [hspace])]
  simp only [beq_iff_eq, List.head?_cons, Option.some.injEq]
  rw [← UInt8.toNat_inj, hn, ← Char.toNat_inj]
  rfl

/-- A marker in the place of the host leaves too few tokens. -/
theorem readRecord_marker (hat : hostToken.head? = some '@') :
    ∃ e, readRecord (utf8Bytes (recordText hostToken presented.keyType presented.blob)) = .error e := by
  have hshort : readKey (0x20 :: utf8Bytes (toBase64String presented.blob)) = .error "truncated" := by
    unfold readKey
    rw [readToken_base64]
    rfl
  unfold readRecord
  rw [readToken_hostToken presented hchars hne]
  simp only
  unfold readHostField
  rw [if_pos hat, readToken_keyType]
  simp only [bind, Except.bind, pure, Except.pure]
  split_ifs
  all_goals
    simp only
    try rw [hshort]
    try split_ifs
  all_goals exact ⟨_, rfl⟩

/-- **The added line is read as the record that was meant** when its host field is none of a comment,
a marker and an invalid field. -/
theorem readLine_recordText (hash : hostToken.head? ≠ some '#') (hat : hostToken.head? ≠ some '@')
    (valid : (isValidHostField hostToken).1 = true) :
    readLine (utf8Bytes (recordText hostToken presented.keyType presented.blob)) =
      ⟨.record, some ⟨.none, hostToken, presented.keyType, presented.blob, valid,
        presented.keyType_eq⟩, some hostToken, false⟩ := by
  have hcomment : ¬ isCommentLine
      (utf8Bytes (recordText hostToken presented.keyType presented.blob)) = true :=
    fun h => hash ((isCommentLine_recordText presented hchars hne).mp h)
  have hrecord : readRecord (utf8Bytes (recordText hostToken presented.keyType presented.blob)) =
      .ok ⟨.none, hostToken, presented.keyType, presented.blob, valid, presented.keyType_eq⟩ := by
    unfold readRecord
    rw [readToken_hostToken presented hchars hne]
    simp only
    unfold readHostField
    rw [if_neg hat]
    simp only
    rw [dif_pos valid, readKey_written]
  unfold readLine parseLine
  rw [if_neg hcomment, hrecord]
  rfl

/-- Otherwise it is no record. -/
theorem readLine_recordText_none (h : hostToken.head? = some '#' ∨ hostToken.head? = some '@' ∨
      (isValidHostField hostToken).1 = false) :
    (readLine (utf8Bytes (recordText hostToken presented.keyType presented.blob))).record = none := by
  unfold readLine parseLine
  split_ifs with hcomment
  · rfl
  have hbad : ∃ e, readRecord
      (utf8Bytes (recordText hostToken presented.keyType presented.blob)) = .error e := by
    rw [isCommentLine_recordText presented hchars hne] at hcomment
    rcases h with h | h | h
    · exact absurd h hcomment
    · exact readRecord_marker presented hchars hne h
    · by_cases hat : hostToken.head? = some '@'
      · exact readRecord_marker presented hchars hne hat
      unfold readRecord
      rw [readToken_hostToken presented hchars hne]
      simp only
      unfold readHostField
      rw [if_neg hat]
      simp only
      rw [dif_neg (by simp [h])]
      exact ⟨_, rfl⟩
  obtain ⟨e, he⟩ := hbad
  rw [he]
  rfl

end Line

/-! ### The lines of the new file -/

section File

variable (presented : PresentedHostKey P) {hostToken : Text}

theorem recordText_char (hchars : ∀ c ∈ hostToken, TokenChar c) :
    ∀ c ∈ recordText hostToken presented.keyType presented.blob, 0x20 ≤ c.toNat ∧ c.toNat ≤ 0x7e := by
  intro c hc
  have htype := (readKeyType_ok presented.keyType_eq).2.2.2.2
  simp only [recordText, List.mem_append, List.mem_cons] at hc
  rcases hc with hc | rfl | hc | rfl | hc
  · exact ⟨by have := (hchars c hc).low; omega, (hchars c hc).high⟩
  · decide
  · exact ⟨by have := (htype c hc).1; omega, (htype c hc).2⟩
  · decide
  · exact ⟨by have := (isToken_base64 presented.blob c hc).1; omega,
      (isToken_base64 presented.blob c hc).2⟩

/-- **The addition is one line.** -/
theorem semanticLines_record (hchars : ∀ c ∈ hostToken, TokenChar c) (content : Bytes) :
    semanticLines (utf8Bytes (recordText hostToken presented.keyType presented.blob) ++
        dominantNewline content) =
      [utf8Bytes (recordText hostToken presented.keyType presented.blob)] := by
  have hchar := recordText_char presented hchars
  have hascii : IsAscii (recordText hostToken presented.keyType presented.blob) :=
    fun c hc => by have := (hchar c hc).2; omega
  have hbyte : ∀ b ∈ utf8Bytes (recordText hostToken presented.keyType presented.blob),
      b ≠ newline ∧ b ≠ carriageReturn := by
    intro b hb
    obtain ⟨c, hc, hcb⟩ := mem_utf8Bytes_ascii hascii hb
    have hlow := (hchar c hc).1
    constructor
    · rintro rfl
      exact absurd hcb (by simp [newline]; omega)
    · rintro rfl
      exact absurd hcb (by simp [carriageReturn]; omega)
  have hne : utf8Bytes (recordText hostToken presented.keyType presented.blob) ≠ [] := by
    rw [utf8Bytes_recordText]
    simp
  have hfree : ∀ b ∈ utf8Bytes (recordText hostToken presented.keyType presented.blob),
      (b == newline) = false := fun b hb => by simpa using (hbyte b hb).1
  have hlast : ∀ x, x = newline ∨ x = carriageReturn →
      (utf8Bytes (recordText hostToken presented.keyType presented.blob)).getLast? ≠ some x := by
    rintro x hx h
    have := hbyte x (List.mem_of_getLast? h)
    rcases hx with rfl | rfl
    · exact this.1 rfl
    · exact this.2 rfl
  have hsame : semanticOf (utf8Bytes (recordText hostToken presented.keyType presented.blob)) =
      utf8Bytes (recordText hostToken presented.keyType presented.blob) := by
    unfold semanticOf
    rw [if_neg (hlast _ (.inl rfl)), if_neg (hlast _ (.inr rfl))]
  have hclosed : Closes (utf8Bytes (recordText hostToken presented.keyType presented.blob))
      (dominantNewline content) := by
    rcases dominantNewline_cases content with hn | hn
    · rw [hn]
      exact .lf hne (hlast _ (.inl rfl))
    · rw [hn]
      exact .crlf hne (hlast _ (.inl rfl)) (hlast _ (.inr rfl))
  rw [semanticLines_lead hclosed]
  unfold semanticLines rawLines
  rw [Lines.splitAfter_single hfree hne, List.map_singleton, hsame]

theorem semanticLines_addition (hchars : ∀ c ∈ hostToken, TokenChar c) (content : Bytes) :
    semanticLines (content ++ buildAddition content hostToken presented) =
      semanticLines content ++ [utf8Bytes (recordText hostToken presented.keyType presented.blob)] := by
  unfold buildAddition
  rw [List.append_assoc (additionLead content), ← List.append_assoc content,
    semanticLines_append (closes_additionLead content), semanticLines_record presented hchars]

theorem length_recordText (hchars : ∀ c ∈ hostToken, TokenChar c) :
    (utf8Bytes (recordText hostToken presented.keyType presented.blob)).length =
      hostToken.length + presented.keyType.length + (toBase64String presented.blob).length + 2 := by
  rw [length_utf8Bytes_ascii fun c hc => by have := (recordText_char presented hchars c hc).2; omega]
  simp only [recordText, List.length_append, List.length_cons]
  omega

end File

/-! ### Records that can be added -/

/-- What a record needs to be read back from behind the content of a file. -/
structure Storable (P : Platform) (sourceId : String) (content : Bytes) (hostToken : Text)
    (presented : PresentedHostKey P) : Prop where
  /-- The file has room for one more record. -/
  room : recordsIn (parse sourceId content).lines < maximumRecords
  /-- The line is not too long. -/
  lineFits : hostToken.length + presented.keyType.length +
    (toBase64String presented.blob).length + 2 ≤ maximumLineBytes
  notComment : hostToken.head? ≠ some '#'
  notMarker : hostToken.head? ≠ some '@'
  notNegated : hostToken.head? ≠ some '!'
  /-- A token that begins as a hash is the hash of itself. -/
  hashed : hostToken.head? = some '|' → hostMatches P hostToken hostToken = .ok true

theorem split_hostToken {hostToken : Text} (hchars : ∀ c ∈ hostToken, TokenChar c) :
    split ',' hostToken = [hostToken] :=
  List.splitOn_eq_singleton fun h => (hchars ',' h).comma rfl

/-- **A token as a host field matches itself** exactly when it is not negated and, as a hash, its
own. -/
theorem hostMatches_self_iff (P : Platform) {hostToken : Text}
    (hchars : ∀ c ∈ hostToken, TokenChar c) (hne : hostToken ≠ []) :
    hostMatches P hostToken hostToken = .ok true ↔ hostToken.head? ≠ some '!' ∧
      (hostToken.head? = some '|' → hostMatches P hostToken hostToken = .ok true) := by
  by_cases hbar : hostToken.head? = some '|'
  · simp [hbar]
  · simp only [hbar, false_imp_iff, and_true]
    unfold hostMatches
    rw [if_neg hbar, split_hostToken hchars]
    by_cases hbang : hostToken.head? = some '!'
    · simp only [hbang, ne_eq, not_true, iff_false]
      unfold matchItems
      rw [if_neg hne]
      split_ifs <;> simp_all [matchItems]
    · have hself : globMatches hostToken hostToken = true :=
        Glob.matcher_self (fun x => by simp [hostWild]) hostToken
      simp [matchItems, patternOf, hbang, hne, hself]

theorem isValidHostField_hostToken {hostToken : Text} (hchars : ∀ c ∈ hostToken, TokenChar c)
    (hne : hostToken ≠ []) (hlen : hostToken.length ≤ 263)
    (hself : hostMatches P hostToken hostToken = .ok true) :
    (isValidHostField hostToken).1 = true := by
  unfold isValidHostField
  rw [if_neg (by simp [hne, maximumHostFieldBytes]; omega)]
  by_cases hbar : hostToken.head? = some '|'
  · rw [if_pos hbar]
    unfold hostMatches matchesHashed at hself
    rw [if_pos hbar] at hself
    cases hp : parseHash hostToken with
    | ok parts => rfl
    | error message => rw [hp] at hself; cases hself
  · rw [if_neg hbar, split_hostToken hchars]
    have hbang := ((hostMatches_self_iff P hchars hne).mp hself).1
    simp [maximumPatternsPerLine, patternOf, hbang, hne]

/-! ### The evidence of one more line -/

/-- **One line more** adds what it contributes to the evidence, and nothing else. -/
theorem evidence_added (P : Platform) (hostToken : Text) (inspect : KnownHostRecord → Option Finding)
    {document document' : KnownHostsDocument} {front : List KnownHostsLine} {last : KnownHostsLine}
    (hfatal : document.fatalError = none) (hfatal' : document'.fatalError = none)
    (hlines : document'.lines = front ++ [last])
    (hfront : front.map (·.reading) = document.lines.map (·.reading))
    (others : List KnownHostsDocument) :
    evidence P hostToken inspect (document' :: others) =
      evidence P hostToken inspect (document :: others) ∪
        { kind | Contributes P hostToken inspect last kind } := by
  have hmap : ∀ kind, (∃ line ∈ front, Contributes P hostToken inspect line kind) ↔
      ∃ line ∈ document.lines, Contributes P hostToken inspect line kind := by
    intro kind
    have htransfer : ∀ {a b : List KnownHostsLine}, a.map (·.reading) = b.map (·.reading) →
        (∃ line ∈ a, Contributes P hostToken inspect line kind) →
        ∃ line ∈ b, Contributes P hostToken inspect line kind := by
      rintro a b hab ⟨line, hl, hc⟩
      obtain ⟨line', hl', heq⟩ := List.mem_map.mp (hab ▸ List.mem_map_of_mem hl)
      exact ⟨line', hl', contributes_of_reading_eq P hostToken inspect heq.symm hc⟩
    exact ⟨htransfer hfront, htransfer hfront.symm⟩
  ext kind
  simp only [evidence, Set.mem_ofPred_eq, List.mem_cons, exists_eq_or_imp, hfatal, hfatal', hlines,
    ne_eq, not_true, false_and, false_or, Set.mem_union]
  rw [← hmap]
  simp only [List.mem_append, List.mem_singleton, or_and_right, exists_or, exists_eq_left]
  exact or_right_comm

theorem contributes_record (P : Platform) (hostToken : Text)
    (inspect : KnownHostRecord → Option Finding) {line : KnownHostsLine} {record : KnownHostRecord}
    (hkind : line.kind = .record) (hrecord : line.record = some record) (kind : Finding) :
    Contributes P hostToken inspect line kind ↔
      Applies P hostToken record ∧ inspect record = some kind := by
  unfold Contributes
  rw [hkind, hrecord]
  simp

/-! ### The new file -/

theorem recordsIn_parse (sourceId : String) {content : Bytes} (h : Readable content) :
    recordsIn (parse sourceId content).lines =
      ((semanticLines content).map readLine).countP fun r => decide (r.kind = .record) := by
  rw [← parse_readings sourceId h, List.countP_map]
  rfl

section NewFile

variable (sourceId : String) {content : Bytes} (hcontent : Readable content) {hostToken : Text}
  (hchars : ∀ c ∈ hostToken, TokenChar c) (presented : PresentedHostKey P)

include hcontent hchars

/-- **When the new file is readable**, given that it is not too large. -/
theorem readable_addition_iff (hsize : content.length +
      (buildAddition content hostToken presented).length ≤ maximumFileBytes) :
    Readable (content ++ buildAddition content hostToken presented) ↔
      hostToken.length + presented.keyType.length + (toBase64String presented.blob).length + 2 ≤
          maximumLineBytes ∧
        recordsIn (parse sourceId content).lines + (if (readLine (utf8Bytes
          (recordText hostToken presented.keyType presented.blob))).kind = .record then 1 else 0) ≤
            maximumRecords := by
  rw [readable_iff, semanticLines_addition presented hchars, recordsIn_parse sourceId hcontent,
    List.map_append, List.countP_append, List.length_append, ← length_recordText presented hchars]
  have hlines := ((readable_iff content).mp hcontent).2.1
  simp only [hsize, true_and, List.mem_append, List.mem_singleton, List.map_cons, List.map_nil,
    List.countP_singleton, decide_eq_true_eq]
  refine and_congr_left fun _ => ?_
  exact ⟨fun h => h _ (.inr rfl), fun h line hl => hl.elim (hlines line) fun he => he ▸ h⟩

/-- **The lines of the new file** are the lines of the old one and the added line. -/
theorem parse_addition_lines
    (hnew : Readable (content ++ buildAddition content hostToken presented)) :
    ∃ front last, (parse sourceId (content ++ buildAddition content hostToken presented)).lines =
        front ++ [last] ∧
      front.map (·.reading) = (parse sourceId content).lines.map (·.reading) ∧
      last.reading =
        readLine (utf8Bytes (recordText hostToken presented.keyType presented.blob)) := by
  have hread := parse_readings sourceId hnew
  rw [semanticLines_addition presented hchars, List.map_append,
    ← parse_readings sourceId hcontent] at hread
  obtain ⟨front, lasts, hlines, hfront, hlast⟩ := List.map_eq_append_iff.mp hread
  obtain ⟨last, rfl, hreading⟩ := List.map_eq_singleton_iff.mp hlast
  exact ⟨front, last, hlines, hfront, hreading⟩

end NewFile

/-- The addition keeps the file readable, leaves its lines as they were and makes the key known. -/
structure AddsRecord (sourceId : String) (content : Bytes) (hostToken : Text)
    (presented : PresentedHostKey P) (others : List KnownHostsDocument) : Prop where
  noFatalError :
    (parse sourceId (content ++ buildAddition content hostToken presented)).fatalError = none
  oneMore : ∃ front last,
    (parse sourceId (content ++ buildAddition content hostToken presented)).lines = front ++ [last] ∧
      front.map (fun line => (line.kind, line.record)) =
        (parse sourceId content).lines.map (fun line => (line.kind, line.record)) ∧
      last.kind = .record ∧ ∃ record, last.record = some record ∧ record.marker = .none ∧
        record.hostField = hostToken ∧ record.keyType = presented.keyType ∧
        record.keyBlob = presented.blob
  matching : ∃ result, resolve hostToken presented
    (parse sourceId (content ++ buildAddition content hostToken presented) :: others) = .ok result ∧
      result.state = .matching

section Main

variable {sourceId : String} {content : Bytes} {hostToken : Text} {presented : PresentedHostKey P}
  {others : List KnownHostsDocument}

/-- **The added line**, when it is storable: the file can be read, and its last line is the record. -/
theorem parse_of_storable (hcontent : (parse sourceId content).fatalError = none)
    (htoken : IsHostToken hostToken)
    (hsize : content.length + (buildAddition content hostToken presented).length ≤ maximumFileBytes)
    (h : Storable P sourceId content hostToken presented) :
    (parse sourceId (content ++ buildAddition content hostToken presented)).fatalError = none ∧
      hostMatches P hostToken hostToken = .ok true ∧ ∃ valid front last,
        (parse sourceId (content ++ buildAddition content hostToken presented)).lines =
          front ++ [last] ∧
        front.map (·.reading) = (parse sourceId content).lines.map (·.reading) ∧
        last.kind = .record ∧ last.record = some ⟨.none, hostToken, presented.keyType,
          presented.blob, valid, presented.keyType_eq⟩ := by
  obtain ⟨host, port, hcreate⟩ := htoken
  obtain ⟨hne, hlen, hchars⟩ := createHostToken_ok hcreate
  have hold := (parse_fatalError_none_iff sourceId content).mp hcontent
  have hself := (hostMatches_self_iff P hchars hne).mpr ⟨h.notNegated, h.hashed⟩
  have hvalid := isValidHostField_hostToken hchars hne hlen hself
  have hread := readLine_recordText presented hchars hne h.notComment h.notMarker hvalid
  have hnew : Readable (content ++ buildAddition content hostToken presented) := by
    rw [readable_addition_iff sourceId hold hchars presented hsize, hread]
    exact ⟨h.lineFits, h.room⟩
  obtain ⟨front, last, hlines, hfront, hlast⟩ :=
    parse_addition_lines sourceId hold hchars presented hnew
  rw [hread] at hlast
  obtain ⟨hkind, hrecord, -, -⟩ := Reading.mk.inj hlast
  exact ⟨(parse_fatalError_none_iff sourceId _).mpr hnew, hself, hvalid, front, last, hlines,
    hfront, hkind, hrecord⟩

/-- **The evidence behind the addition**: for the hosts that the token matches as a pattern, the new
record. -/
theorem evidence_of_storable (hcontent : (parse sourceId content).fatalError = none)
    (htoken : IsHostToken hostToken)
    (hsize : content.length + (buildAddition content hostToken presented).length ≤ maximumFileBytes)
    (h : Storable P sourceId content hostToken presented) :
    ∃ record, record.marker = .none ∧ record.hostField = hostToken ∧
      record.keyBlob = presented.blob ∧
      ∀ (host : Text) (inspect : KnownHostRecord → Option Finding)
        (others : List KnownHostsDocument),
        evidence P host inspect (parse sourceId
            (content ++ buildAddition content hostToken presented) :: others) =
          evidence P host inspect (parse sourceId content :: others) ∪
            { kind | hostMatches P host hostToken = .ok true ∧ inspect record = some kind } := by
  obtain ⟨hfatal, -, hvalid, front, last, hlines, hfront, hkind, hrecord⟩ :=
    parse_of_storable hcontent htoken hsize h
  refine ⟨⟨.none, hostToken, presented.keyType, presented.blob, hvalid, presented.keyType_eq⟩, rfl,
    rfl, rfl, fun host inspect others => ?_⟩
  rw [evidence_added P host inspect hcontent hfatal hlines hfront others]
  congr 1
  ext kind
  exact contributes_record P host inspect hkind hrecord kind

/-- **The record is known after the addition**, in a file that can still be read. -/
theorem AddsRecord.of_storable (hcontent : (parse sourceId content).fatalError = none)
    (htoken : IsHostToken hostToken)
    (hunknown : ∃ result, resolve hostToken presented (parse sourceId content :: others) =
      .ok result ∧ result.state = .unknown)
    (hsize : content.length + (buildAddition content hostToken presented).length ≤ maximumFileBytes)
    (h : Storable P sourceId content hostToken presented) :
    AddsRecord sourceId content hostToken presented others := by
  obtain ⟨hfatal, hself, hvalid, front, last, hlines, hfront, hkind, hrecord⟩ :=
    parse_of_storable hcontent htoken hsize h
  refine ⟨hfatal, ⟨front, last, hlines, ?_, hkind, _, hrecord, rfl, rfl, rfl, rfl⟩, ?_⟩
  · have := congrArg (List.map fun r : Reading => (r.kind, r.record)) hfront
    rwa [List.map_map, List.map_map] at this
  · obtain ⟨record, hmarker, -, hblob, hevidence⟩ :=
      evidence_of_storable hcontent htoken hsize h
    obtain ⟨result, hresolve, hstate⟩ := resolve_total hostToken presented
      (parse sourceId (content ++ buildAddition content hostToken presented) :: others)
    refine ⟨result, hresolve, ?_⟩
    obtain ⟨before, hbefore, hun⟩ := hunknown
    rw [resolve_eq_ok hostToken presented hbefore, Verdict.plain_unknown_iff] at hun
    obtain ⟨hrevoked, hunreadable, hplain, -, -⟩ := hun
    rw [hstate, Verdict.plain_matching_iff]
    unfold plainEvidence at hrevoked hunreadable ⊢
    rw [hevidence, (inspectPlain_exact_iff presented record).mpr ⟨hmarker, hblob⟩]
    simp only [Set.mem_union, Set.mem_ofPred_eq, hself, true_and, Option.some.injEq]
    exact ⟨by simpa using hrevoked, by simpa using hunreadable, hplain, by simp⟩

/-- **A key that is known after the addition** shows that the record was storable. -/
theorem Storable.of_matching (hcontent : (parse sourceId content).fatalError = none)
    (htoken : IsHostToken hostToken)
    (hunknown : ∃ result, resolve hostToken presented (parse sourceId content :: others) =
      .ok result ∧ result.state = .unknown)
    (hsize : content.length + (buildAddition content hostToken presented).length ≤ maximumFileBytes)
    (hmatching : ∃ result, resolve hostToken presented (parse sourceId
      (content ++ buildAddition content hostToken presented) :: others) = .ok result ∧
        result.state = .matching) :
    Storable P sourceId content hostToken presented := by
  obtain ⟨host, port, hcreate⟩ := htoken
  obtain ⟨hne, -, hchars⟩ := createHostToken_ok hcreate
  obtain ⟨before, hbefore, hun⟩ := hunknown
  obtain ⟨result, hresolve, hstate⟩ := hmatching
  rw [resolve_eq_ok hostToken presented hbefore, Verdict.plain_unknown_iff] at hun
  rw [resolve_eq_ok hostToken presented hresolve] at hstate
  have hfatal := ((resolve_matching_iff hostToken presented _).mp hstate).2.1.complete _
    List.mem_cons_self
  have hold := (parse_fatalError_none_iff sourceId content).mp hcontent
  have hnew := (parse_fatalError_none_iff sourceId _).mp hfatal
  obtain ⟨front, last, hlines, hfront, hlast⟩ :=
    parse_addition_lines sourceId hold hchars presented hnew
  -- nothing was stored for the host before, so the added line is the record that matches
  have hexact : Contributes P hostToken (inspectPlain presented) last .exact := by
    rw [Verdict.plain_matching_iff] at hstate
    unfold plainEvidence at hun hstate
    rw [evidence_added P hostToken _ hcontent hfatal hlines hfront others] at hstate
    exact hstate.2.2.2.resolve_left hun.2.2.2.1
  have hsome : (readLine (utf8Bytes
      (recordText hostToken presented.keyType presented.blob))).record ≠ none := by
    rw [← hlast]
    rcases hexact with ⟨-, -, hkind⟩ | ⟨record, hrecord, -⟩
    · cases hkind
    · change last.record ≠ none
      simp [hrecord]
  have hcomment : hostToken.head? ≠ some '#' :=
    fun hh => hsome (readLine_recordText_none presented hchars hne (.inl hh))
  have hmarker : hostToken.head? ≠ some '@' :=
    fun hh => hsome (readLine_recordText_none presented hchars hne (.inr (.inl hh)))
  have hvalid : (isValidHostField hostToken).1 = true := by
    by_contra hh
    exact hsome (readLine_recordText_none presented hchars hne (.inr (.inr (by simpa using hh))))
  have hread := readLine_recordText presented hchars hne hcomment hmarker hvalid
  rw [hread] at hlast
  obtain ⟨hkind, hrecord, -, -⟩ := Reading.mk.inj hlast
  have hself : hostMatches P hostToken hostToken = .ok true :=
    ((contributes_record P hostToken _ hkind hrecord .exact).mp hexact).1
  obtain ⟨hnegated, hhashed⟩ := (hostMatches_self_iff P hchars hne).mp hself
  obtain ⟨hfits, hroom⟩ := (readable_addition_iff sourceId hold hchars presented hsize).mp hnew
  rw [hread] at hroom
  exact ⟨hroom, hfits, hcomment, hmarker, hnegated, hhashed⟩

/-- **Adding a record works exactly when it is storable.**  For a file that can be read, a created
token, a key of an unknown host and an addition within the file limit, the new file has no fatal
error, keeps the lines it had, has one record more and makes the key known, if and only if the file
has room for a record, the line is not too long and the token does not begin as a comment, a marker,
a negation or a foreign hash. -/
theorem addsRecord_iff_storable (hcontent : (parse sourceId content).fatalError = none)
    (htoken : IsHostToken hostToken)
    (hunknown : ∃ result, resolve hostToken presented (parse sourceId content :: others) =
      .ok result ∧ result.state = .unknown)
    (hsize : content.length + (buildAddition content hostToken presented).length ≤
      maximumFileBytes) :
    AddsRecord sourceId content hostToken presented others ↔
      Storable P sourceId content hostToken presented :=
  ⟨fun h => .of_matching hcontent htoken hunknown hsize h.matching,
    .of_storable hcontent htoken hunknown hsize⟩

end Main

theorem exists_of_toOption_state {hostToken : Text} {presented : PresentedHostKey P}
    {documents : List KnownHostsDocument} {state : KnownHostTrustState}
    (h : ((resolve hostToken presented documents).map (·.state)).toOption = some state) :
    ∃ result, resolve hostToken presented documents = .ok result ∧ result.state = state := by
  cases hr : resolve hostToken presented documents with
  | error message => rw [hr] at h; cases h
  | ok result =>
    rw [hr] at h
    exact ⟨result, rfl, by simpa [Except.map, Except.toOption] using h⟩

/-- The first record of a file with a comment and an empty line, for the host `a`. -/
theorem addsRecord_iff_storable_first :
    AddsRecord "user-known-hosts" (utf8Bytes "# mine\n\n# ends".toList) "a".toList sampleKey [] := by
  refine (addsRecord_iff_storable (by decide) ⟨"a".toList, 22, by decide⟩
    (exists_of_toOption_state (by decide)) (by decide +kernel)).mpr ?_
  exact ⟨by decide, by decide, by decide, by decide, by decide, by decide⟩

/-- The host `#a`, a token that `Create` produces: the added line is a comment, and the host stays
unknown. -/
theorem comment_token_not_added :
    createHostToken "#a".toList 22 = .ok "#a".toList ∧
      (parse "user-known-hosts" []).fatalError = none ∧
      ((resolve "#a".toList sampleKey [parse "user-known-hosts" []]).map (·.state)).toOption =
        some .unknown ∧
      (buildAddition [] "#a".toList sampleKey).length ≤ maximumFileBytes ∧
      ((resolve "#a".toList sampleKey [parse "user-known-hosts"
        ([] ++ buildAddition [] "#a".toList sampleKey)]).map (·.state)).toOption = some .unknown ∧
      ¬ AddsRecord "user-known-hosts" [] "#a".toList sampleKey [] := by
  refine ⟨by decide, by decide, by decide, by decide +kernel, by decide +kernel, fun h => ?_⟩
  obtain ⟨result, hresolve, hstate⟩ := h.matching
  obtain ⟨result', hresolve', hstate'⟩ := exists_of_toOption_state
    (show ((resolve "#a".toList sampleKey [parse "user-known-hosts"
      ([] ++ buildAddition [] "#a".toList sampleKey)]).map (·.state)).toOption = some .unknown by
        decide)
  rw [hresolve] at hresolve'
  cases hresolve'
  rw [hstate] at hstate'
  cases hstate'

end VT7.KnownHosts
