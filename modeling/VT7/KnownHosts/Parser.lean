import VT7.KnownHosts.Matcher
import VT7.Lib.Lines

/-!
# Reading a known_hosts file

`OpenSshKnownHostsParser`: a file is cut into physical lines, each line becomes a comment, a record
or a malformed line that remembers which host it could have been about.  A file beyond a limit has a
fatal error; the lines in front of it are kept.

The `try` block of `ParseLine` is `readRecord`.  What its `catch` block sees of the local variables
is carried by the exception (`Interrupted`).
-/

namespace VT7.KnownHosts

open VT7.Dotnet VT7.Lib

/-! ### Lines, records and documents -/

inductive KnownHostMarker where
  | none | certAuthority | revoked
  deriving DecidableEq

inductive KnownHostsLineKind where
  | comment | record | malformed
  deriving DecidableEq

/-- `KnownHostRecord`, with what the parser has checked of it. -/
structure KnownHostRecord where
  marker : KnownHostMarker
  hostField : Text
  keyType : Text
  keyBlob : Bytes
  hostField_valid : (isValidHostField hostField).1 = true
  keyType_eq : readKeyType keyBlob = .ok keyType

/-- `KnownHostsLine`.  A line has a record exactly when it is of that kind. -/
structure KnownHostsLine where
  lineNumber : ℕ
  rawBytes : Bytes
  kind : KnownHostsLineKind
  record : Option KnownHostRecord
  candidateHostField : Option Text
  indeterminateHost : Bool
  errorCode : Option String
  record_iff : kind = .record ↔ record.isSome

structure KnownHostsDocument where
  sourceId : String
  lines : List KnownHostsLine
  fatalError : Option String

/-! ### Limits -/

def maximumFileBytes : ℕ := 16 * 1024 * 1024
def maximumLineBytes : ℕ := 64 * 1024
def maximumRecords : ℕ := 16 * 1024

/-! ### Tokens -/

def newline : UInt8 := 0x0a
def carriageReturn : UInt8 := 0x0d

/-- A space or a tab. -/
def isSpacing (b : UInt8) : Bool := b == 0x20 || b == 0x09

/-- `SkipSpacing`; the position in the line is what is left of it. -/
def skipSpacing (line : Bytes) : Bytes := line.dropWhile isSpacing

/-- `ReadToken`: the token and what is left of the line. -/
def readToken (line : Bytes) : Except String (Text × Bytes) :=
  let line := skipSpacing line
  if line = [] then .error "truncated"
  else
    let token := line.takeWhile fun b => !isSpacing b
    if token.all isTokenByte then .ok (asciiString token, line.dropWhile fun b => !isSpacing b)
    else .error "token-character"

/-- `DecodeBase64`; `none` is its `FormatException`. -/
def decodeBase64 (value : Text) : Option Bytes :=
  if value.length = 0 ∨ (maximumDecodedBytes + 2) / 3 * 4 < value.length then none
  else if !value.all (fun c => decide (Base64.IsLetter c)) then none
  else
    let remainder := value.length % 4
    if remainder = 1 then none
    else
      let padded := if remainder = 0 then value else value ++ List.replicate (4 - remainder) '='
      match fromBase64String padded with
      | none => none
      | some bytes =>
        if bytes.length = 0 ∨ maximumDecodedBytes < bytes.length then none else some bytes

/-! ### One line -/

/-- A `FormatException` inside `ParseLine`, with the local variables at that moment. -/
structure Interrupted where
  message : String
  hostField : Option Text
  indeterminate : Bool

/-- The marker and the host field, from the first token on. -/
def readHostField (first : Text) (rest : Bytes) :
    Except String (KnownHostMarker × Text × Bytes) :=
  if first.head? = some '@' then
    if first = "@cert-authority".toList then do
      let (hostField, rest) ← readToken rest
      return (.certAuthority, hostField, rest)
    else if first = "@revoked".toList then do
      let (hostField, rest) ← readToken rest
      return (.revoked, hostField, rest)
    else .error "marker"
  else .ok (.none, first, rest)

/-- The key type and the key blob, which must agree. -/
def readKey (rest : Bytes) :
    Except String { key : Text × Bytes // readKeyType key.2 = .ok key.1 } := do
  let (keyType, rest) ← readToken rest
  let (encodedKey, _) ← readToken rest
  match decodeBase64 encodedKey with
  | none => .error "key-base64"
  | some keyBlob =>
    match h : readKeyType keyBlob with
    | .error message => .error message
    | .ok blobType =>
      if hk : keyType = blobType then .ok ⟨(keyType, keyBlob), hk ▸ h⟩
      else .error "key-type-mismatch"

/-- The `try` block of `ParseLine`. -/
def readRecord (semantic : Bytes) : Except Interrupted KnownHostRecord :=
  match readToken semantic with
  | .error message => .error ⟨message, none, false⟩
  | .ok (first, rest) =>
    match readHostField first rest with
    | .error message => .error ⟨message, none, false⟩
    | .ok (marker, hostField, rest) =>
      if valid : (isValidHostField hostField).1 = true then
        match readKey rest with
        | .error message => .error ⟨message, some hostField, (isValidHostField hostField).2⟩
        | .ok ⟨(keyType, keyBlob), hkey⟩ => .ok ⟨marker, hostField, keyType, keyBlob, valid, hkey⟩
      else .error ⟨"host-field", some hostField, (isValidHostField hostField).2⟩

/-- The host field as `TryCandidateHostField` reads it: the first token, or the second one behind a
marker, known or not. -/
def readCandidate (line : Bytes) : Except String Text := do
  let (first, rest) ← readToken line
  if first.head? = some '@' then do
    let (second, _) ← readToken rest
    return second
  else return first

/-- `TryCandidateHostField`: the candidate, and whether the host is indeterminate. -/
def tryCandidateHostField (line : Bytes) : Option Text × Bool :=
  match readCandidate line with
  | .ok candidate => (some candidate, candidate.head? = some '|')
  | .error _ => (none, false)

/-- The candidate and the indeterminate flag of a malformed line. -/
def malformedHost (semantic : Bytes) (e : Interrupted) : Option Text × Bool :=
  match e.hostField with
  | some hostField => (some hostField, e.indeterminate)
  | none =>
    match tryCandidateHostField semantic with
    | (some candidate, indeterminate) => (some candidate, indeterminate)
    | (none, _) => (none, true)

/-- Nothing but spacing, or spacing and a comment. -/
def isCommentLine (semantic : Bytes) : Bool :=
  match skipSpacing semantic with
  | [] => true
  | b :: _ => b == 0x23

/-- `ParseLine`. -/
def parseLine (lineNumber : ℕ) (raw semantic : Bytes) : KnownHostsLine :=
  if isCommentLine semantic then
    ⟨lineNumber, raw, .comment, none, none, false, none, by simp⟩
  else
    match readRecord semantic with
    | .ok record =>
      ⟨lineNumber, raw, .record, some record, some record.hostField, false, none, by simp⟩
    | .error e =>
      ⟨lineNumber, raw, .malformed, none, (malformedHost semantic e).1, (malformedHost semantic e).2,
        some e.message, by simp⟩

/-! ### A whole file -/

/-- A physical line without its terminator: a line feed, and one carriage return before it. -/
def semanticOf (raw : Bytes) : Bytes :=
  let line := if raw.getLast? = some newline then raw.dropLast else raw
  if line.getLast? = some carriageReturn then line.dropLast else line

/-- The physical lines of a file, each with its line feed. -/
def rawLines (content : Bytes) : List Bytes := Lines.splitAfter (· == newline) content

/-- The loop of `Parse`. -/
def parseLines (sourceId : String) :
    ℕ → ℕ → List KnownHostsLine → List Bytes → KnownHostsDocument
  | _, _, lines, [] => ⟨sourceId, lines, none⟩
  | lineNumber, recordCount, lines, raw :: rest =>
    if maximumLineBytes < (semanticOf raw).length then
      ⟨sourceId, lines, some ("line-size-limit:" ++ toString lineNumber)⟩
    else
      let parsed := parseLine lineNumber raw (semanticOf raw)
      let recordCount := if parsed.kind = .record then recordCount + 1 else recordCount
      if parsed.kind = .record ∧ maximumRecords < recordCount then
        ⟨sourceId, lines ++ [parsed], some "record-count-limit"⟩
      else parseLines sourceId (lineNumber + 1) recordCount (lines ++ [parsed]) rest

/-- `OpenSshKnownHostsParser.Parse`. -/
def parse (sourceId : String) (content : Bytes) : KnownHostsDocument :=
  if maximumFileBytes < content.length then ⟨sourceId, [], some "file-size-limit"⟩
  else parseLines sourceId 1 0 [] (rawLines content)

/-! ### What the loop returns -/

/-- The lines that the loop reads when it meets no limit. -/
def linesFrom : ℕ → List Bytes → List KnownHostsLine
  | _, [] => []
  | lineNumber, raw :: rest =>
    parseLine lineNumber raw (semanticOf raw) :: linesFrom (lineNumber + 1) rest

/-- How many of the lines are records. -/
def recordsIn (lines : List KnownHostsLine) : ℕ :=
  lines.countP fun line => decide (line.kind = .record)

/-- Every line fits, and so does their number. -/
def WithinLimits (lineNumber recordCount : ℕ) (raws : List Bytes) : Prop :=
  (∀ raw ∈ raws, (semanticOf raw).length ≤ maximumLineBytes) ∧
    recordCount + recordsIn (linesFrom lineNumber raws) ≤ maximumRecords

theorem recordsIn_cons (line : KnownHostsLine) (lines : List KnownHostsLine) :
    recordsIn (line :: lines) = recordsIn lines + if line.kind = .record then 1 else 0 := by
  simp [recordsIn, List.countP_cons]

theorem withinLimits_cons {n count : ℕ} {raw : Bytes} {raws : List Bytes} :
    WithinLimits n count (raw :: raws) ↔ (semanticOf raw).length ≤ maximumLineBytes ∧
      WithinLimits (n + 1)
        (if (parseLine n raw (semanticOf raw)).kind = .record then count + 1 else count) raws := by
  unfold WithinLimits
  simp only [linesFrom, recordsIn_cons, List.mem_cons, forall_eq_or_imp, and_assoc]
  refine and_congr_right fun _ => and_congr_right fun _ => ?_
  split_ifs <;> omega

/-- **The loop within the limits** keeps every line and has no fatal error. -/
theorem parseLines_within (sourceId : String) {raws : List Bytes} :
    ∀ {n count : ℕ} (acc : List KnownHostsLine), WithinLimits n count raws →
      parseLines sourceId n count acc raws = ⟨sourceId, acc ++ linesFrom n raws, none⟩ := by
  induction raws with
  | nil => intro n count acc _; simp [parseLines, linesFrom]
  | cons raw raws ih =>
    intro n count acc h
    obtain ⟨hlen, hrest⟩ := withinLimits_cons.mp h
    have hcount := hrest.2
    unfold parseLines
    rw [if_neg (by omega)]
    simp only
    rw [if_neg (by rintro ⟨-, hlt⟩; omega), ih _ hrest]
    simp [linesFrom]

/-- **The loop beyond a limit** has a fatal error. -/
theorem parseLines_beyond (sourceId : String) {raws : List Bytes} :
    ∀ {n count : ℕ} (acc : List KnownHostsLine), count ≤ maximumRecords →
      ¬ WithinLimits n count raws →
      (parseLines sourceId n count acc raws).fatalError ≠ none := by
  induction raws with
  | nil =>
    intro n count acc hc h
    exact absurd ⟨by simp, by simpa [linesFrom, recordsIn] using hc⟩ h
  | cons raw raws ih =>
    intro n count acc hc h
    rw [withinLimits_cons] at h
    unfold parseLines
    by_cases hlen : maximumLineBytes < (semanticOf raw).length
    · simp [hlen]
    rw [if_neg hlen]
    have hrest := fun hw => h ⟨by omega, hw⟩
    by_cases hk : (parseLine n raw (semanticOf raw)).kind = .record
    · simp only [hk, if_true, true_and] at hrest ⊢
      split_ifs with hcount
      · simp
      · exact ih _ (by omega) hrest
    · simp only [hk, if_false, false_and] at hrest ⊢
      exact ih _ hc hrest

/-! ### What `Parse` returns -/

/-- The file is within all limits. -/
def Readable (content : Bytes) : Prop :=
  content.length ≤ maximumFileBytes ∧ WithinLimits 1 0 (rawLines content)

theorem parse_of_readable (sourceId : String) {content : Bytes} (h : Readable content) :
    parse sourceId content = ⟨sourceId, linesFrom 1 (rawLines content), none⟩ := by
  unfold parse
  rw [if_neg (by have := h.1; omega), parseLines_within sourceId [] h.2]
  rfl

/-- **A file has no fatal error exactly when it is within all limits.** -/
theorem parse_fatalError_none_iff (sourceId : String) (content : Bytes) :
    (parse sourceId content).fatalError = none ↔ Readable content := by
  constructor
  · intro h
    unfold parse at h
    split_ifs at h with hlen
    by_contra hr
    exact parseLines_beyond sourceId [] (by simp) (fun hw => hr ⟨by omega, hw⟩) h
  · intro h
    rw [parse_of_readable sourceId h]

/-! ### What is read depends on the text of a line alone -/

/-- A line without its number and its bytes: what the resolvers look at. -/
structure Reading where
  kind : KnownHostsLineKind
  record : Option KnownHostRecord
  candidateHostField : Option Text
  indeterminateHost : Bool

def KnownHostsLine.reading (line : KnownHostsLine) : Reading :=
  ⟨line.kind, line.record, line.candidateHostField, line.indeterminateHost⟩

/-- The reading of a line of the given text. -/
def readLine (semantic : Bytes) : Reading := (parseLine 0 [] semantic).reading

/-- The lines of a file without their terminators. -/
def semanticLines (content : Bytes) : List Bytes := (rawLines content).map semanticOf

theorem parseLine_reading (lineNumber : ℕ) (raw semantic : Bytes) :
    (parseLine lineNumber raw semantic).reading = readLine semantic := by
  unfold readLine parseLine
  split_ifs
  · rfl
  · split <;> rfl

theorem linesFrom_reading (lineNumber : ℕ) (raws : List Bytes) :
    (linesFrom lineNumber raws).map (·.reading) = (raws.map semanticOf).map readLine := by
  induction raws generalizing lineNumber with
  | nil => rfl
  | cons raw raws ih => simp only [linesFrom, List.map_cons, parseLine_reading, ih]

theorem recordsIn_linesFrom (lineNumber : ℕ) (raws : List Bytes) :
    recordsIn (linesFrom lineNumber raws) =
      ((raws.map semanticOf).map readLine).countP fun r => decide (r.kind = .record) := by
  rw [← linesFrom_reading lineNumber, List.countP_map]
  rfl

/-- **A file is within the limits** by the texts of its lines. -/
theorem readable_iff (content : Bytes) : Readable content ↔
    content.length ≤ maximumFileBytes ∧
      (∀ line ∈ semanticLines content, line.length ≤ maximumLineBytes) ∧
      ((semanticLines content).map readLine).countP (fun r => decide (r.kind = .record)) ≤
        maximumRecords := by
  unfold Readable WithinLimits semanticLines
  rw [recordsIn_linesFrom]
  simp

theorem parse_readings (sourceId : String) {content : Bytes} (h : Readable content) :
    (parse sourceId content).lines.map (·.reading) = (semanticLines content).map readLine := by
  rw [parse_of_readable sourceId h]
  exact linesFrom_reading 1 (rawLines content)

/-! ### Lines behind lines -/

/-- `lead` closes the last line of the content, so that what follows stands on lines of its own. -/
inductive Closes : Bytes → Bytes → Prop
  | complete {content : Bytes} : Lines.Terminated (· == newline) content → Closes content []
  | lf {content : Bytes} : content ≠ [] → content.getLast? ≠ some newline → Closes content [newline]
  | crlf {content : Bytes} : content ≠ [] → content.getLast? ≠ some newline →
    content.getLast? ≠ some carriageReturn → Closes content [carriageReturn, newline]

theorem semanticOf_lf {line : Bytes} (hlast : line.getLast? ≠ some newline) :
    semanticOf (line ++ [newline]) = semanticOf line := by
  unfold semanticOf
  simp [hlast]

theorem semanticOf_crlf {line : Bytes} (hlast : line.getLast? ≠ some newline)
    (hcr : line.getLast? ≠ some carriageReturn) :
    semanticOf (line ++ [carriageReturn, newline]) = semanticOf line := by
  have : line ++ [carriageReturn, newline] = (line ++ [carriageReturn]) ++ [newline] := by simp
  rw [this]
  unfold semanticOf
  simp [hlast, hcr]

/-- A nonempty unfinished last line. -/
theorem exists_unfinished {content : Bytes} (hne : content ≠ [])
    (hlast : content.getLast? ≠ some newline) :
    ∃ front last, content = front ++ last ∧ Lines.Terminated (· == newline) front ∧
      (∀ b ∈ last, (b == newline) = false) ∧ last ≠ [] := by
  obtain ⟨front, last, rfl, hfront, hfree⟩ :=
    @Lines.exists_terminated_append _ (· == newline) content
  refine ⟨front, last, rfl, hfront, hfree, ?_⟩
  rintro rfl
  rw [List.append_nil] at hne hlast
  obtain ⟨b, hb⟩ : ∃ b, front.getLast? = some b := by
    cases h : front.getLast? with
    | none => exact absurd (List.getLast?_eq_none_iff.mp h) hne
    | some b => exact ⟨b, rfl⟩
  have : b = newline := by simpa using hfront b hb
  exact hlast (this ▸ hb)

/-- A new terminator of the last line leaves the lines as they are read. -/
theorem semanticLines_unfinished {front last lead : Bytes}
    (hfront : Lines.Terminated (· == newline) front) (hfree : ∀ b ∈ last, (b == newline) = false)
    (hne : last ≠ []) (hlead : (rawLines (last ++ lead)).map semanticOf = [semanticOf last]) :
    semanticLines (front ++ last ++ lead) = semanticLines (front ++ last) := by
  unfold semanticLines rawLines at *
  rw [List.append_assoc, Lines.splitAfter_append hfront, Lines.splitAfter_append hfront,
    List.map_append, List.map_append, hlead, Lines.splitAfter_single hfree hne]
  rfl

theorem semanticLines_lead {content lead : Bytes} (h : Closes content lead) :
    semanticLines (content ++ lead) = semanticLines content := by
  cases h with
  | complete hterm => rw [List.append_nil]
  | lf hne hnl =>
    obtain ⟨front, last, rfl, hfront, hfree, hl⟩ := exists_unfinished hne hnl
    rw [List.getLast?_append_of_ne_nil _ hl] at hnl
    apply semanticLines_unfinished hfront hfree hl
    unfold rawLines
    rw [Lines.splitAfter_line hfree (by decide), List.map_singleton, semanticOf_lf hnl]
  | crlf hne hnl hcr =>
    obtain ⟨front, last, rfl, hfront, hfree, hl⟩ := exists_unfinished hne hnl
    rw [List.getLast?_append_of_ne_nil _ hl] at hnl hcr
    apply semanticLines_unfinished hfront hfree hl
    have hfree' : ∀ b ∈ last ++ [carriageReturn], (b == newline) = false := by
      intro b hb
      rcases List.mem_append.mp hb with hb | hb
      · exact hfree b hb
      · obtain rfl : b = carriageReturn := by simpa using hb
        decide
    have hassoc : last ++ [carriageReturn, newline] = (last ++ [carriageReturn]) ++ [newline] := by
      simp
    unfold rawLines
    rw [hassoc, Lines.splitAfter_line hfree' (by decide), List.map_singleton, ← hassoc,
      semanticOf_crlf hnl hcr]

theorem Closes.terminated {content lead : Bytes} (h : Closes content lead) :
    Lines.Terminated (· == newline) (content ++ lead) := by
  cases h with
  | complete hterm => rwa [List.append_nil]
  | lf | crlf => simp [Lines.Terminated]

/-- **A closed content keeps its lines**, and what follows has lines of its own. -/
theorem semanticLines_append {content lead : Bytes} (h : Closes content lead) (more : Bytes) :
    semanticLines (content ++ lead ++ more) = semanticLines content ++ semanticLines more := by
  rw [← semanticLines_lead h]
  unfold semanticLines rawLines
  rw [Lines.splitAfter_append h.terminated, List.map_append]

end VT7.KnownHosts
