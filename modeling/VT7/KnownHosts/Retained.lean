import Mathlib.Data.List.Flatten
import VT7.KnownHosts.Removal

/-!
# What is left after a removal

`RemovePrimaryUserRecords` writes the raw bytes of the lines that were not selected.  Read again, these are the same
lines with new numbers (`parse_retainedBytes`), and only unmarked records of the host are gone
(`validateRemovalSelection_ok`).
-/

namespace VT7.KnownHosts

open VT7.Dotnet VT7.Lib

/-- The lines with the numbers of a file of their own. -/
def renumber (lines : List KnownHostsLine) : List KnownHostsLine :=
  lines.mapIdx fun index line => { line with lineNumber := index + 1 }

/-- A line that a removal must not touch. -/
def KnownHostsLine.isProtected (line : KnownHostsLine) : Bool :=
  match line.record with
  | some record => record.marker ≠ .none
  | none => true

/-! ### Lines as they were read -/

/-- The line is what `ParseLine` makes of its own bytes. -/
def KnownHostsLine.IsParsed (line : KnownHostsLine) : Prop :=
  line = parseLine line.lineNumber line.rawBytes (semanticOf line.rawBytes)

theorem parseLine_lineNumber (lineNumber : ℕ) (raw semantic : Bytes) :
    (parseLine lineNumber raw semantic).lineNumber = lineNumber := by
  unfold parseLine
  split
  · rfl
  · split <;> rfl

theorem parseLine_rawBytes (lineNumber : ℕ) (raw semantic : Bytes) :
    (parseLine lineNumber raw semantic).rawBytes = raw := by
  unfold parseLine
  split
  · rfl
  · split <;> rfl

theorem parseLine_renumber (lineNumber number : ℕ) (raw semantic : Bytes) :
    { parseLine lineNumber raw semantic with lineNumber := number } = parseLine number raw semantic := by
  unfold parseLine
  split
  · rfl
  · split <;> rfl

theorem linesFrom_isParsed (lineNumber : ℕ) (raws : List Bytes) :
    ∀ line ∈ linesFrom lineNumber raws, line.IsParsed := by
  induction raws generalizing lineNumber with
  | nil => exact fun _ h => nomatch h
  | cons raw raws ih =>
    intro line hline
    rcases List.mem_cons.mp hline with rfl | hline
    · unfold KnownHostsLine.IsParsed
      rw [parseLine_lineNumber, parseLine_rawBytes]
    · exact ih _ line hline

theorem linesFrom_rawBytes (lineNumber : ℕ) (raws : List Bytes) :
    (linesFrom lineNumber raws).map (·.rawBytes) = raws := by
  induction raws generalizing lineNumber with
  | nil => rfl
  | cons raw raws ih => rw [linesFrom, List.map_cons, parseLine_rawBytes, ih]

/-- Parsed lines, read once more from `number` on. -/
theorem linesFrom_of_isParsed {lines : List KnownHostsLine} (h : ∀ line ∈ lines, line.IsParsed) (number : ℕ) :
    linesFrom number (lines.map (·.rawBytes)) =
      lines.mapIdx fun index line => { line with lineNumber := index + number } := by
  induction lines generalizing number with
  | nil => rfl
  | cons line lines ih =>
    have hline : parseLine number line.rawBytes (semanticOf line.rawBytes) = { line with lineNumber := number } := by
      have hparsed : line = parseLine line.lineNumber line.rawBytes (semanticOf line.rawBytes) := h line List.mem_cons_self
      rw [← parseLine_renumber line.lineNumber, ← hparsed]
    rw [List.map_cons, linesFrom, hline, ih (fun l hl => h l (List.mem_cons_of_mem _ hl)), List.mapIdx_cons, Nat.zero_add]
    congr 1
    refine List.mapIdx_eq_mapIdx_iff.mpr fun i hi => ?_
    rw [Nat.add_assoc, Nat.add_comm 1 number]

/-! ### The retained bytes -/

/-- The records among some lines of a file are records of the file. -/
theorem recordsIn_le_of_sublist {raws raws' : List Bytes} (h : raws'.Sublist raws) (n m : ℕ) :
    recordsIn (linesFrom m raws') ≤ recordsIn (linesFrom n raws) := by
  rw [recordsIn_linesFrom, recordsIn_linesFrom]
  exact ((h.map semanticOf).map readLine).countP_le

/-- **Some lines of a file that can be read** can be read, and are the same lines. -/
theorem parse_of_sublist (sourceId : String) {content : Bytes} {lines : List KnownHostsLine} (h : Readable content)
    (hs : lines.Sublist (linesFrom 1 (rawLines content))) :
    parse sourceId (lines.flatMap (·.rawBytes)) = ⟨sourceId, renumber lines, none⟩ := by
  have hparsed : ∀ line ∈ lines, line.IsParsed := fun line hline =>
    linesFrom_isParsed 1 _ line (hs.subset hline)
  have hraw : (lines.map (·.rawBytes)).Sublist (rawLines content) := by
    have hmap := hs.map (·.rawBytes)
    rwa [linesFrom_rawBytes] at hmap
  have hlines : rawLines (lines.flatMap (·.rawBytes)) = lines.map (·.rawBytes) := by
    rw [List.flatMap_def]
    exact Lines.splitAfter_sublist hraw
  have hlength : (lines.flatMap (·.rawBytes)).length ≤ content.length := by
    have hcontent : (rawLines content).flatten = content := Lines.flatten_splitAfter content
    have hle := hraw.flatten.length_le
    rwa [hcontent] at hle
  have hreadable : Readable (lines.flatMap (·.rawBytes)) := by
    refine ⟨hlength.trans h.1, ?_, ?_⟩
    · rw [hlines]
      exact fun raw hmem => h.2.1 raw (hraw.subset hmem)
    · rw [hlines]
      exact (Nat.add_le_add_left (recordsIn_le_of_sublist hraw 1 1) 0).trans h.2.2
  rw [parse_of_readable sourceId hreadable, hlines, linesFrom_of_isParsed hparsed]
  rfl

/-! ### The removed lines -/

theorem countSelected_ok {P : Platform} {hostToken : Text} {selected : List ℤ} {lines : List KnownHostsLine}
    {found found' : ℕ} (h : countSelected P hostToken selected found lines = .ok found') :
    ∀ line ∈ lines, (line.lineNumber : ℤ) ∈ selected → ∃ record, line.kind = .record ∧
      line.record = some record ∧ record.marker = .none ∧ hostMatches P hostToken record.hostField = .ok true := by
  induction lines generalizing found with
  | nil => exact fun _ h => nomatch h
  | cons line lines ih =>
    unfold countSelected at h
    by_cases hselected : (line.lineNumber : ℤ) ∈ selected
    · rw [if_neg (not_not_intro hselected)] at h
      by_cases hkind : line.kind = .record
      · rw [if_neg (not_not_intro hkind)] at h
        cases hrecord : line.record with
        | none =>
          rw [hrecord] at h
          cases h
        | some record =>
          rw [hrecord] at h
          dsimp only at h
          by_cases hmarker : record.marker = .none
          · rw [if_neg (not_not_intro hmarker)] at h
            cases hmatches : hostMatches P hostToken record.hostField with
            | error message =>
              rw [hmatches] at h
              cases h
            | ok answer =>
              rw [hmatches] at h
              cases answer with
              | false => cases h
              | true =>
                intro other hother
                rcases List.mem_cons.mp hother with rfl | hother
                · exact fun _ => ⟨record, hkind, hrecord, hmarker, hmatches⟩
                · exact ih h other hother
          · rw [if_pos hmarker] at h
            cases h
      · rw [if_pos hkind] at h
        cases h
    · rw [if_pos hselected] at h
      intro other hother
      rcases List.mem_cons.mp hother with rfl | hother
      · exact fun hmem => absurd hmem hselected
      · exact ih h other hother

/-- **What `ValidateRemovalSelection` lets through**: unmarked records of the host. -/
theorem validateRemovalSelection_ok {P : Platform} {document : KnownHostsDocument} {hostToken : Text}
    {selected : List ℤ} (h : validateRemovalSelection P document hostToken selected = .ok ()) :
    ∀ line ∈ document.lines, (line.lineNumber : ℤ) ∈ selected → ∃ record, line.kind = .record ∧
      line.record = some record ∧ record.marker = .none ∧ hostMatches P hostToken record.hostField = .ok true := by
  unfold validateRemovalSelection at h
  cases hcount : countSelected P hostToken selected 0 document.lines with
  | error category =>
    rw [hcount] at h
    cases h
  | ok found => exact countSelected_ok hcount

/-- New numbers change neither what is protected nor the bytes. -/
theorem filter_renumber (lines : List KnownHostsLine) (n : ℕ) :
    ((lines.mapIdx fun index line => { line with lineNumber := index + n }).filter (·.isProtected)).map (·.rawBytes) =
      (lines.filter (·.isProtected)).map (·.rawBytes) := by
  induction lines generalizing n with
  | nil => rfl
  | cons line lines ih =>
    have htail := ih (n + 1)
    have hshift : (fun index (line : KnownHostsLine) => { line with lineNumber := index + 1 + n }) =
        fun index line => { line with lineNumber := index + (n + 1) } := by
      funext index line
      rw [Nat.add_assoc, Nat.add_comm 1 n]
    have hkept : KnownHostsLine.isProtected { line with lineNumber := 0 + n } = line.isProtected := rfl
    rw [List.mapIdx_cons, hshift, List.filter_cons, List.filter_cons, hkept]
    cases line.isProtected with
    | true =>
      rw [if_pos rfl, if_pos rfl, List.map_cons, List.map_cons, htail]
    | false => rw [if_neg Bool.false_ne_true, if_neg Bool.false_ne_true, htail]

/-- **A removal rewrites exactly the selected records.** -/
theorem removal_exact (P : Platform) (sourceId : String) (content : Bytes) (hostToken : Text) (selected : List ℤ)
    (hread : (parse sourceId content).fatalError = none)
    (hselection : validateRemovalSelection P (parse sourceId content) hostToken selected = .ok ()) :
    let document := parse sourceId content
    let reread := parse sourceId (retainedBytes document selected)
    reread.fatalError = none ∧
      reread.lines = renumber (document.lines.filter fun line => (line.lineNumber : ℤ) ∉ selected) ∧
      (∀ line ∈ document.lines, (line.lineNumber : ℤ) ∈ selected → ∃ record, line.kind = .record ∧
        line.record = some record ∧ record.marker = .none ∧ hostMatches P hostToken record.hostField = .ok true) ∧
      (reread.lines.filter (·.isProtected)).map (·.rawBytes) =
        (document.lines.filter (·.isProtected)).map (·.rawBytes) := by
  intro document reread
  have hreadable := (parse_fatalError_none_iff sourceId content).mp hread
  have hdocument : document.lines = linesFrom 1 (rawLines content) := by
    show (parse sourceId content).lines = _
    rw [parse_of_readable sourceId hreadable]
  have hreread : reread = ⟨sourceId, renumber (document.lines.filter fun line => (line.lineNumber : ℤ) ∉ selected), none⟩ :=
    parse_of_sublist sourceId hreadable (hdocument ▸ List.filter_sublist)
  have hremoved := validateRemovalSelection_ok hselection
  refine ⟨by rw [hreread], by rw [hreread], hremoved, ?_⟩
  rw [hreread]
  show ((renumber _).filter _).map _ = _
  unfold renumber
  rw [filter_renumber _ 1, List.filter_filter]
  congr 1
  refine List.filter_congr fun line hline => ?_
  -- A protected line is no unmarked record, so it was not selected.
  cases hprotected : line.isProtected with
  | false => rfl
  | true =>
    have hunselected : (line.lineNumber : ℤ) ∉ selected := by
      intro hmem
      obtain ⟨record, -, hrecord, hmarker, -⟩ := hremoved line hline hmem
      unfold KnownHostsLine.isProtected at hprotected
      rw [hrecord] at hprotected
      simp [hmarker] at hprotected
    simp [hunselected]

/-- A file with a comment, a record of the host `a` and a revoked key without a terminator. -/
def removalText : String := "# c\r\na k AAAAAWs=\n@revoked * k AAAAAWs="

/-- The record is removed; the other lines are still there. -/
theorem removal_exact_record :
    (parse "user-known-hosts" (utf8Bytes removalText.toList)).fatalError = none ∧
      (parse "user-known-hosts" (retainedBytes (parse "user-known-hosts" (utf8Bytes removalText.toList)) [2])).fatalError =
        none := by
  have hread : (parse "user-known-hosts" (utf8Bytes removalText.toList)).fatalError = none := by decide
  have hselection : (validateRemovalSelection samplePlatform (parse "user-known-hosts" (utf8Bytes removalText.toList))
      "a".toList [2]).toOption = some () := by decide
  refine ⟨hread, ?_⟩
  cases hv : validateRemovalSelection samplePlatform (parse "user-known-hosts" (utf8Bytes removalText.toList))
      "a".toList [2] with
  | error message =>
    rw [hv] at hselection
    cases hselection
  | ok _ =>
    exact (removal_exact samplePlatform "user-known-hosts" (utf8Bytes removalText.toList) "a".toList [2] hread hv).1

end VT7.KnownHosts
