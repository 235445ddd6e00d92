import VT7.KnownHosts.Resolver
import VT7.KnownHosts.Retained

/-!
# Reading loses nothing, and resolving does not throw

Whatever the content, the lines of a document are numbered from 1 and their raw bytes are the content up to where
`Parse` stopped.  A host field that `IsValidHostField` accepts is matched without an exception, so neither resolver's
scan throws on documents that `Parse` has made.
-/

namespace VT7.KnownHosts

open VT7.Dotnet VT7.Lib

/-- `Parse` stops in front of a line or behind it, and reads everything when it meets no limit. -/
theorem parseLines_lines (sourceId : String) (raws : List Bytes) (n count : ℕ) (lines : List KnownHostsLine) :
    ∃ k, (parseLines sourceId n count lines raws).lines = lines ++ linesFrom n (raws.take k) ∧
      ((parseLines sourceId n count lines raws).fatalError = none → raws.take k = raws) := by
  induction raws generalizing n count lines with
  | nil => exact ⟨0, (List.append_nil _).symm, fun _ => rfl⟩
  | cons raw raws ih =>
    unfold parseLines
    by_cases hsize : maximumLineBytes < (semanticOf raw).length
    · rw [if_pos hsize]
      exact ⟨0, (List.append_nil _).symm, fun h => (Option.some_ne_none _ h).elim⟩
    · rw [if_neg hsize]
      dsimp only
      by_cases hrecords : (parseLine n raw (semanticOf raw)).kind = .record ∧
          maximumRecords < if (parseLine n raw (semanticOf raw)).kind = .record then count + 1 else count
      · rw [if_pos hrecords]
        exact ⟨1, rfl, fun h => (Option.some_ne_none _ h).elim⟩
      · rw [if_neg hrecords]
        obtain ⟨k, hlines, hall⟩ := ih (n + 1)
          (if (parseLine n raw (semanticOf raw)).kind = .record then count + 1 else count)
          (lines ++ [parseLine n raw (semanticOf raw)])
        refine ⟨k + 1, ?_, fun h => ?_⟩
        · rw [hlines, List.append_assoc]
          rfl
        · rw [List.take_succ_cons, hall h]

theorem linesFrom_lineNumbers (n : ℕ) (raws : List Bytes) :
    (linesFrom n raws).map (·.lineNumber) = List.range' n (linesFrom n raws).length := by
  induction raws generalizing n with
  | nil => rfl
  | cons raw raws ih =>
    rw [linesFrom, List.map_cons, parseLine_lineNumber, ih, List.length_cons, List.range'_succ]

theorem take_flatten_isPrefix (raws : List Bytes) (k : ℕ) : (raws.take k).flatten <+: raws.flatten := by
  refine ⟨(raws.drop k).flatten, ?_⟩
  rw [← List.flatten_append, List.take_append_drop]

/-- The lines of any document: their numbers, and their bytes. -/
theorem parse_lines (sourceId : String) (content : Bytes) :
    (parse sourceId content).lines.map (·.lineNumber) = List.range' 1 (parse sourceId content).lines.length ∧
      (parse sourceId content).lines.flatMap (·.rawBytes) <+: content ∧
      ((parse sourceId content).fatalError = none →
        (parse sourceId content).lines.flatMap (·.rawBytes) = content) := by
  have hcontent : (rawLines content).flatten = content := Lines.flatten_splitAfter content
  unfold parse
  by_cases hsize : maximumFileBytes < content.length
  · rw [if_pos hsize]
    exact ⟨rfl, ⟨content, rfl⟩, fun h => nomatch h⟩
  · rw [if_neg hsize]
    obtain ⟨k, hlines, hall⟩ := parseLines_lines sourceId (rawLines content) 1 0 []
    rw [hlines, List.nil_append]
    have hbytes : (linesFrom 1 ((rawLines content).take k)).flatMap (·.rawBytes) = ((rawLines content).take k).flatten := by
      rw [List.flatMap_def, linesFrom_rawBytes]
    rw [hbytes]
    refine ⟨linesFrom_lineNumbers 1 _, ?_, fun h => ?_⟩
    · have hfront := take_flatten_isPrefix (rawLines content) k
      rwa [hcontent] at hfront
    · rw [hall h, hcontent]

/-- **Reading is lossless, and no content makes the resolvers throw.** -/
theorem parse_lossless (P : Platform) :
    (∀ (sourceId : String) (content : Bytes),
      let document := parse sourceId content
      document.lines.map (·.lineNumber) = List.range' 1 document.lines.length ∧
        document.lines.flatMap (·.rawBytes) <+: content ∧
        (document.fatalError = none → document.lines.flatMap (·.rawBytes) = content) ∧
        ∀ line ∈ document.lines, line.kind = .record → ∃ record, line.record = some record ∧
          ∀ hostToken, ∃ answer, hostMatches P hostToken record.hostField = .ok answer) ∧
      ∀ (contents : List (String × Bytes)) (hostToken : Text) (presented : PresentedHostKey P)
        (certificate : KnownHostCertificateFacts),
        let documents := contents.map fun content => parse content.1 content.2
        (∃ result, resolve hostToken presented documents = .ok result) ∧
          ∃ found, scan (classifyLine P hostToken (inspectCertificate presented certificate)) .empty documents =
            .ok found := by
  refine ⟨fun sourceId content => ?_, fun contents hostToken presented certificate => ⟨?_, ?_⟩⟩
  · obtain ⟨hnumbers, hfront, hall⟩ := parse_lines sourceId content
    refine ⟨hnumbers, hfront, hall, fun line _ hkind => ?_⟩
    obtain ⟨record, hrecord⟩ := Option.isSome_iff_exists.mp (line.record_iff.mp hkind)
    exact ⟨record, hrecord, fun hostToken => hostMatches_total P hostToken record.hostField_valid⟩
  · obtain ⟨found, hscan, -⟩ := scan_spec P hostToken (inspectPlain presented)
      (contents.map fun content => parse content.1 content.2) .empty
    unfold resolve
    rw [hscan]
    exact ⟨_, rfl⟩
  · obtain ⟨found, hscan, -⟩ := scan_spec P hostToken (inspectCertificate presented certificate)
      (contents.map fun content => parse content.1 content.2) .empty
    exact ⟨found, hscan⟩

end VT7.KnownHosts
