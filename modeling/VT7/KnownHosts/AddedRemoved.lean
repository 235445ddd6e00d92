import VT7.KnownHosts.Addition
import VT7.KnownHosts.Lossless
import VT7.KnownHosts.Retained

/-!
# A record that is added and removed

The line that `BuildAddition` writes can be selected for removal.  What is retained then is the content as it was, with
its last line closed, and it reads as before.
-/

namespace VT7.KnownHosts

open VT7.Dotnet VT7.Lib

variable {P : Platform}

/-! ### One selected line -/

section Selected

variable {hostToken : Text} {front : List KnownHostsLine} {last : KnownHostsLine}

/-- Lines with other numbers are passed over. -/
lemma countSelected_unselected (P : Platform) (hostToken : Text) {selected : List ℤ}
    {lines behind : List KnownHostsLine} (h : ∀ line ∈ lines, (line.lineNumber : ℤ) ∉ selected) (found : ℕ) :
    countSelected P hostToken selected found (lines ++ behind) = countSelected P hostToken selected found behind := by
  induction lines with
  | nil => rfl
  | cons line lines ih =>
    obtain ⟨hline, hlines⟩ := List.forall_mem_cons.mp h
    rw [List.cons_append, countSelected, if_pos hline]
    exact ih hlines

/-- The numbers of the lines in front are smaller. -/
lemma number_notMem {content : Bytes} {sourceId : String} (hreadable : Readable content)
    (hlines : (parse sourceId content).lines = front ++ [last]) :
    (∀ line ∈ front, (line.lineNumber : ℤ) ∉ [((parse sourceId content).lines.length : ℤ)]) ∧
      last.lineNumber = (parse sourceId content).lines.length := by
  have hparse : (parse sourceId content).lines = linesFrom 1 (rawLines content) := by
    rw [parse_of_readable sourceId hreadable]
  have hnumbers := linesFrom_lineNumbers 1 (rawLines content)
  rw [← hparse, hlines, List.map_append, List.map_singleton, List.length_append, List.length_singleton,
    List.range'_1_concat] at hnumbers
  obtain ⟨hfront, hlast⟩ := List.append_inj' hnumbers rfl
  rw [hlines, List.length_append, List.length_singleton]
  constructor
  · intro line hline hmem
    have hnumber : line.lineNumber ∈ List.range' 1 front.length := by
      rw [← hfront]
      exact List.mem_map_of_mem hline
    rw [List.mem_range'_1] at hnumber
    have heq := List.mem_singleton.mp hmem
    push_cast at heq
    omega
  · rw [List.singleton_inj.mp hlast]
    exact Nat.add_comm 1 _

end Selected

/-! ### The added line -/

section Added

variable {sourceId : String} {content : Bytes} {hostToken : Text} {presented : PresentedHostKey P}

/-- The lines in front of the added one are the content and what closes it. -/
lemma flatMap_front (htoken : IsHostToken hostToken) {front : List KnownHostsLine} {last : KnownHostsLine}
    (h : linesFrom 1 (rawLines (content ++ buildAddition content hostToken presented)) = front ++ [last]) :
    front.flatMap (·.rawBytes) = content ++ additionLead content := by
  obtain ⟨host, port, hcreate⟩ := htoken
  obtain ⟨-, -, hchars⟩ := createHostToken_ok hcreate
  have hline := congrArg List.length (semanticLines_record presented hchars content)
  unfold semanticLines at hline
  rw [List.length_map] at hline
  have hsplit : rawLines (content ++ buildAddition content hostToken presented) =
      rawLines (content ++ additionLead content) ++
        rawLines (utf8Bytes (recordText hostToken presented.keyType presented.blob) ++ dominantNewline content) := by
    unfold rawLines buildAddition
    rw [List.append_assoc (additionLead content), ← List.append_assoc content,
      Lines.splitAfter_append (closes_additionLead content).terminated]
  have hraws := congrArg (List.map (·.rawBytes)) h
  rw [linesFrom_rawBytes, hsplit, List.map_append, List.map_singleton] at hraws
  obtain ⟨hfront, -⟩ := List.append_inj' hraws (by rw [hline]; rfl)
  rw [List.flatMap_def, ← hfront]
  exact Lines.flatten_splitAfter _

lemma map_reading_renumber (lines : List KnownHostsLine) :
    (renumber lines).map (·.reading) = lines.map (·.reading) := by
  refine List.ext_getElem (by simp [renumber]) fun i hi hi' => ?_
  simp only [renumber, List.getElem_map, List.getElem_mapIdx]
  rfl

/-- **An added record can be removed again**, and leaves the content with its last line closed. -/
theorem remove_addition (hcontent : (parse sourceId content).fatalError = none) (htoken : IsHostToken hostToken)
    (hsize : content.length + (buildAddition content hostToken presented).length ≤ maximumFileBytes)
    (h : Storable P sourceId content hostToken presented) :
    let document := parse sourceId (content ++ buildAddition content hostToken presented)
    let retained := retainedBytes document [(document.lines.length : ℤ)]
    validateRemovalSelection P document hostToken [(document.lines.length : ℤ)] = .ok () ∧
      retained = content ++ additionLead content ∧ (parse sourceId retained).fatalError = none ∧
      (parse sourceId retained).lines.map (·.reading) = (parse sourceId content).lines.map (·.reading) := by
  intro document retained
  obtain ⟨hfatal, hself, valid, front, last, hlines, hreadings, hkind, hrecord⟩ :=
    parse_of_storable hcontent htoken hsize h
  have hreadable := (parse_fatalError_none_iff sourceId _).mp hfatal
  have hdocument : document.lines = front ++ [last] := hlines
  obtain ⟨hothers, hnumber⟩ := number_notMem hreadable hlines
  have hselected : (last.lineNumber : ℤ) ∈ [(document.lines.length : ℤ)] := List.mem_singleton.mpr (by rw [hnumber])
  have hfilter : document.lines.filter (fun line => (line.lineNumber : ℤ) ∉ [(document.lines.length : ℤ)]) = front := by
    conv_lhs =>
      arg 2
      rw [hdocument]
    rw [List.filter_append, List.filter_eq_self.mpr fun line hline => decide_eq_true (hothers line hline),
      List.filter_singleton]
    simp [hnumber, document]
  have hraw : linesFrom 1 (rawLines (content ++ buildAddition content hostToken presented)) = front ++ [last] := by
    rw [← hlines, parse_of_readable sourceId hreadable]
  have hparsed := @parse_of_sublist sourceId _ front hreadable (hraw ▸ List.sublist_append_left front [last])
  have hretained : retained = front.flatMap (·.rawBytes) := congrArg (List.flatMap KnownHostsLine.rawBytes) hfilter
  refine ⟨?_, ?_, ?_, ?_⟩
  · have hcount : countSelected P hostToken [(document.lines.length : ℤ)] 0 document.lines = .ok 1 := by
      conv_lhs =>
        arg 5
        rw [hdocument]
      rw [countSelected_unselected P hostToken hothers, countSelected, if_neg (not_not_intro hselected),
        if_neg (not_not_intro hkind), hrecord]
      dsimp only
      rw [if_neg (not_not_intro rfl), hself]
      rfl
    unfold validateRemovalSelection
    rw [hcount]
    rfl
  · rw [hretained]
    exact flatMap_front htoken hraw
  · rw [hretained, hparsed]
  · rw [hretained, hparsed, ← hreadings]
    exact map_reading_renumber front

/-- The record of the host `a`, added to an empty file. -/
theorem remove_addition_first :
    let document := parse "user-known-hosts" ([] ++ buildAddition [] "a".toList sampleKey)
    let retained := retainedBytes document [(document.lines.length : ℤ)]
    validateRemovalSelection samplePlatform document "a".toList [(document.lines.length : ℤ)] = .ok () ∧
      retained = [] ++ additionLead [] ∧ (parse "user-known-hosts" retained).fatalError = none ∧
      (parse "user-known-hosts" retained).lines.map (·.reading) =
        (parse "user-known-hosts" []).lines.map (·.reading) :=
  remove_addition (by decide) ⟨"a".toList, 22, by decide⟩ (by decide +kernel)
    ⟨by decide, by decide, by decide, by decide, by decide, by decide⟩

end Added

end VT7.KnownHosts
