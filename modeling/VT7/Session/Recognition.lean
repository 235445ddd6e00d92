import VT7.Session.Barrier

/-!
# Recognising a committed marker

The session looks for a marker in the last `maximumTail` bytes of the output, when the waiter is registered and behind
every later block.  What it finds has been committed (`Recognition.sound`); a marker that was committed is missed when
more output follows it, before the waiter or within its own block, than the tail keeps (`completed_iff_occurs_iff`).
-/

namespace VT7.Session

open VT7.Dotnet

/-- What the session keeps of the output of a generation. -/
def lastBytes (output : Bytes) : Bytes := output.drop (output.length - maximumTail)

namespace CommittedOutput

/-- A running session that has committed nothing. -/
def fresh : CommittedOutput := BarrierState.start.session

/-- The blocks are committed one after the other. -/
def recordAll (s : CommittedOutput) (generation : ℕ) (blocks : List Bytes) : CommittedOutput :=
  blocks.foldl (fun s block => s.recordCommittedOutput generation block) s

end CommittedOutput

/-- The output ends with the marker and no more than fits behind it in the tail. -/
def InReach (marker output : Bytes) : Prop :=
  ∃ front rest, output = front ++ marker ++ rest ∧ (marker ++ rest).length ≤ maximumTail

/-- The marker is in reach when the waiter is registered or behind a later block. -/
def Recognisable (marker : Bytes) (before after : List Bytes) : Prop :=
  ∃ blocks, blocks <+: after ∧ InReach marker (before ++ blocks).flatten

/-! ### The tail -/

theorem contains_iff {haystack needle : Bytes} (hne : needle ≠ []) :
    contains haystack needle = true ↔ needle <:+: haystack := by
  unfold contains
  by_cases hshort : haystack.length < needle.length
  · rw [if_pos (.inr hshort)]
    exact iff_of_false (by decide) fun h => absurd h.length_le (by omega)
  · rw [if_neg (by simp [hne, hshort])]
    constructor
    · intro hany
      obtain ⟨start, -, hfound⟩ := List.any_eq_true.mp hany
      rw [beq_iff_eq] at hfound
      rw [← hfound]
      exact (List.take_prefix _ _).isInfix.trans (List.drop_suffix _ _).isInfix
    · rintro ⟨front, rest, rfl⟩
      refine List.any_eq_true.mpr ⟨front.length, ?_, ?_⟩
      · simp only [List.length_append, List.mem_range]
        omega
      · rw [beq_iff_eq, List.append_assoc, List.drop_left, List.take_left]

theorem infix_lastBytes_iff {marker output : Bytes} : marker <:+: lastBytes output ↔ InReach marker output := by
  unfold lastBytes
  constructor
  · rintro ⟨front, rest, heq⟩
    refine ⟨output.take (output.length - maximumTail) ++ front, rest, ?_, ?_⟩
    · rw [List.append_assoc, List.append_assoc, ← List.append_assoc front, heq, List.take_append_drop]
    · have hlength := congrArg List.length heq
      simp only [List.length_append, List.length_drop] at hlength ⊢
      omega
  · rintro ⟨front, rest, rfl, hlength⟩
    rw [List.append_assoc, List.drop_append_of_le_length (by simp only [List.length_append] at hlength ⊢; omega)]
    exact ⟨_, rest, List.append_assoc _ _ _⟩

/-- Trimming before a block is appended loses nothing that the trimming behind it would keep. -/
lemma drop_trimmed (limit : ℕ) (output block : Bytes) :
    (output.drop (output.length - limit) ++ block).drop ((output.drop (output.length - limit) ++ block).length - limit) =
      (output ++ block).drop ((output ++ block).length - limit) := by
  rw [← List.drop_append_of_le_length (by omega), List.drop_drop]
  congr 1
  simp only [List.length_append, List.length_drop]
  omega

theorem tailBehind_lastBytes (output block : Bytes) :
    CommittedOutput.tailBehind (some (lastBytes output)) block = lastBytes (output ++ block) := by
  unfold CommittedOutput.tailBehind lastBytes
  rw [Option.getD_some]
  exact drop_trimmed _ _ _

/-! ### Before the waiter -/

namespace CommittedOutput

/-- The tail of a generation whose output this is. -/
def tailOf (output : Bytes) : Option Bytes → Prop
  | none => output = []
  | some tail => tail = lastBytes output

variable {s : CommittedOutput} {generation : ℕ}

lemma tailBehind_of_tailOf {tail : Option Bytes} {output : Bytes} (h : tailOf output tail) (block : Bytes) :
    tailBehind tail block = lastBytes (output ++ block) := by
  cases tail with
  | none =>
    obtain rfl : output = [] := h
    rw [List.nil_append, tailBehind, lastBytes, Option.getD_none, List.nil_append]
  | some tail =>
    have htail : tail = lastBytes output := h
    rw [htail]
    exact tailBehind_lastBytes output block

/-- What the registration of a waiter finds in the tail. -/
lemma any_contains_iff {tail : Option Bytes} {output marker : Bytes} (hne : marker ≠ []) (h : tailOf output tail) :
    tail.any (contains · marker) = true ↔ InReach marker output := by
  cases tail with
  | none =>
    obtain rfl : output = [] := h
    refine iff_of_false (by simp) ?_
    rintro ⟨front, rest, heq, -⟩
    exact hne (List.append_eq_nil_iff.mp (List.append_eq_nil_iff.mp heq.symm).1).2
  | some tail =>
    have htail : tail = lastBytes output := h
    rw [Option.any_some, contains_iff hne, htail, infix_lastBytes_iff]

/-- The session when its output is `output` and the waiter, if there is one, has not been completed. -/
structure Waiting (s : CommittedOutput) (generation : ℕ) (output : Bytes) (waiter : Option CommittedOutputWaiter) : Prop where
  accepts : s.accepts = true
  tail : tailOf output (s.committedTails generation)
  registered : s.committedWaiters generation = waiter
  tasks : ∀ task ∈ s.completed, task < s.tasks
  pending : ∀ w, waiter = some w → w.completion ∉ s.completed

/-- A block behind which the marker is not in reach. -/
lemma Waiting.record {output : Bytes} {waiter : Option CommittedOutputWaiter} (h : s.Waiting generation output waiter)
    (block : Bytes) (hmissing : ∀ w, waiter = some w → contains (lastBytes (output ++ block)) w.marker = false) :
    (s.recordCommittedOutput generation block).Waiting generation (output ++ block) waiter := by
  rcases BarrierState.recordCommittedOutput_cases s generation block with ⟨heq, -⟩ | ⟨w, hw, hfound, -⟩
  · rw [heq]
    refine ⟨h.accepts, ?_, h.registered, h.tasks, h.pending⟩
    simp only [Function.update_self]
    exact tailBehind_of_tailOf h.tail block
  · rw [tailBehind_of_tailOf h.tail, hmissing w (h.registered.symm.trans hw)] at hfound
    cases hfound

lemma Waiting.recordAll {output : Bytes} (h : s.Waiting generation output none) (blocks : List Bytes) :
    (s.recordAll generation blocks).Waiting generation (output ++ blocks.flatten) none := by
  induction blocks generalizing s output with
  | nil => simpa [CommittedOutput.recordAll] using h
  | cons block blocks ih =>
    have hnext := ih (h.record block fun w hw => nomatch hw)
    rwa [List.append_assoc] at hnext

lemma waiting_fresh (generation : ℕ) : fresh.Waiting generation [] none :=
  ⟨rfl, rfl, rfl, fun _ h => (nomatch h), fun _ h => nomatch h⟩

/-! ### Behind the waiter -/

lemma completed_recordAll {task : ℕ} (h : task ∈ s.completed) (blocks : List Bytes) :
    task ∈ (s.recordAll generation blocks).completed := by
  induction blocks generalizing s with
  | nil => exact h
  | cons block blocks ih =>
    refine ih (s := s.recordCommittedOutput generation block) ?_
    rcases BarrierState.recordCommittedOutput_cases s generation block with ⟨heq, -⟩ | ⟨_, -, -, heq⟩
    · rw [heq]
      exact h
    · rw [heq]
      exact List.mem_cons_of_mem _ h

/-- **A registered waiter is completed** when its marker is in reach behind one of the blocks. -/
theorem completed_recordAll_iff {output marker : Bytes} {task : ℕ} (hne : marker ≠ [])
    (h : s.Waiting generation output (some ⟨marker, task⟩)) (blocks : List Bytes) :
    task ∈ (s.recordAll generation blocks).completed ↔
      ∃ first, first <+: blocks ∧ first ≠ [] ∧ InReach marker (output ++ first.flatten) := by
  induction blocks generalizing s output with
  | nil =>
    refine iff_of_false (h.pending _ rfl) ?_
    rintro ⟨first, hfirst, hnil, -⟩
    exact hnil (List.prefix_nil.mp hfirst)
  | cons block blocks ih =>
    by_cases hfound : contains (lastBytes (output ++ block)) marker = true
    · refine iff_of_true (completed_recordAll (s := s.recordCommittedOutput generation block) ?_ blocks)
        ⟨[block], ⟨blocks, rfl⟩, by simp, ?_⟩
      · rcases BarrierState.recordCommittedOutput_cases s generation block with ⟨-, hmissing⟩ | ⟨w, hw, -, heq⟩
        · have := hmissing _ h.registered
          rw [tailBehind_of_tailOf h.tail, hfound] at this
          cases this
        · cases h.registered.symm.trans hw
          rw [heq]
          exact List.mem_cons_self
      · rwa [contains_iff hne, infix_lastBytes_iff, ← List.append_nil block] at hfound
    · have hwaiting := h.record block fun w hw => by
        cases hw
        simpa using hfound
      refine (ih hwaiting).trans ⟨?_, ?_⟩
      · rintro ⟨first, hfirst, -, hreach⟩
        refine ⟨block :: first, List.cons_prefix_cons.mpr ⟨rfl, hfirst⟩, by simp, ?_⟩
        rwa [List.flatten_cons, ← List.append_assoc]
      · rintro ⟨first, hfirst, hnil, hreach⟩
        cases first with
        | nil => exact absurd rfl hnil
        | cons b first =>
          obtain ⟨rfl, hrest⟩ := List.cons_prefix_cons.mp hfirst
          rw [List.flatten_cons, ← List.append_assoc] at hreach
          refine ⟨first, hrest, ?_, hreach⟩
          -- the marker is not in reach behind the block itself
          rintro rfl
          rw [List.flatten_nil, List.append_nil, ← infix_lastBytes_iff, ← contains_iff hne] at hreach
          exact hfound hreach

/-- **The task is completed** exactly when the marker is in reach when it is registered or behind a later block. -/
theorem completed_iff_recognisable (hgeneration : generation ≠ 0) {marker : Text} (hmarker : marker ≠ [])
    (before after : List Bytes) :
    ∃ task session, (fresh.recordAll generation before).waitForCommittedOutput generation marker = .ok (task, session) ∧
      (task ∈ (session.recordAll generation after).completed ↔ Recognisable (utf8Bytes marker) before after) := by
  have hne := BarrierState.utf8Bytes_ne_nil hmarker
  have hwaiting := (waiting_fresh generation).recordAll before
  rw [List.nil_append] at hwaiting
  generalize hs : fresh.recordAll generation before = s at hwaiting
  have hthere : (s.committedTails generation).any (contains · (utf8Bytes marker)) = true ↔
      InReach (utf8Bytes marker) before.flatten := any_contains_iff hne hwaiting.tail
  unfold waitForCommittedOutput
  rw [if_neg hgeneration, if_neg hmarker]
  simp only
  rw [if_neg (by simp [hwaiting.accepts]), if_neg (by simp [hwaiting.registered])]
  by_cases hreach : InReach (utf8Bytes marker) before.flatten
  · rw [if_pos (hthere.mpr hreach)]
    refine ⟨_, _, rfl, iff_of_true (completed_recordAll List.mem_cons_self after) ⟨[], List.nil_prefix, ?_⟩⟩
    rwa [List.append_nil]
  · rw [if_neg fun h => hreach (hthere.mp h)]
    refine ⟨_, _, rfl, ?_⟩
    have hregistered : ({ s with
        tasks := s.tasks + 1
        committedWaiters := Function.update s.committedWaiters generation (some ⟨utf8Bytes marker, s.tasks⟩) } :
          CommittedOutput).Waiting generation before.flatten (some ⟨utf8Bytes marker, s.tasks⟩) := by
      refine ⟨hwaiting.accepts, hwaiting.tail, Function.update_self _ _ _, fun task hmem => ?_, fun w hw hmem => ?_⟩
      · exact (hwaiting.tasks task hmem).trans (Nat.lt_succ_self _)
      · cases hw
        exact lt_irrefl _ (hwaiting.tasks _ hmem)
    rw [completed_recordAll_iff hne hregistered]
    constructor
    · rintro ⟨first, hfirst, -, hinReach⟩
      exact ⟨first, hfirst, by rwa [List.flatten_append]⟩
    · rintro ⟨first, hfirst, hinReach⟩
      rw [List.flatten_append] at hinReach
      refine ⟨first, hfirst, ?_, hinReach⟩
      rintro rfl
      rw [List.flatten_nil, List.append_nil] at hinReach
      exact hreach hinReach

theorem occurs_of_recognisable {marker : Bytes} {before after : List Bytes} (h : Recognisable marker before after) :
    marker <:+: (before ++ after).flatten := by
  obtain ⟨blocks, ⟨later, rfl⟩, front, rest, heq, -⟩ := h
  rw [← List.append_assoc, List.flatten_append, heq]
  exact ⟨front, rest ++ later.flatten, by simp only [List.append_assoc]⟩

/-- **The task tells whether the marker has been committed**, at every point of the output, exactly when a marker that
was committed has been in reach since the waiter. -/
theorem completed_iff_occurs_iff (hgeneration : generation ≠ 0) {marker : Text} (hmarker : marker ≠ [])
    (before after : List Bytes) :
    ∃ task session, (fresh.recordAll generation before).waitForCommittedOutput generation marker = .ok (task, session) ∧
      (task ∈ (session.recordAll generation after).completed → utf8Bytes marker <:+: (before ++ after).flatten) ∧
      ((task ∈ (session.recordAll generation after).completed ↔ utf8Bytes marker <:+: (before ++ after).flatten) ↔
        (utf8Bytes marker <:+: (before ++ after).flatten → Recognisable (utf8Bytes marker) before after)) := by
  obtain ⟨task, session, hwait, hiff⟩ := completed_iff_recognisable hgeneration hmarker before after
  refine ⟨task, session, hwait, fun h => occurs_of_recognisable (hiff.mp h), ?_⟩
  rw [hiff]
  exact ⟨fun h => h.mpr, fun h => ⟨occurs_of_recognisable, h⟩⟩

/-- A marker that is split between two blocks. -/
theorem completed_iff_occurs_iff_split : ∃ task session,
    (fresh.recordAll 1 [[1, 97]]).waitForCommittedOutput 1 "ab".toList = .ok (task, session) ∧
      task ∈ (session.recordAll 1 [[98, 2]]).completed := by
  obtain ⟨task, session, hwait, -, hiff⟩ :=
    @completed_iff_occurs_iff 1 (by decide) "ab".toList (by decide) [[1, 97]] [[98, 2]]
  refine ⟨task, session, hwait, (hiff.mpr fun _ => ⟨[[98, 2]], List.prefix_rfl, [1], [2], rfl, by decide⟩).mpr ?_⟩
  exact ⟨[1], [2], rfl⟩

/-- **A block of 8193 bytes that begins with the marker**: the marker is cut off before it is looked for. -/
theorem marker_cut_off : ∃ task session, fresh.waitForCommittedOutput 1 "a".toList = .ok (task, session) ∧
    utf8Bytes "a".toList <:+: 97 :: List.replicate maximumTail 0 ∧
    task ∉ (session.recordAll 1 [97 :: List.replicate maximumTail 0]).completed := by
  obtain ⟨task, session, hwait, hiff⟩ := @completed_iff_recognisable 1 (by decide) "a".toList (by decide) [] [97 :: List.replicate maximumTail 0]
  refine ⟨task, session, hwait, ⟨[], List.replicate maximumTail 0, rfl⟩, fun hcompleted => ?_⟩
  obtain ⟨blocks, hblocks, front, rest, heq, hlength⟩ := hiff.mp hcompleted
  have hone : utf8Bytes "a".toList = [97] := by decide
  rw [hone] at heq hlength
  rcases List.prefix_cons_iff.mp hblocks with rfl | ⟨later, rfl, hlater⟩
  · have hlengths := congrArg List.length heq
    simp at hlengths
  · obtain rfl := List.prefix_nil.mp hlater
    rw [List.nil_append, List.flatten_cons, List.flatten_nil, List.append_nil] at heq
    cases front with
    | nil =>
      have hlengths := congrArg List.length heq
      simp only [List.nil_append, List.length_append, List.length_cons, List.length_replicate] at hlengths hlength
      omega
    | cons first front =>
      rw [List.cons_append, List.cons_append] at heq
      have hmem : (97 : UInt8) ∈ List.replicate maximumTail 0 := by
        rw [(List.cons.inj heq).2]
        simp
      exact absurd (List.eq_of_mem_replicate hmem) (by decide)

end CommittedOutput

end VT7.Session
