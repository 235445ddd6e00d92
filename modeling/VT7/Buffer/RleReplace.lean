import VT7.Buffer.Rle

/-!
# Replacing in a list of runs

What `_replace_unchecked` leaves are the runs in front of the range, the replacements and the runs behind it, each
joined with the next if the values that meet are equal (`replaceUnchecked_runs`).
-/

namespace VT7.Buffer.Rle

open VT7.Lib.RunLength

variable {α : Type} {r : Rle α} {l before between behind behind' : List (Run α)} {start stop pos pos' : ℕ}

@[simp] lemma addLength_zero (run : Run α) : addLength 0 run = run := rfl

lemma modify_addLength_zero (l : List (Run α)) (i : ℕ) : l.modify i (addLength 0) = l := List.modify_id i l

lemma modify_subLength_zero (l : List (Run α)) (i : ℕ) : l.modify i (subLength 0) = l := List.modify_id i l

lemma modify_length (front : List (Run α)) (run : Run α) (rest : List (Run α)) (f : Run α → Run α) :
    (front ++ run :: rest).modify front.length f = front ++ f run :: rest := by
  rw [List.modify_eq_take_drop, List.take_left, List.drop_left]
  rfl

/-! ### The ends of the range -/

/-- The run that ends in front of the range. -/
lemma Cut.previous (hcut : Cut l start before behind pos) (hstart : start ≠ 0) :
    ∃ front f run, keptFront before behind pos = front ++ [f] ∧
      front.length = (if pos ≠ 0 then before.length else before.length - 1) ∧ l[front.length]? = some run ∧
      run.value = f.value ∧ f.length = (if pos ≠ 0 then pos else run.length) ∧ l.take front.length = front := by
  unfold keptFront
  by_cases hpos : pos = 0
  · rw [if_pos hpos, if_neg (not_not.mpr hpos), List.append_nil]
    have hbefore : before ≠ [] := by
      intro hnil
      have hindex := hcut.index_eq
      rw [hnil, span_nil] at hindex
      omega
    obtain ⟨front, f, rfl⟩ : ∃ front f, before = front ++ [f] :=
      ⟨_, _, (List.dropLast_append_getLast hbefore).symm⟩
    refine ⟨front, f, f, rfl, by simp, ?_, rfl, by rw [if_neg (not_not.mpr hpos)], ?_⟩
    · rw [hcut.parts]
      simp
    · rw [hcut.parts, List.append_assoc, List.take_left]
  · rw [if_neg hpos, if_pos hpos]
    cases behind with
    | nil => exact absurd (hcut.atEnd rfl) hpos
    | cons run rest =>
      refine ⟨before, setLength pos run, run, rfl, rfl, ?_, rfl, by rw [if_pos hpos]; rfl, ?_⟩
      · rw [hcut.getElem_runs]
        rfl
      · rw [hcut.parts, List.take_left]

/-- Nothing is in front of the beginning. -/
lemma Cut.at_zero (hl : Canonical l) (hcut : Cut l 0 before behind pos) : before = [] ∧ pos = 0 := by
  have hindex := hcut.index_eq
  refine ⟨?_, by omega⟩
  cases before with
  | nil => rfl
  | cons run rest =>
    have hpos : 0 < run.length := hl.pos run (by rw [hcut.parts]; exact List.mem_cons_self)
    rw [span_cons] at hindex
    omega

/-- Nothing is behind the end. -/
lemma Cut.at_end (hcut : Cut l (span l) before behind pos) : behind = [] ∧ pos = 0 := by
  cases behind with
  | nil => exact ⟨rfl, hcut.atEnd rfl⟩
  | cons run rest =>
    have hin := hcut.inside run rfl
    have hindex := hcut.index_eq
    have hspan := congrArg span hcut.parts
    rw [span_append, span_cons] at hspan
    omega

/-! ### The steps behind the scans -/

section Steps

variable {begin beginPos stopPos : ℕ} {split : Bool} (l) (hle : begin ≤ stop)
  (hsplit : split = true ↔ begin = stop ∧ beginPos ≠ 0)

include hle hsplit

/-- Where no run is split, the position behind a shortened run is in front of the end. -/
lemma begin_le (hnot : split = false) : (if beginPos ≠ 0 then begin + 1 else begin) ≤ stop := by
  split
  · next hpos =>
    have hne : begin ≠ stop := fun h => by
      rw [hsplit.mpr ⟨h, hpos⟩] at hnot
      cases hnot
    omega
  · exact hle

/-- What is kept in front, after step 3. -/
lemma take_adjusted (m : List (Run α)) :
    (if (if split then 0 else stopPos) ≠ 0 then m.modify stop (subLength (if split then 0 else stopPos)) else m).take
      (if beginPos ≠ 0 then begin + 1 else begin) = m.take (if beginPos ≠ 0 then begin + 1 else begin) := by
  cases split with
  | true => rfl
  | false =>
    have hbegin := begin_le hle hsplit rfl
    generalize (if beginPos ≠ 0 then begin + 1 else begin) = n at *
    rw [if_neg Bool.false_ne_true]
    split
    · rw [List.take_modify, List.modify_eq_self]
      rw [List.length_take]
      omega
    · rfl

/-- What is kept behind, with the run that is split off. -/
lemma drop_adjusted :
    (if split then (l[begin]?.map (subLength stopPos)).toList else []) ++
      ((if (if split then 0 else stopPos) ≠ 0 then
        (if beginPos ≠ 0 then l.modify begin (setLength beginPos) else l).modify stop
          (subLength (if split then 0 else stopPos))
      else if beginPos ≠ 0 then l.modify begin (setLength beginPos) else l).drop
        (max (if beginPos ≠ 0 then begin + 1 else begin) stop)) =
      (l.drop stop).modify 0 (subLength stopPos) := by
  cases split with
  | true =>
    obtain ⟨rfl, hpos⟩ := hsplit.mp rfl
    simp only [if_true, if_pos hpos, ne_eq, not_true_eq_false, if_false]
    rw [max_eq_left (Nat.le_succ begin), List.drop_modify_of_lt _ _ _ _ (Nat.lt_succ_self begin)]
    by_cases hin : begin < l.length
    · rw [List.getElem?_eq_getElem hin, List.drop_eq_getElem_cons hin]
      rfl
    · rw [List.getElem?_eq_none (by omega), List.drop_eq_nil_of_le (by omega), List.drop_eq_nil_of_le (by omega)]
      rfl
  | false =>
    have hbegin := begin_le hle hsplit rfl
    have hfront : (if beginPos ≠ 0 then l.modify begin (setLength beginPos) else l).drop stop = l.drop stop := by
      split
      · next hpos =>
        rw [if_pos hpos] at hbegin
        exact List.drop_modify_of_lt _ _ _ _ (by omega)
      · rfl
    rw [max_eq_right hbegin]
    simp only [Bool.false_eq_true, if_false, List.nil_append]
    by_cases hzero : stopPos = 0
    · rw [if_neg (not_not.mpr hzero), hfront, hzero, modify_subLength_zero]
    · rw [if_pos hzero, List.drop_modify_of_ge _ _ _ _ le_rfl, Nat.sub_self, hfront]

end Steps

lemma Cut.taken (hcut : Cut l start before behind pos) :
    (if pos ≠ 0 then l.modify before.length (setLength pos) else l).take
      (if pos ≠ 0 then before.length + 1 else before.length) = keptFront before behind pos := by
  unfold keptFront
  by_cases hpos : pos = 0
  · rw [if_neg (not_not.mpr hpos), if_neg (not_not.mpr hpos), if_pos hpos, List.append_nil, hcut.parts, List.take_left]
  · rw [if_pos hpos, if_pos hpos, if_neg hpos]
    cases behind with
    | nil => exact absurd (hcut.atEnd rfl) hpos
    | cons run rest =>
      rw [hcut.parts, List.modify_eq_take_drop, List.take_left, List.drop_left, List.take_length_add_append]
      rfl

/-- The runs in front and the runs behind, where nothing is inserted and nothing is joined. -/
lemma Cut.removed (hcut : Cut l start before behind pos) (hcut' : Cut l stop (before ++ between) behind' pos')
    (happart : before.length = (before ++ between).length → pos = 0) :
    (if pos' ≠ 0 then (if pos ≠ 0 then l.modify before.length (setLength pos) else l).modify (before ++ between).length
        (subLength pos')
      else if pos ≠ 0 then l.modify before.length (setLength pos) else l).take
        (if pos ≠ 0 then before.length + 1 else before.length) ++
      (if pos' ≠ 0 then (if pos ≠ 0 then l.modify before.length (setLength pos) else l).modify (before ++ between).length
        (subLength pos')
      else if pos ≠ 0 then l.modify before.length (setLength pos) else l).drop (before ++ between).length =
      keptFront before behind pos ++ keptBack behind' pos' := by
  have hle : before.length ≤ (before ++ between).length := by
    rw [List.length_append]
    omega
  have hsplit : false = true ↔ before.length = (before ++ between).length ∧ pos ≠ 0 :=
    ⟨fun h => (nomatch h), fun h => absurd (happart h.1) h.2⟩
  have htake := @take_adjusted _ (before ++ between).length before.length pos pos' false hle hsplit
    (if pos ≠ 0 then l.modify before.length (setLength pos) else l)
  have hdrop := @drop_adjusted _ l (before ++ between).length before.length pos pos' false hle hsplit
  simp only [Bool.false_eq_true, if_false, List.nil_append] at htake hdrop
  rw [max_eq_right (begin_le hle hsplit rfl)] at hdrop
  rw [htake, hdrop]
  congr 1
  · exact hcut.taken
  · rw [hcut'.parts, List.drop_left]
    rfl

/-! ### Joining -/

section Join

variable [DecidableEq α]

/-- What `joinFront` answers: `front` stays in front of the replacements, whose first run grows. -/
structure Joined (runs kept : List (Run α)) (before : ℕ) (first : Run α) (rest front : List (Run α))
    (begin beginPos additional : ℕ) : Prop where
  le : begin ≤ before
  index : (if beginPos ≠ 0 then begin + 1 else begin) = front.length
  taken : (if beginPos ≠ 0 then runs.modify begin (setLength beginPos) else runs).take
    (if beginPos ≠ 0 then begin + 1 else begin) = front
  glued : glue kept (first :: rest) = front ++ addLength additional first :: rest

lemma Cut.apart (hcut : Cut l start before behind pos) {first : Run α} {rest : List (Run α)}
    (hglue : glue (keptFront before behind pos) (first :: rest) = keptFront before behind pos ++ first :: rest) :
    Joined l (keptFront before behind pos) before.length first rest (keptFront before behind pos) before.length pos 0 := by
  refine ⟨le_rfl, ?_, hcut.taken, hglue⟩
  unfold keptFront
  by_cases hpos : pos = 0
  · rw [if_neg (not_not.mpr hpos), if_pos hpos, List.append_nil]
  · rw [if_pos hpos, if_neg hpos]
    cases behind with
    | nil => exact absurd (hcut.atEnd rfl) hpos
    | cons run rest => simp

/-- The run in front and the replacements. -/
lemma joinFront_spec (hl : Canonical r.runs) (hcut : Cut r.runs start before behind pos) (first : Run α)
    (rest : List (Run α)) :
    ∃ front begin beginPos additional, r.joinFront start first.value before.length pos = (begin, beginPos, additional) ∧
      Joined r.runs (keptFront before behind pos) before.length first rest front begin beginPos additional := by
  by_cases hstart : start = 0
  · subst hstart
    obtain ⟨rfl, rfl⟩ := hcut.at_zero hl
    refine ⟨_, _, _, _, ?_, hcut.apart (nil_glue _)⟩
    unfold joinFront
    dsimp only
    split
    · exact if_neg fun h => h.1 rfl
    · rfl
  obtain ⟨front, f, run, hfront, hlength, hrun, hvalue, hf, htake⟩ := hcut.previous hstart
  have hjoin : r.joinFront start first.value before.length pos =
      if f.value = first.value then (front.length, 0, f.length) else (before.length, pos, 0) := by
    unfold joinFront
    dsimp only
    rw [← hlength, hrun]
    dsimp only
    rw [hvalue, hf]
    by_cases heq : f.value = first.value
    · rw [if_pos heq, if_pos ⟨hstart, heq⟩]
    · rw [if_neg heq, if_neg fun h => heq h.2]
  by_cases heq : f.value = first.value
  · rw [if_pos heq] at hjoin
    refine ⟨front, front.length, 0, f.length, hjoin, ?_, rfl, htake, ?_⟩
    · rw [hlength]
      split
      · exact le_rfl
      · exact Nat.sub_le _ _
    · rw [hfront, glue_concat, if_pos heq, Nat.add_comm]
      rfl
  · rw [if_neg heq] at hjoin
    refine ⟨_, _, _, _, hjoin, hcut.apart ?_⟩
    rw [hfront, glue_concat, if_neg heq]

/-- The replacements and the run behind. -/
lemma joinBack_spec (hcut : Cut r.runs stop before behind pos) (htotal : r.totalLength = span r.runs) (last : Run α)
    (front : List (Run α)) :
    ∃ stop' stopPos additional, r.joinBack stop last.value before.length pos = (stop', stopPos, additional) ∧
      before.length ≤ stop' ∧ (additional ≠ 0 → before.length < stop') ∧
      glue (front ++ [last]) (keptBack behind pos) =
        front ++ addLength additional last :: (r.runs.drop stop').modify 0 (subLength stopPos) := by
  have hdrop : r.runs.drop before.length = behind := by
    rw [hcut.parts, List.drop_left]
  unfold joinBack
  rw [hcut.getElem_runs]
  cases behind with
  | nil =>
    refine ⟨before.length, pos, 0, rfl, le_rfl, fun h => absurd rfl h, ?_⟩
    rw [hdrop]
    rfl
  | cons run rest =>
    have hend : stop ≠ r.totalLength := by
      intro h
      rw [h, htotal] at hcut
      exact nomatch hcut.at_end.1
    dsimp only [List.head?_cons]
    show ∃ _ _ _, _ ∧ _ ∧ _ ∧ glue _ (subLength pos run :: rest) = _
    rw [glue_concat]
    by_cases heq : run.value = last.value
    · rw [if_pos ⟨hend, heq⟩, if_pos (show last.value = (subLength pos run).value from heq.symm)]
      refine ⟨_, _, _, rfl, Nat.le_succ _, fun _ => Nat.lt_succ_self _, ?_⟩
      rw [modify_subLength_zero, ← List.drop_drop, hdrop]
      show front ++ ⟨run.value, _⟩ :: rest = front ++ ⟨last.value, _⟩ :: rest
      rw [heq]
      rfl
    · rw [if_neg fun h => heq h.2, if_neg (show ¬ last.value = (subLength pos run).value from fun h => heq h.symm)]
      refine ⟨_, _, _, rfl, le_rfl, fun h => absurd rfl h, ?_⟩
      rw [hdrop, List.append_assoc]
      rfl

/-- **What is left of the runs.** -/
theorem replaceUnchecked_runs (hr : r.Sound) (hle : start ≤ stop) (hstop : stop ≤ r.totalLength)
    {replacements : List (Run α)} (hne : replacements ≠ []) :
    ∃ before behind pos before' behind' pos', Cut r.runs start before behind pos ∧ Cut r.runs stop before' behind' pos' ∧
      r.replaceUnchecked start stop replacements =
        ⟨glue (glue (keptFront before behind pos) replacements) (keptBack behind' pos'),
          r.totalLength - (stop - start) + span replacements⟩ := by
  have htotal := hr.total
  obtain ⟨before, behind, pos, hscan, hcut⟩ := @scan_spec _ r.runs start (by omega)
  obtain ⟨between, behind', pos', hscan', hcut'⟩ := @Cut.scan _ _ _ _ _ _ hcut stop hle (by omega)
  refine ⟨before, behind, pos, before ++ between, behind', pos', hcut, hcut', ?_⟩
  obtain ⟨first, rest, rfl⟩ := List.exists_cons_of_ne_nil hne
  obtain ⟨front, begin, beginPos, additional, hfront, hjoined⟩ := joinFront_spec hr.canonical hcut first rest
  -- The replacements with the longer first run, and their last one.
  obtain ⟨middle, last, hlast⟩ : ∃ middle last, addLength additional first :: rest = middle ++ [last] :=
    ⟨_, _, (List.dropLast_append_getLast (List.cons_ne_nil _ _)).symm⟩
  obtain ⟨stop', stopPos, additional', hback, hstop', hgrown, hglue⟩ := joinBack_spec hcut' htotal last middle
  have hvalue : (first :: rest).getLast?.map Run.value = some last.value := by
    have h : (addLength additional first :: rest).getLast?.map Run.value = some last.value := by
      rw [hlast, List.getLast?_concat]
      rfl
    cases rest with
    | nil => exact h
    | cons r rest => exact h
  obtain ⟨last', hlast', hsame⟩ := Option.map_eq_some_iff.mp hvalue
  have hbegin : begin ≤ stop' := by
    have h := hjoined.le
    rw [List.length_append] at hstop'
    omega
  unfold replaceUnchecked
  rw [hscan]
  dsimp only
  rw [hscan']
  dsimp only
  rw [List.head?_cons, hlast']
  dsimp only
  rw [hfront, hsame]
  dsimp only
  rw [hback]
  dsimp only
  generalize hsplit : decide (begin = stop' ∧ beginPos ≠ 0) = split
  have hsplit' : split = true ↔ begin = stop' ∧ beginPos ≠ 0 := by
    rw [← hsplit, decide_eq_true_iff]
  have hdropped := @drop_adjusted _ r.runs stop' begin beginPos stopPos split hbegin hsplit'
  rw [take_adjusted hbegin hsplit', hjoined.taken]
  rw [hjoined.index] at hdropped ⊢
  rw [hjoined.glued, List.append_assoc (first :: rest), hdropped]
  -- Only a run that is not split off can grow at the end.
  have hindex : additional' ≠ 0 →
      (if split then (r.runs[begin]?.map (subLength stopPos)).toList else []).length = 0 := by
    intro hne
    have hlt := hgrown hne
    have hle' := hjoined.le
    rw [List.length_append] at hlt
    have hnot : split = false := by
      rw [Bool.eq_false_iff, Ne, hsplit']
      rintro ⟨heq, -⟩
      omega
    rw [hnot]
    rfl
  generalize (if split then (r.runs[begin]?.map (subLength stopPos)).toList else []).length = trailing at *
  have hlength : (first :: rest).length = middle.length + 1 := by
    have h := congrArg List.length hlast
    rw [List.length_append] at h
    exact h
  congr 1
  have hfirst : (front ++ (first :: rest ++ (r.runs.drop stop').modify 0 (subLength stopPos))).modify front.length
      (addLength additional) =
        (front ++ middle) ++ last :: (r.runs.drop stop').modify 0 (subLength stopPos) := by
    rw [List.cons_append, modify_length, ← List.cons_append, hlast]
    simp only [List.append_assoc, List.singleton_append]
  have hlastRun : ((front ++ middle) ++ last :: (r.runs.drop stop').modify 0 (subLength stopPos)).modify
      (front.length + ((first :: rest).length + trailing) - 1) (addLength additional') =
        (front ++ middle) ++ addLength additional' last :: (r.runs.drop stop').modify 0 (subLength stopPos) := by
    by_cases hzero : additional' = 0
    · rw [hzero, modify_addLength_zero, addLength_zero]
    · rw [← modify_length (front ++ middle), List.length_append, hindex hzero, hlength]
      rfl
  rw [hfirst, hlastRun, hlast, append_glue front (List.append_ne_nil_of_right_ne_nil _ (List.cons_ne_nil _ _)), hglue,
    List.append_assoc]

/-- **What is left of the runs**, where nothing is inserted. -/
theorem removeUnchecked_runs (hr : r.Sound) (hle : start ≤ stop) (hstop : stop ≤ r.totalLength) :
    ∃ before behind pos before' behind' pos', Cut r.runs start before behind pos ∧ Cut r.runs stop before' behind' pos' ∧
      r.replaceUnchecked start stop [] =
        ⟨glue (keptFront before behind pos) (keptBack behind' pos'), r.totalLength - (stop - start)⟩ := by
  have htotal := hr.total
  obtain ⟨before, behind, pos, hscan, hcut⟩ := @scan_spec _ r.runs start (by omega)
  obtain ⟨between, behind', pos', hscan', hcut'⟩ := @Cut.scan _ _ _ _ _ _ hcut stop hle (by omega)
  refine ⟨before, behind, pos, before ++ between, behind', pos', hcut, hcut', ?_⟩
  have hremove : r.replaceUnchecked start stop [] =
      r.removeUnchecked start stop before.length pos (before ++ between).length pos' := by
    unfold replaceUnchecked
    rw [hscan]
    dsimp only
    rw [hscan']
    rfl
  rw [hremove]
  have hlength : (before ++ between).length = before.length + between.length := List.length_append
  -- Where nothing is joined, the runs are put together as they are.
  have happart (hglue : glue (keptFront before behind pos) (keptBack behind' pos') =
      keptFront before behind pos ++ keptBack behind' pos') (hsame : before.length = (before ++ between).length → pos = 0)
      (hnot : ¬ (start ≠ 0 ∧ stop ≠ r.totalLength ∧
        r.runs[if pos ≠ 0 then before.length else before.length - 1]?.map Run.value =
          r.runs[(before ++ between).length]?.map Run.value)) :
      r.removeUnchecked start stop before.length pos (before ++ between).length pos' =
        ⟨glue (keptFront before behind pos) (keptBack behind' pos'), r.totalLength - (stop - start)⟩ := by
    unfold removeUnchecked
    dsimp only
    rw [decide_eq_false hnot]
    simp only [Bool.false_eq_true, if_false]
    rw [hglue, hcut.removed hcut' hsame]
  by_cases hstart : start = 0
  · subst hstart
    obtain ⟨rfl, rfl⟩ := hcut.at_zero hr.canonical
    refine happart ?_ (fun _ => rfl) fun h => h.1 rfl
    exact nil_glue _
  by_cases hend : stop = r.totalLength
  · have hnone : behind' = [] := by
      rw [hend, htotal] at hcut'
      exact hcut'.at_end.1
    subst hnone
    refine happart (List.append_nil _).symm (fun hsame => ?_) fun h => h.2.1 hend
    have hbetween : between = [] := List.eq_nil_of_length_eq_zero (by omega)
    subst hbetween
    have hparts := hcut.parts.symm.trans hcut'.parts
    rw [List.append_nil, List.append_nil] at hparts
    exact hcut.atEnd (List.append_right_eq_self.mp hparts)
  obtain ⟨front, f, run, hfront, hprevious, hrun, hvalue, hf, htake⟩ := hcut.previous hstart
  obtain ⟨run', rest', rfl⟩ := hcut'.head_of_lt (by omega)
  have hrun' := hcut'.getElem_runs
  have hat : (r.runs[front.length]?.map Run.value = r.runs[(before ++ between).length]?.map Run.value) ↔
      f.value = run'.value := by
    rw [hrun, hrun', ← hvalue]
    exact Option.some_inj
  by_cases heq : f.value = run'.value
  · -- The runs on both sides of the range are joined.
    have hfront' : front.length ≤ (before ++ between).length := by
      rw [hprevious, hlength]
      split <;> omega
    have hin := hcut'.inside run' rfl
    have hprevious' : (r.runs[front.length]?.map Run.length).getD 0 = run.length := by
      rw [hrun]
      rfl
    have hdrop : r.runs.drop (before ++ between).length = run' :: rest' := by
      rw [hcut'.parts, List.drop_left]
    unfold removeUnchecked
    dsimp only
    rw [← hprevious, decide_eq_true ⟨hstart, hend, hat.mpr heq⟩, hprevious', ← hf]
    simp only [if_true, ne_eq, not_true_eq_false, if_false]
    rw [List.take_modify, List.modify_eq_self (by rw [List.length_take]; omega), htake,
      List.drop_modify_of_ge _ _ _ _ le_rfl, hdrop, Nat.sub_self, hfront]
    congr 1
    show front ++ ⟨run'.value, run'.length + f.length - pos'⟩ :: rest' =
      glue (front ++ [f]) (subLength pos' run' :: rest')
    rw [glue_concat, if_pos (show f.value = (subLength pos' run').value from heq)]
    congr 3
    show run'.length + f.length - pos' = f.length + (run'.length - pos')
    omega
  · refine happart ?_ (fun hsame => ?_) fun h => heq (hat.mp ?_)
    · rw [hfront]
      show glue _ (subLength pos' run' :: rest') = _ ++ subLength pos' run' :: rest'
      rw [glue_concat]
      exact if_neg heq
    · by_contra hpos
      rw [if_pos hpos] at hprevious
      rw [← hsame, ← hprevious, hrun] at hrun'
      exact heq (by rw [← hvalue, Option.some.inj hrun'])
    · rw [hprevious]
      exact h.2.2

/-! ### The splice -/

/-- The decoded values with a range replaced, and runs that are canonical and counted. -/
structure Spliced (r : Rle α) (start stop : ℕ) (replacements : List (Run α)) (r' : Rle α) : Prop where
  decoded : expand r'.runs = (expand r.runs).take start ++ expand replacements ++ (expand r.runs).drop stop
  size : r'.totalLength = (expand r'.runs).length
  canonical : Canonical r'.runs

/-- **`_replace_unchecked` is a splice.** -/
theorem replaceUnchecked_spliced (hr : r.Sound) (hle : start ≤ stop) (hstop : stop ≤ r.totalLength)
    {replacements : List (Run α)} (hreplacements : Canonical replacements) :
    Spliced r start stop replacements (r.replaceUnchecked start stop replacements) := by
  have htotal := hr.total
  have hsize (n : ℕ) (hn : n = span replacements) : r.totalLength - (stop - start) + n =
      ((expand r.runs).take start ++ expand replacements ++ (expand r.runs).drop stop).length := by
    rw [List.length_append, List.length_append, List.length_take, List.length_drop, length_expand, length_expand]
    omega
  by_cases hempty : replacements = []
  · subst hempty
    obtain ⟨before, behind, pos, before', behind', pos', hcut, hcut', hruns⟩ := removeUnchecked_runs hr hle hstop
    have hdecoded : expand (glue (keptFront before behind pos) (keptBack behind' pos')) =
        (expand r.runs).take start ++ expand [] ++ (expand r.runs).drop stop := by
      rw [expand_glue, hcut.expand_keptFront, hcut'.expand_keptBack, expand_nil, List.append_nil]
    rw [hruns]
    refine ⟨hdecoded, ?_, (hcut.canonical_keptFront hr.canonical).glue (hcut'.canonical_keptBack hr.canonical)⟩
    rw [hdecoded]
    exact hsize 0 rfl
  · obtain ⟨before, behind, pos, before', behind', pos', hcut, hcut', hruns⟩ :=
      replaceUnchecked_runs hr hle hstop hempty
    have hdecoded : expand (glue (glue (keptFront before behind pos) replacements) (keptBack behind' pos')) =
        (expand r.runs).take start ++ expand replacements ++ (expand r.runs).drop stop := by
      rw [expand_glue, expand_glue, hcut.expand_keptFront, hcut'.expand_keptBack]
    rw [hruns]
    refine ⟨hdecoded, ?_, ?_⟩
    · rw [hdecoded]
      exact hsize _ rfl
    · exact ((hcut.canonical_keptFront hr.canonical).glue hreplacements).glue (hcut'.canonical_keptBack hr.canonical)

/-! ### The width of the lengths -/

/-- The lengths as a `size_type` of some bits holds them. -/
def narrow (bits : ℕ) (r : Rle α) : Rle α where
  runs := r.runs.map fun run => setLength (run.length % 2 ^ bits) run
  totalLength := r.totalLength % 2 ^ bits

/-- `replace` where `size_type` has some bits.  No length is read again once it has been changed, so the sums are
reduced at the end. -/
def replaceSized (bits : ℕ) (r : Rle α) (start stop : ℕ) (replacements : List (Run α)) : Option (Rle α) :=
  (r.replaceRuns start stop replacements).map (narrow bits)

omit [DecidableEq α] in
lemma narrow_of_fits {bits : ℕ} (htotal : r.totalLength = span r.runs) (hfits : r.totalLength < 2 ^ bits) :
    r.narrow bits = r := by
  have hruns : r.runs.map (fun run => setLength (run.length % 2 ^ bits) run) = r.runs := by
    refine (List.map_congr_left fun run hrun => ?_).trans (List.map_id _)
    have hle := length_le_span hrun
    unfold setLength
    rw [Nat.mod_eq_of_lt (by omega)]
    rfl
  unfold narrow
  rw [hruns, Nat.mod_eq_of_lt hfits]

/-- **`replace` is a splice** wherever the new size fits. -/
theorem replaceSized_spliced {bits : ℕ} (hr : r.Sound) (hle : start ≤ min stop r.totalLength)
    {replacements : List (Run α)} (hreplacements : Canonical replacements)
    (hfits : r.totalLength - (min stop r.totalLength - start) + span replacements < 2 ^ bits) :
    ∃ r', r.replaceSized bits start stop replacements = some r' ∧
      Spliced r start (min stop r.totalLength) replacements r' := by
  have hspliced := replaceUnchecked_spliced hr hle (Nat.min_le_right _ _) hreplacements
  refine ⟨_, ?_, hspliced⟩
  have hsize : (r.replaceUnchecked start (min stop r.totalLength) replacements).totalLength =
      span (r.replaceUnchecked start (min stop r.totalLength) replacements).runs := by
    rw [hspliced.size, length_expand]
  have htotal := hr.total
  have hfits' : (r.replaceUnchecked start (min stop r.totalLength) replacements).totalLength < 2 ^ bits := by
    rw [hspliced.size, hspliced.decoded, List.length_append, List.length_append, List.length_take, List.length_drop,
      length_expand, length_expand]
    omega
  unfold replaceSized replaceRuns
  dsimp only
  rw [if_neg (by omega), Option.map_some, narrow_of_fits hsize hfits']

end Join

/-- One more column in front of 65535 others, where lengths have 16 bits. -/
theorem replaceSized_wraps :
    (⟨[⟨false, 65535⟩], 65535⟩ : Rle Bool).Sound ∧ Canonical [⟨true, 1⟩] ∧
      ∃ r', (⟨[⟨false, 65535⟩], 65535⟩ : Rle Bool).replaceSized 16 0 0 [⟨true, 1⟩] = some r' ∧
        r'.totalLength = 0 ∧ r'.totalLength ≠ (expand r'.runs).length := by
  refine ⟨⟨.singleton (by decide), rfl⟩, .singleton (by decide), ⟨[⟨true, 1⟩, ⟨false, 65535⟩], 0⟩, by decide, rfl, ?_⟩
  rw [length_expand]
  decide

/-- `1 1 2 2` with the middle replaced by `1 2`. -/
theorem replaceSized_spliced_middle :
    ∃ r', (⟨[⟨1, 2⟩, ⟨2, 2⟩], 4⟩ : Rle ℕ).replaceSized 16 1 3 [⟨1, 1⟩, ⟨2, 1⟩] = some r' ∧
      Spliced ⟨[⟨1, 2⟩, ⟨2, 2⟩], 4⟩ 1 (min 3 4) [⟨1, 1⟩, ⟨2, 1⟩] r' :=
  replaceSized_spliced (r := ⟨[⟨1, 2⟩, ⟨2, 2⟩], 4⟩) ⟨⟨by decide, by decide⟩, rfl⟩ (by decide) ⟨by decide, by decide⟩
    (by decide)

end VT7.Buffer.Rle
