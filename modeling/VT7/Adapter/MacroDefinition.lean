import Mathlib.Algebra.Order.BigOperators.Group.Finset
import VT7.Adapter.MacroText

/-!
# One macro definition

The space of the macros, and what the characters of a hex definition do to the active macro: it holds what its
text denotes, or it is empty (`outcome_settled`).
-/

namespace VT7.Adapter

open MacroBuffer

/-- The space in use is the length of the macros, and there is no more than `MAX_SPACE` of it. -/
structure MacroBuffer.Accounted (b : MacroBuffer) : Prop where
  spaceUsed : b.spaceUsed = ∑ id, (b.macros id).length
  bounded : b.spaceUsed ≤ maxSpace
  sequence : b.invokedSequenceLength ≤ maxSpace

/-- Nothing but the active macro differs. -/
structure OthersKept (b b' : MacroBuffer) : Prop where
  activeMacroId : b'.activeMacroId = b.activeMacroId
  macros : ∀ id ≠ b.activeMacroId, b'.macros id = b.macros id
  sequence : b'.invokedSequenceLength = b.invokedSequenceLength

variable {b b' b'' : MacroBuffer}

lemma OthersKept.refl (b : MacroBuffer) : OthersKept b b := ⟨rfl, fun _ _ => rfl, rfl⟩

lemma OthersKept.trans (h : OthersKept b b') (h' : OthersKept b' b'') : OthersKept b b'' where
  activeMacroId := h'.activeMacroId.trans h.activeMacroId
  macros id hid := (h'.macros id (h.activeMacroId ▸ hid)).trans (h.macros id hid)
  sequence := h'.sequence.trans h.sequence

lemma sizeSub_of_le {m n : ℕ} (h : n ≤ m) (hm : m < 2 ^ 64) : sizeSub m n = m - n := by
  unfold sizeSub
  omega

lemma maxSpace_lt : maxSpace < 2 ^ 64 := by decide

/-! ### The space -/

lemma sum_update_length (macros : Fin 64 → List UInt16) (id : Fin 64) (text : List UInt16) :
    (∑ i, (Function.update macros id text i).length) + (macros id).length =
      (∑ i, (macros i).length) + text.length := by
  have hupdate : (fun i => (Function.update macros id text i).length) =
      Function.update (fun i => (macros i).length) id text.length := by
    funext i
    by_cases hi : i = id
    · rw [hi, Function.update_self, Function.update_self]
    · rw [Function.update_of_ne hi, Function.update_of_ne hi]
  rw [hupdate, Finset.sum_update_of_mem (Finset.mem_univ id)]
  have hsplit := Finset.add_sum_erase Finset.univ (fun i => (macros i).length) (Finset.mem_univ id)
  rw [Finset.erase_eq] at hsplit
  omega

namespace MacroBuffer.Accounted

variable (hb : b.Accounted)

include hb

lemma length_le (id : Fin 64) : (b.macros id).length ≤ b.spaceUsed := by
  rw [hb.spaceUsed]
  exact Finset.single_le_sum (f := fun i => (b.macros i).length) (fun _ _ => Nat.zero_le _) (Finset.mem_univ id)

lemma getSpaceAvailable : b.getSpaceAvailable = maxSpace - b.spaceUsed :=
  sizeSub_of_le hb.bounded maxSpace_lt

lemma deleteMacro (id : Fin 64) : (b.deleteMacro id).Accounted := by
  have hle := hb.length_le id
  have hbound := hb.bounded
  have hsum := sum_update_length b.macros id []
  have hspace : sizeSub b.spaceUsed (b.macros id).length = b.spaceUsed - (b.macros id).length :=
    sizeSub_of_le hle (lt_of_le_of_lt hbound maxSpace_lt)
  have hused := hb.spaceUsed
  rw [List.length_nil] at hsum
  refine ⟨?_, ?_, hb.sequence⟩
  · show sizeSub _ _ = _
    rw [hspace]
    unfold MacroBuffer.deleteMacro
    dsimp only
    omega
  · show sizeSub _ _ ≤ _
    rw [hspace]
    omega

/-- A longer active macro, with the space it takes counted. -/
lemma setActiveMacro (text : List UInt16) (space : ℕ) (hspace : space + b.activeMacro.length = b.spaceUsed + text.length)
    (hbound : space ≤ maxSpace) : ({ b.setActiveMacro text with spaceUsed := space } : MacroBuffer).Accounted := by
  refine ⟨?_, hbound, hb.sequence⟩
  have hsum := sum_update_length b.macros b.activeMacroId text
  have hused := hb.spaceUsed
  unfold activeMacro at hspace
  unfold MacroBuffer.setActiveMacro
  dsimp only
  omega

end MacroBuffer.Accounted

lemma setActiveMacro_others (b : MacroBuffer) (text : List UInt16) : OthersKept b (b.setActiveMacro text) :=
  ⟨rfl, fun _ hid => Function.update_of_ne hid _ _, rfl⟩

@[simp] lemma activeMacro_setActiveMacro (b : MacroBuffer) (text : List UInt16) :
    (b.setActiveMacro text).activeMacro = text := Function.update_self _ _ _

lemma deleteMacro_others (b : MacroBuffer) : OthersKept b (b.deleteMacro b.activeMacroId) :=
  ⟨rfl, fun _ hid => Function.update_of_ne hid _ _, rfl⟩

lemma activeMacro_deleteMacro (b : MacroBuffer) : (b.deleteMacro b.activeMacroId).activeMacro = [] :=
  Function.update_self _ _ _

/-! ### The operations of a definition -/

lemma decodeHexDigit_eq (b : MacroBuffer) (ch : UInt16) :
    b.decodeHexDigit ch = match hexDigit ch with
      | some value => ({ b with decodedChar := hexPair b.decodedChar value }, true)
      | none => ({ b with decodedChar := b.decodedChar <<< 4 }, false) := by
  unfold MacroBuffer.decodeHexDigit hexDigit
  dsimp only
  split_ifs <;> rfl

/-- One more copy does not move the sequence that is copied. -/
lemma appendCopies_eq {sequence : List UInt16} {sequenceLength : ℕ} (copies : ℕ) (b : MacroBuffer)
    (hlength : b.repeatStart + sequenceLength ≤ b.activeMacro.length)
    (hsequence : (b.activeMacro.drop b.repeatStart).take sequenceLength = sequence) :
    appendCopies sequenceLength copies b =
      { b.setActiveMacro (b.activeMacro ++ (List.replicate copies sequence).flatten) with
        spaceUsed := b.spaceUsed + copies * sequenceLength } := by
  induction copies generalizing b with
  | zero =>
    rw [appendCopies, List.replicate_zero, List.flatten_nil, List.append_nil, Nat.zero_mul, Nat.add_zero]
    unfold setActiveMacro activeMacro
    rw [Function.update_eq_self]
  | succ copies ih =>
    have hstored : (({ b.setActiveMacro (b.activeMacro ++ (b.activeMacro.drop b.repeatStart).take sequenceLength) with
        spaceUsed := b.spaceUsed + sequenceLength } : MacroBuffer)).activeMacro = b.activeMacro ++ sequence := by
      rw [hsequence]
      exact Function.update_self _ _ _
    rw [appendCopies, ih _ (by rw [hstored, List.length_append]; exact hlength.trans (Nat.le_add_right _ _)) ?_]
    · rw [hstored]
      unfold setActiveMacro
      dsimp only
      rw [Function.update_idem, List.replicate_succ, List.flatten_cons, List.append_assoc, Nat.succ_mul]
      congr 1
      omega
    · rw [hstored]
      show ((b.activeMacro ++ sequence).drop b.repeatStart).take sequenceLength = sequence
      rw [List.drop_append_of_le_length (by omega), List.take_append_of_le_length (by rw [List.length_drop]; omega)]
      exact hsequence

/-- What the buffer holds once a group is repeated. -/
def MacroBuffer.afterRepeat (b : MacroBuffer) : MacroBuffer :=
  { b.setActiveMacro (b.activeMacro ++ (List.replicate (b.repeatCount - 1) (b.activeMacro.drop b.repeatStart)).flatten) with
    spaceUsed := b.spaceUsed + (b.repeatCount - 1) * (b.activeMacro.length - b.repeatStart)
    repeatPending := false }

lemma applyPendingRepeat_eq (hb : b.Accounted) (hstart : b.repeatStart ≤ b.activeMacro.length) :
    b.applyPendingRepeat =
      if (b.repeatCount - 1) * (b.activeMacro.length - b.repeatStart) ≤ maxSpace - b.spaceUsed then
        (b.afterRepeat, true)
      else (b, false) := by
  have hlength : b.activeMacro.length < 2 ^ 64 :=
    lt_of_le_of_lt ((hb.length_le b.activeMacroId).trans hb.bounded) maxSpace_lt
  unfold applyPendingRepeat
  rw [sizeSub_of_le hstart hlength, hb.getSpaceAvailable]
  dsimp only
  by_cases hmany : 1 < b.repeatCount
  · rw [if_pos hmany]
    by_cases hfits : (b.repeatCount - 1) * (b.activeMacro.length - b.repeatStart) ≤ maxSpace - b.spaceUsed
    · have hsequence : (b.activeMacro.drop b.repeatStart).take (b.activeMacro.length - b.repeatStart) =
          b.activeMacro.drop b.repeatStart := by
        rw [← List.length_drop, List.take_length]
      rw [if_pos hfits, if_neg (Nat.not_lt.mpr hfits), appendCopies_eq _ _ (by omega) hsequence]
      rfl
    · rw [if_neg hfits, if_pos (Nat.lt_of_not_le hfits)]
  · have hnone : b.repeatCount - 1 = 0 := by omega
    rw [if_neg hmany, hnone, Nat.zero_mul, if_pos (Nat.zero_le _)]
    unfold MacroBuffer.afterRepeat setActiveMacro activeMacro
    rw [hnone, List.replicate_zero, List.flatten_nil, List.append_nil, Function.update_eq_self, Nat.zero_mul,
      Nat.add_zero]

lemma activeMacro_afterRepeat (b : MacroBuffer) : b.afterRepeat.activeMacro =
    b.activeMacro ++ (List.replicate (b.repeatCount - 1) (b.activeMacro.drop b.repeatStart)).flatten :=
  Function.update_self _ _ _

lemma afterRepeat_others (b : MacroBuffer) : OthersKept b b.afterRepeat :=
  ⟨rfl, fun _ hid => Function.update_of_ne hid _ _, rfl⟩

lemma MacroBuffer.Accounted.afterRepeat (hb : b.Accounted)
    (hspace : (b.repeatCount - 1) * (b.activeMacro.length - b.repeatStart) ≤ maxSpace - b.spaceUsed) :
    b.afterRepeat.Accounted := by
  have hbound := hb.bounded
  have hset := hb.setActiveMacro
    (b.activeMacro ++ (List.replicate (b.repeatCount - 1) (b.activeMacro.drop b.repeatStart)).flatten)
    (b.spaceUsed + (b.repeatCount - 1) * (b.activeMacro.length - b.repeatStart)) ?_ (by omega)
  · exact ⟨hset.spaceUsed, hset.bounded, hset.sequence⟩
  · rw [List.length_append, List.length_flatten, List.map_replicate, List.sum_replicate, List.length_drop,
      smul_eq_mul]
    omega

/-! ### One character of a hex definition -/

/-- The buffer is at a part of a hex definition, behind what is already written for good. -/
def Part.At (b : MacroBuffer) (written : List UInt16) : Part → Prop
  | .outside =>
    b.parseState = .expectingHexDigit ∧ b.repeatPending = false ∧ b.decodedChar = 0 ∧ b.activeMacro = written
  | .second high =>
    b.parseState = .expectingSecondHexDigit ∧ b.repeatPending = false ∧ b.decodedChar = high ∧
      b.activeMacro = written
  | .header count =>
    b.parseState = .expectingRepeatCount ∧ b.repeatPending = false ∧ b.decodedChar = 0 ∧
      b.activeMacro = written ∧ b.repeatCount = count ∧ count ≤ maxParameterValue
  | .inside count sequence =>
    b.parseState = .expectingHexDigit ∧ b.repeatPending = true ∧ b.decodedChar = 0 ∧
      b.activeMacro = written ++ sequence ∧ b.repeatStart = written.length ∧ b.repeatCount = count ∧
      count ≤ maxParameterValue
  | .insideSecond count sequence high =>
    b.parseState = .expectingSecondHexDigit ∧ b.repeatPending = true ∧ b.decodedChar = high ∧
      b.activeMacro = written ++ sequence ∧ b.repeatStart = written.length ∧ b.repeatCount = count ∧
      count ≤ maxParameterValue

/-- The space of the macros that are not active. -/
def MacroBuffer.otherSpace (b : MacroBuffer) : ℕ := b.spaceUsed - b.activeMacro.length

/-- What becomes of the macro: `expected`, unless there is no such text or no space for it. -/
structure Settled (b : MacroBuffer) (expected : Option (List UInt16)) (result : MacroBuffer × Bool) : Prop where
  accounted : result.1.Accounted
  others : OthersKept b result.1
  accepted : result.2 = true → expected = some result.1.activeMacro
  rejected : result.2 = false → result.1.activeMacro = [] ∧
    ∀ text, expected = some text → maxSpace < b.otherSpace + text.length

lemma hexPair_zero (value : UInt16) : hexPair 0 value = value := by
  unfold hexPair
  simp

lemma zero_shiftLeft_four : (0 : UInt16) <<< 4 = 0 := by decide

lemma OthersKept.otherSpace (h : OthersKept b b') (hb : b.Accounted) (hb' : b'.Accounted) :
    b'.otherSpace = b.otherSpace := by
  have hsum (c : MacroBuffer) (hc : c.Accounted) (id : Fin 64) :
      c.spaceUsed - (c.macros id).length = ∑ i ∈ Finset.univ.erase id, (c.macros i).length := by
    have hsplit := Finset.add_sum_erase Finset.univ (fun i => (c.macros i).length) (Finset.mem_univ id)
    have hused := hc.spaceUsed
    omega
  unfold MacroBuffer.otherSpace activeMacro
  rw [hsum b hb, hsum b' hb', h.activeMacroId]
  refine Finset.sum_congr rfl fun i hi => ?_
  rw [h.macros i (Finset.ne_of_mem_erase hi)]

lemma otherSpace_add (hb : b.Accounted) : b.otherSpace + b.activeMacro.length = b.spaceUsed :=
  Nat.sub_add_cancel (hb.length_le _)

lemma rejected_settled (hb' : b'.Accounted) (hothers : OthersKept b b')
    {expected : Option (List UInt16)}
    (hexpected : ∀ text, expected = some text → maxSpace < b.otherSpace + text.length) :
    Settled b expected (b'.deleteMacro b'.activeMacroId, false) where
  accounted := hb'.deleteMacro _
  others := hothers.trans (deleteMacro_others b')
  accepted h := nomatch h
  rejected _ := ⟨activeMacro_deleteMacro b', hexpected⟩

lemma repeated_eq {count : ℕ} (hcount : count ≤ maxParameterValue) (sequence : List UInt16) :
    repeated count sequence = sequence ++ (List.replicate (count - 1) sequence).flatten := by
  obtain ⟨more, hmore⟩ : ∃ more, max 1 (min count maxParameterValue) = more + 1 :=
    ⟨max 1 (min count maxParameterValue) - 1, by omega⟩
  obtain rfl : more = count - 1 := by omega
  rw [repeated, hmore, List.replicate_succ, List.flatten_cons]

/-- A group is repeated, or there is no space for it. -/
lemma repeat_spec (hb : b.Accounted) {written sequence : List UInt16} (hstored : b.activeMacro = written ++ sequence)
    (hstart : b.repeatStart = written.length) (hcount : b.repeatCount ≤ maxParameterValue) :
    (b.applyPendingRepeat = (b.afterRepeat, true) ∧ b.afterRepeat.Accounted ∧
        b.afterRepeat.activeMacro = written ++ repeated b.repeatCount sequence) ∨
      b.applyPendingRepeat = (b, false) ∧
        maxSpace < b.otherSpace + (written ++ repeated b.repeatCount sequence).length := by
  have hlength := congrArg List.length hstored
  rw [List.length_append] at hlength
  have hle : b.repeatStart ≤ b.activeMacro.length := by omega
  have hdrop : b.activeMacro.drop b.repeatStart = sequence := by
    rw [hstored, hstart, List.drop_left]
  rw [applyPendingRepeat_eq hb hle]
  by_cases hspace : (b.repeatCount - 1) * (b.activeMacro.length - b.repeatStart) ≤ maxSpace - b.spaceUsed
  · left
    refine ⟨if_pos hspace, hb.afterRepeat hspace, ?_⟩
    rw [activeMacro_afterRepeat, hdrop, hstored, repeated_eq hcount, List.append_assoc]
  · right
    refine ⟨if_neg hspace, ?_⟩
    have hused := otherSpace_add hb
    have hsequence : b.activeMacro.length - b.repeatStart = sequence.length := by omega
    rw [hsequence] at hspace
    rw [repeated_eq hcount]
    simp only [List.length_append, List.length_flatten, List.map_replicate, List.sum_replicate, smul_eq_mul]
    omega

/-- The character joins the macro, or there is no space for it. -/
lemma append_spec (hb : b.Accounted) (ch : UInt16) :
    (∃ b', b.appendToActiveMacro ch = (b', true) ∧ b'.Accounted ∧ OthersKept b b' ∧
        b' = { b.setActiveMacro (b.activeMacro ++ [ch]) with spaceUsed := b.spaceUsed + 1 }) ∨
      b.appendToActiveMacro ch = (b, false) ∧ b.otherSpace + b.activeMacro.length = maxSpace := by
  have hbound := hb.bounded
  unfold appendToActiveMacro
  rw [hb.getSpaceAvailable]
  by_cases hspace : 0 < maxSpace - b.spaceUsed
  · left
    rw [if_pos hspace]
    refine ⟨_, rfl, hb.setActiveMacro _ _ ?_ (by omega), ?_, rfl⟩
    · rw [List.length_append, List.length_singleton]
      omega
    · have hothers := setActiveMacro_others b (b.activeMacro ++ [ch])
      exact ⟨hothers.activeMacroId, hothers.macros, hothers.sequence⟩
  · right
    rw [if_neg hspace, otherSpace_add hb]
    exact ⟨rfl, by omega⟩

/-- A character that is no control character. -/
def IsPrintable (ch : UInt16) : Prop := ¬ ch < 32

instance (ch : UInt16) : Decidable (IsPrintable ch) := inferInstanceAs (Decidable (¬ _))

lemma parseDefinition_printable {ch : UInt16} (hesc : ch ≠ esc) (hprintable : IsPrintable ch) (b : MacroBuffer) :
    b.parseDefinition ch =
      (if (b.parseCharacter ch).2 then (b.parseCharacter ch).1
        else (b.parseCharacter ch).1.deleteMacro (b.parseCharacter ch).1.activeMacroId, (b.parseCharacter ch).2) := by
  unfold parseDefinition
  rw [if_neg hesc, if_neg hprintable]

/-- A character goes on with the definition, or it ends it with an error. -/
def Steps (b : MacroBuffer) (written : List UInt16) (part : Part) (ch : UInt16) : Prop :=
  (∃ b' written' part', b.parseCharacter ch = (b', true) ∧ b'.Accounted ∧ OthersKept b b' ∧
      Part.At b' written' part' ∧
      ∀ rest, (expand part (ch :: rest)).map (written ++ ·) = (expand part' rest).map (written' ++ ·)) ∨
    ∃ b', b.parseCharacter ch = (b', false) ∧ b'.Accounted ∧ OthersKept b b' ∧
      ∀ rest text, (expand part (ch :: rest)).map (written ++ ·) = some text →
        maxSpace < b.otherSpace + text.length

lemma parseCharacter_hexDigit (hstate : b.parseState = .expectingHexDigit) (ch : UInt16) :
    b.parseCharacter ch = match hexDigit ch with
      | some value =>
        ({ b with parseState := .expectingSecondHexDigit, decodedChar := hexPair b.decodedChar value }, true)
      | none =>
        if ch = 33 ∧ ¬ b.repeatPending then
          ({ b with parseState := .expectingRepeatCount, decodedChar := b.decodedChar <<< 4, repeatCount := 0 }, true)
        else if ch = 59 ∧ b.repeatPending then { b with decodedChar := b.decodedChar <<< 4 }.applyPendingRepeat
        else ({ b with decodedChar := b.decodedChar <<< 4 }, false) := by
  unfold parseCharacter
  split
  · next h => cases hstate.symm.trans h
  · rw [decodeHexDigit_eq]
    cases hexDigit ch with
    | some value => rfl
    | none =>
      dsimp only
      rw [if_neg Bool.false_ne_true]
  · next h => cases hstate.symm.trans h
  · next h => cases hstate.symm.trans h

lemma parseCharacter_secondHexDigit (hstate : b.parseState = .expectingSecondHexDigit) (ch : UInt16) :
    b.parseCharacter ch = match hexDigit ch with
      | some value =>
        let next := { b with decodedChar := hexPair b.decodedChar value }.appendToActiveMacro (hexPair b.decodedChar value)
        ({ next.1 with decodedChar := 0, parseState := .expectingHexDigit }, next.2)
      | none => ({ b with decodedChar := 0, parseState := .expectingHexDigit }, false) := by
  unfold parseCharacter
  split
  · next h => cases hstate.symm.trans h
  · next h => cases hstate.symm.trans h
  · rw [decodeHexDigit_eq]
    cases hexDigit ch with
    | some value =>
      dsimp only
      rw [if_pos rfl]
    | none => rfl
  · next h => cases hstate.symm.trans h

lemma parseCharacter_repeatCount (hstate : b.parseState = .expectingRepeatCount) (ch : UInt16) :
    b.parseCharacter ch =
      if IsDecimal ch then
        ({ b with repeatCount := min (b.repeatCount * 10 + (ch - 48).toNat) maxParameterValue }, true)
      else if ch = 59 then
        ({ b with
            repeatPending := true
            repeatStart := b.activeMacro.length
            parseState := .expectingHexDigit }, true)
      else (b, false) := by
  unfold parseCharacter
  split
  · next h => cases hstate.symm.trans h
  · next h => cases hstate.symm.trans h
  · next h => cases hstate.symm.trans h
  · rfl

section Steps

variable {written : List UInt16} {ch : UInt16} (hb : b.Accounted)

include hb

lemma steps_outside (h : Part.At b written .outside) : Steps b written .outside ch := by
  obtain ⟨hstate, hpending, hdecoded, hstored⟩ := h
  unfold Steps
  rw [parseCharacter_hexDigit hstate, hdecoded]
  cases hdigit : hexDigit ch with
  | some high =>
    left
    refine ⟨_, written, .second high, rfl, ⟨hb.spaceUsed, hb.bounded, hb.sequence⟩, ⟨rfl, fun _ _ => rfl, rfl⟩,
      ⟨rfl, hpending, hexPair_zero high, hstored⟩, fun rest => ?_⟩
    rw [expand_outside, hdigit]
  | none =>
    dsimp only
    rw [zero_shiftLeft_four]
    by_cases hbang : ch = 33
    · left
      rw [if_pos ⟨hbang, by rw [hpending]; decide⟩]
      refine ⟨_, written, .header 0, rfl, ⟨hb.spaceUsed, hb.bounded, hb.sequence⟩, ⟨rfl, fun _ _ => rfl, rfl⟩,
        ⟨rfl, hpending, rfl, hstored, rfl, Nat.zero_le _⟩, fun rest => ?_⟩
      rw [expand_outside, hdigit]
      dsimp only
      rw [if_pos hbang]
    · right
      rw [if_neg (not_and_of_not_left _ hbang), if_neg (by rw [hpending]; simp)]
      refine ⟨_, rfl, ⟨hb.spaceUsed, hb.bounded, hb.sequence⟩, ⟨rfl, fun _ _ => rfl, rfl⟩,
        fun rest text htext => ?_⟩
      rw [expand_outside, hdigit] at htext
      dsimp only at htext
      rw [if_neg hbang] at htext
      cases htext

lemma steps_second {high : UInt16} (h : Part.At b written (.second high)) : Steps b written (.second high) ch := by
  obtain ⟨hstate, hpending, hdecoded, hstored⟩ := h
  unfold Steps
  rw [parseCharacter_secondHexDigit hstate, hdecoded]
  cases hdigit : hexDigit ch with
  | some low =>
    have hready : ({ b with decodedChar := hexPair high low } : MacroBuffer).Accounted :=
      ⟨hb.spaceUsed, hb.bounded, hb.sequence⟩
    rcases append_spec hready (hexPair high low) with ⟨b', happend, hb', hothers, hsame⟩ | ⟨happend, hfull⟩
    · left
      refine ⟨{ b' with decodedChar := 0, parseState := .expectingHexDigit }, written ++ [hexPair high low],
        .outside, by dsimp only; rw [happend],
        ⟨hb'.spaceUsed, hb'.bounded, hb'.sequence⟩, ⟨hothers.activeMacroId, hothers.macros, hothers.sequence⟩,
        ⟨rfl, ?_, rfl, ?_⟩, fun rest => ?_⟩
      · rw [hsame]
        exact hpending
      · rw [hsame, ← hstored]
        exact Function.update_self _ _ _
      · rw [expand_second, hdigit]
        dsimp only
        rw [Option.map_map]
        congr 1
        funext out
        exact List.append_cons _ _ _
    · right
      refine ⟨{ b with decodedChar := 0, parseState := .expectingHexDigit }, by dsimp only; rw [happend],
        ⟨hb.spaceUsed, hb.bounded, hb.sequence⟩, ⟨rfl, fun _ _ => rfl, rfl⟩,
        fun rest text htext => ?_⟩
      rw [expand_second, hdigit] at htext
      dsimp only at htext
      rw [Option.map_map] at htext
      obtain ⟨out, -, rfl⟩ := Option.map_eq_some_iff.mp htext
      have hfull' : b.otherSpace + b.activeMacro.length = maxSpace := hfull
      rw [hstored] at hfull'
      simp only [Function.comp_apply, List.length_append, List.length_cons]
      omega
  | none =>
    right
    refine ⟨_, rfl, ⟨hb.spaceUsed, hb.bounded, hb.sequence⟩, ⟨rfl, fun _ _ => rfl, rfl⟩, fun rest text htext => ?_⟩
    rw [expand_second, hdigit] at htext
    cases htext

lemma steps_header {count : ℕ} (h : Part.At b written (.header count)) : Steps b written (.header count) ch := by
  obtain ⟨hstate, hpending, hdecoded, hstored, hcount, hcap⟩ := h
  unfold Steps
  rw [parseCharacter_repeatCount hstate]
  by_cases hdecimal : IsDecimal ch
  · left
    rw [if_pos hdecimal]
    refine ⟨_, written, .header (min (count * 10 + (ch - 48).toNat) maxParameterValue), rfl,
      ⟨hb.spaceUsed, hb.bounded, hb.sequence⟩, ⟨rfl, fun _ _ => rfl, rfl⟩,
      ⟨hstate, hpending, hdecoded, hstored, by rw [hcount], Nat.min_le_right _ _⟩, fun rest => ?_⟩
    rw [expand_header_cons, if_pos hdecimal]
  · rw [if_neg hdecimal]
    by_cases hsemicolon : ch = 59
    · left
      rw [if_pos hsemicolon]
      refine ⟨_, written, .inside count [], rfl, ⟨hb.spaceUsed, hb.bounded, hb.sequence⟩,
        ⟨rfl, fun _ _ => rfl, rfl⟩,
        ⟨rfl, rfl, hdecoded, by rw [List.append_nil]; exact hstored, congrArg _ hstored, hcount, hcap⟩,
        fun rest => ?_⟩
      rw [expand_header_cons, if_neg hdecimal, if_pos hsemicolon]
    · right
      rw [if_neg hsemicolon]
      refine ⟨b, rfl, hb, .refl b, fun rest text htext => ?_⟩
      rw [expand_header_cons, if_neg hdecimal, if_neg hsemicolon] at htext
      cases htext

lemma steps_inside {count : ℕ} {sequence : List UInt16} (h : Part.At b written (.inside count sequence)) :
    Steps b written (.inside count sequence) ch := by
  obtain ⟨hstate, hpending, hdecoded, hstored, hstart, hcount, hcap⟩ := h
  unfold Steps
  rw [parseCharacter_hexDigit hstate, hdecoded]
  cases hdigit : hexDigit ch with
  | some high =>
    left
    refine ⟨_, written, .insideSecond count sequence high, rfl, ⟨hb.spaceUsed, hb.bounded, hb.sequence⟩,
      ⟨rfl, fun _ _ => rfl, rfl⟩, ⟨rfl, hpending, hexPair_zero high, hstored, hstart, hcount, hcap⟩, fun rest => ?_⟩
    rw [expand_inside_cons, hdigit]
  | none =>
    dsimp only
    rw [zero_shiftLeft_four, if_neg (by rw [hpending]; simp)]
    have hexpand (rest : List UInt16) : expand (.inside count sequence) (ch :: rest) =
        if ch = 59 then (expand .outside rest).map (repeated count sequence ++ ·) else none := by
      rw [expand_inside_cons, hdigit]
    by_cases hsemicolon : ch = 59
    · rw [if_pos ⟨hsemicolon, hpending⟩]
      have hready : ({ b with decodedChar := 0 } : MacroBuffer).Accounted :=
        ⟨hb.spaceUsed, hb.bounded, hb.sequence⟩
      rcases repeat_spec hready hstored hstart (hcount ▸ hcap) with ⟨hrepeat, hb', hstored'⟩ | ⟨hrepeat, hfull⟩
      · left
        have hothers := afterRepeat_others { b with decodedChar := 0 }
        refine ⟨_, written ++ repeated count sequence, .outside, hrepeat, hb',
          ⟨hothers.activeMacroId, hothers.macros, hothers.sequence⟩,
          ⟨hstate, rfl, rfl, hcount ▸ hstored'⟩, fun rest => ?_⟩
        rw [hexpand, if_pos hsemicolon, Option.map_map]
        congr 1
        funext out
        exact (List.append_assoc _ _ _).symm
      · right
        refine ⟨_, hrepeat, hready, ⟨rfl, fun _ _ => rfl, rfl⟩, fun rest text htext => ?_⟩
        rw [hexpand, if_pos hsemicolon, Option.map_map] at htext
        obtain ⟨out, -, rfl⟩ := Option.map_eq_some_iff.mp htext
        have hfull' : maxSpace < b.otherSpace + (written ++ repeated b.repeatCount sequence).length := hfull
        rw [hcount] at hfull'
        simp only [Function.comp_apply, List.length_append] at hfull' ⊢
        omega
    · right
      rw [if_neg (not_and_of_not_left _ hsemicolon)]
      refine ⟨_, rfl, ⟨hb.spaceUsed, hb.bounded, hb.sequence⟩, ⟨rfl, fun _ _ => rfl, rfl⟩,
        fun rest text htext => ?_⟩
      rw [hexpand, if_neg hsemicolon] at htext
      cases htext

lemma steps_insideSecond {count : ℕ} {sequence : List UInt16} {high : UInt16}
    (h : Part.At b written (.insideSecond count sequence high)) :
    Steps b written (.insideSecond count sequence high) ch := by
  obtain ⟨hstate, hpending, hdecoded, hstored, hstart, hcount, hcap⟩ := h
  unfold Steps
  rw [parseCharacter_secondHexDigit hstate, hdecoded]
  cases hdigit : hexDigit ch with
  | some low =>
    have hready : ({ b with decodedChar := hexPair high low } : MacroBuffer).Accounted :=
      ⟨hb.spaceUsed, hb.bounded, hb.sequence⟩
    have hexpand (rest : List UInt16) : expand (.insideSecond count sequence high) (ch :: rest) =
        expand (.inside count (sequence ++ [hexPair high low])) rest := by
      rw [expand_insideSecond, hdigit]
    rcases append_spec hready (hexPair high low) with ⟨b', happend, hb', hothers, hsame⟩ | ⟨happend, hfull⟩
    · left
      refine ⟨{ b' with decodedChar := 0, parseState := .expectingHexDigit }, written,
        .inside count (sequence ++ [hexPair high low]), by dsimp only; rw [happend],
        ⟨hb'.spaceUsed, hb'.bounded, hb'.sequence⟩, ⟨hothers.activeMacroId, hothers.macros, hothers.sequence⟩,
        ⟨rfl, ?_, rfl, ?_, ?_, ?_, hcap⟩, fun rest => by rw [hexpand]⟩
      · rw [hsame]
        exact hpending
      · rw [hsame, ← List.append_assoc, ← hstored]
        exact Function.update_self _ _ _
      · rw [hsame]
        exact hstart
      · rw [hsame]
        exact hcount
    · right
      refine ⟨{ b with decodedChar := 0, parseState := .expectingHexDigit }, by dsimp only; rw [happend],
        ⟨hb.spaceUsed, hb.bounded, hb.sequence⟩, ⟨rfl, fun _ _ => rfl, rfl⟩, fun rest text htext => ?_⟩
      rw [hexpand] at htext
      obtain ⟨out, hout, rfl⟩ := Option.map_eq_some_iff.mp htext
      have hlength := length_le_of_expand_inside.1 hout
      have hfull' : b.otherSpace + b.activeMacro.length = maxSpace := hfull
      rw [hstored] at hfull'
      simp only [List.length_append, List.length_singleton] at hfull' hlength ⊢
      omega
  | none =>
    right
    refine ⟨_, rfl, ⟨hb.spaceUsed, hb.bounded, hb.sequence⟩, ⟨rfl, fun _ _ => rfl, rfl⟩, fun rest text htext => ?_⟩
    rw [expand_insideSecond, hdigit] at htext
    cases htext

theorem steps {part : Part} (h : Part.At b written part) : Steps b written part ch := by
  cases part with
  | outside => exact steps_outside hb h
  | second high => exact steps_second hb h
  | header count => exact steps_header hb h
  | inside count sequence => exact steps_inside hb h
  | insideSecond count sequence high => exact steps_insideSecond hb h

end Steps

/-! ### A whole definition -/

/-- The end of a definition.  The second result tells whether the definition is accepted. -/
def MacroBuffer.finish (b : MacroBuffer) : MacroBuffer × Bool :=
  if b.repeatPending then
    let (b, applied) := b.applyPendingRepeat
    (if applied then b else b.deleteMacro b.activeMacroId, applied)
  else (b, true)

/-- A definition's characters and the ESC behind them.  The second result tells whether the definition is
accepted. -/
def MacroBuffer.outcome : List UInt16 → MacroBuffer → MacroBuffer × Bool
  | [], b => b.finish
  | ch :: rest, b =>
    let (b, more) := b.parseDefinition ch
    if more then outcome rest b else (b, false)

lemma parseDefinition_esc (b : MacroBuffer) : b.parseDefinition esc = (b.finish.1, false) := by
  unfold parseDefinition finish
  rw [if_pos rfl]
  split <;> rfl

/-- What `ParseDefinition` leaves behind a definition and its ESC. -/
lemma parseAll_esc (text : List UInt16) (b : MacroBuffer) :
    parseAll (text ++ [esc]) b = ((outcome text b).1, false) := by
  induction text generalizing b with
  | nil =>
    rw [List.nil_append, parseAll, parseDefinition_esc]
    rfl
  | cons ch rest ih =>
    rw [List.cons_append, parseAll, outcome]
    dsimp only
    split
    · exact ih _
    · rfl

lemma finish_settled (hb : b.Accounted) {written : List UInt16} {part : Part} (h : Part.At b written part) :
    Settled b ((expand part []).map (written ++ ·)) b.finish := by
  have hplain (hpending : b.repeatPending = false) (hstored : b.activeMacro = written) :
      Settled b (some (written ++ [])) b.finish := by
    unfold finish
    rw [hpending, if_neg Bool.false_ne_true, List.append_nil]
    exact ⟨hb, .refl b, fun _ => congrArg some hstored.symm, fun h => nomatch h⟩
  have hgroup {count : ℕ} {sequence : List UInt16} (hpending : b.repeatPending = true)
      (hstored : b.activeMacro = written ++ sequence) (hstart : b.repeatStart = written.length)
      (hcount : b.repeatCount = count) (hcap : count ≤ maxParameterValue) :
      Settled b (some (written ++ repeated count sequence)) b.finish := by
    unfold finish
    rw [hpending, if_pos rfl]
    rcases repeat_spec hb hstored hstart (hcount ▸ hcap) with ⟨hrepeat, hb', hstored'⟩ | ⟨hrepeat, hfull⟩
    · rw [hrepeat]
      exact ⟨hb', afterRepeat_others b, fun _ => congrArg some (hcount ▸ hstored'.symm), fun h => nomatch h⟩
    · rw [hrepeat]
      refine rejected_settled hb (.refl b) fun text htext => ?_
      cases htext
      exact hcount ▸ hfull
  cases part with
  | outside | second => exact hplain h.2.1 h.2.2.2
  | header count => exact hplain h.2.1 h.2.2.2.1
  | inside | insideSecond =>
    obtain ⟨-, hpending, -, hstored, hstart, hcount, hcap⟩ := h
    exact hgroup hpending hstored hstart hcount hcap

lemma parseDefinition_control {ch : UInt16} (hesc : ch ≠ esc) (hcontrol : ¬ IsPrintable ch) (b : MacroBuffer) :
    b.parseDefinition ch = (b, true) := by
  unfold parseDefinition
  rw [if_neg hesc, if_pos (not_not.mp hcontrol)]

theorem outcome_settled (hb : b.Accounted) {written text : List UInt16} {part : Part} (h : Part.At b written part)
    (htext : esc ∉ text) :
    Settled b ((expand part (text.filter IsPrintable)).map (written ++ ·)) (outcome text b) := by
  induction text generalizing b written part with
  | nil => exact finish_settled hb h
  | cons ch rest ih =>
    obtain ⟨hesc, hrest⟩ := not_or.mp (List.mem_cons.not.mp htext)
    by_cases hprintable : IsPrintable ch
    · rw [List.filter_cons_of_pos (p := fun c => decide (IsPrintable c)) (decide_eq_true hprintable)]
      unfold outcome
      rw [parseDefinition_printable (Ne.symm hesc) hprintable]
      have hsteps : Steps b written part ch := steps hb h
      rcases hsteps with
        ⟨b', written', part', hparse, hb', hothers, hat, hexpand⟩ | ⟨b', hparse, hb', hothers, hfull⟩
      · rw [hparse, hexpand]
        have hsettled := ih hb' hat hrest
        refine ⟨hsettled.accounted, hothers.trans hsettled.others, hsettled.accepted, ?_⟩
        rw [← hothers.otherSpace hb hb']
        exact hsettled.rejected
      · rw [hparse]
        exact rejected_settled hb' hothers (hfull _)
    · rw [List.filter_cons_of_neg (p := fun c => decide (IsPrintable c)) (by simpa using hprintable)]
      unfold outcome
      rw [parseDefinition_control (Ne.symm hesc) hprintable]
      exact ih hb h hrest

/-! ### The beginning of a definition -/

lemma foldl_deleteMacro (ids : List (Fin 64)) (hb : b.Accounted) :
    ∃ space, ids.foldl MacroBuffer.deleteMacro b =
        { b with spaceUsed := space, macros := fun id => if id ∈ ids then [] else b.macros id } ∧
      (ids.foldl MacroBuffer.deleteMacro b).Accounted := by
  induction ids generalizing b with
  | nil => exact ⟨b.spaceUsed, by simp, hb⟩
  | cons id ids ih =>
    obtain ⟨space, heq, hacc⟩ := ih (hb.deleteMacro id)
    refine ⟨space, ?_, hacc⟩
    rw [List.foldl_cons, heq]
    unfold MacroBuffer.deleteMacro
    dsimp only
    congr 1
    funext i
    by_cases hi : i = id
    · rw [hi, Function.update_self]
      simp
    · rw [Function.update_of_ne hi]
      simp [hi]

/-- The buffer behind an accepted `InitParser`. -/
structure Begun (b : MacroBuffer) (id : Fin 64) (deleteControl : MacroDeleteControl) (b' : MacroBuffer) : Prop where
  accounted : b'.Accounted
  activeMacroId : b'.activeMacroId = id
  active : b'.activeMacro = []
  others : ∀ j ≠ id, b'.macros j = if deleteControl = .deleteAll then [] else b.macros j
  repeatPending : b'.repeatPending = false
  decodedChar : b'.decodedChar = 0

lemma deleteFor_begun (deleteControl : MacroDeleteControl) (hb : b.Accounted) (hpending : b.repeatPending = false)
    (hdecoded : b.decodedChar = 0) (h : (b.deleteFor deleteControl).2 = true) :
    Begun b b.activeMacroId deleteControl (b.deleteFor deleteControl).1 ∧
      (b.deleteFor deleteControl).1.parseState = b.parseState := by
  cases deleteControl with
  | deleteId =>
    refine ⟨⟨hb.deleteMacro _, rfl, activeMacro_deleteMacro b, fun j hj => ?_, hpending, hdecoded⟩, rfl⟩
    exact Function.update_of_ne hj _ _
  | deleteAll =>
    obtain ⟨space, heq, hacc⟩ := foldl_deleteMacro (List.finRange 64) hb
    have hsame : (b.deleteFor .deleteAll).1 = _ := heq
    rw [heq] at hacc
    rw [hsame]
    refine ⟨⟨hacc, rfl, ?_, fun j _ => ?_, hpending, hdecoded⟩, rfl⟩
    · simp [activeMacro]
    · simp
  | other => cases h

lemma initParser_begun (id : Fin 64) (deleteControl : MacroDeleteControl) (encoding : MacroEncoding)
    (hb : b.Accounted) (h : (b.initParser id deleteControl encoding).2 = true) :
    Begun b id deleteControl (b.initParser id deleteControl encoding).1 ∧
      (encoding = .hexPair → (b.initParser id deleteControl encoding).1.parseState = .expectingHexDigit) := by
  unfold initParser at h ⊢
  by_cases hguard : (id : ℕ) < 64 ∧ b.invokedDepth = 0
  · rw [dif_pos hguard] at h ⊢
    cases encoding with
    | hexPair =>
      obtain ⟨hbegun, hstate⟩ := deleteFor_begun (b := { b with
        activeMacroId := id, decodedChar := 0, repeatPending := false, parseState := .expectingHexDigit })
        deleteControl ⟨hb.spaceUsed, hb.bounded, hb.sequence⟩ rfl rfl h
      exact ⟨⟨hbegun.accounted, hbegun.activeMacroId, hbegun.active, hbegun.others, hbegun.repeatPending,
        hbegun.decodedChar⟩, fun _ => hstate⟩
    | text =>
      obtain ⟨hbegun, -⟩ := deleteFor_begun (b := { b with
        activeMacroId := id, decodedChar := 0, repeatPending := false, parseState := .expectingText })
        deleteControl ⟨hb.spaceUsed, hb.bounded, hb.sequence⟩ rfl rfl h
      exact ⟨⟨hbegun.accounted, hbegun.activeMacroId, hbegun.active, hbegun.others, hbegun.repeatPending,
        hbegun.decodedChar⟩, fun h => nomatch h⟩
    | other => cases h
  · rw [dif_neg hguard] at h
    cases h

/-- A refused `InitParser` touches no macro. -/
lemma initParser_refused (macroId : ℕ) (deleteControl : MacroDeleteControl) (encoding : MacroEncoding)
    (h : (b.initParser macroId deleteControl encoding).2 = false) :
    (b.initParser macroId deleteControl encoding).1.macros = b.macros ∧
      (b.initParser macroId deleteControl encoding).1.spaceUsed = b.spaceUsed ∧
      (b.initParser macroId deleteControl encoding).1.invokedSequenceLength = b.invokedSequenceLength := by
  unfold initParser at h ⊢
  by_cases hguard : macroId < 64 ∧ b.invokedDepth = 0
  · rw [dif_pos hguard] at h ⊢
    cases encoding with
    | other => exact ⟨rfl, rfl, rfl⟩
    | hexPair | text =>
      cases deleteControl with
      | other => exact ⟨rfl, rfl, rfl⟩
      | deleteId => cases h
      | deleteAll => cases h
  · rw [dif_neg hguard]
    exact ⟨rfl, rfl, rfl⟩

end VT7.Adapter
