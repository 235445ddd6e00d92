import VT7.Adapter.MacroDefinition

/-!
# The macro memory

`_spaceUsed` is the length of all macros in every state a run reaches, and a definition changes no other macro.
-/

namespace VT7.Adapter

open MacroBuffer

variable {b b' : MacroBuffer} {s : MacroSession}

/-- What every event keeps. -/
structure MacroSession.Valid (s : MacroSession) : Prop where
  accounted : s.buffer.Accounted
  repeats : s.receiving → s.buffer.repeatPending → s.buffer.repeatStart ≤ s.buffer.activeMacro.length

/-- Whether `ParseDefinition` ends the definition with an error. -/
def MacroBuffer.rejects (b : MacroBuffer) (ch : UInt16) : Bool :=
  if ch = esc then !b.finish.2 else !(b.parseDefinition ch).2

/-! ### Any character of any definition -/

/-- What a character does to a buffer that takes it, whatever the definition. -/
structure Taken (b : MacroBuffer) (result : MacroBuffer × Bool) : Prop where
  accounted : result.1.Accounted
  others : OthersKept b result.1
  repeats : result.2 = true → result.1.repeatPending → result.1.repeatStart ≤ result.1.activeMacro.length

lemma append_taken (hb : b.Accounted) (hrepeats : b.repeatPending → b.repeatStart ≤ b.activeMacro.length)
    (ch : UInt16) : Taken b (b.appendToActiveMacro ch) := by
  rcases append_spec hb ch with ⟨b', happend, hb', hothers, hsame⟩ | ⟨happend, -⟩
  · rw [happend]
    refine ⟨hb', hothers, fun _ hpending => ?_⟩
    have hstored : b'.activeMacro = b.activeMacro ++ [ch] := by
      rw [hsame]
      exact Function.update_self _ _ _
    rw [hsame] at hpending
    have hle := hrepeats hpending
    rw [hstored, List.length_append, hsame]
    exact hle.trans (Nat.le_add_right _ _)
  · rw [happend]
    exact ⟨hb, .refl b, fun _ => hrepeats⟩

lemma repeat_taken (hb : b.Accounted) (hstart : b.repeatStart ≤ b.activeMacro.length) :
    Taken b b.applyPendingRepeat := by
  rw [applyPendingRepeat_eq hb hstart]
  split
  · next hspace => exact ⟨hb.afterRepeat hspace, afterRepeat_others b, fun _ h => nomatch h⟩
  · exact ⟨hb, .refl b, fun h => nomatch h⟩

/-- A change of what the parser remembers, before an operation. -/
lemma Taken.of_same {result : MacroBuffer × Bool} (h : Taken b' result)
    (hid : b'.activeMacroId = b.activeMacroId) (hmacros : b'.macros = b.macros)
    (hsequence : b'.invokedSequenceLength = b.invokedSequenceLength) : Taken b result where
  accounted := h.accounted
  others :=
    { activeMacroId := h.others.activeMacroId.trans hid
      macros := fun id hne => (h.others.macros id (hid ▸ hne)).trans (congrFun hmacros id)
      sequence := h.others.sequence.trans hsequence }
  repeats := h.repeats

lemma parseCharacter_taken (hb : b.Accounted) (hrepeats : b.repeatPending → b.repeatStart ≤ b.activeMacro.length)
    (ch : UInt16) : Taken b (b.parseCharacter ch) := by
  cases hstate : b.parseState with
  | expectingText =>
    have hparse : b.parseCharacter ch = b.appendToActiveMacro ch := by
      unfold parseCharacter
      rw [hstate]
    rw [hparse]
    exact append_taken hb hrepeats ch
  | expectingHexDigit =>
    rw [parseCharacter_hexDigit hstate]
    cases hexDigit ch with
    | some value => exact ⟨⟨hb.spaceUsed, hb.bounded, hb.sequence⟩, ⟨rfl, fun _ _ => rfl, rfl⟩, fun _ => hrepeats⟩
    | none =>
      dsimp only
      split
      · exact ⟨⟨hb.spaceUsed, hb.bounded, hb.sequence⟩, ⟨rfl, fun _ _ => rfl, rfl⟩, fun _ => hrepeats⟩
      · split
        · next h =>
          have hready : ({ b with decodedChar := b.decodedChar <<< 4 } : MacroBuffer).Accounted :=
            ⟨hb.spaceUsed, hb.bounded, hb.sequence⟩
          exact (repeat_taken hready (hrepeats h.2)).of_same rfl rfl rfl
        · exact ⟨⟨hb.spaceUsed, hb.bounded, hb.sequence⟩, ⟨rfl, fun _ _ => rfl, rfl⟩, fun h => nomatch h⟩
  | expectingSecondHexDigit =>
    rw [parseCharacter_secondHexDigit hstate]
    cases hexDigit ch with
    | some value =>
      have hready : ({ b with decodedChar := hexPair b.decodedChar value } : MacroBuffer).Accounted :=
        ⟨hb.spaceUsed, hb.bounded, hb.sequence⟩
      have htaken := (append_taken hready hrepeats (hexPair b.decodedChar value)).of_same (b := b) rfl rfl rfl
      exact ⟨⟨htaken.accounted.spaceUsed, htaken.accounted.bounded, htaken.accounted.sequence⟩,
        ⟨htaken.others.activeMacroId, htaken.others.macros, htaken.others.sequence⟩, htaken.repeats⟩
    | none => exact ⟨⟨hb.spaceUsed, hb.bounded, hb.sequence⟩, ⟨rfl, fun _ _ => rfl, rfl⟩, fun h => nomatch h⟩
  | expectingRepeatCount =>
    rw [parseCharacter_repeatCount hstate]
    split
    · exact ⟨⟨hb.spaceUsed, hb.bounded, hb.sequence⟩, ⟨rfl, fun _ _ => rfl, rfl⟩, fun _ => hrepeats⟩
    · split
      · exact ⟨⟨hb.spaceUsed, hb.bounded, hb.sequence⟩, ⟨rfl, fun _ _ => rfl, rfl⟩, fun _ _ => le_refl _⟩
      · exact ⟨hb, .refl b, fun h => nomatch h⟩

/-- The end of a definition, whatever the definition. -/
lemma finish_taken (hb : b.Accounted) (hrepeats : b.repeatPending → b.repeatStart ≤ b.activeMacro.length) :
    b.finish.1.Accounted ∧ OthersKept b b.finish.1 ∧ (b.finish.2 = false → b.finish.1.activeMacro = []) := by
  unfold finish
  by_cases hpending : b.repeatPending
  · rw [if_pos hpending]
    have htaken := repeat_taken hb (hrepeats hpending)
    dsimp only
    split
    · next happlied => exact ⟨htaken.accounted, htaken.others, fun h => absurd (happlied.symm.trans h) (by decide)⟩
    · exact ⟨htaken.accounted.deleteMacro _, htaken.others.trans (deleteMacro_others _),
        fun _ => activeMacro_deleteMacro _⟩
  · rw [if_neg hpending]
    exact ⟨hb, .refl b, fun h => nomatch h⟩

/-- **One character**: the space stays right, the other macros stay, and a rejected definition is empty. -/
theorem parseDefinition_taken (hb : b.Accounted)
    (hrepeats : b.repeatPending → b.repeatStart ≤ b.activeMacro.length) (ch : UInt16) :
    Taken b (b.parseDefinition ch) ∧ (b.rejects ch = true → (b.parseDefinition ch).1.activeMacro = []) := by
  by_cases hesc : ch = esc
  · subst hesc
    obtain ⟨hacc, hothers, hempty⟩ := finish_taken hb hrepeats
    rw [parseDefinition_esc]
    refine ⟨⟨hacc, hothers, fun h => nomatch h⟩, fun h => hempty ?_⟩
    unfold rejects at h
    rwa [if_pos rfl, Bool.not_eq_true'] at h
  · unfold rejects
    rw [if_neg hesc]
    by_cases hprintable : IsPrintable ch
    · rw [parseDefinition_printable hesc hprintable]
      have htaken := parseCharacter_taken hb hrepeats ch
      cases hsuccess : (b.parseCharacter ch).2 with
      | true => exact ⟨⟨htaken.accounted, htaken.others, fun _ => htaken.repeats hsuccess⟩, fun h => nomatch h⟩
      | false =>
        exact ⟨⟨htaken.accounted.deleteMacro _, htaken.others.trans (deleteMacro_others _), fun h => nomatch h⟩,
          fun _ => activeMacro_deleteMacro _⟩
    · rw [parseDefinition_control hesc hprintable]
      exact ⟨⟨hb, .refl b, fun _ => hrepeats⟩, fun h => nomatch h⟩

/-- The characters of a definition leave the other macros alone. -/
theorem parseAll_others (hb : b.Accounted) (hrepeats : b.repeatPending → b.repeatStart ≤ b.activeMacro.length)
    (text : List UInt16) : OthersKept b (parseAll text b).1 := by
  induction text generalizing b with
  | nil => exact .refl b
  | cons ch rest ih =>
    obtain ⟨htaken, -⟩ := parseDefinition_taken hb hrepeats ch
    unfold parseAll
    dsimp only
    split
    · next hmore => exact htaken.others.trans (ih htaken.accounted (htaken.repeats hmore))
    · exact htaken.others

/-! ### Runs -/

lemma length_lt_of_mayInvoke {macroId : ℕ} (hid : macroId < 64) (hb : b.Accounted)
    (h : b.mayInvoke macroId = true) :
    b.invokedSequenceLength + (b.macros ⟨macroId, hid⟩).length ≤ maxSpace := by
  have hsequence := hb.sequence
  unfold mayInvoke at h
  rw [dif_pos hid, sizeSub_of_le hsequence maxSpace_lt, Bool.and_eq_true, decide_eq_true_eq, decide_eq_true_eq] at h
  omega

/-- **What one event keeps.** -/
theorem MacroSession.Valid.step (hs : s.Valid) (event : MacroEvent) : (s.step event).Valid := by
  cases event with
  | initParser macroId deleteControl encoding =>
    unfold MacroSession.step
    dsimp only
    cases hstarted : (s.buffer.initParser macroId deleteControl encoding).2 with
    | true =>
      have hid : macroId < 64 := by
        by_contra hid
        unfold MacroBuffer.initParser at hstarted
        rw [dif_neg (not_and_of_not_left _ hid)] at hstarted
        cases hstarted
      obtain ⟨hbegun, -⟩ := initParser_begun ⟨macroId, hid⟩ _ _ hs.accounted hstarted
      refine ⟨hbegun.accounted, fun _ hpending => ?_⟩
      have hnone := hbegun.repeatPending
      exact absurd (hpending.symm.trans hnone) (by decide)
    | false =>
      obtain ⟨hmacros, hspace, hsequence⟩ := initParser_refused _ _ _ hstarted
      refine ⟨⟨?_, hspace ▸ hs.accounted.bounded, hsequence ▸ hs.accounted.sequence⟩, fun h => nomatch h⟩
      rw [hspace, hmacros]
      exact hs.accounted.spaceUsed
  | character ch =>
    unfold MacroSession.step
    dsimp only
    split
    · next hreceiving =>
      obtain ⟨htaken, -⟩ := parseDefinition_taken hs.accounted (hs.repeats hreceiving) ch
      exact ⟨htaken.accounted, htaken.repeats⟩
    · exact hs
  | enterMacro macroId =>
    unfold MacroSession.step
    dsimp only
    split
    · next hmay =>
      unfold MacroBuffer.enterMacro
      by_cases hid : macroId < 64
      · rw [dif_pos hid]
        exact ⟨⟨hs.accounted.spaceUsed, hs.accounted.bounded, length_lt_of_mayInvoke hid hs.accounted hmay⟩,
          hs.repeats⟩
      · rw [dif_neg hid]
        exact hs
    · exact hs
  | leaveMacro =>
    unfold MacroSession.step
    dsimp only
    split
    · refine ⟨⟨hs.accounted.spaceUsed, hs.accounted.bounded, ?_⟩, hs.repeats⟩
      show (if _ then 0 else s.buffer.invokedSequenceLength) ≤ maxSpace
      have hsequence := hs.accounted.sequence
      split <;> omega
    · exact hs
  | clearMacrosIfInUse =>
    unfold MacroSession.step MacroBuffer.clearMacrosIfInUse
    dsimp only
    split
    · -- the macros are overwritten where they are: their lengths stay
      refine ⟨⟨?_, hs.accounted.bounded, hs.accounted.sequence⟩, fun hreceiving hpending => ?_⟩
      · simpa using hs.accounted.spaceUsed
      · have hle := hs.repeats hreceiving hpending
        unfold activeMacro at hle ⊢
        simpa using hle
    · exact hs

lemma start_valid : MacroSession.Valid {} := by
  refine ⟨⟨?_, Nat.zero_le _, Nat.zero_le _⟩, fun h => nomatch h⟩
  show 0 = ∑ _ : Fin 64, ([] : List UInt16).length
  simp

theorem run_valid (hs : s.Valid) (events : List MacroEvent) : (s.run events).Valid := by
  induction events generalizing s with
  | nil => exact hs
  | cons event events ih => exact ih (hs.step event)

/-- A call of `InvokeMacro` is a run from its beginning to its end. -/
lemma invokeMacro_eq_run (s : MacroSession) (processString : List UInt16 → MacroBuffer → MacroBuffer) {macroId : ℕ}
    (hid : macroId < 64) (hmay : s.buffer.mayInvoke macroId = true) (events : List MacroEvent)
    (hstring : processString (s.buffer.macros ⟨macroId, hid⟩) (s.buffer.enterMacro macroId) =
      (MacroSession.run { s with buffer := s.buffer.enterMacro macroId } events).buffer)
    (hopen : 0 < (MacroSession.run { s with buffer := s.buffer.enterMacro macroId } events).buffer.invokedDepth) :
    s.buffer.invokeMacro processString macroId =
      (s.run (.enterMacro macroId :: (events ++ [.leaveMacro]))).buffer := by
  unfold MacroBuffer.invokeMacro
  rw [dif_pos ⟨hmay, hid⟩, hstring]
  have hrun : s.run (.enterMacro macroId :: (events ++ [.leaveMacro])) =
      (MacroSession.run { s with buffer := s.buffer.enterMacro macroId } events).step .leaveMacro := by
    unfold MacroSession.run
    rw [List.foldl_cons, List.foldl_append]
    show List.foldl MacroSession.step
      (List.foldl MacroSession.step (if s.buffer.mayInvoke macroId then _ else s) events) [.leaveMacro] = _
    rw [if_pos hmay]
    rfl
  rw [hrun]
  unfold MacroSession.step
  dsimp only
  rw [if_pos hopen]

/-! ### The memory and its definitions -/

/-- The macro memory in one state: its space is right, and what a definition does from there. -/
structure MacroSession.Sound (s : MacroSession) : Prop where
  spaceUsed : s.buffer.spaceUsed = ∑ id, (s.buffer.macros id).length
  bounded : s.buffer.spaceUsed ≤ maxSpace
  /-- No subtraction goes below zero. -/
  available : s.buffer.getSpaceAvailable = maxSpace - s.buffer.spaceUsed
  deletions : ∀ id, (s.buffer.deleteMacro id).spaceUsed + (s.buffer.macros id).length = s.buffer.spaceUsed
  repeats : s.receiving → s.buffer.repeatPending → s.buffer.repeatStart ≤ s.buffer.activeMacro.length
  /-- A rejected definition leaves its macro empty. -/
  rejected : ∀ ch, s.receiving → s.buffer.rejects ch = true → (s.buffer.parseDefinition ch).1.activeMacro = []
  /-- A hex definition stores what its text denotes, or it is rejected for its form or for want of space. -/
  hexDefinition : ∀ (id : Fin 64) deleteControl text, esc ∉ text →
    ∀ b, s.buffer.initParser id deleteControl .hexPair = (b, true) →
      parseAll (text ++ [esc]) b = ((outcome text b).1, false) ∧
        ((outcome text b).2 = true → Denotes (text.filter IsPrintable) ((outcome text b).1.macros id)) ∧
        ((outcome text b).2 = false → (outcome text b).1.macros id = [] ∧
          ∀ out, Denotes (text.filter IsPrintable) out → maxSpace < b.spaceUsed + out.length)
  /-- A definition touches its own macro and those that `InitParser` deletes. -/
  others : ∀ (id : Fin 64) deleteControl encoding text,
    ∀ b, s.buffer.initParser id deleteControl encoding = (b, true) →
      ∀ j ≠ id, (parseAll text b).1.macros j = if deleteControl = .deleteAll then [] else s.buffer.macros j
  refused : ∀ macroId deleteControl encoding,
    ∀ b, s.buffer.initParser macroId deleteControl encoding = (b, false) → b.macros = s.buffer.macros

lemma hexDefinition_of_begun {id : Fin 64} {deleteControl : MacroDeleteControl} {text : List UInt16}
    (hbegun : Begun b id deleteControl b') (hstate : b'.parseState = .expectingHexDigit) (htext : esc ∉ text) :
    ((outcome text b').2 = true → Denotes (text.filter IsPrintable) ((outcome text b').1.macros id)) ∧
      ((outcome text b').2 = false → (outcome text b').1.macros id = [] ∧
        ∀ out, Denotes (text.filter IsPrintable) out → maxSpace < b'.spaceUsed + out.length) := by
  have hat : Part.At b' [] .outside := ⟨hstate, hbegun.repeatPending, hbegun.decodedChar, hbegun.active⟩
  have hsettled := outcome_settled hbegun.accounted hat htext
  have hmap : (expand .outside (text.filter IsPrintable)).map (([] : List UInt16) ++ ·) =
      expand .outside (text.filter IsPrintable) := Option.map_id'
  rw [hmap] at hsettled
  have hid : (outcome text b').1.activeMacroId = id := hsettled.others.activeMacroId.trans hbegun.activeMacroId
  have hactive : (outcome text b').1.activeMacro = (outcome text b').1.macros id := by
    unfold activeMacro
    rw [hid]
  have hspace : b'.otherSpace = b'.spaceUsed := by
    unfold MacroBuffer.otherSpace
    rw [hbegun.active]
    rfl
  refine ⟨fun h => ?_, fun h => ?_⟩
  · rw [denotes_iff, ← hactive]
    exact hsettled.accepted h
  · obtain ⟨hempty, hfull⟩ := hsettled.rejected h
    refine ⟨hactive ▸ hempty, fun out hout => ?_⟩
    rw [← hspace]
    exact hfull out ((denotes_iff _ _).mp hout)

/-- **The macro memory is sound in every state that a run reaches.** -/
theorem macroMemory_sound (events : List MacroEvent) : (MacroSession.run {} events).Sound := by
  have hs := run_valid start_valid events
  generalize MacroSession.run {} events = s at hs
  have hacc := hs.accounted
  refine ⟨hacc.spaceUsed, hacc.bounded, hacc.getSpaceAvailable, fun id => ?_, hs.repeats, ?_, ?_, ?_, ?_⟩
  · have hle := hacc.length_le id
    have hspace : (s.buffer.deleteMacro id).spaceUsed = s.buffer.spaceUsed - (s.buffer.macros id).length :=
      sizeSub_of_le hle (lt_of_le_of_lt hacc.bounded maxSpace_lt)
    omega
  · intro ch hreceiving
    exact (parseDefinition_taken hacc (hs.repeats hreceiving) ch).2
  · intro id deleteControl text htext b hinit
    obtain ⟨hbegun, hstate⟩ := initParser_begun id deleteControl .hexPair hacc (by rw [hinit])
    rw [hinit] at hbegun hstate
    exact ⟨parseAll_esc text b, hexDefinition_of_begun hbegun (hstate rfl) htext⟩
  · intro id deleteControl encoding text b hinit j hj
    obtain ⟨hbegun, -⟩ := initParser_begun id deleteControl encoding hacc (by rw [hinit])
    rw [hinit] at hbegun
    have hkept := parseAll_others hbegun.accounted
      (fun hpending => absurd (hpending.symm.trans hbegun.repeatPending) (by decide)) text
    exact (hkept.macros j (hbegun.activeMacroId.symm ▸ hj)).trans (hbegun.others j hj)
  · intro macroId deleteControl encoding b hinit
    obtain ⟨hmacros, -⟩ := initParser_refused (b := s.buffer) macroId deleteControl encoding (by rw [hinit])
    rwa [hinit] at hmacros

end VT7.Adapter
