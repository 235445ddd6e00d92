import VT7.Parser.DataStrings

/-!
# Control characters inside a device control header

The header of a device control string is what comes between ESC P and the data: parameters, intermediates and a
final.  Control characters in it are ignored in every state but `dcsParam`, whose event lacks an `else` and takes
the control character for the final (`headerControls_ignored`).
-/

namespace VT7.Parser

open StateMachine

/-- A C0 character other than CAN, SUB and ESC, or DEL. -/
def isControl (wch : UInt16) : Bool := isC0Code wch || isDelete wch

/-- A parameter digit or a `;`. -/
def isParam (wch : UInt16) : Bool := isNumericParamValue wch || isParameterDelimiter wch

/-- A character of a header in front of its final. -/
def isHeaderChar (wch : UInt16) : Bool := 0x20 ≤ wch && wch ≤ 0x3f

/-- A character that is neither a control character nor the start of an escape sequence, in any mode. -/
def isPlain (wch : UInt16) : Bool := 0x20 ≤ wch && wch != 0x7f && !isC1ControlCharacter wch

/-- The characters behind ESC P, up to and including the final.  Directly behind ESC P a private marker is a
final, too. -/
structure IsHeader (body : List UInt16) (final : UInt16) : Prop where
  chars : ∀ wch ∈ body, isHeaderChar wch = true
  first : ∀ wch ∈ body.head?, isCsiPrivateMarker wch = false
  plain : isPlain final = true
  ends : 0x40 ≤ final.toNat ∨ body = [] ∧ isCsiPrivateMarker final = true

/-- A machine and the characters in front of a header: the machine is at ground and gets ESC P first, or it is
where ESC P has left it. -/
inductive AtHeader (engine : Engine) : StateMachine → List UInt16 → Prop
  | introduced {m : StateMachine} (hstate : m.state = .ground) (hansi : m.parserMode.ansi = true) :
      AtHeader engine m [esc, 0x50]
  | entered (m : StateMachine) : AtHeader engine (m.enter engine .dcsEntry) []

/-- The calls of `ActionDcsDispatch`. -/
def dcsDispatches (calls : List EngineCall) : List EngineCall := calls.filter EngineCall.isDcsDispatch

/-- The same state, and the same calls of `ActionDcsDispatch`. -/
def SameDispatch (m m' : StateMachine) : Prop :=
  m'.state = m.state ∧ dcsDispatches m'.calls = dcsDispatches m.calls

/-- No control character stands behind the first parameter character without anything but parameter characters
between them. -/
def ParamsUnbroken (inserted : List UInt16) : Prop :=
  ∀ wch ∈ (inserted.takeWhile fun wch => isControl wch || isParam wch).dropWhile isControl, isControl wch = false

/-! ### Characters -/

lemma isControl_bounds {wch : UInt16} (h : isControl wch = true) :
    wch.toNat ≤ 0x1f ∧ wch ≠ can ∧ wch ≠ sub ∧ wch ≠ esc ∨ wch = 0x7f := by
  simp only [isControl, isC0Code, isDelete, Bool.or_eq_true, Bool.and_eq_true, decide_eq_true_eq, beq_iff_eq,
    UInt16.le_iff_toNat_le] at h
  have hvalues : (0x17 : UInt16).toNat = 23 ∧ (0x1c : UInt16).toNat = 28 ∧ (0x1f : UInt16).toNat = 31 := by decide
  have hne (c : UInt16) (hlow : wch.toNat ≠ c.toNat) : wch ≠ c := by
    rintro rfl
    exact hlow rfl
  have hcan : can.toNat = 24 ∧ sub.toNat = 26 ∧ esc.toNat = 27 := by decide
  rcases h with ((h | rfl) | h) | rfl
  · exact .inl ⟨by omega, hne _ (by omega), hne _ (by omega), hne _ (by omega)⟩
  · exact .inl (by decide)
  · exact .inl ⟨by omega, hne _ (by omega), hne _ (by omega), hne _ (by omega)⟩
  · exact .inr rfl

lemma isHeaderChar_bounds {wch : UInt16} (h : isHeaderChar wch = true) : 0x20 ≤ wch.toNat ∧ wch.toNat ≤ 0x3f := by
  simpa [isHeaderChar, UInt16.le_iff_toNat_le] using h

/-- A character that does not end a header or a data string. -/
structure Stays (wch : UInt16) : Prop where
  can : wch ≠ can
  sub : wch ≠ sub
  esc : wch ≠ esc
  c1 : isC1ControlCharacter wch = false

lemma ne_of_toNat {wch c : UInt16} (h : wch.toNat ≠ c.toNat) : wch ≠ c := by
  rintro rfl
  exact h rfl

lemma c1_false {wch : UInt16} (h : wch.toNat < 0x80 ∨ 0x9f < wch.toNat) : isC1ControlCharacter wch = false := by
  have hvalues : (0x80 : UInt16).toNat = 128 ∧ (0x9f : UInt16).toNat = 159 := by decide
  simp only [isC1ControlCharacter, Bool.and_eq_false_iff, decide_eq_false_iff_not, UInt16.le_iff_toNat_le]
  omega

lemma stays_of_isControl {wch : UInt16} (h : isControl wch = true) : Stays wch := by
  rcases isControl_bounds h with ⟨hlow, hcan, hsub, hesc⟩ | rfl
  · exact ⟨hcan, hsub, hesc, c1_false (by omega)⟩
  · exact ⟨by decide, by decide, by decide, by decide⟩

lemma stays_of_low {wch : UInt16} (h : 0x20 ≤ wch.toNat) (hc1 : isC1ControlCharacter wch = false) : Stays wch := by
  have hvalues : can.toNat = 24 ∧ sub.toNat = 26 ∧ esc.toNat = 27 := by decide
  exact ⟨ne_of_toNat (by omega), ne_of_toNat (by omega), ne_of_toNat (by omega), hc1⟩

lemma stays_of_isHeaderChar {wch : UInt16} (h : isHeaderChar wch = true) : Stays wch := by
  have hbounds := isHeaderChar_bounds h
  exact stays_of_low hbounds.1 (c1_false (by omega))

lemma isPlain_bounds {wch : UInt16} (h : isPlain wch = true) :
    0x20 ≤ wch.toNat ∧ wch ≠ 0x7f ∧ isC1ControlCharacter wch = false := by
  simpa [isPlain, UInt16.le_iff_toNat_le, and_assoc] using h

lemma stays_of_isPlain {wch : UInt16} (h : isPlain wch = true) : Stays wch :=
  stays_of_low (isPlain_bounds h).1 (isPlain_bounds h).2.2

lemma not_isControl {wch : UInt16} (h : 0x20 ≤ wch.toNat) (hdelete : wch ≠ 0x7f) : isControl wch = false := by
  refine Bool.eq_false_iff.mpr fun hcontrol => ?_
  rcases isControl_bounds hcontrol with ⟨hlow, -⟩ | rfl
  · omega
  · exact hdelete rfl

/-- How the events of a header tell its characters apart. -/
def HeaderTests (wch : UInt16) : Prop :=
  isControl wch = false ∧
    ((isParam wch = false ∧ isSubParameterDelimiter wch = false ∧ isIntermediate wch = true ∧ wch.toNat ≤ 0x2f) ∨
      (isParam wch = true ∧ isSubParameterDelimiter wch = false ∧ isIntermediate wch = false ∧
        isIntermediateInvalid wch = true) ∨
      (isParam wch = false ∧ isIntermediate wch = false ∧ isIntermediateInvalid wch = true ∧
        (isParameterInvalid wch || isSubParameterDelimiter wch) = true ∧
        (isCsiPrivateMarker wch = false → isSubParameterDelimiter wch = true)))

instance (wch : UInt16) : Decidable (HeaderTests wch) := inferInstanceAs (Decidable (_ ∧ _))

lemma headerTests {wch : UInt16} (hw : isHeaderChar wch = true) : HeaderTests wch := by
  have hbounds := isHeaderChar_bounds hw
  have hall : ∀ n < 0x40, 0x20 ≤ n → HeaderTests (UInt16.ofNat n) := by decide
  have h := hall wch.toNat (by omega) hbounds.1
  rwa [UInt16.ofNat_toNat] at h

lemma not_headerChar {wch : UInt16} (h : 0x40 ≤ wch.toNat) :
    isParam wch = false ∧ isSubParameterDelimiter wch = false ∧ isIntermediate wch = false ∧
      isIntermediateInvalid wch = false ∧ isCsiPrivateMarker wch = false := by
  have hne (c : UInt16) (hc : c.toNat < 0x40) : (wch == c) = false := by
    rw [beq_eq_false_iff_ne]
    exact ne_of_toNat (by omega)
  have hnumeric : isNumericParamValue wch = false := by
    have hvalue : (0x39 : UInt16).toNat = 57 := rfl
    rw [isNumericParamValue, Bool.and_eq_false_iff, decide_eq_false_iff_not, decide_eq_false_iff_not,
      UInt16.le_iff_toNat_le, UInt16.le_iff_toNat_le]
    omega
  have hintermediate : isIntermediate wch = false := by
    have hvalue : (0x2f : UInt16).toNat = 47 := rfl
    rw [isIntermediate, Bool.and_eq_false_iff, decide_eq_false_iff_not, decide_eq_false_iff_not,
      UInt16.le_iff_toNat_le, UInt16.le_iff_toNat_le]
    omega
  have hdelimiter : isParameterDelimiter wch = false := hne _ (by decide)
  have hsub : isSubParameterDelimiter wch = false := hne _ (by decide)
  have hmarker : isCsiPrivateMarker wch = false := by
    simp only [isCsiPrivateMarker, hne 0x3c (by decide), hne 0x3d (by decide), hne 0x3e (by decide),
      hne 0x3f (by decide), Bool.or_false]
  refine ⟨?_, hsub, hintermediate, ?_, hmarker⟩
  · rw [isParam, hnumeric, hdelimiter, Bool.or_false]
  · rw [isIntermediateInvalid, hnumeric, hsub, hdelimiter, hmarker]
    rfl

/-- None of the tests of `_EventDcsParam` is for control characters. -/
lemma control_tests {wch : UInt16} (hw : isControl wch = true) : isParam wch = false ∧ isIntermediate wch = false ∧
    isCsiPrivateMarker wch = false ∧ isSubParameterDelimiter wch = false := by
  have hbounds : wch.toNat < 0x20 ∨ wch = 0x7f := (isControl_bounds hw).imp (fun h => by omega) id
  have hall : ∀ n < 0x20, isParam (UInt16.ofNat n) = false ∧ isIntermediate (UInt16.ofNat n) = false ∧
      isCsiPrivateMarker (UInt16.ofNat n) = false ∧ isSubParameterDelimiter (UInt16.ofNat n) = false := by decide
  rcases hbounds with h | rfl
  · have htests := hall wch.toNat h
    rwa [UInt16.ofNat_toNat] at htests
  · decide

lemma tests_of_not_isControl {wch : UInt16} (hw : isControl wch = false) :
    isC0Code wch = false ∧ isDelete wch = false := by
  simpa [isControl] using hw

/-- The actions for a character of the header in front of its final. -/
inductive HeaderEvent (wch : UInt16) : VTState → List Action → Prop
  | invalid {s : VTState} (hs : isParam wch = true → s = .dcsIntermediate) : HeaderEvent wch s [.enter .dcsIgnore]
  | collect {s : VTState} (hbyte : wch.toNat ≤ 0x2f) (hwch : isParam wch = false) (hs : s = .dcsIntermediate) :
      HeaderEvent wch s [.collect wch]
  | collectEnter {s : VTState} (hbyte : wch.toNat ≤ 0x2f) (hwch : isParam wch = false) :
      HeaderEvent wch s [.collect wch, .enter .dcsIntermediate]
  | param {s : VTState} (hwch : isParam wch = true) (hs : s = .dcsParam) : HeaderEvent wch s [.param wch]
  | paramEnter {s : VTState} (hwch : isParam wch = true) (hs : s = .dcsEntry) :
      HeaderEvent wch s [.param wch, .enter .dcsParam]

lemma event_header (input : Bool) (mode : ParserMode) {wch : UInt16} {s : VTState} (hs : s.CollectsDcs)
    (hw : isHeaderChar wch = true) (hfirst : s = .dcsEntry → isCsiPrivateMarker wch = false) :
    HeaderEvent wch s (event input mode wch s) := by
  obtain ⟨hcontrol, htests⟩ := headerTests hw
  obtain ⟨hc0, hdelete⟩ := tests_of_not_isControl hcontrol
  rcases hs with rfl | rfl | rfl
  · show HeaderEvent wch _ (eventDcsEntry wch)
    have hmarker := hfirst rfl
    unfold eventDcsEntry
    rw [hc0, hdelete]
    rcases htests with ⟨hparam, hsub, hintermediate, hbyte⟩ | ⟨hparam, hsub, -, -⟩ | ⟨hparam, -, -, -, hsub⟩
    · rw [hsub, show (isNumericParamValue wch || isParameterDelimiter wch) = false from hparam, hintermediate]
      exact .collectEnter hbyte hparam
    · rw [hsub, show (isNumericParamValue wch || isParameterDelimiter wch) = true from hparam]
      exact .paramEnter hparam rfl
    · rw [hsub hmarker]
      exact .invalid fun h => absurd (hparam.symm.trans h) Bool.false_ne_true
  · show HeaderEvent wch _ (eventDcsParam wch)
    unfold eventDcsParam
    rcases htests with ⟨hparam, -, hintermediate, hbyte⟩ | ⟨hparam, -, -, -⟩ |
      ⟨hparam, hintermediate, -, hinvalid, -⟩
    · rw [show (isNumericParamValue wch || isParameterDelimiter wch) = false from hparam, hintermediate]
      exact .collectEnter hbyte hparam
    · rw [show (isNumericParamValue wch || isParameterDelimiter wch) = true from hparam]
      exact .param hparam rfl
    · rw [show (isNumericParamValue wch || isParameterDelimiter wch) = false from hparam, hintermediate, hinvalid]
      exact .invalid fun h => absurd (hparam.symm.trans h) Bool.false_ne_true
  · show HeaderEvent wch _ (eventDcsIntermediate wch)
    unfold eventDcsIntermediate
    rw [hc0, hdelete]
    rcases htests with ⟨hparam, -, hintermediate, hbyte⟩ | ⟨-, -, hintermediate, hinvalid⟩ |
      ⟨-, hintermediate, hinvalid, -⟩
    · rw [hintermediate]
      exact .collect hbyte hparam rfl
    · rw [hintermediate, hinvalid]
      exact .invalid fun _ => rfl
    · rw [hintermediate, hinvalid]
      exact .invalid fun _ => rfl

lemma actionParam_identifier (m : StateMachine) (wch : UInt16) : (m.actionParam wch).identifier = m.identifier := by
  have hensure : m.ensureParameter.identifier = m.identifier := by
    unfold ensureParameter
    split
    · rfl
    · rfl
  unfold actionParam
  dsimp only
  split
  · split
    · split
      · exact hensure
      · exact hensure
    · split
      · exact hensure
      · exact hensure
  · rfl

/-! ### Machines that differ in the current run -/

section Alike

variable {engine : Engine} {m m' : StateMachine}

/-- The states of a device control string. -/
def VTState.InDcs (s : VTState) : Prop := s.CollectsDcs ∨ s = .dcsIgnore ∨ s = .dcsPassThrough

/-- The actions in these states. -/
def Action.IsDcs : Action → Prop
  | .param _ => True
  | .collect _ => True
  | .enter s => s.InDcs
  | .dcsDispatch _ => True
  | .dcsString _ => True
  | _ => False

def Alike (m m' : StateMachine) : Prop := ∃ run, m' = { m with currentRun := run }

lemma Alike.refl (m : StateMachine) : Alike m m := ⟨m.currentRun, rfl⟩

lemma Alike.trans {m'' : StateMachine} (h : Alike m m') (h' : Alike m' m'') : Alike m m'' := by
  obtain ⟨run, rfl⟩ := h
  obtain ⟨run', rfl⟩ := h'
  exact ⟨run', rfl⟩

lemma Alike.symm (h : Alike m m') : Alike m' m := by
  obtain ⟨run, rfl⟩ := h
  exact ⟨m.currentRun, rfl⟩

lemma enter_withRun (m : StateMachine) (run : List UInt16) (s : VTState) :
    { m with currentRun := run }.enter engine s = { m.enter engine s with currentRun := run } := by
  cases s <;> rfl

lemma actionParam_withRun (m : StateMachine) (run : List UInt16) (wch : UInt16) :
    { m with currentRun := run }.actionParam wch = { m.actionParam wch with currentRun := run } := by
  have hensure : { m with currentRun := run }.ensureParameter = { m.ensureParameter with currentRun := run } := by
    unfold ensureParameter
    dsimp only
    split <;> rfl
  unfold actionParam
  rw [hensure]
  dsimp only
  split
  · split
    · split <;> rfl
    · split <;> rfl
  · rfl

lemma actionDcsDispatch_withRun (m : StateMachine) (run : List UInt16) (wch : UInt16) :
    { m with currentRun := run }.actionDcsDispatch engine wch =
      { m.actionDcsDispatch engine wch with currentRun := run } := by
  unfold actionDcsDispatch
  dsimp only [call]
  cases engine.dcsAnswer (unitsOf (m.calls ++ [.dcsDispatch (m.identifier.finalize wch) m.parameters])) with
  | handler => rfl
  | null => rfl
  | threw =>
    dsimp only
    split <;> rfl

lemma dcsString_withRun (m : StateMachine) (run : List UInt16) (wch : UInt16) :
    { m with currentRun := run }.perform engine (.dcsString wch) =
      { m.perform engine (.dcsString wch) with currentRun := run } := by
  have hcall : { m with currentRun := run }.callHandler engine wch =
      ({ (m.callHandler engine wch).1 with currentRun := run }, (m.callHandler engine wch).2) := by
    cases hhandler : m.dcsStringHandler with
    | none => simp [callHandler, hhandler]
    | some handler => simp [callHandler, hhandler, call]
  unfold perform
  dsimp only
  rw [hcall]
  split
  · rfl
  · rfl

lemma perform_withRun {a : Action} (ha : a.IsDcs) (m : StateMachine) (run : List UInt16) :
    { m with currentRun := run }.perform engine a = { m.perform engine a with currentRun := run } := by
  cases a with
  | param wch => exact actionParam_withRun m run wch
  | collect wch => rfl
  | enter s => exact enter_withRun m run s
  | dcsDispatch wch => exact actionDcsDispatch_withRun m run wch
  | dcsString wch => exact dcsString_withRun m run wch
  | _ => exact ha.elim

lemma performAll_withRun {actions : List Action} (h : ∀ a ∈ actions, a.IsDcs) (m : StateMachine)
    (run : List UInt16) :
    { m with currentRun := run }.performAll engine actions =
      { m.performAll engine actions with currentRun := run } := by
  induction actions generalizing m with
  | nil => rfl
  | cons a actions ih =>
    show ({ m with currentRun := run }.perform engine a).performAll engine actions = _
    rw [perform_withRun (h a (List.mem_cons_self ..))]
    exact ih (fun a ha => h a (List.mem_cons_of_mem _ ha)) _

/-! ### One character -/

variable {wch : UInt16}

/-- A step of a character that stays. -/
lemma step_stays (hw : Stays wch) : m.step engine (.character wch) =
    { m with currentRun := m.currentRun ++ [wch] }.performAll engine
      (event engine.isEngineForInput m.parserMode wch m.state) := by
  show { m with currentRun := m.currentRun ++ [wch] }.processCharacter engine wch = _
  unfold processCharacter processPlain actions
  have hcancel : ¬ ((wch = can ∨ wch = sub) ∧ ¬ (m.state = .escape ∧ engine.isEngineForInput = true)) :=
    fun h => h.1.elim hw.can hw.sub
  have hescape : ¬ (isEscape wch = true ∧ m.state ≠ .oscString ∧ m.state ≠ .oscParam) := by
    intro h
    exact hw.esc (beq_iff_eq.mp h.1)
  rw [if_neg (by rw [hw.c1]; exact Bool.false_ne_true), if_neg hcancel, if_neg hescape]

lemma event_isDcs (input : Bool) (mode : ParserMode) (wch : UInt16) {s : VTState} (hs : s.InDcs) :
    ∀ a ∈ event input mode wch s, a.IsDcs := by
  have hparam : VTState.dcsParam.InDcs := .inl (by decide)
  have hintermediate : VTState.dcsIntermediate.InDcs := .inl (by decide)
  have hignore : VTState.dcsIgnore.InDcs := .inr (.inl rfl)
  rcases hs with (rfl | rfl | rfl) | rfl | rfl
  · show ∀ a ∈ eventDcsEntry wch, a.IsDcs
    unfold eventDcsEntry
    split_ifs <;> simp [Action.IsDcs, hparam, hintermediate, hignore]
  · show ∀ a ∈ eventDcsParam wch, a.IsDcs
    unfold eventDcsParam
    split_ifs <;> simp [Action.IsDcs, hintermediate, hignore]
  · show ∀ a ∈ eventDcsIntermediate wch, a.IsDcs
    unfold eventDcsIntermediate
    split_ifs <;> simp [Action.IsDcs, hignore]
  · exact fun a ha => nomatch ha
  · show ∀ a ∈ eventDcsPassThrough wch, a.IsDcs
    unfold eventDcsPassThrough
    split_ifs <;> simp [Action.IsDcs]

lemma actionDcsDispatch_spec (m : StateMachine) (wch : UInt16) :
    (m.actionDcsDispatch engine wch).calls =
        m.calls ++ [.dcsDispatch (m.identifier.finalize wch) m.parameters] ∧
      ((m.actionDcsDispatch engine wch).state = .dcsIgnore ∨
        (m.actionDcsDispatch engine wch).state = .dcsPassThrough) := by
  unfold actionDcsDispatch
  dsimp only
  split
  · exact ⟨rfl, .inr rfl⟩
  · exact ⟨rfl, .inl rfl⟩
  · split
    · exact ⟨rfl, .inr rfl⟩
    · exact ⟨rfl, .inl rfl⟩

lemma perform_inDcs {a : Action} (ha : a.IsDcs) (hm : m.state.InDcs) : (m.perform engine a).state.InDcs := by
  cases a with
  | param wch =>
    show (m.actionParam wch).state.InDcs
    rwa [(actionParam_rest m wch).1]
  | collect wch => exact hm
  | enter s =>
    show (m.enter engine s).state.InDcs
    rwa [enter_state]
  | dcsDispatch wch => exact .inr (actionDcsDispatch_spec m wch).2
  | dcsString wch =>
    show (if (m.callHandler engine wch).2 then (m.callHandler engine wch).1
      else (m.callHandler engine wch).1.enter engine .dcsIgnore).state.InDcs
    have hcall : (m.callHandler engine wch).1.state = m.state := by
      unfold callHandler
      cases m.dcsStringHandler with
      | none => rfl
      | some handler => rfl
    split
    · rwa [hcall]
    · exact .inr (.inl (enter_state ..))
  | _ => exact ha.elim

lemma performAll_inDcs {actions : List Action} (h : ∀ a ∈ actions, a.IsDcs) (hm : m.state.InDcs) :
    (m.performAll engine actions).state.InDcs := by
  induction actions generalizing m with
  | nil => exact hm
  | cons a actions ih =>
    exact ih (fun a ha => h a (List.mem_cons_of_mem _ ha)) (perform_inDcs (h a (List.mem_cons_self ..)) hm)

lemma step_inDcs (hw : Stays wch) (hm : m.state.InDcs) : (m.step engine (.character wch)).state.InDcs := by
  rw [step_stays hw]
  exact performAll_inDcs (event_isDcs _ _ wch hm) hm

/-- The same step, with the run at the end. -/
lemma step_eq (hw : Stays wch) (hm : m.state.InDcs) {actions : List Action}
    (h : event engine.isEngineForInput m.parserMode wch m.state = actions) :
    m.step engine (.character wch) = { m.performAll engine actions with currentRun := m.currentRun ++ [wch] } := by
  subst h
  rw [step_stays hw, performAll_withRun (event_isDcs _ _ wch hm)]

lemma Alike.step (h : Alike m m') (hw : Stays wch) (hm : m.state.InDcs) :
    Alike (m.step engine (.character wch)) (m'.step engine (.character wch)) := by
  obtain ⟨run, rfl⟩ := h
  have hstep := @step_eq engine { m with currentRun := run } wch hw hm _ rfl
  rw [step_eq hw hm rfl, hstep, performAll_withRun (event_isDcs _ _ wch hm) m run]
  exact ⟨_, rfl⟩

/-- A control character is ignored everywhere but in `dcsParam`, and behind the header. -/
lemma step_control (hw : isControl wch = true)
    (hm : m.state = .dcsEntry ∨ m.state = .dcsIntermediate ∨ m.state = .dcsIgnore) :
    Alike m (m.step engine (.character wch)) := by
  have hevent : event engine.isEngineForInput m.parserMode wch m.state = [] := by
    rcases hm with hm | hm | hm
    · rw [hm]
      show eventDcsEntry wch = []
      unfold eventDcsEntry
      rcases Bool.or_eq_true _ _ |>.mp hw with h | h
      · rw [if_pos h]
      · rw [if_pos h, ite_self]
    · rw [hm]
      show eventDcsIntermediate wch = []
      unfold eventDcsIntermediate
      rcases Bool.or_eq_true _ _ |>.mp hw with h | h
      · rw [if_pos h]
      · rw [if_pos h, ite_self]
    · rw [hm]
      rfl
  rw [step_stays (stays_of_isControl hw), hevent]
  exact ⟨_, rfl⟩

/-- Behind the header no dispatch follows. -/
lemma step_settled (hw : Stays wch) (hm : m.state = .dcsIgnore ∨ m.state = .dcsPassThrough) :
    dcsDispatches (m.step engine (.character wch)).calls = dcsDispatches m.calls ∧
      ((m.step engine (.character wch)).state = .dcsIgnore ∨
        (m.step engine (.character wch)).state = .dcsPassThrough) := by
  have hevent : event engine.isEngineForInput m.parserMode wch m.state = [] ∨
      m.state = .dcsPassThrough ∧ event engine.isEngineForInput m.parserMode wch m.state = [.dcsString wch] := by
    rcases hm with hm | hm
    · rw [hm]
      exact .inl rfl
    · rw [hm]
      show eventDcsPassThrough wch = [] ∨ _ ∧ eventDcsPassThrough wch = _
      unfold eventDcsPassThrough
      split
      · exact .inr ⟨rfl, rfl⟩
      · exact .inl rfl
  rcases hevent with hevent | ⟨hpass, hevent⟩
  · rw [step_eq hw (.inr hm) hevent]
    exact ⟨rfl, hm⟩
  · rw [step_eq hw (.inr hm) hevent]
    show dcsDispatches (m.perform engine (.dcsString wch)).calls = _ ∧
      ((m.perform engine (.dcsString wch)).state = _ ∨ (m.perform engine (.dcsString wch)).state = _)
    have hcall : dcsDispatches (m.callHandler engine wch).1.calls = dcsDispatches m.calls ∧
        (m.callHandler engine wch).1.state = m.state := by
      unfold callHandler
      cases m.dcsStringHandler with
      | none => exact ⟨rfl, rfl⟩
      | some handler => exact ⟨by simp [dcsDispatches, call, EngineCall.isDcsDispatch], rfl⟩
    unfold perform
    dsimp only
    split
    · exact ⟨hcall.1, .inr (hcall.2.trans hpass)⟩
    · exact ⟨hcall.1, .inl rfl⟩

/-- What a character of the header does in front of the final. -/
inductive Collected (wch : UInt16) (m m' : StateMachine) : Prop
  | invalid (hwch : isParam wch = true → m.state = .dcsIntermediate) (hstate : m'.state = .dcsIgnore)
  | intermediate (hwch : isParam wch = false) (hbyte : wch.toNat ≤ 0x2f) (hstate : m'.state = .dcsIntermediate)
      (hidentifier : m'.identifier = m.identifier.addIntermediate wch)
  | param (hwch : isParam wch = true) (hprior : m.state ≠ .dcsIntermediate) (hstate : m'.state = .dcsParam)
      (hidentifier : m'.identifier = m.identifier)

lemma step_collected (hm : m.state.CollectsDcs) (hw : isHeaderChar wch = true)
    (hfirst : m.state = .dcsEntry → isCsiPrivateMarker wch = false) :
    (m.step engine (.character wch)).calls = m.calls ∧ Collected wch m (m.step engine (.character wch)) := by
  have hstays := stays_of_isHeaderChar hw
  have hspec (actions : List Action) (hcase : HeaderEvent wch m.state actions) :
      (m.performAll engine actions).calls = m.calls ∧ Collected wch m (m.performAll engine actions) := by
    cases hcase with
    | invalid hs => exact ⟨rfl, .invalid hs rfl⟩
    | collect hbyte hparam hs => exact ⟨rfl, .intermediate hparam hbyte hs rfl⟩
    | collectEnter hbyte hparam => exact ⟨rfl, .intermediate hparam hbyte rfl rfl⟩
    | param hparam hs =>
      exact ⟨(actionParam_rest m wch).2.1, .param hparam (by rw [hs]; decide)
        ((actionParam_rest m wch).1.trans hs) (actionParam_identifier m wch)⟩
    | paramEnter hparam hs =>
      exact ⟨(actionParam_rest m wch).2.1, .param hparam (by rw [hs]; decide) rfl (actionParam_identifier m wch)⟩
  have hstep := @step_eq engine m wch hstays (.inl hm) _ rfl
  obtain ⟨hcalls, hcollected⟩ := hspec _ (event_header engine.isEngineForInput m.parserMode hm hw hfirst)
  rw [hstep]
  refine ⟨hcalls, ?_⟩
  cases hcollected with
  | invalid hwch hstate => exact .invalid hwch hstate
  | intermediate hwch hbyte hstate hidentifier => exact .intermediate hwch hbyte hstate hidentifier
  | param hwch hprior hstate hidentifier => exact .param hwch hprior hstate hidentifier

/-- A final of the header. -/
lemma step_final (hm : m.state.CollectsDcs) (hw : isPlain wch = true)
    (hends : 0x40 ≤ wch.toNat ∨ m.state = .dcsEntry ∧ isCsiPrivateMarker wch = true) :
    m.step engine (.character wch) = { m.actionDcsDispatch engine wch with currentRun := m.currentRun ++ [wch] } := by
  refine @step_eq engine m wch (stays_of_isPlain hw) (.inl hm) [.dcsDispatch wch] ?_
  obtain ⟨hlow, hdelete, -⟩ := isPlain_bounds hw
  obtain ⟨hc0, hdelete⟩ := tests_of_not_isControl (not_isControl hlow hdelete)
  rcases hends with hhigh | ⟨hentry, hmarker⟩
  · obtain ⟨hparam, hsub, hintermediate, hinvalid, hmarker⟩ := not_headerChar hhigh
    rcases hm with hm | hm | hm
    · rw [hm]
      show eventDcsEntry wch = _
      unfold eventDcsEntry
      rw [hc0, hdelete, hsub, show (isNumericParamValue wch || isParameterDelimiter wch) = false from hparam,
        hintermediate]
      rfl
    · rw [hm]
      show eventDcsParam wch = _
      unfold eventDcsParam
      rw [show (isNumericParamValue wch || isParameterDelimiter wch) = false from hparam, hintermediate,
        show isParameterInvalid wch = false from hmarker, hsub]
      rfl
    · rw [hm]
      show eventDcsIntermediate wch = _
      unfold eventDcsIntermediate
      rw [hc0, hdelete, hintermediate, hinvalid]
      rfl
  · rw [hentry]
    simp only [isCsiPrivateMarker, Bool.or_eq_true, beq_iff_eq] at hmarker
    rcases hmarker with ((rfl | rfl) | rfl) | rfl
    · rfl
    · rfl
    · rfl
    · rfl

/-- The defect: in `dcsParam` a control character is taken for the final. -/
lemma step_broken (hm : m.state = .dcsParam) (hw : isControl wch = true) :
    m.step engine (.character wch) = { m.actionDcsDispatch engine wch with currentRun := m.currentRun ++ [wch] } := by
  refine @step_eq engine m wch (stays_of_isControl hw) (.inl (.inr (.inl hm))) [.dcsDispatch wch] ?_
  obtain ⟨hparam, hintermediate, hmarker, hsub⟩ := control_tests hw
  rw [hm]
  show eventDcsParam wch = _
  unfold eventDcsParam
  rw [show (isNumericParamValue wch || isParameterDelimiter wch) = false from hparam, hintermediate,
    show isParameterInvalid wch = false from hmarker, hsub]
  rfl

/-! ### Runs -/

/-- Characters one after the other. -/
def read (engine : Engine) (m : StateMachine) (string : List UInt16) : StateMachine :=
  m.steps engine (string.map .character)

lemma read_cons (wch : UInt16) (string : List UInt16) :
    read engine m (wch :: string) = read engine (m.step engine (.character wch)) string := rfl

lemma read_append (string string' : List UInt16) :
    read engine m (string ++ string') = read engine (read engine m string) string' := by
  rw [read, List.map_append, steps_append]
  rfl

lemma read_inDcs {string : List UInt16} (hs : ∀ wch ∈ string, Stays wch) (hm : m.state.InDcs) :
    (read engine m string).state.InDcs := by
  induction string generalizing m with
  | nil => exact hm
  | cons wch string ih =>
    rw [read_cons]
    exact ih (fun wch h => hs wch (List.mem_cons_of_mem _ h)) (step_inDcs (hs wch (List.mem_cons_self ..)) hm)

lemma Alike.read (h : Alike m m') {string : List UInt16} (hs : ∀ wch ∈ string, Stays wch) (hm : m.state.InDcs) :
    Alike (Parser.read engine m string) (Parser.read engine m' string) := by
  induction string generalizing m m' with
  | nil => exact h
  | cons wch string ih =>
    have hw := hs wch (List.mem_cons_self ..)
    rw [read_cons, read_cons]
    exact ih (h.step hw hm) (fun wch h => hs wch (List.mem_cons_of_mem _ h)) (step_inDcs hw hm)

lemma Alike.state (h : Alike m m') : m'.state = m.state := by
  obtain ⟨run, rfl⟩ := h
  rfl

lemma Alike.calls (h : Alike m m') : m'.calls = m.calls := by
  obtain ⟨run, rfl⟩ := h
  rfl

lemma Alike.identifier (h : Alike m m') : m'.identifier = m.identifier := by
  obtain ⟨run, rfl⟩ := h
  rfl

lemma read_settled {string : List UInt16} (hs : ∀ wch ∈ string, Stays wch)
    (hm : m.state = .dcsIgnore ∨ m.state = .dcsPassThrough) :
    dcsDispatches (read engine m string).calls = dcsDispatches m.calls := by
  induction string generalizing m with
  | nil => rfl
  | cons wch string ih =>
    obtain ⟨hcalls, hstate⟩ := @step_settled engine m wch (hs wch (List.mem_cons_self ..)) hm
    rw [read_cons, ih (fun wch h => hs wch (List.mem_cons_of_mem _ h)) hstate, hcalls]

/-- A character of a header with control characters. -/
def Inserted (wch : UInt16) : Prop := isControl wch = true ∨ isHeaderChar wch = true

lemma Inserted.stays (h : Inserted wch) : Stays wch := h.elim stays_of_isControl stays_of_isHeaderChar

/-- The characters without the control characters. -/
def withoutControls (string : List UInt16) : List UInt16 := string.filter (!isControl ·)

lemma withoutControls_stays {string : List UInt16} (hs : ∀ wch ∈ string, Inserted wch) :
    ∀ wch ∈ withoutControls string, Stays wch :=
  fun wch h => (hs wch (List.mem_of_mem_filter h)).stays

lemma withoutControls_control {string : List UInt16} (hw : isControl wch = true) :
    withoutControls (wch :: string) = withoutControls string := by simp [withoutControls, hw]

lemma withoutControls_other {string : List UInt16} (hw : isControl wch = false) :
    withoutControls (wch :: string) = wch :: withoutControls string := by simp [withoutControls, hw]

/-- A control character that is ignored, in front of the rest. -/
lemma skip_control {string : List UInt16} (hw : isControl wch = true) (hs : ∀ wch ∈ string, Inserted wch)
    (hm : m.state = .dcsEntry ∨ m.state = .dcsIntermediate ∨ m.state = .dcsIgnore)
    (ih : Alike (read engine (m.step engine (.character wch)) string)
      (read engine (m.step engine (.character wch)) (withoutControls string))) :
    Alike (read engine m (wch :: string)) (read engine m (withoutControls (wch :: string))) := by
  have halike := @step_control engine m wch hw hm
  have hstate : (m.step engine (.character wch)).state.InDcs := by
    rw [halike.state]
    rcases hm with hm | hm | hm
    · rw [hm]
      exact .inl (by decide)
    · rw [hm]
      exact .inl (by decide)
    · exact .inr (.inl hm)
  rw [withoutControls_control hw, read_cons]
  exact ih.trans (halike.symm.read (withoutControls_stays hs) hstate)

/-- Behind an intermediate or an invalid character, all control characters are ignored. -/
lemma ignored_late {string : List UInt16} (hs : ∀ wch ∈ string, Inserted wch)
    (hm : m.state = .dcsIntermediate ∨ m.state = .dcsIgnore) :
    Alike (read engine m string) (read engine m (withoutControls string)) := by
  induction string generalizing m with
  | nil => exact .refl m
  | cons wch string ih =>
    have hrest : ∀ wch ∈ string, Inserted wch := fun wch h => hs wch (List.mem_cons_of_mem _ h)
    by_cases hw : isControl wch = true
    · refine skip_control hw hrest (.inr hm) (ih hrest ?_)
      rwa [(step_control hw (.inr hm)).state]
    · have hheader := (hs wch (List.mem_cons_self ..)).resolve_left hw
      rw [withoutControls_other (Bool.eq_false_iff.mpr hw), read_cons, read_cons]
      refine ih hrest ?_
      rcases hm with hm | hm
      · obtain ⟨-, hcollected⟩ := @step_collected engine m wch (.inr (.inr hm)) hheader
          (fun h => nomatch hm.symm.trans h)
        cases hcollected with
        | invalid hwch hstate => exact .inr hstate
        | intermediate hwch hbyte hstate hidentifier => exact .inl hstate
        | param hwch hprior hstate hidentifier => exact absurd hm hprior
      · right
        have hstep := @step_eq engine m wch (stays_of_isHeaderChar hheader) (.inr (.inl hm)) [] (by rw [hm]; rfl)
        rw [hstep]
        exact hm

/-- The parameter and control characters in front. -/
def paramRun (string : List UInt16) : List UInt16 := string.takeWhile fun wch => isControl wch || isParam wch

lemma paramRun_other {string : List UInt16} (hw : isControl wch = false) (hparam : isParam wch = false) :
    paramRun (wch :: string) = [] := by simp [paramRun, hw, hparam]

lemma paramRun_cons {string : List UInt16} (hw : isControl wch = true ∨ isParam wch = true) :
    paramRun (wch :: string) = wch :: paramRun string := by
  have hrun : (isControl wch || isParam wch) = true := by simpa using hw
  simp [paramRun, hrun]

lemma paramRun_dropWhile {string : List UInt16} (hw : ¬isControl wch = true) :
    (paramRun (wch :: string)).dropWhile isControl = paramRun (wch :: string) := by
  by_cases hparam : isParam wch = true
  · rw [paramRun_cons (.inr hparam), List.dropWhile_cons_of_neg hw]
  · rw [paramRun_other (Bool.eq_false_iff.mpr hw) (Bool.eq_false_iff.mpr hparam)]
    rfl

/-- Among parameter characters there is no control character. -/
lemma ignored_param {string : List UInt16} (hs : ∀ wch ∈ string, Inserted wch)
    (hm : m.state = .dcsEntry ∨ m.state = .dcsParam)
    (hfirst : m.state = .dcsEntry → ∀ wch ∈ string.head?, isCsiPrivateMarker wch = false)
    (hclean : ∀ wch ∈ paramRun string, isControl wch = false) :
    Alike (read engine m string) (read engine m (withoutControls string)) := by
  induction string generalizing m with
  | nil => exact .refl m
  | cons wch string ih =>
    have hrest : ∀ wch ∈ string, Inserted wch := fun wch h => hs wch (List.mem_cons_of_mem _ h)
    have hw : isControl wch = false := by
      by_contra hcontrol
      rw [Bool.not_eq_false] at hcontrol
      have hhead := hclean wch (by rw [paramRun_cons (.inl hcontrol)]; exact List.mem_cons_self ..)
      exact Bool.false_ne_true (hhead.symm.trans hcontrol)
    have hheader := (hs wch (List.mem_cons_self ..)).resolve_left (by rw [hw]; exact Bool.false_ne_true)
    obtain ⟨-, hcollected⟩ := @step_collected engine m wch (hm.imp_right .inl) hheader
      (fun h => hfirst h wch rfl)
    rw [withoutControls_other hw, read_cons, read_cons]
    cases hcollected with
    | invalid hwch hstate => exact ignored_late hrest (.inr hstate)
    | intermediate hwch hbyte hstate hidentifier => exact ignored_late hrest (.inl hstate)
    | param hwch hprior hstate hidentifier =>
      refine ih hrest (.inr hstate) (fun h => nomatch hstate.symm.trans h) fun c hc => hclean c ?_
      rw [paramRun_cons (.inr hwch)]
      exact List.mem_cons_of_mem _ hc

lemma ignored_entry {string : List UInt16} (hs : ∀ wch ∈ string, Inserted wch) (hm : m.state = .dcsEntry)
    (hfirst : ∀ wch ∈ (withoutControls string).head?, isCsiPrivateMarker wch = false)
    (hclean : ParamsUnbroken string) : Alike (read engine m string) (read engine m (withoutControls string)) := by
  induction string generalizing m with
  | nil => exact .refl m
  | cons wch string ih =>
    change ∀ c ∈ (paramRun (wch :: string)).dropWhile isControl, isControl c = false at hclean
    by_cases hw : isControl wch = true
    · have hrest : ∀ wch ∈ string, Inserted wch := fun wch h => hs wch (List.mem_cons_of_mem _ h)
      rw [withoutControls_control hw] at hfirst
      rw [paramRun_cons (.inl hw), List.dropWhile_cons_of_pos hw] at hclean
      refine skip_control hw hrest (.inl hm) (ih hrest ?_ hfirst hclean)
      rw [(step_control hw (.inl hm)).state, hm]
    · rw [withoutControls_other (Bool.eq_false_iff.mpr hw)] at hfirst
      rw [paramRun_dropWhile hw] at hclean
      exact ignored_param hs (.inl hm) (fun _ => hfirst) hclean

/-! ### A control character that is taken for the final -/

/-- The dispatch of a control character; what follows is data. -/
lemma broken_here {rest : List UInt16} (hw : isControl wch = true) (hm : m.state = .dcsParam)
    (hrest : ∀ wch ∈ rest, Stays wch) :
    dcsDispatches (read engine m (wch :: rest)).calls =
      dcsDispatches m.calls ++ [.dcsDispatch (m.identifier.finalize wch) m.parameters] := by
  obtain ⟨hcalls, hstate⟩ := @actionDcsDispatch_spec engine m wch
  have hstep := @step_broken engine m wch hm hw
  have hstate' : (m.step engine (.character wch)).state = .dcsIgnore ∨
      (m.step engine (.character wch)).state = .dcsPassThrough := by
    rw [hstep]
    exact hstate
  rw [read_cons, read_settled hrest hstate', hstep]
  show dcsDispatches (m.actionDcsDispatch engine wch).calls = _
  rw [hcalls, dcsDispatches, List.filter_append]
  rfl

/-- The first dispatch has a control character as its identifier. -/
def DispatchesControl (before after : List EngineCall) : Prop :=
  ∃ wch parameters, isControl wch = true ∧
    dcsDispatches after = dcsDispatches before ++ [.dcsDispatch (VTIDBuilder.finalize {} wch) parameters]

lemma broken_param {string rest : List UInt16} (hs : ∀ wch ∈ string, Inserted wch)
    (hrest : ∀ wch ∈ rest, Stays wch) (hm : m.state = .dcsEntry ∨ m.state = .dcsParam) (hidentifier : m.identifier = {})
    (hfirst : m.state = .dcsEntry → ∀ wch ∈ string.head?, isControl wch = false ∧ isCsiPrivateMarker wch = false)
    (hbroken : ∃ wch ∈ paramRun string, isControl wch = true) :
    DispatchesControl m.calls (read engine m (string ++ rest)).calls := by
  induction string generalizing m with
  | nil =>
    obtain ⟨wch, hwch, -⟩ := hbroken
    cases hwch
  | cons wch string ih =>
    have htail : ∀ wch ∈ string, Inserted wch := fun wch h => hs wch (List.mem_cons_of_mem _ h)
    by_cases hw : isControl wch = true
    · refine ⟨wch, m.parameters, hw, ?_⟩
      rw [← hidentifier]
      have hparam := hm.resolve_left fun h => Bool.false_ne_true ((hfirst h wch rfl).1.symm.trans hw)
      refine broken_here hw hparam fun c hc => ?_
      exact (List.mem_append.mp hc).elim (fun h => (htail c h).stays) (hrest c)
    · have hheader := (hs wch (List.mem_cons_self ..)).resolve_left hw
      obtain ⟨c, hc, hcontrol⟩ := hbroken
      by_cases hparam : isParam wch = true
      · rw [paramRun_cons (.inr hparam)] at hc
        have hmem : c ∈ paramRun string := by
          refine (List.mem_cons.mp hc).resolve_left ?_
          rintro rfl
          exact hw hcontrol
        obtain ⟨hcalls, hcollected⟩ := @step_collected engine m wch (hm.imp_right .inl) hheader
          (fun h => (hfirst h wch rfl).2)
        rw [List.cons_append, read_cons, ← hcalls]
        cases hcollected with
        | invalid hwch hstate =>
          have hstate' := hwch hparam
          rcases hm with hm | hm
          · exact nomatch hm.symm.trans hstate'
          · exact nomatch hm.symm.trans hstate'
        | intermediate hwch hbyte hstate hsame => exact absurd (hwch.symm.trans hparam) Bool.false_ne_true
        | param hwch hprior hstate hsame =>
          exact ih htail (.inr hstate) (hsame.trans hidentifier) (fun h => nomatch hstate.symm.trans h)
            ⟨c, hmem, hcontrol⟩
      · rw [paramRun_other (Bool.eq_false_iff.mpr hw) (Bool.eq_false_iff.mpr hparam)] at hc
        cases hc

lemma broken_entry {string rest : List UInt16} (hs : ∀ wch ∈ string, Inserted wch)
    (hrest : ∀ wch ∈ rest, Stays wch) (hm : m.state = .dcsEntry) (hidentifier : m.identifier = {})
    (hfirst : ∀ wch ∈ (withoutControls string).head?, isCsiPrivateMarker wch = false)
    (hbroken : ¬ ParamsUnbroken string) : DispatchesControl m.calls (read engine m (string ++ rest)).calls := by
  have hbroken : ∃ wch ∈ (paramRun string).dropWhile isControl, isControl wch = true := by
    unfold ParamsUnbroken at hbroken
    push Not at hbroken
    simpa [paramRun] using hbroken
  induction string generalizing m with
  | nil =>
    obtain ⟨wch, hwch, -⟩ := hbroken
    cases hwch
  | cons wch string ih =>
    by_cases hw : isControl wch = true
    · have htail : ∀ wch ∈ string, Inserted wch := fun wch h => hs wch (List.mem_cons_of_mem _ h)
      obtain ⟨c, hc, hcontrol⟩ := hbroken
      have halike := @step_control engine m wch hw (.inl hm)
      rw [withoutControls_control hw] at hfirst
      rw [paramRun_cons (.inl hw), List.dropWhile_cons_of_pos hw] at hc
      rw [List.cons_append, read_cons, ← halike.calls]
      have hbroken' : ¬ ParamsUnbroken string := fun h => Bool.false_ne_true ((h c hc).symm.trans hcontrol)
      exact ih htail (halike.state.trans hm) (halike.identifier.trans hidentifier) hfirst hbroken' ⟨c, hc, hcontrol⟩
    · have hplain := Bool.eq_false_iff.mpr hw
      rw [withoutControls_other hplain] at hfirst
      rw [paramRun_dropWhile hw] at hbroken
      refine broken_param hs hrest (.inl hm) hidentifier (fun _ c hc => ⟨?_, hfirst c hc⟩) hbroken
      rwa [← Option.some.inj hc]

/-! ### The identifier of a header -/

/-- An identifier under construction: at most six bytes of intermediates. -/
def IdFits (b : VTIDBuilder) : Prop := ∃ n ≤ 6, b.idShift = 8 * n ∧ b.idAccumulator.toNat < 2 ^ (8 * n)

lemma shifted {wch : UInt16} {n : ℕ} (hn : n ≤ 6) :
    (wch.toUInt64 <<< UInt64.ofNat (8 * n)).toNat = wch.toNat * 2 ^ (8 * n) := by
  have hwch := wch.toNat_lt
  have hpow : 2 ^ (8 * n) ≤ 2 ^ 48 := Nat.pow_le_pow_right (by omega) (by omega)
  have hsmall : (UInt64.ofNat (8 * n)).toNat = 8 * n := UInt64.toNat_ofNat_of_lt' (by
    show 8 * n < 2 ^ 64
    omega)
  have hfits : wch.toNat * 2 ^ (8 * n) < 2 ^ 64 := by
    calc wch.toNat * 2 ^ (8 * n) ≤ wch.toNat * 2 ^ 48 := Nat.mul_le_mul_left _ hpow
      _ < 2 ^ 64 := by omega
  rw [UInt64.toNat_shiftLeft, hsmall, Nat.mod_eq_of_lt (by omega : 8 * n < 64), Nat.shiftLeft_eq,
    UInt16.toNat_toUInt64, Nat.mod_eq_of_lt hfits]

lemma IdFits.addIntermediate {b : VTIDBuilder} (hb : IdFits b) (hbyte : wch.toNat ≤ 0x2f) :
    IdFits (b.addIntermediate wch) := by
  obtain ⟨n, hn, hshift, hacc⟩ := hb
  unfold VTIDBuilder.addIntermediate
  split
  · exact ⟨n, hn, hshift, Nat.pow_pos (by decide)⟩
  · have hn' : n + 1 ≤ 6 := by omega
    refine ⟨n + 1, hn', by rw [hshift]; rfl, ?_⟩
    have hpow : 2 ^ (8 * n) ≤ 2 ^ 48 := Nat.pow_le_pow_right (by omega) (by omega)
    have hnext : 2 ^ (8 * (n + 1)) = 256 * 2 ^ (8 * n) := by
      rw [Nat.mul_add, Nat.pow_add, Nat.mul_comm]
    have hadded : wch.toNat * 2 ^ (8 * n) ≤ 0x2f * 2 ^ (8 * n) := Nat.mul_le_mul_right _ hbyte
    show (b.idAccumulator + wch.toUInt64 <<< UInt64.ofNat b.idShift).toNat < _
    rw [UInt64.toNat_add, hshift, shifted hn, hnext]
    generalize 2 ^ (8 * n) = p at *
    generalize wch.toNat * p = q at *
    omega

/-- An identifier that has kept all its intermediates. -/
def KeepsAll (b : VTIDBuilder) (count : ℕ) : Prop :=
  b.idShift = 8 * count ∧ (0 < count → 0x20 * 2 ^ (8 * (count - 1)) ≤ b.idAccumulator.toNat)

lemma KeepsAll.addIntermediate {b : VTIDBuilder} {count : ℕ} (hb : KeepsAll b count) (hfits : IdFits b)
    (hcount : count < 6) (hlow : 0x20 ≤ wch.toNat) (hbyte : wch.toNat ≤ 0x2f) :
    KeepsAll (b.addIntermediate wch) (count + 1) := by
  obtain ⟨n, hn, hshift, hacc⟩ := hfits
  obtain rfl : n = count := by
    have := hb.1
    omega
  unfold VTIDBuilder.addIntermediate
  rw [if_neg (by omega)]
  refine ⟨by show b.idShift + 8 = _; omega, fun _ => ?_⟩
  have hpow : 2 ^ (8 * n) ≤ 2 ^ 40 := Nat.pow_le_pow_right (by omega) (by omega)
  have hadded : wch.toNat * 2 ^ (8 * n) ≤ 0x2f * 2 ^ (8 * n) := Nat.mul_le_mul_right _ hbyte
  have hleast : 0x20 * 2 ^ (8 * n) ≤ wch.toNat * 2 ^ (8 * n) := Nat.mul_le_mul_right _ hlow
  show _ ≤ (b.idAccumulator + wch.toUInt64 <<< UInt64.ofNat b.idShift).toNat
  rw [UInt64.toNat_add, hshift, shifted hn, Nat.add_sub_cancel]
  generalize 2 ^ (8 * n) = p at *
  generalize wch.toNat * p = q at *
  omega

lemma toVTID_toNat (value : UInt64) : (VTIDBuilder.toVTID value).toNat = value.toNat % 2 ^ 56 := by
  unfold VTIDBuilder.toVTID
  rw [UInt64.toNat_and]
  exact Nat.and_two_pow_sub_one_eq_mod value.toNat 56

/-- An identifier is not that of a control character, unless all that is left of it is the low byte of the final. -/
lemma IdFits.finalize {b : VTIDBuilder} (hb : IdFits b) {final : UInt16} (hlow : 0x3c ≤ final.toNat)
    (hdelete : final ≠ 0x7f) (hexact : final.toNat % 256 ≠ 0 ∨ ∃ count, KeepsAll b count)
    {c : UInt16} (hc : isControl c = true) :
    b.finalize final ≠ VTIDBuilder.finalize {} c := by
  intro heq
  have hcontrol : (VTIDBuilder.finalize {} c).toNat = c.toNat := by
    have hc' := c.toNat_lt
    show (VTIDBuilder.toVTID ((0 : UInt64) + c.toUInt64 <<< UInt64.ofNat (8 * 0))).toNat = _
    rw [toVTID_toNat, UInt64.zero_add, shifted (by omega), Nat.mul_zero, Nat.pow_zero, Nat.mul_one]
    omega
  obtain ⟨n, hn, hshift, hacc⟩ := hb
  have hfinal : (b.finalize final).toNat = (b.idAccumulator.toNat + final.toNat * 2 ^ (8 * n)) % 2 ^ 56 := by
    have hbound := final.toNat_lt
    have hpow : 2 ^ (8 * n) ≤ 2 ^ 48 := Nat.pow_le_pow_right (by omega) (by omega)
    have hadded : final.toNat * 2 ^ (8 * n) ≤ 65535 * 2 ^ (8 * n) := Nat.mul_le_mul_right _ (by omega)
    unfold VTIDBuilder.finalize
    rw [toVTID_toNat, UInt64.toNat_add, hshift, shifted hn]
    generalize 2 ^ (8 * n) = p at *
    generalize final.toNat * p = q at *
    omega
  have hsame : (b.idAccumulator.toNat + final.toNat * 2 ^ (8 * n)) % 2 ^ 56 = c.toNat := by
    rw [← hfinal, heq, hcontrol]
  have hbound := final.toNat_lt
  have hc' : c.toNat ≤ 0x7f := by
    rcases isControl_bounds hc with ⟨h, -⟩ | rfl
    · omega
    · decide
  have hcases : n = 0 ∨ n = 1 ∨ n = 2 ∨ n = 3 ∨ n = 4 ∨ n = 5 ∨ n = 6 := by omega
  rcases hcases with rfl | rfl | rfl | rfl | rfl | rfl | rfl
  · -- Without intermediates the identifier is the final itself.
    rw [Nat.mul_zero, Nat.pow_zero] at hacc hsame
    rcases isControl_bounds hc with ⟨h, -⟩ | rfl
    · omega
    · refine hdelete (UInt16.toNat_inj.mp ?_)
      have hvalue : (0x7f : UInt16).toNat = 127 := rfl
      omega
  · omega
  · omega
  · omega
  · omega
  · omega
  · -- Only the low byte of the final is left of it.
    rcases hexact with hbyte | ⟨count, hcount, hleast⟩
    · omega
    · obtain rfl : count = 6 := by omega
      have hleast := hleast (by decide)
      omega

/-! ### The dispatch of a header without control characters -/

/-- No dispatch, or one whose identifier is not that of a control character. -/
def DispatchesFinal (before after : List EngineCall) : Prop :=
  dcsDispatches after = dcsDispatches before ∨
    ∃ id parameters, dcsDispatches after = dcsDispatches before ++ [.dcsDispatch id parameters] ∧
      ∀ c, isControl c = true → id ≠ VTIDBuilder.finalize {} c

lemma dispatchesFinal_of {body : List UInt16} {final : UInt16} (hbody : ∀ wch ∈ body, isHeaderChar wch = true)
    (hfirst : m.state = .dcsEntry → ∀ wch ∈ body.head?, isCsiPrivateMarker wch = false)
    (hplain : isPlain final = true)
    (hexact : final.toNat % 256 ≠ 0 ∨
      ∃ count, KeepsAll m.identifier count ∧ count + (body.filter isIntermediate).length ≤ 6)
    (hends : 0x40 ≤ final.toNat ∨ m.state = .dcsEntry ∧ body = [] ∧ isCsiPrivateMarker final = true)
    (hm : m.state.CollectsDcs) (hidentifier : IdFits m.identifier) :
    DispatchesFinal m.calls (read engine m (body ++ [final])).calls := by
  induction body generalizing m with
  | nil =>
    right
    have hends' := hends.imp id fun h => And.intro h.1 h.2.2
    have hlow : 0x3c ≤ final.toNat := by
      rcases hends with h | ⟨-, -, h⟩
      · omega
      · simp only [isCsiPrivateMarker, Bool.or_eq_true, beq_iff_eq] at h
        rcases h with ((rfl | rfl) | rfl) | rfl <;> decide
    have hdispatch := @actionDcsDispatch_spec engine m final
    refine ⟨m.identifier.finalize final, m.parameters, ?_, fun c hc => ?_⟩
    swap
    · exact hidentifier.finalize hlow (isPlain_bounds hplain).2.1
        (hexact.imp id fun ⟨count, hkeeps, _⟩ => ⟨count, hkeeps⟩) hc
    show dcsDispatches (m.step engine (.character final)).calls = _
    rw [step_final hm hplain hends']
    show dcsDispatches (m.actionDcsDispatch engine final).calls = _
    rw [hdispatch.1, dcsDispatches, List.filter_append]
    rfl
  | cons wch body ih =>
    have hw := hbody wch (List.mem_cons_self ..)
    have hrest : ∀ wch ∈ body, isHeaderChar wch = true := fun wch h => hbody wch (List.mem_cons_of_mem _ h)
    obtain ⟨hcalls, hcollected⟩ := @step_collected engine m wch hm hw fun h => hfirst h wch rfl
    have hends' : 0x40 ≤ final.toNat := hends.resolve_right fun h => List.cons_ne_nil _ _ h.2.1
    have hlater {s : VTState} (hstate : (m.step engine (.character wch)).state = s) (hs : s.CollectsDcs)
        (hentry : s ≠ .dcsEntry) (hid : IdFits (m.step engine (.character wch)).identifier)
        (hexact' : final.toNat % 256 ≠ 0 ∨ ∃ count, KeepsAll (m.step engine (.character wch)).identifier count ∧
          count + (body.filter isIntermediate).length ≤ 6) :
        DispatchesFinal m.calls (read engine m (wch :: body ++ [final])).calls := by
      rw [List.cons_append, read_cons, ← hcalls]
      refine ih hrest (fun h => ?_) hexact' (.inl hends') (hstate ▸ hs) hid
      exact absurd (hstate.symm.trans h) hentry
    cases hcollected with
    | invalid hwch hstate =>
      left
      rw [List.cons_append, read_cons, read_settled ?_ (.inl hstate), hcalls]
      intro c hc
      rcases List.mem_append.mp hc with hc | hc
      · exact stays_of_isHeaderChar (hrest c hc)
      · rw [List.mem_singleton.mp hc]
        exact stays_of_isPlain hplain
    | intermediate hwch hlow hstate hsame =>
      refine hlater hstate (by decide) (by decide) (hsame ▸ hidentifier.addIntermediate hlow) ?_
      rcases hexact with hbyte | ⟨count, hkeeps, hcount⟩
      · exact .inl hbyte
      · have hbounds := isHeaderChar_bounds hw
        have hintermediate : isIntermediate wch = true := by
          rw [isIntermediate, Bool.and_eq_true, decide_eq_true_eq, decide_eq_true_eq, UInt16.le_iff_toNat_le,
            UInt16.le_iff_toNat_le]
          exact ⟨hbounds.1, hlow⟩
        rw [List.filter_cons_of_pos hintermediate, List.length_cons] at hcount
        rw [hsame]
        exact .inr ⟨count + 1, hkeeps.addIntermediate hidentifier (by omega) hbounds.1 hlow, by omega⟩
    | param hwch hprior hstate hsame =>
      refine hlater hstate (by decide) (by decide) (hsame ▸ hidentifier) ?_
      rcases hexact with hbyte | ⟨count, hkeeps, hcount⟩
      · exact .inl hbyte
      · have hle : (body.filter isIntermediate).length ≤ ((wch :: body).filter isIntermediate).length :=
          ((List.sublist_cons_self wch body).filter _).length_le
        rw [hsame]
        exact .inr ⟨count, hkeeps, by omega⟩

/-! ### Strings -/

/-- ProcessString reads a header one character after the other, from the entry state on. -/
structure ReadsHeader (engine : Engine) (m : StateMachine) (lead : List UInt16) (t : StateMachine) : Prop where
  state : t.state = .dcsEntry
  identifier : t.identifier = {}
  calls : t.calls = m.calls
  reads : ∀ string ≠ [], (∀ wch ∈ string, Stays wch) →
    ∃ cached, m.processString engine (lead ++ string) = { read engine t string with cachedSequence := cached }

lemma processSequence_cons {string : List UInt16} (h : (m.step engine (.character wch)).state ≠ .ground) :
    processSequence engine (wch :: string) m = processSequence engine string (m.step engine (.character wch)) :=
  if_pos h

lemma processSequence_read {string : List UInt16} (hs : ∀ wch ∈ string, Stays wch) (hm : m.state.InDcs) :
    processSequence engine string m = (read engine m string, []) := by
  induction string generalizing m with
  | nil => rfl
  | cons wch string ih =>
    have hstate := @step_inDcs engine m wch (hs wch (List.mem_cons_self ..)) hm
    have hground : (m.step engine (.character wch)).state ≠ .ground := by
      intro h
      rw [h] at hstate
      exact absurd hstate (by simp [VTState.InDcs, VTState.CollectsDcs])
    rw [processSequence_cons hground]
    exact ih (fun wch h => hs wch (List.mem_cons_of_mem _ h)) hstate

lemma read_currentRun {string : List UInt16} (hs : ∀ wch ∈ string, Stays wch) (hm : m.state.InDcs) :
    (read engine m string).currentRun = m.currentRun ++ string := by
  induction string generalizing m with
  | nil => exact (List.append_nil _).symm
  | cons wch string ih =>
    have hw := hs wch (List.mem_cons_self ..)
    rw [read_cons, ih (fun wch h => hs wch (List.mem_cons_of_mem _ h)) (step_inDcs hw hm),
      step_eq hw hm rfl, List.append_assoc]
    rfl

lemma endOfString_read {t : StateMachine} {string : List UInt16} (ht : t.state = .dcsEntry)
    (hrun : t.currentRun = [] ∨ t.currentRun = [esc, 0x50]) (hne : string ≠ [])
    (hs : ∀ wch ∈ string, Stays wch) :
    ∃ cached, (read engine t string).endOfString engine = { read engine t string with cachedSequence := cached } := by
  obtain ⟨wch, string, rfl⟩ := List.exists_cons_of_ne_nil hne
  have hin : t.state.InDcs := .inl (.inl ht)
  rcases endOfString_cases engine (read engine t (wch :: string)) with h | ⟨-, -, -, hlength, hhead⟩
  · exact h
  · rw [read_currentRun hs hin] at hlength hhead
    rcases hrun with hrun | hrun
    · rw [hrun] at hhead
      exact absurd (Option.some.inj hhead) (hs wch (List.mem_cons_self ..)).esc
    · rw [hrun] at hlength
      simp at hlength

lemma processString_inside {string : List UInt16} (hs : ∀ wch ∈ string, Stays wch) (hm : m.state.InDcs) :
    m.processString engine string = (read engine { m with currentRun := [] } string).endOfString engine := by
  have hground : m.state ≠ .ground := by
    intro h
    rw [h] at hm
    exact absurd hm (by simp [VTState.InDcs, VTState.CollectsDcs])
  have hsequence := @processSequence_read engine { m with currentRun := [] } string hs hm
  have hloop (n : ℕ) (t : StateMachine) : processLoop engine n [] t = t := by
    cases n with
    | zero => rfl
    | succ n => rfl
  unfold processString
  dsimp only
  rw [if_pos hground, hsequence, hloop]

/-- The machine behind ESC P. -/
def behindIntroducer (engine : Engine) (m : StateMachine) : StateMachine :=
  { (m.enter engine .escape).enter engine .dcsEntry with currentRun := [esc, 0x50] }

lemma step_escape (hstate : m.state = .ground) : { m with currentRun := [] }.step engine (.character esc) =
    { m.enter engine .escape with currentRun := [esc] } := by
  show { m with currentRun := [esc] }.processCharacter engine esc = _
  unfold processCharacter processPlain actions
  rw [if_neg (by decide), if_neg (fun h => absurd h.1 (by decide)), if_pos (by simp [hstate]; decide)]
  show ({ m with currentRun := [esc] }.actionInterrupt engine).enter engine .escape = _
  unfold actionInterrupt
  rw [if_neg (by simp [hstate])]
  rfl

lemma processString_introduced {string : List UInt16} (hs : ∀ wch ∈ string, Stays wch)
    (hstate : m.state = .ground) (hansi : m.parserMode.ansi = true) :
    m.processString engine (esc :: 0x50 :: string) =
      (read engine (behindIntroducer engine m) string).endOfString engine := by
  have hescape := @step_escape engine m hstate
  have hintroducer : { m.enter engine .escape with currentRun := [esc] }.step engine (.character 0x50) =
      behindIntroducer engine m := by
    show { m.enter engine .escape with currentRun := [esc, 0x50] }.processCharacter engine 0x50 = _
    unfold processCharacter processPlain actions
    rw [if_neg (by decide), if_neg (fun h => absurd h.1 (by decide)), if_neg (fun h => absurd h.1 (by decide))]
    have hevent : eventEscape engine.isEngineForInput m.parserMode 0x50 = [.enter .dcsEntry] := by
      unfold eventEscape
      rw [hansi]
      cases engine.isEngineForInput <;> rfl
    show performAll engine _ (eventEscape engine.isEngineForInput m.parserMode 0x50) = _
    rw [hevent]
    rfl
  have hsequence : processSequence engine (esc :: 0x50 :: string) { m with currentRun := [] } =
      (read engine (behindIntroducer engine m) string, []) := by
    rw [processSequence_cons (by rw [hescape]; exact fun h => nomatch h), hescape,
      processSequence_cons (by rw [hintroducer]; exact fun h => nomatch h), hintroducer]
    exact processSequence_read hs (.inl (.inl rfl))
  unfold processString
  dsimp only
  rw [if_neg (fun h => h hstate)]
  show endOfString engine (processLoop engine (string.length + 1)
    (processSequence engine (esc :: 0x50 :: string) { m with currentRun := [] }).2
    (processSequence engine (esc :: 0x50 :: string) { m with currentRun := [] }).1) = _
  rw [hsequence]
  rfl

/-- **ProcessString reads the header from the entry state.** -/
lemma AtHeader.reads {lead : List UInt16} (h : AtHeader engine m lead) : ∃ t, ReadsHeader engine m lead t := by
  cases h with
  | entered m =>
    refine ⟨{ m.enter engine .dcsEntry with currentRun := [] }, rfl, rfl, rfl, fun string hne hs => ?_⟩
    rw [List.nil_append, processString_inside hs (.inl (.inl rfl))]
    exact endOfString_read rfl (.inl rfl) hne hs
  | introduced hstate hansi =>
    refine ⟨behindIntroducer engine m, rfl, rfl, rfl, fun string hne hs => ?_⟩
    rw [List.cons_append, List.cons_append, List.nil_append, processString_introduced hs hstate hansi]
    exact endOfString_read rfl (.inr rfl) hne hs

/-! ### The main result -/

/-- **The control characters in a header are ignored when none of them stands among its parameter characters**, and
only then: one that does is dispatched.  `inserted` is the header with them, in front of the final.  Behind more than
six intermediates the identifier is the low byte of the final alone, which may be that of NUL. -/
theorem headerControls_ignored {lead : List UInt16} (hstart : AtHeader engine m lead) {inserted : List UInt16}
    {final : UInt16} (hheader : IsHeader (inserted.filter (!isControl ·)) final) :
    (ParamsUnbroken inserted →
        SameDispatch (m.processString engine (lead ++ inserted.filter (!isControl ·) ++ [final]))
          (m.processString engine (lead ++ inserted ++ [final]))) ∧
      (final.toNat % 256 ≠ 0 ∨ (inserted.filter isIntermediate).length ≤ 6 →
        SameDispatch (m.processString engine (lead ++ inserted.filter (!isControl ·) ++ [final]))
          (m.processString engine (lead ++ inserted ++ [final])) → ParamsUnbroken inserted) := by
  have hinserted : ∀ wch ∈ inserted, Inserted wch := by
    intro wch hwch
    by_cases hw : isControl wch = true
    · exact .inl hw
    · exact .inr (hheader.chars wch (List.mem_filter.mpr ⟨hwch, by simpa using hw⟩))
  have hfinal : ∀ wch ∈ [final], Stays wch := by
    intro wch hwch
    rw [List.mem_singleton.mp hwch]
    exact stays_of_isPlain hheader.plain
  have hstays : ∀ wch ∈ inserted ++ [final], Stays wch := by
    intro wch hwch
    exact (List.mem_append.mp hwch).elim (fun h => (hinserted wch h).stays) (hfinal wch)
  have hstays' : ∀ wch ∈ withoutControls inserted ++ [final], Stays wch := by
    intro wch hwch
    exact (List.mem_append.mp hwch).elim (withoutControls_stays hinserted wch) (hfinal wch)
  obtain ⟨t, ht⟩ := hstart.reads
  obtain ⟨cached, hread⟩ := ht.reads (inserted ++ [final]) (by simp) hstays
  obtain ⟨cached', hread'⟩ := ht.reads (withoutControls inserted ++ [final]) (by simp) hstays'
  have hsame : SameDispatch (m.processString engine (lead ++ inserted.filter (!isControl ·) ++ [final]))
      (m.processString engine (lead ++ inserted ++ [final])) ↔
      SameDispatch (read engine t (withoutControls inserted ++ [final])) (read engine t (inserted ++ [final])) := by
    change SameDispatch (m.processString engine (lead ++ withoutControls inserted ++ [final])) _ ↔ _
    rw [List.append_assoc, List.append_assoc, hread, hread']
    rfl
  rw [hsame]
  refine ⟨fun hclean => ?_, fun hexact hsame => ?_⟩
  · have halike := @ignored_entry engine t inserted hinserted ht.state hheader.first hclean
    have hin : (read engine t inserted).state.InDcs :=
      read_inDcs (fun wch h => (hinserted wch h).stays) (.inl (.inl ht.state))
    have hall := (@Alike.read engine _ _ halike _ hfinal hin).symm
    rw [← read_append, ← read_append] at hall
    exact ⟨hall.state, congrArg dcsDispatches hall.calls⟩
  · by_contra hbroken
    obtain ⟨c, parameters, hc, hcontrol⟩ :=
      broken_entry hinserted hfinal ht.state ht.identifier hheader.first hbroken
    have hcount : ((withoutControls inserted).filter isIntermediate).length ≤
        (inserted.filter isIntermediate).length := (List.filter_sublist.filter _).length_le
    have hexact' : final.toNat % 256 ≠ 0 ∨ ∃ count, KeepsAll t.identifier count ∧
        count + ((withoutControls inserted).filter isIntermediate).length ≤ 6 := by
      refine hexact.imp id fun hsix => ⟨0, ?_, by omega⟩
      rw [ht.identifier]
      exact ⟨rfl, fun h => absurd h (Nat.lt_irrefl 0)⟩
    have hdispatches := @dispatchesFinal_of engine t (withoutControls inserted) final hheader.chars
      (fun _ => hheader.first) hheader.plain hexact' (hheader.ends.imp id fun h => ⟨ht.state, h⟩) (.inl ht.state)
      (by rw [ht.identifier]; exact ⟨0, by decide, rfl, by decide⟩)
    have hcalls := hsame.2
    rw [hcontrol] at hcalls
    rcases hdispatches with hnone | ⟨id, parameters', hone, hid⟩
    · rw [hnone] at hcalls
      exact absurd hcalls (by simp)
    · rw [hone] at hcalls
      have hlast := List.append_cancel_left hcalls
      simp only [List.cons.injEq, EngineCall.dcsDispatch.injEq, and_true] at hlast
      exact hid c hc hlast.1.symm

end Alike

/-- ESC P, a BEL, the parameter 1, the intermediate `$`, a NUL and the final `q`. -/
theorem headerControls_bel :
    let m : StateMachine := { parserMode := ⟨false, true⟩ }
    SameDispatch
      (m.processString acceptingEngine ([esc, 0x50] ++ [0x07, 0x31, 0x24, 0x00].filter (!isControl ·) ++ [0x71]))
      (m.processString acceptingEngine ([esc, 0x50] ++ [0x07, 0x31, 0x24, 0x00] ++ [0x71])) := by
  intro m
  have hheader : IsHeader ([0x07, 0x31, 0x24, 0x00].filter (!isControl ·)) 0x71 := by
    refine ⟨List.all_eq_true.mp rfl, fun wch h => ?_, by decide, .inl (by decide)⟩
    obtain rfl : 0x31 = wch := Option.some.inj h
    rfl
  refine (headerControls_ignored (.introduced rfl rfl) hheader).1 fun wch h => ?_
  obtain rfl | h := List.mem_cons.mp h
  · rfl
  · have hnone : wch ∈ ([] : List UInt16) := h
    cases hnone

/-- The identifier of a dispatch. -/
def dispatchId : EngineCall → Option UInt64
  | .dcsDispatch id _ => some id
  | _ => none

/-- ESC P, the parameter 1, a NUL and the final `q`: the NUL is dispatched as the final. -/
theorem nul_dispatched :
    let m : StateMachine := { parserMode := ⟨false, true⟩ }
    ¬ SameDispatch (m.processString acceptingEngine ([esc, 0x50] ++ [0x31] ++ [0x71]))
      (m.processString acceptingEngine ([esc, 0x50] ++ [0x31, 0x00] ++ [0x71])) := by
  intro m hsame
  exact absurd (congrArg (List.filterMap dispatchId) hsame.2) (by decide)

end VT7.Parser
