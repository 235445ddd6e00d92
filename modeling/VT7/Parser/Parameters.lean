import Mathlib.Data.List.Chain
import VT7.Parser.Reached

/-!
# The parameters of a sequence

The parameters, the sub-parameters and the ranges that tell which sub-parameters belong to a parameter keep
in step with each other, and no value leaves its bounds, in every state the parser reaches in ANSI mode.
-/

namespace VT7.Parser

open StateMachine

/-- A parameter is absent, or it is at most the largest value. -/
def InRange (p : VTParameter) : Prop := ∀ value, p = some value → 0 ≤ value ∧ value ≤ maxParameterValue

/-- The three lists and the counter in step. -/
structure ParamsInStep (m : StateMachine) : Prop where
  count : m.parameters.length ≤ maxParameterCount
  values : ∀ p ∈ m.parameters, InRange p
  subValues : ∀ p ∈ m.subParameters, InRange p
  ranges : m.subParameterRanges.length = m.parameters.length
  first : ∀ r ∈ m.subParameterRanges.head?, r.1 = 0
  contiguous : m.subParameterRanges.IsChain (fun r r' => r.2 = r'.1)
  last : ∀ r ∈ m.subParameterRanges.getLast?, r.2 = m.subParameters.length ∧ r.2 = r.1 + m.subParameterCounter
  sizes : ∀ r ∈ m.subParameterRanges, r.1 ≤ r.2 ∧ r.2 ≤ r.1 + maxSubParameterCount
  room : m.parameters ≠ [] → m.subParameters.length + 6 ≤ 6 * m.parameters.length + m.subParameterCounter
  empty : m.parameters = [] → m.subParameters = [] ∧ m.subParameterCounter = 0
  counter : m.subParameterCounter ≤ maxSubParameterCount

/-! ### Values -/

lemma digit_bounds {wch : UInt16} (h : isNumericParamValue wch = true) :
    0 ≤ (wch.toNat : ℤ) - 0x30 ∧ (wch.toNat : ℤ) - 0x30 ≤ 9 := by
  unfold isNumericParamValue at h
  rw [Bool.and_eq_true, decide_eq_true_eq, decide_eq_true_eq, UInt16.le_iff_toNat_le, UInt16.le_iff_toNat_le] at h
  have hlow : (0x30 : UInt16).toNat = 48 := rfl
  have hhigh : (0x39 : UInt16).toNat = 57 := rfl
  omega

/-- `_AccumulateTo` does not overflow. -/
lemma toVTInt_accumulated {wch : UInt16} (h : isNumericParamValue wch = true) {value : ℤ} (hlow : 0 ≤ value)
    (hhigh : value ≤ maxParameterValue) :
    toVTInt (value * 10 + ((wch.toNat : ℤ) - 0x30)) = value * 10 + ((wch.toNat : ℤ) - 0x30) := by
  have hdigit := digit_bounds h
  unfold maxParameterValue at hhigh
  unfold toVTInt
  rw [Int.bmod_def]
  split <;> omega

lemma accumulateTo_bounds {wch : UInt16} (h : isNumericParamValue wch = true) {value : ℤ} (hlow : 0 ≤ value)
    (hhigh : value ≤ maxParameterValue) :
    0 ≤ accumulateTo wch value ∧ accumulateTo wch value ≤ maxParameterValue := by
  have hdigit := digit_bounds h
  unfold accumulateTo
  dsimp only
  rw [toVTInt_accumulated h hlow hhigh]
  unfold maxParameterValue
  split <;> omega

lemma getD_bounds {p : VTParameter} (h : InRange p) : 0 ≤ p.getD 0 ∧ p.getD 0 ≤ maxParameterValue := by
  cases p with
  | none => exact ⟨Int.le_refl 0, by decide⟩
  | some value => exact h value rfl

lemma accumulate_spec {wch : UInt16} (h : isNumericParamValue wch = true) {parameters : List VTParameter}
    (hne : parameters ≠ []) (hvalues : ∀ p ∈ parameters, InRange p) :
    ∃ parameters', accumulate wch parameters = some parameters' ∧ parameters'.length = parameters.length ∧
      ∀ p ∈ parameters', InRange p := by
  obtain ⟨front, last, rfl⟩ := List.eq_nil_or_concat parameters |>.resolve_left hne
  have hlast := getD_bounds (hvalues last (by simp))
  have hbounds := accumulateTo_bounds h hlast.1 hlast.2
  refine ⟨front ++ [some (accumulateTo wch (last.getD 0))], by simp [accumulate], by simp, fun p hp => ?_⟩
  rcases List.mem_append.mp hp with hp | hp
  · exact hvalues p (by simp [hp])
  · intro value hvalue
    rw [List.mem_singleton.mp hp] at hvalue
    obtain rfl := Option.some.inj hvalue
    exact hbounds

/-! ### The two actions -/

variable {m m' : StateMachine}

/-- The fields of the parameters are the same. -/
structure SameParams (m m' : StateMachine) : Prop where
  parameters : m'.parameters = m.parameters
  subParameters : m'.subParameters = m.subParameters
  subParameterRanges : m'.subParameterRanges = m.subParameterRanges
  subParameterCounter : m'.subParameterCounter = m.subParameterCounter

lemma ParamsInStep.of_same (hm : ParamsInStep m) (h : SameParams m m') : ParamsInStep m' where
  count := h.parameters ▸ hm.count
  values := h.parameters ▸ hm.values
  subValues := h.subParameters ▸ hm.subValues
  ranges := by rw [h.subParameterRanges, h.parameters, hm.ranges]
  first := h.subParameterRanges ▸ hm.first
  contiguous := h.subParameterRanges ▸ hm.contiguous
  last := by
    rw [h.subParameterRanges, h.subParameters, h.subParameterCounter]
    exact hm.last
  sizes := h.subParameterRanges ▸ hm.sizes
  room := by
    rw [h.parameters, h.subParameters, h.subParameterCounter]
    exact hm.room
  empty := by
    rw [h.parameters, h.subParameters, h.subParameterCounter]
    exact hm.empty
  counter := h.subParameterCounter ▸ hm.counter

lemma ParamsInStep.length_lt (hm : ParamsInStep m) : m.subParameters.length < 256 := by
  have hcount := hm.count
  have hcounter := hm.counter
  unfold maxParameterCount at hcount
  unfold maxSubParameterCount at hcounter
  by_cases hempty : m.parameters = []
  · rw [(hm.empty hempty).1]
    decide
  · have := hm.room hempty
    omega

lemma toByte_of_lt {n : ℕ} (h : n < 256) : toByte n = n := Nat.mod_eq_of_lt h

/-- A new parameter. -/
lemma ParamsInStep.pushParameter (hm : ParamsInStep m) (hcount : m.parameters.length < maxParameterCount) :
    ParamsInStep { m.pushParameter with subParameterCounter := 0, subParameterLimitOverflowed := false } := by
  have hlength := hm.length_lt
  have hranges : m.pushParameter.subParameterRanges =
      m.subParameterRanges ++ [(m.subParameters.length, m.subParameters.length)] := by
    unfold StateMachine.pushParameter
    dsimp only
    rw [toByte_of_lt hlength]
  have hlast : ∀ r ∈ m.subParameterRanges.getLast?, r.2 = m.subParameters.length := fun r hr => (hm.last r hr).1
  have hsub : m.subParameterRanges = [] → m.subParameters = [] := by
    intro hnone
    refine (hm.empty ?_).1
    rw [← List.length_eq_zero_iff, ← hm.ranges, hnone]
    rfl
  constructor
  · show (m.parameters ++ [none]).length ≤ maxParameterCount
    rw [List.length_append, List.length_singleton]
    omega
  · intro p hp
    rcases List.mem_append.mp hp with hp | hp
    · exact hm.values p hp
    · intro value hvalue
      rw [List.mem_singleton.mp hp] at hvalue
      cases hvalue
  · exact hm.subValues
  · show m.pushParameter.subParameterRanges.length = (m.parameters ++ [none]).length
    rw [hranges, List.length_append, List.length_append, hm.ranges]
    rfl
  · show ∀ r ∈ m.pushParameter.subParameterRanges.head?, r.1 = 0
    rw [hranges]
    intro r hr
    cases hold : m.subParameterRanges with
    | nil =>
      rw [hold] at hr
      obtain rfl : _ = r := Option.some.inj hr
      rw [hsub hold]
      rfl
    | cons r' rest =>
      rw [hold] at hr
      exact hm.first r (by rw [hold]; exact hr)
  · show m.pushParameter.subParameterRanges.IsChain _
    rw [hranges]
    refine List.IsChain.append hm.contiguous (List.isChain_singleton _) fun r hr r' hr' => ?_
    obtain rfl : _ = r' := Option.some.inj hr'
    exact hlast r hr
  · show ∀ r ∈ m.pushParameter.subParameterRanges.getLast?, r.2 = m.subParameters.length ∧ r.2 = r.1 + 0
    rw [hranges]
    intro r hr
    rw [List.getLast?_concat] at hr
    obtain rfl : _ = r := Option.some.inj hr
    exact ⟨rfl, rfl⟩
  · show ∀ r ∈ m.pushParameter.subParameterRanges, _
    rw [hranges]
    intro r hr
    rcases List.mem_append.mp hr with hr | hr
    · exact hm.sizes r hr
    · rw [List.mem_singleton.mp hr]
      exact ⟨le_refl _, Nat.le_add_right _ _⟩
  · intro _
    show m.subParameters.length + 6 ≤ 6 * (m.parameters ++ [none]).length + 0
    rw [List.length_append, List.length_singleton]
    have hcounter := hm.counter
    unfold maxSubParameterCount at hcounter
    by_cases hempty : m.parameters = []
    · rw [(hm.empty hempty).1, List.length_nil]
      omega
    · have := hm.room hempty
      omega
  · intro hnil
    exact absurd hnil (by simp [StateMachine.pushParameter])
  · exact Nat.zero_le _

/-- The first parameter, where there is none yet. -/
lemma ParamsInStep.ensureParameter (hm : ParamsInStep m) :
    ParamsInStep m.ensureParameter ∧ m.ensureParameter.parameters ≠ [] := by
  unfold StateMachine.ensureParameter
  by_cases hempty : m.parameters = []
  · rw [hempty, List.isEmpty_nil, if_pos rfl]
    have hpush := hm.pushParameter (by rw [hempty]; decide)
    have hcounter := (hm.empty hempty).2
    exact ⟨hpush.of_same ⟨rfl, rfl, rfl, hcounter⟩, by simp [StateMachine.pushParameter]⟩
  · rw [if_neg (by simpa using hempty)]
    exact ⟨hm, hempty⟩

/-- Neither action touches these. -/
structure SameControl (m m' : StateMachine) : Prop where
  state : m'.state = m.state
  parserMode : m'.parserMode = m.parserMode
  oscParameter : m'.oscParameter = m.oscParameter
  dcsStringHandler : m'.dcsStringHandler = m.dcsStringHandler
  faulted : m'.faulted = m.faulted

lemma SameControl.refl (m : StateMachine) : SameControl m m := ⟨rfl, rfl, rfl, rfl, rfl⟩

lemma ensureParameter_control (m : StateMachine) : SameControl m m.ensureParameter := by
  unfold StateMachine.ensureParameter
  split
  · exact ⟨rfl, rfl, rfl, rfl, rfl⟩
  · exact .refl m

lemma ensureParameter_overflowed (m : StateMachine) :
    m.ensureParameter.subParameterLimitOverflowed = m.subParameterLimitOverflowed ∧
      m.ensureParameter.subParameters = m.subParameters := by
  unfold StateMachine.ensureParameter
  split
  · exact ⟨rfl, rfl⟩
  · exact ⟨rfl, rfl⟩

/-- A change of the last values only. -/
lemma ParamsInStep.withParameters (hm : ParamsInStep m) {parameters : List VTParameter}
    (hlength : parameters.length = m.parameters.length) (hvalues : ∀ p ∈ parameters, InRange p) :
    ParamsInStep { m with parameters } where
  count := hlength ▸ hm.count
  values := hvalues
  subValues := hm.subValues
  ranges := hm.ranges.trans hlength.symm
  first := hm.first
  contiguous := hm.contiguous
  last := hm.last
  sizes := hm.sizes
  room := by
    intro hne
    have hold : m.parameters ≠ [] := by
      intro hnil
      rw [hnil] at hlength
      exact hne (List.length_eq_zero_iff.mp hlength)
    show _ ≤ 6 * parameters.length + _
    rw [hlength]
    exact hm.room hold
  empty := by
    intro hnil
    refine hm.empty ?_
    rw [← List.length_eq_zero_iff, ← hlength]
    exact List.length_eq_zero_iff.mpr hnil
  counter := hm.counter

lemma ParamsInStep.withSubParameters (hm : ParamsInStep m) {subParameters : List VTParameter}
    (hlength : subParameters.length = m.subParameters.length) (hvalues : ∀ p ∈ subParameters, InRange p) :
    ParamsInStep { m with subParameters } where
  count := hm.count
  values := hm.values
  subValues := hvalues
  ranges := hm.ranges
  first := hm.first
  contiguous := hm.contiguous
  last := by
    intro r hr
    show r.2 = subParameters.length ∧ _
    rw [hlength]
    exact hm.last r hr
  sizes := hm.sizes
  room := by
    show _ → subParameters.length + 6 ≤ _
    rw [hlength]
    exact hm.room
  empty := by
    intro hnil
    obtain ⟨hsub, hcounter⟩ := hm.empty hnil
    refine ⟨List.length_eq_zero_iff.mp ?_, hcounter⟩
    show subParameters.length = 0
    rw [hlength, hsub]
    rfl
  counter := hm.counter

theorem actionParam_spec (hm : ParamsInStep m) {wch : UInt16}
    (hwch : isNumericParamValue wch = true ∨ isParameterDelimiter wch = true) :
    ParamsInStep (m.actionParam wch) ∧ SameControl m (m.actionParam wch) := by
  unfold StateMachine.actionParam
  by_cases hover : m.parameterLimitOverflowed
  · rw [hover]
    exact ⟨hm, .refl m⟩
  · rw [if_pos (by simpa using hover)]
    obtain ⟨hready, hne⟩ := hm.ensureParameter
    have hcontrol := ensureParameter_control m
    generalize m.ensureParameter = t at *
    dsimp only
    by_cases hdelimiter : isParameterDelimiter wch = true
    · rw [if_pos hdelimiter]
      split
      · exact ⟨hready.of_same ⟨rfl, rfl, rfl, rfl⟩, ⟨hcontrol.state, hcontrol.parserMode, hcontrol.oscParameter,
          hcontrol.dcsStringHandler, hcontrol.faulted⟩⟩
      · next hcount =>
        exact ⟨hready.pushParameter (Nat.lt_of_not_le hcount), ⟨hcontrol.state, hcontrol.parserMode,
          hcontrol.oscParameter, hcontrol.dcsStringHandler, hcontrol.faulted⟩⟩
    · rw [if_neg hdelimiter]
      obtain ⟨parameters, haccumulate, hlength, hvalues⟩ :=
        accumulate_spec (hwch.resolve_right hdelimiter) hne hready.values
      rw [haccumulate]
      exact ⟨hready.withParameters hlength hvalues, ⟨hcontrol.state, hcontrol.parserMode,
        hcontrol.oscParameter, hcontrol.dcsStringHandler, hcontrol.faulted⟩⟩

/-- One more sub-parameter of the last parameter. -/
lemma ParamsInStep.pushSubParameter (hm : ParamsInStep m) (hne : m.parameters ≠ [])
    (hcounter : m.subParameterCounter < maxSubParameterCount) :
    ∃ ranges, extendLastRange m.subParameterRanges = some ranges ∧
      ParamsInStep { m with
        subParameters := m.subParameters ++ [none]
        subParameterRanges := ranges
        subParameterCounter := toByte (m.subParameterCounter + 1) } := by
  have hsome : m.subParameterRanges ≠ [] := by
    intro hnil
    have hlength := hm.ranges
    rw [hnil] at hlength
    exact hne (List.length_eq_zero_iff.mp hlength.symm)
  obtain ⟨front, last, hranges⟩ := List.eq_nil_or_concat m.subParameterRanges |>.resolve_left hsome
  rw [List.concat_eq_append] at hranges
  have hlast := hm.last last (by rw [hranges, List.getLast?_concat]; rfl)
  have hroom := hm.room hne
  have hcount := hm.count
  unfold maxSubParameterCount at hcounter
  unfold maxParameterCount at hcount
  have hbyte : toByte (last.2 + 1) = last.2 + 1 := toByte_of_lt (by omega)
  have hbyte' : toByte (m.subParameterCounter + 1) = m.subParameterCounter + 1 := toByte_of_lt (by omega)
  have hchain := hm.contiguous
  have hfirst := hm.first
  have hsizes := hm.sizes
  rw [hranges] at hchain hfirst hsizes
  refine ⟨front ++ [(last.1, last.2 + 1)], by simp [extendLastRange, hranges, hbyte], ?_⟩
  rw [hbyte']
  constructor
  · exact hm.count
  · exact hm.values
  · intro p hp
    rcases List.mem_append.mp hp with hp | hp
    · exact hm.subValues p hp
    · intro value hvalue
      rw [List.mem_singleton.mp hp] at hvalue
      cases hvalue
  · show (front ++ [(last.1, last.2 + 1)]).length = m.parameters.length
    rw [← hm.ranges, hranges]
    simp
  · intro r hr
    cases front with
    | nil =>
      obtain rfl : _ = r := Option.some.inj hr
      exact hfirst last rfl
    | cons r' rest => exact hfirst r hr
  · show (front ++ [(last.1, last.2 + 1)]).IsChain _
    obtain ⟨hfront, -, hjoin⟩ := List.isChain_append.mp hchain
    refine List.IsChain.append hfront (List.isChain_singleton _) fun r hr r' hr' => ?_
    obtain rfl : _ = r' := Option.some.inj hr'
    exact hjoin r hr last rfl
  · show ∀ r ∈ (front ++ [(last.1, last.2 + 1)]).getLast?, _
    intro r hr
    rw [List.getLast?_concat] at hr
    obtain rfl : _ = r := Option.some.inj hr
    show last.2 + 1 = (m.subParameters ++ [none]).length ∧ last.2 + 1 = last.1 + (m.subParameterCounter + 1)
    rw [List.length_append, List.length_singleton]
    omega
  · intro r hr
    rcases List.mem_append.mp hr with hr | hr
    · exact hsizes r (List.mem_append_left _ hr)
    · rw [List.mem_singleton.mp hr]
      have := hsizes last (by simp)
      unfold maxSubParameterCount at this ⊢
      show last.1 ≤ last.2 + 1 ∧ last.2 + 1 ≤ last.1 + 6
      omega
  · intro _
    show (m.subParameters ++ [none]).length + 6 ≤ 6 * m.parameters.length + (m.subParameterCounter + 1)
    rw [List.length_append, List.length_singleton]
    omega
  · exact fun hnil => absurd hnil hne
  · show m.subParameterCounter + 1 ≤ 6
    omega

/-- There is a sub-parameter to accumulate into, or further ones are ignored. -/
def SubParamReady (m : StateMachine) : Prop := m.subParameterLimitOverflowed = true ∨ m.subParameters ≠ []

theorem actionSubParam_spec (hm : ParamsInStep m) {wch : UInt16}
    (hwch : isSubParameterDelimiter wch = true ∨ isNumericParamValue wch = true ∧ SubParamReady m) :
    ParamsInStep (m.actionSubParam wch) ∧ SameControl m (m.actionSubParam wch) ∧
      SubParamReady (m.actionSubParam wch) := by
  unfold StateMachine.actionSubParam
  by_cases hover : m.subParameterLimitOverflowed
  · rw [hover]
    exact ⟨hm, .refl m, .inl hover⟩
  · rw [if_pos (by simpa using hover)]
    obtain ⟨hready, hne⟩ := hm.ensureParameter
    have hcontrol := ensureParameter_control m
    obtain ⟨hflag, hsub⟩ := ensureParameter_overflowed m
    generalize m.ensureParameter = t at *
    dsimp only
    by_cases hdelimiter : isSubParameterDelimiter wch = true
    · rw [if_pos hdelimiter]
      split
      · exact ⟨hready.of_same ⟨rfl, rfl, rfl, rfl⟩, ⟨hcontrol.state, hcontrol.parserMode, hcontrol.oscParameter,
          hcontrol.dcsStringHandler, hcontrol.faulted⟩, .inl rfl⟩
      · next hcounter =>
        obtain ⟨ranges, hextend, hpush⟩ := hready.pushSubParameter hne (Nat.lt_of_not_le hcounter)
        rw [hextend]
        exact ⟨hpush, ⟨hcontrol.state, hcontrol.parserMode, hcontrol.oscParameter, hcontrol.dcsStringHandler,
          hcontrol.faulted⟩, .inr (by simp)⟩
    · rw [if_neg hdelimiter]
      obtain ⟨hnumeric, hwhere⟩ := hwch.resolve_left hdelimiter
      have hsome : t.subParameters ≠ [] := by
        rw [hsub]
        exact hwhere.resolve_left hover
      obtain ⟨subParameters, haccumulate, hlength, hvalues⟩ := accumulate_spec hnumeric hsome hready.subValues
      rw [haccumulate]
      refine ⟨hready.withSubParameters hlength hvalues, ⟨hcontrol.state, hcontrol.parserMode,
        hcontrol.oscParameter, hcontrol.dcsStringHandler, hcontrol.faulted⟩, .inr fun hnil => hsome ?_⟩
      rw [← List.length_eq_zero_iff, ← hlength]
      exact List.length_eq_zero_iff.mpr hnil

/-! ### The invariant -/

/-- The engine does not leave ANSI mode. -/
def Engine.KeepsAnsi (engine : Engine) : Prop :=
  ∀ calls mode, mode.ansi = true → (engine.setParserMode calls mode).ansi = true

/-- What every action keeps. -/
structure Sound (m : StateMachine) : Prop where
  params : ParamsInStep m
  osc : 0 ≤ m.oscParameter ∧ m.oscParameter ≤ maxParameterValue
  ansi : m.parserMode.ansi = true
  faulted : m.faulted = false

/-- What every character keeps. -/
structure Inv (m : StateMachine) : Prop where
  sound : Sound m
  subParam : m.state = .csiSubParam → SubParamReady m
  vt52 : m.state ≠ .vt52Param
  handler : HandlerReady m

variable {engine : Engine}

lemma perform_quiet_sound (hansi : engine.KeepsAnsi) (hm : Sound m) {a : Action} (ha : a.IsQuiet) :
    Sound (m.perform engine a) := by
  obtain ⟨hframe, -⟩ := @perform_quiet engine m a ha
  have hparams := hm.params.of_same ⟨hframe.parameters, hframe.subParameters, hframe.subParameterRanges,
    hframe.subParameterCounter⟩
  have hcalled (c : EngineCall) : 0 ≤ ((m.call engine c).afterCall engine).oscParameter ∧
      ((m.call engine c).afterCall engine).oscParameter ≤ maxParameterValue ∧
      ((m.call engine c).afterCall engine).parserMode.ansi = true := by
    obtain ⟨hosc, hmode⟩ := afterCall_osc engine (m.call engine c)
    rw [hosc, hmode]
    exact ⟨hm.osc.1, hm.osc.2, hansi _ _ hm.ansi⟩
  have hsame (c : EngineCall) (hperform : m.perform engine a = (m.call engine c).afterCall engine) :
      Sound (m.perform engine a) := by
    refine ⟨hparams, ?_, ?_, hframe.faulted.trans hm.faulted⟩
    · rw [hperform]
      exact ⟨(hcalled c).1, (hcalled c).2.1⟩
    · rw [hperform]
      exact (hcalled c).2.2
  cases a with
  | execute | executeFromEscape | escDispatch | vt52EscDispatch | csiDispatch | oscDispatch | ss3Dispatch =>
    exact hsame _ rfl
  | print wch =>
    obtain ⟨hosc, hmode⟩ := afterCall_osc engine (m.quietCall (.print wch))
    exact ⟨hparams, hosc ▸ hm.osc, hmode ▸ hm.ansi, hframe.faulted.trans hm.faulted⟩
  | collect | oscPut => exact ⟨hparams, hm.osc, hm.ansi, hm.faulted⟩
  | oscParam wch => exact ⟨hparams, accumulateTo_bounds ha hm.osc.1 hm.osc.2, hm.ansi, hm.faulted⟩
  | _ => exact absurd ha (by simp [Action.IsQuiet])

lemma paramsInStep_empty (hparameters : m.parameters = []) (hsub : m.subParameters = [])
    (hranges : m.subParameterRanges = []) (hcounter : m.subParameterCounter = 0) : ParamsInStep m := by
  constructor <;> simp [hparameters, hsub, hranges, hcounter]

lemma zero_bounds : (0 : ℤ) ≤ 0 ∧ 0 ≤ maxParameterValue := by decide

lemma enter_sound (hansi : engine.KeepsAnsi) (hm : Sound m) (s : VTState) : Sound (m.enter engine s) := by
  have hmode : (m.enter engine s).parserMode.ansi = true := by
    cases s with
    | sosPmApcString => exact hansi _ _ hm.ansi
    | _ => exact hm.ansi
  rcases enter_params engine m s with ⟨hparams, hsub, hranges, hcounter, -, -, hosc⟩ |
    ⟨-, -, hparams, hsub, hranges, hcounter, -, hosc⟩
  · exact ⟨hm.params.of_same ⟨hparams, hsub, hranges, hcounter⟩, hosc ▸ hm.osc, hmode,
      (enter_faulted engine m s).trans hm.faulted⟩
  · exact ⟨paramsInStep_empty hparams hsub hranges hcounter, by rw [hosc]; exact zero_bounds, hmode,
      (enter_faulted engine m s).trans hm.faulted⟩

lemma enter_inv (hansi : engine.KeepsAnsi) (hm : Sound m) (s : VTState) (hs : s.IsOrdinary) :
    Inv (m.enter engine s) where
  sound := enter_sound hansi hm s
  subParam h := absurd ((enter_state engine m s).symm.trans h) hs.2.1
  vt52 := by
    rw [enter_state]
    exact hs.2.2
  handler := handlerReady_enter engine s hs.1

lemma callHandler_sound (hansi : engine.KeepsAnsi) (hm : Sound m) (hhandler : m.dcsStringHandler.isSome = true)
    (wch : UInt16) : Sound (m.callHandler engine wch).1 := by
  obtain ⟨handler, hsome⟩ := Option.isSome_iff_exists.mp hhandler
  unfold callHandler
  rw [hsome]
  exact ⟨hm.params.of_same ⟨rfl, rfl, rfl, rfl⟩, hm.osc, hansi _ _ hm.ansi, hm.faulted⟩

lemma interrupt_sound (hansi : engine.KeepsAnsi) (hm : Sound m) (hhandler : HandlerReady m) :
    Sound (m.actionInterrupt engine) := by
  unfold actionInterrupt
  split
  · next hstate =>
    have hsound := callHandler_sound hansi hm (hhandler hstate) esc
    exact ⟨hsound.params.of_same ⟨rfl, rfl, rfl, rfl⟩, hsound.osc, hsound.ansi, hsound.faulted⟩
  · exact hm

lemma dcsDispatch_inv (hansi : engine.KeepsAnsi) (hm : Sound m) (wch : UInt16) :
    Inv (m.actionDcsDispatch engine wch) := by
  have hhandler := @actionDcsDispatch_handlerReady engine m wch
  have hcalled : Sound (m.call engine (.dcsDispatch (m.identifier.finalize wch) m.parameters)) :=
    ⟨hm.params.of_same ⟨rfl, rfl, rfl, rfl⟩, hm.osc, hansi _ _ hm.ansi, hm.faulted⟩
  have henter (t : StateMachine) (ht : Sound t)
      (hready : HandlerReady
        (if t.dcsStringHandler.isSome then t.enter engine .dcsPassThrough else t.enter engine .dcsIgnore)) :
      Inv (if t.dcsStringHandler.isSome then t.enter engine .dcsPassThrough else t.enter engine .dcsIgnore) := by
    by_cases hsome : t.dcsStringHandler.isSome = true
    · rw [if_pos hsome] at hready ⊢
      exact ⟨enter_sound hansi ht _, (fun h => nomatch h), (fun h => nomatch h), hready⟩
    · rw [if_neg hsome]
      exact enter_inv hansi ht .dcsIgnore (by decide)
  refine henter _ ?_ hhandler
  split
  · exact ⟨hcalled.params.of_same ⟨rfl, rfl, rfl, rfl⟩, hcalled.osc, hcalled.ansi, hcalled.faulted⟩
  · exact ⟨hcalled.params.of_same ⟨rfl, rfl, rfl, rfl⟩, hcalled.osc, hcalled.ansi, hcalled.faulted⟩
  · exact hcalled

lemma dcsString_inv (hansi : engine.KeepsAnsi) (hm : Inv m) (hs : m.state = .dcsPassThrough) (wch : UInt16) :
    Inv (m.perform engine (.dcsString wch)) := by
  have hsound := callHandler_sound hansi hm.sound (hm.handler hs) wch
  have hready := @perform_dcsString_handlerReady engine m hm.handler wch
  obtain ⟨handler, hsome⟩ := Option.isSome_iff_exists.mp (hm.handler hs)
  have hstate : (m.callHandler engine wch).1.state = m.state := by
    unfold callHandler
    rw [hsome]
    rfl
  unfold perform at hready ⊢
  dsimp only at hready ⊢
  split at hready
  · next haccepted =>
    rw [if_pos haccepted]
    refine ⟨hsound, fun h => ?_, ?_, hready⟩
    · rw [hstate, hs] at h
      cases h
    · rw [hstate, hs]
      decide
  · next haccepted =>
    rw [if_neg haccepted]
    exact enter_inv hansi hsound .dcsIgnore (by decide)

/-- **What the actions of an event keep.** -/
theorem performAll_inv (hansi : engine.KeepsAnsi) {wch : UInt16} {s : VTState} {actions : List Action}
    (hshape : Shape true wch s actions) (hs : m.state = s) (hm : Inv m) : Inv (m.performAll engine actions) := by
  induction hshape generalizing m with
  | nothing => exact hm
  | @quiet s a ha =>
    obtain ⟨hframe, -⟩ := @perform_quiet engine m a ha
    refine ⟨perform_quiet_sound hansi hm.sound ha, fun h => ?_, ?_,
      handlerReady_of_same hm.handler hframe.state hframe.dcsStringHandler⟩
    · have hready := hm.subParam (hframe.state ▸ h)
      unfold SubParamReady at hready ⊢
      show (m.perform engine a).subParameterLimitOverflowed = true ∨ (m.perform engine a).subParameters ≠ []
      rwa [hframe.subParameterLimitOverflowed, hframe.subParameters]
    · show (m.perform engine a).state ≠ _
      rw [hframe.state]
      exact hm.vt52
  | enter hs' => exact enter_inv hansi hm.sound _ hs'.1
  | quietEnter ha hs' => exact enter_inv hansi (perform_quiet_sound hansi hm.sound ha) _ hs'.1
  | @param s hordinary hwch =>
    obtain ⟨hparams, hcontrol⟩ := actionParam_spec hm.sound.params hwch
    refine ⟨⟨hparams, hcontrol.oscParameter ▸ hm.sound.osc, hcontrol.parserMode ▸ hm.sound.ansi,
      hcontrol.faulted.trans hm.sound.faulted⟩, fun h => ?_, ?_,
      handlerReady_of_same hm.handler hcontrol.state hcontrol.dcsStringHandler⟩
    · exact absurd (hs.symm.trans (hcontrol.state.symm.trans h)) hordinary.2.1
    · show (m.actionParam wch).state ≠ _
      rw [hcontrol.state]
      exact hm.vt52
  | paramEnter hwch hs' =>
    obtain ⟨hparams, hcontrol⟩ := actionParam_spec hm.sound.params hwch
    exact enter_inv hansi ⟨hparams, hcontrol.oscParameter ▸ hm.sound.osc, hcontrol.parserMode ▸ hm.sound.ansi,
      hcontrol.faulted.trans hm.sound.faulted⟩ _ hs'.1
  | subParam hwch =>
    have hcase : isSubParameterDelimiter wch = true ∨ isNumericParamValue wch = true ∧ SubParamReady m :=
      hwch.symm.imp id fun hnumeric => ⟨hnumeric, hm.subParam hs⟩
    obtain ⟨hparams, hcontrol, hready⟩ := actionSubParam_spec hm.sound.params hcase
    refine ⟨⟨hparams, hcontrol.oscParameter ▸ hm.sound.osc, hcontrol.parserMode ▸ hm.sound.ansi,
      hcontrol.faulted.trans hm.sound.faulted⟩, fun _ => hready, ?_,
      handlerReady_of_same hm.handler hcontrol.state hcontrol.dcsStringHandler⟩
    show (m.actionSubParam wch).state ≠ _
    rw [hcontrol.state]
    exact hm.vt52
  | subParamEnter hwch =>
    obtain ⟨hparams, hcontrol, hready⟩ := actionSubParam_spec hm.sound.params (.inl hwch)
    have hsound : Sound (m.actionSubParam wch) := ⟨hparams, hcontrol.oscParameter ▸ hm.sound.osc,
      hcontrol.parserMode ▸ hm.sound.ansi, hcontrol.faulted.trans hm.sound.faulted⟩
    exact ⟨enter_sound hansi hsound .csiSubParam, fun _ => hready, (fun h => nomatch h), (fun h => nomatch h)⟩
  | vt52Param => exact absurd hs hm.vt52
  | vt52Enter hmode => cases hmode
  | dcsDispatch hcollects => exact dcsDispatch_inv hansi hm.sound wch
  | dcsString hwch => exact dcsString_inv hansi hm hs wch
  | again hescape ih =>
    exact ih (enter_state engine m .escape) (enter_inv hansi hm.sound .escape (by decide))

theorem processPlain_inv (hansi : engine.KeepsAnsi) (hm : Inv m) (wch : UInt16) :
    Inv (m.processPlain engine wch) := by
  unfold processPlain actions
  split
  · have hexecuted := perform_quiet_sound hansi (interrupt_sound hansi hm.sound hm.handler)
      (a := .execute wch) trivial
    exact enter_inv hansi hexecuted .ground (by decide)
  · split
    · exact enter_inv hansi (interrupt_sound hansi hm.sound hm.handler) .escape (by decide)
    · have hshape := event_shape engine.isEngineForInput m.parserMode wch m.state
      rw [hm.sound.ansi] at hshape
      exact performAll_inv hansi hshape rfl hm

theorem processCharacter_inv (hansi : engine.KeepsAnsi) (hm : Inv m) (wch : UInt16) :
    Inv (m.processCharacter engine wch) := by
  unfold processCharacter
  split
  · split
    · exact processPlain_inv hansi (processPlain_inv hansi hm esc) _
    · exact hm
  · exact processPlain_inv hansi hm wch

lemma Inv.of_frame (hm : Inv m) (h : Frame m m') (hosc : m'.oscParameter = m.oscParameter)
    (hansi : m'.parserMode.ansi = true) : Inv m' where
  sound := ⟨hm.sound.params.of_same ⟨h.parameters, h.subParameters, h.subParameterRanges, h.subParameterCounter⟩,
    hosc ▸ hm.sound.osc, hansi, h.faulted.trans hm.sound.faulted⟩
  subParam hstate := by
    have hready := hm.subParam (h.state ▸ hstate)
    unfold SubParamReady at hready ⊢
    rwa [h.subParameterLimitOverflowed, h.subParameters]
  vt52 := h.state ▸ hm.vt52
  handler := handlerReady_of_same hm.handler h.state h.dcsStringHandler

lemma printRun_inv (hm : Inv m) (run : List UInt16) : Inv (m.printRun engine run) := by
  have hframe := printRun_frame engine m run
  have hrest : (m.printRun engine run).oscParameter = m.oscParameter ∧
      (m.printRun engine run).parserMode = m.parserMode := by
    unfold printRun
    split
    · exact ⟨rfl, rfl⟩
    · exact afterCall_osc engine _
  exact hm.of_frame hframe hrest.1 (hrest.2 ▸ hm.sound.ansi)

/-- **The invariant holds in every state reached.** -/
theorem Reached.inv {mode : ParserMode} (hansi : engine.KeepsAnsi) (hmode : mode.ansi = true)
    (h : Reached engine mode m) : Inv m := by
  induction h with
  | start =>
    exact ⟨⟨paramsInStep_empty rfl rfl rfl rfl, zero_bounds, hmode, rfl⟩, (fun h => nomatch h),
      (fun h => nomatch h), (fun h => nomatch h)⟩
  | @run m run h ih =>
    exact ih.of_frame ⟨rfl, rfl, rfl, rfl, rfl, rfl, rfl, rfl, rfl⟩ rfl ih.sound.ansi
  | character wch h ih => exact processCharacter_inv hansi ih wch
  | print run h ih => exact printRun_inv ih run
  | @finish m h ih =>
    rcases endOfString_cases engine m with ⟨cached, heq⟩ | ⟨t, heq, ht, -⟩
    · rw [heq]
      exact ih.of_frame ⟨rfl, rfl, rfl, rfl, rfl, rfl, rfl, rfl, rfl⟩ rfl ih.sound.ansi
    · have hground := enter_sound hansi ih.sound .ground
      rw [heq]
      rcases ht with rfl | rfl
      · have hquiet : (Action.execute esc).IsQuiet := trivial
        exact enter_inv hansi (perform_quiet_sound hansi hground hquiet) .ground (by decide)
      · have hquiet : (Action.escDispatch (m.currentRun.getLastD 0)).IsQuiet := trivial
        exact enter_inv hansi (perform_quiet_sound hansi (enter_sound hansi hground .escape) hquiet) .ground
          (by decide)

/-! ### The bounds -/

/-- The parameters of a sequence in one state. -/
structure ParametersBounded (m : StateMachine) : Prop where
  count : m.parameters.length ≤ maxParameterCount
  values : ∀ p ∈ m.parameters ++ m.subParameters, InRange p
  /-- The ranges: one for each parameter, from the first sub-parameter to the last without a gap. -/
  ranges : m.subParameterRanges.length = m.parameters.length
  first : ∀ r ∈ m.subParameterRanges.head?, r.1 = 0
  contiguous : m.subParameterRanges.IsChain (fun r r' => r.2 = r'.1)
  last : ∀ r ∈ m.subParameterRanges.getLast?, r.2 = m.subParameters.length
  none : m.parameters = [] → m.subParameters = []
  sizes : ∀ r ∈ m.subParameterRanges, r.1 ≤ r.2 ∧ r.2 ≤ r.1 + maxSubParameterCount
  /-- No index is truncated. -/
  bytes : ∀ r ∈ m.subParameterRanges, r.2 < 256
  length : toByte m.subParameters.length = m.subParameters.length
  counter : toByte (m.subParameterCounter + 1) = m.subParameterCounter + 1
  /-- The last element of an empty list was never taken. -/
  faulted : m.faulted = false
  /-- No digit overflows. -/
  digits : ∀ p ∈ some m.oscParameter :: (m.parameters ++ m.subParameters), ∀ wch, isNumericParamValue wch = true →
    toVTInt (p.getD 0 * 10 + ((wch.toNat : ℤ) - 0x30)) = p.getD 0 * 10 + ((wch.toNat : ℤ) - 0x30)

lemma range_end_le {ranges : List (ℕ × ℕ)} {n : ℕ} (hchain : ranges.IsChain (fun r r' => r.2 = r'.1))
    (hsizes : ∀ r ∈ ranges, r.1 ≤ r.2) (hlast : ∀ r ∈ ranges.getLast?, r.2 = n) : ∀ r ∈ ranges, r.2 ≤ n := by
  induction ranges with
  | nil => exact fun r hr => nomatch hr
  | cons first rest ih =>
    cases rest with
    | nil =>
      intro r hr
      rw [List.mem_singleton.mp hr]
      exact (hlast first rfl).le
    | cons second rest =>
      have hrest := ih hchain.tail (fun r hr => hsizes r (List.mem_cons_of_mem _ hr))
        (fun r hr => hlast r (by rwa [List.getLast?_cons_cons]))
      intro r hr
      rcases List.mem_cons.mp hr with rfl | hr
      · have hjoin := (List.isChain_cons_cons.mp hchain).1
        have hsize := hsizes second (by simp)
        have hend := hrest second (by simp)
        omega
      · exact hrest r hr

/-- **The parameters stay bounded in every state reached in ANSI mode.** -/
theorem parameters_bounded {mode : ParserMode} (hansi : engine.KeepsAnsi) (hmode : mode.ansi = true)
    (h : Reached engine mode m) : ParametersBounded m := by
  have hm := (h.inv hansi hmode).sound
  have hparams := hm.params
  have hlength := hparams.length_lt
  have hvalues : ∀ p ∈ m.parameters ++ m.subParameters, InRange p := by
    intro p hp
    rcases List.mem_append.mp hp with hp | hp
    · exact hparams.values p hp
    · exact hparams.subValues p hp
  refine ⟨hparams.count, hvalues, hparams.ranges, hparams.first, hparams.contiguous,
    fun r hr => (hparams.last r hr).1, fun hnone => (hparams.empty hnone).1, hparams.sizes, fun r hr => ?_,
    toByte_of_lt hlength, ?_, hm.faulted, ?_⟩
  · have hend := range_end_le hparams.contiguous (fun r hr => (hparams.sizes r hr).1)
      (fun r hr => (hparams.last r hr).1) r hr
    omega
  · have hcounter := hparams.counter
    unfold maxSubParameterCount at hcounter
    exact toByte_of_lt (by omega)
  · intro p hp wch hwch
    rcases List.mem_cons.mp hp with rfl | hp
    · exact toVTInt_accumulated hwch hm.osc.1 hm.osc.2
    · have hbounds := getD_bounds (hvalues p hp)
      exact toVTInt_accumulated hwch hbounds.1 hbounds.2

/-- An engine for output that accepts everything. -/
def acceptingEngine : Engine where
  isEngineForInput := false
  outcome _ := .accepted
  dcsAnswer _ := .handler
  handlerAccepts _ := true
  setParserMode _ mode := mode
  encounteredWin32InputModeSequence _ := false

/-- `ESC [ 1 : 2 ; 3`. -/
theorem parameters_bounded_sample : ParametersBounded
    (StateMachine.processString acceptingEngine { parserMode := ⟨false, true⟩ } [27, 91, 49, 58, 50, 59, 51]) :=
  parameters_bounded (fun _ _ hmode => hmode) rfl (Reached.start.processString _)

end VT7.Parser
