import VT7.Parser.DcsHeaders

/-!
# The parameters of a control sequence, as its grammar has them

A control sequence holds parameters behind `;`, each an optional number and any number of sub-parameters behind `:`.
The parser keeps the first `MAX_PARAMETER_COUNT` parameters and the first `MAX_SUBPARAMETER_COUNT` sub-parameters of
each.  What it takes the sub-parameters of ignored parameters for is those of the last parameter it has kept
(`merged`), so the grammar is met exactly where these do not come through (`csi_parameters_iff`).
-/

namespace VT7.Parser

open StateMachine

/-! ### The grammar -/

/-- A parameter: its digits, and the digits of each of its sub-parameters. -/
structure CsiParameter where
  digits : List (Fin 10) := []
  subs : List (List (Fin 10)) := []

def digitChar (d : Fin 10) : UInt16 := UInt16.ofNat (0x30 + d)

namespace CsiParameter

def text (p : CsiParameter) : List UInt16 :=
  p.digits.map digitChar ++ p.subs.flatMap fun sub => 0x3a :: sub.map digitChar

end CsiParameter

/-- The parameters with a `;` between them. -/
def textOf : List CsiParameter → List UInt16
  | [] => []
  | [p] => p.text
  | p :: q :: rest => p.text ++ 0x3b :: textOf (q :: rest)

def decimal (digits : List (Fin 10)) : ℕ := digits.foldl (fun value (d : Fin 10) => 10 * value + d.val) 0

/-- The value of a number: absent without digits, and capped. -/
def valueOf (digits : List (Fin 10)) : VTParameter :=
  if digits.isEmpty then none else some (min (decimal digits : ℤ) maxParameterValue)

/-- The sub-parameters that are kept of a parameter. -/
def CsiParameter.keptSubs (p : CsiParameter) : List VTParameter := (p.subs.take maxSubParameterCount).map valueOf

/-- The range of each parameter among the sub-parameters. -/
def rangesFrom : ℕ → List CsiParameter → List (ℕ × ℕ)
  | _, [] => []
  | start, p :: rest => (start, start + p.keptSubs.length) :: rangesFrom (start + p.keptSubs.length) rest

/-- The dispatch of parameters that are all kept. -/
def dispatchOf (id : UInt64) (params : List CsiParameter) : EngineCall :=
  .csiDispatch id (params.map fun p => valueOf p.digits) (params.flatMap CsiParameter.keptSubs) (rangesFrom 0 params)

/-- What the parser takes the parameters for: the sub-parameters behind the limit go to the last one kept. -/
def merged (params : List CsiParameter) : List CsiParameter :=
  params.take (maxParameterCount - 1) ++
    match params.drop (maxParameterCount - 1) with
    | [] => []
    | p :: rest => [{ p with subs := p.subs ++ rest.flatMap CsiParameter.subs }]

/-! ### Values -/

lemma digitChar_numeric (d : Fin 10) : isNumericParamValue (digitChar d) = true := by
  revert d
  decide

lemma digitChar_toNat (d : Fin 10) : ((digitChar d).toNat : ℤ) - 0x30 = d.val := by
  revert d
  decide

lemma decimal_concat (digits : List (Fin 10)) (d : Fin 10) : decimal (digits ++ [d]) = 10 * decimal digits + d := by
  unfold decimal
  rw [List.foldl_append]
  rfl

lemma valueOf_getD (digits : List (Fin 10)) :
    (valueOf digits).getD 0 = min (decimal digits : ℤ) maxParameterValue := by
  cases digits with
  | nil => rfl
  | cons d digits => rfl

/-- One more digit. -/
lemma valueOf_concat (digits : List (Fin 10)) (d : Fin 10) :
    valueOf (digits ++ [d]) = some (accumulateTo (digitChar d) ((valueOf digits).getD 0)) := by
  have hd := d.isLt
  have hlow : (0 : ℤ) ≤ min (decimal digits : ℤ) maxParameterValue := by
    unfold maxParameterValue
    omega
  have hvalue : valueOf (digits ++ [d]) = some (min (decimal (digits ++ [d]) : ℤ) maxParameterValue) := by
    unfold valueOf
    rw [if_neg (by simp)]
  rw [hvalue, valueOf_getD, decimal_concat]
  unfold accumulateTo
  dsimp only
  rw [toVTInt_accumulated (digitChar_numeric d) hlow (Int.min_le_right _ _), digitChar_toNat]
  congr 1
  unfold maxParameterValue
  push_cast
  split <;> omega

lemma keptSubs_length (p : CsiParameter) : p.keptSubs.length = min maxSubParameterCount p.subs.length := by
  simp [CsiParameter.keptSubs]

lemma keptSubs_total (params : List CsiParameter) :
    (params.flatMap CsiParameter.keptSubs).length ≤ maxSubParameterCount * params.length := by
  induction params with
  | nil => exact Nat.le_refl 0
  | cons p params ih =>
    have hlength := keptSubs_length p
    rw [List.flatMap_cons, List.length_append, List.length_cons, Nat.mul_add]
    omega

lemma rangesFrom_concat (start : ℕ) (front : List CsiParameter) (p : CsiParameter) :
    rangesFrom start (front ++ [p]) = rangesFrom start front ++
      [(start + (front.flatMap CsiParameter.keptSubs).length,
        start + (front.flatMap CsiParameter.keptSubs).length + p.keptSubs.length)] := by
  induction front generalizing start with
  | nil => rfl
  | cons q front ih =>
    rw [List.cons_append, rangesFrom, rangesFrom, ih, List.flatMap_cons, List.length_append, ← Nat.add_assoc]
    rfl

/-! ### Actions -/

/-- The machine holds some parameters, the last of which is still read. -/
structure Holds (m : StateMachine) (front : List CsiParameter) (p : CsiParameter) : Prop where
  parameters : m.parameters = front.map (fun p => valueOf p.digits) ++ [valueOf p.digits]
  subParameters : m.subParameters = front.flatMap CsiParameter.keptSubs ++ p.keptSubs
  ranges : m.subParameterRanges = rangesFrom 0 (front ++ [p])
  counter : m.subParameterCounter = min maxSubParameterCount p.subs.length
  overflowed : m.subParameterLimitOverflowed = decide (maxSubParameterCount < p.subs.length)
  room : front.length < maxParameterCount

section Actions

variable {m m' : StateMachine} {front : List CsiParameter} {p : CsiParameter}

lemma Holds.ensure (h : Holds m front p) : m.ensureParameter = m := by
  unfold ensureParameter
  rw [h.parameters]
  simp

lemma Holds.ensured (h : Holds m front p) : Holds m.ensureParameter front p := by rwa [h.ensure]

lemma Holds.parameters_ne (h : Holds m front p) : m.parameters ≠ [] := by
  rw [h.parameters]
  simp

/-- All sub-parameters together fit into a byte. -/
lemma Holds.total (h : Holds m front p) :
    (front.flatMap CsiParameter.keptSubs).length ≤ 186 ∧ m.subParameters.length ≤ 192 := by
  have hfront := keptSubs_total front
  have hlast := keptSubs_length p
  have hroom := h.room
  unfold maxSubParameterCount at hfront hlast
  unfold maxParameterCount at hroom
  rw [h.subParameters, List.length_append]
  omega

/-- A machine without parameters. -/
structure Cleared (m : StateMachine) : Prop where
  parameters : m.parameters = []
  subParameters : m.subParameters = []
  ranges : m.subParameterRanges = []
  counter : m.subParameterCounter = 0
  overflowed : m.subParameterLimitOverflowed = false

lemma Cleared.ensure (h : Cleared m) : Holds m.ensureParameter [] {} := by
  have hpush : m.ensureParameter = m.pushParameter := by
    unfold ensureParameter
    rw [h.parameters]
    rfl
  rw [hpush]
  refine ⟨?_, h.subParameters, ?_, h.counter, h.overflowed, by decide⟩
  · show m.parameters ++ [none] = _
    rw [h.parameters]
    rfl
  · show m.subParameterRanges ++ [(toByte _, toByte _)] = _
    rw [h.ranges, h.subParameters]
    rfl

/-- What `_ActionParam` does in front of the limit. -/
lemma actionParam_kept (hkept : m.parameterLimitOverflowed = false) (wch : UInt16) : m.actionParam wch =
    if isParameterDelimiter wch then
      if maxParameterCount ≤ m.ensureParameter.parameters.length then
        { m.ensureParameter with parameterLimitOverflowed := true }
      else { m.ensureParameter.pushParameter with subParameterCounter := 0, subParameterLimitOverflowed := false }
    else
      match accumulate wch m.ensureParameter.parameters with
      | some parameters => { m.ensureParameter with parameters }
      | none => { m.ensureParameter with faulted := true } := by
  unfold actionParam
  rw [hkept]
  rfl

lemma ensureParameter_limit (m : StateMachine) :
    m.ensureParameter.parameterLimitOverflowed = m.parameterLimitOverflowed := by
  unfold ensureParameter
  split
  · rfl
  · rfl

lemma actionParam_digit (h : Holds m.ensureParameter front p) (hkept : m.parameterLimitOverflowed = false)
    (d : Fin 10) : Holds (m.actionParam (digitChar d)) front { p with digits := p.digits ++ [d] } ∧
      (m.actionParam (digitChar d)).parameterLimitOverflowed = false := by
  have hdelimiter : isParameterDelimiter (digitChar d) = false := by
    revert d
    decide
  have haccumulate : accumulate (digitChar d) m.ensureParameter.parameters =
      some (front.map (fun p => valueOf p.digits) ++ [valueOf (p.digits ++ [d])]) := by
    rw [h.parameters, valueOf_concat]
    simp [accumulate]
  rw [actionParam_kept hkept, hdelimiter, if_neg Bool.false_ne_true, haccumulate]
  refine ⟨⟨rfl, h.subParameters, ?_, h.counter, h.overflowed, h.room⟩, (ensureParameter_limit m).trans hkept⟩
  show m.ensureParameter.subParameterRanges = _
  rw [h.ranges, rangesFrom_concat, rangesFrom_concat]
  rfl

/-- A `;` with room for one more parameter. -/
lemma actionParam_next (h : Holds m.ensureParameter front p) (hkept : m.parameterLimitOverflowed = false)
    (hroom : front.length + 1 < maxParameterCount) :
    Holds (m.actionParam 0x3b) (front ++ [p]) {} ∧ (m.actionParam 0x3b).parameterLimitOverflowed = false := by
  have hcount : ¬ maxParameterCount ≤ m.ensureParameter.parameters.length := by
    rw [h.parameters]
    simpa using hroom
  have htotal := h.total.2
  rw [actionParam_kept hkept, if_pos (show isParameterDelimiter 0x3b = true from rfl), if_neg hcount]
  refine ⟨⟨?_, ?_, ?_, rfl, rfl, by simpa using hroom⟩, (ensureParameter_limit m).trans hkept⟩
  · show m.ensureParameter.parameters ++ [none] = _
    rw [h.parameters, List.map_append]
    rfl
  · show m.ensureParameter.subParameters = _
    rw [h.subParameters, List.flatMap_append]
    simp [CsiParameter.keptSubs]
  · show m.ensureParameter.subParameterRanges ++ [(toByte _, toByte _)] = _
    rw [toByte_of_lt (by omega), h.ranges, rangesFrom_concat 0 (front ++ [p]), h.subParameters, List.flatMap_append]
    simp [CsiParameter.keptSubs]

/-- A `;` behind the last parameter that is kept. -/
lemma actionParam_last (h : Holds m.ensureParameter front p) (hkept : m.parameterLimitOverflowed = false)
    (hroom : front.length + 1 = maxParameterCount) :
    Holds (m.actionParam 0x3b) front p ∧ (m.actionParam 0x3b).parameterLimitOverflowed = true := by
  have hcount : maxParameterCount ≤ m.ensureParameter.parameters.length := by
    rw [h.parameters]
    simp [hroom]
  rw [actionParam_kept hkept, if_pos (show isParameterDelimiter 0x3b = true from rfl), if_pos hcount]
  exact ⟨⟨h.parameters, h.subParameters, h.ranges, h.counter, h.overflowed, h.room⟩, rfl⟩

lemma actionParam_ignored (hignored : m.parameterLimitOverflowed = true) (wch : UInt16) : m.actionParam wch = m := by
  unfold actionParam
  rw [hignored]
  rfl

/-- What `_ActionSubParam` does in front of the limit. -/
lemma actionSubParam_kept (hkept : m.subParameterLimitOverflowed = false) (wch : UInt16) : m.actionSubParam wch =
    if isSubParameterDelimiter wch then
      if maxSubParameterCount ≤ m.ensureParameter.subParameterCounter then
        { m.ensureParameter with subParameterLimitOverflowed := true }
      else
        match extendLastRange m.ensureParameter.subParameterRanges with
        | some subParameterRanges =>
          { m.ensureParameter with
            subParameters := m.ensureParameter.subParameters ++ [none]
            subParameterRanges
            subParameterCounter := toByte (m.ensureParameter.subParameterCounter + 1) }
        | none => { m.ensureParameter with faulted := true }
    else
      match accumulate wch m.ensureParameter.subParameters with
      | some subParameters => { m.ensureParameter with subParameters }
      | none => { m.ensureParameter with faulted := true } := by
  unfold actionSubParam
  rw [hkept]
  rfl

lemma actionSubParam_ignored (hignored : m.subParameterLimitOverflowed = true) (wch : UInt16) :
    m.actionSubParam wch = m := by
  unfold actionSubParam
  rw [hignored]
  rfl

/-- Behind the limit, the sub-parameters may be any others. -/
lemma Holds.behindLimit (h : Holds m front p) {subs : List (List (Fin 10))}
    (hkept : subs.take maxSubParameterCount = p.subs.take maxSubParameterCount)
    (hlength : maxSubParameterCount ≤ p.subs.length) (hover : maxSubParameterCount < subs.length) :
    Holds { m with subParameterLimitOverflowed := true } front { p with subs } := by
  have hsame : CsiParameter.keptSubs { p with subs } = p.keptSubs := congrArg (List.map valueOf) hkept
  refine ⟨h.parameters, by rw [hsame]; exact h.subParameters, ?_, ?_, (decide_eq_true hover).symm, h.room⟩
  · rw [rangesFrom_concat, hsame, ← rangesFrom_concat]
    exact h.ranges
  · show m.subParameterCounter = min maxSubParameterCount subs.length
    rw [h.counter, min_eq_left hlength, min_eq_left hover.le]

lemma overflowed_same (h : m.subParameterLimitOverflowed = true) :
    { m.ensureParameter with subParameterLimitOverflowed := true } = m.ensureParameter := by
  have hsame := (ensureParameter_overflowed m).1.trans h
  generalize m.ensureParameter = t at *
  cases t
  cases hsame
  rfl

/-- A `:`. -/
lemma actionSubParam_delimiter (h : Holds m.ensureParameter front p) :
    Holds (m.actionSubParam 0x3a).ensureParameter front { p with subs := p.subs ++ [[]] } := by
  have hflag := (ensureParameter_overflowed m).1.symm.trans h.overflowed
  by_cases hover : maxSubParameterCount < p.subs.length
  · -- It is ignored.
    have hset : m.subParameterLimitOverflowed = true := by rw [hflag, decide_eq_true hover]
    rw [actionSubParam_ignored hset]
    have hbehind := @Holds.behindLimit _ _ _ h (p.subs ++ [[]]) (List.take_append_of_le_length hover.le) hover.le
      (by rw [List.length_append]; omega)
    rwa [overflowed_same hset] at hbehind
  · have hclear : m.subParameterLimitOverflowed = false := by rw [hflag, decide_eq_false hover]
    have hresult : Holds (m.actionSubParam 0x3a) front { p with subs := p.subs ++ [[]] } := by
      rw [actionSubParam_kept hclear, if_pos (show isSubParameterDelimiter 0x3a = true from rfl), h.counter]
      by_cases hfull : p.subs.length = maxSubParameterCount
      · -- It sets the flag.
        rw [if_pos (by rw [hfull, min_self])]
        exact h.behindLimit (List.take_append_of_le_length hfull.ge) hfull.ge (by simp [hfull])
      · have hlength : p.subs.length < maxSubParameterCount := by omega
        have htotal := h.total.1
        unfold maxSubParameterCount at hlength
        have hkept : CsiParameter.keptSubs { p with subs := p.subs ++ [[]] } = p.keptSubs ++ [none] := by
          unfold CsiParameter.keptSubs maxSubParameterCount
          rw [List.take_of_length_le (by simp; omega), List.take_of_length_le (by omega), List.map_append]
          rfl
        have hkeptLength : p.keptSubs.length = p.subs.length := by
          rw [keptSubs_length, min_eq_right (by unfold maxSubParameterCount; omega)]
        have hbyte : toByte (0 + (front.flatMap CsiParameter.keptSubs).length + p.keptSubs.length + 1) =
            0 + (front.flatMap CsiParameter.keptSubs).length + p.keptSubs.length + 1 := toByte_of_lt (by omega)
        have hextend : extendLastRange m.ensureParameter.subParameterRanges =
            some (rangesFrom 0 (front ++ [{ p with subs := p.subs ++ [[]] }])) := by
          rw [h.ranges, rangesFrom_concat, rangesFrom_concat, hkept, List.length_append]
          unfold extendLastRange
          rw [List.getLast?_concat, List.dropLast_concat, Option.map_some, hbyte]
          rfl
        rw [if_neg (by rw [min_eq_right (by unfold maxSubParameterCount; omega)]; unfold maxSubParameterCount; omega),
          hextend]
        refine ⟨h.parameters, ?_, rfl, ?_, ?_, h.room⟩
        · show m.ensureParameter.subParameters ++ [none] = _
          rw [h.subParameters, hkept, List.append_assoc]
        · show toByte (min maxSubParameterCount p.subs.length + 1) = min maxSubParameterCount (p.subs ++ [[]]).length
          unfold maxSubParameterCount
          rw [toByte_of_lt (by omega), List.length_append, List.length_singleton]
          omega
        · show m.ensureParameter.subParameterLimitOverflowed = decide (maxSubParameterCount < (p.subs ++ [[]]).length)
          rw [h.overflowed, decide_eq_false hover, List.length_append, List.length_singleton]
          unfold maxSubParameterCount
          exact (decide_eq_false (by omega)).symm
    rwa [hresult.ensure]

/-- A digit of a sub-parameter. -/
lemma actionSubParam_digit {subs : List (List (Fin 10))} {sub : List (Fin 10)}
    (h : Holds m.ensureParameter front { p with subs := subs ++ [sub] }) (d : Fin 10) :
    Holds (m.actionSubParam (digitChar d)).ensureParameter front { p with subs := subs ++ [sub ++ [d]] } := by
  have hdelimiter : isSubParameterDelimiter (digitChar d) = false := by
    revert d
    decide
  have hflag := (ensureParameter_overflowed m).1.symm.trans h.overflowed
  have hlength : (subs ++ [sub]).length = subs.length + 1 := by rw [List.length_append, List.length_singleton]
  by_cases hover : maxSubParameterCount < (subs ++ [sub]).length
  · -- It is ignored.
    have hset : m.subParameterLimitOverflowed = true := by rw [hflag, decide_eq_true hover]
    rw [actionSubParam_ignored hset]
    have hle : maxSubParameterCount ≤ subs.length := by omega
    have hbehind := @Holds.behindLimit _ _ _ h (subs ++ [sub ++ [d]])
      (by rw [List.take_append_of_le_length hle, List.take_append_of_le_length hle]) hover.le
      (by rw [List.length_append, List.length_singleton]; omega)
    rwa [overflowed_same hset] at hbehind
  · have hclear : m.subParameterLimitOverflowed = false := by rw [hflag, decide_eq_false hover]
    have hkept (last : List (Fin 10)) : CsiParameter.keptSubs { p with subs := subs ++ [last] } =
        subs.map valueOf ++ [valueOf last] := by
      unfold CsiParameter.keptSubs
      rw [List.take_of_length_le (by simp; omega), List.map_append]
      rfl
    have haccumulate : accumulate (digitChar d) m.ensureParameter.subParameters =
        some (front.flatMap CsiParameter.keptSubs ++ (subs.map valueOf ++ [valueOf (sub ++ [d])])) := by
      rw [h.subParameters, hkept, valueOf_concat, ← List.append_assoc]
      simp [accumulate]
    have hresult : Holds (m.actionSubParam (digitChar d)) front { p with subs := subs ++ [sub ++ [d]] } := by
      rw [actionSubParam_kept hclear, hdelimiter, if_neg Bool.false_ne_true, haccumulate]
      refine ⟨h.parameters, by rw [hkept], ?_, ?_, ?_, h.room⟩
      · have hranges := h.ranges
        rw [rangesFrom_concat, hkept, List.length_append, List.length_singleton] at hranges
        rw [rangesFrom_concat, hkept, List.length_append, List.length_singleton]
        exact hranges
      · have hcounter := h.counter
        simp only [List.length_append, List.length_singleton] at hcounter ⊢
        exact hcounter
      · have hoverflowed := h.overflowed
        simp only [List.length_append, List.length_singleton] at hoverflowed ⊢
        exact hoverflowed
    rwa [hresult.ensure]

lemma Holds.ensure_of_same (h : Holds m.ensureParameter front p) (hparams : SameParams m m')
    (hover : m'.subParameterLimitOverflowed = m.subParameterLimitOverflowed) : Holds m'.ensureParameter front p := by
  by_cases hempty : m.parameters.isEmpty = true
  · have hm : m.ensureParameter = m.pushParameter := if_pos hempty
    have hm' : m'.ensureParameter = m'.pushParameter := if_pos (by rwa [hparams.parameters])
    rw [hm] at h
    rw [hm']
    refine ⟨?_, ?_, ?_, hparams.subParameterCounter.trans h.counter, hover.trans h.overflowed, h.room⟩
    · show m'.parameters ++ [none] = _
      rw [hparams.parameters]
      exact h.parameters
    · exact hparams.subParameters.trans h.subParameters
    · show m'.subParameterRanges ++ [(toByte _, toByte _)] = _
      rw [hparams.subParameterRanges, hparams.subParameters]
      exact h.ranges
  · have hm : m.ensureParameter = m := if_neg hempty
    have hm' : m'.ensureParameter = m' := if_neg (by rwa [hparams.parameters])
    rw [hm] at h
    rw [hm']
    exact ⟨hparams.parameters.trans h.parameters, hparams.subParameters.trans h.subParameters,
      hparams.subParameterRanges.trans h.ranges, hparams.subParameterCounter.trans h.counter,
      hover.trans h.overflowed, h.room⟩

lemma actionSubParam_limit (m : StateMachine) (wch : UInt16) :
    (m.actionSubParam wch).parameterLimitOverflowed = m.parameterLimitOverflowed := by
  have hensure := ensureParameter_limit m
  unfold actionSubParam
  dsimp only
  split
  · split
    · split
      · exact hensure
      · split
        · exact hensure
        · exact hensure
    · split
      · exact hensure
      · exact hensure
  · rfl

lemma ensureParameter_ne (m : StateMachine) : m.ensureParameter.parameters ≠ [] := by
  unfold ensureParameter pushParameter
  split
  · simp
  · next hsome => simpa using hsome

lemma actionSubParam_parameters_ne (h : m.parameters ≠ [] ∨ m.subParameterLimitOverflowed = false) (wch : UInt16) :
    (m.actionSubParam wch).parameters ≠ [] := by
  have hensure := ensureParameter_ne m
  unfold actionSubParam
  dsimp only
  split
  · split
    · split
      · exact hensure
      · split
        · exact hensure
        · exact hensure
    · split
      · exact hensure
      · exact hensure
  · next hignored => exact h.resolve_right (by simpa using hignored)

end Actions

/-! ### Characters -/

section Characters

variable (engine : Engine) {m : StateMachine} {front : List CsiParameter} {p : CsiParameter} {ignored : Bool}
  {before : List EngineCall} {s : VTState}

/-- Where the parser is among the parameters: `ignored` tells whether the limit is behind it. -/
structure Reading (before : List EngineCall) (s : VTState) (ignored : Bool) (front : List CsiParameter)
    (p : CsiParameter) (m : StateMachine) : Prop where
  state : m.state = s
  holds : Holds m.ensureParameter front p
  ignored : m.parameterLimitOverflowed = ignored
  calls : m.calls = before
  /-- Only in the entry state there may be no parameter yet. -/
  settled : m.parameters ≠ [] ∨ s = .csiEntry ∧ m.subParameterLimitOverflowed = false

lemma Reading.kept (h : Reading before s ignored front p m) (hs : s ≠ .csiEntry) : Holds m front p := by
  have hholds := h.holds
  have hensure : m.ensureParameter = m := if_neg (by simpa using h.settled.resolve_right fun h => hs h.1)
  rwa [hensure] at hholds

/-- The states in which parameters are read. -/
def VTState.ReadsParams (s : VTState) : Prop := s = .csiEntry ∨ s = .csiParam ∨ s = .csiSubParam

lemma Reading.withRun (h : Reading before s ignored front p m) (run : List UInt16) :
    Reading before s ignored front p { m with currentRun := run } :=
  ⟨h.state, h.holds.ensure_of_same ⟨rfl, rfl, rfl, rfl⟩ rfl, h.ignored, h.calls, h.settled⟩

lemma Reading.enter (h : Reading before s ignored front p m) (hne : m.parameters ≠ []) {s' : VTState}
    (hs' : s' = .csiParam ∨ s' = .csiSubParam) :
    Reading before s' ignored front p (m.enter engine s') := by
  rcases hs' with rfl | rfl
  · exact ⟨rfl, h.holds.ensure_of_same ⟨rfl, rfl, rfl, rfl⟩ rfl, h.ignored, h.calls, .inl hne⟩
  · exact ⟨rfl, h.holds.ensure_of_same ⟨rfl, rfl, rfl, rfl⟩ rfl, h.ignored, h.calls, .inl hne⟩

/-- A step in terms of its actions. -/
lemma Reading.step {wch : UInt16} (hw : Stays wch) (h : Reading before s ignored front p m)
    {s' : VTState} {ignored' : Bool} {front' : List CsiParameter} {p' : CsiParameter}
    (hactions : ∀ t : StateMachine, Reading before s ignored front p t →
      Reading before s' ignored' front' p'
        (t.performAll engine (event engine.isEngineForInput m.parserMode wch s))) :
    Reading before s' ignored' front' p' (m.step engine (.character wch)) := by
  have hevent : event engine.isEngineForInput m.parserMode wch m.state =
      event engine.isEngineForInput m.parserMode wch s := by rw [h.state]
  rw [step_stays hw, hevent]
  exact hactions _ (h.withRun _)

lemma digitChar_stays (d : Fin 10) : Stays (digitChar d) := by
  refine stays_of_isHeaderChar ?_
  revert d
  decide

lemma event_digit (d : Fin 10) : eventCsiEntry (digitChar d) = [.param (digitChar d), .enter .csiParam] ∧
    eventCsiParam (digitChar d) = [.param (digitChar d)] ∧
    eventCsiSubParam (digitChar d) = [.subParam (digitChar d)] := by
  have htests : isC0Code (digitChar d) = false ∧ isDelete (digitChar d) = false ∧
      isIntermediate (digitChar d) = false := by
    revert d
    decide
  obtain ⟨hc0, hdelete, hintermediate⟩ := htests
  have hnumeric := digitChar_numeric d
  refine ⟨?_, ?_, ?_⟩
  · unfold eventCsiEntry
    rw [hc0, hdelete, hintermediate, hnumeric]
    rfl
  · unfold eventCsiParam
    rw [hc0, hdelete, hnumeric]
    rfl
  · unfold eventCsiSubParam
    rw [hc0, hdelete, hnumeric]
    rfl

lemma Reading.digit (h : Reading before s false front p m) (hs : s = .csiEntry ∨ s = .csiParam) (d : Fin 10) :
    Reading before .csiParam false front { p with digits := p.digits ++ [d] }
      (m.step engine (.character (digitChar d))) := by
  refine h.step engine (digitChar_stays d) fun t ht => ?_
  obtain ⟨hholds, hflag⟩ := actionParam_digit ht.holds ht.ignored d
  have hrest := actionParam_rest t (digitChar d)
  have hread : Reading before s false front { p with digits := p.digits ++ [d] } (t.actionParam (digitChar d)) :=
    ⟨hrest.1.trans ht.state, hholds.ensured, hflag, hrest.2.1.trans ht.calls, .inl hholds.parameters_ne⟩
  rcases hs with rfl | rfl
  · show Reading _ _ _ _ _ (t.performAll engine (eventCsiEntry (digitChar d)))
    rw [(event_digit d).1]
    exact hread.enter engine hholds.parameters_ne (.inl rfl)
  · show Reading _ _ _ _ _ (t.performAll engine (eventCsiParam (digitChar d)))
    rw [(event_digit d).2.1]
    exact hread

/-- A digit of an ignored parameter. -/
lemma Reading.ignoredDigit (h : Reading before .csiParam true front p m) (d : Fin 10) :
    Reading before .csiParam true front p (m.step engine (.character (digitChar d))) := by
  refine h.step engine (digitChar_stays d) fun t ht => ?_
  show Reading _ _ _ _ _ (t.performAll engine (eventCsiParam (digitChar d)))
  rw [(event_digit d).2.1]
  show Reading _ _ _ _ _ (t.actionParam (digitChar d))
  rwa [actionParam_ignored ht.ignored]

/-- A `:`, also of an ignored parameter. -/
lemma Reading.colon (h : Reading before s ignored front p m) (hs : s.ReadsParams) :
    Reading before .csiSubParam ignored front { p with subs := p.subs ++ [[]] }
      (m.step engine (.character 0x3a)) := by
  refine h.step engine ⟨by decide, by decide, by decide, by decide⟩ fun t ht => ?_
  have hholds := actionSubParam_delimiter ht.holds
  have hrest := actionSubParam_rest t 0x3a
  have hkept := actionSubParam_limit t 0x3a
  have hne := actionSubParam_parameters_ne (ht.settled.imp id And.right) 0x3a
  have hread : Reading before s ignored front { p with subs := p.subs ++ [[]] } (t.actionSubParam 0x3a) :=
    ⟨hrest.1.trans ht.state, hholds, hkept.trans ht.ignored, hrest.2.1.trans ht.calls, .inl hne⟩
  rcases hs with rfl | rfl | rfl
  · exact hread.enter engine hne (.inr rfl)
  · exact hread.enter engine hne (.inr rfl)
  · exact hread

lemma Reading.subDigit {subs : List (List (Fin 10))} {sub : List (Fin 10)}
    (h : Reading before .csiSubParam ignored front { p with subs := subs ++ [sub] } m) (d : Fin 10) :
    Reading before .csiSubParam ignored front { p with subs := subs ++ [sub ++ [d]] }
      (m.step engine (.character (digitChar d))) := by
  refine h.step engine (digitChar_stays d) fun t ht => ?_
  have hrest := actionSubParam_rest t (digitChar d)
  have hkept := actionSubParam_limit t (digitChar d)
  have hne := actionSubParam_parameters_ne (ht.settled.imp id And.right) (digitChar d)
  show Reading _ _ _ _ _ (t.performAll engine (eventCsiSubParam (digitChar d)))
  rw [(event_digit d).2.2]
  exact ⟨hrest.1.trans ht.state, actionSubParam_digit ht.holds d, hkept.trans ht.ignored, hrest.2.1.trans ht.calls,
    .inl hne⟩

/-- What a `;` does with the parameters: the next one, or the limit. -/
lemma Reading.semicolon (h : Reading before s ignored front p m) (hs : s.ReadsParams) {ignored' : Bool}
    {front' : List CsiParameter} {p' : CsiParameter}
    (hparam : ∀ t : StateMachine, Reading before s ignored front p t →
      Holds (t.actionParam 0x3b) front' p' ∧ (t.actionParam 0x3b).parameterLimitOverflowed = ignored') :
    Reading before .csiParam ignored' front' p' (m.step engine (.character 0x3b)) := by
  refine h.step engine ⟨by decide, by decide, by decide, by decide⟩ fun t ht => ?_
  have hrest := actionParam_rest t 0x3b
  obtain ⟨hholds, hflag⟩ := hparam t ht
  have hread : Reading before s ignored' front' p' (t.actionParam 0x3b) :=
    ⟨hrest.1.trans ht.state, hholds.ensured, hflag, hrest.2.1.trans ht.calls, .inl hholds.parameters_ne⟩
  rcases hs with rfl | rfl | rfl
  · exact hread.enter engine hholds.parameters_ne (.inl rfl)
  · exact hread
  · exact hread.enter engine hholds.parameters_ne (.inl rfl)

lemma Reading.next (h : Reading before s false front p m) (hs : s.ReadsParams)
    (hroom : front.length + 1 < maxParameterCount) :
    Reading before .csiParam false (front ++ [p]) {} (m.step engine (.character 0x3b)) := by
  exact h.semicolon engine hs fun t ht => actionParam_next ht.holds ht.ignored hroom

lemma Reading.last (h : Reading before s false front p m) (hs : s.ReadsParams)
    (hroom : front.length + 1 = maxParameterCount) :
    Reading before .csiParam true front p (m.step engine (.character 0x3b)) := by
  exact h.semicolon engine hs fun t ht => actionParam_last ht.holds ht.ignored hroom

lemma Reading.ignoredNext (h : Reading before s true front p m) (hs : s = .csiParam ∨ s = .csiSubParam) :
    Reading before .csiParam true front p (m.step engine (.character 0x3b)) := by
  refine h.semicolon engine (.inr hs) fun t ht => ?_
  rw [actionParam_ignored ht.ignored]
  refine ⟨ht.kept fun hentry => ?_, ht.ignored⟩
  rw [hentry] at hs
  exact absurd hs (by decide)

/-! ### Parameters -/

lemma read_digits (h : Reading before s false front p m) (hs : s = .csiEntry ∨ s = .csiParam)
    (digits : List (Fin 10)) :
    ∃ s', (s' = .csiEntry ∨ s' = .csiParam) ∧ (s' = .csiEntry → s = .csiEntry ∧ digits = []) ∧
      Reading before s' false front { p with digits := p.digits ++ digits }
        (read engine m (digits.map digitChar)) := by
  induction digits generalizing m p s with
  | nil =>
    refine ⟨s, hs, fun h => ⟨h, rfl⟩, ?_⟩
    rw [List.append_nil]
    exact h
  | cons d digits ih =>
    obtain ⟨s', hs', hentry, hread⟩ := ih (h.digit engine hs d) (.inr rfl)
    refine ⟨s', hs', fun h => (nomatch (hentry h).1), ?_⟩
    rw [List.append_assoc] at hread
    exact hread

lemma read_ignoredDigits (h : Reading before .csiParam true front p m) (digits : List (Fin 10)) :
    Reading before .csiParam true front p (read engine m (digits.map digitChar)) := by
  induction digits generalizing m with
  | nil => exact h
  | cons d digits ih => exact ih (h.ignoredDigit engine d)

lemma read_subDigits {subs : List (List (Fin 10))} {sub : List (Fin 10)}
    (h : Reading before .csiSubParam ignored front { p with subs := subs ++ [sub] } m) (digits : List (Fin 10)) :
    Reading before .csiSubParam ignored front { p with subs := subs ++ [sub ++ digits] }
      (read engine m (digits.map digitChar)) := by
  induction digits generalizing m sub with
  | nil =>
    rw [List.append_nil]
    exact h
  | cons d digits ih =>
    have hread := ih (h.subDigit engine d)
    rw [List.append_assoc] at hread
    exact hread

lemma read_subs (h : Reading before s ignored front p m) (hs : s.ReadsParams) (subs : List (List (Fin 10))) :
    ∃ s', s'.ReadsParams ∧ (s' = .csiEntry → s = .csiEntry ∧ subs = []) ∧
      Reading before s' ignored front { p with subs := p.subs ++ subs }
        (read engine m (subs.flatMap fun sub => 0x3a :: sub.map digitChar)) := by
  induction subs generalizing m p s with
  | nil =>
    refine ⟨s, hs, fun h => ⟨h, rfl⟩, ?_⟩
    rw [List.append_nil]
    exact h
  | cons sub subs ih =>
    have hsub := read_subDigits engine (h.colon engine hs) sub
    obtain ⟨s', hs', hentry, hread⟩ := ih hsub (.inr (.inr rfl))
    refine ⟨s', hs', fun h => (nomatch (hentry h).1), ?_⟩
    rw [List.flatMap_cons, read_append, read_cons]
    rw [List.append_assoc] at hread
    exact hread

/-- A whole parameter, in front of the limit. -/
lemma read_parameter (h : Reading before s false front {} m) (hs : s = .csiEntry ∨ s = .csiParam)
    (p : CsiParameter) : ∃ s', s'.ReadsParams ∧ (s' = .csiEntry → s = .csiEntry ∧ p = {}) ∧
      Reading before s' false front p (read engine m p.text) := by
  obtain ⟨s₁, hs₁, hentry₁, hdigits⟩ := read_digits engine h hs p.digits
  obtain ⟨s₂, hs₂, hentry₂, hsubs⟩ := read_subs engine hdigits (hs₁.imp id .inl) p.subs
  refine ⟨s₂, hs₂, fun h => ?_, ?_⟩
  · obtain ⟨h₁, hsubs⟩ := hentry₂ h
    obtain ⟨h₀, hdigits⟩ := hentry₁ h₁
    cases p
    cases hsubs
    cases hdigits
    exact ⟨h₀, rfl⟩
  rw [CsiParameter.text, read_append]
  exact hsubs

/-- An ignored parameter: its sub-parameters come through. -/
lemma read_ignored (h : Reading before .csiParam true front p m) (q : CsiParameter) :
    ∃ s', (s' = .csiParam ∨ s' = .csiSubParam) ∧
      Reading before s' true front { p with subs := p.subs ++ q.subs } (read engine m q.text) := by
  obtain ⟨s', hs', hentry, hsubs⟩ :=
    read_subs engine (read_ignoredDigits engine h q.digits) (.inr (.inl rfl)) q.subs
  refine ⟨s', hs'.resolve_left fun h => (nomatch (hentry h).1), ?_⟩
  rw [CsiParameter.text, read_append]
  exact hsubs

lemma read_allIgnored (h : Reading before .csiParam true front p m) (q : CsiParameter) (rest : List CsiParameter) :
    ∃ s', (s' = .csiParam ∨ s' = .csiSubParam) ∧
      Reading before s' true front { p with subs := p.subs ++ (q :: rest).flatMap CsiParameter.subs }
        (read engine m (textOf (q :: rest))) := by
  induction rest generalizing m p q with
  | nil =>
    obtain ⟨s', hs', hread⟩ := read_ignored engine h q
    refine ⟨s', hs', ?_⟩
    rw [List.flatMap_singleton]
    exact hread
  | cons r rest ih =>
    obtain ⟨s', hs', hread⟩ := read_ignored engine h q
    obtain ⟨s'', hs'', hrest⟩ := ih (hread.ignoredNext engine hs') r
    refine ⟨s'', hs'', ?_⟩
    rw [textOf, read_append, read_cons, List.flatMap_cons, ← List.append_assoc]
    exact hrest

lemma merged_short {front : List CsiParameter} (hfront : front.length < maxParameterCount) (q : CsiParameter) :
    merged (front ++ [q]) = front ++ [q] := by
  unfold maxParameterCount at hfront
  unfold merged maxParameterCount
  by_cases hlast : front.length = 31
  · rw [List.take_left' (by omega), List.drop_left' (by omega)]
    simp
  · rw [List.take_of_length_le (by simp; omega), List.drop_of_length_le (by simp; omega), List.append_nil]

lemma merged_long {front : List CsiParameter} (hfront : front.length + 1 = maxParameterCount) (q : CsiParameter)
    (rest : List CsiParameter) :
    merged (front ++ q :: rest) = front ++ [{ q with subs := q.subs ++ rest.flatMap CsiParameter.subs }] := by
  unfold maxParameterCount at hfront
  unfold merged maxParameterCount
  rw [List.take_left' (by omega), List.drop_left' (by omega)]

/-- **All parameters**, behind those in front: what is kept are the merged ones. -/
lemma read_parameters (h : Reading before s false front {} m) (hs : s = .csiEntry ∨ s = .csiParam)
    (q : CsiParameter) (rest : List CsiParameter) :
    ∃ s' ignored' front' p', s'.ReadsParams ∧ (s' = .csiEntry → s = .csiEntry ∧ q = {} ∧ rest = []) ∧
      Reading before s' ignored' front' p' (read engine m (textOf (q :: rest))) ∧
      front' ++ [p'] = merged (front ++ q :: rest) := by
  induction rest generalizing m front q s with
  | nil =>
    obtain ⟨s', hs', hentry, hread⟩ := read_parameter engine h hs q
    exact ⟨s', false, front, q, hs', fun h => ⟨(hentry h).1, (hentry h).2, rfl⟩, hread,
      (merged_short hread.holds.room q).symm⟩
  | cons r rest ih =>
    obtain ⟨s', hs', -, hread⟩ := read_parameter engine h hs q
    have hroom := hread.holds.room
    rw [textOf, read_append, read_cons]
    by_cases hlast : front.length + 1 = maxParameterCount
    · obtain ⟨s'', hs'', hall⟩ :=
        read_allIgnored engine (hread.last engine hs' hlast) r rest
      refine ⟨s'', true, front, _, .inr hs'', fun h => ?_, hall, (merged_long hlast q (r :: rest)).symm⟩
      rw [h] at hs''
      exact absurd hs'' (by decide)
    · obtain ⟨s'', ignored', front', p', hs'', hentry, hall, hmerged⟩ :=
        ih (hread.next engine hs' (by omega)) (.inr rfl) r
      refine ⟨s'', ignored', front', p', hs'', fun h => (nomatch (hentry h).1), hall, ?_⟩
      rw [hmerged, List.append_assoc]
      rfl

end Characters

/-! ### Intermediates and the final -/

def EngineCall.isCsiDispatch : EngineCall → Bool
  | .csiDispatch .. => true
  | _ => false

/-- The calls of `ActionCsiDispatch`. -/
def csiDispatches (calls : List EngineCall) : List EngineCall := calls.filter EngineCall.isCsiDispatch

/-- The states of a control sequence. -/
def VTState.InCsi (s : VTState) : Prop := s.ReadsParams ∨ s = .csiIntermediate ∨ s = .csiIgnore

section Sequence

variable (engine : Engine) {m : StateMachine} {before : List EngineCall} {params : List CsiParameter} {wch : UInt16}

/-- The actions of the events in these states, in front of the final. -/
def Action.KeepsCsi : Action → Prop
  | .param _ => True
  | .subParam _ => True
  | .collect _ => True
  | .enter s => s.InCsi
  | _ => False

lemma event_keepsCsi (input : Bool) (mode : ParserMode) {s : VTState} (hs : s.InCsi)
    (hw : isHeaderChar wch = true) : ∀ a ∈ event input mode wch s, a.KeepsCsi := by
  obtain ⟨hcontrol, htests⟩ := headerTests hw
  obtain ⟨hc0, hdelete⟩ := tests_of_not_isControl hcontrol
  have hparam : VTState.csiParam.InCsi := .inl (.inr (.inl rfl))
  have hsubParam : VTState.csiSubParam.InCsi := .inl (.inr (.inr rfl))
  have hintermediate : VTState.csiIntermediate.InCsi := .inr (.inl rfl)
  have hignore : VTState.csiIgnore.InCsi := .inr (.inr rfl)
  have hcases : (isNumericParamValue wch || isParameterDelimiter wch) = true ∨ isSubParameterDelimiter wch = true ∨
      isIntermediate wch = true ∨ isCsiPrivateMarker wch = true := by
    rcases htests with ⟨-, -, h, -⟩ | ⟨h, -⟩ | ⟨-, -, -, h, -⟩
    · exact .inr (.inr (.inl h))
    · exact .inl h
    · exact ((Bool.or_eq_true _ _).mp h).elim (fun h => .inr (.inr (.inr h))) fun h => .inr (.inl h)
  have hinvalid : isIntermediate wch = false → isIntermediateInvalid wch = true := by
    intro hnot
    rcases htests with ⟨-, -, h, -⟩ | ⟨-, -, -, h⟩ | ⟨-, -, h, -⟩
    · exact absurd (hnot.symm.trans h) Bool.false_ne_true
    · exact h
    · exact h
  rcases hs with (rfl | rfl | rfl) | rfl | rfl
  · show ∀ a ∈ eventCsiEntry wch, a.KeepsCsi
    unfold eventCsiEntry
    split_ifs <;> simp_all [Action.KeepsCsi]
  · show ∀ a ∈ eventCsiParam wch, a.KeepsCsi
    unfold eventCsiParam
    split_ifs <;> simp_all [Action.KeepsCsi, isParameterInvalid]
  · show ∀ a ∈ eventCsiSubParam wch, a.KeepsCsi
    unfold eventCsiSubParam
    split_ifs <;> simp_all [Action.KeepsCsi, isParameterInvalid]
  · show ∀ a ∈ eventCsiIntermediate wch, a.KeepsCsi
    unfold eventCsiIntermediate
    split_ifs <;> simp_all [Action.KeepsCsi]
  · show ∀ a ∈ eventCsiIgnore wch, a.KeepsCsi
    unfold eventCsiIgnore
    split_ifs <;> simp_all [Action.KeepsCsi]

lemma performAll_inCsi {actions : List Action} (h : ∀ a ∈ actions, a.KeepsCsi) (hm : m.state.InCsi) :
    (m.performAll engine actions).state.InCsi := by
  induction actions generalizing m with
  | nil => exact hm
  | cons a actions ih =>
    refine ih (fun a ha => h a (List.mem_cons_of_mem _ ha)) ?_
    have ha := h a (List.mem_cons_self ..)
    cases a with
    | param wch =>
      show (m.actionParam wch).state.InCsi
      rwa [(actionParam_rest m wch).1]
    | subParam wch =>
      show (m.actionSubParam wch).state.InCsi
      rwa [(actionSubParam_rest m wch).1]
    | collect wch => exact hm
    | enter s =>
      show (m.enter engine s).state.InCsi
      rwa [enter_state]
    | _ => exact ha.elim

lemma step_inCsi (hw : isHeaderChar wch = true) (hm : m.state.InCsi) :
    (m.step engine (.character wch)).state.InCsi := by
  rw [step_stays (stays_of_isHeaderChar hw)]
  exact performAll_inCsi engine (event_keepsCsi _ _ hm hw) hm

lemma InCsi_ne {s : VTState} (h : s.InCsi) : s ≠ .ground := by
  rintro rfl
  exact absurd h (by simp [VTState.InCsi, VTState.ReadsParams])

lemma processSequence_csi {string : List UInt16} (hs : ∀ wch ∈ string, isHeaderChar wch = true)
    (hm : m.state.InCsi) (rest : List UInt16) :
    processSequence engine (string ++ rest) m = processSequence engine rest (read engine m string) := by
  induction string generalizing m with
  | nil => rfl
  | cons wch string ih =>
    have hstate := step_inCsi engine (hs wch (List.mem_cons_self ..)) hm
    rw [List.cons_append, processSequence_cons (InCsi_ne hstate), read_cons]
    exact ih (fun wch h => hs wch (List.mem_cons_of_mem _ h)) hstate

/-- The parameters are complete. -/
structure Ready (before : List EngineCall) (params : List CsiParameter) (m : StateMachine) : Prop where
  state : m.state.ReadsParams ∨ m.state = .csiIntermediate
  parameters : m.parameters = params.map fun p => valueOf p.digits
  subParameters : m.subParameters = params.flatMap CsiParameter.keptSubs
  ranges : m.subParameterRanges = rangesFrom 0 params
  calls : m.calls = before

lemma isHeaderChar_of_isIntermediate (hw : isIntermediate wch = true) : isHeaderChar wch = true := by
  simp only [isIntermediate, isHeaderChar, Bool.and_eq_true, decide_eq_true_eq, UInt16.le_iff_toNat_le] at hw ⊢
  exact ⟨hw.1, Nat.le_trans hw.2 (by decide)⟩

lemma Ready.intermediate (h : Ready before params m) (hw : isIntermediate wch = true) :
    Ready before params (m.step engine (.character wch)) := by
  have hheader := isHeaderChar_of_isIntermediate hw
  obtain ⟨hcontrol, htests⟩ := headerTests hheader
  obtain ⟨hc0, hdelete⟩ := tests_of_not_isControl hcontrol
  have hplain : isParam wch = false ∧ isSubParameterDelimiter wch = false := by
    rcases htests with ⟨hparam, hsub, -, -⟩ | ⟨-, -, hnot, -⟩ | ⟨-, hnot, -⟩
    · exact ⟨hparam, hsub⟩
    · exact absurd (hnot.symm.trans hw) Bool.false_ne_true
    · exact absurd (hnot.symm.trans hw) Bool.false_ne_true
  obtain ⟨hparam, hsub⟩ := hplain
  obtain ⟨hnumeric, hdelimiter⟩ := Bool.or_eq_false_iff.mp hparam
  have hevent : event engine.isEngineForInput m.parserMode wch m.state = [.collect wch, .enter .csiIntermediate] ∨
      m.state = .csiIntermediate ∧ event engine.isEngineForInput m.parserMode wch m.state = [.collect wch] := by
    rcases h.state with (hm | hm | hm) | hm
    · left
      rw [hm]
      show eventCsiEntry wch = _
      unfold eventCsiEntry
      rw [hc0, hdelete, hw]
      rfl
    · left
      rw [hm]
      show eventCsiParam wch = _
      unfold eventCsiParam
      rw [hc0, hdelete, hnumeric, hdelimiter, hsub, hw]
      rfl
    · left
      rw [hm]
      show eventCsiSubParam wch = _
      unfold eventCsiSubParam
      rw [hc0, hdelete, hnumeric, hdelimiter, hsub, hw]
      rfl
    · right
      refine ⟨hm, ?_⟩
      rw [hm]
      show eventCsiIntermediate wch = _
      unfold eventCsiIntermediate
      rw [hc0, hw]
      rfl
  rw [step_stays (stays_of_isHeaderChar hheader)]
  rcases hevent with hevent | ⟨hm, hevent⟩
  · rw [hevent]
    exact ⟨.inr rfl, h.parameters, h.subParameters, h.ranges, h.calls⟩
  · rw [hevent]
    exact ⟨.inr hm, h.parameters, h.subParameters, h.ranges, h.calls⟩

lemma Ready.intermediates (h : Ready before params m) {string : List UInt16}
    (hs : ∀ wch ∈ string, isIntermediate wch = true) : Ready before params (read engine m string) := by
  induction string generalizing m with
  | nil => exact h
  | cons wch string ih =>
    exact ih (h.intermediate engine (hs wch (List.mem_cons_self ..))) fun wch h => hs wch (List.mem_cons_of_mem _ h)

lemma afterCall_csiDispatches (m : StateMachine) :
    csiDispatches (m.afterCall engine).calls = csiDispatches m.calls := by
  unfold afterCall
  split
  · rfl
  · unfold flushToTerminal
    cases m.cachedSequence with
    | none | some => simp [csiDispatches, quietCall, EngineCall.isCsiDispatch]
  · rfl

/-- The final dispatches them. -/
lemma Ready.final (h : Ready before params m) (hw : isPlain wch = true) (hhigh : 0x40 ≤ wch.toNat) :
    (m.step engine (.character wch)).state = .ground ∧
      ∃ id, csiDispatches (m.step engine (.character wch)).calls =
        csiDispatches before ++ [dispatchOf id params] := by
  obtain ⟨hlow, hdelete, -⟩ := isPlain_bounds hw
  obtain ⟨hc0, hdelete⟩ := tests_of_not_isControl (not_isControl hlow hdelete)
  obtain ⟨hparam, hsub, hintermediate, hinvalid, hmarker⟩ := not_headerChar hhigh
  obtain ⟨hnumeric, hdelimiter⟩ := Bool.or_eq_false_iff.mp hparam
  have hevent : event engine.isEngineForInput m.parserMode wch m.state = [.csiDispatch wch, .enter .ground] := by
    rcases h.state with (hm | hm | hm) | hm
    · rw [hm]
      show eventCsiEntry wch = _
      unfold eventCsiEntry
      rw [hc0, hdelete, hintermediate, hnumeric, hdelimiter, hsub, hmarker]
      rfl
    · rw [hm]
      show eventCsiParam wch = _
      unfold eventCsiParam isParameterInvalid
      rw [hc0, hdelete, hnumeric, hdelimiter, hsub, hintermediate, hmarker]
      rfl
    · rw [hm]
      show eventCsiSubParam wch = _
      unfold eventCsiSubParam isParameterInvalid
      rw [hc0, hdelete, hnumeric, hdelimiter, hsub, hintermediate, hmarker]
      rfl
    · rw [hm]
      show eventCsiIntermediate wch = _
      unfold eventCsiIntermediate
      rw [hc0, hintermediate, hdelete, hinvalid]
      rfl
  rw [step_stays (stays_of_isPlain hw), hevent]
  refine ⟨rfl, m.identifier.finalize wch, ?_⟩
  show csiDispatches (({ m with currentRun := m.currentRun ++ [wch] }.call engine (.csiDispatch
    (m.identifier.finalize wch) m.parameters m.subParameters m.subParameterRanges)).afterCall engine).calls = _
  rw [afterCall_csiDispatches engine, h.parameters, h.subParameters, h.ranges]
  show csiDispatches (m.calls ++ _) = _
  rw [h.calls, csiDispatches, List.filter_append]
  rfl

/-! ### Strings -/

/-- A machine and the characters in front of the parameters: the machine is at ground and gets ESC [ first, or it is
where ESC [ has left it. -/
inductive AtParameters (engine : Engine) : StateMachine → List UInt16 → Prop
  | introduced {m : StateMachine} (hstate : m.state = .ground) (hansi : m.parserMode.ansi = true) :
      AtParameters engine m [esc, 0x5b]
  | entered (m : StateMachine) : AtParameters engine (m.enter engine .csiEntry) []

lemma textOf_header (params : List CsiParameter) : ∀ wch ∈ textOf params, isHeaderChar wch = true := by
  have hdigit (d : Fin 10) : isHeaderChar (digitChar d) = true := by
    revert d
    decide
  have hone (p : CsiParameter) : ∀ wch ∈ p.text, isHeaderChar wch = true := by
    intro wch hwch
    rcases List.mem_append.mp hwch with h | h
    · obtain ⟨d, -, rfl⟩ := List.mem_map.mp h
      exact hdigit d
    · obtain ⟨sub, -, h⟩ := List.mem_flatMap.mp h
      rcases List.mem_cons.mp h with rfl | h
      · rfl
      · obtain ⟨d, -, rfl⟩ := List.mem_map.mp h
        exact hdigit d
  induction params with
  | nil => exact fun wch h => nomatch h
  | cons p params ih =>
    cases params with
    | nil => exact hone p
    | cons q params =>
      intro wch hwch
      rcases List.mem_append.mp hwch with h | h
      · exact hone p wch h
      · rcases List.mem_cons.mp h with rfl | h
        · rfl
        · exact ih wch h

/-- The machine the parameters are read from. -/
structure Entered (before : List EngineCall) (t : StateMachine) : Prop where
  cleared : Cleared t
  state : t.state = .csiEntry
  kept : t.parameterLimitOverflowed = false
  calls : t.calls = before

/-- **The parameters are read as the merged ones.** -/
lemma Entered.ready (h : Entered before m) (hparams : params ≠ [{}]) :
    Ready before (merged params) (read engine m (textOf params)) := by
  cases params with
  | nil =>
    exact ⟨.inl (.inl h.state), h.cleared.parameters, h.cleared.subParameters, h.cleared.ranges, h.calls⟩
  | cons q rest =>
    have hreading : Reading before .csiEntry false [] {} m :=
      ⟨h.state, h.cleared.ensure, h.kept, h.calls, .inr ⟨rfl, h.cleared.overflowed⟩⟩
    obtain ⟨s', ignored', front', p', hs', hentry, hread, hmerged⟩ :=
      read_parameters engine hreading (.inl rfl) q rest
    have hne : s' ≠ .csiEntry := by
      intro hs
      obtain ⟨-, rfl, rfl⟩ := hentry hs
      exact hparams rfl
    have hholds := hread.kept hne
    rw [List.nil_append] at hmerged
    rw [← hmerged]
    refine ⟨.inl (hread.state ▸ hs'), ?_, ?_, hholds.ranges, hread.calls⟩
    · rw [hholds.parameters, List.map_append]
      rfl
    · rw [hholds.subParameters, List.flatMap_append, List.flatMap_singleton]

/-- What is read behind the start, up to the final. -/
lemma Entered.dispatches (h : Entered before m) (hparams : params ≠ [{}]) {intermediates : List UInt16}
    (hs : ∀ wch ∈ intermediates, isIntermediate wch = true) {final : UInt16} (hplain : isPlain final = true)
    (hfinal : 0x40 ≤ final.toNat) :
    ∃ t id, processSequence engine (textOf params ++ intermediates ++ [final]) m = (t, []) ∧ t.state = .ground ∧
      csiDispatches t.calls = csiDispatches before ++ [dispatchOf id (merged params)] := by
  have hheader : ∀ wch ∈ textOf params ++ intermediates, isHeaderChar wch = true := by
    intro wch hwch
    exact (List.mem_append.mp hwch).elim (textOf_header params wch) fun h => isHeaderChar_of_isIntermediate (hs wch h)
  have hready := (h.ready engine hparams).intermediates engine hs
  rw [← read_append] at hready
  obtain ⟨hground, id, hcalls⟩ := hready.final engine hplain hfinal
  refine ⟨_, id, ?_, hground, hcalls⟩
  rw [processSequence_csi engine hheader (.inl (.inl h.state))]
  exact if_neg (not_not.mpr hground)

lemma processLoop_nil (n : ℕ) (t : StateMachine) : processLoop engine n [] t = t := by
  cases n with
  | zero => rfl
  | succ n => rfl

lemma endOfString_ground (h : m.state = .ground) : m.endOfString engine = m := if_neg (not_not.mpr h)

/-- **ProcessString dispatches the merged parameters.** -/
lemma AtParameters.dispatches {lead : List UInt16} (h : AtParameters engine m lead) (hparams : params ≠ [{}])
    {intermediates : List UInt16} (hs : ∀ wch ∈ intermediates, isIntermediate wch = true) {final : UInt16}
    (hplain : isPlain final = true) (hfinal : 0x40 ≤ final.toNat) :
    ∃ id, csiDispatches (m.processString engine (lead ++ (textOf params ++ intermediates ++ [final]))).calls =
      csiDispatches m.calls ++ [dispatchOf id (merged params)] := by
  cases h with
  | entered m =>
    have hentered : Entered m.calls { m.enter engine .csiEntry with currentRun := [] } :=
      ⟨⟨rfl, rfl, rfl, rfl, rfl⟩, rfl, rfl, rfl⟩
    obtain ⟨t, id, hread, hground, hcalls⟩ := hentered.dispatches engine hparams hs hplain hfinal
    refine ⟨id, ?_⟩
    have hnot : (m.enter engine .csiEntry).state ≠ .ground := fun h => nomatch h
    unfold processString
    dsimp only
    rw [if_pos hnot, List.nil_append, hread, processLoop_nil, endOfString_ground engine hground]
    exact hcalls
  | introduced hstate hansi =>
    have hentered : Entered m.calls
        { (m.enter engine .escape).enter engine .csiEntry with currentRun := [esc, 0x5b] } :=
      ⟨⟨rfl, rfl, rfl, rfl, rfl⟩, rfl, rfl, rfl⟩
    obtain ⟨t, id, hread, hground, hcalls⟩ := hentered.dispatches engine hparams hs hplain hfinal
    refine ⟨id, ?_⟩
    have hescape := @step_escape engine m hstate
    have hintroducer : { m.enter engine .escape with currentRun := [esc] }.step engine (.character 0x5b) =
        { (m.enter engine .escape).enter engine .csiEntry with currentRun := [esc, 0x5b] } := by
      show { m.enter engine .escape with currentRun := [esc, 0x5b] }.processCharacter engine 0x5b = _
      unfold processCharacter processPlain actions
      rw [if_neg (by decide), if_neg (fun h => absurd h.1 (by decide)), if_neg (fun h => absurd h.1 (by decide))]
      have hevent : eventEscape engine.isEngineForInput m.parserMode 0x5b = [.enter .csiEntry] := by
        unfold eventEscape
        rw [hansi]
        rfl
      show performAll engine _ (eventEscape engine.isEngineForInput m.parserMode 0x5b) = _
      rw [hevent]
      rfl
    generalize textOf params ++ intermediates ++ [final] = string at *
    have hsequence : processSequence engine (esc :: 0x5b :: string) { m with currentRun := [] } = (t, []) := by
      rw [processSequence_cons (by rw [hescape]; exact fun h => nomatch h), hescape,
        processSequence_cons (by rw [hintroducer]; exact fun h => nomatch h), hintroducer]
      exact hread
    unfold processString
    dsimp only
    rw [if_neg (fun h => h hstate)]
    show csiDispatches (endOfString engine (processLoop engine (string.length + 1)
      (processSequence engine (esc :: 0x5b :: string) { m with currentRun := [] }).2
      (processSequence engine (esc :: 0x5b :: string) { m with currentRun := [] }).1)).calls = _
    rw [hsequence, processLoop_nil, endOfString_ground engine hground]
    exact hcalls

end Sequence

/-! ### The main result -/

/-- One dispatch, of the parameters the grammar keeps. -/
def DispatchesGrammar (params : List CsiParameter) (before after : List EngineCall) : Prop :=
  ∃ id, csiDispatches after = csiDispatches before ++ [dispatchOf id (params.take maxParameterCount)]

/-- No ignored parameter has a sub-parameter, or the last parameter that is kept has all that are kept. -/
def IgnoredSubsHarmless (params : List CsiParameter) : Prop :=
  (∀ p ∈ params.drop maxParameterCount, p.subs = []) ∨
    ∃ p ∈ params[maxParameterCount - 1]?, maxSubParameterCount ≤ p.subs.length

lemma keptSubs_append_iff (p : CsiParameter) (subs : List (List (Fin 10))) :
    CsiParameter.keptSubs { p with subs := p.subs ++ subs } = p.keptSubs ↔
      subs = [] ∨ maxSubParameterCount ≤ p.subs.length := by
  constructor
  · intro heq
    have hlength := congrArg List.length heq
    rw [keptSubs_length, keptSubs_length, List.length_append] at hlength
    rw [← List.length_eq_zero_iff]
    omega
  · rintro (rfl | hle)
    · rw [List.append_nil]
    · exact congrArg (List.map valueOf) (List.take_append_of_le_length hle)

lemma merged_of_le {params : List CsiParameter} (h : params.length ≤ maxParameterCount) : merged params = params := by
  rcases List.eq_nil_or_concat params with rfl | ⟨front, q, rfl⟩
  · rfl
  · rw [List.concat_eq_append] at h ⊢
    refine merged_short ?_ q
    rw [List.length_append, List.length_singleton] at h
    omega

/-- Two dispatches of the same parameters but for the sub-parameters of the last. -/
lemma dispatchOf_last_iff (id id' : UInt64) (front : List CsiParameter) (q : CsiParameter)
    (subs : List (List (Fin 10))) :
    dispatchOf id (front ++ [{ q with subs := q.subs ++ subs }]) = dispatchOf id' (front ++ [q]) ↔
      id = id' ∧ (subs = [] ∨ maxSubParameterCount ≤ q.subs.length) := by
  rw [← keptSubs_append_iff]
  constructor
  · intro heq
    obtain ⟨hid, -, hsubs, -⟩ := EngineCall.csiDispatch.inj heq
    rw [List.flatMap_append, List.flatMap_append] at hsubs
    have hlast := List.append_cancel_left hsubs
    rw [List.flatMap_singleton, List.flatMap_singleton] at hlast
    exact ⟨hid, hlast⟩
  · rintro ⟨rfl, hsame⟩
    unfold dispatchOf
    rw [List.map_append, List.map_append, List.flatMap_append, List.flatMap_append, rangesFrom_concat,
      rangesFrom_concat, List.flatMap_singleton, List.flatMap_singleton, hsame]
    rfl

/-- **The grammar is met exactly where the sub-parameters of ignored parameters do no harm.**  The empty text is that
of no parameters at all. -/
theorem csi_parameters_iff {engine : Engine} {m : StateMachine} {lead : List UInt16}
    (hstart : AtParameters engine m lead) {params : List CsiParameter} (hparams : params ≠ [{}])
    {intermediates : List UInt16} (hs : ∀ wch ∈ intermediates, isIntermediate wch = true) {final : UInt16}
    (hplain : isPlain final = true) (hfinal : 0x40 ≤ final.toNat) :
    DispatchesGrammar params m.calls
        (m.processString engine (lead ++ (textOf params ++ intermediates ++ [final]))).calls ↔
      IgnoredSubsHarmless params := by
  obtain ⟨id, hcalls⟩ := hstart.dispatches engine hparams hs hplain hfinal
  unfold DispatchesGrammar IgnoredSubsHarmless
  rw [hcalls]
  by_cases hshort : params.length ≤ maxParameterCount
  · rw [merged_of_le hshort, List.take_of_length_le hshort, List.drop_of_length_le hshort]
    exact ⟨fun _ => .inl fun p hp => (nomatch hp), fun _ => ⟨id, rfl⟩⟩
  · obtain ⟨front, q, rest, hlength, rfl⟩ : ∃ front q rest, front.length + 1 = maxParameterCount ∧
        params = front ++ q :: rest := by
      have hlt : maxParameterCount - 1 < params.length := by omega
      refine ⟨params.take (maxParameterCount - 1), params[maxParameterCount - 1], params.drop maxParameterCount,
        ?_, ?_⟩
      · rw [List.length_take, min_eq_left hlt.le]
        rfl
      · have hcons : params.drop (maxParameterCount - 1) =
            params[maxParameterCount - 1] :: params.drop maxParameterCount := List.drop_eq_getElem_cons hlt
        rw [← hcons, List.take_append_drop]
    have hsplit : front ++ q :: rest = front ++ [q] ++ rest := (List.append_assoc front [q] rest).symm
    have htake : (front ++ q :: rest).take maxParameterCount = front ++ [q] := by
      rw [hsplit, List.take_left' (by rw [List.length_append]; exact hlength)]
    have hdrop : (front ++ q :: rest).drop maxParameterCount = rest := by
      rw [hsplit, List.drop_left' (by rw [List.length_append]; exact hlength)]
    have hget : (front ++ q :: rest)[maxParameterCount - 1]? = some q := by
      rw [← hlength, Nat.add_sub_cancel, List.getElem?_append_right (Nat.le_refl _), Nat.sub_self]
      rfl
    have hnone : rest.flatMap CsiParameter.subs = [] ↔ ∀ p ∈ rest, p.subs = [] := List.flatMap_eq_nil_iff
    rw [merged_long hlength, htake, hdrop, hget, ← hnone]
    constructor
    · rintro ⟨id', heq⟩
      have hlast := (List.cons.inj (List.append_cancel_left heq)).1
      obtain ⟨-, h⟩ := (dispatchOf_last_iff ..).mp hlast
      exact h.imp (fun h => h) fun h => ⟨q, rfl, h⟩
    · intro hharmless
      refine ⟨id, ?_⟩
      rw [(dispatchOf_last_iff id id front q _).mpr ⟨rfl, ?_⟩]
      refine hharmless.imp (fun h => h) ?_
      rintro ⟨p, hp, hle⟩
      obtain rfl : q = p := Option.some.inj hp
      exact hle

/-- `ESC [ 38 : 5 : 1 m`. -/
theorem csi_parameters_indexed :
    let m : StateMachine := { parserMode := ⟨false, true⟩ }
    DispatchesGrammar [{ digits := [3, 8], subs := [[5], [1]] }] m.calls
      (m.processString acceptingEngine
        ([esc, 0x5b] ++ (textOf [{ digits := [3, 8], subs := [[5], [1]] }] ++ [] ++ [0x6d]))).calls := by
  intro m
  exact (csi_parameters_iff (.introduced rfl rfl) (by simp) (fun _ h => absurd h List.not_mem_nil)
    (by decide) (by decide)).mpr
    (.inl fun _ h => absurd h List.not_mem_nil)

/-- Thirty-two empty parameters and one more with a sub-parameter: the parser gives it to the last one that is
kept. -/
theorem ignored_sub_dispatched :
    let blank : CsiParameter := {}
    let params : List CsiParameter := List.replicate 31 blank ++ [blank, { subs := [[1]] }]
    let m : StateMachine := { parserMode := ⟨false, true⟩ }
    ¬ DispatchesGrammar params m.calls
      (m.processString acceptingEngine ([esc, 0x5b] ++ (textOf params ++ [] ++ [0x6d]))).calls := by
  intro blank params m hgrammar
  obtain ⟨id', hcalls'⟩ := hgrammar
  have hstart : AtParameters acceptingEngine m [esc, 0x5b] := .introduced rfl rfl
  have hparams : params ≠ [blank] := by
    intro h
    exact absurd (congrArg List.length h : 33 = 1) (by decide)
  have hfinal : 0x40 ≤ (0x6d : UInt16).toNat := by decide
  obtain ⟨id, hcalls⟩ := @AtParameters.dispatches acceptingEngine m params _ hstart hparams []
    (fun _ h => absurd h List.not_mem_nil) 0x6d (by decide) hfinal
  rw [hcalls] at hcalls'
  have hlast : dispatchOf id (List.replicate 31 blank ++ [{ blank with subs := blank.subs ++ [[1]] }]) =
      dispatchOf id' (List.replicate 31 blank ++ [blank]) := (List.cons.inj (List.append_cancel_left hcalls')).1
  have hnot := ((dispatchOf_last_iff id id' (List.replicate 31 blank) blank [[1]]).mp hlast).2
  rcases hnot with h | h
  · cases h
  · exact absurd h (by decide)

end VT7.Parser
