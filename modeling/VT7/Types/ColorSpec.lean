import Mathlib.Algebra.Group.Nat.Defs
import Mathlib.Data.List.Basic
import Mathlib.Data.Nat.Notation
import Mathlib.Tactic.SplitIfs

/-!
# Colour specifications

`ColorFromXParseColorSpec` reads `rgb:red/green/blue` and `#redgreenblue` with one loop.  It is compared with a grammar
of the two forms.
-/

namespace VT7.Types

/-! ### The parser -/

/-- Why there is no colour: the specification is refused, or the machine stops. -/
inductive ColorError
  | nullopt
  | divisionByZero
deriving DecidableEq

/-- `til::color`, without the alpha channel that is always 0xff here. -/
structure Color where
  r : UInt8
  g : UInt8
  b : UInt8
deriving DecidableEq

def hexToUint (wch : UInt16) : Option ℕ :=
  if 0x30 ≤ wch && wch ≤ 0x39 then some (wch - 0x30).toNat
  else if 0x41 ≤ wch && wch ≤ 0x46 then some ((wch - 0x41).toNat + 10)
  else if 0x61 ≤ wch && wch ≤ 0x66 then some ((wch - 0x61).toNat + 10)
  else none

/-- An ASCII capital is made small. -/
def asciiLower (x : UInt16) : UInt16 := if 0x41 ≤ x && x ≤ 0x5a then x + 0x20 else x

/-- `"rgb:"`. -/
def rgbPrefix : List UInt16 := [0x72, 0x67, 0x62, 0x3a]

def sharp : UInt16 := 0x23
def slash : UInt16 := 0x2f

/-- The text from `curr` on and the number of digits of the component before. -/
structure SpecState where
  curr : List UInt16
  rgbHexDigitCount : ℕ

/-- What the loop over the digits of a component leaves. -/
structure DigitState where
  curr : List UInt16
  rgbHexDigitCount : ℕ
  parameterValue : ℕ
  foundColor : Bool

/-- The loop over the digits of a component, for `i` and the iterations after it. -/
def digitLoop (isSharpSignFormat : Bool) (component : ℕ) : (iterations i : ℕ) → DigitState → Except ColorError DigitState
  | 0, _, s => .ok s
  | iterations + 1, i, s =>
    match s.curr with
    | [] => .ok s
    | wch :: curr =>
      match hexToUint wch with
      | none => .error .nullopt
      | some intVal =>
        let parameterValue := s.parameterValue * 16 + intVal
        if isSharpSignFormat then
          let next : DigitState := ⟨curr, s.rgbHexDigitCount, parameterValue, true⟩
          if i ≥ s.rgbHexDigitCount then .ok next
          else digitLoop isSharpSignFormat component iterations (i + 1) next
        else if component < 2 && curr.head? = some slash then .ok ⟨curr.tail, i + 1, parameterValue, true⟩
        else if curr.isEmpty then .ok ⟨curr, i + 1, parameterValue, true⟩
        else digitLoop isSharpSignFormat component iterations (i + 1) ⟨curr, i + 1, parameterValue, s.foundColor⟩

/-- `scaleDivisor`. -/
def scaleDivisor (isSharpSignFormat : Bool) (rgbHexDigitCount : ℕ) : ℕ :=
  (if isSharpSignFormat then 0x10 else 0x11) <<< 8 >>> (4 * (4 - rgbHexDigitCount))

/-- `parameterValue * scaleMultiplier / scaleDivisor`. -/
def scaled (isSharpSignFormat : Bool) (rgbHexDigitCount parameterValue : ℕ) : Except ColorError ℕ :=
  if scaleDivisor isSharpSignFormat rgbHexDigitCount = 0 then .error .divisionByZero
  else .ok (parameterValue * (if isSharpSignFormat then 0x10 else 0x11) / scaleDivisor isSharpSignFormat rgbHexDigitCount)

/-- One round of the loop over the components. -/
def parseComponent (isSharpSignFormat : Bool) (component : ℕ) (s : SpecState) : Except ColorError (ℕ × SpecState) := do
  let iteration := if isSharpSignFormat then s.rgbHexDigitCount else 4
  let found ← digitLoop isSharpSignFormat component iteration 0 ⟨s.curr, s.rgbHexDigitCount, 0, false⟩
  if !found.foundColor then throw .nullopt
  let colorValue ← scaled isSharpSignFormat found.rgbHexDigitCount found.parameterValue
  return (colorValue, ⟨found.curr, found.rgbHexDigitCount⟩)

/-- The three components, before they are cut to bytes. -/
def parseComponents (isSharpSignFormat : Bool) (s : SpecState) : Except ColorError (ℕ × ℕ × ℕ) := do
  let (r, s) ← parseComponent isSharpSignFormat 0 s
  let (g, s) ← parseComponent isSharpSignFormat 1 s
  let (b, s) ← parseComponent isSharpSignFormat 2 s
  if s.curr.isEmpty then return (r, g, b) else throw .nullopt

/-- What `ColorFromXParseColorSpec` makes of the string, up to the three color values. -/
def colorValues (string : List UInt16) : Except ColorError (ℕ × ℕ × ℕ) :=
  if string.length > 4 && (string.take 4).map asciiLower = rgbPrefix then
    if string.length < 9 || string.length > 18 then .error .nullopt
    else parseComponents false ⟨string.drop 4, 0⟩
  else if string.length > 1 && string.head? = some sharp then
    if !(string.length = 4 || string.length = 7 || string.length = 10 || string.length = 13) then .error .nullopt
    else parseComponents true ⟨string.drop 1, (string.length - 1) / 3⟩
  else .error .nullopt

def colorFromXParseColorSpec (string : List UInt16) : Except ColorError Color := do
  let (r, g, b) ← colorValues string
  return ⟨.ofNat r, .ofNat g, .ofNat b⟩

/-! ### The grammar -/

def IsHexDigit (c : UInt16) : Prop := (0x30 ≤ c ∧ c ≤ 0x39) ∨ (0x41 ≤ c ∧ c ≤ 0x46) ∨ (0x61 ≤ c ∧ c ≤ 0x66)

instance : DecidablePred IsHexDigit := fun c => by
  unfold IsHexDigit
  infer_instance

/-- The digits read behind a value. -/
def hexFrom (value : ℕ) (digits : List UInt16) : ℕ :=
  digits.foldl (fun value c => value * 16 + (hexToUint c).getD 0) value

/-- The value of a group of hex digits. -/
def hexValue (digits : List UInt16) : ℕ := hexFrom 0 digits

/-- One to four hex digits. -/
structure IsGroup (digits : List UInt16) : Prop where
  pos : 0 < digits.length
  le : digits.length ≤ 4
  hex : ∀ c ∈ digits, IsHexDigit c

instance (digits : List UInt16) : Decidable (IsGroup digits) :=
  have : Decidable (∀ c ∈ digits, IsHexDigit c) := List.decidableBAll IsHexDigit digits
  decidable_of_iff (0 < digits.length ∧ digits.length ≤ 4 ∧ ∀ c ∈ digits, IsHexDigit c)
    ⟨fun h => ⟨h.1, h.2.1, h.2.2⟩, fun h => ⟨h.pos, h.le, h.hex⟩⟩

/-- One or two digits are scaled to 255, of three or four the top eight bits are taken. -/
def rgbComponent (digits : List UInt16) : ℕ :=
  if digits.length ≤ 2 then hexValue digits * 255 / (16 ^ digits.length - 1)
  else hexValue digits / 2 ^ (4 * digits.length - 8)

/-- The value of the first two digits; behind a single digit stands a zero. -/
def sharpComponent (digits : List UInt16) : ℕ :=
  if digits.length = 1 then hexValue digits * 16 else hexValue (digits.take 2)

/-- The specifications and the components they stand for. -/
inductive Denotes : List UInt16 → ℕ × ℕ × ℕ → Prop
  | rgb {p r g b : List UInt16} (hp : p.map asciiLower = rgbPrefix) (hr : IsGroup r) (hg : IsGroup g)
      (hb : IsGroup b) :
      Denotes (p ++ (r ++ slash :: (g ++ slash :: b))) (rgbComponent r, rgbComponent g, rgbComponent b)
  | sharp {r g b : List UInt16} (hr : IsGroup r) (hg : IsGroup g) (hb : IsGroup b) (hrg : r.length = g.length)
      (hgb : g.length = b.length) :
      Denotes (sharp :: (r ++ (g ++ b))) (sharpComponent r, sharpComponent g, sharpComponent b)

/-! ### Digits -/

theorem hexToUint_eq_none {c : UInt16} : hexToUint c = none ↔ ¬ IsHexDigit c := by
  unfold hexToUint IsHexDigit
  split_ifs with hdecimal hcapital hsmall
  all_goals simp_all

theorem toNat_sub_le {c lo hi : UInt16} (hlo : lo ≤ c) (hhi : c ≤ hi) :
    (c - lo).toNat ≤ hi.toNat - lo.toNat := by
  rw [UInt16.toNat_sub_of_le c lo hlo]
  exact Nat.sub_le_sub_right (UInt16.le_iff_toNat_le.mp hhi) _

theorem hexToUint_lt {c : UInt16} {v : ℕ} (h : hexToUint c = some v) : v < 16 := by
  unfold hexToUint at h
  split_ifs at h with hdecimal hcapital hsmall
  · simp only [Bool.and_eq_true, decide_eq_true_eq] at hdecimal
    have hle : (c - 0x30).toNat ≤ 9 := toNat_sub_le hdecimal.1 hdecimal.2
    cases h
    omega
  · simp only [Bool.and_eq_true, decide_eq_true_eq] at hcapital
    have hle : (c - 0x41).toNat ≤ 5 := toNat_sub_le hcapital.1 hcapital.2
    cases h
    omega
  · simp only [Bool.and_eq_true, decide_eq_true_eq] at hsmall
    have hle : (c - 0x61).toNat ≤ 5 := toNat_sub_le hsmall.1 hsmall.2
    cases h
    omega

theorem exists_of_isHexDigit {c : UInt16} (h : IsHexDigit c) : ∃ v, hexToUint c = some v := by
  cases hv : hexToUint c with
  | none => exact absurd h (hexToUint_eq_none.mp hv)
  | some v => exact ⟨v, rfl⟩

theorem not_isHexDigit_slash : ¬ IsHexDigit slash := by
  unfold IsHexDigit slash
  decide

theorem hexFrom_cons (value : ℕ) {c : UInt16} {v : ℕ} (h : hexToUint c = some v) (digits : List UInt16) :
    hexFrom value (c :: digits) = hexFrom (value * 16 + v) digits := by
  simp [hexFrom, h]

theorem hexFrom_lt {n : ℕ} (digits : List UInt16) {value : ℕ} (h : value < 16 ^ n) :
    hexFrom value digits < 16 ^ (n + digits.length) := by
  induction digits generalizing value n with
  | nil => exact h
  | cons c digits ih =>
    have hdigit : (hexToUint c).getD 0 < 16 := by
      cases hv : hexToUint c with
      | none => exact Nat.zero_lt_succ _
      | some v => exact hexToUint_lt hv
    have hvalue : value * 16 + (hexToUint c).getD 0 < 16 ^ (n + 1) := by
      rw [Nat.pow_succ]
      omega
    have := ih hvalue
    rwa [Nat.add_assoc, Nat.add_comm 1] at this

theorem hexValue_lt (digits : List UInt16) : hexValue digits < 16 ^ digits.length := by
  have := @hexFrom_lt 0 digits 0 (by decide)
  rwa [Nat.zero_add] at this

theorem hexFrom_append (value : ℕ) (front back : List UInt16) :
    hexFrom value (front ++ back) = hexFrom (hexFrom value front) back := List.foldl_append

/-- The digits after the first ones are cut off by a division. -/
theorem hexFrom_div (digits : List UInt16) (value : ℕ) : hexFrom value digits / 16 ^ digits.length = value := by
  induction digits generalizing value with
  | nil => simp [hexFrom]
  | cons c digits ih =>
    have hdigit : (hexToUint c).getD 0 < 16 := by
      cases hv : hexToUint c with
      | none => exact Nat.zero_lt_succ _
      | some v => exact hexToUint_lt hv
    have hstep : hexFrom value (c :: digits) = hexFrom (value * 16 + (hexToUint c).getD 0) digits := rfl
    rw [hstep, List.length_cons, Nat.pow_succ, ← Nat.div_div_eq_div_mul, ih]
    omega

/-! ### Scaling -/

theorem scaled_rgb {digits : List UInt16} (h : IsGroup digits) :
    scaled false digits.length (hexValue digits) = .ok (rgbComponent digits) := by
  have hpos := h.pos
  have hle := h.le
  unfold scaled rgbComponent scaleDivisor
  generalize hexValue digits = v
  obtain hn | hn | hn | hn : digits.length = 1 ∨ digits.length = 2 ∨ digits.length = 3 ∨ digits.length = 4 := by omega
  all_goals
    rw [hn]
    simp only [Bool.false_eq_true, if_false, Nat.reduceSub, Nat.reduceMul, Nat.reduceShiftLeft, Nat.reduceShiftRight,
      Nat.reduceEqDiff, Nat.reduceLeDiff, if_true, Nat.reducePow]
    congr 1
    omega

theorem scaled_sharp {digits : List UInt16} (h : IsGroup digits) :
    scaled true digits.length (hexValue digits) = .ok (sharpComponent digits) := by
  have hpos := h.pos
  have hle := h.le
  have hfirst : 2 ≤ digits.length → hexValue (digits.take 2) = hexValue digits / 16 ^ (digits.length - 2) := by
    intro htwo
    have hcut := hexFrom_div (digits.drop 2) (hexValue (digits.take 2))
    rw [hexValue, ← hexFrom_append, List.take_append_drop, List.length_drop] at hcut
    exact hcut.symm
  unfold scaled sharpComponent scaleDivisor
  obtain hn | hn | hn | hn : digits.length = 1 ∨ digits.length = 2 ∨ digits.length = 3 ∨ digits.length = 4 := by omega
  · rw [hn]
    simp
  all_goals
    rw [hfirst (by omega)]
    generalize hexValue digits = v
    rw [hn]
    simp only [if_true, Nat.reduceSub, Nat.reduceMul, Nat.reduceShiftLeft, Nat.reduceShiftRight, Nat.reduceEqDiff,
      if_false, Nat.reducePow]
    congr 1
    omega

theorem rgbComponent_le {digits : List UInt16} (h : IsGroup digits) : rgbComponent digits ≤ 255 := by
  have hpos := h.pos
  have hle := h.le
  have hlt := hexValue_lt digits
  unfold rgbComponent
  generalize hexValue digits = v at *
  obtain hn | hn | hn | hn : digits.length = 1 ∨ digits.length = 2 ∨ digits.length = 3 ∨ digits.length = 4 := by omega
  all_goals
    rw [hn] at hlt ⊢
    simp only [Nat.reduceLeDiff, if_true, if_false, Nat.reducePow, Nat.reduceSub, Nat.reduceMul] at hlt ⊢
    omega

theorem sharpComponent_le {digits : List UInt16} (h : IsGroup digits) : sharpComponent digits ≤ 255 := by
  have hpos := h.pos
  unfold sharpComponent
  split_ifs with hone
  · have hlt := hexValue_lt digits
    rw [hone] at hlt
    omega
  · have hlt := hexValue_lt (digits.take 2)
    rw [List.length_take_of_le (by omega)] at hlt
    omega

/-! ### The digits of a component -/

section digits
variable {component iterations i n : ℕ} {v : ℕ} {c : UInt16} {rest : List UInt16} {found : Bool}

theorem digitLoop_zero (isSharp : Bool) (s : DigitState) : digitLoop isSharp component 0 i s = .ok s := rfl

theorem digitLoop_refused (isSharp : Bool) (h : ¬ IsHexDigit c) :
    digitLoop isSharp component (iterations + 1) i ⟨c :: rest, n, v, found⟩ = .error .nullopt := by
  simp [digitLoop, hexToUint_eq_none.mpr h]

theorem digitLoop_sharp_cons {w : ℕ} (h : hexToUint c = some w) (hi : i < n) :
    digitLoop true component (iterations + 1) i ⟨c :: rest, n, v, found⟩ =
      digitLoop true component iterations (i + 1) ⟨rest, n, v * 16 + w, true⟩ := by
  simp [digitLoop, h, Nat.not_le.mpr hi]

theorem digitLoop_rgb_cons {w : ℕ} (h : hexToUint c = some w) :
    digitLoop false component (iterations + 1) i ⟨c :: rest, n, v, found⟩ =
      if component < 2 ∧ rest.head? = some slash then .ok ⟨rest.tail, i + 1, v * 16 + w, true⟩
      else if rest = [] then .ok ⟨rest, i + 1, v * 16 + w, true⟩
      else digitLoop false component iterations (i + 1) ⟨rest, i + 1, v * 16 + w, found⟩ := by
  simp [digitLoop, h]

/-- A component of `#...` takes its `n` digits. -/
theorem digitLoop_sharp (digits : List UInt16) (hn : i + digits.length = n)
    (hhex : ∀ c ∈ digits, IsHexDigit c) :
    digitLoop true component digits.length i ⟨digits ++ rest, n, v, found⟩ =
      .ok ⟨rest, n, hexFrom v digits, found || !digits.isEmpty⟩ := by
  induction digits generalizing i v found with
  | nil => simp [digitLoop_zero, hexFrom]
  | cons c digits ih =>
    obtain ⟨w, hw⟩ := exists_of_isHexDigit (hhex c (by simp))
    rw [List.length_cons] at hn
    rw [List.length_cons, List.cons_append, digitLoop_sharp_cons hw (by omega),
      ih (by omega) (fun d hd => hhex d (List.mem_cons_of_mem _ hd)), hexFrom_cons v hw]
    simp

theorem digitLoop_sharp_error (digits : List UInt16) (hn : i + digits.length = n)
    (hhex : ¬ ∀ c ∈ digits, IsHexDigit c) :
    digitLoop true component digits.length i ⟨digits ++ rest, n, v, found⟩ = .error .nullopt := by
  induction digits generalizing i v found with
  | nil => simp at hhex
  | cons c digits ih =>
    rw [List.length_cons] at hn
    rw [List.length_cons, List.cons_append]
    by_cases hc : IsHexDigit c
    · obtain ⟨w, hw⟩ := exists_of_isHexDigit hc
      rw [digitLoop_sharp_cons hw (by omega)]
      apply ih (by omega)
      intro hall
      apply hhex
      simpa [hc] using hall
    · exact digitLoop_refused true hc

/-- How a component of `rgb:...` ends behind its digits. -/
def EndsAt (component : ℕ) (digits curr rest : List UInt16) : Prop :=
  (component < 2 ∧ curr = digits ++ slash :: rest) ∨ (curr = digits ∧ rest = [])

theorem endsAt_cons (digits curr : List UInt16) :
    EndsAt component (c :: digits) (c :: curr) rest ↔ EndsAt component digits curr rest := by
  simp [EndsAt]

theorem head_of_endsAt {d : UInt16} {digits curr : List UInt16}
    (h : EndsAt component (d :: digits) (c :: curr) rest) : c = d := by
  rcases h with ⟨-, h⟩ | ⟨h, -⟩
  · exact (List.cons.inj h).1
  · exact (List.cons.inj h).1

theorem endsAt_nil (curr : List UInt16) :
    EndsAt component [] curr rest ↔
      (component < 2 ∧ curr.head? = some slash ∧ rest = curr.tail) ∨ (curr = [] ∧ rest = []) := by
  unfold EndsAt
  cases curr with
  | nil => simp
  | cons d curr =>
    simp only [List.nil_append, List.cons.injEq, List.head?_cons, Option.some.injEq, List.tail_cons]
    grind

/-- No digit stands at the end of a component. -/
theorem eq_nil_of_endsAt {digits curr rest' : List UInt16} (hend : EndsAt component [] curr rest)
    (hhex : ∀ c ∈ digits, IsHexDigit c) (h : EndsAt component digits curr rest') : digits = [] := by
  cases digits with
  | nil => rfl
  | cons d digits =>
    have hslash : d ≠ slash := fun hd => not_isHexDigit_slash (hd ▸ hhex d (by simp))
    rcases hend with ⟨-, rfl⟩ | ⟨rfl, -⟩ <;> rcases h with ⟨-, h⟩ | ⟨h, -⟩
    · exact absurd (List.cons.inj h).1.symm hslash
    · exact absurd (List.cons.inj h).1.symm hslash
    · cases h
    · cases h

/-- What the loop over the digits of `rgb:...` finds. -/
theorem digitLoop_rgb (curr : List UInt16) (s : DigitState) :
    digitLoop false component iterations i ⟨curr, n, v, false⟩ = .ok s ∧ s.foundColor = true ↔
      ∃ digits rest, digits ≠ [] ∧ digits.length ≤ iterations ∧ (∀ c ∈ digits, IsHexDigit c) ∧
        EndsAt component digits curr rest ∧ s = ⟨rest, i + digits.length, hexFrom v digits, true⟩ := by
  induction iterations generalizing i v n curr with
  | zero =>
    constructor
    · rintro ⟨h, hfound⟩
      cases h
      cases hfound
    · rintro ⟨digits, rest, hne, hle, -⟩
      exact absurd (List.length_eq_zero_iff.mp (Nat.le_zero.mp hle)) hne
  | succ iterations ih =>
    cases curr with
    | nil =>
      constructor
      · rintro ⟨h, hfound⟩
        cases h
        cases hfound
      · rintro ⟨digits, rest, hne, -, -, ⟨-, hcurr⟩ | ⟨hcurr, -⟩, -⟩
        · simp at hcurr
        · exact absurd hcurr.symm hne
    | cons c curr =>
      by_cases hc : IsHexDigit c
      · obtain ⟨w, hw⟩ := exists_of_isHexDigit hc
        rw [digitLoop_rgb_cons hw]
        have hfirst : (∃ digits rest, digits ≠ [] ∧ digits.length ≤ iterations + 1 ∧ (∀ c ∈ digits, IsHexDigit c) ∧
            EndsAt component digits (c :: curr) rest ∧ s = ⟨rest, i + digits.length, hexFrom v digits, true⟩) ↔
            ∃ digits rest, digits.length ≤ iterations ∧ (∀ c ∈ digits, IsHexDigit c) ∧
              EndsAt component digits curr rest ∧
              s = ⟨rest, i + 1 + digits.length, hexFrom (v * 16 + w) digits, true⟩ := by
          constructor
          · rintro ⟨digits, rest, hne, hle, hhex, hends, hs⟩
            obtain ⟨d, digits, rfl⟩ := List.exists_cons_of_ne_nil hne
            obtain rfl : c = d := head_of_endsAt hends
            refine ⟨digits, rest, Nat.le_of_succ_le_succ hle, fun d hd => hhex d (List.mem_cons_of_mem _ hd),
              (endsAt_cons digits curr).mp hends, ?_⟩
            rw [hs, List.length_cons, hexFrom_cons v hw, Nat.add_assoc, Nat.add_comm 1]
          · rintro ⟨digits, rest, hle, hhex, hends, hs⟩
            refine ⟨c :: digits, rest, List.cons_ne_nil _ _, Nat.succ_le_succ hle, ?_, (endsAt_cons digits curr).mpr hends,
              ?_⟩
            · simpa [hc] using hhex
            · rw [hs, List.length_cons, hexFrom_cons v hw, Nat.add_assoc, Nat.add_comm 1]
        rw [hfirst]
        by_cases hend : ∃ rest, EndsAt component [] curr rest
        · -- The digit is the last one of the component.
          obtain ⟨rest, hend⟩ := hend
          have hall : (∃ digits rest, digits.length ≤ iterations ∧ (∀ c ∈ digits, IsHexDigit c) ∧
              EndsAt component digits curr rest ∧
              s = ⟨rest, i + 1 + digits.length, hexFrom (v * 16 + w) digits, true⟩) ↔
              s = ⟨rest, i + 1, v * 16 + w, true⟩ := by
            constructor
            · rintro ⟨digits, rest', -, hhex, hends, hs⟩
              obtain rfl := eq_nil_of_endsAt hend hhex hends
              obtain rfl : rest' = rest := by
                rw [endsAt_nil] at hend hends
                grind
              exact hs
            · intro hs
              exact ⟨[], rest, Nat.zero_le _, by simp, hend, hs⟩
          rw [hall]
          rcases (endsAt_nil curr).mp hend with ⟨hlt, hhead, rfl⟩ | ⟨rfl, rfl⟩
          · rw [if_pos ⟨hlt, hhead⟩]
            grind
          · rw [if_neg (by simp), if_pos rfl]
            grind
        · have hslash : ¬ (component < 2 ∧ curr.head? = some slash) := fun h =>
            hend ⟨curr.tail, (endsAt_nil curr).mpr (.inl ⟨h.1, h.2, rfl⟩)⟩
          have hcurr : curr ≠ [] := fun h => hend ⟨[], (endsAt_nil curr).mpr (.inr ⟨h, rfl⟩)⟩
          rw [if_neg hslash, if_neg hcurr, ih curr]
          constructor
          · rintro ⟨digits, rest, -, hle, hhex, hends, hs⟩
            exact ⟨digits, rest, hle, hhex, hends, hs⟩
          · rintro ⟨digits, rest, hle, hhex, hends, hs⟩
            refine ⟨digits, rest, ?_, hle, hhex, hends, hs⟩
            rintro rfl
            exact hend ⟨rest, hends⟩
      · rw [digitLoop_refused false hc]
        constructor
        · rintro ⟨h, -⟩
          cases h
        · rintro ⟨digits, rest, hne, -, hhex, hends, -⟩
          obtain ⟨d, digits, rfl⟩ := List.exists_cons_of_ne_nil hne
          obtain rfl : c = d := head_of_endsAt hends
          exact absurd (hhex c (by simp)) hc

end digits

/-! ### The components -/

section components
variable {component : ℕ} {s s' : SpecState} {v : ℕ}

theorem digitLoop_error {isSharp : Bool} {iterations i : ℕ} {s : DigitState} {e : ColorError}
    (h : digitLoop isSharp component iterations i s = .error e) : e = .nullopt := by
  induction iterations generalizing i s with
  | zero => cases h
  | succ iterations ih =>
    unfold digitLoop at h
    split at h
    · cases h
    · split at h
      · cases h
        rfl
      · dsimp only at h
        split_ifs at h
        · exact ih h
        · exact ih h

theorem parseComponent_rgb :
    parseComponent false component s = .ok (v, s') ↔
      ∃ digits rest, IsGroup digits ∧ EndsAt component digits s.curr rest ∧ v = rgbComponent digits ∧
        s' = ⟨rest, digits.length⟩ := by
  have hloop := @digitLoop_rgb component 4 0 s.rgbHexDigitCount 0 s.curr
  constructor
  · intro h
    unfold parseComponent at h
    cases hdigits : digitLoop false component 4 0 ⟨s.curr, s.rgbHexDigitCount, 0, false⟩ with
    | error e =>
      simp [hdigits, bind, Except.bind] at h
    | ok found =>
      cases hfound : found.foundColor with
      | false => simp [hdigits, hfound, bind, Except.bind, throw, throwThe, MonadExceptOf.throw] at h
      | true =>
        obtain ⟨digits, rest, hne, hle, hhex, hends, hs⟩ := (hloop found).mp ⟨hdigits, hfound⟩
        have hgroup : IsGroup digits := ⟨List.length_pos_iff.mpr hne, hle, hhex⟩
        have hscaled := scaled_rgb hgroup
        rw [hexValue] at hscaled
        subst hs
        simp only [hdigits, bind, Except.bind, Bool.false_eq_true, if_false, Bool.not_true, Nat.zero_add, hscaled, pure,
          Except.pure, Except.ok.injEq, Prod.mk.injEq] at h
        exact ⟨digits, rest, hgroup, hends, h.1.symm, h.2.symm⟩
  · rintro ⟨digits, rest, hgroup, hends, rfl, rfl⟩
    obtain ⟨hdigits, -⟩ := (hloop _).mpr
      ⟨digits, rest, List.length_pos_iff.mp hgroup.pos, hgroup.le, hgroup.hex, hends, rfl⟩
    have hscaled := scaled_rgb hgroup
    rw [hexValue] at hscaled
    unfold parseComponent
    simp [hdigits, hscaled, bind, Except.bind, pure, Except.pure]

theorem parseComponent_rgb_error {e : ColorError} (h : parseComponent false component s = .error e) :
    e = .nullopt := by
  have hloop := @digitLoop_rgb component 4 0 s.rgbHexDigitCount 0 s.curr
  unfold parseComponent at h
  cases hdigits : digitLoop false component 4 0 ⟨s.curr, s.rgbHexDigitCount, 0, false⟩ with
  | error e' =>
    simp only [hdigits, bind, Except.bind, Bool.false_eq_true, if_false, Except.error.injEq] at h
    rw [← h]
    exact digitLoop_error hdigits
  | ok found =>
    cases hfound : found.foundColor with
    | false =>
      simp only [hdigits, hfound, bind, Except.bind, throw, throwThe, MonadExceptOf.throw, Bool.false_eq_true, if_false,
        Bool.not_false, if_true, Except.error.injEq] at h
      exact h.symm
    | true =>
      obtain ⟨digits, rest, hne, hle, hhex, -, hs⟩ := (hloop found).mp ⟨hdigits, hfound⟩
      have hscaled := scaled_rgb ⟨List.length_pos_iff.mpr hne, hle, hhex⟩
      rw [hexValue] at hscaled
      subst hs
      simp [hdigits, bind, Except.bind, hscaled, pure, Except.pure] at h

theorem parseComponent_sharp {digits rest : List UInt16} (hpos : 0 < digits.length) (hle : digits.length ≤ 4) :
    parseComponent true component ⟨digits ++ rest, digits.length⟩ =
      if IsGroup digits then .ok (sharpComponent digits, ⟨rest, digits.length⟩) else .error .nullopt := by
  unfold parseComponent
  by_cases hgroup : IsGroup digits
  · have hscaled := scaled_sharp hgroup
    rw [hexValue] at hscaled
    have hne : digits ≠ [] := List.length_pos_iff.mp hpos
    rw [if_pos hgroup]
    simp [digitLoop_sharp digits (Nat.zero_add _) hgroup.hex, hscaled, hne, bind, Except.bind, pure, Except.pure]
  · have hhex : ¬ ∀ c ∈ digits, IsHexDigit c := fun h => hgroup ⟨hpos, hle, h⟩
    rw [if_neg hgroup]
    simp [digitLoop_sharp_error digits (Nat.zero_add _) hhex, bind, Except.bind]

/-- Two components that are there leave no doubt where the first one ends. -/
theorem EndsAt.followed {digits digits' curr rest rest' : List UInt16} {component' : ℕ}
    (h : EndsAt component digits curr rest) (hnext : EndsAt component' digits' rest rest') (hpos : 0 < digits'.length) :
    component < 2 ∧ curr = digits ++ slash :: rest := by
  rcases h with h | ⟨-, rfl⟩
  · exact h
  · rcases hnext with ⟨-, h⟩ | ⟨rfl, -⟩
    · simp at h
    · cases hpos

theorem parseComponents_rgb {curr : List UInt16} {n : ℕ} {values : ℕ × ℕ × ℕ} :
    parseComponents false ⟨curr, n⟩ = .ok values ↔
      ∃ r g b, IsGroup r ∧ IsGroup g ∧ IsGroup b ∧ curr = r ++ slash :: (g ++ slash :: b) ∧
        values = (rgbComponent r, rgbComponent g, rgbComponent b) := by
  constructor
  · intro h
    unfold parseComponents at h
    cases hr : parseComponent false 0 ⟨curr, n⟩ with
    | error e => simp [hr, bind, Except.bind] at h
    | ok first =>
      cases hg : parseComponent false 1 first.2 with
      | error e => simp [hr, hg, bind, Except.bind] at h
      | ok second =>
        cases hb : parseComponent false 2 second.2 with
        | error e => simp [hr, hg, hb, bind, Except.bind] at h
        | ok third =>
          obtain ⟨r, rest, hgroup, hends, hvalue, hs⟩ := parseComponent_rgb.mp (show _ = Except.ok (first.1, first.2) from hr)
          obtain ⟨g, rest', hgroup', hends', hvalue', hs'⟩ :=
            parseComponent_rgb.mp (show _ = Except.ok (second.1, second.2) from hg)
          obtain ⟨b, rest'', hgroup'', hends'', hvalue'', hs''⟩ :=
            parseComponent_rgb.mp (show _ = Except.ok (third.1, third.2) from hb)
          rw [hs] at hends'
          rw [hs'] at hends''
          obtain ⟨-, hcurr⟩ := hends.followed hends' hgroup'.pos
          obtain ⟨-, hrest⟩ := hends'.followed hends'' hgroup''.pos
          have hlast : rest' = b := by
            rcases hends'' with ⟨hlt, -⟩ | ⟨hrest', -⟩
            · exact absurd hlt (Nat.lt_irrefl 2)
            · exact hrest'
          simp only [hr, hg, hb, hs'', bind, Except.bind] at h
          split at h
          · cases h
            rw [hlast] at hrest
            exact ⟨r, g, b, hgroup, hgroup', hgroup'', hcurr.trans (congrArg (r ++ slash :: ·) hrest),
              by rw [hvalue, hvalue', hvalue'']⟩
          · cases h
  · rintro ⟨r, g, b, hr, hg, hb, rfl, rfl⟩
    have hfirst := @parseComponent_rgb 0 ⟨r ++ slash :: (g ++ slash :: b), n⟩ _ _ |>.mpr
      ⟨r, _, hr, .inl ⟨by decide, rfl⟩, rfl, rfl⟩
    have hsecond := @parseComponent_rgb 1 ⟨g ++ slash :: b, r.length⟩ _ _ |>.mpr
      ⟨g, _, hg, .inl ⟨by decide, rfl⟩, rfl, rfl⟩
    have hthird := @parseComponent_rgb 2 ⟨b, g.length⟩ _ _ |>.mpr
      ⟨b, _, hb, .inr ⟨rfl, rfl⟩, rfl, rfl⟩
    unfold parseComponents
    simp [hfirst, hsecond, hthird, bind, Except.bind, pure, Except.pure]

theorem parseComponents_rgb_error {curr : List UInt16} {n : ℕ} {e : ColorError}
    (h : parseComponents false ⟨curr, n⟩ = .error e) : e = .nullopt := by
  unfold parseComponents at h
  cases hr : parseComponent false 0 ⟨curr, n⟩ with
  | error e' =>
    simp only [hr, bind, Except.bind, Except.error.injEq] at h
    exact h ▸ parseComponent_rgb_error hr
  | ok first =>
    cases hg : parseComponent false 1 first.2 with
    | error e' =>
      simp only [hr, hg, bind, Except.bind, Except.error.injEq] at h
      exact h ▸ parseComponent_rgb_error hg
    | ok second =>
      cases hb : parseComponent false 2 second.2 with
      | error e' =>
        simp only [hr, hg, hb, bind, Except.bind, Except.error.injEq] at h
        exact h ▸ parseComponent_rgb_error hb
      | ok third =>
        simp only [hr, hg, hb, bind, Except.bind] at h
        split at h
        · cases h
        · cases h
          rfl

theorem parseComponents_sharp {r g b : List UInt16} (hpos : 0 < r.length) (hle : r.length ≤ 4)
    (hrg : r.length = g.length) (hgb : g.length = b.length) :
    parseComponents true ⟨r ++ (g ++ b), r.length⟩ =
      if IsGroup r ∧ IsGroup g ∧ IsGroup b then .ok (sharpComponent r, sharpComponent g, sharpComponent b)
      else .error .nullopt := by
  have hfirst := @parseComponent_sharp 0 r (g ++ b) hpos hle
  have hsecond := @parseComponent_sharp 1 g b (by omega) (by omega)
  have hthird := @parseComponent_sharp 2 b [] (by omega) (by omega)
  rw [List.append_nil, ← hgb, ← hrg] at hthird
  rw [← hrg] at hsecond
  unfold parseComponents
  by_cases hr : IsGroup r
  · by_cases hg : IsGroup g
    · by_cases hb : IsGroup b
      · rw [if_pos ⟨hr, hg, hb⟩]
        simp only [hfirst, if_pos hr, hsecond, if_pos hg, hthird, if_pos hb, bind, Except.bind, List.isEmpty_nil, if_true]
        rfl
      · rw [if_neg fun h => hb h.2.2]
        simp only [hfirst, if_pos hr, hsecond, if_pos hg, hthird, if_neg hb, bind, Except.bind]
    · rw [if_neg fun h => hg h.2.1]
      simp only [hfirst, if_pos hr, hsecond, if_neg hg, bind, Except.bind]
  · rw [if_neg fun h => hr h.1]
    simp only [hfirst, if_neg hr, bind, Except.bind]

end components

/-! ### The string -/

theorem colorValues_rgb {p rest : List UInt16} (hp : p.map asciiLower = rgbPrefix) :
    colorValues (p ++ rest) =
      if 5 ≤ rest.length ∧ rest.length ≤ 14 then parseComponents false ⟨rest, 0⟩ else .error .nullopt := by
  have hlength : p.length = 4 := by simpa [rgbPrefix] using congrArg List.length hp
  have htake : (p ++ rest).take 4 = p := by rw [← hlength, List.take_left]
  have hdrop : (p ++ rest).drop 4 = rest := by rw [← hlength, List.drop_left]
  have hsharp : (p ++ rest).head? ≠ some sharp := by
    cases p with
    | nil => cases hp
    | cons c p =>
      intro h
      obtain rfl : c = sharp := by simpa using h
      exact absurd (List.cons.inj hp).1 (by decide)
  unfold colorValues
  rw [htake, hdrop, List.length_append, hlength]
  simp only [hp, hsharp, decide_true, decide_false, Bool.and_true, Bool.and_false, Bool.false_eq_true, if_false,
    decide_eq_true_eq, Bool.or_eq_true]
  split_ifs
  all_goals first | rfl | omega

theorem asciiLower_sharp : asciiLower sharp = sharp := by decide

theorem colorValues_sharp (rest : List UInt16) :
    colorValues (sharp :: rest) =
      if rest.length = 3 ∨ rest.length = 6 ∨ rest.length = 9 ∨ rest.length = 12 then
        parseComponents true ⟨rest, rest.length / 3⟩
      else .error .nullopt := by
  have hscheme : ((sharp :: rest).take 4).map asciiLower ≠ rgbPrefix := by
    rw [List.take_succ_cons, List.map_cons, asciiLower_sharp]
    intro h
    exact absurd (List.cons.inj h).1 (by decide)
  unfold colorValues
  simp only [hscheme, decide_false, Bool.and_false, Bool.false_eq_true, if_false, List.length_cons, List.head?_cons,
    decide_true, Bool.and_true, decide_eq_true_eq, List.drop_succ_cons, List.drop_zero, Nat.add_sub_cancel,
    Bool.not_eq_true', Bool.or_eq_false_iff, decide_eq_false_iff_not]
  split_ifs
  all_goals first | rfl | omega

theorem colorValues_other {string : List UInt16} (hscheme : (string.take 4).map asciiLower ≠ rgbPrefix)
    (hsharp : string.head? ≠ some sharp) : colorValues string = .error .nullopt := by
  unfold colorValues
  simp only [hscheme, hsharp, decide_false, Bool.and_false, Bool.false_eq_true, if_false]

/-- Three components of one length. -/
theorem exists_thirds {rest : List UInt16}
    (h : rest.length = 3 ∨ rest.length = 6 ∨ rest.length = 9 ∨ rest.length = 12) :
    ∃ r g b : List UInt16, rest = r ++ (g ++ b) ∧ 0 < r.length ∧ r.length ≤ 4 ∧ r.length = g.length ∧
      g.length = b.length ∧ rest.length / 3 = r.length := by
  refine ⟨rest.take (rest.length / 3), (rest.drop (rest.length / 3)).take (rest.length / 3),
    (rest.drop (rest.length / 3)).drop (rest.length / 3), by simp only [List.take_append_drop], ?_⟩
  simp only [List.length_take, List.length_drop]
  omega

/-- **The components are those of the grammar.** -/
theorem colorValues_iff (string : List UInt16) (values : ℕ × ℕ × ℕ) :
    colorValues string = .ok values ↔ Denotes string values := by
  constructor
  · intro h
    by_cases hscheme : (string.take 4).map asciiLower = rgbPrefix
    · rw [← List.take_append_drop 4 string, colorValues_rgb hscheme] at h
      split_ifs at h
      obtain ⟨r, g, b, hr, hg, hb, hrest, rfl⟩ := parseComponents_rgb.mp h
      rw [← List.take_append_drop 4 string, hrest]
      exact .rgb hscheme hr hg hb
    · by_cases hsharp : string.head? = some sharp
      · obtain ⟨rest, rfl⟩ := List.head?_eq_some_iff.mp hsharp
        rw [colorValues_sharp] at h
        split_ifs at h with hlength
        obtain ⟨r, g, b, rfl, hpos, hle, hrg, hgb, hthird⟩ := exists_thirds hlength
        rw [hthird, parseComponents_sharp hpos hle hrg hgb] at h
        split_ifs at h with hgroups
        cases h
        exact .sharp hgroups.1 hgroups.2.1 hgroups.2.2 hrg hgb
      · rw [colorValues_other hscheme hsharp] at h
        cases h
  · intro h
    cases h with
    | @rgb p r g b hp hr hg hb =>
      have hr' := hr.pos
      have hg' := hg.pos
      have hb' := hb.pos
      have hr'' := hr.le
      have hg'' := hg.le
      have hb'' := hb.le
      rw [colorValues_rgb hp, if_pos (by simp only [List.length_append, List.length_cons]; omega)]
      exact parseComponents_rgb.mpr ⟨r, g, b, hr, hg, hb, rfl, rfl⟩
    | @sharp r g b hr hg hb hrg hgb =>
      have hpos := hr.pos
      have hle := hr.le
      have hthird : (r ++ (g ++ b)).length / 3 = r.length := by
        simp only [List.length_append]
        omega
      rw [colorValues_sharp, if_pos (by simp only [List.length_append]; omega), hthird,
        parseComponents_sharp hpos hle hrg hgb, if_pos ⟨hr, hg, hb⟩]

theorem colorValues_error {string : List UInt16} {e : ColorError} (h : colorValues string = .error e) :
    e = .nullopt := by
  by_cases hscheme : (string.take 4).map asciiLower = rgbPrefix
  · rw [← List.take_append_drop 4 string, colorValues_rgb hscheme] at h
    split_ifs at h
    · exact parseComponents_rgb_error h
    · cases h
      rfl
  · by_cases hsharp : string.head? = some sharp
    · obtain ⟨rest, rfl⟩ := List.head?_eq_some_iff.mp hsharp
      rw [colorValues_sharp] at h
      split_ifs at h with hlength
      · obtain ⟨r, g, b, rfl, hpos, hle, hrg, hgb, hthird⟩ := exists_thirds hlength
        rw [hthird, parseComponents_sharp hpos hle hrg hgb] at h
        split_ifs at h
        cases h
        rfl
      · cases h
        rfl
    · rw [colorValues_other hscheme hsharp] at h
      cases h
      rfl

theorem Denotes.le {string : List UInt16} {values : ℕ × ℕ × ℕ} (h : Denotes string values) :
    values.1 ≤ 255 ∧ values.2.1 ≤ 255 ∧ values.2.2 ≤ 255 := by
  cases h with
  | rgb hp hr hg hb => exact ⟨rgbComponent_le hr, rgbComponent_le hg, rgbComponent_le hb⟩
  | sharp hr hg hb => exact ⟨sharpComponent_le hr, sharpComponent_le hg, sharpComponent_le hb⟩

/-- **Specifications are parsed exactly**, without a division by zero and without a component that is cut off. -/
theorem colorFromXParseColorSpec_exact (string : List UInt16) :
    (∀ color, colorFromXParseColorSpec string = .ok color ↔
      ∃ r g b, Denotes string (r, g, b) ∧ color = ⟨.ofNat r, .ofNat g, .ofNat b⟩) ∧
    colorFromXParseColorSpec string ≠ .error .divisionByZero ∧
    ∀ r g b, colorValues string = .ok (r, g, b) → r ≤ 255 ∧ g ≤ 255 ∧ b ≤ 255 := by
  refine ⟨fun color => ?_, fun h => ?_, fun r g b h => ((colorValues_iff string _).mp h).le⟩
  · simp only [← colorValues_iff]
    unfold colorFromXParseColorSpec
    cases hvalues : colorValues string with
    | error e => simp [bind, Except.bind]
    | ok values =>
      simp only [bind, Except.bind, pure, Except.pure, Except.ok.injEq]
      constructor
      · intro hcolor
        exact ⟨values.1, values.2.1, values.2.2, rfl, hcolor.symm⟩
      · rintro ⟨r, g, b, rfl, rfl⟩
        rfl
  · unfold colorFromXParseColorSpec at h
    cases hvalues : colorValues string with
    | error e =>
      rw [colorValues_error hvalues] at hvalues
      simp [hvalues, bind, Except.bind] at h
    | ok values => simp [hvalues, bind, Except.bind, pure, Except.pure] at h

end VT7.Types
