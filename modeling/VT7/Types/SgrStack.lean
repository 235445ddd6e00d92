import Mathlib.Data.List.Forall2
import Mathlib.Data.Nat.Bitwise
import Mathlib.Tactic.IntervalCases
import VT7.Lib.RingStack
import VT7.Parser.StateMachine

/-!
# The stack of graphic renditions

`SgrStack` saves text attributes, whole or in parts, in a ring of ten slots.  It is compared with a stack
that keeps the ten latest pushes and with what the parts of an attribute are.
-/

namespace VT7.Types

open VT7.Parser (VTParameter)

/-! ### Text attributes -/

abbrev CharacterAttributes := BitVec 16

namespace CharacterAttributes

def intense : CharacterAttributes := 0x01
def italics : CharacterAttributes := 0x02
def blinking : CharacterAttributes := 0x04
def invisible : CharacterAttributes := 0x08
def crossedOut : CharacterAttributes := 0x10
def faint : CharacterAttributes := 0x20
def underlineStyle : CharacterAttributes := 0x1C0
def reverseVideo : CharacterAttributes := 0x4000

/-- `WI_IsFlagSet`. -/
def isFlagSet (attrs flag : CharacterAttributes) : Bool := attrs &&& flag != 0

/-- `WI_UpdateFlag`. -/
def updateFlag (attrs flag : CharacterAttributes) (isSet : Bool) : CharacterAttributes :=
  if isSet then attrs ||| flag else attrs &&& ~~~flag

end CharacterAttributes

/-- The three bits of a style; the source names the first six values. -/
abbrev UnderlineStyle := BitVec 16

namespace UnderlineStyle

def noUnderline : UnderlineStyle := 0
def singlyUnderlined : UnderlineStyle := 1
def doublyUnderlined : UnderlineStyle := 2
def curlyUnderlined : UnderlineStyle := 3

end UnderlineStyle

inductive MarkKind
  | none
  | prompt
  | command
  | output
  deriving DecidableEq

/-- Text attributes over any type of colours. -/
structure TextAttribute (Color : Type) where
  attrs : CharacterAttributes := 0
  hyperlinkId : UInt16 := 0
  foreground : Color
  background : Color
  underlineColor : Color
  markKind : MarkKind := .none
  deriving DecidableEq

namespace TextAttribute

variable {Color : Type} (a : TextAttribute Color)

def isFlag (flag : CharacterAttributes) : Bool := a.attrs.isFlagSet flag

def setFlag (flag : CharacterAttributes) (isSet : Bool) : TextAttribute Color :=
  { a with attrs := a.attrs.updateFlag flag isSet }

def isIntense : Bool := a.isFlag .intense
def isFaint : Bool := a.isFlag .faint
def isItalic : Bool := a.isFlag .italics
def isBlinking : Bool := a.isFlag .blinking
def isInvisible : Bool := a.isFlag .invisible
def isCrossedOut : Bool := a.isFlag .crossedOut
def isReverseVideo : Bool := a.isFlag .reverseVideo

def setIntense : Bool → TextAttribute Color := a.setFlag .intense
def setFaint : Bool → TextAttribute Color := a.setFlag .faint
def setItalic : Bool → TextAttribute Color := a.setFlag .italics
def setBlinking : Bool → TextAttribute Color := a.setFlag .blinking
def setInvisible : Bool → TextAttribute Color := a.setFlag .invisible
def setCrossedOut : Bool → TextAttribute Color := a.setFlag .crossedOut
def setReverseVideo : Bool → TextAttribute Color := a.setFlag .reverseVideo

def getUnderlineStyle : UnderlineStyle := (a.attrs &&& .underlineStyle) >>> 6

def setUnderlineStyle (style : UnderlineStyle) : TextAttribute Color :=
  { a with attrs := a.attrs &&& ~~~.underlineStyle ||| style <<< 6 }

def setForeground (foreground : Color) : TextAttribute Color := { a with foreground }

def setBackground (background : Color) : TextAttribute Color := { a with background }

end TextAttribute

/-! ### The stack -/

inductive SgrSaveRestoreStackOptions
  | all
  | intense
  | faintness
  | italics
  | underline
  | blink
  | negative
  | invisible
  | crossedOut
  | doublyUnderlined
  | saveForegroundColor
  | saveBackgroundColor
  deriving DecidableEq

namespace SgrSaveRestoreStackOptions

def value : SgrSaveRestoreStackOptions → ℕ
  | all => 0
  | intense => 1
  | faintness => 2
  | italics => 3
  | underline => 4
  | blink => 5
  | negative => 7
  | invisible => 8
  | crossedOut => 9
  | doublyUnderlined => 21
  | saveForegroundColor => 30
  | saveBackgroundColor => 31

def max : ℤ := 31

end SgrSaveRestoreStackOptions

/-- `til::enumset`; no position reaches 32. -/
structure AttrBitset where
  bits : ℕ := 0
  deriving DecidableEq

namespace AttrBitset

def set (b : AttrBitset) (position : ℕ) : AttrBitset := ⟨b.bits ||| 1 <<< position⟩

def test (b : AttrBitset) (position : SgrSaveRestoreStackOptions) : Bool := b.bits.testBit position.value

end AttrBitset

structure SavedSgrAttributes (Color : Type) where
  textAttributes : TextAttribute Color
  validParts : AttrBitset := {}

structure SgrStack (Color : Type) where
  nextPushIndex : ℕ := 0
  numSavedAttrs : ℕ := 0
  storedSgrAttributes : List (SavedSgrAttributes Color)

namespace SgrStack

variable {Color : Type}

def maxStoredSgrPushes : ℕ := 10

/-- A new stack; its slots hold default attributes. -/
def start (default : TextAttribute Color) : SgrStack Color where
  storedSgrAttributes := List.replicate maxStoredSgrPushes ⟨default, {}⟩

/-- One turn of the loop of `Push`. -/
def setOption (validParts : AttrBitset) (p : VTParameter) : AttrBitset :=
  let option := p.getD 0
  if 0 < option ∧ option ≤ SgrSaveRestoreStackOptions.max then validParts.set option.toNat else validParts

def optionBits (options : List VTParameter) (validParts : AttrBitset) : AttrBitset :=
  options.foldl setOption validParts

/-- The parts that a push saves. -/
def partsOf (options : List VTParameter) : AttrBitset :=
  if options.isEmpty then AttrBitset.set {} SgrSaveRestoreStackOptions.all.value else optionBits options {}

/-- `Push`; nothing if an index is out of the array. -/
def push (s : SgrStack Color) (currentAttributes : TextAttribute Color) (options : List VTParameter) :
    Option (SgrStack Color) :=
  let size := s.storedSgrAttributes.length
  if s.nextPushIndex < size then
    some {
      numSavedAttrs := if s.numSavedAttrs < size then s.numSavedAttrs + 1 else s.numSavedAttrs
      storedSgrAttributes := s.storedSgrAttributes.set s.nextPushIndex ⟨currentAttributes, partsOf options⟩
      nextPushIndex := (s.nextPushIndex + 1) % size }
  else none

/-- The underline parts of `_CombineWithCurrentAttributes`. -/
def combineUnderline (savedAttribute : TextAttribute Color) (validParts : AttrBitset) (result : TextAttribute Color) :
    TextAttribute Color :=
  let isUnderlinedValid := validParts.test .underline
  let isDoublyUnderlinedValid := validParts.test .doublyUnderlined
  if isUnderlinedValid && isDoublyUnderlinedValid then result.setUnderlineStyle savedAttribute.getUnderlineStyle
  else if isUnderlinedValid then
    let savedUl := savedAttribute.getUnderlineStyle
    if savedUl != .noUnderline && savedUl != .doublyUnderlined then result.setUnderlineStyle savedUl
    else if result.getUnderlineStyle != .doublyUnderlined then result.setUnderlineStyle .noUnderline
    else result
  else if isDoublyUnderlinedValid then
    if savedAttribute.getUnderlineStyle == .doublyUnderlined then result.setUnderlineStyle .doublyUnderlined
    else if result.getUnderlineStyle == .doublyUnderlined then result.setUnderlineStyle .noUnderline
    else result
  else result

/-- Nothing where the source fails fast. -/
def combineWithCurrentAttributes (currentAttributes savedAttribute : TextAttribute Color) (validParts : AttrBitset) :
    Option (TextAttribute Color) :=
  if validParts.test .all then none
  else
    let result := currentAttributes
    let result := if validParts.test .intense then result.setIntense savedAttribute.isIntense else result
    let result := if validParts.test .faintness then result.setFaint savedAttribute.isFaint else result
    let result := if validParts.test .italics then result.setItalic savedAttribute.isItalic else result
    let result := combineUnderline savedAttribute validParts result
    let result := if validParts.test .blink then result.setBlinking savedAttribute.isBlinking else result
    let result := if validParts.test .negative then result.setReverseVideo savedAttribute.isReverseVideo else result
    let result := if validParts.test .invisible then result.setInvisible savedAttribute.isInvisible else result
    let result := if validParts.test .crossedOut then result.setCrossedOut savedAttribute.isCrossedOut else result
    let result := if validParts.test .saveForegroundColor then result.setForeground savedAttribute.foreground else result
    let result := if validParts.test .saveBackgroundColor then result.setBackground savedAttribute.background else result
    some result

/-- `Pop`: the attributes that it returns. -/
def pop (s : SgrStack Color) (currentAttributes : TextAttribute Color) :
    Option (TextAttribute Color × SgrStack Color) :=
  if 0 < s.numSavedAttrs then
    let nextPushIndex := if s.nextPushIndex = 0 then s.storedSgrAttributes.length - 1 else s.nextPushIndex - 1
    let s := { s with numSavedAttrs := s.numSavedAttrs - 1, nextPushIndex }
    match s.storedSgrAttributes[nextPushIndex]? with
    | none => none
    | some restoreMe =>
      if restoreMe.validParts.test .all then some (restoreMe.textAttributes, s)
      else (combineWithCurrentAttributes currentAttributes restoreMe.textAttributes restoreMe.validParts).map (·, s)
  else some (currentAttributes, s)

end SgrStack

/-! ### What a pop restores -/

/-- A style other than none and the double one. -/
def single (style : UnderlineStyle) : Option UnderlineStyle :=
  if style = .noUnderline ∨ style = .doublyUnderlined then none else some style

/-- The option for a bit of the attributes. -/
def flagOption : ℕ → Option SgrSaveRestoreStackOptions
  | 0 => some .intense
  | 1 => some .italics
  | 2 => some .blink
  | 3 => some .invisible
  | 4 => some .crossedOut
  | 5 => some .faintness
  | 14 => some .negative
  | _ => none

/-- The pushed value of what is selected, and the current value of everything else.  Single and double
underlining are two parts in one style: a part that was pushed as being on displaces the other one. -/
structure Restored {Color : Type} (selected : SgrSaveRestoreStackOptions → Bool)
    (current saved result : TextAttribute Color) : Prop where
  flags : ∀ i < 16, i < 6 ∨ 8 < i → result.attrs.getLsbD i =
    if (flagOption i).any selected then saved.attrs.getLsbD i else current.attrs.getLsbD i
  underlined : selected .underline = true → single result.getUnderlineStyle = single saved.getUnderlineStyle
  doublyUnderlined : selected .doublyUnderlined = true →
    (result.getUnderlineStyle = .doublyUnderlined ↔ saved.getUnderlineStyle = .doublyUnderlined)
  keepsUnderlined : selected .underline = false → single result.getUnderlineStyle =
    if selected .doublyUnderlined ∧ saved.getUnderlineStyle = .doublyUnderlined then none
    else single current.getUnderlineStyle
  keepsDoublyUnderlined : selected .doublyUnderlined = false → (result.getUnderlineStyle = .doublyUnderlined ↔
    current.getUnderlineStyle = .doublyUnderlined ∧ ¬(selected .underline ∧ single saved.getUnderlineStyle ≠ none))
  foreground : result.foreground = if selected .saveForegroundColor then saved.foreground else current.foreground
  background : result.background = if selected .saveBackgroundColor then saved.background else current.background
  underlineColor : result.underlineColor = current.underlineColor
  hyperlinkId : result.hyperlinkId = current.hyperlinkId
  markKind : result.markKind = current.markKind

/-! ### Bits -/

section Bits

open CharacterAttributes

lemma isFlagSet_twoPow (attrs : CharacterAttributes) {p : ℕ} (hp : p < 16) :
    attrs.isFlagSet (BitVec.twoPow 16 p) = attrs.getLsbD p := by
  unfold isFlagSet
  rw [BitVec.and_twoPow]
  cases attrs.getLsbD p with
  | false => rfl
  | true =>
    rw [if_pos rfl, bne_iff_ne]
    intro h
    have hbit := congrArg (fun x : BitVec 16 => x.getLsbD p) h
    simp [hp] at hbit

lemma getLsbD_updateFlag (attrs : CharacterAttributes) (p : ℕ) (isSet : Bool) {i : ℕ} (hi : i < 16) :
    (attrs.updateFlag (BitVec.twoPow 16 p) isSet).getLsbD i = if i = p then isSet else attrs.getLsbD i := by
  unfold updateFlag
  by_cases hip : i = p
  · subst hip
    cases isSet <;> simp [hi]
  · cases isSet <;> simp [hi, hip]

lemma getLsbD_underlineStyle : ∀ i < 16, underlineStyle.getLsbD i = decide (6 ≤ i ∧ i ≤ 8) := by decide

variable {Color : Type} (a saved : TextAttribute Color)

lemma getLsbD_getUnderlineStyle {j : ℕ} (hj : j < 16) :
    a.getUnderlineStyle.getLsbD j = (decide (j < 3) && a.attrs.getLsbD (6 + j)) := by
  unfold TextAttribute.getUnderlineStyle
  rw [BitVec.getLsbD_ushiftRight, BitVec.getLsbD_and]
  by_cases h : 6 + j < 16
  · rw [getLsbD_underlineStyle _ h, Bool.and_comm]
    congr 1
    exact decide_eq_decide.mpr (by omega)
  · rw [BitVec.getLsbD_of_ge _ _ (by omega), Bool.false_and, decide_eq_false (by omega), Bool.false_and]

/-- The style is read from three bits. -/
lemma getUnderlineStyle_congr {a b : TextAttribute Color} (h : ∀ i, 6 ≤ i → i ≤ 8 → a.attrs.getLsbD i = b.attrs.getLsbD i) :
    a.getUnderlineStyle = b.getUnderlineStyle := by
  apply BitVec.eq_of_getLsbD_eq
  intro j hj
  rw [getLsbD_getUnderlineStyle a hj, getLsbD_getUnderlineStyle b hj]
  by_cases h3 : j < 3
  · rw [h (6 + j) (by omega) (by omega)]
  · rw [decide_eq_false h3, Bool.false_and, Bool.false_and]

/-- A style that fits its three bits. -/
def Fits (style : UnderlineStyle) : Prop := ∀ j, 3 ≤ j → style.getLsbD j = false

lemma fits_getUnderlineStyle : Fits a.getUnderlineStyle := by
  intro j hj
  rcases Nat.lt_or_ge j 16 with h | h
  · rw [getLsbD_getUnderlineStyle a h, decide_eq_false (by omega), Bool.false_and]
  · exact BitVec.getLsbD_of_ge _ _ h

lemma getLsbD_setUnderlineStyle (style : UnderlineStyle) {i : ℕ} (hi : i < 16) :
    (a.setUnderlineStyle style).attrs.getLsbD i =
      (a.attrs.getLsbD i && !decide (6 ≤ i ∧ i ≤ 8) || decide (6 ≤ i) && style.getLsbD (i - 6)) := by
  unfold TextAttribute.setUnderlineStyle
  rw [BitVec.getLsbD_or, BitVec.getLsbD_and, BitVec.getLsbD_not, getLsbD_underlineStyle i hi, BitVec.getLsbD_shiftLeft]
  by_cases h6 : i < 6
  · simp [hi, h6]
  · simp [hi, h6, Nat.le_of_not_lt h6]

lemma setUnderlineStyle_others {style : UnderlineStyle} (hstyle : Fits style) {i : ℕ} (hi : i < 16) (hother : i < 6 ∨ 8 < i) :
    (a.setUnderlineStyle style).attrs.getLsbD i = a.attrs.getLsbD i := by
  rw [getLsbD_setUnderlineStyle a style hi, decide_eq_false (by omega), Bool.not_false, Bool.and_true]
  by_cases h6 : 6 ≤ i
  · rw [hstyle (i - 6) (by omega), Bool.and_false, Bool.or_false]
  · rw [decide_eq_false h6, Bool.false_and, Bool.or_false]

lemma getUnderlineStyle_setUnderlineStyle {style : UnderlineStyle} (hstyle : Fits style) :
    (a.setUnderlineStyle style).getUnderlineStyle = style := by
  apply BitVec.eq_of_getLsbD_eq
  intro j hj
  rw [getLsbD_getUnderlineStyle _ hj]
  by_cases h3 : j < 3
  · rw [getLsbD_setUnderlineStyle a style (by omega), decide_eq_true (show 6 ≤ 6 + j ∧ 6 + j ≤ 8 by omega),
      decide_eq_true h3, decide_eq_true (show 6 ≤ 6 + j by omega), Nat.add_sub_cancel_left]
    simp
  · rw [decide_eq_false h3, Bool.false_and, hstyle j (by omega)]

/-! ### Parts of a combination -/

/-- One step of the combination: a flag that is taken over. -/
def restoreFlag (valid : Bool) (flag : CharacterAttributes) : TextAttribute Color :=
  if valid then a.setFlag flag (saved.isFlag flag) else a

lemma getLsbD_restoreFlag (valid : Bool) {p i : ℕ} (hp : p < 16) (hi : i < 16) :
    (restoreFlag a saved valid (BitVec.twoPow 16 p)).attrs.getLsbD i =
      if i = p ∧ valid then saved.attrs.getLsbD i else a.attrs.getLsbD i := by
  cases valid with
  | false =>
    rw [if_neg (by simp)]
    rfl
  | true =>
    show (a.attrs.updateFlag (BitVec.twoPow 16 p) (saved.attrs.isFlagSet (BitVec.twoPow 16 p))).getLsbD i = _
    rw [getLsbD_updateFlag _ _ _ hi, isFlagSet_twoPow _ hp]
    by_cases h : i = p
    · rw [if_pos h, if_pos ⟨h, rfl⟩, h]
    · rw [if_neg h, if_neg (fun h' => h h'.1)]

lemma getUnderlineStyle_restoreFlag (valid : Bool) {p : ℕ} (hp : p < 16) (hother : p < 6 ∨ 8 < p) :
    (restoreFlag a saved valid (BitVec.twoPow 16 p)).getUnderlineStyle = a.getUnderlineStyle := by
  apply getUnderlineStyle_congr
  intro i h6 h8
  rw [getLsbD_restoreFlag a saved valid hp (by omega), if_neg (by omega)]

/-- The style of two parts. -/
def combinedStyle (underlined doublyUnderlined : Bool) (current saved : UnderlineStyle) : UnderlineStyle :=
  if underlined && doublyUnderlined then saved
  else if underlined then
    if (single saved).isSome then saved else if current = .doublyUnderlined then current else .noUnderline
  else if doublyUnderlined then
    if saved = .doublyUnderlined then saved else if current = .doublyUnderlined then .noUnderline else current
  else current

lemma single_doublyUnderlined : single .doublyUnderlined = none := rfl

lemma single_noUnderline : single .noUnderline = none := rfl

lemma noUnderline_ne : UnderlineStyle.noUnderline ≠ .doublyUnderlined := by decide

lemma ne_doubly_of_single {style : UnderlineStyle} (h : (single style).isSome) : style ≠ .doublyUnderlined := by
  rintro rfl
  rw [single_doublyUnderlined] at h
  cases h

lemma single_combinedStyle (doubly : Bool) (current saved : UnderlineStyle) :
    single (combinedStyle true doubly current saved) = single saved := by
  unfold combinedStyle
  cases doubly with
  | true => rfl
  | false =>
    by_cases hs : (single saved).isSome
    · simp [hs]
    · rw [Bool.not_eq_true, Option.isSome_eq_false_iff, Option.isNone_iff_eq_none] at hs
      by_cases hc : current = .doublyUnderlined
      · simp [hs, hc, single_doublyUnderlined]
      · simp [hs, hc, single_noUnderline]

lemma combinedStyle_eq_doubly (underlined : Bool) (current saved : UnderlineStyle) :
    combinedStyle underlined true current saved = .doublyUnderlined ↔ saved = .doublyUnderlined := by
  unfold combinedStyle
  cases underlined with
  | true => rfl
  | false =>
    by_cases hs : saved = .doublyUnderlined
    · simp [hs]
    · by_cases hc : current = .doublyUnderlined
      · simp [hs, hc, noUnderline_ne]
      · simp [hs, hc]

lemma single_combinedStyle_false (doubly : Bool) (current saved : UnderlineStyle) :
    single (combinedStyle false doubly current saved) =
      if doubly ∧ saved = .doublyUnderlined then none else single current := by
  unfold combinedStyle
  cases doubly with
  | false => simp
  | true =>
    by_cases hs : saved = .doublyUnderlined
    · simp [hs, single_doublyUnderlined]
    · by_cases hc : current = .doublyUnderlined
      · simp [hs, hc, single_doublyUnderlined, single_noUnderline]
      · simp [hs, hc]

lemma combinedStyle_false_eq_doubly (underlined : Bool) (current saved : UnderlineStyle) :
    combinedStyle underlined false current saved = .doublyUnderlined ↔
      current = .doublyUnderlined ∧ ¬(underlined ∧ single saved ≠ none) := by
  unfold combinedStyle
  cases underlined with
  | false => simp
  | true =>
    by_cases hs : (single saved).isSome
    · have hsaved := ne_doubly_of_single hs
      have hne := Option.isSome_iff_ne_none.mp hs
      simp [hs, hsaved, hne]
    · rw [Bool.not_eq_true, Option.isSome_eq_false_iff, Option.isNone_iff_eq_none] at hs
      by_cases hc : current = .doublyUnderlined
      · simp [hs, hc]
      · simp [hs, hc, noUnderline_ne]

lemma isSome_single (style : UnderlineStyle) :
    (single style).isSome = (style != .noUnderline && style != .doublyUnderlined) := by
  unfold single
  by_cases h0 : style = .noUnderline
  · simp [h0]
  · by_cases h2 : style = .doublyUnderlined
    · simp [h2]
    · simp [h0, h2]

lemma fits_noUnderline : Fits .noUnderline := fun _ _ => BitVec.getLsbD_zero

lemma fits_doublyUnderlined : Fits .doublyUnderlined := by
  intro j hj
  show (BitVec.twoPow 16 1).getLsbD j = false
  rw [BitVec.getLsbD_twoPow, Bool.and_eq_false_iff]
  exact .inr (decide_eq_false (by omega))

variable (validParts : AttrBitset)

open SgrStack

lemma combineUnderline_cases : combineUnderline saved validParts a = a ∨
    ∃ style, Fits style ∧ combineUnderline saved validParts a = a.setUnderlineStyle style := by
  unfold combineUnderline
  dsimp only
  split_ifs
  · exact .inr ⟨_, fits_getUnderlineStyle saved, rfl⟩
  · exact .inr ⟨_, fits_getUnderlineStyle saved, rfl⟩
  · exact .inr ⟨_, fits_noUnderline, rfl⟩
  · exact .inl rfl
  · exact .inr ⟨_, fits_doublyUnderlined, rfl⟩
  · exact .inr ⟨_, fits_noUnderline, rfl⟩
  · exact .inl rfl
  · exact .inl rfl

lemma getLsbD_combineUnderline {i : ℕ} (hi : i < 16) (hother : i < 6 ∨ 8 < i) :
    (combineUnderline saved validParts a).attrs.getLsbD i = a.attrs.getLsbD i := by
  rcases combineUnderline_cases a saved validParts with h | ⟨style, hstyle, h⟩
  · rw [h]
  · rw [h, setUnderlineStyle_others a hstyle hi hother]

lemma getUnderlineStyle_combineUnderline : (combineUnderline saved validParts a).getUnderlineStyle =
    combinedStyle (validParts.test .underline) (validParts.test .doublyUnderlined) a.getUnderlineStyle
      saved.getUnderlineStyle := by
  have hsaved := getUnderlineStyle_setUnderlineStyle a (fits_getUnderlineStyle saved)
  have hnone := getUnderlineStyle_setUnderlineStyle a fits_noUnderline
  have hdoubly := getUnderlineStyle_setUnderlineStyle a fits_doublyUnderlined
  unfold combineUnderline combinedStyle
  rw [isSome_single]
  dsimp only
  cases validParts.test .underline <;> cases validParts.test .doublyUnderlined
  · rfl
  · by_cases hs : saved.getUnderlineStyle = .doublyUnderlined
    · simp [hs, hdoubly]
    · by_cases hc : a.getUnderlineStyle = .doublyUnderlined
      · simp [hs, hc, hnone]
      · simp [hs, hc]
  · by_cases hs : (saved.getUnderlineStyle != .noUnderline && saved.getUnderlineStyle != .doublyUnderlined) = true
    · simp [hs, hsaved]
    · by_cases hc : a.getUnderlineStyle = .doublyUnderlined
      · simp [hs, hc]
      · simp [hs, hc, hnone]
  · exact hsaved

/-- The steps of a combination that change flags, in the order of the source. -/
def combinedFlags : TextAttribute Color :=
  let result := restoreFlag a saved (validParts.test .intense) (BitVec.twoPow 16 0)
  let result := restoreFlag result saved (validParts.test .faintness) (BitVec.twoPow 16 5)
  let result := restoreFlag result saved (validParts.test .italics) (BitVec.twoPow 16 1)
  let result := combineUnderline saved validParts result
  let result := restoreFlag result saved (validParts.test .blink) (BitVec.twoPow 16 2)
  let result := restoreFlag result saved (validParts.test .negative) (BitVec.twoPow 16 14)
  let result := restoreFlag result saved (validParts.test .invisible) (BitVec.twoPow 16 3)
  restoreFlag result saved (validParts.test .crossedOut) (BitVec.twoPow 16 4)

lemma getLsbD_combinedFlags {i : ℕ} (hi : i < 16) (hother : i < 6 ∨ 8 < i) :
    (combinedFlags a saved validParts).attrs.getLsbD i =
      if (flagOption i).any validParts.test then saved.attrs.getLsbD i else a.attrs.getLsbD i := by
  unfold combinedFlags
  dsimp only
  rw [getLsbD_restoreFlag _ _ _ (by decide) hi, getLsbD_restoreFlag _ _ _ (by decide) hi,
    getLsbD_restoreFlag _ _ _ (by decide) hi, getLsbD_restoreFlag _ _ _ (by decide) hi,
    getLsbD_combineUnderline _ _ _ hi hother, getLsbD_restoreFlag _ _ _ (by decide) hi,
    getLsbD_restoreFlag _ _ _ (by decide) hi, getLsbD_restoreFlag _ _ _ (by decide) hi]
  interval_cases i <;> first | omega | simp [flagOption]

lemma getUnderlineStyle_combinedFlags : (combinedFlags a saved validParts).getUnderlineStyle =
    combinedStyle (validParts.test .underline) (validParts.test .doublyUnderlined) a.getUnderlineStyle
      saved.getUnderlineStyle := by
  unfold combinedFlags
  dsimp only
  rw [getUnderlineStyle_restoreFlag _ _ _ (by decide) (by decide), getUnderlineStyle_restoreFlag _ _ _ (by decide) (by decide),
    getUnderlineStyle_restoreFlag _ _ _ (by decide) (by decide), getUnderlineStyle_restoreFlag _ _ _ (by decide) (by decide),
    getUnderlineStyle_combineUnderline, getUnderlineStyle_restoreFlag _ _ _ (by decide) (by decide),
    getUnderlineStyle_restoreFlag _ _ _ (by decide) (by decide), getUnderlineStyle_restoreFlag _ _ _ (by decide) (by decide)]

/-- Nothing but the flags and the style differs. -/
def SameBeside (a b : TextAttribute Color) : Prop := b = { a with attrs := b.attrs }

lemma SameBeside.trans {a b c : TextAttribute Color} (hab : SameBeside a b) (hbc : SameBeside b c) : SameBeside a c := by
  unfold SameBeside at hab hbc ⊢
  rw [hab] at hbc
  exact hbc

lemma sameBeside_restoreFlag (valid : Bool) (flag : CharacterAttributes) :
    SameBeside a (restoreFlag a saved valid flag) := by
  cases valid <;> rfl

lemma sameBeside_combineUnderline : SameBeside a (combineUnderline saved validParts a) := by
  rcases combineUnderline_cases a saved validParts with h | ⟨style, -, h⟩ <;> rw [h] <;> rfl

lemma sameBeside_combinedFlags : SameBeside a (combinedFlags a saved validParts) := by
  unfold combinedFlags
  refine .trans ?_ (sameBeside_restoreFlag _ _ _ _)
  refine .trans ?_ (sameBeside_restoreFlag _ _ _ _)
  refine .trans ?_ (sameBeside_restoreFlag _ _ _ _)
  refine .trans ?_ (sameBeside_restoreFlag _ _ _ _)
  refine .trans ?_ (sameBeside_combineUnderline _ _ _)
  refine .trans ?_ (sameBeside_restoreFlag _ _ _ _)
  refine .trans ?_ (sameBeside_restoreFlag _ _ _ _)
  exact sameBeside_restoreFlag _ _ _ _

lemma combineWithCurrentAttributes_eq (hall : validParts.test .all = false) :
    combineWithCurrentAttributes a saved validParts = some { combinedFlags a saved validParts with
      foreground := if validParts.test .saveForegroundColor then saved.foreground else a.foreground
      background := if validParts.test .saveBackgroundColor then saved.background else a.background } := by
  have hsame : combinedFlags a saved validParts = _ := sameBeside_combinedFlags a saved validParts
  have hforeground : (combinedFlags a saved validParts).foreground = a.foreground := by rw [hsame]
  have hbackground : (combinedFlags a saved validParts).background = a.background := by rw [hsame]
  rw [← hforeground, ← hbackground]
  unfold combineWithCurrentAttributes
  rw [hall]
  cases validParts.test .saveForegroundColor <;> cases validParts.test .saveBackgroundColor <;> rfl

/-- **What a combination is.** -/
theorem restored_combine (hall : validParts.test .all = false) : ∃ result,
    combineWithCurrentAttributes a saved validParts = some result ∧ Restored validParts.test a saved result := by
  refine ⟨_, combineWithCurrentAttributes_eq a saved validParts hall, ?_⟩
  have hsame : combinedFlags a saved validParts = _ := sameBeside_combinedFlags a saved validParts
  have hstyle := getUnderlineStyle_combinedFlags a saved validParts
  constructor
  case flags => exact fun i hi hother => getLsbD_combinedFlags a saved validParts hi hother
  case foreground => rfl
  case background => rfl
  case underlineColor => exact (congrArg TextAttribute.underlineColor hsame :)
  case hyperlinkId => exact (congrArg TextAttribute.hyperlinkId hsame :)
  case markKind => exact (congrArg TextAttribute.markKind hsame :)
  all_goals
    intro hvalid
  case underlined =>
    show single (combinedFlags a saved validParts).getUnderlineStyle = _
    rw [hstyle, hvalid, single_combinedStyle]
  case doublyUnderlined =>
    show (combinedFlags a saved validParts).getUnderlineStyle = _ ↔ _
    rw [hstyle, hvalid, combinedStyle_eq_doubly]
  case keepsUnderlined =>
    show single (combinedFlags a saved validParts).getUnderlineStyle = _
    rw [hstyle, hvalid, single_combinedStyle_false]
  case keepsDoublyUnderlined =>
    show (combinedFlags a saved validParts).getUnderlineStyle = _ ↔ _
    rw [hstyle, hvalid, combinedStyle_false_eq_doubly]

end Bits

/-! ### Options -/

/-- An option list names an option. -/
def selects (options : List VTParameter) (option : SgrSaveRestoreStackOptions) : Bool :=
  options.contains (some (option.value : ℤ))

section Options

open SgrStack

lemma testBit_set (b : AttrBitset) (position k : ℕ) :
    (b.set position).bits.testBit k = (b.bits.testBit k || position == k) := by
  show (b.bits ||| 1 <<< position).testBit k = _
  rw [Nat.testBit_or, Nat.one_shiftLeft, Nat.testBit_two_pow]
  rfl

lemma testBit_optionBits (options : List VTParameter) (b : AttrBitset) {k : ℕ} (hpos : 0 < k) (hk : (k : ℤ) ≤ SgrSaveRestoreStackOptions.max) :
    (optionBits options b).bits.testBit k = (b.bits.testBit k || options.contains (some (k : ℤ))) := by
  induction options generalizing b with
  | nil => exact (Bool.or_false _).symm
  | cons p options ih =>
    refine (ih _).trans ?_
    rw [List.contains_cons, ← Bool.or_assoc]
    congr 1
    unfold setOption
    dsimp only
    by_cases hin : 0 < p.getD 0 ∧ p.getD 0 ≤ SgrSaveRestoreStackOptions.max
    · rw [if_pos hin, testBit_set]
      congr 1
      cases p with
      | none => exact absurd hin.1 (by decide)
      | some value =>
        have hvalue : 0 < value := hin.1
        rw [Bool.eq_iff_iff, beq_iff_eq, beq_iff_eq, Option.some_inj]
        show value.toNat = k ↔ (k : ℤ) = value
        omega
    · rw [if_neg hin]
      have hne : (some (k : ℤ) == p) = false := by
        rw [beq_eq_false_iff_ne]
        rintro rfl
        exact hin ⟨Int.natCast_pos.mpr hpos, hk⟩
      rw [hne, Bool.or_false]

lemma testBit_zero_optionBits (options : List VTParameter) (b : AttrBitset) :
    (optionBits options b).bits.testBit 0 = b.bits.testBit 0 := by
  induction options generalizing b with
  | nil => rfl
  | cons p options ih =>
    refine (ih _).trans ?_
    unfold setOption
    dsimp only
    split
    · next hin =>
      rw [testBit_set, beq_eq_false_iff_ne.mpr (by omega), Bool.or_false]
    · rfl

lemma test_all_partsOf (options : List VTParameter) : (partsOf options).test .all = options.isEmpty := by
  cases options with
  | nil => rfl
  | cons p options => exact testBit_zero_optionBits (p :: options) {}

lemma test_partsOf {options : List VTParameter} (hne : options ≠ []) {option : SgrSaveRestoreStackOptions}
    (hoption : option ≠ .all) : (partsOf options).test option = selects options option := by
  unfold partsOf
  rw [if_neg (by simpa using hne)]
  refine (testBit_optionBits options {} ?_ ?_).trans ?_
  · cases option <;> first | exact absurd rfl hoption | decide
  · cases option <;> decide
  · rw [Nat.zero_testBit, Bool.false_or]
    rfl

/-- Only the options are read. -/
lemma Restored.congr {Color : Type} {selected selected' : SgrSaveRestoreStackOptions → Bool}
    {current saved result : TextAttribute Color} (h : Restored selected current saved result)
    (heq : ∀ option, option ≠ .all → selected option = selected' option) : Restored selected' current saved result := by
  have hflag : ∀ i, (flagOption i).any selected = (flagOption i).any selected' := by
    intro i
    cases hoption : flagOption i with
    | none => rfl
    | some option =>
      refine heq option ?_
      rintro rfl
      unfold flagOption at hoption
      split at hoption <;> cases hoption
  constructor
  case flags =>
    intro i hi hother
    rw [h.flags i hi hother, hflag i]
  case underlined => exact fun hs => h.underlined ((heq _ (by decide)).trans hs)
  case doublyUnderlined => exact fun hs => h.doublyUnderlined ((heq _ (by decide)).trans hs)
  case keepsUnderlined =>
    rw [← heq .underline (by decide), ← heq .doublyUnderlined (by decide)]
    exact h.keepsUnderlined
  case keepsDoublyUnderlined =>
    rw [← heq .underline (by decide), ← heq .doublyUnderlined (by decide)]
    exact h.keepsDoublyUnderlined
  case foreground => rw [h.foreground, heq _ (by decide)]
  case background => rw [h.background, heq _ (by decide)]
  case underlineColor => exact h.underlineColor
  case hyperlinkId => exact h.hyperlinkId
  case markKind => exact h.markKind

end Options

/-! ### Runs -/

/-- A push or a pop, with the attributes at that time. -/
inductive SgrEvent (Color : Type)
  | push (currentAttributes : TextAttribute Color) (options : List VTParameter)
  | pop (currentAttributes : TextAttribute Color)

structure Pushed (Color : Type) where
  attributes : TextAttribute Color
  options : List VTParameter

section Runs

open SgrStack (maxStoredSgrPushes partsOf)

variable {Color : Type}

/-- What the pops of a run return, and the stack behind it. -/
def SgrStack.run : SgrStack Color → List (SgrEvent Color) → Option (List (TextAttribute Color) × SgrStack Color)
  | s, [] => some ([], s)
  | s, .push currentAttributes options :: events => (s.push currentAttributes options).bind fun s' => s'.run events
  | s, .pop currentAttributes :: events =>
    (s.pop currentAttributes).bind fun popped =>
      (popped.2.run events).map fun rest => (popped.1 :: rest.1, rest.2)

/-- For each pop of a run the current attributes and the push it takes from a stack that keeps the latest ones. -/
def idealPops (size : ℕ) : List (Pushed Color) → List (SgrEvent Color) → List (TextAttribute Color × Option (Pushed Color))
  | _, [] => []
  | stack, .push currentAttributes options :: events =>
    idealPops size ((⟨currentAttributes, options⟩ :: stack).take size) events
  | stack, .pop currentAttributes :: events => (currentAttributes, stack.head?) :: idealPops size stack.tail events

/-- The right answer to a pop. -/
def Answers (popped : TextAttribute Color × Option (Pushed Color)) (result : TextAttribute Color) : Prop :=
  match popped.2 with
  | none => result = popped.1
  | some pushed =>
    if pushed.options = [] then result = pushed.attributes
    else Restored (selects pushed.options) popped.1 pushed.attributes result

/-- What a slot holds for a push. -/
def saved (pushed : Pushed Color) : SavedSgrAttributes Color := ⟨pushed.attributes, SgrStack.partsOf pushed.options⟩

/-- The slots hold an ideal stack. -/
structure Refines (s : SgrStack Color) (stack : List (Pushed Color)) : Prop where
  size : s.storedSgrAttributes.length = maxStoredSgrPushes
  keeps : Lib.RingStack.Keeps s.storedSgrAttributes s.nextPushIndex s.numSavedAttrs (stack.map saved)

lemma refines_start (default : TextAttribute Color) : Refines (.start default) [] :=
  ⟨rfl, Lib.RingStack.keeps_nil (Nat.zero_lt_succ 9)⟩

lemma Refines.push {s : SgrStack Color} {stack : List (Pushed Color)} (h : Refines s stack)
    (currentAttributes : TextAttribute Color) (options : List VTParameter) : ∃ s',
    s.push currentAttributes options = some s' ∧
      Refines s' ((⟨currentAttributes, options⟩ :: stack).take maxStoredSgrPushes) := by
  have hkeeps := h.keeps.push (saved ⟨currentAttributes, options⟩)
  unfold SgrStack.push
  dsimp only
  rw [if_pos h.keeps.inside]
  refine ⟨_, rfl, ?_, ?_⟩
  · exact (List.length_set ..).trans h.size
  · rw [List.map_take, List.map_cons, ← h.size]
    exact hkeeps

/-- **One pop.** -/
lemma Refines.pop {s : SgrStack Color} {stack : List (Pushed Color)} (h : Refines s stack)
    (currentAttributes : TextAttribute Color) : ∃ result s', s.pop currentAttributes = some (result, s') ∧
      Answers (currentAttributes, stack.head?) result ∧ Refines s' stack.tail := by
  unfold SgrStack.pop
  cases stack with
  | nil =>
    have hzero : 0 = s.numSavedAttrs := h.keeps.length
    rw [← hzero, if_neg (Nat.lt_irrefl 0)]
    exact ⟨_, _, rfl, rfl, h⟩
  | cons pushed stack =>
    have hlength : (stack.map saved).length + 1 = s.numSavedAttrs := h.keeps.length
    have hpos : 0 < s.numSavedAttrs := by omega
    obtain ⟨hslot, hrest⟩ := h.keeps.pop
    rw [if_pos hpos]
    dsimp only
    rw [show s.storedSgrAttributes[if s.nextPushIndex = 0 then s.storedSgrAttributes.length - 1
      else s.nextPushIndex - 1]? = some (saved pushed) from hslot]
    dsimp only
    have hafter : Refines { s with
        numSavedAttrs := s.numSavedAttrs - 1
        nextPushIndex := if s.nextPushIndex = 0 then s.storedSgrAttributes.length - 1 else s.nextPushIndex - 1 } stack :=
      ⟨h.size, hrest⟩
    have hall := test_all_partsOf pushed.options
    by_cases hoptions : pushed.options = []
    · rw [show (saved pushed).validParts.test .all = true from hall.trans (by rw [hoptions]; rfl), if_pos rfl]
      refine ⟨_, _, rfl, ?_, hafter⟩
      show if pushed.options = [] then _ else _
      rw [if_pos hoptions]
      rfl
    · have hsome : (partsOf pushed.options).test .all = false := hall.trans (by simpa using hoptions)
      obtain ⟨result, hresult, hrestored⟩ := restored_combine currentAttributes pushed.attributes _ hsome
      rw [show (saved pushed).validParts.test .all = false from hsome, if_neg Bool.false_ne_true,
        show SgrStack.combineWithCurrentAttributes currentAttributes (saved pushed).textAttributes
          (saved pushed).validParts = some result from hresult]
      refine ⟨_, _, rfl, ?_, hafter⟩
      show if pushed.options = [] then _ else _
      rw [if_neg hoptions]
      exact hrestored.congr fun option hoption => test_partsOf hoptions hoption

/-- **The run lemma.** -/
lemma Refines.run {s : SgrStack Color} {stack : List (Pushed Color)} (h : Refines s stack)
    (events : List (SgrEvent Color)) : ∃ results s' stack', s.run events = some (results, s') ∧
      List.Forall₂ Answers (idealPops maxStoredSgrPushes stack events) results ∧ Refines s' stack' := by
  induction events generalizing s stack with
  | nil => exact ⟨[], s, stack, rfl, .nil, h⟩
  | cons event events ih =>
    cases event with
    | push currentAttributes options =>
      obtain ⟨s₁, hpush, h₁⟩ := h.push currentAttributes options
      obtain ⟨results, s', stack', hrun, hanswers, h'⟩ := ih h₁
      refine ⟨results, s', stack', ?_, hanswers, h'⟩
      rw [SgrStack.run, hpush]
      exact hrun
    | pop currentAttributes =>
      obtain ⟨result, s₁, hpop, hanswer, h₁⟩ := h.pop currentAttributes
      obtain ⟨results, s', stack', hrun, hanswers, h'⟩ := ih h₁
      refine ⟨result :: results, s', stack', ?_, .cons hanswer hanswers, h'⟩
      rw [SgrStack.run, hpop, Option.bind_some, hrun]
      rfl

/-- **The stack of renditions is a bounded stack.**  No run leaves the array or fails fast, and every pop answers
as the ideal stack does. -/
theorem sgrStack_run (default : TextAttribute Color) (events : List (SgrEvent Color)) : ∃ results s,
    (SgrStack.start default).run events = some (results, s) ∧
      List.Forall₂ Answers (idealPops SgrStack.maxStoredSgrPushes [] events) results ∧
      s.nextPushIndex < SgrStack.maxStoredSgrPushes ∧ s.numSavedAttrs ≤ SgrStack.maxStoredSgrPushes ∧
      s.storedSgrAttributes.length = SgrStack.maxStoredSgrPushes := by
  obtain ⟨results, s, stack, hrun, hanswers, h⟩ := (refines_start default).run events
  refine ⟨results, s, hrun, hanswers, ?_, ?_, h.size⟩
  · exact h.size ▸ h.keeps.inside
  · exact h.size ▸ h.keeps.fits

/-- Plain text in a style. -/
def styled (style : UnderlineStyle) : TextAttribute ℕ :=
  TextAttribute.setUnderlineStyle ⟨0, 0, 0, 0, 0, .none⟩ style

/-- The option 4 alone is selected, and the double underline of the current attributes goes. -/
theorem pop_changes_unselected : ¬∀ (current pushed : TextAttribute ℕ) (options : List VTParameter)
    (result : TextAttribute ℕ) (s : SgrStack ℕ), options ≠ [] →
    (SgrStack.start (styled .noUnderline)).run [.push pushed options, .pop current] = some ([result], s) →
    selects options .doublyUnderlined = false →
    (result.getUnderlineStyle = .doublyUnderlined ↔ current.getUnderlineStyle = .doublyUnderlined) := by
  intro h
  have hdoubly := h (styled .doublyUnderlined) (styled .singlyUnderlined) [some 4] (styled .singlyUnderlined) _
    (by decide) rfl (by decide)
  exact absurd (hdoubly.mpr (by decide)) (by decide)

end Runs

end VT7.Types
