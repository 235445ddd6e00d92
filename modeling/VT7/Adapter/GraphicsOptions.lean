import VT7.Lib.BitUpdates
import VT7.Types.SgrStack

/-!
# Graphic renditions

`_ApplyGraphicsOptions` applies a list of options to text attributes.  Whatever the list, it is an update: each bit of
the character attributes is kept, set or cleared, and each colour is kept or given one value
(`applyGraphicsOptions_update`).
-/

namespace VT7.Types

inductive ColorType
  | isDefault
  | isIndex16
  | isIndex256
  | isRgb
  deriving DecidableEq

/-- A colour; `red` is the index of the indexed colours too. -/
structure TextColor where
  type : ColorType := .isDefault
  red : UInt8 := 0
  green : UInt8 := 0
  blue : UInt8 := 0
  deriving DecidableEq

namespace TextColor

def darkBlack : UInt8 := 0
def darkRed : UInt8 := 1
def darkGreen : UInt8 := 2
def darkYellow : UInt8 := 3
def darkBlue : UInt8 := 4
def darkMagenta : UInt8 := 5
def darkCyan : UInt8 := 6
def darkWhite : UInt8 := 7
def brightBlack : UInt8 := 8
def brightRed : UInt8 := 9
def brightGreen : UInt8 := 10
def brightYellow : UInt8 := 11
def brightBlue : UInt8 := 12
def brightMagenta : UInt8 := 13
def brightCyan : UInt8 := 14
def brightWhite : UInt8 := 15

def ofIndex (index : UInt8) (isIndex256 : Bool) : TextColor where
  type := if isIndex256 then .isIndex256 else .isIndex16
  red := index

/-- `RGB`. -/
def rgb (red green blue : UInt8) : TextColor := ⟨.isRgb, red, green, blue⟩

def isDefault (c : TextColor) : Bool := c.type = .isDefault

end TextColor

namespace CharacterAttributes

def topGridline : CharacterAttributes := 0x400
def protectedAttribute : CharacterAttributes := 0x2000
def all : CharacterAttributes := 0xFFFF
def rendition : CharacterAttributes := all &&& ~~~protectedAttribute

end CharacterAttributes

namespace UnderlineStyle

/-- The number of `DashedUnderlined`. -/
def max : ℤ := 5

end UnderlineStyle

namespace TextAttribute

variable (a : TextAttribute TextColor)

def setOverlined : Bool → TextAttribute TextColor := a.setFlag .topGridline

def setUnderlineColor (color : TextColor) : TextAttribute TextColor := { a with underlineColor := color }

def setIndexedForeground (fgIndex : UInt8) : TextAttribute TextColor := a.setForeground (.ofIndex fgIndex false)
def setIndexedBackground (bgIndex : UInt8) : TextAttribute TextColor := a.setBackground (.ofIndex bgIndex false)
def setIndexedForeground256 (fgIndex : UInt8) : TextAttribute TextColor := a.setForeground (.ofIndex fgIndex true)
def setIndexedBackground256 (bgIndex : UInt8) : TextAttribute TextColor := a.setBackground (.ofIndex bgIndex true)

def setColor (rgbColor : TextColor) (isForeground : Bool) : TextAttribute TextColor :=
  if isForeground then a.setForeground rgbColor else a.setBackground rgbColor

def setDefaultForeground : TextAttribute TextColor := a.setForeground {}
def setDefaultBackground : TextAttribute TextColor := a.setBackground {}
def setDefaultUnderlineColor : TextAttribute TextColor := a.setUnderlineColor {}

def setDefaultRenditionAttributes : TextAttribute TextColor := { a with attrs := a.attrs &&& ~~~.rendition }

end TextAttribute

end VT7.Types

namespace VT7.Adapter

open VT7.Parser (VTParameter)
open VT7.Types

/-! ### Parameters -/

/-- `value_or`; a negative value is an omitted one. -/
def valueOr (p : VTParameter) (defaultValue : ℤ) : ℤ := if p.getD (-1) < 0 then defaultValue else p.getD (-1)

/-- The conversion to `VTInt`: zero and omitted values are 1. -/
def vtInt (p : VTParameter) : ℤ := if p.getD (-1) ≤ 0 then 1 else p.getD (-1)

lemma vtInt_pos (p : VTParameter) : 1 ≤ vtInt p := by
  unfold vtInt
  split_ifs <;> omega

structure VTParameters where
  params : List VTParameter
  subParams : List VTParameter := []
  subParamRanges : List (ℕ × ℕ) := []

namespace VTParameters

variable (options : VTParameters)

/-- Out of range there is a parameter without a value. -/
def «at» (index : ℕ) : VTParameter := options.params.getD index none

/-- An empty list is a single default parameter. -/
def size : ℕ := max options.params.length 1

/-- The sub parameters stay; the ranges say where they are. -/
def subspan (offset : ℕ) : VTParameters where
  params := options.params.drop offset
  subParams := options.subParams
  subParamRanges := options.subParamRanges.drop offset

def subParamsFor (index : ℕ) : List VTParameter :=
  let range := options.subParamRanges.getD index (0, 0)
  (options.subParams.drop range.1).take (range.2 - range.1)

def hasSubParamsFor (index : ℕ) : Bool :=
  let range := options.subParamRanges.getD index (0, 0)
  range.1 < range.2

end VTParameters

/-- `VTSubParameters::at`. -/
def subParamAt (subParams : List VTParameter) (index : ℕ) : VTParameter := subParams.getD index none

inductive GraphicsOptions
  | off
  | intense
  | rgbColorOrFaint
  | italics
  | underline
  | blinkOrXterm256Index
  | rapidBlink
  | negative
  | invisible
  | crossedOut
  | doublyUnderlined
  | notIntenseOrFaint
  | notItalics
  | noUnderline
  | steady
  | positive
  | visible
  | notCrossedOut
  | foregroundBlack
  | foregroundRed
  | foregroundGreen
  | foregroundYellow
  | foregroundBlue
  | foregroundMagenta
  | foregroundCyan
  | foregroundWhite
  | foregroundExtended
  | foregroundDefault
  | backgroundBlack
  | backgroundRed
  | backgroundGreen
  | backgroundYellow
  | backgroundBlue
  | backgroundMagenta
  | backgroundCyan
  | backgroundWhite
  | backgroundExtended
  | backgroundDefault
  | overline
  | noOverline
  | underlineColor
  | underlineColorDefault
  | brightForegroundBlack
  | brightForegroundRed
  | brightForegroundGreen
  | brightForegroundYellow
  | brightForegroundBlue
  | brightForegroundMagenta
  | brightForegroundCyan
  | brightForegroundWhite
  | brightBackgroundBlack
  | brightBackgroundRed
  | brightBackgroundGreen
  | brightBackgroundYellow
  | brightBackgroundBlue
  | brightBackgroundMagenta
  | brightBackgroundCyan
  | brightBackgroundWhite

namespace GraphicsOptions

/-- The option with a number. -/
def ofNumber : ℕ → Option GraphicsOptions
  | 0 => some off
  | 1 => some intense
  | 2 => some rgbColorOrFaint
  | 3 => some italics
  | 4 => some underline
  | 5 => some blinkOrXterm256Index
  | 6 => some rapidBlink
  | 7 => some negative
  | 8 => some invisible
  | 9 => some crossedOut
  | 21 => some doublyUnderlined
  | 22 => some notIntenseOrFaint
  | 23 => some notItalics
  | 24 => some noUnderline
  | 25 => some steady
  | 27 => some positive
  | 28 => some visible
  | 29 => some notCrossedOut
  | 30 => some foregroundBlack
  | 31 => some foregroundRed
  | 32 => some foregroundGreen
  | 33 => some foregroundYellow
  | 34 => some foregroundBlue
  | 35 => some foregroundMagenta
  | 36 => some foregroundCyan
  | 37 => some foregroundWhite
  | 38 => some foregroundExtended
  | 39 => some foregroundDefault
  | 40 => some backgroundBlack
  | 41 => some backgroundRed
  | 42 => some backgroundGreen
  | 43 => some backgroundYellow
  | 44 => some backgroundBlue
  | 45 => some backgroundMagenta
  | 46 => some backgroundCyan
  | 47 => some backgroundWhite
  | 48 => some backgroundExtended
  | 49 => some backgroundDefault
  | 53 => some overline
  | 55 => some noOverline
  | 58 => some underlineColor
  | 59 => some underlineColorDefault
  | 90 => some brightForegroundBlack
  | 91 => some brightForegroundRed
  | 92 => some brightForegroundGreen
  | 93 => some brightForegroundYellow
  | 94 => some brightForegroundBlue
  | 95 => some brightForegroundMagenta
  | 96 => some brightForegroundCyan
  | 97 => some brightForegroundWhite
  | 100 => some brightBackgroundBlack
  | 101 => some brightBackgroundRed
  | 102 => some brightBackgroundGreen
  | 103 => some brightBackgroundYellow
  | 104 => some brightBackgroundBlue
  | 105 => some brightBackgroundMagenta
  | 106 => some brightBackgroundCyan
  | 107 => some brightBackgroundWhite
  | _ => none

def ofParameter (p : VTParameter) : Option GraphicsOptions := ofNumber (valueOr p 0).toNat

/-- The cases of `_ApplyGraphicsOption` without further parameters. -/
def apply (opt : GraphicsOptions) (attr : TextAttribute TextColor) : TextAttribute TextColor :=
  match opt with
  | off =>
    attr.setDefaultForeground.setDefaultBackground.setDefaultUnderlineColor.setDefaultRenditionAttributes
  | foregroundDefault => attr.setDefaultForeground
  | backgroundDefault => attr.setDefaultBackground
  | underlineColorDefault => attr.setDefaultUnderlineColor
  | intense => attr.setIntense true
  | rgbColorOrFaint => attr.setFaint true
  | notIntenseOrFaint => (attr.setIntense false).setFaint false
  | italics => attr.setItalic true
  | notItalics => attr.setItalic false
  | blinkOrXterm256Index => attr.setBlinking true
  | rapidBlink => attr.setBlinking true
  | steady => attr.setBlinking false
  | invisible => attr.setInvisible true
  | visible => attr.setInvisible false
  | crossedOut => attr.setCrossedOut true
  | notCrossedOut => attr.setCrossedOut false
  | negative => attr.setReverseVideo true
  | positive => attr.setReverseVideo false
  | underline => attr.setUnderlineStyle .singlyUnderlined
  | doublyUnderlined => attr.setUnderlineStyle .doublyUnderlined
  | noUnderline => attr.setUnderlineStyle .noUnderline
  | overline => attr.setOverlined true
  | noOverline => attr.setOverlined false
  | foregroundBlack => attr.setIndexedForeground TextColor.darkBlack
  | foregroundBlue => attr.setIndexedForeground TextColor.darkBlue
  | foregroundGreen => attr.setIndexedForeground TextColor.darkGreen
  | foregroundCyan => attr.setIndexedForeground TextColor.darkCyan
  | foregroundRed => attr.setIndexedForeground TextColor.darkRed
  | foregroundMagenta => attr.setIndexedForeground TextColor.darkMagenta
  | foregroundYellow => attr.setIndexedForeground TextColor.darkYellow
  | foregroundWhite => attr.setIndexedForeground TextColor.darkWhite
  | backgroundBlack => attr.setIndexedBackground TextColor.darkBlack
  | backgroundBlue => attr.setIndexedBackground TextColor.darkBlue
  | backgroundGreen => attr.setIndexedBackground TextColor.darkGreen
  | backgroundCyan => attr.setIndexedBackground TextColor.darkCyan
  | backgroundRed => attr.setIndexedBackground TextColor.darkRed
  | backgroundMagenta => attr.setIndexedBackground TextColor.darkMagenta
  | backgroundYellow => attr.setIndexedBackground TextColor.darkYellow
  | backgroundWhite => attr.setIndexedBackground TextColor.darkWhite
  | brightForegroundBlack => attr.setIndexedForeground TextColor.brightBlack
  | brightForegroundBlue => attr.setIndexedForeground TextColor.brightBlue
  | brightForegroundGreen => attr.setIndexedForeground TextColor.brightGreen
  | brightForegroundCyan => attr.setIndexedForeground TextColor.brightCyan
  | brightForegroundRed => attr.setIndexedForeground TextColor.brightRed
  | brightForegroundMagenta => attr.setIndexedForeground TextColor.brightMagenta
  | brightForegroundYellow => attr.setIndexedForeground TextColor.brightYellow
  | brightForegroundWhite => attr.setIndexedForeground TextColor.brightWhite
  | brightBackgroundBlack => attr.setIndexedBackground TextColor.brightBlack
  | brightBackgroundBlue => attr.setIndexedBackground TextColor.brightBlue
  | brightBackgroundGreen => attr.setIndexedBackground TextColor.brightGreen
  | brightBackgroundCyan => attr.setIndexedBackground TextColor.brightCyan
  | brightBackgroundRed => attr.setIndexedBackground TextColor.brightRed
  | brightBackgroundMagenta => attr.setIndexedBackground TextColor.brightMagenta
  | brightBackgroundYellow => attr.setIndexedBackground TextColor.brightYellow
  | brightBackgroundWhite => attr.setIndexedBackground TextColor.brightWhite
  -- These need parameters of their own.
  | foregroundExtended | backgroundExtended | underlineColor => attr

end GraphicsOptions

/-! ### Options -/

/-- `_SetUnderlineStyleHelper`. -/
def setUnderlineStyleHelper (option : VTParameter) (attr : TextAttribute TextColor) : TextAttribute TextColor :=
  let style := valueOr option 0
  if 0 ≤ style ∧ style ≤ UnderlineStyle.max then attr.setUnderlineStyle (BitVec.ofInt 16 style) else attr

/-- `_SetRgbColorsHelper`: the attributes, and how many options were consumed behind the first one. -/
def setRgbColorsHelper (options : VTParameters) (attr : TextAttribute TextColor) (isForeground : Bool) :
    TextAttribute TextColor × ℕ :=
  match GraphicsOptions.ofParameter (options.at 0) with
  | some .rgbColorOrFaint =>
    let red := (valueOr (options.at 1) 0).toNat
    let green := (valueOr (options.at 2) 0).toNat
    let blue := (valueOr (options.at 3) 0).toNat
    if red ≤ 255 ∧ green ≤ 255 ∧ blue ≤ 255 then
      (attr.setColor (.rgb red.toUInt8 green.toUInt8 blue.toUInt8) isForeground, 4)
    else (attr, 4)
  | some .blinkOrXterm256Index =>
    let tableIndex := (valueOr (options.at 1) 0).toNat
    if tableIndex ≤ 255 then
      let adjustedIndex := tableIndex.toUInt8
      if isForeground then (attr.setIndexedForeground256 adjustedIndex, 2)
      else (attr.setIndexedBackground256 adjustedIndex, 2)
    else (attr, 2)
  | _ => (attr, 1)

/-- `applyColor`. -/
def applyColor (colorItem : GraphicsOptions) (color : TextColor) (attr : TextAttribute TextColor) :
    TextAttribute TextColor :=
  match colorItem with
  | .foregroundExtended => attr.setForeground color
  | .backgroundExtended => attr.setBackground color
  | .underlineColor => attr.setUnderlineColor color
  | _ => attr

/-- `_SetRgbColorsHelperFromSubParams`. -/
def setRgbColorsHelperFromSubParams (colorItem : GraphicsOptions) (options : List VTParameter)
    (attr : TextAttribute TextColor) : TextAttribute TextColor :=
  match GraphicsOptions.ofParameter (subParamAt options 0) with
  | some .rgbColorOrFaint =>
    let validColorSpace := valueOr (subParamAt options 1) 0 = 0
    let red := (valueOr (subParamAt options 2) 0).toNat
    let green := (valueOr (subParamAt options 3) 0).toNat
    let blue := (valueOr (subParamAt options 4) 0).toNat
    if validColorSpace ∧ red ≤ 255 ∧ green ≤ 255 ∧ blue ≤ 255 then
      applyColor colorItem (.rgb red.toUInt8 green.toUInt8 blue.toUInt8) attr
    else attr
  | some .blinkOrXterm256Index =>
    let tableIndex := (valueOr (subParamAt options 1) 0).toNat
    if tableIndex ≤ 255 then applyColor colorItem (.ofIndex tableIndex.toUInt8 true) attr else attr
  | _ => attr

/-- `_ApplyGraphicsOptionWithSubParams`; what is not known is skipped. -/
def applyGraphicsOptionWithSubParams (option : VTParameter) (subParams : List VTParameter)
    (attr : TextAttribute TextColor) : TextAttribute TextColor :=
  match GraphicsOptions.ofParameter option with
  | some .underline => setUnderlineStyleHelper (subParamAt subParams 0) attr
  | some .foregroundExtended => setRgbColorsHelperFromSubParams .foregroundExtended subParams attr
  | some .backgroundExtended => setRgbColorsHelperFromSubParams .backgroundExtended subParams attr
  | some .underlineColor => setRgbColorsHelperFromSubParams .underlineColor subParams attr
  | _ => attr

/-- `_ApplyGraphicsOption`: the attributes, and how many options were consumed. -/
def applyGraphicsOption (options : VTParameters) (optionIndex : ℕ) (attr : TextAttribute TextColor) :
    TextAttribute TextColor × ℕ :=
  if options.hasSubParamsFor optionIndex then
    (applyGraphicsOptionWithSubParams (options.at optionIndex) (options.subParamsFor optionIndex) attr, 1)
  else
    match GraphicsOptions.ofParameter (options.at optionIndex) with
    | some .foregroundExtended =>
      let (attr, optionsConsumed) := setRgbColorsHelper (options.subspan (optionIndex + 1)) attr true
      (attr, 1 + optionsConsumed)
    | some .backgroundExtended =>
      let (attr, optionsConsumed) := setRgbColorsHelper (options.subspan (optionIndex + 1)) attr false
      (attr, 1 + optionsConsumed)
    | some opt => (opt.apply attr, 1)
    | none => (attr, 1)

theorem applyGraphicsOption_consumes (options : VTParameters) (optionIndex : ℕ) (attr : TextAttribute TextColor) :
    0 < (applyGraphicsOption options optionIndex attr).2 := by
  unfold applyGraphicsOption
  split
  · exact Nat.one_pos
  · split
    · exact Nat.add_pos_left Nat.one_pos _
    · exact Nat.add_pos_left Nat.one_pos _
    · exact Nat.one_pos
    · exact Nat.one_pos

/-- The loop of `_ApplyGraphicsOptions`, from the option `i` on. -/
def applyGraphicsOptionsFrom (options : VTParameters) (i : ℕ) (attr : TextAttribute TextColor) :
    TextAttribute TextColor :=
  if i < options.size then
    let applied := applyGraphicsOption options i attr
    applyGraphicsOptionsFrom options (i + applied.2) applied.1
  else attr
termination_by options.size - i
decreasing_by
  have := applyGraphicsOption_consumes options i attr
  omega

/-- `_ApplyGraphicsOptions`. -/
def applyGraphicsOptions (options : VTParameters) (attr : TextAttribute TextColor) : TextAttribute TextColor :=
  applyGraphicsOptionsFrom options 0 attr

/-! ### What a list of options can do -/

/-- What becomes of the bits, and the colours that are set. -/
structure RenditionUpdate where
  bits : Lib.BitUpdate 16 := .none
  foreground : Option TextColor := none
  background : Option TextColor := none
  underlineColor : Option TextColor := none

namespace RenditionUpdate

def apply (u : RenditionUpdate) (a : TextAttribute TextColor) : TextAttribute TextColor :=
  { a with
    attrs := u.bits.apply a.attrs
    foreground := u.foreground.getD a.foreground
    background := u.background.getD a.background
    underlineColor := u.underlineColor.getD a.underlineColor }

def andThen (first second : RenditionUpdate) : RenditionUpdate where
  bits := first.bits.andThen second.bits
  foreground := second.foreground <|> first.foreground
  background := second.background <|> first.background
  underlineColor := second.underlineColor <|> first.underlineColor

lemma getD_orElse {β : Type} (x y : Option β) (d : β) : (x <|> y).getD d = x.getD (y.getD d) := by
  cases x <;> rfl

theorem apply_andThen (first second : RenditionUpdate) (a : TextAttribute TextColor) :
    (first.andThen second).apply a = second.apply (first.apply a) := by
  simp only [apply, andThen, Lib.BitUpdate.apply_andThen, getD_orElse]

end RenditionUpdate

/-- What the function does is an update. -/
def IsUpdate (f : TextAttribute TextColor → TextAttribute TextColor) : Prop :=
  ∃ u : RenditionUpdate, ∀ a, f a = u.apply a

namespace IsUpdate

open TextAttribute

variable {f g : TextAttribute TextColor → TextAttribute TextColor}

theorem id : IsUpdate fun a => a := by
  refine ⟨{}, fun a => ?_⟩
  simp [RenditionUpdate.apply]

theorem comp (hg : IsUpdate g) (hf : IsUpdate f) : IsUpdate fun a => g (f a) := by
  obtain ⟨first, hfirst⟩ := hf
  obtain ⟨second, hsecond⟩ := hg
  refine ⟨first.andThen second, fun a => ?_⟩
  rw [RenditionUpdate.apply_andThen, ← hfirst, ← hsecond]

/-- The bits of a field are given a value. -/
theorem field (mask value : CharacterAttributes) :
    IsUpdate fun a => { a with attrs := a.attrs &&& ~~~mask ||| value } := by
  refine ⟨{ bits := .field mask value }, fun a => ?_⟩
  simp [RenditionUpdate.apply, Lib.BitUpdate.apply_field]

theorem setFlag (flag : CharacterAttributes) (isSet : Bool) : IsUpdate fun a => a.setFlag flag isSet := by
  cases isSet with
  | true =>
    obtain ⟨u, hu⟩ := field 0 flag
    have hall : ~~~(0 : CharacterAttributes) = BitVec.allOnes 16 := by decide
    refine ⟨u, fun a => ?_⟩
    rw [← hu, hall]
    simp only [BitVec.and_allOnes]
    rfl
  | false =>
    obtain ⟨u, hu⟩ := field flag 0
    refine ⟨u, fun a => ?_⟩
    rw [← hu]
    simp [TextAttribute.setFlag, CharacterAttributes.updateFlag]

theorem setUnderlineStyle (style : UnderlineStyle) : IsUpdate fun a => a.setUnderlineStyle style :=
  field .underlineStyle (style <<< 6)

theorem setDefaultRenditionAttributes : IsUpdate fun a => a.setDefaultRenditionAttributes := by
  obtain ⟨u, hu⟩ := field .rendition 0
  refine ⟨u, fun a => ?_⟩
  rw [← hu]
  simp [TextAttribute.setDefaultRenditionAttributes]

theorem setForeground (color : TextColor) : IsUpdate fun a => a.setForeground color := by
  refine ⟨{ foreground := some color }, fun a => ?_⟩
  simp [RenditionUpdate.apply, TextAttribute.setForeground]

theorem setBackground (color : TextColor) : IsUpdate fun a => a.setBackground color := by
  refine ⟨{ background := some color }, fun a => ?_⟩
  simp [RenditionUpdate.apply, TextAttribute.setBackground]

theorem setUnderlineColor (color : TextColor) : IsUpdate fun a => a.setUnderlineColor color := by
  refine ⟨{ underlineColor := some color }, fun a => ?_⟩
  simp [RenditionUpdate.apply, TextAttribute.setUnderlineColor]

theorem setColor (color : TextColor) (isForeground : Bool) : IsUpdate fun a => a.setColor color isForeground := by
  cases isForeground with
  | true => exact setForeground color
  | false => exact setBackground color

end IsUpdate

open IsUpdate in
theorem GraphicsOptions.apply_update (opt : GraphicsOptions) : IsUpdate opt.apply := by
  cases opt with
  | off =>
    exact setDefaultRenditionAttributes.comp ((setUnderlineColor _).comp ((setBackground _).comp (setForeground _)))
  | notIntenseOrFaint => exact (setFlag _ _).comp (setFlag _ _)
  | underline | doublyUnderlined | noUnderline => exact setUnderlineStyle _
  | intense | rgbColorOrFaint | italics | notItalics | blinkOrXterm256Index | rapidBlink | steady | invisible | visible
  | crossedOut | notCrossedOut | negative | positive | overline | noOverline => exact setFlag _ _
  | underlineColorDefault => exact setUnderlineColor _
  | backgroundDefault | backgroundBlack | backgroundBlue | backgroundGreen | backgroundCyan | backgroundRed
  | backgroundMagenta | backgroundYellow | backgroundWhite | brightBackgroundBlack | brightBackgroundBlue
  | brightBackgroundGreen | brightBackgroundCyan | brightBackgroundRed | brightBackgroundMagenta
  | brightBackgroundYellow | brightBackgroundWhite => exact setBackground _
  | foregroundExtended | backgroundExtended | underlineColor => exact IsUpdate.id
  | _ => exact setForeground _

theorem applyColor_update (colorItem : GraphicsOptions) (color : TextColor) : IsUpdate (applyColor colorItem color) := by
  unfold applyColor
  cases colorItem with
  | foregroundExtended => exact .setForeground color
  | backgroundExtended => exact .setBackground color
  | underlineColor => exact .setUnderlineColor color
  | _ => exact .id

theorem setRgbColorsHelper_update (options : VTParameters) (isForeground : Bool) :
    ∃ n, IsUpdate (fun a => (setRgbColorsHelper options a isForeground).1) ∧
      ∀ a, (setRgbColorsHelper options a isForeground).2 = n := by
  unfold setRgbColorsHelper
  generalize GraphicsOptions.ofParameter (options.at 0) = typeOpt
  split
  · dsimp only
    refine ⟨4, ?_, fun a => ?_⟩
    · split_ifs
      · exact .setColor _ isForeground
      · exact .id
    · split_ifs <;> rfl
  · dsimp only
    refine ⟨2, ?_, fun a => ?_⟩
    · split_ifs
      · exact .setForeground _
      · exact .setBackground _
      · exact .id
    · split_ifs <;> rfl
  · exact ⟨1, .id, fun a => rfl⟩

theorem setRgbColorsHelperFromSubParams_update (colorItem : GraphicsOptions) (options : List VTParameter) :
    IsUpdate (setRgbColorsHelperFromSubParams colorItem options) := by
  unfold setRgbColorsHelperFromSubParams
  split
  · dsimp only
    split_ifs
    · exact applyColor_update colorItem _
    · exact .id
  · dsimp only
    split_ifs
    · exact applyColor_update colorItem _
    · exact .id
  · exact .id

theorem applyGraphicsOptionWithSubParams_update (option : VTParameter) (subParams : List VTParameter) :
    IsUpdate (applyGraphicsOptionWithSubParams option subParams) := by
  unfold applyGraphicsOptionWithSubParams
  split
  · unfold setUnderlineStyleHelper
    dsimp only
    split_ifs
    · exact .setUnderlineStyle _
    · exact .id
  · exact setRgbColorsHelperFromSubParams_update _ _
  · exact setRgbColorsHelperFromSubParams_update _ _
  · exact setRgbColorsHelperFromSubParams_update _ _
  · exact .id

/-- One option is an update; how many it consumes does not depend on the attributes. -/
theorem applyGraphicsOption_update (options : VTParameters) (optionIndex : ℕ) :
    ∃ n, IsUpdate (fun a => (applyGraphicsOption options optionIndex a).1) ∧
      ∀ a, (applyGraphicsOption options optionIndex a).2 = n := by
  unfold applyGraphicsOption
  cases options.hasSubParamsFor optionIndex with
  | true => exact ⟨1, applyGraphicsOptionWithSubParams_update _ _, fun a => rfl⟩
  | false =>
    simp only [Bool.false_eq_true, if_false]
    split
    · obtain ⟨n, hupdate, hn⟩ := setRgbColorsHelper_update (options.subspan (optionIndex + 1)) true
      exact ⟨1 + n, hupdate, fun a => congrArg (1 + ·) (hn a)⟩
    · obtain ⟨n, hupdate, hn⟩ := setRgbColorsHelper_update (options.subspan (optionIndex + 1)) false
      exact ⟨1 + n, hupdate, fun a => congrArg (1 + ·) (hn a)⟩
    · exact ⟨1, GraphicsOptions.apply_update _, fun a => rfl⟩
    · exact ⟨1, .id, fun a => rfl⟩

theorem applyGraphicsOptionsFrom_update (options : VTParameters) (i : ℕ) :
    IsUpdate (applyGraphicsOptionsFrom options i) := by
  -- The options that are left become fewer.
  induction hleft : options.size - i using Nat.strong_induction_on generalizing i with
  | _ left ih =>
    by_cases hi : i < options.size
    · obtain ⟨n, hupdate, hn⟩ := applyGraphicsOption_update options i
      have hpos : 0 < n := hn {foreground := {}, background := {}, underlineColor := {}} ▸
        applyGraphicsOption_consumes options i _
      have hrest := ih (options.size - (i + n)) (by omega) (i + n) rfl
      obtain ⟨u, hu⟩ := hrest.comp hupdate
      refine ⟨u, fun a => ?_⟩
      rw [applyGraphicsOptionsFrom, if_pos hi]
      dsimp only
      rw [hn, ← hu]
    · obtain ⟨u, hu⟩ := IsUpdate.id
      refine ⟨u, fun a => ?_⟩
      rw [applyGraphicsOptionsFrom, if_neg hi]
      exact hu a

/-- **A list of options is one update.** -/
theorem applyGraphicsOptions_update (options : VTParameters) : IsUpdate (applyGraphicsOptions options) :=
  applyGraphicsOptionsFrom_update options 0

end VT7.Adapter
