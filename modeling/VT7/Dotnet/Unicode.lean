import VT7.Dotnet.Text
import VT7.Lib.Wire

/-!
UTF-16 text as the host and the shim hold it, a list of 16-bit units, and the .NET encoding
`Encoding.Unicode` (UTF-16, little-endian, no byte order mark).

A surrogate that is not one half of a pair has no character.  `Encoding.Unicode` writes and reads
U+FFFD in its place; text without such a unit goes through unchanged.
-/

namespace VT7.Dotnet

open VT7.Lib

/-- A string as its UTF-16 code units. -/
abbrev Utf16 := List UInt16

/-- `char.IsHighSurrogate`. -/
def isHighSurrogate (u : UInt16) : Bool := 0xd800 ≤ u && u ≤ 0xdbff

/-- `char.IsLowSurrogate`. -/
def isLowSurrogate (u : UInt16) : Bool := 0xdc00 ≤ u && u ≤ 0xdfff

/-- A unit on its own, as the replacement fallback leaves it. -/
def replaceUnit (u : UInt16) : UInt16 := if isHighSurrogate u || isLowSurrogate u then 0xfffd else u

/-- The replacement fallback: every surrogate outside a pair becomes U+FFFD. -/
def replaceLone : Utf16 → Utf16
  | [] => []
  | [u] => [replaceUnit u]
  | u :: v :: rest =>
    if isHighSurrogate u && isLowSurrogate v then u :: v :: replaceLone rest
    else replaceUnit u :: replaceLone (v :: rest)

/-- Every surrogate is one half of a pair. -/
def WellFormed : Utf16 → Bool
  | [] => true
  | [u] => !(isHighSurrogate u || isLowSurrogate u)
  | u :: v :: rest =>
    if isHighSurrogate u && isLowSurrogate v then WellFormed rest
    else !(isHighSurrogate u || isLowSurrogate u) && WellFormed (v :: rest)

/-- The two bytes of a unit, the low one first. -/
def unitBytes (u : UInt16) : Bytes := Wire.leBytes 2 u.toBitVec

/-- `Encoding.Unicode.GetBytes`. -/
def unicodeBytes (t : Utf16) : Bytes := (replaceLone t).flatMap unitBytes

/-- The units of some bytes; a byte left over at the end is no unit. -/
def unitsOf : Bytes → Utf16
  | a :: b :: rest => ⟨Wire.leWord 16 [a, b]⟩ :: unitsOf rest
  | [_] => [0xfffd]
  | [] => []

/-- `Encoding.Unicode.GetString`. -/
def unicodeString (bs : Bytes) : Utf16 := replaceLone (unitsOf bs)

/-! ### Well-formed text -/

lemma replaceUnit_eq_self_iff (u : UInt16) :
    replaceUnit u = u ↔ (isHighSurrogate u || isLowSurrogate u) = false := by
  unfold replaceUnit
  split
  · next h =>
    -- the replacement character is no surrogate
    refine ⟨fun hu => ?_, fun hu => by rw [hu] at h; cases h⟩
    rw [← hu] at h
    exact absurd h (by decide)
  · next h => exact ⟨fun _ => by simpa using h, fun _ => rfl⟩

/-- The fallback leaves exactly the well-formed texts unchanged. -/
lemma replaceLone_eq_self_iff (t : Utf16) : replaceLone t = t ↔ WellFormed t = true := by
  induction t using replaceLone.induct with
  | case1 => simp [replaceLone, WellFormed]
  | case2 u => simp [replaceLone, WellFormed, replaceUnit_eq_self_iff]
  | case3 u v rest h ih => simp [replaceLone, WellFormed, h, ih]
  | case4 u v rest h ih =>
    rw [replaceLone, WellFormed, if_neg h, if_neg h, List.cons.injEq, replaceUnit_eq_self_iff, ih,
      Bool.and_eq_true, Bool.not_eq_true']

lemma WellFormed.replaceLone_eq {t : Utf16} (h : WellFormed t = true) : replaceLone t = t :=
  (replaceLone_eq_self_iff t).mpr h

/-! ### Bytes and units -/

lemma unitBytes_eq (u : UInt16) : ∃ a b, unitBytes u = [a, b] ∧ Wire.leWord 16 [a, b] = u.toBitVec := by
  have hlen : (unitBytes u).length = 2 := Wire.leBytes_length 2 u.toBitVec
  obtain ⟨a, b, hab⟩ := List.length_eq_two.mp hlen
  refine ⟨a, b, hab, ?_⟩
  rw [← hab]
  exact Wire.leWord_leBytes (n := 2) u.toBitVec

@[simp] lemma unitsOf_unitBytes (t : Utf16) : unitsOf (t.flatMap unitBytes) = t := by
  induction t with
  | nil => rfl
  | cons u t ih =>
    obtain ⟨a, b, hab, hu⟩ := unitBytes_eq u
    rw [List.flatMap_cons, hab]
    show (⟨Wire.leWord 16 [a, b]⟩ : UInt16) :: unitsOf (t.flatMap unitBytes) = _
    rw [hu, ih]

@[simp] lemma unitBytes_flatMap_length (t : Utf16) : (t.flatMap unitBytes).length = 2 * t.length := by
  induction t with
  | nil => rfl
  | cons u t ih =>
    rw [List.flatMap_cons, List.length_append, ih, List.length_cons, unitBytes, Wire.leBytes_length]
    ring

@[simp] lemma replaceLone_length (t : Utf16) : (replaceLone t).length = t.length := by
  induction t using replaceLone.induct with
  | case1 => rfl
  | case2 u => rfl
  | case3 u v rest h ih => simp [replaceLone, h, ih]
  | case4 u v rest h ih =>
    rw [replaceLone, if_neg h, List.length_cons, ih]
    rfl

end VT7.Dotnet
