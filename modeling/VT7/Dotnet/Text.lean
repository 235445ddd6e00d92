import Mathlib.Data.List.DropRight
import VT7.Lib.Base64

/-!
The part of the .NET base class library that the host uses on strings and byte arrays: character
classes, trimming, the ASCII and UTF-8 encodings, base64, hexadecimal and decimal text.

A string is the list of its characters and a byte array the list of its bytes.  The two hash
functions and the culture-invariant upper case are parameters (`Platform`): nothing is assumed of
them except where a theorem says so.
-/

namespace VT7.Dotnet

open VT7.Lib

abbrev Text := List Char
abbrev Bytes := List UInt8

/-- What the runtime provides and the model does not compute. -/
structure Platform where
  /-- `SHA256.ComputeHash`. -/
  sha256 : Bytes → Bytes
  /-- `HMACSHA1(key).ComputeHash(data)`. -/
  hmacSha1 : Bytes → Bytes → Bytes
  /-- `string.ToUpperInvariant`. -/
  toUpperInvariant : Text → Text

/-! ### Characters -/

/-- `char.IsControl`. -/
def isControl (c : Char) : Bool := c.toNat < 0x20 || (0x7f ≤ c.toNat && c.toNat ≤ 0x9f)

/-- `char.IsWhiteSpace`. -/
def isWhiteSpace (c : Char) : Bool :=
  let n := c.toNat
  n = 0x20 || (0x09 ≤ n && n ≤ 0x0d) || n = 0x85 || n = 0xa0 || n = 0x1680 ||
    (0x2000 ≤ n && n ≤ 0x200a) || n = 0x2028 || n = 0x2029 || n = 0x202f || n = 0x205f || n = 0x3000

/-- ASCII letters to lower case, every other character unchanged. -/
def lowerAscii (c : Char) : Char :=
  if 'A' ≤ c ∧ c ≤ 'Z' then Char.ofNat (c.toNat + 32) else c

/-! ### Strings -/

/-- `string.TrimEnd(character)`. -/
def trimEnd (p : Char → Bool) (t : Text) : Text := t.rdropWhile p

/-- `string.Trim()`. -/
def trim (t : Text) : Text := trimEnd isWhiteSpace (t.dropWhile isWhiteSpace)

/-- `string.Split(separator)`. -/
def split (separator : Char) (t : Text) : List Text := t.splitOn separator

/-- An invariant decimal number. -/
def decimal (n : ℕ) : Text := Nat.toDigits 10 n

/-! ### Encodings -/

/-- `Encoding.ASCII.GetBytes`: a character outside ASCII becomes a question mark. -/
def asciiBytes (t : Text) : Bytes :=
  t.map fun c => if c.toNat < 0x80 then UInt8.ofNat c.toNat else 0x3f

/-- `Encoding.ASCII.GetString`. -/
def asciiString (bs : Bytes) : Text :=
  bs.map fun b => if b < 0x80 then Char.ofNat b.toNat else '?'

/-- `Encoding.UTF8.GetBytes`. -/
def utf8Bytes (t : Text) : Bytes := t.flatMap String.utf8EncodeChar

/-- `Convert.ToBase64String`. -/
def toBase64String (bs : Bytes) : Text := Base64.encode bs

/-- `Convert.FromBase64String`; `none` is its `FormatException`. -/
def fromBase64String (t : Text) : Option Bytes := Base64.decode t

/-- One hexadecimal digit, upper case. -/
def hexDigit (n : ℕ) : Char := if n < 10 then Char.ofNat (n + 48) else Char.ofNat (n + 55)

/-- `BitConverter.ToString(bytes).Replace("-", "")`. -/
def hex (bs : Bytes) : Text := bs.flatMap fun b => [hexDigit (b.toNat / 16), hexDigit (b.toNat % 16)]

/-! ### Pieces of a split -/

/-- No piece of a split contains the separator. -/
theorem notMem_of_mem_split {separator : Char} {t piece : Text} (h : piece ∈ split separator t) :
    separator ∉ piece := by
  unfold split at h
  induction t generalizing piece with
  | nil =>
    obtain rfl : piece = [] := by simpa [List.splitOn_nil] using h
    simp
  | cons c t ih =>
    rw [List.splitOn_cons_eq_if_modifyHead] at h
    split_ifs at h with hc
    · rcases List.mem_cons.mp h with rfl | h
      · simp
      · exact ih h
    · obtain ⟨first, rest, hrest⟩ := List.exists_cons_of_ne_nil (List.splitOn_ne_nil separator t)
      rw [hrest, List.modifyHead_cons] at h
      rcases List.mem_cons.mp h with rfl | h
      · have hfirst := ih (hrest ▸ List.mem_cons_self)
        simp only [List.mem_cons, not_or]
        exact ⟨fun he => hc (by simp [he]), hfirst⟩
      · exact ih (hrest ▸ List.mem_cons_of_mem _ h)

/-! ### A platform to run the model on -/

/-- ASCII letters to upper case, every other character unchanged. -/
def upperAscii (c : Char) : Char :=
  if 'a' ≤ c ∧ c ≤ 'z' then Char.ofNat (c.toNat - 32) else c

/-- The platform that knows the listed digests, each of 32 bytes.  It maps all other data to longer
texts, so that it has no collisions beyond those of the list. -/
def Platform.ofDigests (digests : List (Bytes × Bytes)) (macs : List ((Bytes × Bytes) × Bytes)) :
    Platform where
  sha256 data := (digests.lookup data).getD (List.replicate 33 0 ++ data)
  hmacSha1 key data := (macs.lookup (key, data)).getD []
  toUpperInvariant t := t.map upperAscii

/-! ### ASCII text -/

/-- Every character is ASCII. -/
def IsAscii (t : Text) : Prop := ∀ c ∈ t, c.toNat < 0x80

theorem toNat_charOfNat {n : ℕ} (h : n < 0x80) : (Char.ofNat n).toNat = n := by
  unfold Char.ofNat
  rw [dif_pos (Or.inl (by omega))]
  rfl

theorem toNat_ofNat_ascii {c : Char} (h : c.toNat < 0x80) :
    (UInt8.ofNat c.toNat).toNat = c.toNat := by
  rw [UInt8.toNat_ofNat', Nat.mod_eq_of_lt (by omega)]

theorem utf8Bytes_ascii {t : Text} (h : IsAscii t) :
    utf8Bytes t = t.map fun c => UInt8.ofNat c.toNat := by
  induction t with
  | nil => rfl
  | cons c t ih =>
    have hc : c.toNat ≤ 0x7f := by have := h c (by simp); omega
    have hchar : String.utf8EncodeChar c = [UInt8.ofNat c.toNat] := by
      unfold String.utf8EncodeChar
      have : c.val.toNat ≤ 127 := hc
      simp only [this, if_true]
      rfl
    have ih := ih fun d hd => h d (by simp [hd])
    unfold utf8Bytes at ih ⊢
    rw [List.flatMap_cons, hchar, ih]
    rfl

/-- The bytes of an ASCII text, read back, are the text. -/
theorem asciiString_utf8Bytes {t : Text} (h : IsAscii t) : asciiString (utf8Bytes t) = t := by
  rw [utf8Bytes_ascii h]
  unfold asciiString
  rw [List.map_map]
  refine (List.map_congr_left fun c hc => ?_).trans (List.map_id t)
  have hlt := h c hc
  have hn := toNat_ofNat_ascii hlt
  have hb : UInt8.ofNat c.toNat < 0x80 := by
    rw [UInt8.lt_iff_toNat_lt, hn]
    exact hlt
  simp only [Function.comp, if_pos hb, hn, Char.ofNat_toNat, id]

theorem length_utf8Bytes_ascii {t : Text} (h : IsAscii t) : (utf8Bytes t).length = t.length := by
  rw [utf8Bytes_ascii h, List.length_map]

theorem mem_utf8Bytes_ascii {t : Text} (h : IsAscii t) {b : UInt8} (hb : b ∈ utf8Bytes t) :
    ∃ c ∈ t, b.toNat = c.toNat := by
  rw [utf8Bytes_ascii h] at hb
  obtain ⟨c, hc, rfl⟩ := List.mem_map.mp hb
  exact ⟨c, hc, toNat_ofNat_ascii (h c hc)⟩

theorem utf8Bytes_append (s t : Text) : utf8Bytes (s ++ t) = utf8Bytes s ++ utf8Bytes t :=
  List.flatMap_append

/-- Equal ASCII bytes come from equal texts, when one of them is ASCII and has no question mark. -/
theorem eq_of_asciiBytes_eq {s t : Text} (hs : IsAscii s) (hq : '?' ∉ s)
    (h : asciiBytes s = asciiBytes t) : s = t := by
  induction s generalizing t with
  | nil => simpa [asciiBytes] using h
  | cons c s ih =>
    rcases t with _ | ⟨d, t⟩
    · cases h
    have hc := hs c (by simp)
    simp only [asciiBytes, List.map_cons, List.cons.injEq, if_pos hc] at h
    obtain ⟨hhead, htail⟩ := h
    have hrest : s = t := ih (fun e he => hs e (by simp [he])) (fun he => hq (by simp [he])) htail
    have hcd : c = d := by
      by_cases hd : d.toNat < 0x80
      · rw [if_pos hd] at hhead
        have := congrArg UInt8.toNat hhead
        rw [toNat_ofNat_ascii hc, toNat_ofNat_ascii hd] at this
        exact Char.toNat_inj.mp this
      · rw [if_neg hd] at hhead
        have := congrArg UInt8.toNat hhead
        rw [toNat_ofNat_ascii hc] at this
        have h63 : c = '?' := Char.toNat_inj.mp this
        exact absurd (h63 ▸ List.mem_cons_self) hq
    rw [hcd, hrest]

/-! ### Encodings lose nothing -/

theorem utf8Bytes_inj {s t : Text} (h : utf8Bytes s = utf8Bytes t) : s = t := by
  have hencode : (String.ofList s).toByteArray = (String.ofList t).toByteArray := by
    rw [String.toByteArray_ofList, String.toByteArray_ofList]
    exact congrArg List.toByteArray h
  exact String.ofList_inj.mp (String.toByteArray_inj.mp hencode)

theorem hexDigit_inj {m n : ℕ} (hm : m < 16) (hn : n < 16) (h : hexDigit m = hexDigit n) :
    m = n := by
  have hnat : ∀ k < 16, (hexDigit k).toNat = if k < 10 then k + 48 else k + 55 := by decide
  have := congrArg Char.toNat h
  rw [hnat m hm, hnat n hn] at this
  split_ifs at this <;> omega

theorem hex_inj {a b : Bytes} (h : hex a = hex b) : a = b := by
  induction a generalizing b with
  | nil =>
    cases b with
    | nil => rfl
    | cons y b => cases h
  | cons x a ih =>
    cases b with
    | nil => cases h
    | cons y b =>
      simp only [hex, List.flatMap_cons, List.cons_append, List.nil_append, List.cons.injEq] at h
      obtain ⟨hhigh, hlow, hrest⟩ := h
      have hx := x.toNat_lt
      have hy := y.toNat_lt
      have hhigh := hexDigit_inj (by omega) (by omega) hhigh
      have hlow := hexDigit_inj (by omega) (by omega) hlow
      rw [ih hrest, UInt8.toNat_inj.mp (show x.toNat = y.toNat by omega)]

theorem decimal_inj {m n : ℕ} (h : decimal m = decimal n) : m = n := by
  have := congrArg (fun digits => Nat.ofDigitChars 10 digits 0) h
  simpa only [decimal, Nat.ofDigitChars_ten_toDigits] using this

theorem newline_notMem_decimal (n : ℕ) : '\n' ∉ decimal n := by
  intro h
  exact absurd (Nat.isDigit_of_mem_toDigits (by decide) (by decide) h) (by decide)

theorem newline_notMem_hex (bytes : Bytes) : '\n' ∉ hex bytes := by
  have hdigit : ∀ k < 16, hexDigit k ≠ '\n' := by decide
  intro h
  obtain ⟨b, -, hb⟩ := List.mem_flatMap.mp h
  have hlt := b.toNat_lt
  rcases List.mem_pair.mp hb with hb | hb
  · exact hdigit _ (by omega) hb.symm
  · exact hdigit _ (by omega) hb.symm

theorem hex_ne_nil {bytes : Bytes} (h : bytes ≠ []) : hex bytes ≠ [] := by
  cases bytes with
  | nil => exact absurd rfl h
  | cons b bytes => simp [hex]

/-- SHA-256 without collisions, and with a digest for everything. -/
structure Platform.CollisionFree (P : Platform) : Prop where
  injective : Function.Injective P.sha256
  nonempty : ∀ data, P.sha256 data ≠ []

theorem mem_of_lookup {α β : Type*} [BEq α] [LawfulBEq α] {a : α} {b : β} {l : List (α × β)}
    (h : l.lookup a = some b) : (a, b) ∈ l := by
  obtain ⟨l₁, l₂, rfl, -⟩ := List.lookup_eq_some_iff.mp h
  simp

/-- A list of distinct digests of 32 bytes makes no collisions. -/
theorem Platform.ofDigests_collisionFree {digests : List (Bytes × Bytes)}
    {macs : List ((Bytes × Bytes) × Bytes)} (hlength : ∀ p ∈ digests, p.2.length = 32)
    (hdistinct : ∀ p ∈ digests, ∀ q ∈ digests, p.2 = q.2 → p.1 = q.1) :
    (Platform.ofDigests digests macs).CollisionFree := by
  have hlisted : ∀ {data digest}, digests.lookup data = some digest →
      (Platform.ofDigests digests macs).sha256 data = digest := by
    intro data digest h
    simp [Platform.ofDigests, h]
  have hother : ∀ {data}, digests.lookup data = none →
      (Platform.ofDigests digests macs).sha256 data = List.replicate 33 0 ++ data := by
    intro data h
    simp [Platform.ofDigests, h]
  have hlong : ∀ {data digest other}, digests.lookup data = some digest →
      digest ≠ List.replicate 33 0 ++ other := by
    rintro data digest other h rfl
    simpa using hlength _ (mem_of_lookup h)
  constructor
  · intro data data' h
    cases hd : digests.lookup data with
    | none =>
      cases hd' : digests.lookup data' with
      | none =>
        rw [hother hd, hother hd'] at h
        exact List.append_cancel_left h
      | some digest' =>
        rw [hother hd, hlisted hd'] at h
        exact absurd h.symm (hlong hd')
    | some digest =>
      cases hd' : digests.lookup data' with
      | none =>
        rw [hlisted hd, hother hd'] at h
        exact absurd h (hlong hd)
      | some digest' =>
        rw [hlisted hd, hlisted hd'] at h
        exact hdistinct _ (mem_of_lookup hd) _ (mem_of_lookup hd') h
  · intro data h
    cases hd : digests.lookup data with
    | none =>
      rw [hother hd] at h
      simp at h
    | some digest =>
      rw [hlisted hd] at h
      simpa [h] using hlength _ (mem_of_lookup hd)

end VT7.Dotnet
