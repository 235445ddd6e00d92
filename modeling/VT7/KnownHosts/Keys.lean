import Mathlib.Data.Nat.Bitwise
import VT7.Dotnet.Text

/-!
# Host keys

Key blobs, the key that a server presents and the facts of a host certificate
(`OpenSshKnownHosts.cs`: `OpenSshKeyBlob`, `PresentedHostKey`, `KnownHostCertificateFacts`), and the
comparison in constant time that every user of key material shares.

A thrown `FormatException` is `Except.error` with the exception's message.
-/

namespace VT7.KnownHosts

open VT7.Dotnet

/-! ### Constant-time comparison -/

/-- `FixedEquals`: the or of all differences, over the longer of the two arrays. -/
def fixedEquals (first second : Bytes) : Bool :=
  let maximum := max first.length second.length
  let difference := (List.range maximum).foldl
    (fun difference index =>
      difference ||| ((first.getD index 0).toNat ^^^ (second.getD index 0).toNat))
    (first.length ^^^ second.length)
  difference == 0

theorem foldl_or_eq_zero {α : Type*} (f : α → ℕ) (l : List α) (d : ℕ) :
    l.foldl (fun d i => d ||| f i) d = 0 ↔ d = 0 ∧ ∀ i ∈ l, f i = 0 := by
  induction l generalizing d with
  | nil => simp
  | cons i l ih =>
    rw [List.foldl_cons, ih, Nat.or_eq_zero_iff]
    simp [and_assoc]

theorem fixedEquals_iff (first second : Bytes) :
    fixedEquals first second = true ↔ first = second := by
  unfold fixedEquals
  simp only [beq_iff_eq, foldl_or_eq_zero, Nat.xor_eq_zero_iff, List.mem_range, UInt8.toNat_inj]
  constructor
  · rintro ⟨hlen, h⟩
    refine List.ext_getElem hlen fun i h1 h2 => ?_
    have := h i (by omega)
    simpa [List.getD_eq_getElem?_getD, h1, h2] using this
  · rintro rfl
    simp

/-! ### Key blobs -/

/-- `OpenSshKeyBlob.MaximumDecodedBytes`. -/
def maximumDecodedBytes : ℕ := 64 * 1024

/-- A byte that a token or a key type may contain. -/
def isTokenByte (value : UInt8) : Bool := 0x21 ≤ value.toNat && value.toNat ≤ 0x7e

def readUInt32 (bytes : Bytes) (offset : ℕ) : ℕ :=
  (bytes.getD offset 0).toNat * 2 ^ 24 + (bytes.getD (offset + 1) 0).toNat * 2 ^ 16 +
    (bytes.getD (offset + 2) 0).toNat * 2 ^ 8 + (bytes.getD (offset + 3) 0).toNat

/-- `OpenSshKeyBlob.ReadKeyType`. -/
def readKeyType (blob : Bytes) : Except String Text :=
  if blob.length < 5 ∨ maximumDecodedBytes < blob.length then .error "host-key-blob-length"
  else
    let length := readUInt32 blob 0
    if length = 0 ∨ 256 < length ∨ blob.length - 4 < length then .error "host-key-type-length"
    else
      let name := (blob.drop 4).take length
      if name.all isTokenByte then .ok (asciiString name) else .error "host-key-type-character"

/-- Printable ASCII, no blank: the characters of a token. -/
def IsToken (t : Text) : Prop := ∀ c ∈ t, 0x21 ≤ c.toNat ∧ c.toNat ≤ 0x7e

theorem IsToken.isAscii {t : Text} (h : IsToken t) : IsAscii t := by
  intro c hc
  have := (h c hc).2
  omega

theorem isToken_asciiString {bytes : Bytes} (h : bytes.all isTokenByte = true) :
    IsToken (asciiString bytes) := by
  intro c hc
  obtain ⟨b, hb, rfl⟩ := List.mem_map.mp hc
  have hb := List.all_eq_true.mp h b hb
  simp only [isTokenByte, Bool.and_eq_true, decide_eq_true_eq] at hb
  have hlt : b < 0x80 := by
    rw [UInt8.lt_iff_toNat_lt]
    exact Nat.lt_succ_of_le (le_trans hb.2 (by decide))
  rw [if_pos hlt, toNat_charOfNat (by omega)]
  exact hb

/-- **What a readable key type is**: a token of 1 to 256 characters, from a blob within bounds. -/
theorem readKeyType_ok {blob : Bytes} {keyType : Text} (h : readKeyType blob = .ok keyType) :
    5 ≤ blob.length ∧ blob.length ≤ maximumDecodedBytes ∧ keyType ≠ [] ∧ keyType.length ≤ 256 ∧
      IsToken keyType := by
  unfold readKeyType at h
  simp only at h
  split_ifs at h with hlen htype hchar
  obtain rfl : asciiString ((blob.drop 4).take (readUInt32 blob 0)) = keyType := by simpa using h
  have hl : (asciiString ((blob.drop 4).take (readUInt32 blob 0))).length = readUInt32 blob 0 := by
    simp only [asciiString, List.length_map, List.length_take, List.length_drop]
    omega
  refine ⟨by omega, by omega, ?_, by omega, isToken_asciiString hchar⟩
  rw [← List.length_pos_iff]
  omega

/-! ### Presented keys -/

/-- The ending of a certificate's key type. -/
def certificateSuffix : Text := "-cert-v01@openssh.com".toList

/-- The OpenSSH text of a key blob's SHA-256 fingerprint. -/
def fingerprintOf (P : Platform) (blob : Bytes) : Text :=
  "SHA256:".toList ++ trimEnd (· == '=') (toBase64String (P.sha256 blob))

/-- `PresentedHostKey`: the constructor is private, so that a value is always one that `Parse`
returned. -/
structure PresentedHostKey (P : Platform) where
  keyType : Text
  blob : Bytes
  fingerprint : Text
  keyType_eq : readKeyType blob = .ok keyType
  fingerprint_eq : fingerprint = fingerprintOf P blob

namespace PresentedHostKey

variable {P : Platform}

/-- `PresentedHostKey.IsCertificate`. -/
def isCertificate (key : PresentedHostKey P) : Bool := certificateSuffix.isSuffixOf key.keyType

/-- `PresentedHostKey.Parse`. -/
def parse (P : Platform) (blob : Bytes) : Except String (PresentedHostKey P) :=
  match h : readKeyType blob with
  | .ok keyType => .ok ⟨keyType, blob, fingerprintOf P blob, h, rfl⟩
  | .error message => .error message

theorem blob_of_parse {blob : Bytes} {key : PresentedHostKey P} (h : parse P blob = .ok key) :
    key.blob = blob := by
  unfold parse at h
  split at h
  · cases h
    rfl
  · cases h

/-- The blob determines the whole key. -/
theorem ext_blob {k k' : PresentedHostKey P} (h : k.blob = k'.blob) : k = k' := by
  obtain ⟨keyType, blob, fingerprint, hk, hf⟩ := k
  obtain ⟨keyType', blob', fingerprint', hk', hf'⟩ := k'
  obtain rfl : blob = blob' := h
  obtain rfl : keyType = keyType' := by simpa [hk] using hk'
  subst hf hf'
  rfl

end PresentedHostKey

/-! ### Certificates -/

/-- `KnownHostCertificateFacts`. -/
structure KnownHostCertificateFacts where
  certificateType : Text
  certificateBlob : Bytes
  authorityBlob : Bytes
  isHost : Bool
  principals : List Text
  hasCriticalOptions : Bool
  validAfter : ℕ
  validBefore : ℕ

end VT7.KnownHosts
