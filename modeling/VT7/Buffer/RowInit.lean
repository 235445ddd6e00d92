import VT7.Buffer.Row
import VT7.Lib.Lanes

/-!
# The vectorised initialisation of a row

`ROW::_init` fills `_charsBuffer` with spaces and `_charOffsets` with successive numbers, 16 or 8 elements at a time.
The stores go over the end of the row; the sizes of the two buffers leave room for that, and for no more.

The buffers are lists of 16-bit elements with any content; pointers are indices.  A store outside a buffer has no
result.
-/

namespace VT7.Buffer

open VT7.Lib

/-- `CalculateCharsBufferSize`, in bytes. -/
def calculateCharsBufferSize (columns : ℕ) : ℕ := Nat.ldiff (columns * 2 + 16) 15

/-- `CalculateCharOffsetsBufferSize`. -/
def calculateCharOffsetsBufferSize (columns : ℕ) : ℕ := Nat.ldiff (columns * 2 + 16) 15

namespace RowInit

/-- `_charsBuffer` and `_charOffsets`. -/
structure Buffers where
  chars : List UInt16
  charOffsets : List UInt16

/-- `whitespaceData`. -/
def whitespace (n : ℕ) : Lanes n := Lanes.set1 space

/-- `offsetsData`. -/
def offsetsData (n : ℕ) : Lanes n := fun i => UInt16.ofNat i

/-- A store of spaces and one of offsets, at the same index. -/
def storeBoth {n : ℕ} (b : Buffers) (i : ℕ) (offsets : Lanes n) : Option Buffers := do
  let chars ← Lanes.store b.chars i (whitespace n)
  let charOffsets ← Lanes.store b.charOffsets i offsets
  return ⟨chars, charOffsets⟩

/-- The main loop of the AVX2 branch, up to the index of the last store. -/
def avx2Loop (endLoop : ℕ) (b : Buffers) (i : ℕ) (offsetsLoop : Lanes 16) : Option Buffers := do
  let b ← storeBoth b i offsetsLoop
  if i + 16 < endLoop then avx2Loop endLoop b (i + 16) (offsetsLoop.add (Lanes.set1 16))
  else return b
termination_by endLoop - i

/-- The AVX2 branch. -/
def initAvx2 (columnCount : ℕ) (b : Buffers) : Option Buffers := do
  let tailColumnOffset := Nat.ldiff (columnCount - 8) 7
  let offsets := (offsetsData 16).add (Lanes.set1 (UInt16.ofNat tailColumnOffset))
  let b ← (if 0 < tailColumnOffset then avx2Loop tailColumnOffset b 0 (offsetsData 16) else some b : Option Buffers)
  storeBoth b tailColumnOffset offsets

/-- The loop of the SSE2 branch. -/
def sse2Loop (columnCount : ℕ) (b : Buffers) (i : ℕ) (offsets : Lanes 8) : Option Buffers := do
  let b ← storeBoth b i offsets
  if i + 8 ≤ columnCount then sse2Loop columnCount b (i + 8) (offsets.add (Lanes.set1 8))
  else return b
termination_by columnCount + 1 - i

/-- The SSE2 branch. -/
def initSse2 (columnCount : ℕ) (b : Buffers) : Option Buffers := sse2Loop columnCount b 0 (offsetsData 8)

/-- `_init`; `avx2` says that the processor has these instructions. -/
def init (avx2 : Bool) (columnCount : ℕ) (b : Buffers) : Option Buffers :=
  if avx2 ∧ 15 ≤ columnCount then initAvx2 columnCount b else initSse2 columnCount b

/-! ### Stores -/

/-- The first `k` elements of both buffers, which have `size` elements, are what they should be. -/
structure Initialised (size k : ℕ) (b : Buffers) : Prop where
  charsLength : b.chars.length = size
  charOffsetsLength : b.charOffsets.length = size
  chars : Lanes.Holds (fun _ => space) b.chars k
  charOffsets : Lanes.Holds UInt16.ofNat b.charOffsets k

/-- The lanes from index `i` on. -/
def OffsetsAt {n : ℕ} (i : ℕ) (offsets : Lanes n) : Prop := ∀ j : Fin n, offsets j = UInt16.ofNat (i + j)

lemma offsetsData_at (n : ℕ) : OffsetsAt 0 (offsetsData n) := by
  intro j
  rw [Nat.zero_add]
  rfl

lemma OffsetsAt.add {n i : ℕ} {offsets : Lanes n} (h : OffsetsAt i offsets) (k : ℕ) :
    OffsetsAt (i + k) (offsets.add (Lanes.set1 (UInt16.ofNat k))) := by
  intro j
  unfold Lanes.add Lanes.set1
  rw [h j, ← UInt16.ofNat_add]
  congr 1
  omega

variable {size k n i : ℕ} {b : Buffers}

/-- Where a store begins in what is written, or at its end, and ends in the buffers, it goes on with it. -/
lemma storeBoth_spec (h : Initialised size k b) (hi : i ≤ k) (hfits : i + n ≤ size) {offsets : Lanes n}
    (hoffsets : OffsetsAt i offsets) : ∃ b', storeBoth b i offsets = some b' ∧ Initialised size (i + n) b' := by
  obtain ⟨chars, hchars, hlength, hspaces⟩ := h.chars.store (whitespace n) hi
    (by rw [h.charsLength]; exact hfits) fun _ => rfl
  obtain ⟨charOffsets, hstored, hlength', hnumbers⟩ := h.charOffsets.store offsets hi
    (by rw [h.charOffsetsLength]; exact hfits) hoffsets
  refine ⟨⟨chars, charOffsets⟩, ?_, ⟨hlength.trans h.charsLength, hlength'.trans h.charOffsetsLength, hspaces,
    hnumbers⟩⟩
  unfold storeBoth
  rw [hchars, hstored]
  rfl

/-- The main loop writes everything before the last store, and stays 8 elements below its end. -/
lemma avx2Loop_spec {endLoop : ℕ} (hsize : endLoop + 16 ≤ size) (haligned : endLoop % 8 = 0) (hstart : i % 16 = 0)
    (hi : i < endLoop) (h : Initialised size i b) {offsets : Lanes 16} (hoffsets : OffsetsAt i offsets) :
    ∃ b' k, avx2Loop endLoop b i offsets = some b' ∧ endLoop ≤ k ∧ Initialised size k b' := by
  induction hn : endLoop - i using Nat.strong_induction_on generalizing i b offsets with
  | h n ih =>
    obtain ⟨b', hb', hwritten⟩ := storeBoth_spec h le_rfl (show i + 16 ≤ size by omega) hoffsets
    unfold avx2Loop
    rw [hb', Option.bind_eq_bind, Option.bind_some]
    by_cases hmore : i + 16 < endLoop
    · rw [if_pos hmore]
      exact ih _ (by omega) (by omega) hmore hwritten (hoffsets.add 16) rfl
    · rw [if_neg hmore]
      exact ⟨b', i + 16, rfl, by omega, hwritten⟩

/-- The AVX2 branch fills the buffers up to their end. -/
theorem initAvx2_spec {columnCount : ℕ} (hcount : 15 ≤ columnCount) (hsize : size = columnCount / 8 * 8 + 8)
    (hb : Initialised size 0 b) : ∃ b', initAvx2 columnCount b = some b' ∧ Initialised size size b' := by
  have htail : Nat.ldiff (columnCount - 8) 7 = columnCount / 8 * 8 - 8 := by
    rw [show (7 : ℕ) = 2 ^ 3 - 1 from rfl, ldiff_two_pow_sub_one]
    omega
  unfold initAvx2
  rw [htail]
  have hoffsets := (offsetsData_at 16).add (columnCount / 8 * 8 - 8)
  rw [Nat.zero_add] at hoffsets
  have hlast {b' : Buffers} {k : ℕ} (hk : columnCount / 8 * 8 - 8 ≤ k) (h : Initialised size k b') :
      ∃ b'', storeBoth b' (columnCount / 8 * 8 - 8)
        ((offsetsData 16).add (Lanes.set1 (UInt16.ofNat (columnCount / 8 * 8 - 8)))) = some b'' ∧
          Initialised size size b'' := by
    obtain ⟨b'', hb'', hwritten⟩ := storeBoth_spec h hk (by omega) hoffsets
    rw [show columnCount / 8 * 8 - 8 + 16 = size by omega] at hwritten
    exact ⟨b'', hb'', hwritten⟩
  by_cases hloop : 0 < columnCount / 8 * 8 - 8
  · obtain ⟨b', k, hb', hk, hwritten⟩ :=
      avx2Loop_spec (by omega) (by omega) rfl hloop hb (offsetsData_at 16)
    simp only [if_pos hloop, hb', Option.bind_eq_bind, Option.bind_some]
    exact hlast hk hwritten
  · simp only [if_neg hloop, Option.bind_eq_bind, Option.bind_some]
    exact hlast (by omega) hb

/-- The SSE2 loop fills the buffers up to their end. -/
lemma sse2Loop_spec {columnCount : ℕ} (hsize : size = columnCount / 8 * 8 + 8) (hstart : i % 8 = 0)
    (hi : i ≤ columnCount) (h : Initialised size i b) {offsets : Lanes 8} (hoffsets : OffsetsAt i offsets) :
    ∃ b', sse2Loop columnCount b i offsets = some b' ∧ Initialised size size b' := by
  induction hn : columnCount - i using Nat.strong_induction_on generalizing i b offsets with
  | h n ih =>
    obtain ⟨b', hb', hwritten⟩ := storeBoth_spec h le_rfl (show i + 8 ≤ size by omega) hoffsets
    unfold sse2Loop
    rw [hb', Option.bind_eq_bind, Option.bind_some]
    by_cases hmore : i + 8 ≤ columnCount
    · rw [if_pos hmore]
      exact ih _ (by omega) (by omega) hmore hwritten (hoffsets.add 8) rfl
    · rw [if_neg hmore]
      rw [show i + 8 = size by omega] at hwritten
      exact ⟨b', rfl, hwritten⟩

lemma bufferSize_eq (columnCount : ℕ) : calculateCharsBufferSize columnCount = 2 * (columnCount / 8 * 8 + 8) := by
  unfold calculateCharsBufferSize
  rw [show (15 : ℕ) = 2 ^ 4 - 1 from rfl, ldiff_two_pow_sub_one]
  omega

/-- **`_init`** for every width, with and without AVX2: all stores are inside the buffers, every character of the row is
a space, and every offset is its column. -/
theorem init_spec (avx2 : Bool) (columnCount : ℕ) (hmost : columnCount ≤ 65535) (b : Buffers)
    (hchars : 2 * b.chars.length = calculateCharsBufferSize columnCount)
    (hoffsets : 2 * b.charOffsets.length = calculateCharOffsetsBufferSize columnCount) :
    ∃ b', init avx2 columnCount b = some b' ∧
      b'.chars.length = b.chars.length ∧ b'.charOffsets.length = b.charOffsets.length ∧
      (∀ i < columnCount, b'.chars.getD i 0 = space) ∧
      ∀ i ≤ columnCount, (b'.charOffsets.getD i 0).toNat = i := by
  have hsize := bufferSize_eq columnCount
  have hstart : Initialised (columnCount / 8 * 8 + 8) 0 b :=
    ⟨by omega, by unfold calculateCharOffsetsBufferSize at hoffsets; unfold calculateCharsBufferSize at hsize; omega,
      fun i hi => absurd hi (Nat.not_lt_zero i), fun i hi => absurd hi (Nat.not_lt_zero i)⟩
  have hfilled : ∃ b', init avx2 columnCount b = some b' ∧
      Initialised (columnCount / 8 * 8 + 8) (columnCount / 8 * 8 + 8) b' := by
    unfold init
    by_cases hbranch : avx2 = true ∧ 15 ≤ columnCount
    · rw [if_pos hbranch]
      exact initAvx2_spec hbranch.2 rfl hstart
    · rw [if_neg hbranch]
      exact sse2Loop_spec rfl rfl (Nat.zero_le _) hstart (offsetsData_at 8)
  obtain ⟨b', hb', hwritten⟩ := hfilled
  refine ⟨b', hb', hwritten.charsLength.trans hstart.charsLength.symm,
    hwritten.charOffsetsLength.trans hstart.charOffsetsLength.symm, fun i hi => ?_, fun i hi => ?_⟩
  · exact hwritten.chars i (by omega)
  · rw [hwritten.charOffsets i (by omega), UInt16.toNat_ofNat']
    exact Nat.mod_eq_of_lt (by omega)

/-- Two of the AVX2 stores overlap here. -/
theorem init_spec_overlap : ∃ b', init true 23 ⟨List.replicate 24 0xffff, List.replicate 24 0xffff⟩ = some b' ∧
    b'.chars.length = 24 ∧ b'.charOffsets.length = 24 ∧ (∀ i < 23, b'.chars.getD i 0 = space) ∧
      ∀ i ≤ 23, (b'.charOffsets.getD i 0).toNat = i :=
  init_spec true 23 (by decide) ⟨List.replicate 24 0xffff, List.replicate 24 0xffff⟩ (bufferSize_eq 23).symm
    (bufferSize_eq 23).symm

/-- What the stores leave is the row as its constructor and `Reset` have it. -/
theorem initialised_create {α : Type} {columnCount size : ℕ} (hsize : columnCount < size) {b : Buffers}
    (h : Initialised size size b) (attr : α) :
    b.chars.take columnCount = (Row.create columnCount attr).chars ∧
      (b.charOffsets.take (columnCount + 1)).map UInt16.toNat = (Row.create columnCount attr).charOffsets := by
  have hchars := h.charsLength
  have hoffsets := h.charOffsetsLength
  constructor
  · refine List.ext_getElem ?_ fun i hi hi' => ?_
    · show _ = (List.replicate columnCount space).length
      rw [List.length_take_of_le (by omega), List.length_replicate]
    · have hlt : i < columnCount := by rwa [List.length_take_of_le (by omega)] at hi
      have hspace := h.chars i (by omega)
      rw [List.getD_eq_getElem _ _ (by omega)] at hspace
      rw [List.getElem_take, hspace]
      exact (List.getElem_replicate _).symm
  · refine List.ext_getElem ?_ fun i hi hi' => ?_
    · show _ = (iota (columnCount + 1) 0).length
      unfold iota
      rw [List.length_map, List.length_take_of_le (by omega), List.length_map, List.length_range]
    · have hlt : i < columnCount + 1 := by
        rwa [List.length_map, List.length_take_of_le (by omega)] at hi
      have hnumber := h.charOffsets i (by omega)
      rw [List.getD_eq_getElem _ _ (by omega)] at hnumber
      have hiota : ∀ hi : i < (iota (columnCount + 1) 0).length, (iota (columnCount + 1) 0)[i] = i % 2 ^ 16 := by
        intro hi
        simp only [iota, List.getElem_map, List.getElem_range, Nat.zero_add]
        rfl
      rw [List.getElem_map, List.getElem_take, hnumber, UInt16.toNat_ofNat']
      exact (hiota hi').symm

end RowInit

end VT7.Buffer
