import Mathlib.Tactic.SplitIfs
import VT7.Adapter.FontBuffer

/-!
# Uploads of soft fonts

Sixel data describes an image of any size (`drawn`).  After any uploads, a character that was sent since the buffer was
cleared shows its image, clipped to the text width and the cell height and moved by the text offset; it makes no
difference whether it was packed at the end of the upload or drawn in the packed form (`softFonts_drawn`).
-/

namespace VT7.Adapter

open FontBuffer

/-! ### Images -/

/-- Where sixel data leaves the line and the column. -/
def sixelCursor : List UInt16 → ℕ → ℕ → ℕ × ℕ
  | [], line, column => (line, column)
  | ch :: rest, line, column =>
    if isSixel ch then sixelCursor rest line (column + 1)
    else if ch = lineEnd then sixelCursor rest (line + 1) 0
    else sixelCursor rest line column

/-- The pixels of sixel data that begins at a line of sixels and a column. -/
def drawn : List UInt16 → (line column : ℕ) → (row x : ℕ) → Bool
  | [], _, _, _, _ => false
  | ch :: rest, line, column, row, x =>
    if isSixel ch then
      (x == column && decide (6 * line ≤ row) && decide (row < 6 * line + 6) &&
        (ch - 0x3f).toNat.testBit (row - 6 * line)) || drawn rest line (column + 1) row x
    else if ch = lineEnd then drawn rest (line + 1) 0 row x
    else drawn rest line column row x

lemma sixelCursor_append (data data' : List UInt16) (line column : ℕ) :
    sixelCursor (data ++ data') line column =
      sixelCursor data' (sixelCursor data line column).1 (sixelCursor data line column).2 := by
  induction data generalizing line column with
  | nil => rfl
  | cons ch rest ih =>
    rw [List.cons_append]
    simp only [sixelCursor]
    split_ifs
    · exact ih _ _
    · exact ih _ _
    · exact ih _ _

lemma drawn_append (data data' : List UInt16) (line column row x : ℕ) :
    drawn (data ++ data') line column row x = (drawn data line column row x ||
      drawn data' (sixelCursor data line column).1 (sixelCursor data line column).2 row x) := by
  induction data generalizing line column with
  | nil => rfl
  | cons ch rest ih =>
    rw [List.cons_append]
    simp only [sixelCursor, drawn]
    split_ifs
    · rw [ih, Bool.or_assoc]
    · exact ih _ _
    · exact ih _ _

/-! ### Uploads -/

/-- The parameters of DECDLD, and the data of the upload. -/
structure Download where
  fontNumber : ℕ
  startChar : Option ℕ
  eraseControl : ℕ
  cellMatrix : ℕ
  fontSet : ℕ
  fontUsage : ℕ
  cellHeight : Option ℕ
  charsetSize : ℕ
  data : List UInt16

/-- The buffer, with the data that was sent for the characters since it was cleared. -/
structure FontSession where
  font : FontBuffer
  sent : ℕ → Option (List UInt16)

namespace FontSession

variable (s : FontSession)

/-- What is sent after a character of the data. -/
def sentAfter (font : FontBuffer) (ch : UInt16) : ℕ → Option (List UInt16) :=
  if !s.font.charsetIdInitialized then
    if font.charsetIdInitialized then
      Function.update (if font.bufferCleared then fun _ => none else s.sent) font.currentChar (some [])
    else s.sent
  else if ch = characterEnd then Function.update s.sent font.currentChar (some [])
  else Function.update s.sent s.font.currentChar ((s.sent s.font.currentChar).map (· ++ [ch]))

def addSixelData (ch : UInt16) : Option FontSession :=
  (s.font.addSixelData ch).map fun font => ⟨font, s.sentAfter font ch⟩

/-- The data of an upload, up to a character that throws; the second result says that none did. -/
def addAll : FontSession → List UInt16 → FontSession × Bool
  | s, [] => (s, true)
  | s, ch :: rest =>
    match s.addSixelData ch with
    | none => (s, false)
    | some s' => addAll s' rest

/-- The setters that `DownloadDRCS` calls. -/
def setParameters (d : Download) : FontBuffer × Bool :=
  let (font, success) := if d.fontNumber ≤ 1 then s.font.setEraseControl d.eraseControl else (s.font, false)
  let (font, success) :=
    if success then font.setAttributes d.cellMatrix d.cellHeight d.fontSet d.fontUsage else (font, false)
  if success then font.setStartChar d.startChar d.charsetSize else (font, false)

/-- `DownloadDRCS` with its data; the second result says that `FinalizeSixelData` has returned true. -/
def download (d : Download) : FontSession × Bool :=
  let (font, success) := s.setParameters d
  if success then
    let (s, added) := addAll { s with font } d.data
    if added then
      match s.font.finalizeSixelData with
      | none => (s, false)
      | some (font, finalized) => ({ s with font }, finalized)
    else (s, false)
  else ({ s with font }, false)

/-- Uploads one after the other, from a new font buffer. -/
def run (uninitialized : FontBuffer) (downloads : List Download) : FontSession :=
  downloads.foldl (fun s d => (s.download d).1) ⟨.create uninitialized, fun _ => none⟩

end FontSession

/-! ### Lines of characters -/

section Lines

variable {height c c' r : ℕ}

/-- The lines of two characters are apart. -/
lemma line_outside (hne : c' ≠ c) (hr : r < height) :
    c' * height + r < c * height ∨ c * height + height ≤ c' * height + r := by
  rcases Nat.lt_or_gt_of_ne hne with hlt | hgt
  · have hle := Nat.mul_le_mul_right height hlt
    rw [Nat.succ_mul] at hle
    omega
  · have hle := Nat.mul_le_mul_right height hgt
    rw [Nat.succ_mul] at hle
    omega

end Lines

/-- The store is in the lines of its character, which the buffer has. -/
def FontStore.Inside (st : FontStore) : Prop :=
  st.currentChar < maxChars ∧ st.currentChar * st.fullHeight ≤ st.line ∧
    st.line < st.currentChar * st.fullHeight + st.fullHeight

namespace FontBuffer

variable {f : FontBuffer}

/-- What a loop over lines leaves. -/
lemma storeLines_eq (f : FontBuffer) (count : ℕ) (value : ℕ → BitVec 16 → BitVec 16) :
    ∃ stores, f.storeLines count value =
        { f with
          buffer := fun k => if f.currentCharBuffer ≤ k ∧ k < f.currentCharBuffer + count then
            value (k - f.currentCharBuffer) (f.buffer k) else f.buffer k
          stores } ∧
      ∀ st ∈ stores, st ∈ f.stores ∨ st.currentChar = f.currentChar ∧ st.fullHeight = f.fullHeight ∧
        f.currentCharBuffer ≤ st.line ∧ st.line < f.currentCharBuffer + count := by
  induction count with
  | zero =>
    refine ⟨f.stores, ?_, fun st hst => .inl hst⟩
    have hbuffer : (fun k => if f.currentCharBuffer ≤ k ∧ k < f.currentCharBuffer + 0 then
        value (k - f.currentCharBuffer) (f.buffer k) else f.buffer k) = f.buffer := by
      funext k
      exact if_neg (by omega)
    rw [hbuffer]
    rfl
  | succ n ih =>
    obtain ⟨stores, heq, hstores⟩ := ih
    refine ⟨⟨f.currentChar, f.fullHeight, f.currentCharBuffer + n⟩ :: stores, ?_, fun st hst => ?_⟩
    · unfold storeLines at heq ⊢
      rw [List.range_succ, List.foldl_append, heq]
      simp only [List.foldl_cons, List.foldl_nil, store]
      congr 1
      funext k
      unfold Function.update
      dsimp only
      by_cases hk : k = f.currentCharBuffer + n
      · subst hk
        rw [dif_pos rfl, if_neg (by omega), if_pos (by omega), Nat.add_sub_cancel_left]
      · rw [dif_neg hk]
        by_cases hlt : f.currentCharBuffer ≤ k ∧ k < f.currentCharBuffer + n
        · rw [if_pos hlt, if_pos (by omega)]
        · rw [if_neg hlt, if_neg (by omega)]
    · rcases List.mem_cons.mp hst with rfl | hst
      · exact .inr ⟨rfl, rfl, Nat.le_add_right _ _, by dsimp only; omega⟩
      · rcases hstores st hst with hold | ⟨hchar, hheight, hle, hlt⟩
        · exact .inl hold
        · exact .inr ⟨hchar, hheight, hle, by omega⟩

/-! ### Pixels -/

/-- The pixel of a sixel. -/
lemma getMsbD_outputColumnBit {n x : ℕ} (hx : x < maxWidth) : (0x8000#16 >>> n).getMsbD x = decide (x = n) := by
  have hbit : (0x8000#16) = BitVec.twoPow 16 15 := by decide
  unfold maxWidth at hx
  rw [hbit, BitVec.getMsbD_ushiftRight, BitVec.getMsbD_twoPow]
  by_cases heq : x = n
  · subst heq
    simp [hx]
  · by_cases hlt : x < n
    · simp [heq, hlt]
    · have hne : x - n ≠ 0 := by omega
      simp [heq, hne]

/-- The pixels of a packed line. -/
lemma getMsbD_packed (line : BitVec 16) {width offset x : ℕ} (hx : x < maxWidth) :
    ((line &&& ~~~(0xffff#16 >>> width)) >>> offset).getMsbD x =
      (decide (offset ≤ x) && decide (x - offset < width) && line.getMsbD (x - offset)) := by
  have hall : (0xffff#16) = BitVec.allOnes 16 := by decide
  unfold maxWidth at hx
  rw [BitVec.getMsbD_ushiftRight, BitVec.getMsbD_and, BitVec.getMsbD_not, BitVec.getMsbD_ushiftRight]
  by_cases hle : offset ≤ x
  · have hlt : x - offset < 16 := by omega
    by_cases hwidth : x - offset < width
    · simp [hx, hle, hlt, hwidth]
    · have hones : (0xffff#16).getMsbD (x - offset - width) = true := by
        rw [hall, BitVec.getMsbD_allOnes]
        exact decide_eq_true (by omega)
      simp [hx, hle, hlt, hwidth, hones]
  · simp [hle]

/-- The dimensions of the characters fit into the maximum size. -/
structure Dims (f : FontBuffer) : Prop where
  height : f.fullHeight ≤ maxHeight
  width : f.textOffset + f.textWidth ≤ maxWidth

/-- What was sent for a character is in its lines, clipped and moved. -/
def Shows (f : FontBuffer) (sent : ℕ → Option (List UInt16)) : Prop :=
  ∀ c < maxChars, ∀ data, sent c = some data → ∀ row < f.fullHeight, ∀ x < maxWidth,
    (f.buffer (c * f.fullHeight + row)).getMsbD x =
      (decide (f.textOffset ≤ x) && decide (x - f.textOffset < f.textWidth) &&
        drawn data 0 0 row (x - f.textOffset))

/-- What holds of the buffer before a character is prepared. -/
structure Ready (f : FontBuffer) (sent : ℕ → Option (List UInt16)) : Prop where
  valid : f.attributes.cellMatrix ≠ invalidCellMatrix
  initialized : f.charsetIdInitialized = true
  dims : f.Dims
  declared : f.declaredWidth ≤ maxWidth ∧ f.declaredHeight ≤ maxHeight
  shows' : f.Shows sent
  stores : ∀ st ∈ f.stores, st.Inside
  full : f.bufferCleared = true → f.fullHeight = maxHeight ∧ f.textWidth = maxWidth ∧ f.textOffset = 0
  chars : f.bufferCleared = true → f.startChar ≤ f.currentChar ∧
    ∀ c, sent c ≠ none → f.startChar ≤ c ∧ c < f.currentChar
  blank : f.bufferCleared = true → ∀ k, f.currentChar * f.fullHeight ≤ k → f.buffer k = 0

/-- What holds while a character is sent. -/
structure Drawing (f : FontBuffer) (sent : ℕ → Option (List UInt16)) : Prop where
  valid : f.attributes.cellMatrix ≠ invalidCellMatrix
  initialized : f.charsetIdInitialized = true
  dims : f.Dims
  declared : f.declaredWidth ≤ maxWidth ∧ f.declaredHeight ≤ maxHeight
  shows' : f.Shows sent
  stores : ∀ st ∈ f.stores, st.Inside
  pointer : f.currentCharBuffer = f.currentChar * f.fullHeight + f.sixelRow
  current : ∃ data line, sent f.currentChar = some data ∧ sixelCursor data 0 0 = (line, f.sixelColumn) ∧
    f.sixelRow = 6 * line
  full : f.bufferCleared = true → f.fullHeight = maxHeight ∧ f.textWidth = maxWidth ∧ f.textOffset = 0
  chars : f.bufferCleared = true → f.lastChar = f.currentChar ∧
    ∀ c, sent c ≠ none → f.startChar ≤ c ∧ c ≤ f.currentChar
  blank : f.bufferCleared = true → ∀ k, f.currentChar * f.fullHeight + f.fullHeight ≤ k → f.buffer k = 0

/-- A character is prepared: its lines are blank. -/
theorem Ready.prepareNextCharacter {sent : ℕ → Option (List UInt16)} (h : f.Ready sent) :
    f.prepareNextCharacter.Drawing (Function.update sent f.currentChar (some [])) := by
  -- The lines are blank already, or they are cleared.
  have hlines : ∃ buffer stores, f.prepareNextCharacter =
      { f with
        lastChar := f.currentChar
        currentCharBuffer := f.currentChar * f.fullHeight
        sixelColumn := 0
        sixelRow := 0
        buffer
        stores } ∧
      (∀ k, (k < f.currentChar * f.fullHeight ∨ f.currentChar * f.fullHeight + f.fullHeight ≤ k) →
        buffer k = f.buffer k) ∧
      (f.currentChar < maxChars → ∀ row < f.fullHeight, buffer (f.currentChar * f.fullHeight + row) = 0) ∧
      ∀ st ∈ stores, st.Inside := by
    unfold FontBuffer.prepareNextCharacter
    dsimp only
    by_cases hclears : (!f.bufferCleared) = true ∧ f.currentChar < maxChars
    · rw [if_pos hclears]
      obtain ⟨stores, heq, hstores⟩ := storeLines_eq
        { f with
          lastChar := f.currentChar
          currentCharBuffer := f.currentChar * f.fullHeight
          sixelColumn := 0
          sixelRow := 0 } f.fullHeight fun _ _ => 0
      refine ⟨_, stores, heq, fun k hk => ?_, fun _ row hrow => ?_, fun st hst => ?_⟩
      · exact if_neg (by dsimp only; omega)
      · exact if_pos (by dsimp only; omega)
      · rcases hstores st hst with hold | ⟨hchar, hheight, hle, hlt⟩
        · exact h.stores st hold
        · dsimp only at hchar hheight hle hlt
          refine ⟨by rw [hchar]; exact hclears.2, ?_, ?_⟩
          · rw [hchar, hheight]
            exact hle
          · rw [hchar, hheight]
            exact hlt
    · rw [if_neg hclears]
      refine ⟨f.buffer, f.stores, rfl, fun _ _ => rfl, fun hchar row hrow => ?_, h.stores⟩
      have hcleared : f.bufferCleared = true := by
        cases hcase : f.bufferCleared with
        | true => rfl
        | false => exact absurd ⟨by rw [hcase]; rfl, hchar⟩ hclears
      exact h.blank hcleared _ (Nat.le_add_right _ _)
  obtain ⟨buffer, stores, heq, houtside, hblank, hstores⟩ := hlines
  rw [heq]
  refine ⟨h.valid, h.initialized, ⟨h.dims.height, h.dims.width⟩, h.declared, ?_, hstores, (Nat.add_zero _).symm,
    ⟨[], 0, Function.update_self _ _ _, rfl, rfl⟩, h.full, fun hcleared => ⟨rfl, fun c hc => ?_⟩,
    fun hcleared k hk => ?_⟩
  · intro c hc data hdata row hrow x hx
    dsimp only at hrow ⊢
    by_cases hchar : c = f.currentChar
    · subst hchar
      rw [Function.update_self] at hdata
      obtain rfl := Option.some.inj hdata
      rw [hblank hc row hrow]
      simp [drawn]
    · rw [Function.update_of_ne hchar] at hdata
      rw [houtside _ (line_outside hchar hrow)]
      exact h.shows' c hc data hdata row hrow x hx
  · obtain ⟨hstart, hbetween⟩ := h.chars hcleared
    by_cases hchar : c = f.currentChar
    · exact ⟨hchar ▸ hstart, Nat.le_of_eq hchar⟩
    · rw [Function.update_of_ne hchar] at hc
      exact ⟨(hbetween c hc).1, Nat.le_of_lt (hbetween c hc).2⟩
  · dsimp only at hk ⊢
    rw [houtside k (.inr hk)]
    exact h.blank hcleared k (by omega)

/-! ### Characters of the data -/

section Data

variable {sent : ℕ → Option (List UInt16)} {ch : UInt16}

/-- The data of the current character with one more. -/
def addSent (f : FontBuffer) (sent : ℕ → Option (List UInt16)) (ch : UInt16) : ℕ → Option (List UInt16) :=
  Function.update sent f.currentChar ((sent f.currentChar).map (· ++ [ch]))

lemma addSent_ne_none {c : ℕ} (h : f.addSent sent ch c ≠ none) : sent c ≠ none := by
  unfold addSent at h
  by_cases hchar : c = f.currentChar
  · subst hchar
    rw [Function.update_self] at h
    intro hnone
    rw [hnone] at h
    exact h rfl
  · rwa [Function.update_of_ne hchar] at h

/-- A character that draws nothing. -/
lemma Shows.addSent (h : f.Shows sent) (hch : isSixel ch = false) : f.Shows (f.addSent sent ch) := by
  intro c hc data hdata row hrow x hx
  unfold FontBuffer.addSent at hdata
  by_cases hchar : c = f.currentChar
  · subst hchar
    rw [Function.update_self] at hdata
    obtain ⟨old, hold, rfl⟩ := Option.map_eq_some_iff.mp hdata
    have hnothing : ∀ line column row x, drawn [ch] line column row x = false := by
      intro line column row x
      simp [drawn, hch]
    rw [h _ hc old hold row hrow x hx, drawn_append, hnothing, Bool.or_false]
  · rw [Function.update_of_ne hchar] at hdata
    exact h c hc data hdata row hrow x hx

/-- A character that is neither drawn nor ends anything. -/
theorem Drawing.other (h : f.Drawing sent) (hch : isSixel ch = false) (hline : ch ≠ lineEnd) :
    f.Drawing (f.addSent sent ch) := by
  obtain ⟨data, line, hdata, hcursor, hrow⟩ := h.current
  refine ⟨h.valid, h.initialized, h.dims, h.declared, h.shows'.addSent hch, h.stores, h.pointer,
    ⟨data ++ [ch], line, ?_, ?_, hrow⟩, h.full, fun hcleared => ?_, h.blank⟩
  · unfold addSent
    rw [Function.update_self, hdata]
    rfl
  · rw [sixelCursor_append, hcursor]
    simp [sixelCursor, hch, hline]
  · exact ⟨(h.chars hcleared).1, fun c hc => (h.chars hcleared).2 c (addSent_ne_none hc)⟩

lemma endOfSixelLine_eq {f' : FontBuffer} (h : f.endOfSixelLine = some f') : f' =
    { f with
      currentCharBuffer := f.currentCharBuffer + 6
      sixelRow := f.sixelRow + 6
      usedWidth := max f.usedWidth f.sixelColumn
      usedHeight := max f.usedHeight (f.sixelRow + 6)
      sixelColumn := 0 } := by
  unfold endOfSixelLine at h
  split at h
  · cases h
  · exact (Option.some.inj h).symm

/-- The end of a line. -/
theorem Drawing.endOfSixelLine {f' : FontBuffer} (h : f.Drawing sent) (heq : f.endOfSixelLine = some f') :
    f'.Drawing (f'.addSent sent lineEnd) := by
  obtain ⟨data, line, hdata, hcursor, hrow⟩ := h.current
  obtain rfl := endOfSixelLine_eq heq
  have hshows := h.shows'.addSent (show isSixel lineEnd = false from rfl)
  refine ⟨h.valid, h.initialized, ⟨h.dims.height, h.dims.width⟩, h.declared, hshows, h.stores, ?_,
    ⟨data ++ [lineEnd], line + 1, ?_, ?_, ?_⟩, h.full, fun hcleared => ?_, h.blank⟩
  · have hpointer := h.pointer
    dsimp only
    omega
  · unfold addSent
    dsimp only
    rw [Function.update_self, hdata]
    rfl
  · rw [sixelCursor_append, hcursor]
    rfl
  · dsimp only
    omega
  · exact ⟨(h.chars hcleared).1, fun c hc => (h.chars hcleared).2 c (addSent_ne_none hc)⟩

/-- The end of a character, before the next one is prepared. -/
theorem Drawing.next {f' : FontBuffer} (h : f.Drawing sent) (heq : f.endOfSixelLine = some f') :
    { f' with currentChar := f'.currentChar + 1 }.Ready sent := by
  obtain rfl := endOfSixelLine_eq heq
  obtain ⟨data, line, hdata, -, -⟩ := h.current
  refine ⟨h.valid, h.initialized, ⟨h.dims.height, h.dims.width⟩, h.declared, h.shows', h.stores, h.full,
    fun hcleared => ⟨?_, fun c hc => ?_⟩, fun hcleared k hk => ?_⟩
  · have hstart := (h.chars hcleared).2 f.currentChar (by rw [hdata]; exact Option.some_ne_none _)
    exact Nat.le_succ_of_le hstart.1
  · have hbetween := (h.chars hcleared).2 c hc
    exact ⟨hbetween.1, Nat.lt_succ_of_le hbetween.2⟩
  · dsimp only at hk
    rw [Nat.succ_mul] at hk
    exact h.blank hcleared k hk

/-- A sixel. -/
theorem Drawing.addSixelValue (h : f.Drawing sent) (hch : isSixel ch = true) :
    (f.addSixelValue (ch - 0x3f).toNat).Drawing (f.addSent sent ch) := by
  obtain ⟨data, line, hdata, hcursor, hrow⟩ := h.current
  have hpointer := h.pointer
  have hwidth := h.dims.width
  -- The pixels of the sixel come into the lines of the character.
  have hlines : ∃ buffer stores, f.addSixelValue (ch - 0x3f).toNat =
      { f with buffer, stores, sixelColumn := f.sixelColumn + 1 } ∧
      (∀ k, (k < f.currentChar * f.fullHeight ∨ f.currentChar * f.fullHeight + f.fullHeight ≤ k) →
        buffer k = f.buffer k) ∧
      (f.currentChar < maxChars → ∀ row < f.fullHeight, ∀ x < maxWidth,
        (buffer (f.currentChar * f.fullHeight + row)).getMsbD x =
          ((f.buffer (f.currentChar * f.fullHeight + row)).getMsbD x ||
            (decide (f.sixelColumn < f.textWidth) && decide (x = f.sixelColumn + f.textOffset) &&
              decide (6 * line ≤ row) && decide (row < 6 * line + 6) &&
              (ch - 0x3f).toNat.testBit (row - 6 * line)))) ∧
      ∀ st ∈ stores, st.Inside := by
    unfold FontBuffer.addSixelValue
    dsimp only
    by_cases hdraws : f.currentChar < maxChars ∧ f.sixelColumn < f.textWidth
    · rw [if_pos hdraws]
      obtain ⟨stores, heq, hstores⟩ := storeLines_eq f (min 6 (f.fullHeight - f.sixelRow)) fun i line =>
        line ||| if (ch - 0x3f).toNat.testBit i then 0x8000#16 >>> (f.sixelColumn + f.textOffset) else 0
      rw [heq]
      refine ⟨_, stores, rfl, fun k hk => ?_, fun _ row hlt x hx => ?_, fun st hst => ?_⟩
      · exact if_neg (by omega)
      · dsimp only
        by_cases hin : 6 * line ≤ row ∧ row < 6 * line + 6
        · rw [if_pos (by omega), show f.currentChar * f.fullHeight + row - f.currentCharBuffer = row - 6 * line by
            omega, BitVec.getMsbD_or]
          congr 1
          by_cases hbit : (ch - 0x3f).toNat.testBit (row - 6 * line) = true
          · rw [if_pos hbit, getMsbD_outputColumnBit hx]
            simp [hdraws.2, hin, hbit]
          · rw [if_neg hbit]
            simp [hbit]
        · rw [if_neg (by omega)]
          have hnone : (decide (6 * line ≤ row) && decide (row < 6 * line + 6)) = false := by
            rw [← Bool.decide_and]
            exact decide_eq_false hin
          rw [Bool.and_assoc (_ && _) (decide (6 * line ≤ row)), hnone, Bool.and_false, Bool.false_and, Bool.or_false]
      · rcases hstores st hst with hold | ⟨hchar, hheight, hle, hlt⟩
        · exact h.stores st hold
        · refine ⟨by rw [hchar]; exact hdraws.1, ?_, ?_⟩
          · rw [hchar, hheight]
            omega
          · rw [hchar, hheight]
            omega
    · rw [if_neg hdraws]
      refine ⟨f.buffer, f.stores, rfl, fun _ _ => rfl, fun hchar row hlt x hx => ?_, h.stores⟩
      have hcolumn : ¬ f.sixelColumn < f.textWidth := fun hcolumn => hdraws ⟨hchar, hcolumn⟩
      simp [hcolumn]
  obtain ⟨buffer, stores, heq, houtside, hpixels, hstores⟩ := hlines
  rw [heq]
  refine ⟨h.valid, h.initialized, ⟨h.dims.height, h.dims.width⟩, h.declared, ?_, hstores, h.pointer,
    ⟨data ++ [ch], line, ?_, ?_, hrow⟩, h.full, fun hcleared => ?_, fun hcleared k hk => ?_⟩
  · intro c hc data' hdata' row hlt x hx
    dsimp only at hlt ⊢
    unfold addSent at hdata'
    by_cases hchar : c = f.currentChar
    · subst hchar
      rw [Function.update_self, hdata] at hdata'
      obtain rfl := Option.some.inj hdata'
      have hsixel : ∀ x', drawn [ch] line f.sixelColumn row x' =
          (x' == f.sixelColumn && decide (6 * line ≤ row) && decide (row < 6 * line + 6) &&
            (ch - 0x3f).toNat.testBit (row - 6 * line)) := by
        intro x'
        simp [drawn, hch]
      rw [hpixels hc row hlt x hx, h.shows' _ hc data hdata row hlt x hx, drawn_append, hcursor, hsixel]
      by_cases hle : f.textOffset ≤ x
      · by_cases hin : x - f.textOffset < f.textWidth
        · by_cases hcolumn : x = f.sixelColumn + f.textOffset
          · subst hcolumn
            rw [Nat.add_sub_cancel] at hin ⊢
            simp [hin]
          · have hne : x - f.textOffset ≠ f.sixelColumn := by omega
            simp [hle, hin, hcolumn, hne]
        · have hne : ¬ (f.sixelColumn < f.textWidth ∧ x = f.sixelColumn + f.textOffset) := by omega
          have hnone : (decide (f.sixelColumn < f.textWidth) && decide (x = f.sixelColumn + f.textOffset)) = false := by
            rw [← Bool.decide_and]
            exact decide_eq_false hne
          simp [hin, hnone]
      · have hne : x ≠ f.sixelColumn + f.textOffset := by omega
        simp [hle, hne]
    · rw [Function.update_of_ne hchar] at hdata'
      rw [houtside _ (line_outside hchar hlt)]
      exact h.shows' c hc data' hdata' row hlt x hx
  · unfold addSent
    dsimp only
    rw [Function.update_self, hdata]
    rfl
  · rw [sixelCursor_append, hcursor]
    simp [sixelCursor, hch]
  · exact ⟨(h.chars hcleared).1, fun c hc => (h.chars hcleared).2 c (addSent_ne_none hc)⟩
  · dsimp only at hk ⊢
    rw [houtside k (.inr hk)]
    exact h.blank hcleared k hk

end Data

/-! ### The end of an upload -/

/-- What the loop over `count` lines of the buffer has packed. -/
lemma packLines_spec (buffer : ℕ → BitVec 16) (pack : BitVec 16 → BitVec 16) {height : ℕ}
    (hheight : height ≤ maxHeight) (count : ℕ) : ∃ packed,
      (List.range count).foldl (packLine height pack) (buffer, 0) =
        (packed, count / maxHeight * height + min (count % maxHeight) height) ∧
      (∀ c row, row < height → c * maxHeight + row < count →
        packed (c * height + row) = pack (buffer (c * maxHeight + row))) ∧
      ∀ k, count / maxHeight * height + min (count % maxHeight) height ≤ k → packed k = buffer k := by
  induction count with
  | zero =>
    refine ⟨buffer, ?_, fun c row _ hlt => absurd hlt (Nat.not_lt_zero _), fun _ _ => rfl⟩
    simp
  | succ n ih =>
    obtain ⟨packed, hfold, hpacked, hrest⟩ := ih
    -- The line is line `n % 32` of character `n / 32`.
    have hn : n / maxHeight * maxHeight + n % maxHeight = n := Nat.div_add_mod' n maxHeight
    have hmod : n % maxHeight < maxHeight := Nat.mod_lt _ (by decide)
    have hnext : (n + 1) / maxHeight = n / maxHeight ∧ (n + 1) % maxHeight = n % maxHeight + 1 ∨
        (n + 1) / maxHeight = n / maxHeight + 1 ∧ (n + 1) % maxHeight = 0 ∧ n % maxHeight + 1 = maxHeight := by
      unfold maxHeight
      omega
    have hdst : n / maxHeight * height + min (n % maxHeight) height ≤ n := by
      have hle := Nat.mul_le_mul_left (n / maxHeight) hheight
      omega
    have hstep : (n + 1) / maxHeight * height + min ((n + 1) % maxHeight) height =
        n / maxHeight * height + min (n % maxHeight) height + (if n % maxHeight < height then 1 else 0) := by
      rcases hnext with ⟨hdiv, hrem⟩ | ⟨hdiv, hrem, hlast⟩
      · rw [hdiv, hrem]
        split <;> omega
      · rw [hdiv, hrem, Nat.succ_mul]
        split <;> omega
    rw [List.range_succ, List.foldl_append, hfold, List.foldl_cons, List.foldl_nil, hstep]
    unfold packLine
    dsimp only
    by_cases hkept : n % maxHeight < height
    · rw [if_pos hkept, if_pos hkept, hrest n hdst, Nat.min_eq_left (Nat.le_of_lt hkept)]
      refine ⟨_, rfl, fun c row hrow hlt => ?_, fun k hk => ?_⟩
      · rcases Nat.lt_or_eq_of_le (Nat.le_of_lt_succ hlt) with hlt | heq
        · have hne : c * height + row ≠ n / maxHeight * height + n % maxHeight := by
            intro heq
            by_cases hc : c = n / maxHeight
            · subst hc
              omega
            · rcases line_outside hc hrow with h | h
              · omega
              · omega
          rw [Function.update_of_ne hne]
          exact hpacked c row hrow hlt
        · have hc : c = n / maxHeight ∧ row = n % maxHeight := by
            unfold maxHeight at heq hheight ⊢
            omega
          obtain ⟨rfl, rfl⟩ := hc
          rw [Function.update_self, hn]
      · rw [Function.update_of_ne (by omega)]
        exact hrest k (by omega)
    · rw [if_neg hkept, if_neg hkept]
      refine ⟨packed, rfl, fun c row hrow hlt => ?_, hrest⟩
      refine hpacked c row hrow (Nat.lt_of_le_of_ne (Nat.le_of_lt_succ hlt) fun heq => hkept ?_)
      have hrow' : row = n % maxHeight := by
        unfold maxHeight at heq hheight ⊢
        omega
      exact hrow' ▸ hrow

/-- The error glyph is copied over one character. -/
lemma copyErrorGlyph_outside (errorPattern : List (BitVec 16)) (height : ℕ) (buffer : ℕ → BitVec 16) (ch : ℕ)
    {k : ℕ} (hk : k < ch * height ∨ ch * height + height ≤ k) :
    copyErrorGlyph errorPattern height buffer ch k = buffer k := by
  have hcount : ∀ count ≤ height, (List.range count).foldl
      (fun buffer i => Function.update buffer (ch * height + i) (errorPattern.getD i 0)) buffer k = buffer k := by
    intro count
    induction count with
    | zero => exact fun _ => rfl
    | succ n ih =>
      intro hle
      rw [List.range_succ, List.foldl_append, List.foldl_cons, List.foldl_nil, Function.update_of_ne (by omega)]
      exact ih (Nat.le_of_succ_le hle)
  exact hcount height (Nat.le_refl _)

/-- The characters that were sent keep their lines. -/
lemma fillUnusedCharacters_kept (f : FontBuffer) {c row : ℕ} (hc : f.startChar ≤ c ∧ c ≤ f.lastChar)
    (hrow : row < f.fullHeight) :
    f.fillUnusedCharacters.buffer (c * f.fullHeight + row) = f.buffer (c * f.fullHeight + row) := by
  have hchars : ∀ chars : List ℕ, ∀ buffer : ℕ → BitVec 16, (chars.foldl
      (fun buffer ch =>
        if ch < f.startChar ∨ f.lastChar < ch then copyErrorGlyph f.generateErrorGlyph f.fullHeight buffer ch
        else buffer) buffer) (c * f.fullHeight + row) = buffer (c * f.fullHeight + row) := by
    intro chars
    induction chars with
    | nil => exact fun _ => rfl
    | cons ch rest ih =>
      intro buffer
      rw [List.foldl_cons, ih]
      by_cases hunused : ch < f.startChar ∨ f.lastChar < ch
      · rw [if_pos hunused]
        exact copyErrorGlyph_outside _ _ _ _ (line_outside (by omega) hrow)
      · rw [if_neg hunused]
  exact hchars _ _

/-- Full width and full height are not greater than the maximum. -/
def Fits (dims : ℕ × ℕ × ℕ) : Prop := dims.1 ≤ maxWidth ∧ dims.2.1 ≤ maxHeight

lemma Fits.ite {c : Prop} [Decidable c] {dims dims' : ℕ × ℕ × ℕ} (h : Fits dims) (h' : Fits dims') :
    Fits (if c then dims else dims') := by
  by_cases hc : c
  · rwa [if_pos hc]
  · rwa [if_neg hc]

lemma Fits.mk {width height textWidth : ℕ} (hwidth : width ≤ 16) (hheight : height ≤ 32) :
    Fits (width, height, textWidth) := ⟨hwidth, hheight⟩

/-- The dimensions that are calculated fit. -/
lemma calculateDimensions_fits (f : FontBuffer) (h : f.declaredWidth ≤ maxWidth ∧ f.declaredHeight ≤ maxHeight) :
    Fits f.calculateDimensions := by
  have hpage : Fits (if f.columnsPerPage = 132 then 6 else 10, if f.linesPerPage = 48 then 8 else 10,
      if f.isTextFont then f.declaredWidth else 0) := by
    constructor
    · dsimp only
      unfold maxWidth
      split <;> decide
    · dsimp only
      unfold maxHeight
      split <;> decide
  unfold calculateDimensions
  refine .ite (.ite ?_ ?_) (.ite h (.ite hpage (.ite ?_ ?_)))
  · exact .mk (by decide) (by decide)
  · exact .mk (by decide) (by decide)
  · exact .ite (.mk (by decide) (by decide)) (.ite (.mk (by decide) (by decide)) (.ite (.mk (by decide) (by decide))
      (.ite (.mk (by decide) (by decide)) (.ite (.mk (by decide) (by decide)) (.mk (by decide) (by decide))))))
  · exact .ite (.mk (by decide) (by decide)) (.ite (.mk (by decide) (by decide)) (.ite (.mk (by decide) (by decide))
      (.ite (.mk (by decide) (by decide)) (.ite (.mk (by decide) (by decide)) (.mk (by decide) (by decide))))))

/-- What holds of the buffer between uploads. -/
structure Settled (f : FontBuffer) (sent : ℕ → Option (List UInt16)) : Prop where
  dims : f.attributes.cellMatrix ≠ invalidCellMatrix → f.Dims
  shows' : f.Shows sent
  stores : ∀ st ∈ f.stores, st.Inside

lemma Drawing.settled {sent : ℕ → Option (List UInt16)} (h : f.Drawing sent) : f.Settled sent :=
  ⟨fun _ => h.dims, h.shows', h.stores⟩

/-- The lines of the characters, packed. -/
lemma packAndCenterBitPatterns_line (g : FontBuffer) (hheight : g.fullHeight ≤ maxHeight) {c row : ℕ}
    (hc : c < maxChars) (hrow : row < g.fullHeight) :
    g.packAndCenterBitPatterns.buffer (c * g.fullHeight + row) =
      (g.buffer (c * maxHeight + row) &&& ~~~(0xffff#16 >>> g.packAndCenterBitPatterns.textWidth)) >>>
        g.packAndCenterBitPatterns.textOffset := by
  have hbuffer : g.packAndCenterBitPatterns.buffer = packLines g.fullHeight
      (fun line => (line &&& ~~~(0xffff#16 >>> g.packAndCenterBitPatterns.textWidth)) >>>
        g.packAndCenterBitPatterns.textOffset) g.buffer := by
    simp only [packAndCenterBitPatterns]
  have hin : c * maxHeight + row < fontLines := by
    unfold fontLines maxHeight maxChars at *
    omega
  generalize g.packAndCenterBitPatterns.textWidth = width at hbuffer ⊢
  generalize g.packAndCenterBitPatterns.textOffset = offset at hbuffer ⊢
  obtain ⟨packed, hfold, hpacked, -⟩ := packLines_spec g.buffer
    (fun line => (line &&& ~~~(0xffff#16 >>> width)) >>> offset) hheight fontLines
  rw [hbuffer, packLines, hfold]
  exact hpacked c row hrow hin

/-- Packing and centring: what was drawn at the maximum size is clipped and moved. -/
theorem packed_shows {sent : ℕ → Option (List UInt16)} {g : FontBuffer} (hshows : f.Shows sent)
    (hfull : f.fullHeight = maxHeight ∧ f.textWidth = maxWidth ∧ f.textOffset = 0)
    (hchars : ∀ c, sent c ≠ none → g.startChar ≤ c ∧ c ≤ g.lastChar) (hbuffer : g.buffer = f.buffer)
    (hheight : g.fullHeight ≤ maxHeight) : g.packAndCenterBitPatterns.fillUnusedCharacters.Shows sent := by
  intro c hc data hdata row hrow x hx
  have hrow' : row < g.fullHeight := hrow
  have hsent := hchars c (by rw [hdata]; exact Option.some_ne_none _)
  have hline : g.packAndCenterBitPatterns.fillUnusedCharacters.buffer (c * g.fullHeight + row) =
      (g.buffer (c * maxHeight + row) &&& ~~~(0xffff#16 >>> g.packAndCenterBitPatterns.textWidth)) >>>
        g.packAndCenterBitPatterns.textOffset :=
    (fillUnusedCharacters_kept g.packAndCenterBitPatterns hsent hrow).trans
      (packAndCenterBitPatterns_line g hheight hc hrow')
  have hold := hshows c hc data hdata row (by rw [hfull.1]; omega)
  rw [hfull.1, hfull.2.1, hfull.2.2, ← hbuffer] at hold
  have hpixel := congrArg (fun line : BitVec 16 => line.getMsbD x) hline
  refine hpixel.trans ((getMsbD_packed _ hx).trans ?_)
  have hin : x - g.packAndCenterBitPatterns.textOffset < maxWidth := by omega
  rw [hold _ hin, Nat.sub_zero, decide_eq_true (Nat.zero_le _), decide_eq_true hin]
  rfl

/-- **`FinalizeSixelData`.** -/
theorem Drawing.finalize {sent : ℕ → Option (List UInt16)} {f' : FontBuffer} {finalized : Bool} (h : f.Drawing sent)
    (heq : f.finalizeSixelData = some (f', finalized)) : f'.Settled sent := by
  unfold finalizeSixelData at heq
  rw [h.initialized, if_neg (by decide)] at heq
  obtain ⟨f₁, hline, heq⟩ := Option.map_eq_some_iff.mp heq
  obtain rfl := endOfSixelLine_eq hline
  dsimp only at heq
  by_cases hcleared : f.bufferCleared = true
  · rw [if_pos hcleared] at heq
    obtain ⟨rfl, -⟩ := Prod.mk.inj heq
    have hdims := calculateDimensions_fits
      { f with
        currentCharBuffer := f.currentCharBuffer + 6
        sixelRow := f.sixelRow + 6
        usedWidth := max f.usedWidth f.sixelColumn
        usedHeight := max f.usedHeight (f.sixelRow + 6)
        sixelColumn := 0 } h.declared
    generalize calculateDimensions _ = dims at hdims ⊢
    obtain ⟨fullWidth, fullHeight, textWidth⟩ := dims
    have hchars := h.chars hcleared
    refine ⟨fun _ => ⟨hdims.2, ?_⟩, ?_, h.stores⟩
    · show (fullWidth - min (if textWidth ≠ 0 then textWidth else fullWidth) fullWidth) / 2 +
        min (if textWidth ≠ 0 then textWidth else fullWidth) fullWidth ≤ maxWidth
      have hwidth : fullWidth ≤ maxWidth := hdims.1
      generalize (if textWidth ≠ 0 then textWidth else fullWidth) = width
      omega
    · refine packed_shows h.shows' (h.full hcleared) (fun c hc => ⟨(hchars.2 c hc).1, ?_⟩) rfl hdims.2
      exact Nat.le_trans (hchars.2 c hc).2 (Nat.le_of_eq hchars.1.symm)
  · rw [if_neg hcleared] at heq
    obtain ⟨rfl, -⟩ := Prod.mk.inj heq
    exact ⟨fun _ => ⟨h.dims.height, h.dims.width⟩, h.shows', h.stores⟩

/-! ### Parameters -/

/-- The font stays as it is, but for its cell matrix, which may be declared invalid. -/
structure SameFont (f f' : FontBuffer) : Prop where
  fullHeight : f'.fullHeight = f.fullHeight
  textWidth : f'.textWidth = f.textWidth
  textOffset : f'.textOffset = f.textOffset
  buffer : f'.buffer = f.buffer
  stores : f'.stores = f.stores
  attributes : f'.attributes = f.attributes ∨ f'.attributes.cellMatrix = invalidCellMatrix

lemma SameFont.rfl' : SameFont f f := ⟨rfl, rfl, rfl, rfl, rfl, .inl rfl⟩

lemma SameFont.trans {f' f'' : FontBuffer} (h : SameFont f f') (h' : SameFont f' f'') : SameFont f f'' where
  fullHeight := h'.fullHeight.trans h.fullHeight
  textWidth := h'.textWidth.trans h.textWidth
  textOffset := h'.textOffset.trans h.textOffset
  buffer := h'.buffer.trans h.buffer
  stores := h'.stores.trans h.stores
  attributes := by
    rcases h'.attributes with heq | hinvalid
    · rw [heq]
      exact h.attributes
    · exact .inr hinvalid

lemma Settled.same {f' : FontBuffer} {sent : ℕ → Option (List UInt16)} (h : f.Settled sent)
    (hsame : SameFont f f') : f'.Settled sent := by
  refine ⟨fun hvalid => ?_, ?_, ?_⟩
  · rcases hsame.attributes with heq | hinvalid
    · rw [heq] at hvalid
      have hdims := h.dims hvalid
      constructor
      · rw [hsame.fullHeight]
        exact hdims.height
      · rw [hsame.textOffset, hsame.textWidth]
        exact hdims.width
    · exact absurd hinvalid hvalid
  · unfold Shows
    rw [hsame.fullHeight, hsame.textWidth, hsame.textOffset, hsame.buffer]
    exact h.shows'
  · rw [hsame.stores]
    exact h.stores

lemma setEraseControl_same (f : FontBuffer) (eraseControl : ℕ) : SameFont f (f.setEraseControl eraseControl).1 := by
  unfold setEraseControl
  split
  · exact ⟨rfl, rfl, rfl, rfl, rfl, .inr rfl⟩
  · exact ⟨rfl, rfl, rfl, rfl, rfl, .inr rfl⟩
  · exact .rfl'
  · exact .rfl'

lemma setFontSet_same (f : FontBuffer) (fontSet : ℕ) : SameFont f (f.setFontSet fontSet).1 := by
  unfold setFontSet
  split <;> exact ⟨rfl, rfl, rfl, rfl, rfl, .inl rfl⟩

lemma setFontUsage_same (f : FontBuffer) (fontUsage : ℕ) : SameFont f (f.setFontUsage fontUsage).1 := by
  unfold setFontUsage
  split <;> exact ⟨rfl, rfl, rfl, rfl, rfl, .inl rfl⟩

lemma setCellMatrix_spec (f : FontBuffer) (cellMatrix : ℕ) (cellHeight : Option ℕ) :
    SameFont f (f.setCellMatrix cellMatrix cellHeight).1 ∧ ((f.setCellMatrix cellMatrix cellHeight).2 = true →
      cellMatrix ≠ invalidCellMatrix ∧ (f.setCellMatrix cellMatrix cellHeight).1.declaredWidth ≤ maxWidth ∧
        (f.setCellMatrix cellMatrix cellHeight).1.declaredHeight ≤ maxHeight) := by
  unfold setCellMatrix
  split
  · exact ⟨.rfl', fun h => nomatch h⟩
  · exact ⟨⟨rfl, rfl, rfl, rfl, rfl, .inl rfl⟩,
      fun _ => ⟨by decide, show 5 ≤ 16 by decide, show 10 ≤ 32 by decide⟩⟩
  · exact ⟨⟨rfl, rfl, rfl, rfl, rfl, .inl rfl⟩,
      fun _ => ⟨by decide, show 6 ≤ 16 by decide, show 10 ≤ 32 by decide⟩⟩
  · exact ⟨⟨rfl, rfl, rfl, rfl, rfl, .inl rfl⟩,
      fun _ => ⟨by decide, show 7 ≤ 16 by decide, show 10 ≤ 32 by decide⟩⟩
  · next hinvalid _ _ _ =>
    refine ⟨⟨rfl, rfl, rfl, rfl, rfl, .inl rfl⟩, fun h => ⟨hinvalid, ?_⟩⟩
    rw [Bool.and_eq_true] at h
    exact ⟨of_decide_eq_true h.1, of_decide_eq_true h.2⟩

lemma setAttributes_spec (f : FontBuffer) (cellMatrix : ℕ) (cellHeight : Option ℕ) (fontSet fontUsage : ℕ) :
    SameFont f (f.setAttributes cellMatrix cellHeight fontSet fontUsage).1 ∧
      ((f.setAttributes cellMatrix cellHeight fontSet fontUsage).2 = true →
        (f.setAttributes cellMatrix cellHeight fontSet fontUsage).1.pending.cellMatrix ≠ invalidCellMatrix ∧
        (f.setAttributes cellMatrix cellHeight fontSet fontUsage).1.declaredWidth ≤ maxWidth ∧
        (f.setAttributes cellMatrix cellHeight fontSet fontUsage).1.declaredHeight ≤ maxHeight) := by
  have hset := setFontSet_same f fontSet
  unfold setAttributes
  generalize f.setFontSet fontSet = set at hset ⊢
  obtain ⟨f₁, valid⟩ := set
  cases valid with
  | false =>
    have hpending : SameFont f₁ { f₁ with
        pending := { f₁.pending with cellMatrix, cellHeight := cellHeight.getD 0, fontSet, fontUsage }
        usedWidth := 0
        usedHeight := 0 } := ⟨rfl, rfl, rfl, rfl, rfl, .inl rfl⟩
    exact ⟨hset.trans hpending, fun h => nomatch h⟩
  | true =>
    have husage := setFontUsage_same f₁ fontUsage
    dsimp only
    rw [if_pos rfl]
    generalize f₁.setFontUsage fontUsage = usage at husage ⊢
    obtain ⟨f₂, valid⟩ := usage
    cases valid with
    | false =>
      have hpending : SameFont f₂ { f₂ with
          pending := { f₂.pending with cellMatrix, cellHeight := cellHeight.getD 0, fontSet, fontUsage }
          usedWidth := 0
          usedHeight := 0 } := ⟨rfl, rfl, rfl, rfl, rfl, .inl rfl⟩
      exact ⟨(hset.trans husage).trans hpending, fun h => nomatch h⟩
    | true =>
      obtain ⟨hmatrix, hvalid⟩ := setCellMatrix_spec f₂ cellMatrix cellHeight
      dsimp only
      rw [if_pos rfl]
      generalize f₂.setCellMatrix cellMatrix cellHeight = result at hmatrix hvalid ⊢
      obtain ⟨f₃, valid⟩ := result
      have hpending : SameFont f₃ { f₃ with
          pending := { f₃.pending with cellMatrix, cellHeight := cellHeight.getD 0, fontSet, fontUsage }
          usedWidth := 0
          usedHeight := 0 } := ⟨rfl, rfl, rfl, rfl, rfl, .inl rfl⟩
      exact ⟨((hset.trans husage).trans hmatrix).trans hpending, hvalid⟩

/-- What holds while the identifier of the character set is sent. -/
structure Waiting (f : FontBuffer) (sent : ℕ → Option (List UInt16)) : Prop where
  settled : f.Settled sent
  initialized : f.charsetIdInitialized = false
  pendingValid : f.pending.cellMatrix ≠ invalidCellMatrix
  declared : f.declaredWidth ≤ maxWidth ∧ f.declaredHeight ≤ maxHeight
  start : f.startChar = f.currentChar

lemma setStartChar_waiting {sent : ℕ → Option (List UInt16)} (h : f.Settled sent) (startChar : Option ℕ)
    (charsetSize : ℕ) (hvalid : f.pending.cellMatrix ≠ invalidCellMatrix)
    (hdeclared : f.declaredWidth ≤ maxWidth ∧ f.declaredHeight ≤ maxHeight) :
    (f.setStartChar startChar charsetSize).1.Settled sent ∧
      ((f.setStartChar startChar charsetSize).2 = true → (f.setStartChar startChar charsetSize).1.Waiting sent) := by
  unfold setStartChar
  split
  · exact ⟨h.same ⟨rfl, rfl, rfl, rfl, rfl, .inl rfl⟩,
      fun _ => ⟨h.same ⟨rfl, rfl, rfl, rfl, rfl, .inl rfl⟩, rfl, hvalid, hdeclared, rfl⟩⟩
  · exact ⟨h.same ⟨rfl, rfl, rfl, rfl, rfl, .inl rfl⟩,
      fun _ => ⟨h.same ⟨rfl, rfl, rfl, rfl, rfl, .inl rfl⟩, rfl, hvalid, hdeclared, rfl⟩⟩
  · exact ⟨h, fun h => nomatch h⟩

lemma prepareNextCharacter_frame (f : FontBuffer) : f.prepareNextCharacter.bufferCleared = f.bufferCleared ∧
    f.prepareNextCharacter.currentChar = f.currentChar ∧
      f.prepareNextCharacter.charsetIdInitialized = f.charsetIdInitialized := by
  unfold prepareNextCharacter
  dsimp only
  split
  · obtain ⟨stores, heq, -⟩ := storeLines_eq
      { f with
        lastChar := f.currentChar
        currentCharBuffer := f.currentChar * f.fullHeight
        sixelColumn := 0
        sixelRow := 0 } f.fullHeight fun _ _ => 0
    rw [heq]
    exact ⟨rfl, rfl, rfl⟩
  · exact ⟨rfl, rfl, rfl⟩

/-- The first character is prepared, in a buffer that is cleared or in the font as it is. -/
lemma prepareCharacterBuffer_drawing {sent : ℕ → Option (List UInt16)} (h : f.Settled sent)
    (hinitialized : f.charsetIdInitialized = true) (hvalid : f.pending.cellMatrix ≠ invalidCellMatrix)
    (hdeclared : f.declaredWidth ≤ maxWidth ∧ f.declaredHeight ≤ maxHeight)
    (hstart : f.startChar = f.currentChar) :
    f.prepareCharacterBuffer.charsetIdInitialized = true ∧
      f.prepareCharacterBuffer.Drawing (Function.update
        (if f.prepareCharacterBuffer.bufferCleared then fun _ => none else sent) f.prepareCharacterBuffer.currentChar
        (some [])) := by
  unfold prepareCharacterBuffer
  by_cases hchanged : f.attributes ≠ f.pending
  · rw [if_pos hchanged]
    have hready : { f with
        attributes := f.pending
        fullWidth := maxWidth
        fullHeight := maxHeight
        textWidth := maxWidth
        textOffset := 0
        buffer := fun _ => 0
        bufferCleared := true }.Ready fun _ => none :=
      ⟨hvalid, hinitialized, ⟨Nat.le_refl _, Nat.le_refl _⟩, hdeclared, fun _ _ _ hdata => (nomatch hdata),
        h.stores, fun _ => ⟨rfl, rfl, rfl⟩, fun _ => ⟨Nat.le_of_eq hstart, fun _ hc => absurd rfl hc⟩,
        fun _ _ _ => rfl⟩
    obtain ⟨hcleared, hchar, hinit⟩ := prepareNextCharacter_frame { f with
      attributes := f.pending
      fullWidth := maxWidth
      fullHeight := maxHeight
      textWidth := maxWidth
      textOffset := 0
      buffer := fun _ => 0
      bufferCleared := true }
    rw [hcleared, hchar, if_pos rfl]
    exact ⟨hinit.trans hinitialized, hready.prepareNextCharacter⟩
  · rw [if_neg hchanged]
    have hsame : f.attributes.cellMatrix ≠ invalidCellMatrix := by
      rw [Decidable.not_not.mp hchanged]
      exact hvalid
    have hdims := h.dims hsame
    have hready : { f with bufferCleared := false }.Ready sent :=
      ⟨hsame, hinitialized, ⟨hdims.height, hdims.width⟩, hdeclared, h.shows', h.stores, fun h => (nomatch h),
        fun h => (nomatch h), fun h => (nomatch h)⟩
    obtain ⟨hcleared, hchar, hinit⟩ := prepareNextCharacter_frame { f with bufferCleared := false }
    rw [hcleared, hchar, if_neg Bool.false_ne_true]
    exact ⟨hinit.trans hinitialized, hready.prepareNextCharacter⟩

/-- A character of the identifier; the last one prepares the buffer. -/
theorem Waiting.buildCharsetId {sent : ℕ → Option (List UInt16)} (h : f.Waiting sent) (ch : UInt16) :
    (f.buildCharsetId ch).Waiting sent ∨
      (f.buildCharsetId ch).charsetIdInitialized = true ∧
        (f.buildCharsetId ch).Drawing (Function.update
          (if (f.buildCharsetId ch).bufferCleared then fun _ => none else sent) (f.buildCharsetId ch).currentChar
          (some [])) := by
  unfold FontBuffer.buildCharsetId
  split
  · exact .inl ⟨h.settled.same ⟨rfl, rfl, rfl, rfl, rfl, .inl rfl⟩, h.initialized, h.pendingValid, h.declared,
      h.start⟩
  split
  · refine .inr (prepareCharacterBuffer_drawing ?_ rfl h.pendingValid h.declared h.start)
    exact h.settled.same ⟨rfl, rfl, rfl, rfl, rfl, .inl rfl⟩
  · exact .inl h

end FontBuffer

/-! ### Runs -/

namespace FontSession

variable {s : FontSession}

/-- What holds while the data of an upload is sent. -/
def Receiving (s : FontSession) : Prop := s.font.Waiting s.sent ∨ s.font.Drawing s.sent

lemma Receiving.settled (h : s.Receiving) : s.font.Settled s.sent := by
  rcases h with h | h
  · exact h.settled
  · exact h.settled

/-- Any character of the data. -/
theorem Receiving.addSixelData {s' : FontSession} (h : s.Receiving) {ch : UInt16} (heq : s.addSixelData ch = some s') :
    s'.Receiving := by
  obtain ⟨font, hfont, rfl⟩ := Option.map_eq_some_iff.mp heq
  unfold FontBuffer.addSixelData at hfont
  rcases h with h | h
  · rw [h.initialized] at hfont
    obtain rfl := Option.some.inj hfont
    unfold Receiving sentAfter
    rw [h.initialized]
    rcases h.buildCharsetId ch with hwaiting | ⟨hinitialized, hdrawing⟩
    · rw [hwaiting.initialized]
      exact .inl hwaiting
    · rw [hinitialized]
      exact .inr hdrawing
  · refine .inr ?_
    unfold sentAfter
    rw [h.initialized] at hfont ⊢
    simp only [Bool.not_true, Bool.false_eq_true, if_false] at hfont ⊢
    cases hsixel : isSixel ch with
    | true =>
      have hend : ch ≠ characterEnd := by
        rintro rfl
        cases hsixel
      rw [hsixel, if_pos rfl] at hfont
      obtain rfl := Option.some.inj hfont
      rw [if_neg hend]
      exact h.addSixelValue hsixel
    | false =>
      rw [hsixel, if_neg Bool.false_ne_true] at hfont
      by_cases hline : ch = lineEnd
      · subst hline
        rw [if_pos rfl] at hfont
        rw [if_neg (by decide)]
        have hdrawing := h.endOfSixelLine hfont
        obtain rfl := endOfSixelLine_eq hfont
        exact hdrawing
      · rw [if_neg hline] at hfont
        by_cases hend : ch = characterEnd
        · rw [if_pos hend] at hfont ⊢
          obtain ⟨f₁, hf₁, rfl⟩ := Option.map_eq_some_iff.mp hfont
          have hready := (h.next hf₁).prepareNextCharacter
          rw [(prepareNextCharacter_frame _).2.1]
          exact hready
        · rw [if_neg hend] at hfont ⊢
          obtain rfl := Option.some.inj hfont
          exact h.other hsixel hline

lemma Receiving.addAll (h : s.Receiving) (data : List UInt16) : (s.addAll data).1.Receiving := by
  induction data generalizing s with
  | nil => exact h
  | cons ch rest ih =>
    unfold FontSession.addAll
    cases heq : s.addSixelData ch with
    | none => exact h
    | some s' => exact ih (h.addSixelData heq)

/-- The setters change no character, and when all succeed the data can be sent. -/
theorem setParameters_spec (h : s.font.Settled s.sent) (d : Download) :
    (s.setParameters d).1.Settled s.sent ∧
      ((s.setParameters d).2 = true → (s.setParameters d).1.Waiting s.sent) := by
  unfold setParameters
  by_cases hnumber : 1 < d.fontNumber
  · rw [if_neg (Nat.not_le.mpr hnumber)]
    exact ⟨h, fun h => nomatch h⟩
  rw [if_pos (Nat.le_of_not_lt hnumber)]
  have herase := h.same (setEraseControl_same s.font d.eraseControl)
  generalize s.font.setEraseControl d.eraseControl = erased at herase ⊢
  obtain ⟨f₁, success⟩ := erased
  cases success with
  | false => exact ⟨herase, fun h => nomatch h⟩
  | true =>
    obtain ⟨hsame, hvalid⟩ := setAttributes_spec f₁ d.cellMatrix d.cellHeight d.fontSet d.fontUsage
    dsimp only
    rw [if_pos rfl]
    have hattributes := herase.same hsame
    generalize f₁.setAttributes d.cellMatrix d.cellHeight d.fontSet d.fontUsage = result at hattributes hvalid ⊢
    obtain ⟨f₂, success⟩ := result
    cases success with
    | false => exact ⟨hattributes, fun h => nomatch h⟩
    | true =>
      dsimp only
      rw [if_pos rfl]
      exact setStartChar_waiting hattributes _ _ (hvalid rfl).1 (hvalid rfl).2

/-- An upload. -/
theorem download_settled (h : s.font.Settled s.sent) (d : Download) :
    (s.download d).1.font.Settled (s.download d).1.sent := by
  obtain ⟨hsettled, hwaiting⟩ := setParameters_spec h d
  unfold download
  generalize s.setParameters d = parameters at hsettled hwaiting ⊢
  obtain ⟨font, success⟩ := parameters
  cases success with
  | false => exact hsettled
  | true =>
    have hreceiving : ({ s with font } : FontSession).Receiving := .inl (hwaiting rfl)
    have hall := hreceiving.addAll d.data
    dsimp only
    rw [if_pos rfl]
    generalize ({ s with font } : FontSession).addAll d.data = result at hall ⊢
    obtain ⟨s', added⟩ := result
    cases added with
    | false => exact hall.settled
    | true =>
      dsimp only
      rw [if_pos rfl]
      cases hfinal : s'.font.finalizeSixelData with
      | none => exact hall.settled
      | some result =>
        obtain ⟨font', finalized⟩ := result
        rcases hall with hwaiting | hdrawing
        · unfold finalizeSixelData at hfinal
          rw [hwaiting.initialized] at hfinal
          obtain ⟨rfl, -⟩ := Prod.mk.inj (Option.some.inj hfinal)
          exact hwaiting.settled
        · exact hdrawing.finalize hfinal

theorem run_settled (uninitialized : FontBuffer) (downloads : List Download) :
    (run uninitialized downloads).font.Settled (run uninitialized downloads).sent := by
  have hall : ∀ (downloads : List Download) (s : FontSession), s.font.Settled s.sent →
      (downloads.foldl (fun s d => (s.download d).1) s).font.Settled
        (downloads.foldl (fun s d => (s.download d).1) s).sent := by
    intro downloads
    induction downloads with
    | nil => exact fun _ h => h
    | cons d rest ih => exact fun s h => ih _ (download_settled h d)
  refine hall downloads _ ⟨fun hvalid => absurd rfl hvalid, fun _ _ _ hdata => (nomatch hdata), fun st hst => ?_⟩
  cases hst

/-- The lines of the characters, as `GetBitPattern` has them. -/
lemma getBitPattern_line (f : FontBuffer) {c row : ℕ} (hc : c < maxChars) (hrow : row < f.fullHeight) :
    f.getBitPattern.getD (c * f.fullHeight + row) 0 = f.buffer (c * f.fullHeight + row) := by
  have hle := Nat.mul_le_mul_right f.fullHeight (Nat.succ_le_of_lt hc)
  rw [Nat.succ_mul] at hle
  have hlt : c * f.fullHeight + row < f.getBitPattern.length := by
    unfold getBitPattern
    rw [List.length_map, List.length_range]
    omega
  rw [List.getD_eq_getElem?_getD, List.getElem?_eq_getElem hlt, Option.getD_some]
  simp only [getBitPattern, List.getElem_map, List.getElem_range]

/-- **Uploads of soft fonts.**  After any uploads, finished or not: every store went to the lines of the character that
was sent; what was sent for a character is in its lines, clipped to the text width and the cell height and moved by the
text offset; and where the same was sent for two characters, in whatever uploads, their lines are the same. -/
theorem softFonts_drawn (uninitialized : FontBuffer) (downloads : List Download) :
    (∀ st ∈ (run uninitialized downloads).font.stores, st.Inside) ∧
    (∀ c < maxChars, ∀ data, (run uninitialized downloads).sent c = some data →
      ∀ row < (run uninitialized downloads).font.fullHeight, ∀ x < maxWidth,
        ((run uninitialized downloads).font.getBitPattern.getD
            (c * (run uninitialized downloads).font.fullHeight + row) 0).getMsbD x =
          (decide ((run uninitialized downloads).font.textOffset ≤ x) &&
            decide (x - (run uninitialized downloads).font.textOffset < (run uninitialized downloads).font.textWidth) &&
            drawn data 0 0 row (x - (run uninitialized downloads).font.textOffset))) ∧
    ∀ c < maxChars, ∀ c' < maxChars, ∀ data, (run uninitialized downloads).sent c = some data →
      (run uninitialized downloads).sent c' = some data → ∀ row < (run uninitialized downloads).font.fullHeight,
        (run uninitialized downloads).font.getBitPattern.getD
            (c * (run uninitialized downloads).font.fullHeight + row) 0 =
          (run uninitialized downloads).font.getBitPattern.getD
            (c' * (run uninitialized downloads).font.fullHeight + row) 0 := by
  have hsettled := run_settled uninitialized downloads
  generalize run uninitialized downloads = s at hsettled ⊢
  have hlines : ∀ c < maxChars, ∀ data, s.sent c = some data → ∀ row < s.font.fullHeight, ∀ x < maxWidth,
      (s.font.getBitPattern.getD (c * s.font.fullHeight + row) 0).getMsbD x =
        (decide (s.font.textOffset ≤ x) && decide (x - s.font.textOffset < s.font.textWidth) &&
          drawn data 0 0 row (x - s.font.textOffset)) := by
    intro c hc data hdata row hrow x hx
    rw [getBitPattern_line s.font hc hrow]
    exact hsettled.shows' c hc data hdata row hrow x hx
  refine ⟨hsettled.stores, hlines, fun c hc c' hc' data hdata hdata' row hrow => ?_⟩
  apply BitVec.eq_of_getMsbD_eq
  intro x hx
  rw [hlines c hc data hdata row hrow x hx, hlines c' hc' data hdata' row hrow x hx]

/-- An upload of one sixel for a character, to a font whose cells are declared as 7 by 10. -/
def oneSixel (startChar eraseControl : ℕ) : Download where
  fontNumber := 0
  startChar := some startChar
  eraseControl := eraseControl
  cellMatrix := 4
  fontSet := 0
  fontUsage := 0
  cellHeight := none
  charsetSize := 0
  data := [0x42, 0x40]

def blankFont : FontBuffer where
  attributes := ⟨0, 0, 0, 0, 0, 0⟩
  pending := ⟨0, 0, 0, 0, 0, 0⟩
  sizeDeclaredAsMatrix := false
  declaredWidth := 0
  declaredHeight := 0
  usedWidth := 0
  usedHeight := 0
  fullWidth := 0
  fullHeight := 0
  textWidth := 0
  textOffset := 0
  textCenteringHint := 0
  linesPerPage := 0
  columnsPerPage := 0
  isTextFont := false
  charsetIdInitialized := false
  charsetIdBuilder := {}
  startChar := 0
  lastChar := 0
  currentChar := 0
  buffer := fun _ => 0
  currentCharBuffer := 0
  bufferCleared := false
  sixelColumn := 0
  sixelRow := 0
  stores := []

/-- The first upload clears the buffer, the second one adds to the font. -/
theorem softFonts_drawn_twice :
    (run blankFont [oneSixel 1 0, oneSixel 2 1]).font.getBitPattern.getD
        (1 * (run blankFont [oneSixel 1 0, oneSixel 2 1]).font.fullHeight + 0) 0 =
      (run blankFont [oneSixel 1 0, oneSixel 2 1]).font.getBitPattern.getD
        (2 * (run blankFont [oneSixel 1 0, oneSixel 2 1]).font.fullHeight + 0) 0 :=
  (softFonts_drawn blankFont [oneSixel 1 0, oneSixel 2 1]).2.2 1 (by decide) 2 (by decide) [0x40] rfl rfl 0 (by decide)

end FontSession

end VT7.Adapter
