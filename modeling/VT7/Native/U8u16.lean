import VT7.Lib.Utf8
import Mathlib.Algebra.Group.Nat.Defs
import Mathlib.Tactic.SplitIfs

/-!
# UTF-8 in pieces

`til::u8u16` with a state: the bytes of a code point that the end of the input cuts stay in the state
until the next call.  `MultiByteToWideChar` is a parameter, the text that it makes of some bytes.
-/

namespace VT7.Native

open VT7.Lib.Utf8

/-- The results of the decoder and of the stream; `caught` is the code of an exception of the writer. -/
inductive HResult where
  | ok
  | abort
  | unexpected
  | invalidState
  | noUnicodeTranslation
  | caught (code : ℕ)
deriving DecidableEq

/-- `INT_MAX`. -/
def intMax : ℕ := 2 ^ 31 - 1

/-- `til::u8state`: the first `have` bytes of `partials`, and `want`. -/
structure U8State where
  partials : List UInt8 := []
  want : ℕ := 0
deriving DecidableEq

/-- The answer of `MultiByteToWideChar(CP_UTF8, 0, ..)`; no units mean an error.  With no room it answers
with the length it needs and writes nothing, so that the text stays as `resize` filled it. -/
def multiByteToWideChar (convert : List UInt8 → List UInt16) (bytes : List UInt8) (capa16 : ℕ) : List UInt16 :=
  if capa16 = 0 then .replicate (convert bytes).length 0
  else if capa16 < (convert bytes).length then []
  else convert bytes

/-- The length of a code point by the upper five bits of its first byte. -/
def lengths : List ℕ :=
  [1, 1, 1, 1, 1, 1, 1, 1, 1, 1, 1, 1, 1, 1, 1, 1, 0, 0, 0, 0, 0, 0, 0, 0, 2, 2, 2, 2, 3, 3, 4, 0]

def codePointLen (b : UInt8) : ℕ := lengths.getD (b.toNat / 8) 0

def isContinuation (b : UInt8) : Bool := b &&& 0xc0 == 0x80

/-- The scan from the last byte back: the bytes in front of `backIter`, the nearest one first, and the
ones from there. -/
def backScan : List UInt8 → List UInt8 → List UInt8
  | [], sequence => sequence
  | [b], sequence => b :: sequence
  | b :: b' :: front, sequence =>
    if isContinuation b then backScan (b' :: front) (b :: sequence) else b :: sequence

/-- The bytes from the last one back to the first one that is no continuation byte. -/
def lastSequence (bytes : List UInt8) : List UInt8 := backScan bytes.reverse []

/-- The bytes that are converted now, and the state behind them. -/
def holdBack (bytes : List UInt8) (state : U8State) : List UInt8 × U8State :=
  let sequence := lastSequence bytes
  let codePointLen := codePointLen (sequence.headD 0)
  if sequence.length < codePointLen then
    (bytes.take (bytes.length - sequence.length), ⟨sequence, codePointLen - sequence.length⟩)
  else (bytes, state)

section Convert

variable (convert : List UInt8 → List UInt16)

/-- The input behind the code point that the state has held. -/
def convertRest (text : List UInt16) (bytes : List UInt8) (capa16 : ℕ) (state : U8State) :
    Except HResult (List UInt16 × U8State) :=
  if bytes = [] then .ok (text, state)
  else
    let (whole, state) := holdBack bytes state
    if whole = [] then .ok (text, state)
    else
      let conv := multiByteToWideChar convert whole capa16
      if conv = [] then .error .unexpected else .ok (text ++ conv, state)

/-- `til::u8u16` with a state.  Behind an error the caller has no use for the text and the state. -/
def u8u16 (bytes : List UInt8) (state : U8State) : Except HResult (List UInt16 × U8State) :=
  if bytes = [] then .ok ([], state)
  else if intMax < bytes.length + state.partials.length then .error .abort
  else
    let capa16 := bytes.length + state.partials.length
    if state.partials = [] then convertRest convert [] bytes capa16 state
    else
      let copyable := min state.want bytes.length
      let partials := state.partials ++ bytes.take copyable
      if state.want - copyable ≠ 0 then .ok ([], ⟨partials, state.want - copyable⟩)
      else
        let conv := multiByteToWideChar convert partials capa16
        if conv = [] then .error .unexpected
        else convertRest convert conv (bytes.drop copyable) (capa16 - conv.length) ⟨[], state.want - copyable⟩

end Convert

/-! ### Lead bytes and continuation bytes -/

lemma isContinuation_iff (b : UInt8) : isContinuation b = true ↔ IsTail b := by
  obtain ⟨⟨b⟩⟩ := b
  revert b
  decide +kernel

/-- A lead byte asks for no more bytes than the table says. -/
lemma owes_lead_le (b : UInt8) : owes (lead b) ≤ codePointLen b - 1 := by
  obtain ⟨⟨b⟩⟩ := b
  revert b
  decide +kernel

lemma codePointLen_eq (b : UInt8) : codePointLen b =
    if b.toNat < 0x80 then 1 else if b.toNat < 0xc0 then 0 else if b.toNat < 0xe0 then 2
    else if b.toNat < 0xf0 then 3 else if b.toNat < 0xf8 then 4 else 0 := by
  obtain ⟨⟨b⟩⟩ := b
  revert b
  decide +kernel

lemma codePointLen_of_tail {b : UInt8} (h : IsTail b) : codePointLen b = 0 := by
  obtain ⟨hlow, hhigh⟩ := h
  rw [codePointLen_eq, if_neg (by omega), if_pos (by omega)]

lemma codePointLen_le (b : UInt8) : codePointLen b ≤ 4 := by
  rw [codePointLen_eq]
  split_ifs <;> omega

/-- The bytes of a character: one lead byte, and as many continuation bytes as the table says. -/
lemma utf8EncodeChar_eq (c : Char) : ∃ b tails, String.utf8EncodeChar c = b :: tails ∧ ¬IsTail b ∧
    (∀ b ∈ tails, IsTail b) ∧ codePointLen b = tails.length + 1 := by
  have hvalid := toNat_char_cases c
  have hsize : UInt8.size = 0x100 := rfl
  have htail : ∀ n, IsTail (UInt8.ofNat (n % 0x40 + 0x80)) := by
    intro n
    unfold IsTail
    rw [toNat_tail]
    omega
  unfold String.utf8EncodeChar
  rw [show c.val.toNat = c.toNat from rfl]
  generalize c.toNat = n at hvalid
  dsimp only
  split
  · have hb : (UInt8.ofNat n).toNat = n := UInt8.toNat_ofNat_of_lt' (by omega)
    refine ⟨_, [], rfl, ?_, List.forall_mem_nil _, ?_⟩
    · unfold IsTail
      omega
    · rw [codePointLen_eq, hb, if_pos (by omega)]
      rfl
  split
  · have hb : (UInt8.ofNat (n / 64 % 0x20 + 0xc0)).toNat = n / 64 % 0x20 + 0xc0 :=
      UInt8.toNat_ofNat_of_lt' (by omega)
    refine ⟨_, _, rfl, ?_, ?_, ?_⟩
    · unfold IsTail
      omega
    · exact List.forall_mem_singleton.mpr (htail _)
    · rw [codePointLen_eq, hb, if_neg (by omega), if_neg (by omega), if_pos (by omega)]
      rfl
  split
  · have hb : (UInt8.ofNat (n / 4096 % 0x10 + 0xe0)).toNat = n / 4096 % 0x10 + 0xe0 :=
      UInt8.toNat_ofNat_of_lt' (by omega)
    refine ⟨_, _, rfl, ?_, ?_, ?_⟩
    · unfold IsTail
      omega
    · exact List.forall_mem_cons.mpr ⟨htail _, List.forall_mem_singleton.mpr (htail _)⟩
    · rw [codePointLen_eq, hb, if_neg (by omega), if_neg (by omega), if_neg (by omega), if_pos (by omega)]
      rfl
  · have hb : (UInt8.ofNat (n / 262144 % 0x08 + 0xf0)).toNat = n / 262144 % 0x08 + 0xf0 :=
      UInt8.toNat_ofNat_of_lt' (by omega)
    refine ⟨_, _, rfl, ?_, ?_, ?_⟩
    · unfold IsTail
      omega
    · exact List.forall_mem_cons.mpr ⟨htail _, List.forall_mem_cons.mpr
        ⟨htail _, List.forall_mem_singleton.mpr (htail _)⟩⟩
    · rw [codePointLen_eq, hb, if_neg (by omega), if_neg (by omega), if_neg (by omega), if_neg (by omega),
        if_pos (by omega)]
      rfl

/-! ### The scan from the end -/

lemma backScan_tails {tails : List UInt8} (h : ∀ b ∈ tails, IsTail b) (sequence : List UInt8) :
    backScan tails sequence = tails.reverse ++ sequence := by
  induction tails generalizing sequence with
  | nil => rfl
  | cons b tails ih =>
    have hb := (isContinuation_iff b).mpr (h b List.mem_cons_self)
    have hrest := ih (fun b' hb' => h b' (List.mem_cons_of_mem _ hb')) (b :: sequence)
    cases tails with
    | nil => rfl
    | cons b' tails =>
      rw [backScan, if_pos hb, hrest, @List.reverse_cons _ b, List.append_assoc]
      rfl

lemma backScan_lead {tails : List UInt8} (h : ∀ b ∈ tails, IsTail b) {b : UInt8} (hb : ¬IsTail b)
    (front sequence : List UInt8) :
    backScan (tails ++ b :: front) sequence = b :: (tails.reverse ++ sequence) := by
  induction tails generalizing sequence with
  | nil =>
    have hcont : ¬isContinuation b = true := mt (isContinuation_iff b).mp hb
    cases front with
    | nil => rfl
    | cons b' front => exact if_neg hcont
  | cons c tails ih =>
    have hc := (isContinuation_iff c).mpr (h c List.mem_cons_self)
    have hrest := ih (fun b' hb' => h b' (List.mem_cons_of_mem _ hb')) (c :: sequence)
    obtain ⟨d, rest, hd⟩ : ∃ d rest, tails ++ b :: front = d :: rest := by
      cases tails with
      | nil => exact ⟨b, front, rfl⟩
      | cons d tails => exact ⟨d, tails ++ b :: front, rfl⟩
    rw [List.cons_append, hd, backScan, if_pos hc, ← hd, hrest, List.reverse_cons, List.append_assoc]
    rfl

lemma lastSequence_tails {tails : List UInt8} (h : ∀ b ∈ tails, IsTail b) : lastSequence tails = tails := by
  unfold lastSequence
  rw [backScan_tails (fun b hb => h b (List.mem_reverse.mp hb)), List.reverse_reverse, List.append_nil]

lemma lastSequence_lead {tails : List UInt8} (h : ∀ b ∈ tails, IsTail b) {b : UInt8} (hb : ¬IsTail b)
    (front : List UInt8) : lastSequence (front ++ b :: tails) = b :: tails := by
  unfold lastSequence
  have hreverse : (front ++ b :: tails).reverse = tails.reverse ++ b :: front.reverse := by simp
  rw [hreverse, backScan_lead (fun b hb => h b (List.mem_reverse.mp hb)) hb, List.reverse_reverse, List.append_nil]

/-- Some bytes are continuation bytes, or they have a last one that is none. -/
lemma tails_or_lead (bytes : List UInt8) :
    (∀ b ∈ bytes, IsTail b) ∨ ∃ front b tails, bytes = front ++ b :: tails ∧ ¬IsTail b ∧ ∀ b ∈ tails, IsTail b := by
  induction bytes with
  | nil => exact .inl fun _ h => absurd h List.not_mem_nil
  | cons b bytes ih =>
    rcases ih with hall | ⟨front, c, tails, rfl, hc, htails⟩
    · by_cases hb : IsTail b
      · exact .inl (List.forall_mem_cons.mpr ⟨hb, hall⟩)
      · exact .inr ⟨[], b, bytes, rfl, hb, hall⟩
    · exact .inr ⟨b :: front, c, tails, rfl, hc, htails⟩

lemma holdBack_tails {tails : List UInt8} (hne : tails ≠ []) (h : ∀ b ∈ tails, IsTail b) (state : U8State) :
    holdBack tails state = (tails, state) := by
  unfold holdBack
  dsimp only
  rw [lastSequence_tails h]
  cases tails with
  | nil => exact absurd rfl hne
  | cons b tails =>
    have hlen : codePointLen ((b :: tails).headD 0) = 0 := codePointLen_of_tail (h b List.mem_cons_self)
    rw [hlen, if_neg (Nat.not_lt_zero _)]

lemma holdBack_lead {tails : List UInt8} (h : ∀ b ∈ tails, IsTail b) {b : UInt8} (hb : ¬IsTail b) (front : List UInt8)
    (state : U8State) : holdBack (front ++ b :: tails) state =
      if tails.length + 1 < codePointLen b then (front, ⟨b :: tails, codePointLen b - (tails.length + 1)⟩)
      else (front ++ b :: tails, state) := by
  unfold holdBack
  dsimp only
  rw [lastSequence_lead h hb]
  have hlen : (front ++ b :: tails).length - (b :: tails).length = front.length := by simp
  rw [hlen, List.take_left]
  rfl

/-! ### One call -/

/-- What the rest of an input leaves, also where there is none. -/
def restOf (bytes : List UInt8) : List UInt8 × U8State := if bytes = [] then ([], {}) else holdBack bytes {}

lemma restOf_nil : restOf [] = ([], {}) := rfl

lemma restOf_of_ne {bytes : List UInt8} (h : bytes ≠ []) : restOf bytes = holdBack bytes {} := if_neg h

/-- The bytes are converted now or held back. -/
lemma restOf_append (bytes : List UInt8) : (restOf bytes).1 ++ (restOf bytes).2.partials = bytes := by
  rcases tails_or_lead bytes with htails | ⟨front, b, tails, rfl, hb, htails⟩
  · cases bytes with
    | nil => rfl
    | cons b bytes =>
      rw [restOf_of_ne (List.cons_ne_nil _ _), holdBack_tails (List.cons_ne_nil _ _) htails]
      exact List.append_nil _
  · rw [restOf_of_ne (by simp), holdBack_lead htails hb]
    split
    · rfl
    · exact List.append_nil _

section Calls

variable {convert : List UInt8 → List UInt16} {bytes : List UInt8} {state : U8State}

/-- The piece has a text, and there is room for it. -/
structure Converts (convert : List UInt8 → List UInt16) (piece : List UInt8) : Prop where
  length_le : (convert piece).length ≤ piece.length
  ne_nil : piece ≠ [] → convert piece ≠ []

lemma Converts.nil (h : Converts convert []) : convert [] = [] := List.eq_nil_of_length_eq_zero (Nat.le_zero.mp h.length_le)

lemma Converts.multiByteToWideChar_eq {piece : List UInt8} (h : Converts convert piece) (hne : piece ≠ []) {capa16 : ℕ}
    (hcapa : piece.length ≤ capa16) : multiByteToWideChar convert piece capa16 = convert piece := by
  have hlen := h.length_le
  have hpos := List.length_pos_of_ne_nil hne
  unfold multiByteToWideChar
  rw [if_neg (by omega), if_neg (by omega)]

lemma convertRest_eq (text : List UInt16) {capa16 : ℕ} (h : Converts convert (restOf bytes).1)
    (hcapa : bytes.length ≤ capa16) :
    convertRest convert text bytes capa16 {} = .ok (text ++ convert (restOf bytes).1, (restOf bytes).2) := by
  unfold convertRest
  by_cases hbytes : bytes = []
  · subst hbytes
    rw [if_pos rfl]
    have hnil : convert (restOf []).1 = [] := h.nil
    rw [hnil, List.append_nil, restOf_nil]
  · have hlen := congrArg List.length (restOf_append bytes)
    rw [restOf_of_ne hbytes, List.length_append] at hlen
    rw [restOf_of_ne hbytes] at h ⊢
    rw [if_neg hbytes]
    dsimp only
    by_cases hwhole : (holdBack bytes {}).1 = []
    · rw [hwhole] at h
      rw [if_pos hwhole, hwhole, h.nil, List.append_nil]
    · rw [if_neg hwhole, h.multiByteToWideChar_eq hwhole (by omega), if_neg (h.ne_nil hwhole)]

lemma u8u16_fresh (hne : bytes ≠ []) (hmax : bytes.length ≤ intMax) (h : Converts convert (restOf bytes).1) :
    u8u16 convert bytes {} = .ok (convert (restOf bytes).1, (restOf bytes).2) := by
  unfold u8u16
  rw [if_neg hne, if_neg (by simpa using hmax)]
  dsimp only
  rw [if_pos rfl, convertRest_eq [] h (Nat.le_add_right _ _), List.nil_append]

lemma u8u16_wait (hne : bytes ≠ []) (hmax : bytes.length + state.partials.length ≤ intMax) (hheld : state.partials ≠ [])
    (hwant : bytes.length < state.want) :
    u8u16 convert bytes state = .ok ([], ⟨state.partials ++ bytes, state.want - bytes.length⟩) := by
  unfold u8u16
  rw [if_neg hne, if_neg (by omega)]
  dsimp only
  rw [if_neg hheld, Nat.min_eq_right (by omega), if_pos (by omega), List.take_length]

lemma u8u16_complete (hne : bytes ≠ []) (hmax : bytes.length + state.partials.length ≤ intMax)
    (hheld : state.partials ≠ []) (hwant : state.want ≤ bytes.length)
    (hpiece : Converts convert (state.partials ++ bytes.take state.want))
    (hrest : Converts convert (restOf (bytes.drop state.want)).1) :
    u8u16 convert bytes state = .ok (convert (state.partials ++ bytes.take state.want) ++
      convert (restOf (bytes.drop state.want)).1, (restOf (bytes.drop state.want)).2) := by
  have hpieceNe : state.partials ++ bytes.take state.want ≠ [] := List.append_ne_nil_of_left_ne_nil hheld _
  have hlen : (state.partials ++ bytes.take state.want).length = state.partials.length + state.want := by
    rw [List.length_append, List.length_take, Nat.min_eq_left hwant]
  have hpieceLen := hpiece.length_le
  unfold u8u16
  rw [if_neg hne, if_neg (by omega)]
  dsimp only
  rw [if_neg hheld, Nat.min_eq_left hwant, Nat.sub_self, if_neg (by omega),
    hpiece.multiByteToWideChar_eq hpieceNe (by omega), if_neg (hpiece.ne_nil hpieceNe)]
  refine convertRest_eq _ hrest ?_
  rw [List.length_drop]
  omega

lemma u8u16_abort (hne : bytes ≠ []) (hmax : intMax < bytes.length + state.partials.length) :
    u8u16 convert bytes state = .error .abort := by
  unfold u8u16
  rw [if_neg hne, if_pos hmax]

end Calls

end VT7.Native
