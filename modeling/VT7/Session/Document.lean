import Mathlib.Data.List.Pairwise
import Mathlib.Logic.Function.Basic
import VT7.Dotnet.Text

/-!
# The reply queue of the terminal document

While the terminal parses a block of output it answers queries (cursor position, device attributes).
The native document encodes every answer as UTF-8, cuts it into replies of at most 4096 bytes, stamps
each with the generation of the block that asked and with the next reply sequence, and keeps them
until the host drains the queue.

* `Document.queueReply` — one answer of the terminal;
* `Document.writeDocumentStream` — one block of output, during which the terminal gives any answers;
* `Document.drainReplies` — the host's loop over `readDocumentReply`.

What a write adds is said once (`Appends`): replies of the block's own origin, behind everything that
is queued and with larger sequences than everything stamped before.
-/

namespace VT7.Session

open VT7.Dotnet

/-- `VT7_TERMINAL_REPLY_BYTES`. -/
def terminalReplyBytes : ℕ := 4096
/-- The replies the queue holds. -/
def maximumReplies : ℕ := 64
/-- The bytes the queue holds. -/
def maximumReplyBytes : ℕ := 64 * 1024

/-! ### UTF-16 to UTF-8 -/

def isHighSurrogate (u : UInt16) : Bool := 0xd800 ≤ u.toNat && u.toNat ≤ 0xdbff
def isLowSurrogate (u : UInt16) : Bool := 0xdc00 ≤ u.toNat && u.toNat ≤ 0xdfff

/-- The characters of a UTF-16 string; `none` at a surrogate without its partner. -/
def utf16Characters : List UInt16 → Option (List Char)
  | [] => some []
  | [u] => if isHighSurrogate u || isLowSurrogate u then none else some [Char.ofNat u.toNat]
  | u :: v :: rest =>
    if isHighSurrogate u then
      if isLowSurrogate v then
        let code := 0x10000 + (u.toNat - 0xd800) * 0x400 + (v.toNat - 0xdc00)
        (utf16Characters rest).map (Char.ofNat code :: ·)
      else none
    else if isLowSurrogate u then none
    else (utf16Characters (v :: rest)).map (Char.ofNat u.toNat :: ·)

/-- `WideCharToMultiByte(CP_UTF8, WC_ERR_INVALID_CHARS, …)`: it refuses an unpaired surrogate, and a
result whose length is no `int`. -/
def wideCharToMultiByte (response : List UInt16) : Option Bytes :=
  (utf16Characters response).bind fun characters =>
    let encoded := characters.flatMap String.utf8EncodeChar
    if encoded.length < 2 ^ 31 then some encoded else none

/-! ### The document -/

structure Reply where
  origin : ℕ
  sequence : ℕ
  bytes : Bytes
deriving DecidableEq, Repr

/-- What `replyFailure` records. -/
inductive ReplyFailure
  /-- `E_UNEXPECTED`: an answer outside a write. -/
  | unexpected
  /-- The answer has no UTF-8 encoding. -/
  | encoding
  /-- `ERROR_BUFFER_OVERFLOW`. -/
  | overflow
deriving DecidableEq, Repr

/-- The fields of `TerminalDocument` that replies depend on. -/
structure Document where
  streamGeneration : ℕ := 0
  streamActive : Bool := false
  producerSequences : ℕ → Option ℕ := fun _ => none
  replies : List Reply := []
  replyBytes : ℕ := 0
  replySequence : ℕ := 0
  currentOrigin : ℕ := 0
  replyFailure : Option ReplyFailure := none

namespace Document

/-- The first failure of a stream is kept. -/
def fail (d : Document) (failure : ReplyFailure) : Document :=
  { d with replyFailure := some (d.replyFailure.getD failure) }

/-- `replies.emplace_back` with the counters. -/
def enqueue (d : Document) (bytes : Bytes) : Document :=
  { d with
    replySequence := d.replySequence + 1
    replyBytes := d.replyBytes + bytes.length
    replies := d.replies ++ [⟨d.currentOrigin, d.replySequence + 1, bytes⟩] }

/-- The loop of `QueueReply` over the encoded answer.  The pieces queued before an overflow stay. -/
def queuePieces : ℕ → Bytes → Document → Document
  | 0, _, d => d
  | fuel + 1, encoded, d =>
    if encoded = [] then d
    else
      let piece := encoded.take terminalReplyBytes
      if maximumReplies ≤ d.replies.length ∨ maximumReplyBytes < d.replyBytes + piece.length then
        d.fail .overflow
      else queuePieces fuel (encoded.drop terminalReplyBytes) (d.enqueue piece)

/-- `QueueReply`. -/
def queueReply (d : Document) (response : List UInt16) : Document :=
  if d.currentOrigin = 0 then d.fail .unexpected
  else match wideCharToMultiByte response with
    | none => d.fail .encoding
    | some encoded => queuePieces encoded.length encoded d

/-- `BeginDocumentStream`. -/
def beginDocumentStream (d : Document) (generation : ℕ) : Document :=
  { d with
    streamGeneration := generation
    streamActive := true
    producerSequences := fun _ => none
    replies := []
    replyBytes := 0
    replySequence := 0
    replyFailure := none }

/-- `EndDocumentStream`. -/
def endDocumentStream (d : Document) : Document := { d with streamActive := false }

/-- `WriteDocumentStream`, with the answers the terminal gives while it parses the block.  `intact`
says that the decoder and the terminal took the whole block.  The second component is success. -/
def writeDocumentStream (d : Document) (generation origin sequence : ℕ)
    (responses : List (List UInt16)) (intact : Bool) : Document × Bool :=
  if !d.streamActive || generation = 0 || generation ≠ d.streamGeneration || origin = 0 ||
      sequence = 0 then
    (d, false)
  else if (d.producerSequences origin).any (sequence ≤ ·) then (d, false)
  else
    let parsed := responses.foldl queueReply { d with currentOrigin := origin }
    -- `clearOrigin` runs on every way out
    let parsed := { parsed with currentOrigin := 0 }
    if !intact || parsed.replyFailure.isSome then (parsed, false)
    else
      ({ parsed with producerSequences := Function.update parsed.producerSequences origin sequence },
        true)

/-- `VT7_ReadDocumentReply`; `none` for `S_FALSE`. -/
def readDocumentReply (d : Document) : Option (Reply × Document) :=
  match d.replies with
  | [] => none
  | queued :: rest =>
    some (queued, { d with replyBytes := d.replyBytes - queued.bytes.length, replies := rest })

/-- The loop of `DrainReplies`. -/
def drainLoop : ℕ → Document → List Reply × Document
  | 0, d => ([], d)
  | fuel + 1, d =>
    match d.readDocumentReply with
    | none => ([], d)
    | some (reply, d') => (reply :: (drainLoop fuel d').1, (drainLoop fuel d').2)

/-- `DrainReplies`. -/
def drainReplies (d : Document) : List Reply × Document := drainLoop d.replies.length d

/-! ### What a write adds -/

/-- `d'` is `d` with replies of `origin` behind the queue, stamped in order after all before. -/
structure Appends (origin : ℕ) (d d' : Document) (added : List Reply) : Prop where
  replies : d'.replies = d.replies ++ added
  sorted : added.Pairwise (·.sequence < ·.sequence)
  above : ∀ r ∈ added, d.replySequence < r.sequence
  below : ∀ r ∈ added, r.sequence ≤ d'.replySequence
  origins : ∀ r ∈ added, r.origin = origin
  advances : d.replySequence ≤ d'.replySequence

variable {origin : ℕ} {d d' d'' : Document} {added more : List Reply}

theorem Appends.refl (origin : ℕ) (d : Document) : Appends origin d d [] where
  replies := by simp
  sorted := .nil
  above := by simp
  below := by simp
  origins := by simp
  advances := le_rfl

theorem Appends.trans (h : Appends origin d d' added) (h' : Appends origin d' d'' more) :
    Appends origin d d'' (added ++ more) where
  replies := by rw [h'.replies, h.replies, List.append_assoc]
  sorted := by
    refine List.pairwise_append.mpr ⟨h.sorted, h'.sorted, ?_⟩
    intro r hr q hq
    exact (h.below r hr).trans_lt (h'.above q hq)
  above := by
    intro r hr
    rcases List.mem_append.mp hr with hr | hr
    · exact h.above r hr
    · exact h.advances.trans_lt (h'.above r hr)
  below := by
    intro r hr
    rcases List.mem_append.mp hr with hr | hr
    · exact (h.below r hr).trans h'.advances
    · exact h'.below r hr
  origins := by
    intro r hr
    rcases List.mem_append.mp hr with hr | hr
    · exact h.origins r hr
    · exact h'.origins r hr
  advances := h.advances.trans h'.advances

/-- `Appends` looks at the queue and the reply sequence only. -/
theorem Appends.congr {e e' : Document} (h : Appends origin d d' added) (hq : e.replies = d.replies)
    (hs : e.replySequence = d.replySequence) (hq' : e'.replies = d'.replies)
    (hs' : e'.replySequence = d'.replySequence) : Appends origin e e' added where
  replies := by rw [hq', hq, h.replies]
  sorted := h.sorted
  above := by rw [hs]; exact h.above
  below := by rw [hs']; exact h.below
  origins := h.origins
  advances := by rw [hs, hs']; exact h.advances

theorem fail_appends (d : Document) (failure : ReplyFailure) :
    Appends origin d (d.fail failure) [] :=
  (Appends.refl origin d).congr rfl rfl rfl rfl

theorem enqueue_appends (d : Document) (bytes : Bytes) :
    Appends d.currentOrigin d (d.enqueue bytes) [⟨d.currentOrigin, d.replySequence + 1, bytes⟩] where
  replies := rfl
  sorted := List.pairwise_singleton _ _
  above := by simp
  below := by simp [enqueue]
  origins := by simp
  advances := Nat.le_succ _

/-- The loop keeps the origin of the write, so each round appends for the same producer. -/
theorem queuePieces_appends (fuel : ℕ) (encoded : Bytes) (d : Document) :
    (queuePieces fuel encoded d).currentOrigin = d.currentOrigin ∧
      ∃ added, Appends d.currentOrigin d (queuePieces fuel encoded d) added := by
  induction fuel generalizing encoded d with
  | zero => exact ⟨rfl, [], .refl _ d⟩
  | succ fuel ih =>
    unfold queuePieces
    split
    · exact ⟨rfl, [], .refl _ d⟩
    · dsimp only
      split
      · exact ⟨rfl, [], fail_appends d _⟩
      · obtain ⟨horigin, added, h⟩ := ih (encoded.drop terminalReplyBytes)
          (d.enqueue (encoded.take terminalReplyBytes))
        exact ⟨horigin, _, (enqueue_appends d _).trans h⟩

theorem queueReply_appends (d : Document) (response : List UInt16) :
    (d.queueReply response).currentOrigin = d.currentOrigin ∧
      ∃ added, Appends d.currentOrigin d (d.queueReply response) added := by
  unfold queueReply
  split
  · exact ⟨rfl, [], fail_appends d _⟩
  · cases wideCharToMultiByte response with
    | none => exact ⟨rfl, [], fail_appends d _⟩
    | some encoded => exact queuePieces_appends _ encoded d

theorem foldl_queueReply_appends (responses : List (List UInt16)) (d : Document) :
    ∃ added, Appends d.currentOrigin d (responses.foldl queueReply d) added := by
  induction responses generalizing d with
  | nil => exact ⟨[], .refl _ d⟩
  | cons response responses ih =>
    obtain ⟨horigin, added, h⟩ := queueReply_appends d response
    obtain ⟨more, h'⟩ := ih (d.queueReply response)
    rw [horigin] at h'
    exact ⟨added ++ more, h.trans h'⟩

/-- **What a write does to the queue**, whether it succeeds or not. -/
theorem writeDocumentStream_appends (d : Document) (generation origin sequence : ℕ)
    (responses : List (List UInt16)) (intact : Bool) :
    ∃ added, Appends origin d
      (d.writeDocumentStream generation origin sequence responses intact).1 added := by
  obtain ⟨added, h⟩ := foldl_queueReply_appends responses { d with currentOrigin := origin }
  unfold writeDocumentStream
  split
  · exact ⟨[], .refl origin d⟩
  · split
    · exact ⟨[], .refl origin d⟩
    · dsimp only
      split
      · exact ⟨added, h.congr rfl rfl rfl rfl⟩
      · exact ⟨added, h.congr rfl rfl rfl rfl⟩

/-! ### What a drain takes -/

theorem drainLoop_spec (fuel : ℕ) (d : Document) (hfuel : d.replies.length ≤ fuel) :
    (drainLoop fuel d).1 = d.replies ∧ (drainLoop fuel d).2.replies = [] ∧
      (drainLoop fuel d).2.replySequence = d.replySequence := by
  induction fuel generalizing d with
  | zero =>
    have hnil : d.replies = [] := List.length_eq_zero_iff.mp (Nat.le_zero.mp hfuel)
    exact ⟨hnil.symm, hnil, rfl⟩
  | succ fuel ih =>
    cases hq : d.replies with
    | nil => simp [drainLoop, readDocumentReply, hq]
    | cons queued rest =>
      obtain ⟨h₁, h₂, h₃⟩ := ih
        { d with replyBytes := d.replyBytes - queued.bytes.length, replies := rest }
        (by simpa [hq] using hfuel)
      simp [drainLoop, readDocumentReply, hq, h₁, h₂, h₃]

/-- **A drain takes the whole queue, in order**, and leaves the reply sequence. -/
theorem drainReplies_spec (d : Document) :
    d.drainReplies.1 = d.replies ∧ d.drainReplies.2.replies = [] ∧
      d.drainReplies.2.replySequence = d.replySequence :=
  drainLoop_spec _ d le_rfl

end Document

end VT7.Session
