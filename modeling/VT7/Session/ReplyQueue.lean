import Mathlib.Algebra.BigOperators.Group.List.Basic
import Mathlib.Algebra.GroupWithZero.Nat
import VT7.Session.Document

/-!
# The reply queue in every run

The document is begun, written to and read from in any order.  Beside it a run keeps the replies that have been read out
of the current stream and the answers that the terminal has given in it.  The counters are those of the queue
(`Sound`), the answers are in the replies byte for byte as long as nothing has failed (`Complete`), and a failure lasts
as long as its stream (`replies_run`).
-/

namespace VT7.Session

open VT7.Dotnet

/-- The bytes of the replies, each with the origin it is sent to. -/
def tagged (replies : List Reply) : List (ℕ × UInt8) := replies.flatMap fun reply => reply.bytes.map (reply.origin, ·)

/-- An answer of the terminal, with the origin of the write that was parsed. -/
structure TerminalAnswer where
  origin : ℕ
  response : List UInt16

/-- The UTF-8 bytes of the answer with their origin, if it has an encoding. -/
def TerminalAnswer.encoded (answer : TerminalAnswer) : Option (List (ℕ × UInt8)) :=
  (wideCharToMultiByte answer.response).map fun bytes => bytes.map (answer.origin, ·)

@[simp]
theorem tagged_append (first second : List Reply) : tagged (first ++ second) = tagged first ++ tagged second :=
  List.flatMap_append

namespace Document

/-! ### The counters -/

/-- **The counters are those of the queue**, when the replies `out` have been read. -/
structure Sound (out : List Reply) (d : Document) : Prop where
  few : d.replies.length ≤ maximumReplies
  bytes : d.replyBytes = (d.replies.map (·.bytes.length)).sum
  bounded : d.replyBytes ≤ maximumReplyBytes
  sizes : ∀ reply ∈ d.replies, 1 ≤ reply.bytes.length ∧ reply.bytes.length ≤ terminalReplyBytes
  sequences : (out ++ d.replies).map (·.sequence) = List.range' 1 (out.length + d.replies.length)
  stamp : d.replySequence = out.length + d.replies.length

variable {out : List Reply} {d : Document}

theorem Sound.congr {e : Document} (h : Sound out d) (hreplies : e.replies = d.replies)
    (hbytes : e.replyBytes = d.replyBytes) (hstamp : e.replySequence = d.replySequence) : Sound out e where
  few := hreplies ▸ h.few
  bytes := by rw [hbytes, hreplies, h.bytes]
  bounded := hbytes ▸ h.bounded
  sizes := hreplies ▸ h.sizes
  sequences := hreplies ▸ h.sequences
  stamp := by rw [hstamp, hreplies, h.stamp]

theorem enqueue_sound (h : Sound out d) {piece : Bytes} (hne : piece ≠ []) (hpiece : piece.length ≤ terminalReplyBytes)
    (hfew : d.replies.length < maximumReplies) (hroom : d.replyBytes + piece.length ≤ maximumReplyBytes) :
    Sound out (d.enqueue piece) where
  few := by
    simp only [enqueue, List.length_append, List.length_singleton]
    omega
  bytes := by simp [enqueue, h.bytes]
  bounded := hroom
  sizes := by
    intro reply hreply
    rcases List.mem_append.mp hreply with hreply | hreply
    · exact h.sizes reply hreply
    · obtain rfl := List.mem_singleton.mp hreply
      exact ⟨List.length_pos_iff.mpr hne, hpiece⟩
  sequences := by
    simp only [enqueue, ← List.append_assoc, List.map_append, List.map_cons, List.map_nil, List.length_append,
      List.length_singleton, ← Nat.add_assoc]
    rw [← List.map_append, h.sequences, List.range'_concat, h.stamp]
    simp [Nat.add_comm]
  stamp := by
    simp only [enqueue, List.length_append, List.length_singleton, h.stamp]
    omega

/-- **The loop of `QueueReply` keeps the counters**, also when it stops midway. -/
theorem queuePieces_sound (fuel : ℕ) (encoded : Bytes) (h : Sound out d) : Sound out (queuePieces fuel encoded d) := by
  induction fuel generalizing encoded d with
  | zero => exact h
  | succ fuel ih =>
    unfold queuePieces
    split_ifs with hnil
    · exact h
    · simp only
      split_ifs with hfull
      · exact h.congr rfl rfl rfl
      · rw [not_or, not_le, not_lt] at hfull
        refine ih _ (enqueue_sound h ?_ (List.length_take_le _ _) hfull.1 hfull.2)
        rw [Ne, List.take_eq_nil_iff]
        exact fun h => h.elim (by decide) hnil

theorem queueReply_sound (h : Sound out d) (response : List UInt16) : Sound out (d.queueReply response) := by
  unfold queueReply
  split
  · exact h.congr rfl rfl rfl
  · split
    · exact h.congr rfl rfl rfl
    · exact queuePieces_sound _ _ h

theorem foldl_queueReply_sound (h : Sound out d) (responses : List (List UInt16)) :
    Sound out (responses.foldl queueReply d) := by
  induction responses generalizing d with
  | nil => exact h
  | cons response responses ih => exact ih (queueReply_sound h response)

theorem writeDocumentStream_sound (h : Sound out d) (generation origin sequence : ℕ) (responses : List (List UInt16))
    (intact : Bool) : Sound out (d.writeDocumentStream generation origin sequence responses intact).1 := by
  have hstart : Sound out { d with currentOrigin := origin } := h.congr rfl rfl rfl
  have hparsed := foldl_queueReply_sound hstart responses
  unfold writeDocumentStream
  split
  · exact h
  · split
    · exact h
    · simp only
      split
      · exact hparsed.congr rfl rfl rfl
      · exact hparsed.congr rfl rfl rfl

/-- **A reply is read out** with the number it was given, and the counter goes down by its size. -/
theorem readDocumentReply_sound (h : Sound out d) {reply : Reply} {d' : Document}
    (hread : d.readDocumentReply = some (reply, d')) :
    Sound (out ++ [reply]) d' ∧ d.replies = reply :: d'.replies ∧ reply.bytes.length ≤ d.replyBytes ∧
      d'.replyFailure = d.replyFailure := by
  unfold readDocumentReply at hread
  cases hreplies : d.replies with
  | nil => simp [hreplies] at hread
  | cons queued rest =>
    simp only [hreplies, Option.some.injEq, Prod.mk.injEq] at hread
    obtain ⟨rfl, rfl⟩ := hread
    have hbytes := h.bytes
    rw [hreplies, List.map_cons, List.sum_cons] at hbytes
    have hfew := h.few
    have hsequences := h.sequences
    have hstamp := h.stamp
    rw [hreplies, List.length_cons] at hfew hsequences hstamp
    refine ⟨⟨?_, ?_, le_trans (Nat.sub_le _ _) h.bounded, fun reply hreply => ?_, ?_, ?_⟩, rfl, by omega, rfl⟩
    · simp only
      omega
    · simp only
      omega
    · exact h.sizes reply (hreplies ▸ List.mem_cons_of_mem _ hreply)
    · rw [List.append_assoc, List.singleton_append, hsequences, List.length_append, List.length_singleton]
      congr 1
      simp only
      omega
    · simp only [hstamp, List.length_append, List.length_singleton]
      omega

/-! ### The bytes -/

/-- What has been read out and what is queued is the UTF-8 encoding of the answers. -/
def Complete (out : List Reply) (answers : List TerminalAnswer) (d : Document) : Prop :=
  (∀ answer ∈ answers, answer.encoded.isSome) ∧
    tagged (out ++ d.replies) = answers.flatMap fun answer => answer.encoded.getD []

/-- Nothing is lost or added between the two documents unless something fails. -/
structure Adds (d d' : Document) (bytes : List (ℕ × UInt8)) : Prop where
  origin : d'.currentOrigin = d.currentOrigin
  failure : d'.replyFailure = none → d.replyFailure = none
  replies : d'.replyFailure = none → tagged d'.replies = tagged d.replies ++ bytes

theorem fail_adds (d : Document) (failure : ReplyFailure) (bytes : List (ℕ × UInt8)) : Adds d (d.fail failure) bytes :=
  ⟨rfl, fun h => (nomatch h), fun h => nomatch h⟩

theorem queuePieces_adds {fuel : ℕ} {encoded : Bytes} (hfuel : encoded.length ≤ fuel) (d : Document) :
    Adds d (queuePieces fuel encoded d) (encoded.map (d.currentOrigin, ·)) := by
  induction fuel generalizing encoded d with
  | zero =>
    obtain rfl : encoded = [] := List.length_eq_zero_iff.mp (Nat.le_zero.mp hfuel)
    exact ⟨rfl, id, fun _ => (List.append_nil _).symm⟩
  | succ fuel ih =>
    unfold queuePieces
    split_ifs with hnil
    · subst hnil
      exact ⟨rfl, id, fun _ => (List.append_nil _).symm⟩
    · simp only
      split_ifs with hfull
      · exact fail_adds d _ _
      · have hrest := @ih (encoded.drop terminalReplyBytes) (by
          have := List.length_pos_iff.mpr hnil
          rw [List.length_drop, terminalReplyBytes]
          omega) (d.enqueue (encoded.take terminalReplyBytes))
        refine ⟨hrest.origin, hrest.failure, fun hnone => (hrest.replies hnone).trans ?_⟩
        have hqueued : tagged (d.enqueue (encoded.take terminalReplyBytes)).replies =
            tagged d.replies ++ (encoded.take terminalReplyBytes).map (d.currentOrigin, ·) := by
          simp [enqueue, tagged]
        rw [hqueued, List.append_assoc]
        have hparts := congrArg (List.map (d.currentOrigin, ·)) (List.take_append_drop terminalReplyBytes encoded)
        rw [List.map_append] at hparts
        exact congrArg _ hparts

theorem queueReply_adds (horigin : d.currentOrigin ≠ 0) (response : List UInt16) :
    Adds d (d.queueReply response) ((TerminalAnswer.mk d.currentOrigin response).encoded.getD []) ∧
      ((d.queueReply response).replyFailure = none → (TerminalAnswer.mk d.currentOrigin response).encoded.isSome) := by
  unfold queueReply TerminalAnswer.encoded
  rw [if_neg horigin]
  cases hencoded : wideCharToMultiByte response with
  | none => exact ⟨fail_adds d _ _, fun h => nomatch h⟩
  | some encoded => exact ⟨queuePieces_adds le_rfl d, fun _ => rfl⟩

theorem foldl_queueReply_complete {answers : List TerminalAnswer} (horigin : d.currentOrigin ≠ 0)
    (h : d.replyFailure = none → Complete out answers d) (responses : List (List UInt16))
    (hnone : (responses.foldl queueReply d).replyFailure = none) :
    Complete out (answers ++ responses.map (⟨d.currentOrigin, ·⟩)) (responses.foldl queueReply d) := by
  induction responses generalizing d answers with
  | nil =>
    rw [List.map_nil, List.append_nil]
    exact h hnone
  | cons response responses ih =>
    obtain ⟨hadds, hsome⟩ := queueReply_adds horigin response
    have hnext := @ih (d.queueReply response) (answers ++ [⟨d.currentOrigin, response⟩]) (hadds.origin ▸ horigin) (by
      intro hnone
      obtain ⟨hall, hbytes⟩ := h (hadds.failure hnone)
      constructor
      · intro answer hanswer
        rcases List.mem_append.mp hanswer with hanswer | hanswer
        · exact hall answer hanswer
        · obtain rfl := List.mem_singleton.mp hanswer
          exact hsome hnone
      · rw [tagged_append, hadds.replies hnone, ← List.append_assoc, ← tagged_append, hbytes, List.flatMap_append,
          List.flatMap_singleton]) hnone
    rw [hadds.origin, List.append_assoc] at hnext
    exact hnext

/-- A failure stays while the terminal goes on answering. -/
theorem foldl_queueReply_failure (horigin : d.currentOrigin ≠ 0) (responses : List (List UInt16))
    (hnone : (responses.foldl queueReply d).replyFailure = none) : d.replyFailure = none := by
  induction responses generalizing d with
  | nil => exact hnone
  | cons response responses ih =>
    have hadds := (queueReply_adds horigin response).1
    exact hadds.failure (ih (hadds.origin ▸ horigin) hnone)

/-- The first checks of `WriteDocumentStream`. -/
def admits (d : Document) (generation origin sequence : ℕ) : Bool :=
  !(!d.streamActive || generation = 0 || generation ≠ d.streamGeneration || origin = 0 || sequence = 0) &&
    !(d.producerSequences origin).any (sequence ≤ ·)

/-- `WriteDocumentStream` behind its checks. -/
theorem writeDocumentStream_eq (d : Document) (generation origin sequence : ℕ) (responses : List (List UInt16))
    (intact : Bool) :
    let parsed := responses.foldl queueReply { d with currentOrigin := origin }
    let result := d.writeDocumentStream generation origin sequence responses intact
    (d.admits generation origin sequence = false ∧ result = (d, false)) ∨
      d.admits generation origin sequence = true ∧ origin ≠ 0 ∧ result.1.replies = parsed.replies ∧
        result.1.replyFailure = parsed.replyFailure ∧ (parsed.replyFailure ≠ none → result.2 = false) := by
  intro parsed result
  show _ ∨ _ ∧ _ ∧ (d.writeDocumentStream _ _ _ _ _).1.replies = _ ∧ (d.writeDocumentStream _ _ _ _ _).1.replyFailure = _ ∧
    (_ → (d.writeDocumentStream _ _ _ _ _).2 = false)
  unfold admits writeDocumentStream
  by_cases hchecks : (!d.streamActive || generation = 0 || generation ≠ d.streamGeneration || origin = 0 || sequence = 0) = true
  · left
    refine ⟨by rw [hchecks]; rfl, ?_⟩
    show d.writeDocumentStream _ _ _ _ _ = _
    unfold writeDocumentStream
    rw [if_pos hchecks]
  · by_cases hold : (d.producerSequences origin).any (sequence ≤ ·) = true
    · left
      refine ⟨by rw [hold, Bool.not_true, Bool.and_false], ?_⟩
      show d.writeDocumentStream _ _ _ _ _ = _
      unfold writeDocumentStream
      rw [if_neg hchecks, if_pos hold]
    · right
      rw [if_neg hchecks, if_neg hold]
      have horigin : origin ≠ 0 := by
        rintro rfl
        simp at hchecks
      refine ⟨by rw [Bool.eq_false_of_not_eq_true hchecks, Bool.eq_false_of_not_eq_true hold]; rfl, horigin, ?_⟩
      simp only
      split_ifs with hfailed
      · exact ⟨rfl, rfl, fun _ => rfl⟩
      · refine ⟨rfl, rfl, fun hfailure => absurd ?_ hfailed⟩
        rw [Option.ne_none_iff_isSome] at hfailure
        simp [parsed, hfailure]

end Document

/-! ### Runs -/

/-- What happens to a document. -/
inductive ReplyEvent
  | begin (generation : ℕ)
  | write (generation origin sequence : ℕ) (responses : List (List UInt16)) (intact : Bool)
  | finish
  | read

structure ReplyRun where
  document : Document
  /-- The replies of the current stream that have been read out. -/
  readOut : List Reply
  /-- The answers of the terminal in the current stream. -/
  answers : List TerminalAnswer

namespace ReplyRun

open Document

/-- A new document. -/
def start : ReplyRun := ⟨{}, [], []⟩

/-- **A step of the run.**  A stream of generation 0 is refused. -/
def step (s : ReplyRun) : ReplyEvent → ReplyRun
  | .begin generation => if generation = 0 then s else ⟨s.document.beginDocumentStream generation, [], []⟩
  | .write generation origin sequence responses intact =>
    { s with
      document := (s.document.writeDocumentStream generation origin sequence responses intact).1
      answers :=
        if s.document.admits generation origin sequence then s.answers ++ responses.map (⟨origin, ·⟩) else s.answers }
  | .finish => { s with document := s.document.endDocumentStream }
  | .read =>
    match s.document.readDocumentReply with
    | some (reply, document) => { s with document := document, readOut := s.readOut ++ [reply] }
    | none => s

def runAll (s : ReplyRun) (events : List ReplyEvent) : ReplyRun := events.foldl step s

/-- What every run keeps. -/
structure Inv (s : ReplyRun) : Prop where
  sound : Sound s.readOut s.document
  complete : s.document.replyFailure = none → Complete s.readOut s.answers s.document

theorem inv_fresh (d : Document) (hreplies : d.replies = []) (hbytes : d.replyBytes = 0) (hstamp : d.replySequence = 0) :
    Inv ⟨d, [], []⟩ where
  sound := by constructor <;> simp [hreplies, hbytes, hstamp]
  complete _ := ⟨fun _ h => (nomatch h), by simp [hreplies, tagged]⟩

variable {s : ReplyRun}

theorem inv_step (hi : Inv s) (event : ReplyEvent) : Inv (s.step event) := by
  cases event with
  | begin generation =>
    simp only [step]
    split_ifs
    · exact hi
    · exact inv_fresh _ rfl rfl rfl
  | write generation origin sequence responses intact =>
    refine ⟨writeDocumentStream_sound hi.sound _ _ _ _ _, fun hnone => ?_⟩
    rcases writeDocumentStream_eq s.document generation origin sequence responses intact with
      ⟨hrefused, hresult⟩ | ⟨hadmitted, horigin, hreplies, hfailure, -⟩
    · simp only [step, hrefused, hresult, Bool.false_eq_true, if_false] at hnone ⊢
      exact hi.complete hnone
    · simp only [step, hadmitted, if_true] at hnone ⊢
      rw [hfailure] at hnone
      have hparsed := foldl_queueReply_complete (d := { s.document with currentOrigin := origin }) horigin hi.complete
        responses hnone
      unfold Complete at hparsed ⊢
      rwa [hreplies]
  | finish => exact ⟨hi.sound.congr rfl rfl rfl, hi.complete⟩
  | read =>
    simp only [step]
    split
    · next reply document hread =>
      obtain ⟨hsound, hreplies, -, hfailure⟩ := readDocumentReply_sound hi.sound hread
      refine ⟨hsound, fun hnone => ?_⟩
      obtain ⟨hall, hbytes⟩ := hi.complete (hfailure.symm.trans hnone)
      refine ⟨hall, ?_⟩
      rwa [hreplies, ← List.singleton_append, ← List.append_assoc] at hbytes
    · exact hi

theorem inv_runAll (hi : Inv s) (events : List ReplyEvent) : Inv (s.runAll events) := by
  induction events generalizing s with
  | nil => exact hi
  | cons event events ih => exact ih (inv_step hi event)

/-! ### A failure lasts -/

lemma writeDocumentStream_failed {d : Document} (h : d.replyFailure ≠ none) (generation origin sequence : ℕ)
    (responses : List (List UInt16)) (intact : Bool) :
    (d.writeDocumentStream generation origin sequence responses intact).2 = false ∧
      (d.writeDocumentStream generation origin sequence responses intact).1.replyFailure ≠ none := by
  rcases writeDocumentStream_eq d generation origin sequence responses intact with
    ⟨-, hresult⟩ | ⟨-, horigin, -, hfailure, hfails⟩
  · rw [hresult]
    exact ⟨rfl, h⟩
  · have hparsed : (responses.foldl queueReply { d with currentOrigin := origin }).replyFailure ≠ none := fun hnone =>
      h (foldl_queueReply_failure (d := { d with currentOrigin := origin }) horigin responses hnone)
    exact ⟨hfails hparsed, hfailure ▸ hparsed⟩

/-- No new stream begins. -/
def SameStream (events : List ReplyEvent) : Prop := ∀ generation, .begin generation ∈ events → generation = 0

lemma failure_step (h : s.document.replyFailure ≠ none) {event : ReplyEvent}
    (hsame : ∀ generation, event = .begin generation → generation = 0) : (s.step event).document.replyFailure ≠ none := by
  cases event with
  | begin generation =>
    simp only [step]
    rwa [if_pos (hsame generation rfl)]
  | write generation origin sequence responses intact => exact (writeDocumentStream_failed h _ _ _ _ _).2
  | finish => exact h
  | read =>
    simp only [step]
    split
    · next reply document hread =>
      unfold readDocumentReply at hread
      split at hread
      · cases hread
      · cases hread
        exact h
    · exact h

lemma failure_runAll (h : s.document.replyFailure ≠ none) {events : List ReplyEvent} (hsame : SameStream events) :
    (s.runAll events).document.replyFailure ≠ none := by
  induction events generalizing s with
  | nil => exact h
  | cons event events ih =>
    refine ih (failure_step h fun generation heq => hsame generation ?_) fun generation hmem =>
      hsame generation (List.mem_cons_of_mem _ hmem)
    exact heq ▸ List.mem_cons_self

/-- **The reply queue in every run**: its counters are those of the queue, a read takes no more bytes than are counted,
the answers are in the replies byte for byte until something fails, and then every write of the stream fails. -/
theorem replies_run (events : List ReplyEvent) :
    let s := start.runAll events
    Sound s.readOut s.document ∧
      s.readOut.map (·.sequence) = List.range' 1 s.readOut.length ∧
      (∀ reply document, s.document.readDocumentReply = some (reply, document) →
        reply.bytes.length ≤ s.document.replyBytes) ∧
      (s.document.replyFailure = none → Complete s.readOut s.answers s.document) ∧
      (s.document.replyFailure ≠ none → ∀ later, SameStream later → ∀ generation origin sequence responses intact,
        ((s.runAll later).document.writeDocumentStream generation origin sequence responses intact).2 = false) := by
  intro s
  have hi : Inv s := inv_runAll (inv_fresh _ rfl rfl rfl) events
  refine ⟨hi.sound, ?_, fun reply document hread => (readDocumentReply_sound hi.sound hread).2.2.1, hi.complete,
    fun hfailure later hsame generation origin sequence responses intact =>
      (writeDocumentStream_failed (failure_runAll hfailure hsame) _ _ _ _ _).1⟩
  have hsequences := hi.sound.sequences
  rw [List.map_append, ← List.range'_append_1] at hsequences
  exact List.append_inj_left hsequences (by simp)

end ReplyRun

end VT7.Session
