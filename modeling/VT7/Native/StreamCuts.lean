import VT7.Native.Utf8Stream

/-!
# Where the transport cuts the bytes

The decoder waits for as many bytes as a lead byte asks for and takes them whatever they are.  So on
malformed bytes the text can depend on the cuts: `chunks_agree_iff` says exactly for which bytes it does not.
-/

namespace VT7.Native

open VT7.Lib.Utf8

/-- The chunks of a transport, one call each. -/
def feed (convert : List UInt8 → List UInt16) : U8State → List (List UInt8) → Except HResult (List UInt16 × U8State)
  | state, [] => .ok ([], state)
  | state, bytes :: chunks => do
    let (text, state) ← u8u16 convert bytes state
    let (rest, state) ← feed convert state chunks
    return (text ++ rest, state)

/-- The number of bytes that a single call with all of them holds back. -/
def heldLength (bytes : List UInt8) : ℕ := (restOf bytes).2.partials.length

/-- Where a lead byte asks for a byte that is no continuation byte, the bytes it asks for end between two
parts and in front of the bytes that a single call holds back. -/
def Tame (bytes : List UInt8) : Prop := ∀ a b rest, bytes = a ++ b :: rest →
  (∃ x ∈ rest.take (codePointLen b - 1), ¬IsTail x) →
  codePointLen b - 1 + heldLength bytes ≤ rest.length ∧
    Between (a ++ b :: rest.take (codePointLen b - 1)) (rest.drop (codePointLen b - 1))

/-! ### The bytes that are held back -/

section Held

/-- What is held back is nothing, or a lead byte with continuation bytes. -/
lemma restOf_cases (bytes : List UInt8) : restOf bytes = (bytes, {}) ∨ ∃ front b tails,
    bytes = front ++ b :: tails ∧ ¬IsTail b ∧ (∀ x ∈ tails, IsTail x) ∧ tails.length + 1 < codePointLen b ∧
    restOf bytes = (front, ⟨b :: tails, codePointLen b - (tails.length + 1)⟩) := by
  rcases tails_or_lead bytes with htails | ⟨front, b, tails, rfl, hb, htails⟩
  · by_cases hne : bytes = []
    · exact .inl (hne ▸ restOf_nil)
    · exact .inl ((restOf_of_ne hne).trans (holdBack_tails hne htails _))
  · have hhold := holdBack_lead htails hb front {}
    rw [← restOf_of_ne (by simp)] at hhold
    split at hhold
    · next hlen => exact .inr ⟨front, b, tails, rfl, hb, htails, hlen, hhold⟩
    · exact .inl hhold

lemma lead_unique {front front' tails tails' : List UInt8} {b b' : UInt8} (hb : ¬IsTail b) (hb' : ¬IsTail b')
    (htails : ∀ x ∈ tails, IsTail x) (htails' : ∀ x ∈ tails', IsTail x)
    (h : front ++ b :: tails = front' ++ b' :: tails') : front = front' ∧ b = b' ∧ tails = tails' := by
  have hlast := lastSequence_lead htails hb front
  rw [h, lastSequence_lead htails' hb' front'] at hlast
  obtain ⟨rfl, rfl⟩ := List.cons.inj hlast
  exact ⟨List.append_cancel_right h, rfl, rfl⟩

/-- If the held bytes began in `p`, then with its last lead byte. -/
lemma heldLength_le {p rest : List UInt8} (h : ∀ front b tails, p = front ++ b :: tails → ¬IsTail b →
    (∀ x ∈ tails, IsTail x) → codePointLen b ≤ tails.length + 1) : heldLength (p ++ rest) ≤ rest.length := by
  unfold heldLength
  rcases restOf_cases (p ++ rest) with hrest | ⟨front, b, tails, hsplit, hb, htails, hlen, hrest⟩
  · rw [hrest]
    exact Nat.zero_le _
  · rw [hrest]
    by_contra hlong
    rw [List.length_cons, Nat.not_le] at hlong
    rcases List.append_eq_append_iff.mp hsplit with ⟨c, rfl, hc⟩ | ⟨c, rfl, hc⟩
    · have := congrArg List.length hc
      rw [List.length_append, List.length_cons] at this
      omega
    · cases c with
      | nil =>
        have := congrArg List.length hc
        simp only [List.nil_append, List.length_cons] at this
        omega
      | cons b' c =>
        obtain ⟨rfl, rfl⟩ := List.cons.inj hc
        have hshort := h front b c rfl hb fun x hx => htails x (List.mem_append_left _ hx)
        have happend : (c.append rest).length = c.length + rest.length := List.length_append
        omega

/-- Held bytes that begin behind `a` do not begin with a continuation byte. -/
lemma heldLength_le_of_tails {a tails rest : List UInt8} (htails : ∀ x ∈ tails, IsTail x)
    (h : heldLength (a ++ (tails ++ rest)) ≤ (tails ++ rest).length) : heldLength (a ++ tails ++ rest) ≤ rest.length := by
  rw [List.append_assoc]
  unfold heldLength at h ⊢
  rcases restOf_cases (a ++ (tails ++ rest)) with hrest | ⟨front, b, behind, hsplit, hb, -, -, hrest⟩
  · rw [hrest]
    exact Nat.zero_le _
  · rw [hrest] at h ⊢
    by_contra hlong
    obtain ⟨c, hc⟩ : b :: behind <:+ tails ++ rest :=
      List.suffix_of_suffix_length_le ⟨front, hsplit.symm⟩ ⟨a, rfl⟩ h
    obtain ⟨d, hd⟩ : rest <:+ b :: behind :=
      List.suffix_of_suffix_length_le ⟨tails, rfl⟩ ⟨c, hc⟩ (by dsimp only at hlong; omega)
    cases d with
    | nil =>
      rw [List.nil_append] at hd
      exact hlong (Nat.le_of_eq (congrArg List.length hd.symm))
    | cons b' d =>
      obtain ⟨rfl, -⟩ := List.cons.inj hd
      rw [← hd, ← List.append_assoc] at hc
      have hmem : b' ∈ c ++ b' :: d := List.mem_append_right _ List.mem_cons_self
      rw [List.append_cancel_right hc] at hmem
      exact hb (htails b' hmem)

end Held

/-! ### Tame bytes -/

section Sufficient

/-- The text is known up to here, and the rest can be read on its own. -/
def Settled (a rest : List UInt8) : Prop := Between a rest ∧ heldLength (a ++ rest) ≤ rest.length

/-- The state and the text behind the bytes `a` that other bytes, `rest`, will follow. -/
inductive Stage : List UInt8 → List UInt8 → U8State → List UInt16 → Prop
  | settled {a rest : List UInt8} (h : Settled a rest) : Stage a rest {} (replaced a)
  | waiting (a : List UInt8) (b : UInt8) (seen rest : List UInt8) (hb : ¬IsTail b)
      (hlen : seen.length + 1 < codePointLen b) :
      Stage (a ++ b :: seen) rest ⟨b :: seen, codePointLen b - (seen.length + 1)⟩ (replaced a)

lemma between_append_right {a bytes : List UInt8} (rest : List UInt8) (h : Between a (bytes ++ rest)) : Between a bytes := by
  cases bytes with
  | nil => exact between_nil a
  | cons b bytes => exact h

lemma after_of_between {a tails : List UInt8} (h : Between a tails) (hne : tails ≠ []) (htails : ∀ x ∈ tails, IsTail x) :
    after none (a ++ tails) = none := by
  rw [after_append]
  cases hafter : after none a with
  | none => exact after_of_tails (fun _ h => by cases h) htails (Nat.zero_le _)
  | some o =>
    cases tails with
    | nil => exact absurd rfl hne
    | cons b tails =>
      have hb : ¬o.Fits b := h o hafter b rfl
      show after (step (some o) b).1 tails = none
      rw [step_of_not_fits _ hb, first_of_tail (htails b List.mem_cons_self)]
      exact after_of_tails (fun _ h => by cases h) (fun x hx => htails x (List.mem_cons_of_mem _ hx)) (Nat.zero_le _)

/-- The rest of a chunk behind a settled place. -/
lemma Settled.stage {a bytes rest : List UInt8} (h : Settled a (bytes ++ rest)) :
    Stage (a ++ bytes) rest (restOf bytes).2 (replaced a ++ replaced (restOf bytes).1) := by
  obtain ⟨hbetween, hheld⟩ := h
  have hhere := between_append_right rest hbetween
  rcases tails_or_lead bytes with htails | ⟨front, b, tails, rfl, hb, htails⟩
  · by_cases hne : bytes = []
    · subst hne
      have hreplaced : replaced a ++ replaced (restOf []).1 = replaced (a ++ []) := by
        rw [List.append_nil]
        exact List.append_nil _
      rw [hreplaced]
      refine .settled ⟨?_, ?_⟩
      · rwa [List.append_nil]
      · rwa [List.append_nil]
    · rw [restOf_of_ne hne, holdBack_tails hne htails, ← hhere.replaced_append]
      exact .settled ⟨between_of_after _ (after_of_between hhere hne htails), heldLength_le_of_tails htails hheld⟩
  · rw [restOf_of_ne (by simp), holdBack_lead htails hb]
    split
    · next hlen =>
      have hfront := between_append_right (b :: tails) hhere
      rw [← hfront.replaced_append, ← List.append_assoc]
      exact .waiting _ b tails rest hb hlen
    · next hlen =>
      rw [← hhere.replaced_append]
      refine .settled ⟨between_of_after _ ?_, heldLength_le ?_⟩
      · rw [← List.append_assoc]
        exact after_lead hb htails (Nat.le_trans (owes_lead_le b) (by omega))
      · intro front' b' tails' hsplit hb' htails'
        rw [← List.append_assoc] at hsplit
        obtain ⟨-, rfl, rfl⟩ := lead_unique hb hb' htails htails' hsplit
        omega

lemma converts_replaced (piece : List UInt8) : Converts replaced piece := ⟨length_replaced_le piece, replaced_ne_nil⟩

/-- The bytes that a lead byte asks for are taken, and behind them the rest of the chunk. -/
lemma settled_of_taken {a asked rest : List UInt8} {b : UInt8} (htame : Tame (a ++ b :: (asked ++ rest))) (hb : ¬IsTail b)
    (hlen : asked.length + 1 = codePointLen b) : Settled (a ++ b :: asked) rest := by
  by_cases htails : ∀ x ∈ asked, IsTail x
  · refine ⟨between_of_after _ (after_lead hb htails (Nat.le_trans (owes_lead_le b) (by omega))), heldLength_le ?_⟩
    intro front' b' tails' hsplit hb' htails'
    obtain ⟨-, rfl, rfl⟩ := lead_unique hb hb' htails htails' hsplit
    omega
  · push Not at htails
    have hasked : codePointLen b - 1 = asked.length := by omega
    have h := htame a b (asked ++ rest) rfl (by rwa [hasked, List.take_left])
    rw [hasked, List.take_left, List.drop_left, List.length_append] at h
    refine ⟨h.2, ?_⟩
    rw [List.append_assoc, List.cons_append]
    omega

/-- One call goes from stage to stage. -/
lemma Stage.step {a bytes rest : List UInt8} {state : U8State} {text : List UInt16}
    (h : Stage a (bytes ++ rest) state text) (htame : Tame (a ++ (bytes ++ rest))) (hne : bytes ≠ [])
    (hmax : (a ++ (bytes ++ rest)).length ≤ intMax) :
    ∃ more state', u8u16 replaced bytes state = .ok (more, state') ∧ Stage (a ++ bytes) rest state' (text ++ more) := by
  rw [List.length_append, List.length_append] at hmax
  cases h with
  | settled hsettled => exact ⟨_, _, u8u16_fresh hne (by omega) (converts_replaced _), hsettled.stage⟩
  | waiting a b seen _ hb hlen =>
    rw [List.length_append, List.length_cons] at hmax
    have hfit : bytes.length + (b :: seen).length ≤ intMax := by
      rw [List.length_cons]
      omega
    rcases Nat.lt_or_ge bytes.length (codePointLen b - (seen.length + 1)) with hlt | hge
    · refine ⟨[], _, u8u16_wait hne hfit (List.cons_ne_nil _ _) hlt, ?_⟩
      have hstage := @Stage.waiting a b (seen ++ bytes) rest hb (by rw [List.length_append]; omega)
      have hwant : codePointLen b - (seen.length + 1) - bytes.length = codePointLen b - ((seen ++ bytes).length + 1) := by
        rw [List.length_append]
        omega
      rw [List.append_nil, List.append_assoc]
      show Stage (a ++ b :: (seen ++ bytes)) rest ⟨b :: (seen ++ bytes), codePointLen b - (seen.length + 1) - bytes.length⟩ _
      rwa [hwant]
    · have hcall := @u8u16_complete replaced bytes ⟨b :: seen, codePointLen b - (seen.length + 1)⟩ hne hfit
        (List.cons_ne_nil _ _) hge (converts_replaced _) (converts_replaced _)
      refine ⟨_, _, hcall, ?_⟩
      dsimp only
      have hasked : (seen ++ bytes.take (codePointLen b - (seen.length + 1))).length + 1 = codePointLen b := by
        rw [List.length_append, List.length_take]
        omega
      have hbytes := List.take_append_drop (codePointLen b - (seen.length + 1)) bytes
      generalize bytes.take (codePointLen b - (seen.length + 1)) = asked at *
      generalize bytes.drop (codePointLen b - (seen.length + 1)) = bytes' at *
      rw [← hbytes] at htame ⊢
      have hsettled : Settled (a ++ b :: (seen ++ asked)) (bytes' ++ rest) := by
        refine settled_of_taken ?_ hb hasked
        simpa only [List.append_assoc, List.cons_append] using htame
      have hstage := hsettled.stage
      rw [(between_of_not_tail a hb _).replaced_append] at hstage
      simpa only [List.append_assoc, List.cons_append] using hstage

/-- Chunks of tame bytes. -/
lemma Stage.feed {a : List UInt8} {chunks : List (List UInt8)} {state : U8State} {text : List UInt16}
    (h : Stage a chunks.flatten state text) (htame : Tame (a ++ chunks.flatten)) (hne : ∀ bytes ∈ chunks, bytes ≠ [])
    (hmax : (a ++ chunks.flatten).length ≤ intMax) :
    ∃ more state', feed replaced state chunks = .ok (more, state') ∧ Stage (a ++ chunks.flatten) [] state' (text ++ more) := by
  induction chunks generalizing a state text with
  | nil =>
    rw [List.flatten_nil] at h ⊢
    rw [List.append_nil]
    exact ⟨[], state, rfl, by rwa [List.append_nil]⟩
  | cons bytes chunks ih =>
    rw [List.flatten_cons] at h htame hmax ⊢
    obtain ⟨more, state', hcall, hstage⟩ := h.step htame (hne bytes List.mem_cons_self) hmax
    rw [← List.append_assoc] at htame hmax ⊢
    obtain ⟨more', state'', hrest, hstage'⟩ := ih hstage htame (fun b hb => hne b (List.mem_cons_of_mem _ hb)) hmax
    refine ⟨more ++ more', state'', ?_, by rwa [← List.append_assoc]⟩
    unfold VT7.Native.feed
    rw [hcall]
    show (VT7.Native.feed replaced state' chunks).bind _ = _
    rw [hrest]
    rfl

/-- Behind the last byte every stage is the one of a single call. -/
lemma Stage.last {bytes : List UInt8} {state : U8State} {text : List UInt16} (h : Stage bytes [] state text)
    (htame : Tame bytes) : text = replaced (restOf bytes).1 ∧ state = (restOf bytes).2 := by
  cases h with
  | settled hsettled =>
    have hheld := hsettled.2
    rw [List.append_nil] at hheld
    rcases restOf_cases bytes with hrest | ⟨front, b, tails, -, -, -, -, hrest⟩
    · rw [hrest]
      exact ⟨rfl, rfl⟩
    · unfold heldLength at hheld
      rw [hrest] at hheld
      exact absurd hheld (Nat.not_succ_le_zero _)
  | waiting a b seen _ hb hlen =>
    have htails : ∀ x ∈ seen, IsTail x := by
      by_contra hnot
      push Not at hnot
      have h := htame a b seen rfl (by rwa [List.take_of_length_le (by omega)])
      omega
    rw [restOf_of_ne (by simp), holdBack_lead htails hb, if_pos hlen]
    exact ⟨rfl, rfl⟩

/-- **Tame bytes give one answer, however they are cut.** -/
lemma feed_of_tame {bytes : List UInt8} (htame : Tame bytes) (hmax : bytes.length ≤ intMax) {chunks : List (List UInt8)}
    (hne : ∀ c ∈ chunks, c ≠ []) (hbytes : chunks.flatten = bytes) :
    feed replaced {} chunks = .ok (replaced (restOf bytes).1, (restOf bytes).2) := by
  subst hbytes
  have hstart : Stage [] chunks.flatten {} [] := by
    refine .settled ⟨between_of_after _ rfl, ?_⟩
    exact Utf8TerminalStream.length_held_le _
  obtain ⟨more, state, hfeed, hstage⟩ := hstart.feed htame hne hmax
  obtain ⟨rfl, rfl⟩ := hstage.last htame
  exact hfeed

end Sufficient

/-! ### Bytes on which all cuts agree -/

section Necessary

/-- One byte at a time there is an answer. -/
lemma feed_singles (bytes : List UInt8) (state : U8State)
    (h : state = {} ∨ state.partials ≠ [] ∧ 0 < state.want ∧ state.partials.length + state.want ≤ 4) :
    ∃ answer, feed replaced state (bytes.map ([·])) = .ok answer := by
  have hmax : 5 ≤ intMax := by decide
  induction bytes generalizing state with
  | nil => exact ⟨_, rfl⟩
  | cons b bytes ih =>
    have hgo : ∀ text state', u8u16 replaced [b] state = .ok (text, state') →
        (state' = {} ∨ state'.partials ≠ [] ∧ 0 < state'.want ∧ state'.partials.length + state'.want ≤ 4) →
        ∃ answer, feed replaced state ((b :: bytes).map ([·])) = .ok answer := by
      intro text state' hcall hstate'
      obtain ⟨answer, hrest⟩ := ih state' hstate'
      refine ⟨(text ++ answer.1, answer.2), ?_⟩
      rw [List.map_cons, feed, hcall]
      show (feed replaced state' _).bind _ = _
      rw [hrest]
      rfl
    rcases h with rfl | ⟨hheld, hwant, hlen⟩
    · refine hgo _ _ (u8u16_fresh (List.cons_ne_nil _ _) (by rw [List.length_singleton]; omega) (converts_replaced _)) ?_
      rcases restOf_cases [b] with hrest | ⟨front, c, tails, hsplit, -, -, hlen, hrest⟩
      · exact .inl (by rw [hrest])
      · have hle := codePointLen_le c
        rw [hrest]
        refine .inr ⟨List.cons_ne_nil _ _, ?_, ?_⟩
        · dsimp only
          omega
        · dsimp only
          rw [List.length_cons]
          omega
    · rcases Nat.lt_or_ge 1 state.want with hlt | hge
      · refine hgo _ _ (u8u16_wait (List.cons_ne_nil _ _) ?_ hheld hlt) (.inr ⟨?_, ?_, ?_⟩)
        · rw [List.length_singleton]
          omega
        · exact List.append_ne_nil_of_left_ne_nil hheld _
        · dsimp only
          rw [List.length_singleton]
          omega
        · dsimp only
          rw [List.length_append, List.length_singleton]
          omega
      · refine hgo _ _ (u8u16_complete (List.cons_ne_nil _ _) ?_ hheld hge (converts_replaced _) (converts_replaced _)) ?_
        · rw [List.length_singleton]
          omega
        · have hwhole : ([b] : List UInt8).drop state.want = [] := List.drop_eq_nil_of_le (by rw [List.length_singleton]; omega)
          rw [hwhole]
          exact .inl rfl

lemma flatten_singles (bytes : List UInt8) : (bytes.map ([·])).flatten = bytes := by
  induction bytes with
  | nil => rfl
  | cons b bytes ih => rw [List.map_cons, List.flatten_cons, ih, List.singleton_append]

/-- The answer is the same for all cuts. -/
def Agree (bytes : List UInt8) : Prop := ∀ chunks chunks' : List (List UInt8), (∀ c ∈ chunks, c ≠ []) →
  (∀ c ∈ chunks', c ≠ []) → chunks.flatten = bytes → chunks'.flatten = bytes →
  feed replaced {} chunks = feed replaced {} chunks'

lemma feed_single (bytes : List UInt8) (state : U8State) : feed replaced state [bytes] =
    (u8u16 replaced bytes state).map fun answer => (answer.1 ++ [], answer.2) := by
  unfold feed
  cases u8u16 replaced bytes state with
  | error conversion => rfl
  | ok answer => rfl

lemma feed_two (first second : List UInt8) (state : U8State) {text : List UInt16} {state' : U8State}
    (h : u8u16 replaced first state = .ok (text, state')) : feed replaced state [first, second] =
      (u8u16 replaced second state').map fun answer => (text ++ (answer.1 ++ []), answer.2) := by
  rw [feed, h]
  show (feed replaced state' [second]).bind _ = _
  rw [feed_single]
  cases u8u16 replaced second state' with
  | error conversion => rfl
  | ok answer => rfl

lemma Agree.length_le {bytes : List UInt8} (h : Agree bytes) : bytes.length ≤ intMax := by
  by_contra hlong
  rw [Nat.not_le] at hlong
  have hne : bytes ≠ [] := by
    rintro rfl
    exact absurd hlong (Nat.not_lt_zero _)
  have hwhole : feed replaced {} [bytes] = .error .abort := by
    rw [feed_single, u8u16_abort hne (Nat.lt_of_lt_of_le hlong (Nat.le_add_right _ _))]
    rfl
  obtain ⟨answer, hsingles⟩ := feed_singles bytes {} (.inl rfl)
  have heq := h [bytes] (bytes.map ([·])) (by simpa using hne) (by simp) (by simp) (flatten_singles bytes)
  rw [hwhole, hsingles] at heq
  cases heq

/-- Two calls, with the cut behind a lead byte, and one call. -/
lemma Agree.tame {bytes : List UInt8} (h : Agree bytes) : Tame bytes := by
  rintro a b rest rfl ⟨x, hx, htail⟩
  have hmax := h.length_le
  rw [List.length_append, List.length_cons] at hmax
  have hxrest : x ∈ rest := List.mem_of_mem_take hx
  have hrestNe : rest ≠ [] := List.ne_nil_of_mem hxrest
  have hasks : 1 < codePointLen b := by
    by_contra hnot
    have hzero : codePointLen b - 1 = 0 := by omega
    rw [hzero] at hx
    exact absurd hx List.not_mem_nil
  have hb : ¬IsTail b := by
    intro hb
    rw [codePointLen_of_tail hb] at hasks
    omega
  have hone : feed replaced {} [a ++ b :: rest] = .ok (replaced (restOf (a ++ b :: rest)).1 ++ [], (restOf (a ++ b :: rest)).2) := by
    rw [feed_single, u8u16_fresh (by simp) (by rw [List.length_append, List.length_cons]; exact hmax) (converts_replaced _)]
    rfl
  have hfirst : u8u16 replaced (a ++ [b]) {} = .ok (replaced a, ⟨[b], codePointLen b - 1⟩) := by
    have hcut : restOf (a ++ [b]) = (a, ⟨[b], codePointLen b - 1⟩) := by
      rw [restOf_of_ne (by simp), holdBack_lead (List.forall_mem_nil _) hb, List.length_nil, Nat.zero_add, if_pos hasks]
    rw [u8u16_fresh (by simp) (by rw [List.length_append, List.length_singleton]; omega) (converts_replaced _), hcut]
  have hagree := h [a ++ [b], rest] [a ++ b :: rest] (by simpa using hrestNe) (by simp) (by simp) (by simp)
  rw [hone, feed_two _ _ _ hfirst] at hagree
  rcases Nat.lt_or_ge rest.length (codePointLen b - 1) with hlt | hge
  · -- everything is still held, also the byte that belongs to something else
    rw [u8u16_wait hrestNe (by rw [List.length_singleton]; omega) (List.cons_ne_nil _ _) hlt] at hagree
    have hstate := congrArg U8State.partials (Prod.mk.inj (Except.ok.inj hagree)).2
    rcases restOf_cases (a ++ b :: rest) with hrest | ⟨front, c, tails, -, -, htails, -, hrest⟩
    · rw [hrest] at hstate
      cases hstate
    · rw [hrest] at hstate
      obtain ⟨-, rfl⟩ := List.cons.inj hstate
      exact absurd (htails x hxrest) htail
  · rw [u8u16_complete hrestNe (by rw [List.length_singleton]; omega) (List.cons_ne_nil _ _) hge (converts_replaced _)
      (converts_replaced _)] at hagree
    obtain ⟨htext, hstate⟩ := Prod.mk.inj (Except.ok.inj hagree)
    dsimp only at htext hstate
    rw [List.append_nil, List.append_nil] at htext
    have hsplit : a ++ b :: rest = (a ++ b :: rest.take (codePointLen b - 1)) ++ rest.drop (codePointLen b - 1) := by simp
    have hdropLen : (rest.drop (codePointLen b - 1)).length = rest.length - (codePointLen b - 1) := List.length_drop
    generalize rest.take (codePointLen b - 1) = asked at *
    generalize rest.drop (codePointLen b - 1) = behind at *
    have hheld := Utf8TerminalStream.length_held_le behind
    unfold heldLength
    rw [← hstate]
    refine ⟨by omega, ?_⟩
    have hwhole := restOf_append (a ++ b :: rest)
    have hbehind := restOf_append behind
    rw [← hstate] at hwhole
    have hconverted : (restOf (a ++ b :: rest)).1 = (a ++ b :: asked) ++ (restOf behind).1 := by
      refine List.append_cancel_right (hwhole.trans ?_)
      rw [hsplit, List.append_assoc _ _ (restOf behind).2.partials, hbehind]
    rw [hconverted, ← List.append_assoc, List.singleton_append, ← (between_of_not_tail a hb asked).replaced_append] at htext
    by_cases hbetween : Between (a ++ b :: asked) (restOf behind).1
    · rcases restOf_cases behind with hrest | ⟨front, c, tails, rfl, hc, -, -, hrest⟩
      · rwa [hrest] at hbetween
      · cases front with
        | nil => exact between_of_not_tail _ hc _
        | cons d front =>
          rw [hrest] at hbetween
          exact hbetween
    · exact absurd htext (replaced_cut_ne hbetween)

end Necessary

/-! ### The stream -/

section Stream

variable {convert : List UInt8 → List UInt16}

lemma convertRest_error {text : List UInt16} {bytes : List UInt8} {capa16 : ℕ} {state : U8State} {error : HResult}
    (h : convertRest convert text bytes capa16 state = .error error) : error = .unexpected := by
  unfold convertRest at h
  split at h
  · cases h
  dsimp only at h
  split at h
  · cases h
  split at h
  · exact (Except.error.inj h).symm
  · cases h

lemma u8u16_error {bytes : List UInt8} {state : U8State} {error : HResult} (h : u8u16 convert bytes state = .error error) :
    error ≠ .ok := by
  unfold u8u16 at h
  split at h
  · cases h
  split at h
  · obtain rfl := Except.error.inj h
    decide
  dsimp only at h
  split at h
  · obtain rfl := convertRest_error h
    decide
  split at h
  · cases h
  split at h
  · obtain rfl := Except.error.inj h
    decide
  · obtain rfl := convertRest_error h
    decide

/-- The writes of a stream are the calls of its decoder. -/
lemma writeAll_eq_feed {s : Utf8TerminalStream} (hended : s.snapshot.ended = false) {chunks : List (List UInt8)}
    (hne : ∀ c ∈ chunks, c ≠ []) : (s.writeAll convert chunks).map (fun answer => (answer.1, answer.2.state)) =
      feed convert s.state chunks := by
  induction chunks generalizing s with
  | nil => rfl
  | cons bytes chunks ih =>
    have hbytes := hne bytes List.mem_cons_self
    have hrest := fun c hc => hne c (List.mem_cons_of_mem bytes hc)
    unfold Utf8TerminalStream.writeAll feed Utf8TerminalStream.write
    cases hcall : u8u16 convert bytes s.state with
    | error conversion =>
      rw [hended, if_neg Bool.false_ne_true, if_neg hbytes]
      dsimp only
      rw [if_pos (u8u16_error hcall)]
      rfl
    | ok answer =>
      obtain ⟨decoded, candidate⟩ := answer
      have hnext : ∀ t : Utf8TerminalStream, t.snapshot.ended = false → t.state = candidate →
          ((t.writeAll convert chunks).map fun answer => (decoded ++ answer.1, answer.2)).map
            (fun answer => (answer.1, answer.2.state)) =
          (feed convert candidate chunks).map fun answer => (decoded ++ answer.1, answer.2) := by
        intro t ht hstate
        rw [← hstate, ← ih ht hrest]
        cases t.writeAll convert chunks with
        | error conversion => rfl
        | ok answer => rfl
      dsimp only
      rw [hended, if_neg Bool.false_ne_true, if_neg hbytes, ite_self]
      dsimp only
      rw [if_neg (not_not_intro rfl), hnext _ rfl rfl]
      show _ = (feed convert candidate chunks).bind _
      cases feed convert candidate chunks with
      | error conversion => rfl
      | ok answer => rfl

end Stream

/-- **The cuts do not matter exactly for tame bytes** that one call can take, for the decoder and for the
writes of a stream. -/
theorem chunks_agree_iff {convert : List UInt8 → List UInt16} (hconvert : ∀ bytes, convert bytes = replaced bytes)
    (bytes : List UInt8) :
    ((∀ chunks chunks' : List (List UInt8), (∀ c ∈ chunks, c ≠ []) → (∀ c ∈ chunks', c ≠ []) →
        chunks.flatten = bytes → chunks'.flatten = bytes → feed convert {} chunks = feed convert {} chunks') ↔
      bytes.length ≤ intMax ∧ Tame bytes) ∧
    ((∀ (s : Utf8TerminalStream) (chunks chunks' : List (List UInt8)), (∀ c ∈ chunks, c ≠ []) → (∀ c ∈ chunks', c ≠ []) →
        chunks.flatten = bytes → chunks'.flatten = bytes →
        (s.begin.writeAll convert chunks).map (fun answer => (answer.1, answer.2.state)) =
          (s.begin.writeAll convert chunks').map (fun answer => (answer.1, answer.2.state))) ↔
      bytes.length ≤ intMax ∧ Tame bytes) := by
  obtain rfl : convert = replaced := funext hconvert
  have hagree : Agree bytes ↔ bytes.length ≤ intMax ∧ Tame bytes := by
    constructor
    · exact fun h => ⟨h.length_le, h.tame⟩
    · rintro ⟨hmax, htame⟩ chunks chunks' hne hne' hbytes hbytes'
      rw [feed_of_tame htame hmax hne hbytes, feed_of_tame htame hmax hne' hbytes']
  refine ⟨hagree, ?_⟩
  rw [← hagree]
  constructor
  · intro h chunks chunks' hne hne' hbytes hbytes'
    have hwrites := h {} chunks chunks' hne hne' hbytes hbytes'
    rwa [writeAll_eq_feed rfl hne, writeAll_eq_feed rfl hne'] at hwrites
  · intro h s chunks chunks' hne hne' hbytes hbytes'
    rw [writeAll_eq_feed rfl hne, writeAll_eq_feed rfl hne']
    exact h chunks chunks' hne hne' hbytes hbytes'

/-- A character in two pieces. -/
theorem chunks_agree_iff_twoBytes : feed replaced {} [[0xc4], [0x8d]] = feed replaced {} [[0xc4, 0x8d]] := by
  refine ((chunks_agree_iff (fun _ => rfl) [0xc4, 0x8d]).1.mpr ⟨by decide, ?_⟩) [[0xc4], [0x8d]] [[0xc4, 0x8d]] (by decide)
    (by decide) rfl rfl
  rintro a b rest h ⟨x, hx, htail⟩
  have hmem : x ∈ ([0x8d] : List UInt8) := by
    cases a with
    | nil =>
      obtain ⟨-, rfl⟩ := List.cons.inj h
      exact List.mem_of_mem_take hx
    | cons c a =>
      have hsuffix : b :: rest <:+ [0x8d] := ⟨a, (List.cons.inj h).2.symm⟩
      exact hsuffix.subset (List.mem_cons_of_mem _ (List.mem_of_mem_take hx))
  obtain rfl := List.mem_singleton.mp hmem
  exact absurd (by decide) htail

/-- Behind a lead byte the decoder takes the first byte of the letter, too, when the cut is there. -/
theorem chunks_lose_letter : ¬∀ (bytes : List UInt8) (chunks chunks' : List (List UInt8)), (∀ c ∈ chunks, c ≠ []) →
    (∀ c ∈ chunks', c ≠ []) → chunks.flatten = bytes → chunks'.flatten = bytes →
    feed replaced {} chunks = feed replaced {} chunks' := by
  intro h
  have hagree := h [0xe2, 0x41, 0xc3, 0xa9] [[0xe2], [0x41, 0xc3, 0xa9]] [[0xe2, 0x41, 0xc3, 0xa9]] (by decide) (by decide) rfl rfl
  have hsplit : feed replaced {} [[0xe2], [0x41, 0xc3, 0xa9]] = .ok ([0xfffd, 0x41, 0xfffd, 0xfffd], {}) := by rfl
  have hwhole : feed replaced {} [[0xe2, 0x41, 0xc3, 0xa9]] = .ok ([0xfffd, 0x41, 0xe9], {}) := by rfl
  rw [hsplit, hwhole] at hagree
  cases hagree

end VT7.Native
