import VT7.Native.U8u16

/-!
# The UTF-8 stream of a terminal session

`Utf8TerminalStream` owns one decoder.  A write works on a copy of the decoder's state and keeps it only
when the conversion and the writer have succeeded.
-/

namespace VT7.Native

open VT7.Lib.Utf8

/-- `Utf8TerminalStreamSnapshot`. -/
structure Utf8TerminalStreamSnapshot where
  bytes : ℕ := 0
  utf16Units : ℕ := 0
  writes : ℕ := 0
  generation : ℕ := 0
  pendingBytes : ℕ := 0
  ended : Bool := true
  lastError : HResult := .ok

structure Utf8TerminalStream where
  state : U8State := {}
  snapshot : Utf8TerminalStreamSnapshot := {}
  generation : ℕ := 0

/-- What a write answers, the texts that it passed to the writer, and the stream behind it. -/
structure WriteResult where
  result : HResult
  passed : List UInt16
  stream : Utf8TerminalStream

/-! ### The beginnings of well-formed text -/

/-- A call behind the bytes `a` that does what one call with all of them would do. -/
def Continues (convert : List UInt8 → List UInt16) (a bytes : List UInt8) : Prop :=
  ∃ text, u8u16 convert bytes (restOf a).2 = .ok (text, (restOf (a ++ bytes)).2) ∧
    convert (restOf a).1 ++ text = convert (restOf (a ++ bytes)).1

section WellFormed

/-- The text goes on with `todo`: the last bytes, `tail`, belong to its first character, of which `back`
is missing; or nothing is cut. -/
inductive Cut : List Char → List UInt8 → List UInt8 → Prop
  | between (todo : List Char) : Cut todo [] []
  | inside (c : Char) (todo : List Char) {tail back : List UInt8} (h : String.utf8EncodeChar c = tail ++ back)
      (htail : tail ≠ []) (hback : back ≠ []) : Cut (c :: todo) tail back

lemma encode_cons (c : Char) (t : List Char) : encode (c :: t) = String.utf8EncodeChar c ++ encode t := rfl

lemma encode_append (s t : List Char) : encode (s ++ t) = encode s ++ encode t := List.flatMap_append

lemma exists_cut {bytes rest : List UInt8} {t : List Char} (h : bytes ++ rest = encode t) :
    ∃ done todo tail back, t = done ++ todo ∧ bytes = encode done ++ tail ∧ Cut todo tail back := by
  induction t generalizing bytes with
  | nil => exact ⟨[], [], [], [], rfl, (List.append_eq_nil_iff.mp h).1, .between []⟩
  | cons c t ih =>
    rw [encode_cons] at h
    rcases List.append_eq_append_iff.mp h with ⟨back, hc, hrest⟩ | ⟨bytes', hbytes, ht⟩
    · -- the cut is in this character, or at one of its ends
      by_cases htail : bytes = []
      · exact ⟨[], c :: t, [], [], rfl, htail, .between _⟩
      by_cases hback : back = []
      · refine ⟨[c], t, [], [], rfl, ?_, .between _⟩
        rw [hback, List.append_nil] at hc
        rw [encode_cons, hc]
        simp [encode]
      · exact ⟨[], c :: t, bytes, back, rfl, rfl, .inside c t hc htail hback⟩
    · obtain ⟨done, todo, tail, back, rfl, hbytes', hcut⟩ := ih ht.symm
      refine ⟨c :: done, todo, tail, back, rfl, ?_, hcut⟩
      rw [hbytes, hbytes', encode_cons, List.append_assoc]

/-- At such a place exactly the bytes of the cut character are held back. -/
lemma restOf_encode (done : List Char) {todo : List Char} {tail back : List UInt8} (hcut : Cut todo tail back) :
    restOf (encode done ++ tail) = (encode done, ⟨tail, back.length⟩) := by
  cases hcut with
  | between =>
    rw [List.append_nil]
    rcases List.eq_nil_or_concat done with rfl | ⟨before, c, rfl⟩
    · rfl
    · obtain ⟨b, tails, hc, hb, htails, hlen⟩ := utf8EncodeChar_eq c
      have hwhole : encode (before.concat c) = encode before ++ b :: tails := by
        rw [List.concat_eq_append, encode_append, ← hc]
        exact congrArg _ (List.append_nil _)
      rw [hwhole, restOf_of_ne (by simp), holdBack_lead htails hb, if_neg (by omega)]
      rfl
  | inside c todo h htail hback =>
    obtain ⟨b, tails, hc, hb, htails, hlen⟩ := utf8EncodeChar_eq c
    obtain ⟨d, front, rfl⟩ := List.exists_cons_of_ne_nil htail
    rw [hc, List.cons_append] at h
    obtain ⟨rfl, rfl⟩ := List.cons.inj h
    rw [List.length_append] at hlen
    have hpos := List.length_pos_of_ne_nil hback
    rw [restOf_of_ne (by simp), holdBack_lead (fun x hx => htails x (List.mem_append_left _ hx)) hb,
      if_pos (by omega), hlen]
    congr 2
    omega

/-- The text that a character is cut in is not complete. -/
lemma Cut.eq_nil {todo : List Char} {tail back : List UInt8} (h : Cut todo tail back) (heq : encode todo = tail) :
    todo = [] ∧ tail = [] := by
  cases h with
  | between =>
    refine ⟨?_, rfl⟩
    cases todo with
    | nil => rfl
    | cons c todo =>
      obtain ⟨b, tails, hc, -⟩ := utf8EncodeChar_eq c
      rw [encode_cons, hc] at heq
      cases heq
  | inside c todo h htail hback =>
    rw [encode_cons, h, List.append_assoc] at heq
    exact absurd (List.append_eq_nil_iff.mp (List.append_right_eq_self.mp heq)).1 hback

variable {convert : List UInt8 → List UInt16}

/-- The bytes are converted with room for them. -/
lemma converts_encode (hexact : ∀ t, convert (encode t) = utf16 t) (hroom : ∀ bytes, (convert bytes).length ≤ bytes.length)
    (t : List Char) : Converts convert (encode t) := by
  refine ⟨hroom _, fun hne hnil => ?_⟩
  rw [hexact, ← replaced_encode] at hnil
  exact replaced_ne_nil hne hnil

/-- **A call on well-formed text carries on.** -/
lemma continues_encode (hexact : ∀ t, convert (encode t) = utf16 t) (hroom : ∀ bytes, (convert bytes).length ≤ bytes.length)
    {a bytes rest : List UInt8} {t : List Char} (ht : a ++ bytes ++ rest = encode t) (hne : bytes ≠ [])
    (hmax : (restOf a).2.partials.length + bytes.length ≤ intMax) :
    Continues convert a bytes := by
  rw [List.append_assoc] at ht
  obtain ⟨done, todo, tail, back, rfl, rfl, hcut⟩ := exists_cut ht
  rw [encode_append, List.append_assoc, List.append_cancel_left_eq] at ht
  have hconverts := converts_encode hexact hroom
  have hheld := restOf_encode done hcut
  rw [hheld] at hmax
  cases hcut with
  | between =>
    rw [List.nil_append] at ht
    obtain ⟨done', todo', tail', back', -, rfl, hcut'⟩ := exists_cut ht
    have hrest := restOf_encode done' hcut'
    have hwhole := restOf_encode (done ++ done') hcut'
    refine ⟨convert (encode done'), ?_, ?_⟩
    · rw [hheld, List.append_nil, ← List.append_assoc, ← encode_append, hwhole]
      have hcall := @u8u16_fresh convert (encode done' ++ tail') hne (by simpa using hmax) (by rw [hrest]; exact hconverts _)
      rwa [hrest] at hcall
    · rw [hheld, List.append_nil, ← List.append_assoc, ← encode_append, hwhole, hexact, hexact, hexact]
      exact List.flatMap_append.symm
  | inside c todo h htail hback =>
    rw [encode_cons, h, List.append_assoc, List.append_cancel_left_eq] at ht
    rcases Nat.lt_or_ge bytes.length back.length with hlt | hge
    · -- the character is still incomplete
      obtain ⟨back', rfl⟩ : bytes <+: back := List.prefix_of_prefix_length_le ⟨rest, ht⟩ ⟨encode todo, rfl⟩ (Nat.le_of_lt hlt)
      have hback' : back' ≠ [] := by
        rintro rfl
        rw [List.append_nil] at hlt
        exact Nat.lt_irrefl _ hlt
      have hwhole := restOf_encode done (.inside c todo (by rw [h, List.append_assoc]) (List.append_ne_nil_of_left_ne_nil htail bytes) hback')
      refine ⟨[], ?_, ?_⟩
      · rw [hheld, List.append_assoc, hwhole, u8u16_wait hne (by rw [Nat.add_comm]; exact hmax) htail hlt]
        dsimp only
        rw [List.length_append, Nat.add_sub_cancel_left]
      · rw [hheld, List.append_assoc, hwhole, List.append_nil]
    · obtain ⟨bytes', rfl⟩ : back <+: bytes := List.prefix_of_prefix_length_le ⟨encode todo, rfl⟩ ⟨rest, ht⟩ hge
      rw [List.append_assoc, List.append_cancel_left_eq] at ht
      obtain ⟨done', todo', tail', back', -, rfl, hcut'⟩ := exists_cut ht
      have hrest := restOf_encode done' hcut'
      have hwhole := restOf_encode (done ++ c :: done') hcut'
      have hbytes : encode done ++ tail ++ (back ++ (encode done' ++ tail')) = encode (done ++ c :: done') ++ tail' := by
        rw [encode_append, encode_cons, h]
        simp only [List.append_assoc]
      have hpiece : tail ++ back = encode [c] := by
        rw [encode_cons, h]
        exact (List.append_nil _).symm
      refine ⟨convert (encode [c]) ++ convert (encode done'), ?_, ?_⟩
      · have hcall := @u8u16_complete convert (back ++ (encode done' ++ tail')) ⟨tail, back.length⟩ hne
          (by rw [Nat.add_comm]; exact hmax) htail hge
          (by rw [List.take_left, hpiece]; exact hconverts _) (by rw [List.drop_left, hrest]; exact hconverts _)
        rw [List.take_left, List.drop_left, hpiece, hrest] at hcall
        rw [hheld, hbytes, hwhole, hcall]
      · rw [hbytes, hwhole, hheld, hexact, hexact, hexact, hexact]
        unfold utf16
        rw [List.flatMap_append, List.flatMap_cons, List.flatMap_cons, List.flatMap_nil, List.append_nil]

end WellFormed

namespace Utf8TerminalStream

variable (s : Utf8TerminalStream)

/-- `Begin`. -/
def begin : Utf8TerminalStream :=
  { state := {}
    snapshot := { generation := (s.generation + 1) % 2 ^ 32, ended := false }
    generation := (s.generation + 1) % 2 ^ 32 }

/-- The stream with another `lastError`. -/
def withError (error : HResult) : Utf8TerminalStream := { s with snapshot := { s.snapshot with lastError := error } }

/-- `Write`.  `thrown` is what the writer throws if it is called in this write. -/
def write (convert : List UInt8 → List UInt16) (bytes : List UInt8) (thrown : Option HResult) : WriteResult :=
  if s.snapshot.ended then ⟨.invalidState, [], s.withError .invalidState⟩
  else if bytes = [] then ⟨.ok, [], s⟩
  else
    match u8u16 convert bytes s.state with
    | .error conversion => ⟨conversion, [], s.withError conversion⟩
    | .ok (decoded, candidate) =>
      match (if decoded = [] then none else thrown) with
      | some caught => ⟨caught, decoded, s.withError caught⟩
      | none =>
        ⟨.ok, decoded, { s with
          state := candidate
          snapshot := { s.snapshot with
            bytes := (s.snapshot.bytes + bytes.length) % 2 ^ 64
            utf16Units := (s.snapshot.utf16Units + decoded.length) % 2 ^ 64
            writes := (s.snapshot.writes + 1) % 2 ^ 32
            pendingBytes := candidate.partials.length
            lastError := .ok } }⟩

/-- `End`, which is a keyword here. -/
def finish : HResult × Utf8TerminalStream :=
  if s.snapshot.ended then (s.snapshot.lastError, s)
  else if s.state.partials ≠ [] then
    (.noUnicodeTranslation, { s with
      state := {}
      snapshot := { s.snapshot with ended := true, pendingBytes := 0, lastError := .noUnicodeTranslation } })
  else (.ok, { s with snapshot := { s.snapshot with ended := true, lastError := .ok } })

/-! ### Writes that fail -/

/-- A write that fails leaves everything but `lastError`. -/
theorem write_failed {convert : List UInt8 → List UInt16} {bytes : List UInt8} {thrown : Option HResult}
    (h : (s.write convert bytes thrown).result ≠ .ok) :
    (s.write convert bytes thrown).stream = s.withError (s.write convert bytes thrown).result := by
  unfold write at h ⊢
  split
  · rfl
  split
  · next hended hbytes =>
    rw [if_neg hended, if_pos hbytes] at h
    exact absurd rfl h
  next hended hbytes =>
  rw [if_neg hended, if_neg hbytes] at h
  split
  · rfl
  · next decoded candidate hconversion =>
    rw [hconversion] at h
    dsimp only at h
    split
    · rfl
    · next hcaught =>
      rw [hcaught] at h
      exact absurd rfl h

/-- A write that does something leaves nothing of the old `lastError`. -/
theorem write_withError (convert : List UInt8 → List UInt16) {bytes : List UInt8} (thrown : Option HResult)
    (error : HResult) (h : s.snapshot.ended = true ∨ bytes ≠ []) :
    (s.withError error).write convert bytes thrown = s.write convert bytes thrown := by
  unfold write
  rw [show (s.withError error).snapshot.ended = s.snapshot.ended from rfl]
  split
  · rfl
  next hended =>
  have hbytes : bytes ≠ [] := h.resolve_left hended
  rw [if_neg hbytes, if_neg hbytes, show (s.withError error).state = s.state from rfl]
  cases u8u16 convert bytes s.state with
  | error conversion => rfl
  | ok answer =>
    dsimp only
    split
    · rfl
    · rfl

lemma result_of_empty {convert : List UInt8 → List UInt16} {bytes : List UInt8} {thrown : Option HResult}
    (h : (s.write convert bytes thrown).result ≠ .ok) : s.snapshot.ended = true ∨ bytes ≠ [] := by
  by_contra hnot
  push Not at hnot
  unfold write at h
  rw [if_neg hnot.1, if_pos hnot.2] at h
  exact h rfl

/-! ### Several writes -/

/-- Writes up to the first one that fails, with a writer that throws nothing: the texts that it got. -/
def writeAll (convert : List UInt8 → List UInt16) :
    Utf8TerminalStream → List (List UInt8) → Except HResult (List UInt16 × Utf8TerminalStream)
  | s, [] => .ok ([], s)
  | s, bytes :: chunks =>
    let written := s.write convert bytes none
    if written.result ≠ .ok then .error written.result
    else (writeAll convert written.stream chunks).map fun answer => (written.passed ++ answer.1, answer.2)

/-- What the stream knows of the bytes since `Begin`. -/
structure Follows (convert : List UInt8 → List UInt16) (s : Utf8TerminalStream) (consumed : List UInt8) : Prop where
  ended : s.snapshot.ended = false
  state : s.state = (restOf consumed).2
  bytes : s.snapshot.bytes = consumed.length
  utf16Units : s.snapshot.utf16Units = (convert (restOf consumed).1).length
  pendingBytes : s.snapshot.pendingBytes = (restOf consumed).2.partials.length

section Several

variable {convert : List UInt8 → List UInt16} {s}

lemma follows_begin (hnil : convert [] = []) : Follows convert s.begin [] := by
  refine ⟨rfl, rfl, rfl, ?_, rfl⟩
  rw [restOf_nil, hnil]
  rfl

lemma Follows.write {a bytes : List UInt8} (h : Follows convert s a) (hne : bytes ≠ [])
    (hcontinues : Continues convert a bytes) (hlen : (a ++ bytes).length < 2 ^ 64)
    (hroom : (convert (restOf (a ++ bytes)).1).length ≤ (a ++ bytes).length) :
    ∃ text, (s.write convert bytes none).result = .ok ∧ (s.write convert bytes none).passed = text ∧
      Follows convert (s.write convert bytes none).stream (a ++ bytes) ∧
      convert (restOf a).1 ++ text = convert (restOf (a ++ bytes)).1 := by
  obtain ⟨text, hcall, htext⟩ := hcontinues
  have hwrite : s.write convert bytes none = ⟨.ok, text, { s with
      state := (restOf (a ++ bytes)).2
      snapshot := { s.snapshot with
        bytes := (s.snapshot.bytes + bytes.length) % 2 ^ 64
        utf16Units := (s.snapshot.utf16Units + text.length) % 2 ^ 64
        writes := (s.snapshot.writes + 1) % 2 ^ 32
        pendingBytes := (restOf (a ++ bytes)).2.partials.length
        lastError := .ok } }⟩ := by
    unfold Utf8TerminalStream.write
    rw [h.ended, h.state, hcall, if_neg Bool.false_ne_true, if_neg hne]
    dsimp only
    rw [ite_self]
  have htextLen := congrArg List.length htext
  rw [List.length_append] at htextLen
  rw [hwrite]
  refine ⟨text, rfl, rfl, ⟨h.ended, rfl, ?_, ?_, rfl⟩, htext⟩
  · show (s.snapshot.bytes + bytes.length) % 2 ^ 64 = _
    rw [h.bytes, ← List.length_append, Nat.mod_eq_of_lt hlen]
  · show (s.snapshot.utf16Units + text.length) % 2 ^ 64 = _
    rw [h.utf16Units, htextLen, Nat.mod_eq_of_lt (Nat.lt_of_le_of_lt hroom hlen)]

/-- Writes each of which carries on. -/
lemma Follows.writeAll {a : List UInt8} {chunks : List (List UInt8)} (h : Follows convert s a)
    (hne : ∀ bytes ∈ chunks, bytes ≠ []) (hlen : (a ++ chunks.flatten).length < 2 ^ 64)
    (hroom : ∀ bytes, (convert bytes).length ≤ bytes.length)
    (hcontinues : ∀ before bytes behind, chunks = before ++ bytes :: behind →
      Continues convert (a ++ before.flatten) bytes) :
    ∃ text s', writeAll convert s chunks = .ok (text, s') ∧ Follows convert s' (a ++ chunks.flatten) ∧
      convert (restOf a).1 ++ text = convert (restOf (a ++ chunks.flatten)).1 := by
  induction chunks generalizing s a with
  | nil =>
    rw [List.flatten_nil, List.append_nil]
    exact ⟨[], s, rfl, h, List.append_nil _⟩
  | cons bytes chunks ih =>
    rw [List.flatten_cons, ← List.append_assoc] at hlen ⊢
    have hhere : Continues convert a bytes := by
      have := hcontinues [] bytes chunks rfl
      rwa [List.flatten_nil, List.append_nil] at this
    have hpart : (restOf (a ++ bytes)).1.length ≤ (a ++ bytes).length := by
      conv_rhs => rw [← restOf_append (a ++ bytes)]
      rw [List.length_append]
      exact Nat.le_add_right _ _
    obtain ⟨text, hresult, hpassed, hfollows, htext⟩ := h.write (hne bytes List.mem_cons_self) hhere
      (by rw [List.length_append] at hlen; omega) (Nat.le_trans (hroom _) hpart)
    obtain ⟨text', s', hall, hfollows', htext'⟩ := ih hfollows (fun b hb => hne b (List.mem_cons_of_mem _ hb)) hlen
      fun before c behind heq => by
        have := hcontinues (bytes :: before) c behind (by rw [heq]; rfl)
        rwa [List.flatten_cons, ← List.append_assoc] at this
    refine ⟨text ++ text', s', ?_, hfollows', ?_⟩
    · unfold Utf8TerminalStream.writeAll
      dsimp only
      rw [if_neg (not_not_intro hresult), hpassed, hall]
      rfl
    · rw [← List.append_assoc, htext, htext']

end Several

/-! ### The stream on well-formed text -/

/-- Every write fits an `int` together with the bytes that are held back in front of it. -/
def FitInt (chunks : List (List UInt8)) : Prop := ∀ before bytes behind, chunks = before ++ bytes :: behind →
  (restOf before.flatten).2.partials.length + bytes.length ≤ intMax

lemma length_held_le (bytes : List UInt8) : (restOf bytes).2.partials.length ≤ bytes.length := by
  conv_rhs => rw [← restOf_append bytes]
  rw [List.length_append]
  exact Nat.le_add_left _ _

lemma fitInt_of_length {chunks : List (List UInt8)} (h : chunks.flatten.length ≤ intMax) : FitInt chunks := by
  rintro before bytes behind rfl
  have hheld := length_held_le before.flatten
  rw [List.flatten_append, List.flatten_cons, List.length_append, List.length_append] at h
  omega

/-- The writes of a piece of well-formed text, up to the cut in it. -/
lemma writeAll_begin {convert : List UInt8 → List UInt16} (hexact : ∀ t, convert (encode t) = utf16 t)
    (hroom : ∀ bytes, (convert bytes).length ≤ bytes.length) (s : Utf8TerminalStream) {t : List Char}
    {chunks : List (List UInt8)} {rest : List UInt8} (hne : ∀ bytes ∈ chunks, bytes ≠ [])
    (ht : chunks.flatten ++ rest = encode t) (hlen : (encode t).length < 2 ^ 64) (hfit : FitInt chunks) :
    ∃ done todo tail back s', t = done ++ todo ∧ chunks.flatten = encode done ++ tail ∧ Cut todo tail back ∧
      (rest = [] → done = t ∧ tail = []) ∧ s.begin.writeAll convert chunks = .ok (utf16 done, s') ∧
      Follows convert s' chunks.flatten := by
  obtain ⟨done, todo, tail, back, rfl, hbytes, hcut⟩ := exists_cut ht
  have hnil : convert [] = [] := hexact []
  have hcontinues : ∀ before bytes behind, chunks = before ++ bytes :: behind →
      Continues convert ([] ++ before.flatten) bytes := by
    rintro before bytes behind rfl
    refine @continues_encode _ hexact hroom _ bytes (behind.flatten ++ rest) (done ++ todo) ?_ (hne bytes (by simp))
      (hfit before bytes behind rfl)
    rw [← ht, List.flatten_append, List.flatten_cons]
    simp only [List.nil_append, List.append_assoc]
  have hshort : ([] ++ chunks.flatten).length < 2 ^ 64 := by
    have := congrArg List.length ht
    rw [List.length_append] at this
    rw [List.nil_append]
    omega
  obtain ⟨text, s', hall, hfollows, htext⟩ := (@follows_begin s _ hnil).writeAll hne hshort hroom hcontinues
  rw [List.nil_append] at hfollows htext
  rw [hbytes, restOf_encode done hcut, hexact, restOf_nil, hnil, List.nil_append] at htext
  refine ⟨done, todo, tail, back, s', rfl, hbytes, hcut, ?_, htext ▸ hall, hfollows⟩
  rintro rfl
  rw [List.append_nil, hbytes, encode_append, List.append_cancel_left_eq] at ht
  obtain ⟨rfl, rfl⟩ := hcut.eq_nil ht.symm
  exact ⟨(List.append_nil _).symm, rfl⟩

/-- **Text in pieces.**  Behind every write of a piece of well-formed text the writer has got the text of
the complete characters, the counters are exact, and only the bytes of a cut character are held back.
A write that fails changes nothing but `lastError`. -/
theorem incremental_exact {convert : List UInt8 → List UInt16} (hexact : ∀ t, convert (encode t) = utf16 t)
    (hroom : ∀ bytes, (convert bytes).length ≤ bytes.length) :
    (∀ (s : Utf8TerminalStream) (t : List Char) (chunks : List (List UInt8)) (rest : List UInt8),
      (∀ bytes ∈ chunks, bytes ≠ []) → chunks.flatten ++ rest = encode t → (encode t).length < 2 ^ 64 → FitInt chunks →
      ∃ done todo tail back s', t = done ++ todo ∧ chunks.flatten = encode done ++ tail ∧ Cut todo tail back ∧
        (rest = [] → done = t ∧ tail = []) ∧
        s.begin.writeAll convert chunks = .ok (utf16 done, s') ∧
        s'.snapshot.bytes = chunks.flatten.length ∧ s'.snapshot.utf16Units = (utf16 done).length ∧
        s'.snapshot.pendingBytes = tail.length ∧
        s'.finish.1 = if tail = [] then .ok else .noUnicodeTranslation) ∧
    ∀ (s : Utf8TerminalStream) (bytes : List UInt8) (thrown : Option HResult),
      (s.write convert bytes thrown).result ≠ .ok →
      (s.write convert bytes thrown).stream = s.withError (s.write convert bytes thrown).result ∧
      ∀ thrown', (s.write convert bytes thrown).stream.write convert bytes thrown' = s.write convert bytes thrown' := by
  constructor
  · intro s t chunks rest hne ht hlen hfit
    obtain ⟨done, todo, tail, back, s', rfl, hbytes, hcut, hrest, hall, hfollows⟩ :=
      writeAll_begin hexact hroom s hne ht hlen hfit
    rw [hbytes] at hfollows
    have hheld := restOf_encode done hcut
    refine ⟨done, todo, tail, back, s', rfl, hbytes, hcut, hrest, hall, ?_, ?_, ?_, ?_⟩
    · rw [hfollows.bytes, hbytes]
    · rw [hfollows.utf16Units, hheld, hexact]
    · rw [hfollows.pendingBytes, hheld]
    · have hstate := hfollows.state
      rw [hheld] at hstate
      unfold finish
      rw [hfollows.ended, hstate, if_neg Bool.false_ne_true]
      by_cases htail : tail = []
      · rw [if_neg (not_not_intro htail), if_pos htail]
      · rw [if_pos htail, if_neg htail]
  · intro s bytes thrown h
    have hfailed := s.write_failed h
    refine ⟨hfailed, fun thrown' => ?_⟩
    rw [hfailed]
    exact s.write_withError convert thrown' _ (s.result_of_empty h)

/-- One character, in two writes. -/
theorem incremental_exact_twoBytes : ∃ s', ({} : Utf8TerminalStream).begin.writeAll replaced [[0xc4], [0x8d]] =
    .ok ([0x10d], s') ∧ s'.snapshot.bytes = 2 ∧ s'.snapshot.pendingBytes = 0 ∧ s'.finish.1 = .ok := by
  obtain ⟨done, todo, tail, back, s', -, -, -, hall, hok, hcount, -, hpending, hfinish⟩ :=
    (incremental_exact replaced_encode length_replaced_le).1 {} ['č'] [[0xc4], [0x8d]] [] (by decide) (by decide)
      (by decide) (fitInt_of_length (by decide))
  obtain ⟨rfl, rfl⟩ := hall rfl
  exact ⟨s', hok, hcount, hpending, hfinish⟩

lemma encode_replicate (n : ℕ) : encode (.replicate n 'a') = .replicate n 0x61 := by
  induction n with
  | zero => rfl
  | succ n ih =>
    rw [List.replicate_succ, encode_cons, ih, List.replicate_succ]
    rfl

/-- A write of 2 GiB is refused. -/
theorem incremental_aborts : ¬∀ (s : Utf8TerminalStream) (t : List Char) (chunks : List (List UInt8)),
    (∀ bytes ∈ chunks, bytes ≠ []) → chunks.flatten = encode t →
    ∃ s', s.begin.writeAll replaced chunks = .ok (utf16 t, s') := by
  intro h
  obtain ⟨n, hn⟩ : ∃ n, n = intMax + 1 := ⟨_, rfl⟩
  have hlong : ([.replicate n (0x61 : UInt8)] : List (List UInt8)).flatten = encode (.replicate n 'a') := by
    rw [encode_replicate, List.flatten_cons, List.flatten_nil, List.append_nil]
  have hne : (.replicate n 0x61 : List UInt8) ≠ [] := by
    intro hnil
    have hlen := congrArg List.length hnil
    rw [List.length_replicate, hn] at hlen
    exact absurd hlen (Nat.succ_ne_zero _)
  obtain ⟨s', hok⟩ := h {} (.replicate n 'a') [.replicate n 0x61] (by rintro bytes hbytes; rwa [List.mem_singleton.mp hbytes]) hlong
  have hcall : u8u16 replaced (.replicate n 0x61) {} = .error .abort :=
    u8u16_abort hne (by rw [List.length_replicate, hn]; exact Nat.lt_succ_self _)
  have hwrite : (({} : Utf8TerminalStream).begin.write replaced (.replicate n 0x61) none).result = .abort := by
    unfold write
    rw [show ({} : Utf8TerminalStream).begin.snapshot.ended = false from rfl, if_neg Bool.false_ne_true, if_neg hne,
      show ({} : Utf8TerminalStream).begin.state = {} from rfl, hcall]
  unfold writeAll at hok
  dsimp only at hok
  rw [hwrite, if_pos (by decide)] at hok
  cases hok

end Utf8TerminalStream

end VT7.Native
