import Mathlib.Data.List.Basic
import Mathlib.Data.List.Infix
import Mathlib.Tactic.Ring

/-!
Sequential wire formats: readers that take symbols from the front of a list or fail, and machine
words as little-endian bytes.

`Reads r w v` says that the reader `r` takes exactly the word `w`, as the value `v`, whatever
follows it, and that it fails on every proper prefix of `w`.  The relation composes along `bind`, so
a reader of a record is proved field by field; `Reads.whole` then says what the parser of a
complete message accepts.
-/

namespace VT7.Lib.Wire

variable {ε α β γ : Type}

/-- A reader of symbols: what is left to read is its state. -/
abbrev Reader (ε α : Type) := StateT (List α) (Except ε)

/-- A list of a fixed length. -/
abbrev Block (α : Type) (n : ℕ) := { l : List α // l.length = n }

/-- Take `n` symbols, or fail with `e` when fewer are left. -/
def take (e : ε) (n : ℕ) : Reader ε α (Block α n) := fun s =>
  if h : n ≤ s.length then .ok (⟨s.take n, List.length_take_of_le h⟩, s.drop n) else .error e

/-- Go on only under a condition. -/
def require (c : Bool) (e : ε) : Reader ε α Unit := fun s => if c then .ok ((), s) else .error e

/-- `n` readings in a row. -/
def times (r : Reader ε α β) : ℕ → Reader ε α (List β)
  | 0 => pure []
  | n + 1 => do
    let b ← r
    let bs ← times r n
    pure (b :: bs)

/-- Whether everything has been read. -/
def atEnd : Reader ε α Bool := fun s => .ok (s.isEmpty, s)

/-- What a reader makes of a complete message, whatever it leaves unread. -/
def parse (r : Reader ε α β) (body : List α) : Except ε β := Prod.fst <$> r.run body

/-! ### Reading one word -/

/-- The reader takes exactly the word `w`, as `v`: it does so whatever follows, and it fails when
the word is cut short. -/
structure Reads (r : Reader ε α β) (w : List α) (v : β) : Prop where
  exact : ∀ rest, r (w ++ rest) = .ok (v, rest)
  short : ∀ p, p <+: w → p ≠ w → ∃ e, r p = .error e

lemma bind_ok {r : Reader ε α β} {f : β → Reader ε α γ} {s s' : List α} {v : β}
    (h : r s = .ok (v, s')) : (r >>= f) s = f v s' := by
  show (r s >>= fun p => f p.1 p.2) = _
  rw [h]
  rfl

lemma bind_error {r : Reader ε α β} {f : β → Reader ε α γ} {s : List α} {e : ε}
    (h : r s = .error e) : (r >>= f) s = .error e := by
  show (r s >>= fun p => f p.1 p.2) = _
  rw [h]
  rfl

/-- The reader's answers come from the first reader and then the second. -/
lemma bind_eq_ok {r : Reader ε α β} {f : β → Reader ε α γ} {s t : List α} {c : γ}
    (h : (r >>= f) s = .ok (c, t)) : ∃ b u, r s = .ok (b, u) ∧ f b u = .ok (c, t) := by
  rcases hr : r s with e | ⟨b, u⟩
  · rw [bind_error hr] at h
    cases h
  · rw [bind_ok hr] at h
    exact ⟨b, u, rfl, h⟩

lemma require_bind_eq_ok {c : Bool} {e : ε} {f : Unit → Reader ε α γ} {s t : List α} {v : γ}
    (h : (require c e >>= f) s = .ok (v, t)) : c = true ∧ f () s = .ok (v, t) := by
  obtain ⟨u, s', hr, hf⟩ := bind_eq_ok h
  cases c with
  | true =>
    cases hr
    exact ⟨rfl, hf⟩
  | false => cases hr

lemma Reads.pure (v : β) : Reads (Pure.pure v : Reader ε α β) [] v := by
  refine ⟨fun rest => rfl, fun p hp hne => ?_⟩
  exact absurd (List.prefix_nil.mp hp) hne

lemma Reads.of_eq {r : Reader ε α β} {w w' : List α} {v v' : β} (h : Reads r w v) (hw : w = w')
    (hv : v = v') : Reads r w' v' := by
  subst hw hv
  exact h

lemma Reads.bind {r : Reader ε α β} {f : β → Reader ε α γ} {w w' : List α} {v : β} {v' : γ}
    (h : Reads r w v) (h' : Reads (f v) w' v') : Reads (r >>= f) (w ++ w') v' := by
  constructor
  · intro rest
    rw [List.append_assoc, bind_ok (h.exact _)]
    exact h'.exact rest
  · intro p hp hne
    rcases List.prefix_or_prefix_of_prefix hp (List.prefix_append w w') with hpw | ⟨q, rfl⟩
    · rcases eq_or_ne p w with rfl | hpne
      · -- the first word is whole and nothing of the second is there
        have hw' : ([] : List α) ≠ w' := by
          rintro rfl
          simp at hne
        obtain ⟨e, he⟩ := h'.short [] List.nil_prefix hw'
        have hr := h.exact []
        rw [List.append_nil] at hr
        exact ⟨e, by rw [bind_ok hr, he]⟩
      · obtain ⟨e, he⟩ := h.short p hpw hpne
        exact ⟨e, bind_error he⟩
    · have hq : q <+: w' := (List.prefix_append_right_inj w).mp hp
      have hq' : q ≠ w' := by
        rintro rfl
        exact hne rfl
      obtain ⟨e, he⟩ := h'.short q hq hq'
      exact ⟨e, by rw [bind_ok (h.exact q), he]⟩

/-- A condition that holds takes nothing. -/
lemma Reads.require {c : Bool} {e : ε} (h : c = true) : Reads (Wire.require c e : Reader ε α Unit) [] () := by
  subst h
  refine ⟨fun rest => rfl, fun p hp hne => ?_⟩
  exact absurd (List.prefix_nil.mp hp) hne

lemma Reads.require_bind {c : Bool} {e : ε} {f : Unit → Reader ε α β} {w : List α} {v : β}
    (h : c = true) (hf : Reads (f ()) w v) : Reads (Wire.require c e >>= f) w v :=
  (Reads.require h).bind hf

lemma length_lt_of_proper {p w : List α} (hp : p <+: w) (hne : p ≠ w) : p.length < w.length := by
  refine lt_of_le_of_ne hp.length_le fun h => hne ?_
  exact hp.eq_of_length h

lemma Reads.take {e : ε} {n : ℕ} (w : Block α n) : Reads (Wire.take e n) w.1 w := by
  obtain ⟨w, rfl⟩ := w
  constructor
  · intro rest
    simp [Wire.take]
  · intro p hp hne
    have hlt := length_lt_of_proper hp hne
    exact ⟨e, by simp [Wire.take, Nat.not_le.mpr hlt]⟩

/-- The last field of a record: its value is passed on by a function. -/
lemma Reads.bind_pure {r : Reader ε α β} {w : List α} {v : β} {f : β → γ} (h : Reads r w v) :
    Reads (r >>= fun b => Pure.pure (f b)) w (f v) := by
  have hb := h.bind (f := fun b => Pure.pure (f b)) (Reads.pure (f v))
  rw [List.append_nil] at hb
  exact hb

lemma Reads.map {r : Reader ε α β} {w : List α} {v : β} (f : β → γ) (h : Reads r w v) :
    Reads (f <$> r) w (f v) := h.bind_pure

/-- The counted repetition of a reader over the words of a list of values. -/
lemma Reads.times {δ : Type} {r : Reader ε α β} {word : δ → List α} {v : δ → β} {ds : List δ}
    (h : ∀ d ∈ ds, Reads r (word d) (v d)) :
    Reads (Wire.times r ds.length) (ds.flatMap word) (ds.map v) := by
  induction ds with
  | nil => exact Reads.pure _
  | cons d ds ih =>
    have hd := h d List.mem_cons_self
    have hds := ih fun d' hd' => h d' (List.mem_cons_of_mem _ hd')
    exact hd.bind hds.bind_pure

/-! ### What a reader has taken -/

/-- What the reader takes ends with the symbols `tail v` of its value. -/
def Ends (r : Reader ε α β) (tail : β → List α) : Prop :=
  ∀ s v t, r s = .ok (v, t) → ∃ w, s = w ++ (tail v ++ t)

/-- The reader takes its symbols from the front. -/
def Takes (r : Reader ε α β) : Prop := Ends r fun _ => []

lemma Ends.takes {r : Reader ε α β} {tail : β → List α} (h : Ends r tail) : Takes r := by
  intro s v t hr
  obtain ⟨w, rfl⟩ := h s v t hr
  exact ⟨w ++ tail v, by simp⟩

lemma Ends.bind {r : Reader ε α β} {f : β → Reader ε α γ} {tail : γ → List α} (hr : Takes r)
    (hf : ∀ b, Ends (f b) tail) : Ends (r >>= f) tail := by
  intro s v t h
  obtain ⟨b, u, hb, hv⟩ := bind_eq_ok h
  obtain ⟨w, rfl⟩ := hr s b u hb
  obtain ⟨w', rfl⟩ := hf b u v t hv
  exact ⟨w ++ w', by simp⟩

lemma takes_pure (v : β) : Takes (Pure.pure v : Reader ε α β) := by
  intro s v' t h
  cases h
  exact ⟨[], rfl⟩

lemma takes_require (c : Bool) (e : ε) : Takes (require c e : Reader ε α Unit) := by
  intro s v t h
  cases c with
  | true =>
    cases h
    exact ⟨[], rfl⟩
  | false => cases h

lemma take_eq_ok {e : ε} {n : ℕ} {s t : List α} {v : Block α n} (h : take e n s = .ok (v, t)) :
    s = v.1 ++ t := by
  unfold take at h
  split at h
  · cases h
    exact (List.take_append_drop n s).symm
  · cases h

lemma ends_take (e : ε) (n : ℕ) : Ends (take e n : Reader ε α (Block α n)) Subtype.val := by
  intro s v t h
  exact ⟨[], take_eq_ok h⟩

/-- The last field of a record, when the value holds it. -/
lemma Ends.bind_pure {r : Reader ε α β} {tail : β → List α} {f : β → γ} {tail' : γ → List α}
    (hr : Ends r tail) (hf : ∀ b, tail' (f b) = tail b) :
    Ends (r >>= fun b => Pure.pure (f b)) tail' := by
  intro s v t h
  obtain ⟨b, u, hb, hv⟩ := bind_eq_ok h
  cases hv
  obtain ⟨w, rfl⟩ := hr s b _ hb
  exact ⟨w, by rw [hf]⟩

lemma Takes.map {r : Reader ε α β} (hr : Takes r) (f : β → γ) : Takes (f <$> r) :=
  Ends.bind_pure hr fun _ => rfl

lemma Takes.times {r : Reader ε α β} (hr : Takes r) (n : ℕ) : Takes (times r n) := by
  induction n with
  | zero => exact takes_pure _
  | succ n ih => exact Ends.bind hr fun b => Ends.bind_pure ih fun _ => rfl

lemma parse_eq_ok {r : Reader ε α β} {body : List α} {v : β} (h : parse r body = .ok v) :
    ∃ t, r body = .ok (v, t) := by
  unfold parse at h
  rcases hr : r body with e | ⟨b, t⟩
  · rw [show r.run body = r body from rfl, hr] at h
    cases h
  · rw [show r.run body = r body from rfl, hr] at h
    cases h
    exact ⟨t, rfl⟩

/-- A reader that ends with the end check has read everything. -/
lemma atEnd_eq_ok {r : Reader ε α β} {e : ε} {s t : List α} {v : β}
    (h : (do
      let b ← r
      require (← atEnd) e
      Pure.pure b : Reader ε α β) s = .ok (v, t)) : r s = .ok (v, []) := by
  obtain ⟨b, u, hb, h⟩ := bind_eq_ok h
  obtain ⟨done, u', hdone, h⟩ := bind_eq_ok h
  cases hdone
  obtain ⟨hempty, h⟩ := require_bind_eq_ok h
  cases h
  rw [hb, List.isEmpty_iff.mp hempty]

/-! ### Complete messages -/

/-- The parser of a complete message accepts `w`, as `v`, and neither a proper prefix nor a proper
extension of it. -/
structure Only (p : List α → Except ε β) (w : List α) (v : β) : Prop where
  accepts : p w = .ok v
  truncated : ∀ q, q <+: w → q ≠ w → ∃ e, p q = .error e
  extended : ∀ rest, rest ≠ [] → ∃ e, p (w ++ rest) = .error e

/-- A reader followed by the check that nothing is left accepts exactly the word it takes.  The reader
may copy parts of the message into its value. -/
theorem Reads.whole {r : List α → Reader ε α β} {w : List α} {v : List α → β} {e : ε}
    (h : ∀ body, Reads (r body) w (v body)) :
    Only (fun body => parse (do
      let b ← r body
      Wire.require (← atEnd) e
      Pure.pure b) body) w (v w) := by
  constructor
  · have hr := (h w).exact []
    rw [List.append_nil] at hr
    show Prod.fst <$> (r w >>= _) w = _
    rw [bind_ok hr]
    rfl
  · intro q hq hne
    obtain ⟨e', he'⟩ := (h q).short q hq hne
    refine ⟨e', ?_⟩
    show Prod.fst <$> (r q >>= _) q = _
    rw [bind_error he']
    rfl
  · intro rest hrest
    refine ⟨e, ?_⟩
    show Prod.fst <$> (r (w ++ rest) >>= _) (w ++ rest) = _
    rw [bind_ok ((h (w ++ rest)).exact rest)]
    cases rest with
    | nil => exact absurd rfl hrest
    | cons a as => rfl

/-- The same with a check of the value in front of the end check. -/
theorem Reads.whole_checked {r : Reader ε α β} {w : List α} {v : β} {c : β → Bool} {f : β → γ} {e : ε}
    (h : Reads r w v) (hc : c v = true) :
    Only (parse (do
      let b ← r
      Wire.require (c b && (← atEnd)) e
      Pure.pure (f b))) w (f v) := by
  constructor
  · have hr := h.exact []
    rw [List.append_nil] at hr
    show Prod.fst <$> (r >>= _) w = _
    rw [bind_ok hr, hc]
    rfl
  · intro q hq hne
    obtain ⟨e', he'⟩ := h.short q hq hne
    refine ⟨e', ?_⟩
    show Prod.fst <$> (r >>= _) q = _
    rw [bind_error he']
    rfl
  · intro rest hrest
    refine ⟨e, ?_⟩
    show Prod.fst <$> (r >>= _) (w ++ rest) = _
    rw [bind_ok (h.exact rest), hc]
    cases rest with
    | nil => exact absurd rfl hrest
    | cons a as => rfl

/-- A condition on the whole message before it is parsed: it must hold of the message itself. -/
lemma Only.guard {p : List α → Except ε β} {w : List α} {v : β} {c : List α → Prop} [DecidablePred c]
    {e : ε} (h : Only p w v) (hc : c w) : Only (fun body => if c body then p body else .error e) w v := by
  constructor
  · show (if c w then p w else .error e) = _
    rw [if_pos hc]
    exact h.accepts
  · intro q hq hne
    show ∃ e', (if c q then p q else .error e) = _
    split
    · exact h.truncated q hq hne
    · exact ⟨e, rfl⟩
  · intro rest hrest
    show ∃ e', (if c (w ++ rest) then p (w ++ rest) else .error e) = _
    split
    · exact h.extended rest hrest
    · exact ⟨e, rfl⟩

/-! ### Little-endian words -/

/-- The `n` lowest bytes of a word, the lowest first. -/
def leBytes {w : ℕ} (n : ℕ) (v : BitVec w) : List UInt8 :=
  (List.range n).map fun i => ⟨(v >>> (8 * i)).setWidth 8⟩

/-- A byte shifted to the place `i` of a word. -/
def place (w : ℕ) (b : UInt8) (i : ℕ) : BitVec w := b.toBitVec.setWidth w <<< (8 * i)

/-- The word of some bytes: each is put in its place. -/
def leWord (w : ℕ) (bs : List UInt8) : BitVec w :=
  bs.zipIdx.foldl (fun v b => v ||| place w b.1 b.2) 0

@[simp] lemma leBytes_length {w : ℕ} (n : ℕ) (v : BitVec w) : (leBytes n v).length = n := by
  simp [leBytes]

lemma foldl_or_bit {w : ℕ} {δ : Type} (f : δ → BitVec w) (ds : List δ) (a : BitVec w) (j : ℕ) :
    (ds.foldl (fun v d => v ||| f d) a).getLsbD j =
      (a.getLsbD j || ds.any fun d => (f d).getLsbD j) := by
  induction ds generalizing a with
  | nil => simp
  | cons d ds ih =>
    rw [List.foldl_cons, ih, List.any_cons, BitVec.getLsbD_or, Bool.or_assoc]

lemma zipIdx_range_map {δ : Type} (g : ℕ → δ) (n : ℕ) :
    ((List.range n).map g).zipIdx = (List.range n).map fun i => (g i, i) := by
  apply List.ext_getElem
  · simp
  · intro i h₁ h₂
    simp

/-- Joining the bytes of a word gives the word back. -/
theorem leWord_leBytes {n : ℕ} (v : BitVec (8 * n)) : leWord (8 * n) (leBytes n v) = v := by
  apply BitVec.eq_of_getLsbD_eq
  intro j hj
  rw [leWord, leBytes, zipIdx_range_map, foldl_or_bit, List.any_map]
  -- the only byte that can hold bit `j` is the one at `j / 8`
  have hbit : ∀ i, ((fun b : UInt8 × ℕ => (place (8 * n) b.1 b.2).getLsbD j) ∘
      fun i => ((⟨(v >>> (8 * i)).setWidth 8⟩ : UInt8), i)) i =
        (decide (i = j / 8) && v.getLsbD j) := by
    intro i
    have hi : (i = j / 8) ↔ (8 * i ≤ j ∧ j - 8 * i < 8) := by omega
    simp only [Function.comp, place, BitVec.getLsbD_shiftLeft, BitVec.getLsbD_setWidth,
      BitVec.getLsbD_ushiftRight, hi]
    by_cases h₁ : 8 * i ≤ j
    · have h₃ : 8 * i + (j - 8 * i) = j := by omega
      have h₄ : j - 8 * i < 8 * n := by omega
      simp [hj, h₁, h₃, h₄]
    · simp [h₁, Nat.lt_of_not_le h₁]
  rw [Bool.eq_iff_iff]
  simp only [BitVec.ofNat_eq_ofNat, BitVec.getLsbD_zero, Bool.false_or, List.any_eq_true, hbit,
    List.mem_range, Bool.and_eq_true, decide_eq_true_eq]
  constructor
  · rintro ⟨i, -, -, h⟩
    exact h
  · intro h
    exact ⟨j / 8, by omega, rfl, h⟩

end VT7.Lib.Wire
