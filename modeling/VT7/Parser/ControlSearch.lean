import VT7.Lib.Lanes
import VT7.Parser.Chunks
import VT7.Parser.Dispatches

/-!
# The search for control characters

`FindActionableControlCharacter` looks at eight characters at a time, with SSE2 or NEON instructions, and at the rest
one by one.  All of its versions find the first control character, and the control characters are those that the parser
does not print at ground (`findActionableControlCharacter_exact`).

The result is the distance from the beginning; it does not exist where the search would read behind the string.
-/

namespace VT7.Parser

open StateMachine
open VT7.Lib

/-- C0, delete and C1. -/
def isControlCharacter (wch : UInt16) : Bool := wch ≤ 0x1f || (0x7f ≤ wch && wch ≤ 0x9f)

/-! ### The versions -/

/-- The loop over single characters. -/
def plainSearch (string : List UInt16) (it : ℕ) : Option ℕ :=
  if it < string.length then do
    let wch ← string[it]?
    if isActionableFromGround wch then return it
    else plainSearch string (it + 1)
  else some it
termination_by string.length - it

/-- `c` of the SSE2 loop. -/
def sse2Flags (wch : Lanes 8) : Lanes 8 :=
  let z := Lanes.set1 0
  let a := wch.subs (Lanes.set1 0x1f)
  let b := (wch.add (Lanes.set1 0xff81)).subs (Lanes.set1 0x20)
  (a.cmpeq z).or (b.cmpeq z)

/-- The SSE2 version. -/
def sse2Search (string : List UInt16) (it : ℕ) : Option ℕ :=
  if it < Nat.ldiff string.length 7 then do
    let wch ← Lanes.load 8 string it
    let mask := (sse2Flags wch).movemaskEpi8
    if mask ≠ 0 then
      let offset ← bitScanForward mask
      return it + offset / 2
    else sse2Search string (it + 8)
  else plainSearch string it
termination_by Nat.ldiff string.length 7 - it

/-- `c` of the NEON loop. -/
def neonFlags (wch : Lanes 8) : Lanes 8 :=
  let a := wch.cmple (Lanes.set1 0x1f)
  let b := (wch.sub (Lanes.set1 0x7f)).cmple (Lanes.set1 0x20)
  a.or b

/-- The NEON version. -/
def neonSearch (string : List UInt16) (it : ℕ) : Option ℕ :=
  if it < Nat.ldiff string.length 7 then do
    let wch ← Lanes.load 8 string it
    let c := neonFlags wch
    let mask := c.laneU64 0
    if mask ≠ 0 then
      let offset ← bitScanForward mask
      return it + offset / 16
    else
      let it := it + 4
      let mask := c.laneU64 1
      if mask ≠ 0 then
        let offset ← bitScanForward mask
        return it + offset / 16
      else neonSearch string (it + 4)
  else plainSearch string it
termination_by Nat.ldiff string.length 7 - it

/-! ### Flags -/

lemma isActionable_eq (wch : UInt16) : isActionableFromGround wch = isControlCharacter wch := by
  have hlt := wch.toNat_lt
  have hc : (0x1f : UInt16).toNat = 0x1f ∧ (0x20 : UInt16).toNat = 0x20 ∧ (0x7f : UInt16).toNat = 0x7f ∧
      (0x9f : UInt16).toNat = 0x9f := by decide
  unfold isActionableFromGround isControlCharacter
  rw [Bool.eq_iff_iff]
  simp only [Bool.or_eq_true, Bool.and_eq_true, decide_eq_true_eq, UInt16.le_iff_toNat_le, UInt16.toNat_sub, hc.1,
    hc.2.1, hc.2.2.1, hc.2.2.2]
  omega

lemma sse2Flags_eq (wch : Lanes 8) : sse2Flags wch = Lanes.flags fun i => isControlCharacter (wch i) := by
  have hadd : (0xff81 : UInt16) = 0 - 0x7f := by decide
  unfold sse2Flags
  dsimp only
  rw [hadd, Lanes.cmpeq_subs, Lanes.cmpeq_subs_add, Lanes.or_flags]
  congr 1
  funext i
  exact isActionable_eq (wch i)

lemma neonFlags_eq (wch : Lanes 8) : neonFlags wch = Lanes.flags fun i => isControlCharacter (wch i) := by
  unfold neonFlags
  dsimp only
  rw [Lanes.cmple_set1, Lanes.cmple_set1, Lanes.or_flags]
  congr 1
  funext i
  exact isActionable_eq (wch i)

/-! ### Searches -/

section Searches

variable {string : List UInt16} {it : ℕ}

/-- No control character before this position. -/
def Clear (string : List UInt16) (it : ℕ) : Prop := ∀ i < it, isControlCharacter (string.getD i 0) = false

lemma Clear.extend {n : ℕ} (h : Clear string it)
    (hnext : ∀ i < n, isControlCharacter (string.getD (it + i) 0) = false) : Clear string (it + n) := by
  intro i hi
  rcases Nat.lt_or_ge i it with hlt | hge
  · exact h i hlt
  · obtain ⟨k, rfl⟩ := Nat.exists_eq_add_of_le hge
    exact hnext k (by omega)

/-- A control character with none before it. -/
lemma Clear.found (h : Clear string it) (hit : it < string.length)
    (hcontrol : isControlCharacter (string.getD it 0) = true) : it = string.findIdx isControlCharacter := by
  rw [List.getD_eq_getElem _ _ hit] at hcontrol
  symm
  rw [List.findIdx_eq hit]
  refine ⟨hcontrol, fun j hj => ?_⟩
  have hclear := h j hj
  rwa [List.getD_eq_getElem _ _ (hj.trans hit)] at hclear

lemma Clear.end (h : Clear string string.length) : string.length = string.findIdx isControlCharacter := by
  symm
  rw [List.findIdx_eq_length]
  intro wch hwch
  obtain ⟨i, hi, rfl⟩ := List.getElem_of_mem hwch
  have hclear := h i hi
  rwa [List.getD_eq_getElem _ _ hi] at hclear

theorem plainSearch_spec (h : Clear string it) (hit : it ≤ string.length) :
    plainSearch string it = some (string.findIdx isControlCharacter) := by
  induction hn : string.length - it generalizing it with
  | zero =>
    obtain rfl : it = string.length := by omega
    unfold plainSearch
    rw [if_neg (Nat.lt_irrefl _), h.end]
  | succ n ih =>
    have hlt : it < string.length := by omega
    have hwch : string[it]? = some (string.getD it 0) := by
      rw [List.getElem?_eq_getElem hlt, List.getD_eq_getElem _ _ hlt]
    unfold plainSearch
    rw [if_pos hlt, hwch, Option.bind_eq_bind, Option.bind_some, isActionable_eq]
    cases hcontrol : isControlCharacter (string.getD it 0) with
    | true =>
      rw [if_pos rfl, ← h.found hlt hcontrol]
      rfl
    | false =>
      rw [if_neg Bool.false_ne_true]
      exact ih (h.extend fun i hi => by obtain rfl := Nat.lt_one_iff.mp hi; exact hcontrol) hlt (by omega)

/-- Eight characters fit before the end of the vector loop. -/
lemma fits_of_lt (haligned : it % 8 = 0) (hlt : it < Nat.ldiff string.length 7) : it + 8 ≤ string.length := by
  rw [show (7 : ℕ) = 2 ^ 3 - 1 from rfl, ldiff_two_pow_sub_one] at hlt
  omega

theorem sse2Search_spec (h : Clear string it) (hit : it ≤ string.length) (haligned : it % 8 = 0) :
    sse2Search string it = some (string.findIdx isControlCharacter) := by
  induction hn : string.length - it using Nat.strong_induction_on generalizing it with
  | h n ih =>
    unfold sse2Search
    by_cases hlt : it < Nat.ldiff string.length 7
    swap
    · rw [if_neg hlt]
      exact plainSearch_spec h hit
    have hfits := fits_of_lt haligned hlt
    obtain ⟨wch, hload, hlanes⟩ := Lanes.load_of_le hfits
    -- Two bits of the mask for each of the eight characters.
    have hmask : ∀ j < 16,
        (sse2Flags wch).movemaskEpi8.getLsbD j = isControlCharacter (string.getD (it + j / 2) 0) := by
      intro j hj
      rw [sse2Flags_eq, Lanes.getLsbD_movemaskEpi8 _ hj, hlanes]
    rw [if_pos hlt, hload, Option.bind_eq_bind, Option.bind_some]
    dsimp only
    rcases firstFlag_of_group (n := 8) (fun i => isControlCharacter (string.getD (it + i) 0)) Nat.two_pos rfl
      hmask with ⟨hzero, hnone⟩ | ⟨hne, offset, hscan, hbelow, hflag, hbefore⟩
    · rw [if_neg (not_not_intro hzero)]
      exact ih _ (by omega) (h.extend hnone) hfits (by omega) rfl
    · rw [if_pos hne, hscan, Option.bind_eq_bind, Option.bind_some]
      exact congrArg some ((h.extend hbefore).found (by omega) hflag)

theorem neonSearch_spec (h : Clear string it) (hit : it ≤ string.length) (haligned : it % 8 = 0) :
    neonSearch string it = some (string.findIdx isControlCharacter) := by
  induction hn : string.length - it using Nat.strong_induction_on generalizing it with
  | h n ih =>
    unfold neonSearch
    by_cases hlt : it < Nat.ldiff string.length 7
    swap
    · rw [if_neg hlt]
      exact plainSearch_spec h hit
    have hfits := fits_of_lt haligned hlt
    obtain ⟨wch, hload, hlanes⟩ := Lanes.load_of_le hfits
    -- Sixteen bits of a half for each of its four characters.
    have hmask : ∀ half : Fin 2, ∀ j < 64, ((neonFlags wch).laneU64 half).getLsbD j =
        isControlCharacter (string.getD (it + 4 * half + j / 16) 0) := by
      intro half j hj
      rw [neonFlags_eq, Lanes.getLsbD_laneU64 _ _ hj, hlanes, Nat.add_assoc]
    have hgroup := fun half : Fin 2 => firstFlag_of_group (n := 4)
      (fun i => isControlCharacter (string.getD (it + 4 * half + i) 0)) (Nat.zero_lt_succ 15) rfl (hmask half)
    rw [if_pos hlt, hload, Option.bind_eq_bind, Option.bind_some]
    dsimp only
    rcases hgroup 0 with ⟨hzero, hnone⟩ | ⟨hne, offset, hscan, hbelow, hflag, hbefore⟩
    swap
    · rw [if_pos hne, hscan, Option.bind_eq_bind, Option.bind_some]
      exact congrArg some ((h.extend hbefore).found (by omega) hflag)
    have hhalf : Clear string (it + 4) := h.extend hnone
    rw [if_neg (not_not_intro hzero)]
    rcases hgroup 1 with ⟨hzero, hnone⟩ | ⟨hne, offset, hscan, hbelow, hflag, hbefore⟩
    · rw [if_neg (not_not_intro hzero)]
      exact ih _ (by omega) (hhalf.extend hnone) hfits (by omega) rfl
    · rw [if_pos hne, hscan, Option.bind_eq_bind, Option.bind_some]
      exact congrArg some ((hhalf.extend hbefore).found (by omega) hflag)

end Searches

/-! ### At ground -/

section Ground

variable (engine : Engine) {m : StateMachine}

/-- The actions of an escape sequence print nothing. -/
lemma actions_unprinted_escape (hstate : m.state = .escape) (wch : UInt16) :
    ∀ a ∈ m.actions engine wch, a.isPrint = false := by
  unfold actions
  split_ifs
  · simp [Action.isPrint]
  · simp [Action.isPrint]
  · rw [hstate]
    show ∀ a ∈ eventEscape _ _ _, _
    unfold eventEscape
    split_ifs <;> simp [Action.isPrint]

/-- At ground, the actions of a control character that is no C1 control print nothing. -/
lemma actions_unprinted_ground (hground : m.state = .ground) {wch : UInt16} (hwch : isControlCharacter wch = true)
    (hc1 : isC1ControlCharacter wch = false) : ∀ a ∈ m.actions engine wch, a.isPrint = false := by
  have hstate : m.state ≠ .escape ∧ m.state ≠ .oscString ∧ m.state ≠ .oscParam := by
    rw [hground]
    decide
  unfold actions
  split_ifs with hanywhere hescape
  · simp [Action.isPrint]
  · simp [Action.isPrint]
  · have hnot : wch ≠ can ∧ wch ≠ sub ∧ wch ≠ esc := by
      refine ⟨?_, ?_, ?_⟩
      · exact fun h => hanywhere ⟨.inl h, fun h => hstate.1 h.1⟩
      · exact fun h => hanywhere ⟨.inr h, fun h => hstate.1 h.1⟩
      · exact fun h => hescape ⟨beq_iff_eq.mpr h, hstate.2⟩
    have hcontrol : (isC0Code wch || isDelete wch) = true := by
      unfold isControlCharacter at hwch
      unfold isC1ControlCharacter at hc1
      unfold can sub esc at hnot
      unfold isC0Code isDelete
      simp only [Bool.or_eq_true, Bool.and_eq_true, Bool.and_eq_false_iff, decide_eq_true_eq, decide_eq_false_iff_not,
        beq_iff_eq, UInt16.le_iff_toNat_le, ne_eq, ← UInt16.toNat_inj] at hwch hc1 hnot ⊢
      simp only [UInt16.reduceToNat] at hwch hc1 hnot ⊢
      omega
    rw [hground]
    show ∀ a ∈ eventGround wch, _
    unfold eventGround
    rw [hcontrol, if_pos rfl]
    simp [Action.isPrint]

lemma performAll_unprinted {actions : List Action} (hactions : ∀ a ∈ actions, a.isPrint = false) :
    Adds (fun c => c.isPrint = false) m (m.performAll engine actions) := by
  induction actions generalizing m with
  | nil => exact .of_eq rfl
  | cons a actions ih =>
    have hfirst : Adds (fun c => c.isPrint = false) m (m.perform engine a) := by
      refine perform_adds_of engine m (fun c _ hc => hc) (fun _ _ => rfl) fun hprint => ?_
      rw [hactions a List.mem_cons_self] at hprint
      cases hprint
    exact hfirst.trans (ih fun a ha => hactions a (List.mem_cons_of_mem _ ha))

/-- At ground, a control character prints nothing. -/
theorem processCharacter_unprinted (hground : m.state = .ground) {wch : UInt16}
    (hwch : isControlCharacter wch = true) :
    Adds (fun c => c.isPrint = false) m (m.processCharacter engine wch) := by
  unfold processCharacter
  cases hc1 : isC1ControlCharacter wch with
  | false =>
    rw [if_neg Bool.false_ne_true]
    exact performAll_unprinted engine (actions_unprinted_ground engine hground hwch hc1)
  | true =>
    rw [if_pos rfl]
    split_ifs
    · -- The C1 control is taken for an escape and a second character.
      have hescape : m.actions engine esc = [.interrupt, .enter .escape] := by
        unfold actions
        rw [hground]
        rfl
      have hfirst : Adds (fun c => c.isPrint = false) m (m.processPlain engine esc) := by
        refine performAll_unprinted engine fun a ha => ?_
        rw [hescape] at ha
        rcases List.mem_cons.mp ha with rfl | ha
        · rfl
        · obtain rfl := List.mem_singleton.mp ha
          rfl
      have hstate : (m.processPlain engine esc).state = .escape := by
        unfold processPlain
        rw [hescape]
        rfl
      exact hfirst.trans (performAll_unprinted engine (actions_unprinted_escape engine hstate _))
    · exact .of_eq rfl

/-- A print is a print. -/
lemma perform_print_prints (wch : UInt16) : ¬ Adds (fun c => c.isPrint = false) m (m.perform engine (.print wch)) := by
  rintro ⟨calls, hcalls, hnone⟩
  obtain ⟨passes, hpasses, -⟩ := afterCall_passes engine (m.quietCall (.print wch))
  have hnew : calls = .print wch :: passes := by
    have heq : m.calls ++ calls = m.calls ++ [.print wch] ++ passes := hcalls.symm.trans hpasses
    rw [List.append_assoc] at heq
    exact List.append_cancel_left heq
  have hprint := hnone (.print wch) (by rw [hnew]; exact List.mem_cons_self)
  cases hprint

end Ground

/-- **The search for control characters.**  All versions find the first one, or the end; at ground the parser prints
every other character, and for these it does not print. -/
theorem findActionableControlCharacter_exact :
    (∀ string : List UInt16,
      sse2Search string 0 = some (string.findIdx isControlCharacter) ∧
      neonSearch string 0 = some (string.findIdx isControlCharacter) ∧
      plainSearch string 0 = some (string.findIdx isControlCharacter)) ∧
    ∀ (engine : Engine) (m : StateMachine), m.state = .ground → ∀ wch,
      (isControlCharacter wch = true ↔ Adds (fun c => c.isPrint = false) m (m.processCharacter engine wch)) ∧
      (isControlCharacter wch = false ↔ m.processCharacter engine wch = m.perform engine (.print wch)) := by
  constructor
  · intro string
    have hstart : Clear string 0 := fun i hi => absurd hi (Nat.not_lt_zero i)
    exact ⟨sse2Search_spec hstart (Nat.zero_le _) rfl, neonSearch_spec hstart (Nat.zero_le _) rfl,
      plainSearch_spec hstart (Nat.zero_le _)⟩
  · intro engine m hground wch
    cases hwch : isControlCharacter wch with
    | false =>
      have hprints := processCharacter_ground engine hground ((isActionable_eq wch).trans hwch)
      refine ⟨iff_of_false Bool.false_ne_true ?_, iff_of_true rfl hprints⟩
      rw [hprints]
      exact perform_print_prints engine wch
    | true =>
      have hnone := processCharacter_unprinted engine hground hwch
      refine ⟨iff_of_true rfl hnone, iff_of_false Bool.noConfusion fun hprints => ?_⟩
      rw [hprints] at hnone
      exact perform_print_prints engine wch hnone

theorem findActionableControlCharacter_exact_escape :
    isControlCharacter esc = true ↔ Adds (fun c => c.isPrint = false) { parserMode := ⟨false, true⟩ }
      (processCharacter acceptingEngine { parserMode := ⟨false, true⟩ } esc) :=
  (findActionableControlCharacter_exact.2 acceptingEngine { parserMode := ⟨false, true⟩ } rfl esc).1

end VT7.Parser
