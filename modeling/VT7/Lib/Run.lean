import Mathlib.Data.Option.Basic
import Mathlib.Order.Nat

/-!
# Runs of a machine

A machine is a step function on a state and an event; `none` says that the event is not possible in
the state.  What a run preserves follows from what a step preserves (`run_invariant`), also when
every event of the run meets a condition in the state where it happens (`Along`).  `run_turn` finds
the step in which something became true, `run_exhausts` bounds how long something can last.
-/

namespace VT7.Lib.Run

variable {σ ε : Type*} (step : σ → ε → Option σ)

/-- The state behind a list of events. -/
def run : σ → List ε → Option σ
  | s, [] => some s
  | s, e :: es => (step s e).bind fun s' => run s' es

/-- Every event of the run meets the condition where it happens. -/
def Along (good : σ → ε → Prop) : σ → List ε → Prop
  | _, [] => True
  | s, e :: es => good s e ∧ ∀ s', step s e = some s' → Along good s' es

/-- `Along`, computed from a check of the condition. -/
def checkAlong (check : σ → ε → Bool) : σ → List ε → Bool
  | _, [] => true
  | s, e :: es => check s e && match step s e with
    | some s' => checkAlong check s' es
    | none => true

/-- How many events of the run are active where they happen. -/
def countAlong (active : σ → ε → Bool) : σ → List ε → ℕ
  | _, [] => 0
  | s, e :: es => (if active s e then 1 else 0) + match step s e with
    | some s' => countAlong active s' es
    | none => 0

variable {step}

theorem along_of_check {good : σ → ε → Prop} {check : σ → ε → Bool}
    (hcheck : ∀ s e, check s e = true → good s e) :
    ∀ {es : List ε} {s : σ}, checkAlong step check s es = true → Along step good s es := by
  intro es
  induction es with
  | nil => exact fun _ => trivial
  | cons e es ih =>
    intro s h
    rw [checkAlong, Bool.and_eq_true] at h
    refine ⟨hcheck s e h.1, fun s' hs' => ih ?_⟩
    simpa only [hs'] using h.2

/-- `Along`, computed from a condition that is decidable. -/
theorem along_of_decide {good : σ → ε → Prop} [∀ s e, Decidable (good s e)] {es : List ε} {s : σ}
    (h : checkAlong step (fun s e => decide (good s e)) s es = true) : Along step good s es :=
  along_of_check (fun _ _ => of_decide_eq_true) h

theorem along_true : ∀ {es : List ε} {s : σ}, Along step (fun _ _ => True) s es
  | [], _ => trivial
  | _ :: _, _ => ⟨trivial, fun _ _ => along_true⟩

theorem run_nil {s t : σ} : run step s [] = some t ↔ s = t := Option.some_inj

theorem run_cons {s t : σ} {e : ε} {es : List ε} :
    run step s (e :: es) = some t ↔ ∃ s', step s e = some s' ∧ run step s' es = some t :=
  Option.bind_eq_some_iff

/-- **The invariant rule under a condition on the events.** -/
theorem run_invariant_along {good : σ → ε → Prop} {I : σ → Prop}
    (hstep : ∀ s e s', good s e → step s e = some s' → I s → I s') :
    ∀ {es : List ε} {s t : σ}, Along step good s es → run step s es = some t → I s → I t := by
  intro es
  induction es with
  | nil =>
    intro s t _ hrun hs
    obtain rfl := run_nil.mp hrun
    exact hs
  | cons e es ih =>
    intro s t halong hrun hs
    obtain ⟨s', hs', hrest⟩ := run_cons.mp hrun
    exact ih (halong.2 s' hs') hrest (hstep s e s' halong.1 hs' hs)

/-- **The invariant rule.** -/
theorem run_invariant {I : σ → Prop} (hstep : ∀ s e s', step s e = some s' → I s → I s')
    {es : List ε} {s t : σ} (hrun : run step s es = some t) (hs : I s) : I t := by
  induction es generalizing s with
  | nil =>
    obtain rfl := run_nil.mp hrun
    exact hs
  | cons e es ih =>
    obtain ⟨s', hs', hrest⟩ := run_cons.mp hrun
    exact ih hrest (hstep s e s' hs' hs)

/-- **The turning point.**  What does not hold before a run and holds behind it became true in one of
its steps. -/
theorem run_turn {good : σ → ε → Prop} {P : σ → Prop} {es : List ε} {s t : σ}
    (halong : Along step good s es) (hrun : run step s es = some t) (hs : ¬ P s) (ht : P t) :
    ∃ es₁ e es₂ s₁ s₂, es = es₁ ++ e :: es₂ ∧ Along step good s es₁ ∧ run step s es₁ = some s₁ ∧
      good s₁ e ∧ step s₁ e = some s₂ ∧ ¬ P s₁ ∧ P s₂ := by
  induction es generalizing s with
  | nil =>
    obtain rfl := run_nil.mp hrun
    exact absurd ht hs
  | cons e es ih =>
    obtain ⟨s', hs', hrest⟩ := run_cons.mp hrun
    by_cases hp : P s'
    · exact ⟨[], e, es, s, s', rfl, trivial, rfl, halong.1, hs', hs, hp⟩
    · obtain ⟨es₁, e', es₂, s₁, s₂, rfl, halong₁, hrun₁, h⟩ := ih (halong.2 s' hs') hrest hp
      have hcons : Along step good s (e :: es₁) := by
        refine ⟨halong.1, ?_⟩
        intro s'' hs''
        obtain rfl := Option.some.inj (hs'.symm.trans hs'')
        exact halong₁
      exact ⟨e :: es₁, e', es₂, s₁, s₂, rfl, hcons, run_cons.mpr ⟨s', hs', hrun₁⟩, h⟩

theorem countAlong_cons {active : σ → ε → Bool} {s s' : σ} {e : ε} (h : step s e = some s') (es : List ε) :
    countAlong step active s (e :: es) = (if active s e then 1 else 0) + countAlong step active s' es := by
  rw [countAlong, h]

theorem countAlong_eq_countP {active : ε → Bool} {es : List ε} {s t : σ}
    (hrun : run step s es = some t) :
    countAlong step (fun _ => active) s es = es.countP active := by
  induction es generalizing s with
  | nil => rfl
  | cons e es ih =>
    obtain ⟨s', hs', hrest⟩ := run_cons.mp hrun
    rw [countAlong_cons hs', ih hrest, List.countP_cons]
    exact Nat.add_comm _ _

/-- What a run ends with and no step brings about was there all along. -/
theorem run_back {good : σ → ε → Prop} {I U : σ → Prop}
    (hinv : ∀ s e s', good s e → step s e = some s' → I s → I s')
    (hback : ∀ s e s', good s e → step s e = some s' → I s → U s' → U s) :
    ∀ {es : List ε} {s t : σ}, Along step good s es → run step s es = some t → I s → U t → U s := by
  intro es
  induction es with
  | nil =>
    intro s t _ hrun _ ht
    obtain rfl := run_nil.mp hrun
    exact ht
  | cons e es ih =>
    intro s t halong hrun hs ht
    obtain ⟨s', hs', hrest⟩ := run_cons.mp hrun
    exact hback s e s' halong.1 hs' hs
      (ih (halong.2 s' hs') hrest (hinv s e s' halong.1 hs' hs) ht)

/-- **The progress rule.**  While `U` lasts, the active events lower a rank and no event raises it; so
`U` does not outlast as many active events as the rank counts. -/
theorem run_exhausts {good : σ → ε → Prop} {I U : σ → Prop} {rank : σ → ℕ → Prop}
    {active : σ → ε → Bool} (hinv : ∀ s e s', good s e → step s e = some s' → I s → I s')
    (hback : ∀ s e s', good s e → step s e = some s' → I s → U s' → U s)
    (hlower : ∀ s e s' n, good s e → step s e = some s' → I s → rank s n → U s' →
      ∃ m, rank s' m ∧ m + (if active s e then 1 else 0) ≤ n) :
    ∀ {es : List ε} {s t : σ} {n : ℕ}, Along step good s es → run step s es = some t → I s →
      rank s n → U t → ∃ m, rank t m ∧ m + countAlong step active s es ≤ n := by
  intro es
  induction es with
  | nil =>
    intro s t n _ hrun _ hn ht
    obtain rfl := run_nil.mp hrun
    exact ⟨n, hn, le_rfl⟩
  | cons e es ih =>
    intro s t n halong hrun hs hn ht
    obtain ⟨s', hs', hrest⟩ := run_cons.mp hrun
    have hinv' := hinv s e s' halong.1 hs' hs
    -- `U` at the end means `U` all along
    have hu' : U s' := run_back hinv hback (halong.2 s' hs') hrest hinv' ht
    obtain ⟨m', hm', hle'⟩ := hlower s e s' n halong.1 hs' hs hn hu'
    obtain ⟨m, hm, hle⟩ := ih (halong.2 s' hs') hrest hinv' hm' ht
    refine ⟨m, hm, ?_⟩
    rw [countAlong_cons hs']
    omega

/-- The progress rule for a rank that is a function of the state, and for events that are active in
every state. -/
theorem run_exhausts_measure {good : σ → ε → Prop} {I U : σ → Prop} {measure : σ → ℕ}
    {active : ε → Bool} (hinv : ∀ s e s', good s e → step s e = some s' → I s → I s')
    (hlower : ∀ s e s', good s e → step s e = some s' → I s → U s' →
      U s ∧ measure s' + (if active e then 1 else 0) ≤ measure s)
    {es : List ε} {s t : σ} (halong : Along step good s es) (hrun : run step s es = some t)
    (hs : I s) (ht : U t) : measure t + es.countP active ≤ measure s := by
  have hback : ∀ s e s', good s e → step s e = some s' → I s → U s' → U s :=
    fun s e s' hgood h hs hu => (hlower s e s' hgood h hs hu).1
  have hrank : ∀ s e s' n, good s e → step s e = some s' → I s → measure s = n → U s' →
      ∃ m, measure s' = m ∧ m + (if active e then 1 else 0) ≤ n := by
    rintro s e s' n hgood h hs rfl hu
    exact ⟨_, rfl, (hlower s e s' hgood h hs hu).2⟩
  obtain ⟨m, rfl, hle⟩ := run_exhausts hinv hback hrank halong hrun hs rfl ht
  rwa [countAlong_eq_countP hrun] at hle

theorem run_append {s t u : σ} {es es' : List ε} (h : run step s es = some t)
    (h' : run step t es' = some u) : run step s (es ++ es') = some u := by
  induction es generalizing s with
  | nil =>
    obtain rfl := run_nil.mp h
    exact h'
  | cons e es ih =>
    obtain ⟨s', hs', hrest⟩ := run_cons.mp h
    exact run_cons.mpr ⟨s', hs', ih hrest⟩

theorem along_append {good : σ → ε → Prop} {s t : σ} {es es' : List ε} (h : Along step good s es)
    (hrun : run step s es = some t) (h' : Along step good t es') :
    Along step good s (es ++ es') := by
  induction es generalizing s with
  | nil =>
    obtain rfl := run_nil.mp hrun
    exact h'
  | cons e es ih =>
    obtain ⟨s', hs', hrest⟩ := run_cons.mp hrun
    refine ⟨h.1, ?_⟩
    intro s'' hs''
    obtain rfl := Option.some.inj (hs'.symm.trans hs'')
    exact ih (h.2 s' hs') hrest

/-- **The projection rule.**  When every step of a machine is a run of another one on a view of the
state, every run is. -/
theorem run_project {τ ε' : Type*} {step' : τ → ε' → Option τ} {I : σ → Prop} {view : σ → τ}
    (hinv : ∀ s e s', step s e = some s' → I s → I s')
    (hview : ∀ s e s', step s e = some s' → I s → ∃ es', run step' (view s) es' = some (view s'))
    {es : List ε} {s t : σ} (hrun : run step s es = some t) (hs : I s) :
    ∃ es', run step' (view s) es' = some (view t) := by
  induction es generalizing s with
  | nil =>
    obtain rfl := run_nil.mp hrun
    exact ⟨[], rfl⟩
  | cons e es ih =>
    obtain ⟨s', hs', hrest⟩ := run_cons.mp hrun
    obtain ⟨es₁, h₁⟩ := hview s e s' hs' hs
    obtain ⟨es₂, h₂⟩ := ih hrest (hinv s e s' hs' hs)
    exact ⟨es₁ ++ es₂, run_append h₁ h₂⟩

end VT7.Lib.Run
