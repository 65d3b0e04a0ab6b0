import Mathlib.Data.List.Basic

/-!
This module contains runs of a partial step function: a run is a list of events, each of which has to
be enabled in the state the previous ones led to. It provides the rules that carry a fact about one
step to all states of a run, and a simulation of single steps to whole runs.
-/

namespace Run

variable {σ ε : Type*}

def exec (step : σ → ε → Option σ) (s : σ) (es : List ε) : Option σ :=
  match es with
  | [] => some s
  | e :: es =>
    match step s e with
    | some s' => exec step s' es
    | none => none

def StepsMeet (step : σ → ε → Option σ) (C : σ → ε → Prop) (s : σ) (es : List ε) : Prop :=
  match es with
  | [] => True
  | e :: es => C s e ∧ ∀ s', step s e = some s' → StepsMeet step C s' es

def Always (step : σ → ε → Option σ) (P : σ → Prop) (s : σ) (es : List ε) : Prop :=
  match es with
  | [] => P s
  | e :: es => P s ∧ ∀ s', step s e = some s' → Always step P s' es

variable {step : σ → ε → Option σ} {C : σ → ε → Prop} {I P : σ → Prop}

@[simp]
theorem exec_nil (s : σ) : exec step s [] = some s := rfl

theorem exec_cons (s : σ) (e : ε) (es : List ε)
    : exec step s (e :: es) = (step s e).bind fun s' => exec step s' es := by
  simp only [exec]
  cases step s e with
  | none => rfl
  | some s' => rfl

theorem exec_cons_eq_some {s t : σ} {e : ε} {es : List ε}
    : exec step s (e :: es) = some t ↔ ∃ s', step s e = some s' ∧ exec step s' es = some t := by
  rw [exec_cons, Option.bind_eq_some_iff]

theorem exec_append (s : σ) (es es' : List ε)
    : exec step s (es ++ es') = (exec step s es).bind fun t => exec step t es' := by
  induction es generalizing s with
  | nil => rfl
  | cons e es ih =>
    rw [List.cons_append, exec_cons, exec_cons, Option.bind_assoc]
    exact Option.bind_congr fun s' _ => ih s'

theorem isSome_exec_iff {ok : ε → Prop} (hok : ∀ s e, (step s e).isSome ↔ ok e) (s : σ) (es : List ε)
    : (exec step s es).isSome ↔ ∀ e ∈ es, ok e := by
  induction es generalizing s with
  | nil => exact iff_of_true rfl nofun
  | cons e es ih =>
    rw [exec_cons, List.forall_mem_cons, ← hok s e]
    cases step s e with
    | none => exact iff_of_false Bool.false_ne_true fun h => Bool.false_ne_true h.1
    | some s' => exact (ih s').trans (and_iff_right rfl).symm

theorem exec_of_simulation {τ δ : Type*} {step' : τ → δ → Option τ} {f : σ → τ}
    (hsim : ∀ {s s' : σ} {e : ε}, step s e = some s' → ∃ ds, exec step' (f s) ds = some (f s'))
    {s t : σ} {es : List ε} (hrun : exec step s es = some t)
    : ∃ ds, exec step' (f s) ds = some (f t) := by
  induction es generalizing s with
  | nil =>
    cases hrun
    exact ⟨[], rfl⟩
  | cons e es ih =>
    rcases exec_cons_eq_some.mp hrun with ⟨s', hstep, hrest⟩
    rcases hsim hstep with ⟨ds, hds⟩
    rcases ih hrest with ⟨ds', hds'⟩
    refine ⟨ds ++ ds', ?_⟩
    rw [exec_append, hds]
    exact hds'

theorem StepsMeet.head {s : σ} {e : ε} {es : List ε} (h : StepsMeet step C s (e :: es)) : C s e :=
  h.1

theorem StepsMeet.tail {s s' : σ} {e : ε} {es : List ε} (h : StepsMeet step C s (e :: es))
    (hstep : step s e = some s') : StepsMeet step C s' es :=
  h.2 s' hstep

theorem StepsMeet.of_events {D : ε → Prop} {s : σ} {es : List ε} (h : ∀ e ∈ es, D e)
    : StepsMeet step (fun _ e => D e) s es := by
  induction es generalizing s with
  | nil => trivial
  | cons e es ih =>
    refine ⟨h e List.mem_cons_self, ?_⟩
    intro s' _
    exact ih fun e' he' => h e' (List.mem_cons_of_mem e he')

theorem StepsMeet.and {D : σ → ε → Prop} {s : σ} {es : List ε} (hC : StepsMeet step C s es)
    (hD : StepsMeet step D s es) : StepsMeet step (fun s e => C s e ∧ D s e) s es := by
  induction es generalizing s with
  | nil => trivial
  | cons e es ih => exact ⟨⟨hC.head, hD.head⟩, fun s' hstep => ih (hC.tail hstep) (hD.tail hstep)⟩

instance decidableStepsMeet [∀ s e, Decidable (C s e)] (s : σ) (es : List ε)
    : Decidable (StepsMeet step C s es) :=
  match es with
  | [] => isTrue trivial
  | e :: es =>
    match h : step s e with
    | none => decidable_of_iff (C s e) (by simp [StepsMeet, h])
    | some s' =>
      have : Decidable (StepsMeet step C s' es) := decidableStepsMeet s' es
      decidable_of_iff (C s e ∧ StepsMeet step C s' es) (by simp [StepsMeet, h])

theorem invariant (hI : ∀ {s s' : σ} {e : ε}, I s → C s e → step s e = some s' → I s')
    {s t : σ} {es : List ε} (hs : I s) (hC : StepsMeet step C s es) (hrun : exec step s es = some t)
    : I t := by
  induction es generalizing s with
  | nil =>
    rw [exec_nil] at hrun
    exact Option.some.inj hrun ▸ hs
  | cons e es ih =>
    obtain ⟨s', hstep, hrest⟩ := exec_cons_eq_some.mp hrun
    exact ih (hI hs hC.head hstep) (hC.tail hstep) hrest

theorem invariant' (hI : ∀ {s s' : σ} {e : ε}, I s → step s e = some s' → I s')
    {s t : σ} {es : List ε} (hs : I s) (hrun : exec step s es = some t) : I t :=
  invariant (C := fun _ _ => True) (fun h _ hstep => hI h hstep) hs
    (StepsMeet.of_events fun _ _ => trivial) hrun

theorem always_of_stepsMeet (hI : ∀ {s s' : σ} {e : ε}, I s → C s e → step s e = some s' → I s')
    (hP : ∀ {s : σ}, I s → P s) {s : σ} {es : List ε} (hs : I s) (hC : StepsMeet step C s es)
    : Always step P s es := by
  induction es generalizing s with
  | nil => exact hP hs
  | cons e es ih => exact ⟨hP hs, fun s' hstep => ih (hI hs hC.head hstep) (hC.tail hstep)⟩

theorem Always.head {s : σ} {es : List ε} (h : Always step P s es) : P s := by
  cases es with
  | nil => exact h
  | cons e es => exact h.1

theorem Always.tail {s s' : σ} {e : ε} {es : List ε} (h : Always step P s (e :: es))
    (hstep : step s e = some s') : Always step P s' es :=
  h.2 s' hstep

/--
If `I` is preserved by the steps that meet `C` and implies `P`, and any other step breaks `P` at once,
then a run from a state with `I` goes through states with `P` only if and only if all its steps meet
`C`.
-/
theorem always_iff_stepsMeet
    (hI : ∀ {s s' : σ} {e : ε}, I s → C s e → step s e = some s' → I s')
    (hP : ∀ {s : σ}, I s → P s)
    (hbad : ∀ {s s' : σ} {e : ε}, I s → ¬ C s e → step s e = some s' → ¬ P s')
    {s t : σ} {es : List ε} (hs : I s) (hrun : exec step s es = some t)
    : Always step P s es ↔ StepsMeet step C s es := by
  induction es generalizing s with
  | nil => exact ⟨fun _ => trivial, fun _ => hP hs⟩
  | cons e es ih =>
    obtain ⟨s₁, hstep, hrest⟩ := exec_cons_eq_some.mp hrun
    by_cases hC : C s e
    . have ih := ih (hI hs hC hstep) hrest
      constructor
      . intro h
        refine ⟨hC, fun s' hstep' => ?_⟩
        obtain rfl : s₁ = s' := Option.some.inj (hstep ▸ hstep')
        exact ih.mp (h.tail hstep)
      . intro h
        refine ⟨hP hs, fun s' hstep' => ?_⟩
        obtain rfl : s₁ = s' := Option.some.inj (hstep ▸ hstep')
        exact ih.mpr (h.tail hstep)
    . constructor
      . intro h
        exact absurd (h.tail hstep).head (hbad hs hC hstep)
      . intro h
        exact absurd h.head hC

theorem Always.last {s t : σ} {es : List ε} (h : Always step P s es) (hrun : exec step s es = some t)
    : P t := by
  induction es generalizing s with
  | nil =>
    rw [exec_nil] at hrun
    exact Option.some.inj hrun ▸ h
  | cons e es ih =>
    rcases exec_cons_eq_some.mp hrun with ⟨s', hstep, hrest⟩
    exact ih (h.tail hstep) hrest

theorem Always.stepsMeet {s : σ} {es : List ε} (h : Always step P s es)
    : StepsMeet step (fun s _ => P s) s es := by
  induction es generalizing s with
  | nil => trivial
  | cons e es ih => exact ⟨h.head, fun s' hstep => ih (h.tail hstep)⟩

theorem countP_add_le (μ : σ → Nat) (counted : ε → Bool)
    (hI : ∀ {s s' : σ} {e : ε}, I s → C s e → step s e = some s' → I s')
    (hμ : ∀ {s s' : σ} {e : ε}, I s → C s e → step s e = some s' →
      μ s' + (if counted e then 1 else 0) ≤ μ s)
    {s t : σ} {es : List ε} (hs : I s) (hC : StepsMeet step C s es) (hrun : exec step s es = some t)
    : es.countP counted + μ t ≤ μ s := by
  induction es generalizing s with
  | nil =>
    rw [exec_nil] at hrun
    rw [Option.some.inj hrun, List.countP_nil]
    omega
  | cons e es ih =>
    obtain ⟨s', hstep, hrest⟩ := exec_cons_eq_some.mp hrun
    have hrest := ih (hI hs hC.head hstep) (hC.tail hstep) hrest
    have hstep := hμ hs hC.head hstep
    rw [List.countP_cons]
    omega

end Run
