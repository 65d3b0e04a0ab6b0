import Mathlib.Tactic.TypeStar

/-!
This module contains machines that answer each event they are given, and the rule by which two of them give
the same answers.
-/

namespace Mealy

variable {σ τ ε ω : Type*}

def answers (step : σ → ε → σ × ω) (s : σ) (es : List ε) : List ω :=
  match es with
  | [] => []
  | e :: es => (step s e).2 :: answers step (step s e).1 es

def final (step : σ → ε → σ × ω) (s : σ) (es : List ε) : σ :=
  es.foldl (fun s e => (step s e).1) s

variable {step : σ → ε → σ × ω} {step' : τ → ε → τ × ω}

@[simp]
theorem answers_nil (s : σ) : answers step s [] = [] := rfl

@[simp]
theorem answers_cons (s : σ) (e : ε) (es : List ε)
    : answers step s (e :: es) = (step s e).2 :: answers step (step s e).1 es := rfl

@[simp]
theorem final_nil (s : σ) : final step s [] = s := rfl

@[simp]
theorem final_cons (s : σ) (e : ε) (es : List ε)
    : final step s (e :: es) = final step (step s e).1 es := rfl

/--
Two machines give the same answers if a relation of their states, which may know the events to come, makes
the next answers equal and is kept.
-/
theorem answers_eq_of_simulation {R : σ → τ → List ε → Prop}
    (hanswer : ∀ {s t e es}, R s t (e :: es) → (step s e).2 = (step' t e).2)
    (hnext : ∀ {s t e es}, R s t (e :: es) → R (step s e).1 (step' t e).1 es)
    {s : σ} {t : τ} {es : List ε} (h : R s t es) : answers step s es = answers step' t es := by
  induction es generalizing s t with
  | nil => rfl
  | cons e es ih => rw [answers_cons, answers_cons, hanswer h, ih (hnext h)]

def answered (step : σ → ε → σ × ω) (p : ω → Bool) (s : σ) (es : List ε) : List ε :=
  match es with
  | [] => []
  | e :: es =>
    if p (step s e).2 then e :: answered step p (step s e).1 es else answered step p (step s e).1 es

theorem final_append (s : σ) (es es' : List ε)
    : final step s (es ++ es') = final step (final step s es) es' :=
  List.foldl_append

theorem final_concat (s : σ) (es : List ε) (e : ε)
    : final step s (es ++ [e]) = (step (final step s es) e).1 := by
  rw [final_append, final_cons, final_nil]

theorem answered_concat (p : ω → Bool) (s : σ) (es : List ε) (e : ε)
    : answered step p s (es ++ [e]) =
        answered step p s es ++ if p (step (final step s es) e).2 then [e] else [] := by
  induction es generalizing s with
  | nil => rfl
  | cons e' es ih =>
    rw [List.cons_append, final_cons]
    unfold answered
    split
    . rw [ih, List.cons_append]
    . rw [ih]

def Meets (step : σ → ε → σ × ω) (C : σ → ε → Prop) (s : σ) (es : List ε) : Prop :=
  match es with
  | [] => True
  | e :: es => C s e ∧ Meets step C (step s e).1 es

theorem meets_of_relation {C : σ → ε → Prop} {R : σ → List ε → Prop}
    (hC : ∀ {s e es}, R s (e :: es) → C s e) (hR : ∀ {s e es}, R s (e :: es) → R (step s e).1 es) {s : σ}
    {es : List ε} (h : R s es) : Meets step C s es := by
  induction es generalizing s with
  | nil => trivial
  | cons e es ih => exact ⟨hC h, ih (hR h)⟩

theorem meets_of_invariant {C : σ → ε → Prop} {I : σ → Prop} {D : ε → Prop}
    (hC : ∀ {s e}, I s → D e → C s e) (hI : ∀ {s e}, I s → D e → I (step s e).1) {s : σ} {es : List ε}
    (hs : I s) (hD : ∀ e ∈ es, D e) : Meets step C s es := by
  apply meets_of_relation (R := fun s es => I s ∧ ∀ e ∈ es, D e) _ _ ⟨hs, hD⟩
  . intro s e es h
    exact hC h.1 (h.2 e List.mem_cons_self)
  . intro s e es h
    exact ⟨hI h.1 (h.2 e List.mem_cons_self), fun e' he' => h.2 e' (List.mem_cons_of_mem e he')⟩

end Mealy
