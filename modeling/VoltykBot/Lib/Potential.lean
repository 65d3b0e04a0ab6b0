import Mathlib.Algebra.Order.Field.Basic
import Mathlib.Tactic.Linarith
import Mathlib.Tactic.Ring
import VoltykBot.Lib.Run

/-!
This module contains the potential argument over windows of time: what is paid for out of a potential that
grows at a bounded rate, up to a cap, happens at most so often in any window of any run.
-/

namespace Potential

section

variable {K : Type*} [LinearOrder K]

def within (a b : K) (times : List K) : Nat := times.countP fun t => decide (a ≤ t ∧ t ≤ b)

theorem within_cons (a b t : K) (times : List K)
    : within a b (t :: times) = within a b times + if a ≤ t ∧ t ≤ b then 1 else 0 := by
  unfold within
  simp [List.countP_cons]

end

variable {σ ε K : Type*} [Field K] [LinearOrder K] [IsStrictOrderedRing K]

/--
`log` holds the times of what has been paid for. `potential` is what a state could pay out at a time that is
not behind its clock, if nothing happened until then.
-/
structure Account (step : σ → ε → Option σ) (C : σ → ε → Prop) (I : σ → Prop) (clock : σ → K)
    (log : σ → List K) (potential : σ → K → K) (cap rate : K) : Prop where
  keeps : ∀ {s s' e}, I s → C s e → step s e = some s' → I s'
  clock_le : ∀ {s s' e}, I s → C s e → step s e = some s' → clock s ≤ clock s'
  nonneg : ∀ {s t}, I s → clock s ≤ t → 0 ≤ potential s t
  le_cap : ∀ {s t}, I s → clock s ≤ t → potential s t ≤ cap
  grows : ∀ {s t t'}, I s → clock s ≤ t → t ≤ t' → potential s t' ≤ potential s t + rate * (t' - t)
  pays : ∀ {s s' e}, I s → C s e → step s e = some s' →
    (log s' = log s ∧ potential s' (clock s') ≤ potential s (clock s')) ∨
      (log s' = clock s' :: log s ∧ potential s' (clock s') + 1 ≤ potential s (clock s'))

structure Counted (clock : σ → K) (log : σ → List K) (potential : σ → K → K) (cap rate a b : K) (s : σ)
    : Prop where
  before : clock s < a → within a b (log s) = 0
  inside : a ≤ clock s → clock s ≤ b →
    (within a b (log s) : K) + potential s (clock s) ≤ cap + rate * (clock s - a)
  after : b < clock s → (within a b (log s) : K) ≤ cap + rate * (b - a)

variable {step : σ → ε → Option σ} {C : σ → ε → Prop} {I : σ → Prop} {clock : σ → K} {log : σ → List K}
  {potential : σ → K → K} {cap rate a b : K}

theorem Counted.reach (h : Account step C I clock log potential cap rate) (hrate : 0 ≤ rate) {s : σ}
    (hs : I s) (hcount : Counted clock log potential cap rate a b s) {t : K} (hle : clock s ≤ t)
    (hat : a ≤ t) (htb : t ≤ b)
    : (within a b (log s) : K) + potential s t ≤ cap + rate * (t - a) := by
  by_cases ha : clock s < a
  . have hzero := hcount.before ha
    have hcap := h.le_cap hs hle
    have hgrow : 0 ≤ rate * (t - a) := mul_nonneg hrate (sub_nonneg.mpr hat)
    rw [hzero, Nat.cast_zero, zero_add]
    linarith
  . have hinside := hcount.inside (not_lt.mp ha) (le_trans hle htb)
    have hgrows := h.grows hs le_rfl hle
    have hsplit : rate * (t - a) = rate * (clock s - a) + rate * (t - clock s) := by ring
    linarith

theorem Counted.next (h : Account step C I clock log potential cap rate) (hrate : 0 ≤ rate) (hab : a ≤ b)
    {s s' : σ} {e : ε} (hs : I s) (hcount : Counted clock log potential cap rate a b s) (hC : C s e)
    (hstep : step s e = some s') : Counted clock log potential cap rate a b s' := by
  have hle := h.clock_le hs hC hstep
  have hpays := h.pays hs hC hstep
  have hlog : within a b (log s') ≤ within a b (log s) + if a ≤ clock s' ∧ clock s' ≤ b then 1 else 0 := by
    rcases hpays with ⟨heq, -⟩ | ⟨heq, -⟩
    . rw [heq]
      exact Nat.le_add_right _ _
    . rw [heq, within_cons]
  constructor
  . intro ha
    have hzero := hcount.before (lt_of_le_of_lt hle ha)
    rw [if_neg (fun hin => absurd hin.1 (not_le.mpr ha)), hzero] at hlog
    exact Nat.le_zero.mp hlog
  . intro ha hb
    have hreach := hcount.reach h hrate hs hle ha hb
    rcases hpays with ⟨heq, hpay⟩ | ⟨heq, hpay⟩
    . rw [heq]
      linarith
    . rw [heq, within_cons, if_pos ⟨ha, hb⟩, Nat.cast_add, Nat.cast_one]
      linarith
  . intro hb
    rw [if_neg (fun hin => absurd hin.2 (not_le.mpr hb)), Nat.add_zero] at hlog
    have hcast : (within a b (log s') : K) ≤ within a b (log s) := Nat.cast_le.mpr hlog
    by_cases hsb : clock s ≤ b
    . -- the window ends between the two states
      have hreach := hcount.reach h hrate hs hsb hab le_rfl
      have hnonneg := h.nonneg hs hsb
      linarith
    . have hafter := hcount.after (not_le.mp hsb)
      linarith

/--
In a window of length `b - a` at most `cap + rate * (b - a)` is paid for.
-/
theorem within_le (h : Account step C I clock log potential cap rate) (hrate : 0 ≤ rate) (hab : a ≤ b)
    {s t : σ} {es : List ε} (hs : I s) (hempty : log s = []) (hC : Run.StepsMeet step C s es)
    (hrun : Run.exec step s es = some t) : (within a b (log t) : K) ≤ cap + rate * (b - a) := by
  have hgrow : 0 ≤ rate * (b - a) := mul_nonneg hrate (sub_nonneg.mpr hab)
  have hstart : Counted clock log potential cap rate a b s := by
    constructor
    . intro _
      rw [hempty]
      rfl
    . intro ha hb
      have hcap := h.le_cap hs (le_refl (clock s))
      have hpast : 0 ≤ rate * (clock s - a) := mul_nonneg hrate (sub_nonneg.mpr ha)
      rw [hempty]
      simp only [within, List.countP_nil, Nat.cast_zero, zero_add]
      linarith
    . intro _
      have hcap := h.le_cap hs (le_refl (clock s))
      have hnonneg := h.nonneg hs (le_refl (clock s))
      rw [hempty]
      simp only [within, List.countP_nil, Nat.cast_zero]
      linarith
  have hend : I t ∧ Counted clock log potential cap rate a b t := by
    apply Run.invariant (I := fun s => I s ∧ Counted clock log potential cap rate a b s) _ ⟨hs, hstart⟩ hC hrun
    rintro s s' e ⟨hs, hcount⟩ hC hstep
    exact ⟨h.keeps hs hC hstep, hcount.next h hrate hab hs hC hstep⟩
  rcases hend with ⟨ht, hcount⟩
  by_cases hb : clock t ≤ b
  . have hreach := hcount.reach h hrate ht hb hab le_rfl
    have hnonneg := h.nonneg ht hb
    linarith
  . exact hcount.after (not_le.mp hb)

end Potential
