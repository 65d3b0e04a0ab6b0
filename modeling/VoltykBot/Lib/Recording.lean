import VoltykBot.Lib.Run

/-!
This module contains runs that are recorded: beside the state there is a record of what the steps have found,
which no step reads.
-/

namespace Run

variable {σ ε τ : Type*} {step : σ → ε → Option σ} {record : σ → τ → ε → τ}

def recording (step : σ → ε → Option σ) (record : σ → τ → ε → τ) (p : σ × τ) (e : ε) : Option (σ × τ) :=
  (step p.1 e).map fun s => (s, record p.1 p.2 e)

theorem recording_eq_some {p p' : σ × τ} {e : ε}
    : recording step record p e = some p' ↔ step p.1 e = some p'.1 ∧ p'.2 = record p.1 p.2 e := by
  unfold recording
  rw [Option.map_eq_some_iff]
  constructor
  . rintro ⟨s, hstep, rfl⟩
    exact ⟨hstep, rfl⟩
  . rintro ⟨hstep, hrecord⟩
    exact ⟨p'.1, hstep, Prod.ext rfl hrecord.symm⟩

theorem exec_recording (record : σ → τ → ε → τ) {s t : σ} {es : List ε} (h : exec step s es = some t) (l : τ)
    : ∃ l', exec (recording step record) (s, l) es = some (t, l') := by
  induction es generalizing s l with
  | nil =>
    cases h
    exact ⟨l, rfl⟩
  | cons e es ih =>
    rcases exec_cons_eq_some.mp h with ⟨s', hstep, hrest⟩
    rcases ih hrest (record s l e) with ⟨l', hl'⟩
    exact ⟨l', exec_cons_eq_some.mpr ⟨(s', record s l e), recording_eq_some.mpr ⟨hstep, rfl⟩, hl'⟩⟩

theorem always_recording (record : σ → τ → ε → τ) {P : σ → Prop} {s : σ} (l : τ) {es : List ε}
    : Always (recording step record) (fun p => P p.1) (s, l) es ↔ Always step P s es := by
  induction es generalizing s l with
  | nil => exact Iff.rfl
  | cons e es ih =>
    refine and_congr_right fun _ => ?_
    constructor
    . intro h s' hstep
      exact (ih _).mp (h (s', record s l e) (recording_eq_some.mpr ⟨hstep, rfl⟩))
    . rintro h ⟨s', l'⟩ hstep
      exact (ih _).mpr (h s' (recording_eq_some.mp hstep).1)

end Run
