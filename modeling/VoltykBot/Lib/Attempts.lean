import Mathlib.Data.List.Basic

/-!
This module contains logs of attempts at jobs, each with the jobs that were waiting at the time. No job is starved
if none is attempted again before all that were waiting at its first attempt have had their turn.
-/

namespace Attempts

variable {ι : Type*} [DecidableEq ι]

inductive Entry (ι : Type*) where
  | attempted (id : ι) (waiting : List ι)
  | removed (ids : List ι)

def Entry.Settles (entry : Entry ι) (id : ι) : Prop :=
  match entry with
  | .attempted id' _ => id' = id
  | .removed ids => id ∈ ids

instance (entry : Entry ι) (id : ι) : Decidable (entry.Settles id) :=
  match entry with
  | .attempted id' _ => inferInstanceAs (Decidable (id' = id))
  | .removed ids => inferInstanceAs (Decidable (id ∈ ids))

omit [DecidableEq ι] in
def Settled (log : List (Entry ι)) (id : ι) : Prop := ∃ entry ∈ log, entry.Settles id

instance (log : List (Entry ι)) (id : ι) : Decidable (Settled log id) :=
  inferInstanceAs (Decidable (∃ entry ∈ log, _))

/--
What was waiting when `id` was first attempted. The newest entry of a log stands first.
-/
def firstWaiting (log : List (Entry ι)) (id : ι) : Option (List ι) :=
  match log with
  | [] => none
  | .attempted id' waiting :: log => (firstWaiting log id).or (if id' = id then some waiting else none)
  | .removed _ :: log => firstWaiting log id

def OwesOnly (log : List (Entry ι)) (coming : List ι) (id : ι) : Prop :=
  ∀ other ∈ (firstWaiting log id).getD [], Settled log other ∨ other ∈ coming

instance (log : List (Entry ι)) (coming : List ι) (id : ι) : Decidable (OwesOnly log coming id) :=
  inferInstanceAs (Decidable (∀ other ∈ _, _))

def NotStarved (log : List (Entry ι)) : Prop :=
  match log with
  | [] => True
  | .attempted id _ :: log => OwesOnly log [] id ∧ NotStarved log
  | .removed _ :: log => NotStarved log

instance decidableNotStarved (log : List (Entry ι)) : Decidable (NotStarved log) :=
  match log with
  | [] => isTrue trivial
  | .attempted id _ :: log =>
    have := decidableNotStarved log
    inferInstanceAs (Decidable (OwesOnly log [] id ∧ NotStarved log))
  | .removed _ :: log => decidableNotStarved log

variable {log : List (Entry ι)} {coming : List ι} {id id' : ι} {waiting : List ι}

omit [DecidableEq ι] in
theorem settled_cons {entry : Entry ι} : Settled (entry :: log) id ↔ entry.Settles id ∨ Settled log id :=
  List.exists_mem_cons_iff _ _ _

theorem firstWaiting_attempted_ne (h : id' ≠ id)
    : firstWaiting (.attempted id' waiting :: log) id = firstWaiting log id := by
  rw [firstWaiting, if_neg h, Option.or_none]

theorem firstWaiting_ne_none {other : ι} (h : other ∈ (firstWaiting log id).getD [])
    : firstWaiting log id ≠ none := by
  intro hnone
  rw [hnone] at h
  cases h

theorem firstWaiting_cons {entry : Entry ι} (h : firstWaiting log id ≠ none)
    : firstWaiting (entry :: log) id = firstWaiting log id := by
  cases entry with
  | removed ids => rfl
  | attempted id' waiting =>
    obtain ⟨first, hfirst⟩ := Option.ne_none_iff_exists'.mp h
    rw [firstWaiting, hfirst, Option.some_or]

theorem OwesOnly.mono (h : OwesOnly log coming id) {coming' : List ι} (hsub : coming ⊆ coming')
    : OwesOnly log coming' id :=
  fun other hother => (h other hother).imp_right fun hmem => hsub hmem

theorem owesOnly_of_none (h : firstWaiting log id = none) : OwesOnly log coming id := by
  intro other hother
  rw [h] at hother
  cases hother

theorem OwesOnly.attempted (h : OwesOnly log (id' :: coming) id) (hne : id' ≠ id)
    : OwesOnly (.attempted id' waiting :: log) coming id := by
  intro other hother
  rw [firstWaiting_attempted_ne hne] at hother
  rw [settled_cons, or_assoc]
  rcases h other hother with hsettled | hcoming
  . exact Or.inr (Or.inl hsettled)
  . rcases List.mem_cons.mp hcoming with rfl | hcoming
    . exact Or.inl rfl
    . exact Or.inr (Or.inr hcoming)

theorem OwesOnly.removed (h : OwesOnly log coming id) (ids : List ι) : OwesOnly (.removed ids :: log) coming id :=
  fun other hother => (h other hother).imp_left fun hsettled => settled_cons.mpr (Or.inr hsettled)

end Attempts
