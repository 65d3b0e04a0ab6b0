import Mathlib.Data.List.Basic

/-!
This module contains rows that are loaded, changed and written back column by column, while others may have written
other columns of the row.
-/

namespace ColumnUpdate

variable {κ α : Type*} {loaded changed row : κ → α} {c d : κ}

/--
A change of some columns to one value that is computed from these columns alone.
-/
structure Change (κ α : Type*) where
  writes : List κ
  value : (κ → α) → α
  own : ∀ {row row' : κ → α}, (∀ c ∈ writes, row c = row' c) → value row = value row'

namespace Change

variable [DecidableEq κ] {change : Change κ α}

def apply (change : Change κ α) (row : κ → α) : κ → α :=
  fun c => if c ∈ change.writes then change.value row else row c

theorem apply_of_mem (h : c ∈ change.writes) : change.apply row c = change.value row := if_pos h

theorem apply_of_notMem (h : c ∉ change.writes) : change.apply row c = row c := if_neg h

theorem apply_together (hwrites : c ∈ change.writes ↔ d ∈ change.writes) (hrow : row c = row d)
    : change.apply row c = change.apply row d := by
  by_cases hc : c ∈ change.writes
  . rw [apply_of_mem hc, apply_of_mem (hwrites.mp hc)]
  . rw [apply_of_notMem hc, apply_of_notMem (hwrites.not.mp hc)]
    exact hrow

theorem apply_meets {P : α → Prop} (hvalue : P (change.value row)) (hrow : P (row c)) : P (change.apply row c) := by
  unfold apply
  split
  . exact hvalue
  . exact hrow

end Change

variable [DecidableEq α]

def update (loaded changed row : κ → α) : κ → α :=
  fun c => if changed c = loaded c then row c else changed c

theorem update_unchanged : update loaded loaded row = row := funext fun _ => if_pos rfl

theorem update_together (hloaded : loaded c = loaded d) (hchanged : changed c = changed d) (hrow : row c = row d)
    : update loaded changed row c = update loaded changed row d := by
  unfold update
  rw [hloaded, hchanged, hrow]

theorem update_meets {P : α → Prop} (hchanged : P (changed c)) (hrow : P (row c))
    : P (update loaded changed row c) := by
  unfold update
  split
  . exact hrow
  . exact hchanged

/--
If nobody else has written the columns of a change, then its update is the change itself.
-/
theorem update_apply [DecidableEq κ] {change : Change κ α} (hsame : ∀ c ∈ change.writes, row c = loaded c)
    : update loaded (change.apply loaded) row = change.apply row := by
  funext c
  unfold update
  by_cases hc : c ∈ change.writes
  . rw [Change.apply_of_mem hc, Change.apply_of_mem hc, change.own hsame]
    split
    . next heq => rw [hsame c hc, heq]
    . rfl
  . rw [Change.apply_of_notMem hc, Change.apply_of_notMem hc]
    exact if_pos rfl

end ColumnUpdate
