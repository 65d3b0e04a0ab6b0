import Mathlib.Data.List.Induction
import Mathlib.Order.Lattice

/-!
This module contains the latest row of a table by a time stamp, as a query that orders by the stamp,
newest first, and takes one row. Of rows with the same stamp it takes the first.
-/

namespace Latest

variable {α τ : Type*} [LinearOrder τ] (time : α → τ)

def newer (latest : Option α) (row : α) : Option α :=
  match latest with
  | none => some row
  | some latest => if time latest < time row then some row else some latest

def latest (rows : List α) : Option α := rows.foldl (newer time) none

variable {time} {rows : List α} {row : α}

@[simp]
theorem latest_nil : latest time [] = none := rfl

theorem latest_append_singleton (rows : List α) (row : α)
    : latest time (rows ++ [row]) = newer time (latest time rows) row := by
  unfold latest
  rw [List.foldl_append, List.foldl_cons, List.foldl_nil]

theorem latest_eq_none_iff : latest time rows = none ↔ rows = [] := by
  induction rows using List.reverseRecOn with
  | nil => simp only [latest_nil]
  | append_singleton rows row _ =>
    rw [latest_append_singleton]
    unfold newer
    constructor
    . intro h
      split at h
      . cases h
      . split at h <;> cases h
    . intro h
      exact absurd h (List.append_ne_nil_of_right_ne_nil rows (List.cons_ne_nil row []))

theorem split_of_latest (h : latest time rows = some row)
    : ∃ before after, rows = before ++ row :: after ∧ (∀ r ∈ before, time r < time row) ∧
        ∀ r ∈ after, time r ≤ time row := by
  induction rows using List.reverseRecOn generalizing row with
  | nil => cases h
  | append_singleton rows last ih =>
    rw [latest_append_singleton] at h
    unfold newer at h
    split at h
    . next hnone =>
      cases h
      rw [latest_eq_none_iff] at hnone
      exact ⟨[], [], by rw [hnone], List.forall_mem_nil _, List.forall_mem_nil _⟩
    . next top htop =>
      rcases ih htop with ⟨before, after, hrows, hbefore, hafter⟩
      split at h
      . next hlt =>
        cases h
        refine ⟨rows, [], rfl, ?_, List.forall_mem_nil _⟩
        intro r hr
        rw [hrows, List.mem_append, List.mem_cons] at hr
        rcases hr with hr | rfl | hr
        . exact (hbefore r hr).trans hlt
        . exact hlt
        . exact (hafter r hr).trans_lt hlt
      . next hle =>
        cases h
        refine ⟨before, after ++ [last], ?_, hbefore, ?_⟩
        . rw [hrows, List.append_assoc, List.cons_append]
        . intro r hr
          cases List.mem_append.mp hr with
          | inl hr => exact hafter r hr
          | inr hr =>
            rw [List.mem_singleton.mp hr]
            exact not_lt.mp hle

theorem latest_append_newer (h : ∀ r ∈ rows, time r < time row)
    : latest time (rows ++ [row]) = some row := by
  rw [latest_append_singleton]
  unfold newer
  split
  . rfl
  . next top htop =>
    rcases split_of_latest htop with ⟨before, after, hrows, _⟩
    rw [if_pos]
    apply h
    rw [hrows]
    exact List.mem_append_right _ List.mem_cons_self

theorem latest_append_of_le {after : List α} (h : latest time rows = some row)
    (hafter : ∀ r ∈ after, time r ≤ time row) : latest time (rows ++ after) = some row := by
  induction after using List.reverseRecOn with
  | nil => rwa [List.append_nil]
  | append_singleton after last ih =>
    rw [← List.append_assoc, latest_append_singleton]
    rw [ih (fun r hr => hafter r (List.mem_append_left _ hr))]
    unfold newer
    dsimp only
    rw [if_neg]
    apply not_lt.mpr
    apply hafter
    exact List.mem_append_right _ (List.mem_singleton_self last)

theorem latest_eq_some_iff
    : latest time rows = some row ↔
        ∃ before after, rows = before ++ row :: after ∧ (∀ r ∈ before, time r < time row) ∧
          ∀ r ∈ after, time r ≤ time row := by
  constructor
  . exact split_of_latest
  . rintro ⟨before, after, rfl, hbefore, hafter⟩
    rw [List.append_cons]
    exact latest_append_of_le (latest_append_newer hbefore) hafter

theorem mem_of_latest (h : latest time rows = some row) : row ∈ rows := by
  rcases latest_eq_some_iff.mp h with ⟨before, after, hrows, _⟩
  rw [hrows]
  exact List.mem_append_right before List.mem_cons_self

theorem le_of_latest (h : latest time rows = some row) {r : α} (hr : r ∈ rows) : time r ≤ time row := by
  rcases latest_eq_some_iff.mp h with ⟨before, after, hrows, hbefore, hafter⟩
  rw [hrows, List.mem_append, List.mem_cons] at hr
  rcases hr with hr | rfl | hr
  . exact (hbefore r hr).le
  . exact le_refl _
  . exact hafter r hr

theorem latest_filter (h : latest time rows = some row) {p : α → Bool} (hp : p row = true)
    : latest time (rows.filter p) = some row := by
  rcases latest_eq_some_iff.mp h with ⟨before, after, hrows, hbefore, hafter⟩
  apply latest_eq_some_iff.mpr
  refine ⟨before.filter p, after.filter p, ?_, ?_, ?_⟩
  . rw [hrows, List.filter_append, List.filter_cons_of_pos hp]
  . intro r hr
    exact hbefore r (List.mem_filter.mp hr).1
  . intro r hr
    exact hafter r (List.mem_filter.mp hr).1

end Latest
