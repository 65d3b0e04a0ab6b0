import Mathlib.Data.List.Forall2

/-!
This module contains two lists that are kept in parallel: an entry of the one is replaced, dropped and found along
with the entry of the other one.
-/

namespace Parallel

open List

variable {α β : Type*} {R : α → β → Prop} {as : List α} {bs : List β}

theorem getElem?_of_forall₂ (h : Forall₂ R as bs) {i : Nat} {a : α} (ha : as[i]? = some a)
    : ∃ b, bs[i]? = some b ∧ R a b := by
  induction h generalizing i with
  | nil => cases ha
  | cons hab _ ih =>
    cases i with
    | zero =>
      cases ha
      exact ⟨_, rfl, hab⟩
    | succ i => exact ih ha

theorem forall₂_set_left (h : Forall₂ R as bs) {i : Nat} {a : α} (ha : ∀ b, bs[i]? = some b → R a b)
    : Forall₂ R (as.set i a) bs := by
  induction h generalizing i with
  | nil => exact .nil
  | cons hab hrest ih =>
    cases i with
    | zero => exact .cons (ha _ rfl) hrest
    | succ i => exact .cons hab (ih ha)

theorem forall₂_set (h : Forall₂ R as bs) (i : Nat) {a : α} {b : β} (hab : R a b)
    : Forall₂ R (as.set i a) (bs.set i b) := by
  induction h generalizing i with
  | nil => exact .nil
  | cons hab' hrest ih =>
    cases i with
    | zero => exact .cons hab hrest
    | succ i => exact .cons hab' (ih i)

theorem forall₂_eraseIdx (h : Forall₂ R as bs) (i : Nat) : Forall₂ R (as.eraseIdx i) (bs.eraseIdx i) := by
  induction h generalizing i with
  | nil => exact .nil
  | cons hab hrest ih =>
    cases i with
    | zero => exact hrest
    | succ i => exact .cons hab (ih i)

end Parallel
