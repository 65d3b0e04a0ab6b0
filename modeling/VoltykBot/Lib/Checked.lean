import Mathlib.Data.List.Basic

/-!
This module contains lists that a partial function goes through: where it fails on one element, the whole
list fails.
-/

namespace Checked

variable {α β : Type}

theorem mapM_of_guard {p : α → Prop} [DecidablePred p] {f : α → β} {g : α → Option β}
    {l : List α} (h : ∀ x ∈ l, g x = if p x then some (f x) else none)
    : l.mapM g = if ∀ x ∈ l, p x then some (l.map f) else none := by
  induction l with
  | nil => simp
  | cons x l ih =>
    rw [List.forall_mem_cons] at h
    rw [List.mapM_cons, h.1, ih h.2]
    by_cases hx : p x
    . by_cases hl : ∀ x ∈ l, p x
      . rw [if_pos hx, if_pos hl, if_pos (List.forall_mem_cons.mpr ⟨hx, hl⟩)]
        rfl
      . rw [if_pos hx, if_neg hl, if_neg fun hall => hl (List.forall_mem_cons.mp hall).2]
        rfl
    . rw [if_neg hx, if_neg fun hall => hx (List.forall_mem_cons.mp hall).1]
      rfl

theorem mem_of_mapM {f : α → Option β} {l : List α} {l' : List β} (h : l.mapM f = some l')
    : (∀ y ∈ l', ∃ x ∈ l, f x = some y) ∧ ∀ x ∈ l, ∃ y ∈ l', f x = some y := by
  induction l generalizing l' with
  | nil =>
    cases h
    exact ⟨nofun, nofun⟩
  | cons x l ih =>
    simp only [List.mapM_cons, Option.bind_eq_bind, Option.bind_eq_some_iff] at h
    obtain ⟨y, hy, ys, hys, h⟩ := h
    cases h
    obtain ⟨hfrom, hto⟩ := ih hys
    constructor
    . rw [List.forall_mem_cons]
      refine ⟨⟨x, List.mem_cons_self, hy⟩, ?_⟩
      intro y' hy'
      obtain ⟨x', hx', heq⟩ := hfrom y' hy'
      exact ⟨x', List.mem_cons_of_mem _ hx', heq⟩
    . rw [List.forall_mem_cons]
      refine ⟨⟨y, List.mem_cons_self, hy⟩, ?_⟩
      intro x' hx'
      obtain ⟨y', hy', heq⟩ := hto x' hx'
      exact ⟨y', List.mem_cons_of_mem _ hy', heq⟩

theorem mapM_isSome {f : α → Option β} {l : List α} (h : ∀ x ∈ l, (f x).isSome)
    : (l.mapM f).isSome := by
  induction l with
  | nil => rfl
  | cons x l ih =>
    rw [List.forall_mem_cons] at h
    obtain ⟨y, hy⟩ := Option.isSome_iff_exists.mp h.1
    obtain ⟨ys, hys⟩ := Option.isSome_iff_exists.mp (ih h.2)
    rw [List.mapM_cons, hy, hys]
    rfl

theorem filterM_of_isSome {p : α → Option Bool} {l : List α} (h : ∀ x ∈ l, (p x).isSome)
    : l.filterM p = some (l.filter fun x => decide (p x = some true)) := by
  have haux : ∀ acc, List.filterAuxM p l acc =
      some ((l.filter fun x => decide (p x = some true)).reverse ++ acc) := by
    induction l with
    | nil => simp
    | cons x l ih =>
      rw [List.forall_mem_cons] at h
      obtain ⟨b, hb⟩ := Option.isSome_iff_exists.mp h.1
      intro acc
      rw [List.filterAuxM, hb]
      dsimp only [Option.bind_eq_bind, Option.bind_some]
      rw [ih h.2]
      cases b <;> simp [hb]
  unfold List.filterM
  rw [haux]
  simp

theorem isSome_of_filterM {p : α → Option Bool} {l l' : List α} (h : l.filterM p = some l')
    : ∀ x ∈ l, (p x).isSome := by
  have haux : ∀ acc l', List.filterAuxM p l acc = some l' → ∀ x ∈ l, (p x).isSome := by
    clear h
    induction l with
    | nil => exact fun _ _ _ => nofun
    | cons x l ih =>
      intro acc l' h
      rw [List.filterAuxM, Option.bind_eq_bind, Option.bind_eq_some_iff] at h
      obtain ⟨b, hb, hrest⟩ := h
      rw [List.forall_mem_cons]
      exact ⟨Option.isSome_of_eq_some hb, ih _ _ hrest⟩
  unfold List.filterM at h
  rw [Option.bind_eq_bind, Option.bind_eq_some_iff] at h
  obtain ⟨as, has, _⟩ := h
  exact haux _ _ has

end Checked
