import Mathlib.Data.List.Nodup
import Mathlib.Data.List.Perm.Basic

/-!
This module contains grouping by a key: each item is put at the end of the group of its key, and the groups stand
in the order of their first items.
-/

namespace Grouping

variable {α κ : Type*} (key : α → κ)

def add [DecidableEq κ] (groups : List (κ × List α)) (item : α) : List (κ × List α) :=
  match groups with
  | [] => [(key item, [item])]
  | group :: groups =>
    if group.1 = key item then
      (group.1, group.2 ++ [item]) :: groups
    else
      group :: add groups item

structure Groups (items : List α) (groups : List (κ × List α)) : Prop where
  perm : (groups.flatMap Prod.snd).Perm items
  nodup : (groups.map Prod.fst).Nodup
  key_eq : ∀ group ∈ groups, ∀ item ∈ group.2, key item = group.1
  nonempty : ∀ group ∈ groups, group.2 ≠ []

variable {key} {items : List α} {groups : List (κ × List α)}

theorem Groups.nil : Groups key [] [] := ⟨List.Perm.nil, List.nodup_nil, nofun, nofun⟩

theorem Groups.mem_keys (h : Groups key items groups) {k : κ}
    : k ∈ groups.map Prod.fst ↔ ∃ item ∈ items, key item = k := by
  constructor
  . intro hk
    rcases List.mem_map.mp hk with ⟨group, hgroup, rfl⟩
    rcases List.exists_mem_of_ne_nil group.2 (h.nonempty group hgroup) with ⟨item, hitem⟩
    exact ⟨item, h.perm.mem_iff.mp (List.mem_flatMap.mpr ⟨group, hgroup, hitem⟩), h.key_eq group hgroup item hitem⟩
  . rintro ⟨item, hitem, rfl⟩
    rcases List.mem_flatMap.mp (h.perm.mem_iff.mpr hitem) with ⟨group, hgroup, hmem⟩
    rw [h.key_eq group hgroup item hmem]
    exact List.mem_map_of_mem hgroup

variable [DecidableEq κ]

theorem perm_add (groups : List (κ × List α)) (item : α)
    : ((add key groups item).flatMap Prod.snd).Perm (groups.flatMap Prod.snd ++ [item]) := by
  induction groups with
  | nil => exact List.Perm.refl _
  | cons group groups ih =>
    unfold add
    split
    . rw [List.flatMap_cons, List.flatMap_cons, List.append_assoc, List.append_assoc]
      exact List.perm_append_comm.append_left group.2
    . rw [List.flatMap_cons, List.flatMap_cons, List.append_assoc]
      exact ih.append_left group.2

theorem keys_add (groups : List (κ × List α)) (item : α)
    : (add key groups item).map Prod.fst
        =
      if key item ∈ groups.map Prod.fst then groups.map Prod.fst else groups.map Prod.fst ++ [key item] := by
  induction groups with
  | nil => rfl
  | cons group groups ih =>
    unfold add
    by_cases hkey : group.1 = key item
    . rw [if_pos hkey, List.map_cons, List.map_cons, if_pos]
      rw [← hkey]
      exact List.mem_cons_self
    . rw [if_neg hkey, List.map_cons, List.map_cons, ih]
      by_cases hmem : key item ∈ groups.map Prod.fst
      . rw [if_pos hmem, if_pos (List.mem_cons_of_mem _ hmem)]
      . have hnot : key item ∉ group.1 :: groups.map Prod.fst := by
          rw [List.mem_cons, not_or]
          exact ⟨Ne.symm hkey, hmem⟩
        rw [if_neg hmem, if_neg hnot]
        rfl

theorem mem_add {groups : List (κ × List α)} {item : α} {group : κ × List α} (h : group ∈ add key groups item)
    : group ∈ groups ∨ ∃ rest, group = (key item, rest ++ [item]) ∧ (rest = [] ∨ (key item, rest) ∈ groups) := by
  induction groups with
  | nil => exact Or.inr ⟨[], List.mem_singleton.mp h, Or.inl rfl⟩
  | cons first groups ih =>
    unfold add at h
    split at h
    . next hkey =>
      cases List.mem_cons.mp h with
      | inl heq =>
        refine Or.inr ⟨first.2, ?_, Or.inr ?_⟩
        . rw [heq, hkey]
        . rw [← hkey]
          exact List.mem_cons_self
      | inr hmem => exact Or.inl (List.mem_cons_of_mem first hmem)
    . cases List.mem_cons.mp h with
      | inl heq => exact Or.inl (heq ▸ List.mem_cons_self)
      | inr hmem =>
        rcases ih hmem with hold | ⟨rest, heq, hrest⟩
        . exact Or.inl (List.mem_cons_of_mem first hold)
        . exact Or.inr ⟨rest, heq, hrest.imp_right (List.mem_cons_of_mem first)⟩

theorem Groups.add (h : Groups key items groups) (item : α) : Groups key (items ++ [item]) (add key groups item) := by
  constructor
  . exact (perm_add groups item).trans (h.perm.append_right [item])
  . rw [keys_add]
    split
    . exact h.nodup
    . next hnot =>
      rw [List.nodup_append]
      refine ⟨h.nodup, List.nodup_singleton _, ?_⟩
      rintro k hk k' hk' rfl
      exact hnot (List.mem_singleton.mp hk' ▸ hk)
  . intro group hgroup
    rcases mem_add hgroup with hold | ⟨rest, rfl, hrest⟩
    . exact h.key_eq group hold
    . intro item' hitem'
      cases List.mem_append.mp hitem' with
      | inl hmem =>
        cases hrest with
        | inl hnil =>
          subst hnil
          cases hmem
        | inr hold => exact h.key_eq _ hold item' hmem
      | inr hlast => rw [List.mem_singleton.mp hlast]
  . intro group hgroup
    rcases mem_add hgroup with hold | ⟨rest, rfl, _⟩
    . exact h.nonempty group hold
    . exact List.append_ne_nil_of_right_ne_nil rest (List.cons_ne_nil item [])

theorem Groups.foldl_add (h : Groups key items groups) (more : List α)
    : Groups key (items ++ more) (more.foldl (Grouping.add key) groups) := by
  induction more generalizing items groups with
  | nil =>
    rw [List.append_nil]
    exact h
  | cons item more ih =>
    have hrest := ih (h.add item)
    rw [List.append_assoc] at hrest
    exact hrest

end Grouping
