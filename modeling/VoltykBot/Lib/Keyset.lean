import Mathlib.Data.List.Nodup
import Mathlib.Data.List.Sort

/-!
This module contains keyset pagination: a page holds the first rows beyond a key, in the order of
their keys. The rules say what a page contains and, of the rows it leaves out, where they are.
-/

namespace Keyset

variable {α κ : Type*} [LinearOrder κ] (key : α → κ) (p : α → Bool)

def beyond (after : κ) (table : List α) : List α :=
  (table.filter fun row => p row && decide (after < key row)).insertionSort fun a b => key a ≤ key b

def page (limit : Nat) (after : κ) (table : List α) : List α :=
  (beyond key p after table).take limit

variable {key p} {limit : Nat} {after : κ} {table : List α}

theorem mem_beyond {row : α}
    : row ∈ beyond key p after table ↔ row ∈ table ∧ p row = true ∧ after < key row := by
  unfold beyond
  rw [List.mem_insertionSort, List.mem_filter, Bool.and_eq_true, decide_eq_true_iff]

variable (p after) in
theorem beyond_nodup (hkeys : (table.map key).Nodup)
    : ((beyond key p after table).map key).Nodup := by
  unfold beyond
  rw [((List.perm_insertionSort _ _).map key).nodup_iff]
  exact hkeys.sublist (List.filter_sublist.map key)

variable (p after) in
theorem beyond_pairwise (hkeys : (table.map key).Nodup)
    : (beyond key p after table).Pairwise fun a b => key a < key b := by
  have hle : (beyond key p after table).Pairwise fun a b => key a ≤ key b := by
    unfold beyond
    have : Std.Total fun a b : α => key a ≤ key b := ⟨fun a b => le_total (key a) (key b)⟩
    have : IsTrans α fun a b => key a ≤ key b := ⟨fun _ _ _ => le_trans⟩
    apply List.pairwise_insertionSort
  have hne := List.pairwise_map.mp (beyond_nodup p after hkeys)
  exact hle.imp₂ (fun _ _ hle hne => lt_of_le_of_ne hle hne) hne

theorem length_page_le : (page key p limit after table).length ≤ limit := by
  apply List.length_take_le

theorem mem_of_mem_page {row : α} (h : row ∈ page key p limit after table)
    : row ∈ table ∧ p row = true ∧ after < key row :=
  mem_beyond.mp (List.mem_of_mem_take h)

theorem page_map_nodup {β : Type*} {f : α → β} (hf : (table.map f).Nodup)
    : ((page key p limit after table).map f).Nodup := by
  have hbeyond : ((beyond key p after table).map f).Nodup := by
    unfold beyond
    rw [((List.perm_insertionSort _ _).map f).nodup_iff]
    exact hf.sublist (List.filter_sublist.map f)
  exact hbeyond.sublist ((List.take_sublist limit _).map f)

theorem page_nodup (hkeys : (table.map key).Nodup)
    : ((page key p limit after table).map key).Nodup :=
  page_map_nodup hkeys

theorem page_pairwise (hkeys : (table.map key).Nodup)
    : (page key p limit after table).Pairwise fun a b => key a < key b :=
  (beyond_pairwise p after hkeys).sublist (List.take_sublist limit _)

theorem key_le_last (hkeys : (table.map key).Nodup) {row last : α}
    (hrow : row ∈ page key p limit after table)
    (hlast : (page key p limit after table).getLast? = some last) : key row ≤ key last := by
  have hsorted : (page key p limit after table).Pairwise fun a b => key a < key b :=
    page_pairwise hkeys
  obtain ⟨front, hpage⟩ := List.getLast?_eq_some_iff.mp hlast
  rw [hpage] at hsorted hrow
  rcases List.mem_append.mp hrow with hfront | hend
  . exact le_of_lt ((List.pairwise_append.mp hsorted).2.2 row hfront last (List.mem_singleton_self last))
  . rw [List.mem_singleton.mp hend]

theorem mem_page_or_after (hkeys : (table.map key).Nodup) {row : α} (hrow : row ∈ table)
    (hmatch : p row = true) (hafter : after < key row)
    : row ∈ page key p limit after table
        ∨
      (page key p limit after table).length = limit
        ∧ ∀ other ∈ page key p limit after table, key other < key row := by
  have hmem : row ∈ beyond key p after table := mem_beyond.mpr ⟨hrow, hmatch, hafter⟩
  have hsorted := beyond_pairwise p after hkeys
  unfold page
  rw [← List.take_append_drop limit (beyond key p after table)] at hmem hsorted
  rcases List.mem_append.mp hmem with htake | hdrop
  . exact Or.inl htake
  . refine Or.inr ⟨?_, fun other hother => ?_⟩
    . have := List.length_pos_of_mem hdrop
      rw [List.length_drop] at this
      rw [List.length_take]
      omega
    . exact (List.pairwise_append.mp hsorted).2.2 other hother row hdrop

theorem mem_page_of_short (hkeys : (table.map key).Nodup) {row : α} (hrow : row ∈ table)
    (hmatch : p row = true) (hafter : after < key row)
    (hshort : (page key p limit after table).length < limit)
    : row ∈ page key p limit after table := by
  rcases mem_page_or_after hkeys hrow hmatch hafter with hmem | ⟨hfull, _⟩
  . exact hmem
  . omega

theorem mem_page_of_le_last (hkeys : (table.map key).Nodup) {row last : α} (hrow : row ∈ table)
    (hmatch : p row = true) (hafter : after < key row)
    (hlast : (page key p limit after table).getLast? = some last) (hle : key row ≤ key last)
    : row ∈ page key p limit after table := by
  rcases mem_page_or_after hkeys hrow hmatch hafter with hmem | ⟨_, hbefore⟩
  . exact hmem
  . exact absurd (hbefore last (List.mem_of_getLast? hlast)) (not_lt.mpr hle)

end Keyset
