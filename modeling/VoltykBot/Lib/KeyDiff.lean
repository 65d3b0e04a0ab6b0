import Mathlib.Data.List.Nodup

/-!
This module contains the differences of two lists of items by a key, and when patching the old list with
them gives the new one.
-/

namespace KeyDiff

variable {α κ : Type*} [DecidableEq κ] (key : α → κ)

def missing (new old : List α) : List α := new.filter (key · ∉ old.map key)

def patch [DecidableEq α] (old removed added : List α) : List α :=
  old.filter (· ∉ removed) ++ added

def Agree (old new : List α) : Prop :=
  ∀ a, key a ∈ old.map key → key a ∈ new.map key → (a ∈ old ↔ a ∈ new)

variable {key} {old new added : List α}

theorem mem_missing {a : α} : a ∈ missing key new old ↔ a ∈ new ∧ key a ∉ old.map key := by
  unfold missing
  rw [List.mem_filter, decide_eq_true_eq]

theorem mem_keys_missing {k : κ}
    : k ∈ (missing key new old).map key ↔ k ∈ new.map key ∧ k ∉ old.map key := by
  constructor
  . intro h
    rcases List.mem_map.mp h with ⟨a, ha, rfl⟩
    rw [mem_missing] at ha
    exact ⟨List.mem_map_of_mem ha.1, ha.2⟩
  . intro h
    rcases List.mem_map.mp h.1 with ⟨a, ha, rfl⟩
    apply List.mem_map_of_mem
    rw [mem_missing]
    exact ⟨ha, h.2⟩

theorem mem_patch [DecidableEq α] {a : α}
    : a ∈ patch old (missing key old new) added ↔ (a ∈ old ∧ key a ∈ new.map key) ∨ a ∈ added := by
  unfold patch
  rw [List.mem_append, List.mem_filter, decide_eq_true_eq, mem_missing, not_and, not_not]
  apply or_congr_left
  apply and_congr_right
  intro ha
  exact forall_prop_of_true ha

/--
Patching with differences by key is exact if and only if the items that share a key are the same ones,
and the patch adds every item with a new key.
-/
theorem mem_patch_iff [DecidableEq α] (hadded : ∀ a ∈ added, a ∈ missing key new old)
    : (∀ a, a ∈ patch old (missing key old new) added ↔ a ∈ new)
        ↔
      Agree key old new ∧ ∀ a ∈ missing key new old, a ∈ added := by
  constructor
  . intro h
    constructor
    . intro a hold hnew
      constructor
      . intro ha
        apply (h a).mp
        rw [mem_patch]
        exact .inl ⟨ha, hnew⟩
      . intro ha
        cases mem_patch.mp ((h a).mpr ha) with
        | inl hkept => exact hkept.1
        | inr hadd => exact absurd hold (mem_missing.mp (hadded a hadd)).2
    . intro a ha
      rw [mem_missing] at ha
      cases mem_patch.mp ((h a).mpr ha.1) with
      | inl hkept => exact absurd (List.mem_map_of_mem hkept.1) ha.2
      | inr hadd => exact hadd
  . intro h a
    rw [mem_patch]
    constructor
    . intro ha
      cases ha with
      | inl hkept => exact (h.1 a (List.mem_map_of_mem hkept.1) hkept.2).mp hkept.1
      | inr hadd => exact (mem_missing.mp (hadded a hadd)).1
    . intro ha
      by_cases hkey : key a ∈ old.map key
      . have hnew : key a ∈ new.map key := List.mem_map_of_mem ha
        exact .inl ⟨(h.1 a hkey hnew).mpr ha, hnew⟩
      . right
        apply h.2
        rw [mem_missing]
        exact ⟨ha, hkey⟩

theorem missing_eq_nil_of_same (hsame : ∀ a, a ∈ old → a ∈ new) : missing key old new = [] := by
  apply List.eq_nil_iff_forall_not_mem.mpr
  intro a ha
  rw [mem_missing] at ha
  exact ha.2 (List.mem_map_of_mem (hsame a ha.1))

/--
Two old lists differ from the new one in the same keys if and only if they have the same keys.
-/
theorem same_differences_iff {old' : List α}
    : ((∀ k, k ∈ (missing key new old).map key ↔ k ∈ (missing key new old').map key) ∧
        ∀ k, k ∈ (missing key old new).map key ↔ k ∈ (missing key old' new).map key)
        ↔
      ∀ k, k ∈ old.map key ↔ k ∈ old'.map key := by
  simp only [mem_keys_missing]
  constructor
  . intro h k
    have hadded := h.1 k
    have hremoved := h.2 k
    tauto
  . intro h
    constructor
    . intro k
      rw [h k]
    . intro k
      rw [h k]

end KeyDiff
