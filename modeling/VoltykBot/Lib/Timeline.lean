import Mathlib.Order.CompletePartialOrder
import Mathlib.Order.Interval.Set.Disjoint

/-!
This module contains lists of half open intervals of a linear order in normal form: sorted by where they
start, none of them empty, no two of them with a point in common.
-/

namespace Timeline

variable {ι τ : Type*} [LinearOrder τ]

section

variable (start finish : ι → τ)

def covered (items : List ι) : Set τ :=
  {t | ∃ i ∈ items, t ∈ Set.Ico (start i) (finish i)}

structure NormalForm (items : List ι) : Prop where
  nonempty : ∀ i ∈ items, start i < finish i
  sorted : items.Pairwise fun i j => start i ≤ start j
  disjoint : items.Pairwise fun i j =>
    Disjoint (Set.Ico (start i) (finish i)) (Set.Ico (start j) (finish j))

end

variable {start finish : ι → τ} {i : ι} {items : List ι} {t : τ}

theorem covered_nil : covered start finish [] = ∅ := by
  simp [covered]

theorem mem_covered_cons
    : t ∈ covered start finish (i :: items) ↔
        t ∈ Set.Ico (start i) (finish i) ∨ t ∈ covered start finish items := by
  simp [covered]

theorem covered_append {items' : List ι}
    : covered start finish (items ++ items') =
        covered start finish items ∪ covered start finish items' := by
  ext t
  simp [covered, or_and_right, exists_or]

theorem covered_congr {items' : List ι} (h : ∀ i, i ∈ items ↔ i ∈ items')
    : covered start finish items = covered start finish items' := by
  unfold covered
  simp only [h]

theorem normalForm_iff
    : NormalForm start finish items ↔
        (∀ i ∈ items, start i < finish i) ∧ items.Pairwise fun i j => finish i ≤ start j := by
  constructor
  . intro h
    refine ⟨h.nonempty, ?_⟩
    refine (h.sorted.and h.disjoint).imp_of_mem ?_
    rintro i j hi hj ⟨hle, hdisjoint⟩
    rw [Set.Ico_disjoint_Ico, max_eq_right hle] at hdisjoint
    exact (min_le_iff.mp hdisjoint).resolve_right (not_le.mpr (h.nonempty j hj))
  . rintro ⟨hnonempty, hpairwise⟩
    refine ⟨hnonempty, ?_, ?_⟩
    . refine hpairwise.imp_of_mem ?_
      intro i j hi _ hle
      exact (hnonempty i hi).le.trans hle
    . refine hpairwise.imp ?_
      intro i j hle
      rw [Set.Ico_disjoint_Ico]
      exact (min_le_left _ _).trans (hle.trans (le_max_right _ _))

namespace NormalForm

variable (h : NormalForm start finish (i :: items))

include h

theorem tail : NormalForm start finish items where
  nonempty j hj := h.nonempty j (List.mem_cons_of_mem i hj)
  sorted := h.sorted.of_cons
  disjoint := h.disjoint.of_cons

theorem head_lt : start i < finish i :=
  h.nonempty i List.mem_cons_self

theorem finish_le {j : ι} (hj : j ∈ items) : finish i ≤ start j :=
  List.rel_of_pairwise_cons (normalForm_iff.mp h).2 hj

theorem le_of_mem_covered (ht : t ∈ covered start finish items) : finish i ≤ t := by
  obtain ⟨j, hj, hmem⟩ := ht
  exact (h.finish_le hj).trans hmem.1

theorem notMem_covered_of_lt (ht : t < start i) : t ∉ covered start finish (i :: items) := by
  rw [mem_covered_cons]
  rintro (hmem | hmem)
  . exact not_le.mpr ht hmem.1
  . exact not_le.mpr (ht.trans h.head_lt) (h.le_of_mem_covered hmem)

theorem notMem_covered_finish (hgap : ∀ j ∈ items.head?, start j ≠ finish i)
    : finish i ∉ covered start finish (i :: items) := by
  rw [mem_covered_cons]
  rintro (hmem | hmem)
  . exact lt_irrefl _ hmem.2
  . cases items with
    | nil => simp [covered_nil] at hmem
    | cons j items =>
      have hlt : finish i < start j :=
        lt_of_le_of_ne (h.finish_le List.mem_cons_self) (hgap j rfl).symm
      exact h.tail.notMem_covered_of_lt hlt hmem

end NormalForm

end Timeline
