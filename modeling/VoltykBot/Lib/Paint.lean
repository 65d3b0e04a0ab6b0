import Mathlib.Data.List.Basic

/-!
This module contains spans that are painted one after the other onto a row of cells. What a cell shows in
the end depends on the spans that cover it.
-/

namespace Paint

variable {α ν : Type*}

/--
`value` in every cell from `lo` up to, and without, `hi`
-/
def fill (cells : List ν) (lo hi : Nat) (value : ν) : List ν :=
  (List.range' lo (hi - lo)).foldl (fun cells i => cells.set i value) cells

section

variable (lo hi : α → Nat)

def Covers (span : α) (i : Nat) : Prop := lo span ≤ i ∧ i < hi span

instance (span : α) (i : Nat) : Decidable (Covers lo hi span i) := inferInstanceAs (Decidable (_ ∧ _))

def paint (value : α → ν) (cells : List ν) (spans : List α) : List ν :=
  spans.foldl (fun cells span => fill cells (lo span) (hi span) (value span)) cells

end

theorem getElem?_foldl_set (cells : List ν) (lo len : Nat) (value : ν) (i : Nat)
    : ((List.range' lo len).foldl (fun cells i => cells.set i value) cells)[i]? =
        if lo ≤ i ∧ i < lo + len then cells[i]?.map fun _ => value else cells[i]? := by
  induction len generalizing cells lo with
  | zero =>
    rw [List.range'_zero, List.foldl_nil, if_neg]
    omega
  | succ len ih =>
    rw [List.range'_succ, List.foldl_cons, ih, List.getElem?_set']
    by_cases heq : lo = i
    . subst heq
      rw [if_neg (by omega), if_pos rfl, if_pos (by omega)]
      rfl
    . rw [if_neg heq]
      by_cases hin : lo + 1 ≤ i ∧ i < lo + 1 + len
      . rw [if_pos hin, if_pos (by omega)]
      . rw [if_neg hin, if_neg (by omega)]

theorem getElem?_fill (cells : List ν) (lo hi : Nat) (value : ν) (i : Nat)
    : (fill cells lo hi value)[i]? =
        if lo ≤ i ∧ i < hi then cells[i]?.map fun _ => value else cells[i]? := by
  unfold fill
  rw [getElem?_foldl_set]
  congr 1
  apply propext
  omega

variable {lo hi : α → Nat} {value : α → ν}

theorem getElem?_paint_of_uncovered {cells : List ν} {spans : List α} {i : Nat}
    (h : ∀ span ∈ spans, ¬ Covers lo hi span i)
    : (paint lo hi value cells spans)[i]? = cells[i]? := by
  unfold paint
  induction spans generalizing cells with
  | nil => rfl
  | cons span spans ih =>
    rw [List.foldl_cons, ih, getElem?_fill, if_neg]
    . exact h span List.mem_cons_self
    . intro span' hspan'
      exact h span' (List.mem_cons_of_mem _ hspan')

theorem getElem?_paint_of_covered {cells : List ν} {spans : List α} {i : Nat} {v : ν}
    (hagree : ∀ span ∈ spans, Covers lo hi span i → value span = v)
    (hcovered : ∃ span ∈ spans, Covers lo hi span i)
    : (paint lo hi value cells spans)[i]? = cells[i]?.map fun _ => v := by
  induction spans generalizing cells with
  | nil =>
    rcases hcovered with ⟨span, hspan, _⟩
    cases hspan
  | cons span spans ih =>
    unfold paint
    rw [List.foldl_cons]
    have hrest : ∀ span' ∈ spans, Covers lo hi span' i → value span' = v :=
      fun span' hspan' => hagree span' (List.mem_cons_of_mem _ hspan')
    by_cases hlater : ∃ span' ∈ spans, Covers lo hi span' i
    . refine (ih hrest hlater).trans ?_
      rw [getElem?_fill]
      split
      . rw [Option.map_map]
        rfl
      . rfl
    . -- the first span is the last one that covers the cell
      rcases hcovered with ⟨span', hspan', hcovers⟩
      have hfirst : span' = span := by
        cases List.mem_cons.mp hspan' with
        | inl heq => exact heq
        | inr hmem => exact absurd ⟨span', hmem, hcovers⟩ hlater
      subst hfirst
      refine (getElem?_paint_of_uncovered ?_).trans ?_
      . intro span' hmem hcovers'
        exact hlater ⟨span', hmem, hcovers'⟩
      . rw [getElem?_fill, hagree span' List.mem_cons_self hcovers]
        exact if_pos hcovers

end Paint
