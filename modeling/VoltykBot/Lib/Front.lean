import Mathlib.Data.List.Pairwise
import Mathlib.Data.List.Sort

/-!
This module contains what the first elements of a sorted list are: with enough elements that all others come after,
none of the others is among them; an element with few before it is.
-/

namespace Front

variable {α : Type*} {r : α → α → Prop} {l : List α} {k : Nat} {a : α}

theorem mem_of_mem_take {p : α → Prop} [DecidablePred p] (hsorted : l.Pairwise r)
    (hahead : ∀ a ∈ l, p a → ∀ b ∈ l, ¬ p b → ¬ r b a) (hmany : k ≤ (l.filter fun a => p a).length)
    (ha : a ∈ l.take k) : p a := by
  induction l generalizing k with
  | nil => exact absurd ha (by simp)
  | cons b l ih =>
    cases k with
    | zero => exact absurd ha (by simp)
    | succ k =>
      rw [List.pairwise_cons] at hsorted
      have hfirst : p b := by
        -- Otherwise one of the many would come after the first one.
        by_contra hb
        rw [List.filter_cons_of_neg (by simpa using hb)] at hmany
        rcases List.exists_mem_of_length_pos (by omega : 0 < (l.filter fun a => p a).length) with ⟨c, hc⟩
        rw [List.mem_filter, decide_eq_true_iff] at hc
        exact hahead c (List.mem_cons_of_mem b hc.1) hc.2 b List.mem_cons_self hb (hsorted.1 c hc.1)
      rw [List.take_succ_cons, List.mem_cons] at ha
      rcases ha with rfl | ha
      . exact hfirst
      . rw [List.filter_cons_of_pos (by simpa using hfirst), List.length_cons] at hmany
        refine ih hsorted.2 ?_ (Nat.le_of_succ_le_succ hmany) ha
        intro c hc hpc d hd
        exact hahead c (List.mem_cons_of_mem b hc) hpc d (List.mem_cons_of_mem b hd)

theorem mem_take_of_few [DecidableRel r] (hsorted : l.Pairwise r) (hrefl : r a a) (ha : a ∈ l)
    (hfew : (l.filter fun b => r b a).length ≤ k) : a ∈ l.take k := by
  by_contra hnot
  have hdrop : a ∈ l.drop k := by
    rw [← List.take_append_drop k l, List.mem_append] at ha
    exact ha.resolve_left hnot
  have hbefore : (l.take k).filter (fun b => r b a) = l.take k := by
    rw [← List.take_append_drop k l] at hsorted
    exact List.filter_eq_self.mpr fun b hb => decide_eq_true ((List.pairwise_append.mp hsorted).2.2 b hb a hdrop)
  have hself : 0 < ((l.drop k).filter fun b => r b a).length :=
    List.length_pos_of_mem (List.mem_filter.mpr ⟨hdrop, decide_eq_true hrefl⟩)
  have hlength := List.length_pos_of_mem hdrop
  rw [List.length_drop] at hlength
  rw [← List.take_append_drop k l, List.filter_append, List.length_append, hbefore, List.length_take] at hfew
  omega

end Front
