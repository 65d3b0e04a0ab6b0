import Mathlib.Data.List.Basic
import Mathlib.Data.List.Pairwise

/-!
This module contains lists of sessions that take turns. Each session keeps a fact of its own, and any two of them a
relation, while one of them changes or a new one begins.
-/

namespace Sessions

variable {σ : Type*} {own own' : σ → Prop} {apart : σ → σ → Prop} {l : List σ} {a b : σ} {i : Nat}

theorem mem_set_cases (h : b ∈ l.set i a) : b = a ∨ b ∈ l.eraseIdx i := by
  rcases List.mem_iff_getElem?.mp h with ⟨j, hj⟩
  rw [List.getElem?_set] at hj
  split at hj
  . split at hj
    . exact Or.inl (Option.some.inj hj).symm
    . cases hj
  . next hne => exact Or.inr (List.mem_eraseIdx_iff_getElem?.mpr ⟨j, Ne.symm hne, hj⟩)

theorem pairwise_set (hsymm : ∀ {a b : σ}, apart a b → apart b a) (h : l.Pairwise apart)
    (hothers : ∀ b ∈ l.eraseIdx i, apart a b) : (l.set i a).Pairwise apart := by
  induction l generalizing i with
  | nil => exact List.Pairwise.nil
  | cons first rest ih =>
    rw [List.pairwise_cons] at h
    cases i with
    | zero => exact List.pairwise_cons.mpr ⟨hothers, h.2⟩
    | succ i =>
      rw [List.eraseIdx_cons_succ, List.forall_mem_cons] at hothers
      rw [List.set_cons_succ, List.pairwise_cons]
      constructor
      . intro b hb
        rcases List.mem_or_eq_of_mem_set hb with hb | rfl
        . exact h.1 b hb
        . exact hsymm hothers.1
      . exact ih h.2 hothers.2

structure Keep (own : σ → Prop) (apart : σ → σ → Prop) (l : List σ) : Prop where
  own : ∀ a ∈ l, own a
  apart : l.Pairwise apart

theorem keep_nil : Keep own apart [] := ⟨nofun, .nil⟩

namespace Keep

theorem own_of_getElem? (h : Keep own apart l) (ha : l[i]? = some a) : own a :=
  h.own a (List.mem_of_getElem? ha)

theorem apart_others (hsymm : ∀ {a b : σ}, apart a b → apart b a) (h : Keep own apart l) (ha : l[i]? = some a)
    : ∀ b ∈ l.eraseIdx i, apart a b := by
  intro b hb
  rcases List.mem_eraseIdx_iff_getElem?.mp hb with ⟨j, hne, hj⟩
  rcases List.getElem?_eq_some_iff.mp ha with ⟨hi, rfl⟩
  rcases List.getElem?_eq_some_iff.mp hj with ⟨hlt, rfl⟩
  have hpairs := List.pairwise_iff_getElem.mp h.apart
  rcases Nat.lt_or_gt_of_ne hne with hbefore | hbehind
  . exact hsymm (hpairs j i hlt hi hbefore)
  . exact hpairs i j hi hlt hbehind

theorem set (hsymm : ∀ {a b : σ}, apart a b → apart b a) (h : Keep own apart l) (hown : own' a)
    (hothers : ∀ b ∈ l.eraseIdx i, own b → own' b) (hapart : ∀ b ∈ l.eraseIdx i, apart a b)
    : Keep own' apart (l.set i a) := by
  refine ⟨?_, pairwise_set hsymm h.apart hapart⟩
  intro b hb
  rcases mem_set_cases hb with rfl | hb
  . exact hown
  . exact hothers b hb (h.own b (List.mem_of_mem_eraseIdx hb))

theorem concat (h : Keep own apart l) (hown : own a) (hapart : ∀ b ∈ l, apart b a) : Keep own apart (l ++ [a]) := by
  constructor
  . intro b hb
    rcases List.mem_append.mp hb with hb | hb
    . exact h.own b hb
    . exact List.mem_singleton.mp hb ▸ hown
  . rw [List.pairwise_append]
    refine ⟨h.apart, List.pairwise_singleton apart a, ?_⟩
    intro b hb c hc
    exact List.mem_singleton.mp hc ▸ hapart b hb

theorem mono (h : Keep own apart l) (hown : ∀ a ∈ l, own a → own' a) : Keep own' apart l :=
  ⟨fun a ha => hown a ha (h.own a ha), h.apart⟩

end Keep

end Sessions
