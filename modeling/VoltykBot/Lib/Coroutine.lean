import Mathlib.Data.List.Nodup
import Mathlib.Data.List.Perm.Basic
import Mathlib.Logic.Function.Basic

/-!
This module contains coroutines that share a store. Each of them works on a cell of its own and may be suspended
between any two steps; as long as no two of them have one cell, it does not matter how they take turns.
-/

universe u

/--
What is left of a coroutine at a suspension point. A step sees the cell as it is when the step is taken.
-/
inductive Coroutine (σ : Type u) where
  | returned
  | raised
  | step (f : σ → σ) (rest : σ → Coroutine σ)

namespace Coroutine

section Run

variable {σ : Type u}

def run (c : Coroutine σ) (s : σ) : σ :=
  match c with
  | .returned => s
  | .raised => s
  | .step f rest => (rest s).run (f s)

def isOver (c : Coroutine σ) : Bool :=
  match c with
  | .step _ _ => false
  | _ => true

theorem run_of_isOver {c : Coroutine σ} (h : c.isOver = true) (s : σ) : c.run s = s := by
  cases c with
  | returned => rfl
  | raised => rfl
  | step f rest => cases h

end Run

section Store

variable {κ : Type*} {σ : Type u} [DecidableEq κ]

def runAll (threads : List (κ × Coroutine σ)) (store : κ → σ) : κ → σ :=
  match threads with
  | [] => store
  | (k, c) :: threads => runAll threads (Function.update store k (c.run (store k)))

inductive Resumes : List (κ × Coroutine σ) → (κ → σ) → List (κ × Coroutine σ) → (κ → σ) → Prop where
  | stepped {before after : List (κ × Coroutine σ)} {k : κ} {f : σ → σ} {rest : σ → Coroutine σ} {store : κ → σ}
    : Resumes (before ++ (k, .step f rest) :: after) store
        (before ++ (k, rest (store k)) :: after) (Function.update store k (f (store k)))
  | ended {before after : List (κ × Coroutine σ)} {k : κ} {c : Coroutine σ} {store : κ → σ}
      (hover : c.isOver = true)
    : Resumes (before ++ (k, c) :: after) store (before ++ after) store

variable {threads threads' : List (κ × Coroutine σ)} {store store' : κ → σ}

theorem runAll_perm (h : threads.Perm threads') (hkeys : (threads.map Prod.fst).Nodup) (store : κ → σ)
    : runAll threads store = runAll threads' store := by
  induction h generalizing store with
  | nil => rfl
  | cons thread h ih =>
    rw [List.map_cons, List.nodup_cons] at hkeys
    exact ih hkeys.2 _
  | swap thread thread' threads =>
    rw [List.map_cons, List.map_cons, List.nodup_cons] at hkeys
    have hne : thread'.1 ≠ thread.1 := fun heq => hkeys.1 (heq ▸ List.mem_cons_self)
    unfold runAll
    dsimp only [runAll]
    rw [Function.update_of_ne hne.symm, Function.update_of_ne hne, Function.update_comm hne]
  | trans h₁ h₂ ih₁ ih₂ => exact (ih₁ hkeys store).trans (ih₂ ((h₁.map Prod.fst).nodup_iff.mp hkeys) store)

theorem runAll_middle {before after : List (κ × Coroutine σ)} {k : κ} {c : Coroutine σ}
    (hkeys : ((before ++ (k, c) :: after).map Prod.fst).Nodup) (store : κ → σ)
    : runAll (before ++ (k, c) :: after) store
        =
      runAll (before ++ after) (Function.update store k (c.run (store k))) :=
  runAll_perm List.perm_middle hkeys store

theorem runAll_resumes (h : Resumes threads store threads' store') (hkeys : (threads.map Prod.fst).Nodup)
    : runAll threads' store' = runAll threads store ∧ (threads'.map Prod.fst).Nodup := by
  cases h with
  | @stepped before after k f rest _ =>
    have hkeys' : ((before ++ (k, rest (store k)) :: after).map Prod.fst).Nodup := by
      rw [List.map_append] at hkeys ⊢
      exact hkeys
    refine ⟨?_, hkeys'⟩
    rw [runAll_middle hkeys, runAll_middle hkeys', Function.update_self, Function.update_idem]
    rfl
  | @ended before after k c _ hover =>
    have hsub : ((before ++ after).map Prod.fst).Sublist ((before ++ (k, c) :: after).map Prod.fst) :=
      ((List.sublist_cons_self (k, c) after).append_left before).map Prod.fst
    refine ⟨?_, hkeys.sublist hsub⟩
    rw [runAll_middle hkeys, run_of_isOver hover, Function.update_eq_self]

end Store

end Coroutine
