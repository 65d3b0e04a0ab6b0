import Mathlib.Logic.Function.Basic
import Mathlib.Data.List.Basic

/-!
This module contains a cooldown whose stamps are written late. An attempt reads a stamp when it begins, and
may send from then on; only when it ends does it write the time of its own begin. The stamps lie in cells,
and attempts for one user may use different ones. It provides what the book of such attempts has to satisfy,
and that each step that it allows for keeps what was sent for one user apart.
-/

namespace Cooldown

variable {Task User Ref : Type*}

structure Attempt (User Ref : Type*) where
  user : User
  ref : Ref
  startedAt : Int

structure Sent (Task User : Type*) where
  task : Task
  user : User
  startedAt : Int

/--
The begin of the last attempt for a user that has sent something or written its stamp, and the cell that
holds the stamp, if it was written.
-/
structure Last (Ref : Type*) where
  ref : Option Ref
  startedAt : Int

structure Book (Task User Ref : Type*) where
  inFlight : Task → Option (Attempt User Ref)
  sent : List (Sent Task User)
  last : User → Option (Last Ref)
  stamp : Ref → Option Int

namespace Book

variable {d : Int} {b b' : Book Task User Ref} {k : Task} {a : Attempt User Ref}

def Spaced (d : Int) (b : Book Task User Ref) : Prop :=
  ∀ x ∈ b.sent, ∀ y ∈ b.sent, x.user = y.user → x.task ≠ y.task →
    x.startedAt + d ≤ y.startedAt ∨ y.startedAt + d ≤ x.startedAt

structure Inv (d : Int) (b : Book Task User Ref) : Prop where
  spaced : b.Spaced d
  single : ∀ {k k' a a'}, b.inFlight k = some a → b.inFlight k' = some a' → a.user = a'.user → k = k'
  own : ∀ {x a}, x ∈ b.sent → b.inFlight x.task = some a → x.user = a.user ∧ x.startedAt = a.startedAt
  ahead : ∀ {x k a}, x ∈ b.sent → b.inFlight k = some a → x.user = a.user → x.task ≠ k →
    x.startedAt + d ≤ a.startedAt
  covered : ∀ {x}, x ∈ b.sent → b.inFlight x.task = none →
    ∃ l, b.last x.user = some l ∧ x.startedAt ≤ l.startedAt
  stamped : ∀ {u l r}, b.last u = some l → l.ref = some r → b.stamp r = some l.startedAt

theorem inv_empty (d : Int) (stamp : Ref → Option Int)
    : Inv d ({ inFlight := fun _ => none, sent := [], last := fun _ => none, stamp := stamp }
        : Book Task User Ref) where
  spaced := nofun
  single := nofun
  own := nofun
  ahead := nofun
  covered := nofun
  stamped := nofun

theorem Inv.same (h : Inv d b) (hinFlight : b'.inFlight = b.inFlight) (hsent : b'.sent = b.sent)
    (hlast : b'.last = b.last)
    (hstamp : ∀ u l r, b.last u = some l → l.ref = some r → b'.stamp r = b.stamp r) : Inv d b' where
  spaced := by
    unfold Spaced
    rw [hsent]
    exact h.spaced
  single := by
    rw [hinFlight]
    exact h.single
  own := by
    rw [hinFlight, hsent]
    exact h.own
  ahead := by
    rw [hinFlight, hsent]
    exact h.ahead
  covered := by
    rw [hinFlight, hsent, hlast]
    exact h.covered
  stamped {u l r} hl hr := by
    rw [hlast] at hl
    rw [hstamp u l r hl hr]
    exact h.stamped hl hr

/--
What the attempt `a` has to find when it reads its stamp: no other attempt for its user is under way, the
last one wrote the cell it reads or is long past, and the cell does not hold it back.
-/
structure Passes (d : Int) (b : Book Task User Ref) (a : Attempt User Ref) : Prop where
  alone : ∀ k a', b.inFlight k = some a' → a'.user ≠ a.user
  last : ∀ l, b.last a.user = some l → l.ref = some a.ref ∨ l.startedAt + d ≤ a.startedAt
  stamp : ∀ t, b.stamp a.ref = some t → t + d ≤ a.startedAt

theorem Inv.apart (h : Inv d b) (hpasses : Passes d b a) {x : Sent Task User} (hx : x ∈ b.sent)
    (huser : x.user = a.user) : x.startedAt + d ≤ a.startedAt := by
  cases hinFlight : b.inFlight x.task with
  | some a' =>
    have hown := (h.own hx hinFlight).1
    exact absurd (hown.symm.trans huser) (hpasses.alone _ _ hinFlight)
  | none =>
    rcases h.covered hx hinFlight with ⟨l, hl, hle⟩
    rw [huser] at hl
    have hlast : l.startedAt + d ≤ a.startedAt := by
      rcases hpasses.last l hl with href | hlong
      . exact hpasses.stamp _ (h.stamped hl href)
      . exact hlong
    omega

theorem Inv.send (h : Inv d b) (ha : b.inFlight k = some a)
    : Inv d { b with sent := ⟨k, a.user, a.startedAt⟩ :: b.sent } where
  spaced x hx y hy huser hne := by
    rw [List.mem_cons] at hx hy
    rcases hx with rfl | hx
    . rcases hy with rfl | hy
      . exact absurd rfl hne
      . exact .inr (h.ahead hy ha huser.symm hne.symm)
    . rcases hy with rfl | hy
      . exact .inl (h.ahead hx ha huser hne)
      . exact h.spaced x hx y hy huser hne
  single := h.single
  own {x a'} hx ha' := by
    rcases List.mem_cons.mp hx with rfl | hx
    . rw [ha, Option.some.injEq] at ha'
      subst ha'
      exact ⟨rfl, rfl⟩
    . exact h.own hx ha'
  ahead {x k' a'} hx ha' huser hne := by
    rcases List.mem_cons.mp hx with rfl | hx
    . exact absurd (h.single ha ha' huser) hne
    . exact h.ahead hx ha' huser hne
  covered {x} hx hnone := by
    rcases List.mem_cons.mp hx with rfl | hx
    . rw [ha] at hnone
      cases hnone
    . exact h.covered hx hnone
  stamped := h.stamped

variable [DecidableEq Task]

theorem Inv.begin (h : Inv d b) (hpasses : Passes d b a) (hfresh : ∀ x ∈ b.sent, x.task ≠ k)
    : Inv d { b with inFlight := Function.update b.inFlight k (some a) } where
  spaced := h.spaced
  single {k₁ k₂ a₁ a₂} h₁ h₂ huser := by
    dsimp only at h₁ h₂
    by_cases hk₁ : k₁ = k
    . by_cases hk₂ : k₂ = k
      . rw [hk₁, hk₂]
      . rw [hk₁, Function.update_self, Option.some.injEq] at h₁
        rw [Function.update_of_ne hk₂] at h₂
        rw [h₁] at hpasses
        exact absurd huser.symm (hpasses.alone _ _ h₂)
    . rw [Function.update_of_ne hk₁] at h₁
      by_cases hk₂ : k₂ = k
      . rw [hk₂, Function.update_self, Option.some.injEq] at h₂
        rw [h₂] at hpasses
        exact absurd huser (hpasses.alone _ _ h₁)
      . rw [Function.update_of_ne hk₂] at h₂
        exact h.single h₁ h₂ huser
  own {x a'} hx ha' := by
    dsimp only at ha'
    rw [Function.update_of_ne (hfresh x hx)] at ha'
    exact h.own hx ha'
  ahead {x k' a'} hx ha' huser hne := by
    dsimp only at ha'
    by_cases hk' : k' = k
    . rw [hk', Function.update_self, Option.some.injEq] at ha'
      subst ha'
      exact h.apart hpasses hx huser
    . rw [Function.update_of_ne hk'] at ha'
      exact h.ahead hx ha' huser hne
  covered {x} hx hnone := by
    dsimp only at hnone
    rw [Function.update_of_ne (hfresh x hx)] at hnone
    exact h.covered hx hnone
  stamped := h.stamped

theorem update_eq_some_of_none {α β : Type*} [DecidableEq α] {f : α → Option β} {k k' : α} {y : β}
    (h : Function.update f k none k' = some y) : k' ≠ k ∧ f k' = some y := by
  by_cases hk : k' = k
  . rw [hk, Function.update_self] at h
    cases h
  . rw [Function.update_of_ne hk] at h
    exact ⟨hk, h⟩

theorem Inv.leave (h : Inv d b) (hd : 0 ≤ d) (ha : b.inFlight k = some a)
    (hinFlight : b'.inFlight = Function.update b.inFlight k none) (hsent : b'.sent = b.sent)
    (hlast_ne : ∀ u, u ≠ a.user → b'.last u = b.last u)
    (hlast : (∃ l, b'.last a.user = some l ∧ l.startedAt = a.startedAt) ∨
      (b'.last a.user = b.last a.user ∧ ∀ x ∈ b.sent, x.task ≠ k))
    (hstamped : ∀ u l r, b'.last u = some l → l.ref = some r → b'.stamp r = some l.startedAt)
    : Inv d b' where
  spaced := by
    unfold Spaced
    rw [hsent]
    exact h.spaced
  single {k₁ k₂ a₁ a₂} h₁ h₂ huser := by
    rw [hinFlight] at h₁ h₂
    exact h.single (update_eq_some_of_none h₁).2 (update_eq_some_of_none h₂).2 huser
  own {x a'} hx ha' := by
    rw [hsent] at hx
    rw [hinFlight] at ha'
    exact h.own hx (update_eq_some_of_none ha').2
  ahead {x k' a'} hx ha' huser hne := by
    rw [hsent] at hx
    rw [hinFlight] at ha'
    exact h.ahead hx (update_eq_some_of_none ha').2 huser hne
  covered {x} hx hnone := by
    rw [hsent] at hx
    rw [hinFlight] at hnone
    by_cases huser : x.user = a.user
    . rw [huser]
      rcases hlast with ⟨l, hl, hstart⟩ | ⟨hsame, hfresh⟩
      . refine ⟨l, hl, ?_⟩
        rw [hstart]
        by_cases hk : x.task = k
        . have hown := (h.own hx (hk ▸ ha)).2
          omega
        . have hahead := h.ahead hx ha huser hk
          omega
      . rw [hsame, ← huser]
        rw [Function.update_of_ne (hfresh x hx)] at hnone
        exact h.covered hx hnone
    . rw [hlast_ne _ huser]
      have hk : x.task ≠ k := by
        intro hk
        exact huser (h.own hx (hk ▸ ha)).1
      rw [Function.update_of_ne hk] at hnone
      exact h.covered hx hnone
  stamped {u l r} hl hr := hstamped u l r hl hr

end Book
end Cooldown
