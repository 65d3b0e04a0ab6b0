import Mathlib.Data.Rat.Defs
import Mathlib.Algebra.Order.Ring.Unbundled.Rat
import Mathlib.Tactic.Linarith
import VoltykBot.Lib.Run

/-!
This module contains the circuit breaker, and the calls of it that are in flight at the same time.
-/

namespace CircuitBreaker

inductive State where
  | closed
  | opened
  | halfOpen
  deriving DecidableEq, Repr

/--
The arguments of `CircuitBreaker`. `exclude` is `isinstance` with the tuple of the excluded types.
-/
structure Config (Exc : Type) where
  name : String
  failMax : Int := 5
  resetTimeout : ℚ := 60
  exclude : Exc → Bool := fun _ => false

structure Breaker where
  state : State := .closed
  failures : Nat := 0
  openedAt : ℚ := 0
  deriving DecidableEq, Repr

structure CircuitBreakerOpen where
  name : String
  retryAfter : ℚ
  deriving DecidableEq, Repr

/--
How the function of a call ends. A cancellation is no `Exception`.
-/
inductive Outcome (Exc : Type) where
  | returned
  | raised (exc : Exc)
  | cancelled
  deriving DecidableEq, Repr

section Transitions

variable {Exc : Type} (cfg : Config Exc)

/--
`_get_state`, which answers with the state that it leaves behind.
-/
def getState (now : ℚ) (b : Breaker) : Breaker :=
  if b.state = .opened ∧ cfg.resetTimeout ≤ now - b.openedAt then { b with state := .halfOpen } else b

def onSuccess (b : Breaker) : Breaker :=
  { b with state := .closed, failures := 0 }

def trips (b : Breaker) : Bool :=
  b.state = .halfOpen ∨ cfg.failMax ≤ ((b.failures + 1 : Nat) : Int)

def onFailure (now : ℚ) (b : Breaker) : Breaker :=
  if trips cfg b then
    { state := .opened, failures := b.failures + 1, openedAt := now }
  else
    { b with failures := b.failures + 1 }

/--
What `call` does before the function: it looks at the clock again for the error.
-/
def enter (now again : ℚ) (b : Breaker) : Except CircuitBreakerOpen Unit × Breaker :=
  let b := getState cfg now b
  if b.state = .opened then
    (.error { name := cfg.name, retryAfter := max 0 (cfg.resetTimeout - (again - b.openedAt)) }, b)
  else
    (.ok (), b)

def leave (outcome : Outcome Exc) (now : ℚ) (b : Breaker) : Breaker :=
  match outcome with
  | .returned => onSuccess b
  | .raised exc => if cfg.exclude exc then b else onFailure cfg now b
  | .cancelled => b

variable {cfg} {now again : ℚ} {b : Breaker}

theorem getState_of_ne (h : b.state ≠ .opened) : getState cfg now b = b := by
  unfold getState
  rw [if_neg (fun hopen => h hopen.1)]

theorem getState_of_lt (h : now - b.openedAt < cfg.resetTimeout) : getState cfg now b = b := by
  unfold getState
  rw [if_neg (fun hopen => absurd hopen.2 (not_le.mpr h))]

theorem getState_of_le (h : b.state = .opened) (hle : cfg.resetTimeout ≤ now - b.openedAt)
    : getState cfg now b = { b with state := .halfOpen } := by
  unfold getState
  rw [if_pos ⟨h, hle⟩]

@[simp]
theorem getState_openedAt : (getState cfg now b).openedAt = b.openedAt := by
  unfold getState
  split <;> rfl

@[simp]
theorem getState_failures : (getState cfg now b).failures = b.failures := by
  unfold getState
  split <;> rfl

theorem getState_state
    : (getState cfg now b).state = .opened ↔ b.state = .opened ∧ now - b.openedAt < cfg.resetTimeout := by
  unfold getState
  split
  . next hopen => simp [hopen.1, not_lt.mpr hopen.2]
  . next hopen =>
    constructor
    . intro hstate
      exact ⟨hstate, not_le.mp fun hle => hopen ⟨hstate, hle⟩⟩
    . exact And.left

theorem getState_of_opened (h : (getState cfg now b).state = .opened) : getState cfg now b = b :=
  getState_of_lt (getState_state.mp h).2

@[simp]
theorem enter_snd : (enter cfg now again b).2 = getState cfg now b := by
  unfold enter
  dsimp only
  split <;> rfl

theorem enter_of_opened (h : (getState cfg now b).state = .opened)
    : enter cfg now again b =
        (.error { name := cfg.name, retryAfter := max 0 (cfg.resetTimeout - (again - b.openedAt)) },
          getState cfg now b) := by
  unfold enter
  rw [if_pos h, getState_openedAt]

theorem enter_of_ne (h : (getState cfg now b).state ≠ .opened)
    : enter cfg now again b = (.ok (), getState cfg now b) := by
  unfold enter
  rw [if_neg h]

theorem onFailure_of_trips (h : trips cfg b)
    : onFailure cfg now b = { state := .opened, failures := b.failures + 1, openedAt := now } := by
  unfold onFailure
  rw [if_pos h]

theorem onFailure_of_not_trips (h : ¬ trips cfg b)
    : b.state ≠ .halfOpen ∧ onFailure cfg now b = { b with failures := b.failures + 1 } := by
  unfold onFailure
  rw [if_neg h]
  refine ⟨?_, rfl⟩
  intro hstate
  apply h
  simp [trips, hstate]

end Transitions

end CircuitBreaker
