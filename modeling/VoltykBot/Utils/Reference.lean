import VoltykBot.Lib.Mealy
import VoltykBot.Utils.BreakerCalls

/-!
This module contains the calls of a circuit breaker that do not overlap, and the automaton that they follow.
-/

namespace CircuitBreaker

/--
A call with everything that happens until its end, or a look at the state. `reads` are the looks at the
state while the function of the call is executing.
-/
inductive Op (Exc : Type) where
  | call (now again : ℚ) (reads : List ℚ) (outcome : Outcome Exc) (finishedAt : ℚ)
  | stateRead (now : ℚ)
  deriving DecidableEq, Repr

def Op.times {Exc : Type} (op : Op Exc) : List ℚ :=
  match op with
  | .call now again reads _ finishedAt => now :: again :: (reads ++ [finishedAt])
  | .stateRead now => [now]

inductive Answer where
  | rejected (error : CircuitBreakerOpen)
  | admitted
  | state (state : State)
  deriving DecidableEq, Repr

/--
CLOSED with the counted failures since the last success, or opened at a time.
-/
inductive Reference where
  | closed (failures : Nat)
  | opened (since : ℚ)
  deriving DecidableEq, Repr

section

variable {Exc : Type} (cfg : Config Exc)

def getStates (reads : List ℚ) (b : Breaker) : Breaker :=
  reads.foldl (fun b now => getState cfg now b) b

def serve (b : Breaker) (op : Op Exc) : Breaker × Answer :=
  match op with
  | .call now again reads outcome finishedAt =>
    match enter cfg now again b with
    | (.error error, b) => (b, .rejected error)
    | (.ok (), b) => (leave cfg outcome finishedAt (getStates cfg reads b), .admitted)
  | .stateRead now => (getState cfg now b, .state (getState cfg now b).state)

def Reference.fail (now : ℚ) (r : Reference) : Reference :=
  match r with
  | .closed failures =>
    if cfg.failMax ≤ ((failures + 1 : Nat) : Int) then .opened now else .closed (failures + 1)
  | .opened _ => .opened now

def Reference.result (outcome : Outcome Exc) (now : ℚ) (r : Reference) : Reference :=
  match outcome with
  | .returned => .closed 0
  | .raised exc => if cfg.exclude exc then r else r.fail cfg now
  | .cancelled => r

def Reference.serve (r : Reference) (op : Op Exc) : Reference × Answer :=
  match r, op with
  | .closed failures, .call _ _ _ outcome finishedAt =>
    ((Reference.closed failures).result cfg outcome finishedAt, .admitted)
  | .closed failures, .stateRead _ => (.closed failures, .state .closed)
  | .opened since, .call now again _ outcome finishedAt =>
    if now - since < cfg.resetTimeout then
      (.opened since, .rejected {
        name := cfg.name
        retryAfter := max 0 (cfg.resetTimeout - (again - since)) })
    else
      ((Reference.opened since).result cfg outcome finishedAt, .admitted)
  | .opened since, .stateRead now =>
    (.opened since, .state (if now - since < cfg.resetTimeout then .opened else .halfOpen))

variable {cfg} {b : Breaker} {now again : ℚ}

theorem getStates_of_ne {reads : List ℚ} (h : b.state ≠ .opened) : getStates cfg reads b = b := by
  unfold getStates
  induction reads with
  | nil => rfl
  | cons now reads ih => rw [List.foldl_cons, getState_of_ne h, ih]

theorem serve_of_opened {reads : List ℚ} {outcome : Outcome Exc} {finishedAt : ℚ}
    (h : (getState cfg now b).state = .opened)
    : serve cfg b (.call now again reads outcome finishedAt) =
        (getState cfg now b, .rejected {
          name := cfg.name
          retryAfter := max 0 (cfg.resetTimeout - (again - b.openedAt)) }) := by
  unfold serve
  dsimp only
  rw [enter_of_opened h]

theorem serve_of_ne {reads : List ℚ} {outcome : Outcome Exc} {finishedAt : ℚ}
    (h : (getState cfg now b).state ≠ .opened)
    : serve cfg b (.call now again reads outcome finishedAt) =
        (leave cfg outcome finishedAt (getState cfg now b), .admitted) := by
  unfold serve
  dsimp only
  rw [enter_of_ne h]
  dsimp only
  rw [getStates_of_ne h]

/--
A breaker that is HALF_OPEN is one whose timeout has passed at all times that are still to come.
-/
def Agrees (cfg : Config Exc) (b : Breaker) (r : Reference) (times : List ℚ) : Prop :=
  match r with
  | .closed failures => b.state = .closed ∧ b.failures = failures
  | .opened since =>
    b.openedAt = since ∧
      (b.state = .opened ∨ (b.state = .halfOpen ∧ ∀ t ∈ times, cfg.resetTimeout ≤ t - since))

theorem Agrees.sublist {r : Reference} {times times' : List ℚ} (h : Agrees cfg b r times)
    (hsub : ∀ t ∈ times', t ∈ times) : Agrees cfg b r times' := by
  cases r with
  | closed failures => exact h
  | opened since =>
    rcases h with ⟨hsince, hopen | ⟨hhalf, hpassed⟩⟩
    . exact ⟨hsince, .inl hopen⟩
    . exact ⟨hsince, .inr ⟨hhalf, fun t ht => hpassed t (hsub t ht)⟩⟩

theorem Agrees.getState {r : Reference} {times : List ℚ} (h : Agrees cfg b r (now :: times))
    (hle : ∀ t ∈ times, now ≤ t) : Agrees cfg (getState cfg now b) r (now :: times) := by
  cases r with
  | closed failures =>
    rw [getState_of_ne (by simp [h.1])]
    exact h
  | opened since =>
    rcases h with ⟨hsince, hopen | ⟨hhalf, hpassed⟩⟩
    . by_cases hlt : now - b.openedAt < cfg.resetTimeout
      . rw [getState_of_lt hlt]
        exact ⟨hsince, .inl hopen⟩
      . rw [getState_of_le hopen (not_lt.mp hlt)]
        refine ⟨hsince, .inr ⟨rfl, ?_⟩⟩
        intro t ht
        rw [hsince, not_lt] at hlt
        rcases List.mem_cons.mp ht with rfl | ht
        . exact hlt
        . have hnow := hle t ht
          linarith
    . rw [getState_of_ne (by simp [hhalf])]
      exact ⟨hsince, .inr ⟨hhalf, hpassed⟩⟩

theorem Agrees.getState_opened {since : ℚ} {times : List ℚ}
    (h : Agrees cfg b (.opened since) (now :: times))
    : (CircuitBreaker.getState cfg now b).state =
        if now - since < cfg.resetTimeout then .opened else .halfOpen := by
  rcases h with ⟨rfl, hopen | ⟨hhalf, hpassed⟩⟩
  . split
    . next hlt => rw [getState_of_lt hlt, hopen]
    . next hlt => rw [getState_of_le hopen (not_lt.mp hlt)]
  . rw [getState_of_ne (by simp [hhalf]), if_neg (not_lt.mpr (hpassed now List.mem_cons_self)), hhalf]

theorem Agrees.fail {r : Reference} {times times' : List ℚ} (h : Agrees cfg b r times)
    (hne : b.state ≠ .opened) : Agrees cfg (onFailure cfg now b) (r.fail cfg now) times' := by
  cases r with
  | closed failures =>
    rcases h with ⟨hclosed, rfl⟩
    unfold Reference.fail
    dsimp only
    split
    . next hmax =>
      rw [onFailure_of_trips (by simpa [trips, hclosed] using hmax)]
      exact ⟨rfl, .inl rfl⟩
    . next hmax =>
      rw [(onFailure_of_not_trips (by simpa [trips, hclosed] using hmax)).2]
      exact ⟨hclosed, rfl⟩
  | opened since =>
    rcases h with ⟨-, hopen | ⟨hhalf, -⟩⟩
    . exact absurd hopen hne
    . rw [onFailure_of_trips (by simp [trips, hhalf])]
      exact ⟨rfl, .inl rfl⟩

theorem Agrees.leave {r : Reference} {times times' : List ℚ} {outcome : Outcome Exc}
    (h : Agrees cfg b r times) (hne : b.state ≠ .opened) (hsub : ∀ t ∈ times', t ∈ times)
    : Agrees cfg (leave cfg outcome now b) (r.result cfg outcome now) times' := by
  cases outcome with
  | returned => exact ⟨rfl, rfl⟩
  | raised exc =>
    unfold CircuitBreaker.leave Reference.result
    dsimp only
    split
    . exact h.sublist hsub
    . exact h.fail hne
  | cancelled => exact h.sublist hsub

def timesOf (ops : List (Op Exc)) : List ℚ := ops.flatMap Op.times

theorem timesOf_stateRead (ops : List (Op Exc)) : timesOf (.stateRead now :: ops) = now :: timesOf ops := by
  simp [timesOf, Op.times]

theorem timesOf_call (reads : List ℚ) (outcome : Outcome Exc) (finishedAt : ℚ) (ops : List (Op Exc))
    : timesOf (.call now again reads outcome finishedAt :: ops) =
        now :: (again :: (reads ++ [finishedAt]) ++ timesOf ops) := by
  simp [timesOf, Op.times]

structure Follows (cfg : Config Exc) (b : Breaker) (r : Reference) (ops : List (Op Exc)) : Prop where
  agrees : Agrees cfg b r (timesOf ops)
  sorted : (timesOf ops).Pairwise (· ≤ ·)

theorem Follows.step {r : Reference} {op : Op Exc} {ops : List (Op Exc)}
    (h : Follows cfg b r (op :: ops))
    : (serve cfg b op).2 = (r.serve cfg op).2 ∧
        Agrees cfg (serve cfg b op).1 (r.serve cfg op).1 (timesOf ops) := by
  have hagrees := h.agrees
  have hsorted := h.sorted
  cases op with
  | stateRead now =>
    rw [timesOf_stateRead] at hagrees hsorted
    have hlook := hagrees.getState fun t ht => List.rel_of_pairwise_cons hsorted ht
    have hlook := hlook.sublist (fun t ht => List.mem_cons_of_mem now ht)
    cases r with
    | closed failures => exact ⟨congrArg Answer.state hlook.1, hlook⟩
    | opened since => exact ⟨congrArg Answer.state hagrees.getState_opened, hlook⟩
  | call now again reads outcome finishedAt =>
    rw [timesOf_call] at hagrees hsorted
    have hlook := hagrees.getState fun t ht => List.rel_of_pairwise_cons hsorted ht
    have hsub : ∀ t ∈ timesOf ops, t ∈ now :: (again :: (reads ++ [finishedAt]) ++ timesOf ops) := by
      intro t ht
      exact List.mem_cons_of_mem _ (List.mem_append_right _ ht)
    cases r with
    | closed failures =>
      have hne : (getState cfg now b).state ≠ .opened := by simp [hlook.1]
      rw [serve_of_ne hne]
      exact ⟨rfl, hlook.leave hne hsub⟩
    | opened since =>
      have hstate := hagrees.getState_opened
      have hsince := hagrees.1
      unfold Reference.serve
      dsimp only
      split
      . next hlt =>
        rw [if_pos hlt] at hstate
        rw [serve_of_opened hstate, hsince]
        exact ⟨rfl, hlook.sublist hsub⟩
      . next hlt =>
        rw [if_neg hlt] at hstate
        have hne : (getState cfg now b).state ≠ .opened := by simp [hstate]
        rw [serve_of_ne hne]
        exact ⟨rfl, hlook.leave hne hsub⟩

theorem Follows.next {r : Reference} {op : Op Exc} {ops : List (Op Exc)}
    (h : Follows cfg b r (op :: ops)) : Follows cfg (serve cfg b op).1 (r.serve cfg op).1 ops := by
  refine ⟨h.step.2, ?_⟩
  have hsorted := h.sorted
  unfold timesOf at hsorted
  rw [List.flatMap_cons] at hsorted
  exact (List.pairwise_append.mp hsorted).2.1

/--
Calls that do not overlap, with looks at the state anywhere, are answered as the automaton answers them.
-/
theorem answers_eq_reference {ops : List (Op Exc)} (htime : (timesOf ops).Pairwise (· ≤ ·))
    : Mealy.answers (serve cfg) {} ops = Mealy.answers (Reference.serve cfg) (.closed 0) ops := by
  apply Mealy.answers_eq_of_simulation (R := Follows cfg)
  . intro b r op ops h
    exact h.step.1
  . intro b r op ops h
    exact h.next
  . exact ⟨⟨rfl, rfl⟩, htime⟩

variable {c : Calls}

theorem exec_stateReads (reads : List ℚ) (es : List (Event Exc)) (hne : c.breaker.state ≠ .opened)
    : ∃ c', c'.breaker = c.breaker ∧ c'.inFlight = c.inFlight ∧
        Run.exec (CircuitBreaker.step cfg) c (reads.map Event.stateRead ++ es) =
          Run.exec (CircuitBreaker.step cfg) c' es := by
  induction reads generalizing c with
  | nil => exact ⟨c, rfl, rfl, rfl⟩
  | cons now reads ih =>
    have hlook : (c.look cfg now).breaker = c.breaker := getState_of_ne hne
    rcases ih (c := c.look cfg now) (hlook ▸ hne) with ⟨c', hbreaker, hflight, hexec⟩
    exact ⟨c', hbreaker.trans hlook, hflight, hexec⟩

/--
The steps of one operation: a call that is rejected ends at once.
-/
def Op.events (cfg : Config Exc) (b : Breaker) (op : Op Exc) : List (Event Exc) :=
  match op with
  | .call now again reads outcome finishedAt =>
    if (getState cfg now b).state = .opened then
      [.invoked now again]
    else
      .invoked now again :: (reads.map .stateRead ++ [.finished 0 outcome finishedAt])
  | .stateRead now => [.stateRead now]

theorem exec_serve (op : Op Exc) (hfree : c.inFlight = [])
    : ∃ c', Run.exec (CircuitBreaker.step cfg) c (op.events cfg c.breaker) = some c' ∧
        c'.inFlight = [] ∧ c'.breaker = (serve cfg c.breaker op).1 := by
  cases op with
  | stateRead now => exact ⟨c.look cfg now, rfl, hfree, rfl⟩
  | call now again reads outcome finishedAt =>
    unfold Op.events
    dsimp only
    split
    . next hopen =>
      refine ⟨{ c.look cfg now with now := again }, ?_, hfree, ?_⟩
      . simp only [Run.exec, CircuitBreaker.step, enter_of_opened hopen]
      . rw [serve_of_opened hopen]
        rfl
    . next hopen =>
      have hadmit : CircuitBreaker.step cfg c (.invoked now again : Event Exc) =
          some ((c.look cfg now).letThrough now) := by
        simp only [CircuitBreaker.step, enter_of_ne hopen]
      have hstate : ((c.look cfg now).letThrough now).breaker.state ≠ .opened := hopen
      rcases exec_stateReads reads [.finished 0 outcome finishedAt] hstate with
        ⟨c', hbreaker, hflight, hexec⟩
      have hone : c'.inFlight.length = 1 := by
        rw [hflight]
        unfold Calls.letThrough Calls.look
        simp [hfree]
      rcases List.length_eq_one_iff.mp hone with ⟨period, hflight'⟩
      rw [Run.exec_cons, hadmit, Option.bind_some, hexec]
      refine ⟨{ c' with
          breaker := CircuitBreaker.leave cfg outcome finishedAt c'.breaker
          inFlight := []
          now := finishedAt
          log := openedBy cfg outcome finishedAt c'.breaker ++ c'.log }, ?_, rfl, ?_⟩
      . simp [Run.exec, CircuitBreaker.step, hflight']
      . rw [serve_of_ne hopen]
        dsimp only
        rw [hbreaker]
        rfl

end

def pair : Config String where
  name := "pair"
  failMax := 2
  exclude exc := exc == "KeyError"

def halfOpenCancelled : List (Op String) := [
  .call 0 0 [] (.raised "TimeoutError") 1,
  .call 2 2 [] (.raised "KeyError") 3,
  .call 4 4 [] (.raised "TimeoutError") 5,
  .call 64 64 [] .returned 64,
  .stateRead 65,
  .call 66 66 [67] .cancelled 68,
  .call 69 69 [] .returned 70]

theorem answers_eq_reference_halfOpenCancelled
    : Mealy.answers (serve pair) {} halfOpenCancelled =
        Mealy.answers (Reference.serve pair) (.closed 0) halfOpenCancelled :=
  answers_eq_reference (by decide +kernel)

example
    : Mealy.answers (serve pair) {} halfOpenCancelled = [
        .admitted, .admitted, .admitted, .rejected { name := "pair", retryAfter := 1 },
        .state .halfOpen, .admitted, .admitted] := by
  decide +kernel

end CircuitBreaker
