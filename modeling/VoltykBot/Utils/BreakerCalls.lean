import VoltykBot.Utils.CircuitBreaker

/-!
This module contains the calls of one circuit breaker that are in flight at the same time. No `await`
stands between the lines that its lock protects, so a call takes two steps: one before its function and one
after it.
-/

namespace CircuitBreaker

inductive Entry where
  | opened (time : ℚ)
  | executed (invokedAt : ℚ)
  deriving DecidableEq, Repr

/--
`inFlight` has an entry for each call whose function is executing: the HALF_OPEN period that admitted it, if
one did. `period` counts those periods, `now` is the clock, and `log` has the newest entry first; the code
has none of the three.
-/
structure Calls where
  breaker : Breaker := {}
  inFlight : List (Option Nat) := []
  period : Nat := 0
  now : ℚ := 0
  log : List Entry := []
  deriving DecidableEq, Repr

inductive Event (Exc : Type) where
  | invoked (now again : ℚ)
  | finished (i : Nat) (outcome : Outcome Exc) (now : ℚ)
  | stateRead (now : ℚ)
  deriving DecidableEq, Repr

section

variable {Exc : Type} (cfg : Config Exc)

def Calls.look (now : ℚ) (c : Calls) : Calls :=
  let breaker := getState cfg now c.breaker
  { c with
    breaker := breaker
    period := if breaker.state = c.breaker.state then c.period else c.period + 1
    now := now }

def Calls.letThrough (now : ℚ) (c : Calls) : Calls :=
  { c with
    inFlight := (if c.breaker.state = .halfOpen then some c.period else none) :: c.inFlight
    log := .executed now :: c.log }

def openedBy (outcome : Outcome Exc) (now : ℚ) (b : Breaker) : List Entry :=
  match outcome with
  | .raised exc => if ¬ cfg.exclude exc ∧ trips cfg b then [.opened now] else []
  | .returned | .cancelled => []

def step (c : Calls) (e : Event Exc) : Option Calls :=
  match e with
  | .invoked now again =>
    match (enter cfg now again c.breaker).1 with
    | .error _ => some { c.look cfg now with now := again }
    | .ok _ => some ((c.look cfg now).letThrough now)
  | .finished i outcome now =>
    if i < c.inFlight.length then
      some { c with
        breaker := leave cfg outcome now c.breaker
        inFlight := c.inFlight.eraseIdx i
        now := now
        log := openedBy cfg outcome now c.breaker ++ c.log }
    else
      none
  | .stateRead now => some (c.look cfg now)

variable {cfg} {c c' : Calls}

theorem step_invoked {now again : ℚ} (h : step cfg c (.invoked now again) = some c')
    : ((c.look cfg now).breaker.state = .opened ∧ c' = { c.look cfg now with now := again }) ∨
        ((c.look cfg now).breaker.state ≠ .opened ∧ c' = (c.look cfg now).letThrough now) := by
  unfold step at h
  dsimp only at h
  by_cases hopen : (getState cfg now c.breaker).state = .opened
  . rw [enter_of_opened hopen] at h
    exact .inl ⟨hopen, (Option.some.inj h).symm⟩
  . rw [enter_of_ne hopen] at h
    exact .inr ⟨hopen, (Option.some.inj h).symm⟩

theorem step_finished {i : Nat} {outcome : Outcome Exc} {now : ℚ}
    (h : step cfg c (.finished i outcome now) = some c')
    : c' = { c with
        breaker := leave cfg outcome now c.breaker
        inFlight := c.inFlight.eraseIdx i
        now := now
        log := openedBy cfg outcome now c.breaker ++ c.log } := by
  unfold step at h
  dsimp only at h
  split at h
  . exact (Option.some.inj h).symm
  . cases h

theorem step_stateRead {now : ℚ} (h : step cfg c (.stateRead now) = some c') : c' = c.look cfg now :=
  (Option.some.inj h).symm

/--
At most one of the calls that this HALF_OPEN period admitted is executing its function.
-/
def OneProbe (c : Calls) : Prop :=
  c.breaker.state = .halfOpen → c.inFlight.count (some c.period) ≤ 1

/--
No call is invoked while another one that this HALF_OPEN period admitted is executing its function.
-/
def ProbeAlone (c : Calls) (e : Event Exc) : Prop :=
  match e with
  | .invoked _ _ => c.breaker.state = .halfOpen → some c.period ∉ c.inFlight
  | .finished _ _ _ | .stateRead _ => True

structure Probes (c : Calls) : Prop where
  one : OneProbe c
  past : ∀ period, some period ∈ c.inFlight → period ≤ c.period

theorem Probes.look {now : ℚ} (h : Probes c) : Probes (c.look cfg now) := by
  constructor
  . intro hhalf
    unfold Calls.look at hhalf ⊢
    dsimp only at hhalf ⊢
    split
    . next hsame => exact h.one (hsame ▸ hhalf)
    . -- a period begins, and nothing in flight is of it
      rw [List.count_eq_zero_of_not_mem]
      . exact Nat.zero_le 1
      . intro hmem
        have hle := h.past _ hmem
        omega
  . intro period hmem
    have hle := h.past period hmem
    unfold Calls.look
    dsimp only
    split <;> omega

theorem notMem_look {now : ℚ} (h : Probes c) (hnew : c.breaker.state = .halfOpen → some c.period ∉ c.inFlight)
    (hhalf : (c.look cfg now).breaker.state = .halfOpen)
    : some (c.look cfg now).period ∉ (c.look cfg now).inFlight := by
  unfold Calls.look at hhalf ⊢
  dsimp only at hhalf ⊢
  split
  . next hsame => exact hnew (hsame ▸ hhalf)
  . intro hmem
    have hle := h.past _ hmem
    omega

theorem Probes.letThrough {now : ℚ} (h : Probes c)
    (hnew : c.breaker.state = .halfOpen → some c.period ∉ c.inFlight) : Probes (c.letThrough now) := by
  constructor
  . intro hhalf
    unfold Calls.letThrough at hhalf ⊢
    dsimp only at hhalf ⊢
    rw [if_pos hhalf, List.count_cons_self, List.count_eq_zero_of_not_mem (hnew hhalf)]
  . intro period hmem
    unfold Calls.letThrough at hmem ⊢
    dsimp only at hmem ⊢
    rw [List.mem_cons] at hmem
    rcases hmem with heq | hmem
    . split at heq
      . exact Nat.le_of_eq (Option.some.inj heq)
      . cases heq
    . exact h.past period hmem

theorem leave_state_halfOpen {outcome : Outcome Exc} {now : ℚ} {b : Breaker}
    (h : (leave cfg outcome now b).state = .halfOpen) : b.state = .halfOpen := by
  unfold leave at h
  split at h
  . cases h
  . split at h
    . exact h
    . by_cases htrips : trips cfg b
      . rw [onFailure_of_trips htrips] at h
        cases h
      . rw [(onFailure_of_not_trips htrips).2] at h
        exact h
  . exact h

theorem probes_step {e : Event Exc} (h : Probes c) (halone : ProbeAlone c e)
    (hstep : step cfg c e = some c') : Probes c' := by
  cases e with
  | invoked now again =>
    rcases step_invoked hstep with ⟨-, rfl⟩ | ⟨-, rfl⟩
    . exact ⟨h.look.one, h.look.past⟩
    . exact h.look.letThrough (notMem_look h halone)
  | finished i outcome now =>
    rw [step_finished hstep]
    constructor
    . intro hhalf
      exact Nat.le_trans ((List.eraseIdx_sublist _ _).count_le _) (h.one (leave_state_halfOpen hhalf))
    . intro period hmem
      exact h.past period ((List.eraseIdx_sublist _ _).mem hmem)
  | stateRead now =>
    rw [step_stateRead hstep]
    exact h.look

theorem not_oneProbe_step {e : Event Exc} (halone : ¬ ProbeAlone c e) (hstep : step cfg c e = some c')
    : ¬ OneProbe c' := by
  cases e with
  | finished i outcome now => exact absurd trivial halone
  | stateRead now => exact absurd trivial halone
  | invoked now again =>
    unfold ProbeAlone at halone
    simp only [Classical.not_imp, not_not] at halone
    rcases halone with ⟨hhalf, hmem⟩
    have hsame : getState cfg now c.breaker = c.breaker := getState_of_ne (by simp [hhalf])
    have hlook : c.look cfg now = { c with now := now } := by
      unfold Calls.look
      simp [hsame]
    rcases step_invoked hstep with ⟨hopen, -⟩ | ⟨-, rfl⟩
    . rw [hlook] at hopen
      simp [hhalf] at hopen
    . rw [hlook]
      intro hone
      have hcount := hone hhalf
      unfold Calls.letThrough at hcount
      simp only [hhalf, if_true, List.count_cons_self] at hcount
      have hpos := List.count_pos_iff.mpr hmem
      omega

/--
A HALF_OPEN breaker never has two probes in flight if and only if no call is invoked while a probe is.
-/
theorem oneProbe_iff_probeAlone {start : ℚ} {es : List (Event Exc)}
    (hrun : Run.exec (step cfg) { now := start } es = some c)
    : Run.Always (step cfg) OneProbe { now := start } es
        ↔
      Run.StepsMeet (step cfg) ProbeAlone { now := start } es := by
  apply Run.always_iff_stepsMeet (I := Probes)
  . intro c c' e h halone hstep
    exact probes_step h halone hstep
  . intro c h
    exact h.one
  . intro c c' e _ halone hstep
    exact not_oneProbe_step halone hstep
  . exact ⟨nofun, nofun⟩
  . exact hrun

end

instance (c : Calls) : Decidable (OneProbe c) :=
  inferInstanceAs (Decidable (_ → _))

instance (c : Calls) (e : Event Exc) : Decidable (ProbeAlone c e) :=
  match e with
  | .invoked _ _ => inferInstanceAs (Decidable (_ → _))
  | .finished _ _ _ | .stateRead _ => isTrue trivial

def fragile : Config Unit := { name := "fragile", failMax := 1 }

def probeFails : List (Event Unit) := [
  .invoked 0 0,
  .finished 0 (.raised ()) 1,
  .invoked 61 61,
  .finished 0 (.raised ()) 62,
  .stateRead 122,
  .invoked 123 123]

theorem oneProbe_iff_probeAlone_probeFails
    : Run.Always (step fragile) OneProbe { now := 0 } probeFails := by
  have hrun : (Run.exec (step fragile) { now := 0 } probeFails).isSome := by decide +kernel
  have halone : Run.StepsMeet (step fragile) ProbeAlone { now := 0 } probeFails := by decide +kernel
  exact (oneProbe_iff_probeAlone (Option.some_get hrun).symm).mpr halone

def twoProbes : List (Event Unit) := [
  .invoked 0 0,
  .finished 0 (.raised ()) 1,
  .invoked 61 61,
  .invoked 61 61]

theorem not_oneProbe_twoProbes
    : (Run.exec (step fragile) { now := 0 } twoProbes).isSome ∧
        ¬ Run.Always (step fragile) OneProbe { now := 0 } twoProbes := by
  have hrun : (Run.exec (step fragile) { now := 0 } twoProbes).isSome := by decide +kernel
  have htwo : ∀ c ∈ Run.exec (step fragile) { now := 0 } twoProbes, ¬ OneProbe c := by decide +kernel
  refine ⟨hrun, ?_⟩
  intro halways
  rcases Option.isSome_iff_exists.mp hrun with ⟨c, hc⟩
  exact htwo c hc (halways.last hc)

section

variable {Exc : Type} {cfg : Config Exc} {c c' : Calls}

/--
No call that was invoked less than the reset timeout after the breaker opened has its function executed.
-/
def HoldsOpen (cfg : Config Exc) (c : Calls) : Prop :=
  c.log.Pairwise fun later earlier => ∀ t t', earlier = .opened t → later = .executed t' →
    ¬ (t ≤ t' ∧ t' < t + cfg.resetTimeout)

def OnTime (c : Calls) (e : Event Exc) : Prop :=
  match e with
  | .invoked now again => c.now ≤ now ∧ now ≤ again
  | .finished _ _ now | .stateRead now => c.now ≤ now

/--
No call returns while the breaker is OPEN and its reset timeout has not passed.
-/
def NoEarlySuccess (cfg : Config Exc) (c : Calls) (e : Event Exc) : Prop :=
  match e with
  | .finished _ .returned now =>
    c.breaker.state = .opened → cfg.resetTimeout ≤ now - c.breaker.openedAt
  | .finished _ (.raised _) _ | .finished _ .cancelled _ | .invoked _ _ | .stateRead _ => True

structure Shut (cfg : Config Exc) (c : Calls) : Prop where
  holds : HoldsOpen cfg c
  stamped : ∀ t, .opened t ∈ c.log → t ≤ c.breaker.openedAt ∧ t ≤ c.now
  passed : c.breaker.state ≠ .opened → ∀ t, .opened t ∈ c.log → t + cfg.resetTimeout ≤ c.now

theorem Shut.later {now : ℚ} (h : Shut cfg c) (hle : c.now ≤ now) : Shut cfg { c with now := now } where
  holds := h.holds
  stamped t ht := ⟨(h.stamped t ht).1, le_trans (h.stamped t ht).2 hle⟩
  passed hstate t ht := le_trans (h.passed hstate t ht) hle

theorem Shut.look {now : ℚ} (h : Shut cfg c) (hle : c.now ≤ now) : Shut cfg (c.look cfg now) := by
  constructor
  . exact h.holds
  . intro t ht
    have hstamped := (h.later hle).stamped t ht
    unfold Calls.look
    simpa using hstamped
  . intro hstate t ht
    have hstate : ¬ (c.breaker.state = .opened ∧ now - c.breaker.openedAt < cfg.resetTimeout) :=
      fun hopen => hstate (getState_state.mpr hopen)
    show t + cfg.resetTimeout ≤ now
    by_cases hopen : c.breaker.state = .opened
    . have hpassed := not_lt.mp fun hlt => hstate ⟨hopen, hlt⟩
      have hstamped := (h.stamped t ht).1
      linarith
    . exact (h.later hle).passed hopen t ht

theorem Shut.letThrough {now : ℚ} (h : Shut cfg c) (hnow : c.now = now) (hstate : c.breaker.state ≠ .opened)
    : Shut cfg (c.letThrough now) := by
  have hopened : ∀ t, .opened t ∈ (c.letThrough now).log → .opened t ∈ c.log := by
    intro t ht
    unfold Calls.letThrough at ht
    simpa using ht
  constructor
  . unfold HoldsOpen Calls.letThrough
    rw [List.pairwise_cons]
    refine ⟨?_, h.holds⟩
    rintro entry hentry t t' rfl heq ⟨-, hlt⟩
    have hpassed := h.passed hstate t hentry
    cases heq
    linarith
  . intro t ht
    exact h.stamped t (hopened t ht)
  . intro _ t ht
    exact h.passed hstate t (hopened t ht)

theorem Shut.trip {now : ℚ} {breaker : Breaker} (h : Shut cfg c) (hle : c.now ≤ now)
    (hstate : breaker.state = .opened) (hstamp : breaker.openedAt = now)
    : Shut cfg { c with breaker := breaker, now := now, log := .opened now :: c.log } := by
  constructor
  . unfold HoldsOpen
    rw [List.pairwise_cons]
    exact ⟨nofun, h.holds⟩
  . intro t ht
    dsimp only
    rw [hstamp, and_self]
    simp only [List.mem_cons, Entry.opened.injEq] at ht
    rcases ht with rfl | ht
    . exact le_rfl
    . exact le_trans (h.stamped t ht).2 hle
  . intro hne
    exact absurd hstate hne

theorem Shut.leave {outcome : Outcome Exc} {now : ℚ} {i : Nat} (h : Shut cfg c) (hle : c.now ≤ now)
    (hearly : NoEarlySuccess cfg c (.finished i outcome now))
    : Shut cfg { c with
        breaker := leave cfg outcome now c.breaker
        now := now
        log := openedBy cfg outcome now c.breaker ++ c.log } := by
  cases outcome with
  | cancelled => exact h.later hle
  | returned =>
    refine ⟨h.holds, (h.later hle).stamped, ?_⟩
    intro _ t ht
    dsimp only at ht ⊢
    by_cases hopen : c.breaker.state = .opened
    . have hpassed := hearly hopen
      have hstamped := (h.stamped t ht).1
      linarith
    . exact (h.later hle).passed hopen t ht
  | raised exc =>
    unfold CircuitBreaker.leave openedBy
    dsimp only
    by_cases hexclude : cfg.exclude exc
    . rw [if_pos hexclude, if_neg (by simp [hexclude])]
      exact h.later hle
    . rw [if_neg hexclude]
      by_cases htrips : trips cfg c.breaker
      . rw [if_pos ⟨hexclude, htrips⟩, onFailure_of_trips htrips]
        exact h.trip hle rfl rfl
      . rw [if_neg (fun hopens => htrips hopens.2), (onFailure_of_not_trips htrips).2]
        exact ⟨h.holds, (h.later hle).stamped, (h.later hle).passed⟩

theorem shut_step {e : Event Exc} (h : Shut cfg c) (htime : OnTime c e) (hearly : NoEarlySuccess cfg c e)
    (hstep : step cfg c e = some c') : Shut cfg c' := by
  cases e with
  | invoked now again =>
    rcases step_invoked hstep with ⟨-, rfl⟩ | ⟨hstate, rfl⟩
    . exact (h.look htime.1).later htime.2
    . exact (h.look htime.1).letThrough rfl hstate
  | finished i outcome now =>
    rw [step_finished hstep]
    have hleave := h.leave htime hearly
    exact ⟨hleave.holds, hleave.stamped, hleave.passed⟩
  | stateRead now =>
    rw [step_stateRead hstep]
    exact h.look htime

/--
If no call returns while the breaker is OPEN and its reset timeout has not passed, then OPEN holds for the
whole reset timeout.
-/
theorem holdsOpen_of_noEarlySuccess {start : ℚ} {es : List (Event Exc)}
    (htime : Run.StepsMeet (step cfg) OnTime { now := start } es)
    (hearly : Run.StepsMeet (step cfg) (NoEarlySuccess cfg) { now := start } es)
    : Run.Always (step cfg) (HoldsOpen cfg) { now := start } es := by
  apply Run.always_of_stepsMeet (I := Shut cfg) (C := fun c e => OnTime c e ∧ NoEarlySuccess cfg c e)
  . intro c c' e h hmeets hstep
    exact shut_step h hmeets.1 hmeets.2 hstep
  . intro c h
    exact h.holds
  . exact ⟨List.Pairwise.nil, nofun, nofun⟩
  . exact htime.and hearly

end

instance (c : Calls) (e : Event Unit) : Decidable (OnTime c e) :=
  match e with
  | .invoked _ _ => inferInstanceAs (Decidable (_ ∧ _))
  | .finished _ _ _ | .stateRead _ => inferInstanceAs (Decidable (_ ≤ _))

instance (cfg : Config Unit) (c : Calls) (e : Event Unit) : Decidable (NoEarlySuccess cfg c e) :=
  match e with
  | .finished _ .returned _ => inferInstanceAs (Decidable (_ → _))
  | .finished _ (.raised _) _ | .finished _ .cancelled _ | .invoked _ _ | .stateRead _ => isTrue trivial

theorem holdsOpen_of_noEarlySuccess_probeFails
    : Run.Always (step fragile) (HoldsOpen fragile) { now := 0 } probeFails :=
  holdsOpen_of_noEarlySuccess (by decide +kernel) (by decide +kernel)

/--
Two calls in flight, one of which fails; then the other one returns, and the breaker that has just opened is
closed.
-/
def lateSuccess : List (Event Unit) := [
  .invoked 0 0,
  .invoked 0 0,
  .finished 0 (.raised ()) 10,
  .finished 0 .returned 11,
  .invoked 12 12]

theorem not_holdsOpen_lateSuccess
    : (Run.exec (step fragile) { now := 0 } lateSuccess).isSome ∧
        Run.StepsMeet (step fragile) OnTime { now := 0 } lateSuccess ∧
        ¬ Run.Always (step fragile) (HoldsOpen fragile) { now := 0 } lateSuccess := by
  have hrun : (Run.exec (step fragile) { now := 0 } lateSuccess).isSome := by decide +kernel
  have hlog : ∀ c ∈ Run.exec (step fragile) { now := 0 } lateSuccess,
      c.log = [.executed 12, .opened 10, .executed 0, .executed 0] := by decide +kernel
  refine ⟨hrun, by decide +kernel, ?_⟩
  intro halways
  rcases Option.isSome_iff_exists.mp hrun with ⟨c, hc⟩
  have hlast := halways.last hc
  unfold HoldsOpen at hlast
  rw [hlog c hc, List.pairwise_cons] at hlast
  apply hlast.1 (.opened 10) List.mem_cons_self 10 12 rfl rfl
  decide +kernel

end CircuitBreaker
