import Mathlib.Algebra.Order.Field.Rat
import VoltykBot.Lib.Potential

/-!
This module contains the token bucket in front of the Telegram API, and the callers that wait for its tokens.
-/

namespace RateLimiter

structure Limiter where
  rate : ℚ
  burst : ℚ
  tokens : ℚ
  lastRefill : ℚ := 0
  deriving DecidableEq, Repr

def Limiter.new (rate : ℚ) (burst : Option ℚ := none) : Limiter where
  rate := rate
  burst := burst.getD rate
  tokens := burst.getD rate

namespace Limiter

/--
What `acquire` does before it looks for a token. A stamp of 0 is one that has not been set.
-/
def refill (now : ℚ) (l : Limiter) : Limiter :=
  let lastRefill := if l.lastRefill = 0 then now else l.lastRefill
  { l with tokens := min l.burst (l.tokens + (now - lastRefill) * l.rate), lastRefill := now }

def take (l : Limiter) : Limiter := { l with tokens := l.tokens - 1 }

def wait (l : Limiter) : ℚ := (1 - l.tokens) / l.rate

def takeLater (now : ℚ) (l : Limiter) : Limiter := { l with tokens := 0, lastRefill := now }

end Limiter

/--
The callers of `acquire`. `holder` sleeps with the lock in its hands until the given time at least, and
`queue` waits for the lock. `now` is the clock, and `completed` has the times at which `acquire` returned,
the newest first; the code has neither.
-/
structure Callers where
  limiter : Limiter
  queue : List Nat := []
  holder : Option (Nat × ℚ) := none
  now : ℚ := 0
  completed : List ℚ := []
  deriving DecidableEq, Repr

inductive Event where
  | called (caller : Nat)
  | entered (now : ℚ)
  | woke (now : ℚ)
  | cancelled (caller : Nat)
  deriving DecidableEq, Repr

def enter (now : ℚ) (caller : Nat) (queue : List Nat) (c : Callers) : Callers :=
  let limiter := c.limiter.refill now
  if limiter.tokens < 1 then
    { c with limiter := limiter, queue := queue, holder := some (caller, now + limiter.wait), now := now }
  else
    { c with limiter := limiter.take, queue := queue, now := now, completed := now :: c.completed }

def step (c : Callers) (e : Event) : Option Callers :=
  match e with
  | .called caller => some { c with queue := c.queue ++ [caller] }
  | .entered now =>
    match c.holder, c.queue with
    | none, caller :: queue => some (enter now caller queue c)
    | _, _ => none
  | .woke now =>
    match c.holder with
    | some (_, wakes) =>
      if wakes ≤ now then
        some { c with
          limiter := c.limiter.takeLater now
          holder := none
          now := now
          completed := now :: c.completed }
      else
        none
    | none => none
  | .cancelled caller =>
    -- a caller that sleeps leaves the bucket as it found it when it went to sleep
    some { c with
      queue := c.queue.erase caller
      holder := c.holder.filter fun held => held.1 ≠ caller }

def OnTime (c : Callers) (e : Event) : Prop :=
  match e with
  | .entered now | .woke now => 0 < now ∧ c.now ≤ now
  | .called _ | .cancelled _ => True

instance (c : Callers) (e : Event) : Decidable (OnTime c e) :=
  match e with
  | .entered _ | .woke _ => inferInstanceAs (Decidable (_ ∧ _))
  | .called _ | .cancelled _ => isTrue trivial

def available (c : Callers) (t : ℚ) : ℚ := (c.limiter.refill t).tokens

structure Inv (rate : ℚ) (c : Callers) : Prop where
  rate_eq : c.limiter.rate = rate
  burst_eq : c.limiter.burst = rate
  nonneg : 0 ≤ c.limiter.tokens
  stamped : c.limiter.lastRefill ≤ c.now
  pays : ∀ held ∈ c.holder, c.limiter.lastRefill ≠ 0 ∧
    1 ≤ c.limiter.tokens + (held.2 - c.limiter.lastRefill) * rate

section

variable {rate : ℚ} {c c' : Callers} {t t' : ℚ}

theorem Inv.available_eq (h : Inv rate c) (t : ℚ)
    : available c t =
        min rate (c.limiter.tokens +
          (t - if c.limiter.lastRefill = 0 then t else c.limiter.lastRefill) * rate) := by
  unfold available Limiter.refill
  dsimp only
  rw [h.rate_eq, h.burst_eq]

theorem Inv.elapsed_nonneg (h : Inv rate c) (hle : c.now ≤ t)
    : 0 ≤ t - if c.limiter.lastRefill = 0 then t else c.limiter.lastRefill := by
  have hstamped := h.stamped
  split
  . linarith
  . linarith

theorem Inv.available_nonneg (h : Inv rate c) (hrate : 0 ≤ rate) (hle : c.now ≤ t)
    : 0 ≤ available c t := by
  rw [h.available_eq]
  apply le_min hrate
  exact add_nonneg h.nonneg (mul_nonneg (h.elapsed_nonneg hle) hrate)

theorem Inv.available_le (h : Inv rate c) (t : ℚ) : available c t ≤ rate := by
  rw [h.available_eq]
  exact min_le_left _ _

theorem Inv.available_grows (h : Inv rate c) (hrate : 0 ≤ rate) (hle : t ≤ t')
    : available c t' ≤ available c t + rate * (t' - t) := by
  have hgrow : 0 ≤ rate * (t' - t) := mul_nonneg hrate (sub_nonneg.mpr hle)
  rw [h.available_eq, h.available_eq, ← min_add_add_right]
  apply le_min
  . exact le_trans (min_le_left _ _) (by linarith)
  . apply le_trans (min_le_right _ _)
    split
    . linarith
    . apply le_of_eq
      ring

theorem Inv.one_le_available {held : Nat × ℚ} (h : Inv rate c) (hrate : 1 ≤ rate) (hheld : held ∈ c.holder)
    (hwakes : held.2 ≤ t) : 1 ≤ available c t := by
  rcases h.pays held hheld with ⟨hstamp, hpays⟩
  rw [h.available_eq, if_neg hstamp]
  apply le_min hrate
  apply le_trans hpays
  gcongr

theorem available_le_of_stamp (hstamp : c.limiter.lastRefill = t) : available c t ≤ c.limiter.tokens := by
  unfold available Limiter.refill
  dsimp only
  apply le_trans (min_le_right _ _)
  rw [hstamp]
  split
  . simp
  . simp

theorem Inv.called (h : Inv rate c) (queue : List Nat) : Inv rate { c with queue := queue } :=
  ⟨h.rate_eq, h.burst_eq, h.nonneg, h.stamped, h.pays⟩

theorem Inv.cancelled (h : Inv rate c) (queue : List Nat) (p : Nat × ℚ → Bool)
    : Inv rate { c with queue := queue, holder := c.holder.filter p } := by
  refine ⟨h.rate_eq, h.burst_eq, h.nonneg, h.stamped, ?_⟩
  intro held hheld
  exact h.pays held (Option.mem_filter_iff.mp hheld).1

theorem Inv.woke (h : Inv rate c) (completed : List ℚ)
    : Inv rate { c with
        limiter := c.limiter.takeLater t
        holder := none
        now := t
        completed := completed } :=
  ⟨h.rate_eq, h.burst_eq, le_rfl, le_rfl, nofun⟩

theorem Inv.enter {caller : Nat} {queue : List Nat} (h : Inv rate c) (hrate : 1 ≤ rate) (hpos : 0 < t)
    (hle : c.now ≤ t) (hfree : c.holder = none) : Inv rate (enter t caller queue c) := by
  have hnonneg : 0 ≤ (c.limiter.refill t).tokens :=
    h.available_nonneg (le_trans zero_le_one hrate) hle
  unfold RateLimiter.enter
  dsimp only
  split
  . next hempty =>
    refine ⟨h.rate_eq, h.burst_eq, hnonneg, le_rfl, ?_⟩
    intro held hheld
    cases hheld
    refine ⟨hpos.ne', ?_⟩
    -- the sleep lasts until one token is there
    have hwait : (c.limiter.refill t).wait * rate = 1 - (c.limiter.refill t).tokens := by
      unfold Limiter.wait
      rw [show (c.limiter.refill t).rate = rate from h.rate_eq]
      exact div_mul_cancel₀ _ (by linarith)
    have hslept : t + (c.limiter.refill t).wait - (c.limiter.refill t).lastRefill =
        (c.limiter.refill t).wait := add_sub_cancel_left t _
    rw [hslept, hwait]
    linarith
  . next henough =>
    refine ⟨h.rate_eq, h.burst_eq, ?_, le_rfl, ?_⟩
    . show 0 ≤ (c.limiter.refill t).tokens - 1
      linarith
    . rw [hfree]
      nofun

theorem inv_step {e : Event} (hrate : 1 ≤ rate) (h : Inv rate c) (htime : OnTime c e)
    (hstep : step c e = some c') : Inv rate c' := by
  cases e with
  | called caller =>
    cases hstep
    exact h.called _
  | entered now =>
    unfold step at hstep
    dsimp only at hstep
    split at hstep
    . next hfree hqueue =>
      cases hstep
      exact h.enter hrate htime.1 htime.2 hfree
    . cases hstep
  | woke now =>
    unfold step at hstep
    dsimp only at hstep
    split at hstep
    . split at hstep
      . cases hstep
        exact h.woke _
      . cases hstep
    . cases hstep
  | cancelled caller =>
    cases hstep
    exact h.cancelled _ _

theorem pays_enter {caller : Nat} {queue : List Nat}
    : ((enter t caller queue c).completed = c.completed ∧
          available (enter t caller queue c) t ≤ available c t) ∨
        ((enter t caller queue c).completed = t :: c.completed ∧
          available (enter t caller queue c) t + 1 ≤ available c t) := by
  unfold enter
  dsimp only
  split
  . left
    refine ⟨rfl, ?_⟩
    exact available_le_of_stamp rfl
  . right
    refine ⟨rfl, ?_⟩
    rw [← le_sub_iff_add_le]
    exact available_le_of_stamp rfl

theorem pays_step {e : Event} (hrate : 1 ≤ rate) (h : Inv rate c) (hstep : step c e = some c')
    : (c'.completed = c.completed ∧ available c' c'.now ≤ available c c'.now) ∨
        (c'.completed = c'.now :: c.completed ∧ available c' c'.now + 1 ≤ available c c'.now) := by
  cases e with
  | called caller =>
    cases hstep
    exact .inl ⟨rfl, le_rfl⟩
  | entered now =>
    unfold step at hstep
    dsimp only at hstep
    split at hstep
    . next caller queue hfree hqueue =>
      cases hstep
      have hnow : (enter now caller queue c).now = now := by
        unfold enter
        dsimp only
        split <;> rfl
      rw [hnow]
      exact pays_enter
    . cases hstep
  | woke now =>
    unfold step at hstep
    dsimp only at hstep
    split at hstep
    . next caller wakes hholder =>
      split at hstep
      . next hwakes =>
        cases hstep
        right
        refine ⟨rfl, ?_⟩
        have hone := h.one_le_available hrate hholder hwakes
        rw [← le_sub_iff_add_le]
        apply le_trans (available_le_of_stamp rfl)
        exact sub_nonneg.mpr hone
      . cases hstep
    . cases hstep
  | cancelled caller =>
    cases hstep
    exact .inl ⟨rfl, le_rfl⟩

theorem now_le_step {e : Event} (htime : OnTime c e) (hstep : step c e = some c') : c.now ≤ c'.now := by
  cases e with
  | called caller =>
    cases hstep
    exact le_rfl
  | entered now =>
    unfold step at hstep
    dsimp only at hstep
    split at hstep
    . cases hstep
      unfold enter
      dsimp only
      split
      . exact htime.2
      . exact htime.2
    . cases hstep
  | woke now =>
    unfold step at hstep
    dsimp only at hstep
    split at hstep
    . split at hstep
      . cases hstep
        exact htime.2
      . cases hstep
    . cases hstep
  | cancelled caller =>
    cases hstep
    exact le_rfl

theorem account (hrate : 1 ≤ rate)
    : Potential.Account step OnTime (Inv rate) Callers.now Callers.completed available rate rate where
  keeps := inv_step hrate
  clock_le _ := now_le_step
  nonneg h hle := h.available_nonneg (le_trans zero_le_one hrate) hle
  le_cap h _ := h.available_le _
  grows h _ hle := h.available_grows (le_trans zero_le_one hrate) hle
  pays h _ hstep := pays_step hrate h hstep

theorem Inv.init (hrate : 0 ≤ rate) : Inv rate { limiter := .new rate } :=
  ⟨rfl, rfl, hrate, le_rfl, nofun⟩

/--
In any time interval of length `length` at most `rate + rate * length` calls of `acquire` complete.
-/
theorem completed_le {es : List Event} {start length : ℚ} (hrate : 1 ≤ rate) (hlength : 0 ≤ length)
    (htime : Run.StepsMeet step OnTime { limiter := .new rate } es)
    (hrun : Run.exec step { limiter := .new rate } es = some c)
    : (c.completed.countP fun t => decide (start ≤ t ∧ t ≤ start + length) : ℚ) ≤
        rate + rate * length := by
  have hwithin := Potential.within_le (account hrate) (le_trans zero_le_one hrate)
    (le_add_of_nonneg_right hlength) (Inv.init (le_trans zero_le_one hrate)) rfl htime hrun
      (a := start) (b := start + length)
  rwa [add_sub_cancel_left] at hwithin

end

/--
The second caller sleeps, the third one gives up while it sleeps, and the last one finds a full bucket.
-/
def twoTokens : List Event := [
  .called 0, .entered 10, .called 1, .called 2, .entered 10, .woke 12, .entered 12, .cancelled 2,
  .called 3, .entered 20]

theorem completed_le_twoTokens
    : ∃ c, Run.exec step { limiter := .new 1 } twoTokens = some c ∧
        (c.completed.countP fun t => decide (10 ≤ t ∧ t ≤ 10 + 2) : ℚ) ≤ 1 + 1 * 2 := by
  have hrun : (Run.exec step { limiter := .new 1 } twoTokens).isSome := by decide +kernel
  have htime : Run.StepsMeet step OnTime { limiter := .new 1 } twoTokens := by decide +kernel
  refine ⟨_, (Option.some_get hrun).symm, ?_⟩
  exact completed_le (by decide +kernel) (by decide +kernel) htime (Option.some_get hrun).symm

example
    : (Run.exec step { limiter := .new 1 } twoTokens).map Callers.completed = some [20, 12, 10] := by
  decide +kernel

end RateLimiter
