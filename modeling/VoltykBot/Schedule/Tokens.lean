import VoltykBot.Reminders.Channels
import VoltykBot.Schedule.Fanout

/-!
This module contains the sends of one blast, call by call, and the tokens of the rate limiter that are
acquired for them.
-/

namespace Scheduler.Tokens

open Reminders (User ScheduleMessage sendScheduleNotification)

def maxRetries : Nat := 3

/--
Where a worker stands with its user. `rest` are the messages that are still to be sent after this one.
-/
inductive Attempt where
  | acquiring
  | reading
  | sending (message : ScheduleMessage) (retriesLeft : Nat) (rest : List ScheduleMessage)
  | sleeping (message : ScheduleMessage) (retriesLeft : Nat) (rest : List ScheduleMessage)
  | persisting
  deriving DecidableEq

/--
`failed` is `TelegramForbiddenError` and any other exception of a send that the code around it handles, and
`raised` is one that ends `_send_schedule_notification`. Neither leaves it.
-/
inductive Outcome where
  | acquired
  | read (freshUser : Option User)
  | sent
  | failed
  | retryAfter (seconds : Nat)
  | slept
  | returned
  | raised
  deriving DecidableEq

def sendNext (messages : List ScheduleMessage) : Attempt :=
  match messages with
  | [] => .persisting
  | message :: rest => .sending message maxRetries rest

def Attempt.next (blast : Blast) (attempt : Attempt) (outcome : Outcome) : WorkerPool.Next Attempt :=
  match attempt, outcome with
  | .acquiring, .acquired => .more .reading
  | .reading, .read freshUser => .more (sendNext (sendScheduleNotification freshUser blast))
  | .reading, .raised => .finished
  | .sending _ _ rest, .sent => .more (sendNext rest)
  | .sending _ _ rest, .failed => .more (sendNext rest)
  | .sending message retriesLeft rest, .retryAfter _ =>
    match retriesLeft with
    | 0 => .more (sendNext rest)
    | retriesLeft + 1 => .more (.sleeping message retriesLeft rest)
  | .sending _ _ _, .raised => .finished
  | .sleeping message retriesLeft rest, .slept => .more (.sending message retriesLeft rest)
  | .persisting, .returned => .finished
  | .persisting, .raised => .finished
  | _, _ => .blocked

def Attempt.rank (attempt : Attempt) : Nat :=
  match attempt with
  | .acquiring => 21
  | .reading => 20
  | .sending _ retriesLeft rest => rest.length * 8 + 2 * retriesLeft + 2
  | .sleeping _ retriesLeft rest => rest.length * 8 + 2 * retriesLeft + 3
  | .persisting => 0

theorem length_sendScheduleNotification_le (freshUser : Option User) (blast : Blast)
    : (sendScheduleNotification freshUser blast).length ≤ 2 := by
  unfold sendScheduleNotification
  split
  . exact Nat.zero_le 2
  . split
    . rw [List.length_append]
      apply Nat.add_le_add (b := 1) (d := 1)
      . split
        . exact Nat.le_refl 1
        . exact Nat.zero_le 1
      . split
        . exact Nat.zero_le 1
        . exact Nat.le_refl 1
    . exact Nat.zero_le 2

theorem rank_sendNext_le (messages : List ScheduleMessage)
    : (sendNext messages).rank ≤ messages.length * 8 := by
  cases messages with
  | nil => exact Nat.le_refl 0
  | cons message rest =>
    simp only [sendNext, Attempt.rank, maxRetries, List.length_cons]
    omega

theorem Attempt.rank_lt_of_next {blast : Blast} {attempt attempt' : Attempt} {outcome : Outcome}
    (h : attempt.next blast outcome = .more attempt') : attempt'.rank < attempt.rank := by
  unfold Attempt.next at h
  split at h
  . cases h
    decide
  . next freshUser =>
    cases h
    have hrank := rank_sendNext_le (sendScheduleNotification freshUser blast)
    have hlength := length_sendScheduleNotification_le freshUser blast
    apply Nat.lt_of_le_of_lt hrank
    simp only [Attempt.rank]
    omega
  . cases h
  . next message retriesLeft rest =>
    cases h
    apply Nat.lt_of_le_of_lt (rank_sendNext_le rest)
    simp only [Attempt.rank]
    omega
  . next message retriesLeft rest =>
    cases h
    apply Nat.lt_of_le_of_lt (rank_sendNext_le rest)
    simp only [Attempt.rank]
    omega
  . next message retriesLeft rest seconds =>
    split at h
    . cases h
      apply Nat.lt_of_le_of_lt (rank_sendNext_le rest)
      simp only [Attempt.rank]
      omega
    . cases h
      simp only [Attempt.rank]
      omega
  . cases h
  . cases h
    simp only [Attempt.rank]
    omega
  . cases h
  . cases h
  . cases h

theorem Attempt.next_ne_blocked (blast : Blast) (attempt : Attempt)
    : ∃ outcome, attempt.next blast outcome ≠ .blocked := by
  cases attempt with
  | acquiring => exact ⟨.acquired, by simp [Attempt.next]⟩
  | reading => exact ⟨.raised, by simp [Attempt.next]⟩
  | sending message retriesLeft rest => exact ⟨.sent, by simp [Attempt.next]⟩
  | sleeping message retriesLeft rest => exact ⟨.slept, by simp [Attempt.next]⟩
  | persisting => exact ⟨.returned, by simp [Attempt.next]⟩

def notifyUser (blast : Blast) : WorkerPool.Job Attempt Outcome :=
  {
    start := .acquiring
    next := Attempt.next blast
    rank := Attempt.rank
    decreasing := Attempt.rank_lt_of_next
    live := Attempt.next_ne_blocked blast
  }

def Attempt.outer (attempt : Attempt) : Fanout.Attempt :=
  match attempt with
  | .acquiring => .acquiring
  | .reading | .sending _ _ _ | .sleeping _ _ _ | .persisting => .sending

theorem outer_sendNext (messages : List ScheduleMessage) : (sendNext messages).outer = .sending := by
  cases messages with
  | nil => rfl
  | cons message rest => rfl

theorem outer_of_more {blast : Blast} {attempt attempt' : Attempt} {outcome : Outcome}
    (h : attempt.next blast outcome = .more attempt')
    : attempt'.outer = attempt.outer ∨ attempt.outer.next .acquired = .more attempt'.outer := by
  unfold Attempt.next at h
  split at h
  . cases h
    exact .inr rfl
  . cases h
    exact .inl (outer_sendNext _)
  . cases h
  . cases h
    exact .inl (outer_sendNext _)
  . cases h
    exact .inl (outer_sendNext _)
  . split at h
    . cases h
      exact .inl (outer_sendNext _)
    . cases h
      exact .inl rfl
  . cases h
  . cases h
    exact .inl rfl
  . cases h
  . cases h
  . cases h

theorem outer_of_finished {blast : Blast} {attempt : Attempt} {outcome : Outcome}
    (h : attempt.next blast outcome = .finished) : attempt.outer.next .returned = .finished := by
  cases attempt with
  | acquiring => cases outcome <;> cases h
  | reading => rfl
  | sending message retriesLeft rest => rfl
  | sleeping message retriesLeft rest => rfl
  | persisting => rfl

theorem notifyUser_refines (blast : Blast)
    : (notifyUser blast).Refines Fanout.notifyUser Attempt.outer where
  start := rfl
  more {s s'} _ h := by
    rcases outer_of_more h with hsame | hnext
    . exact .inl hsame
    . exact .inr ⟨.acquired, hnext⟩
  finished h := ⟨.returned, outer_of_finished h⟩

/--
`_send_notifications_to_users` with the tokens that have been acquired and the calls of `bot.send_photo` and
`bot.send_message` that have been made so far.
-/
structure Sending where
  pool : WorkerPool User Attempt
  tokens : Nat := 0
  sends : Nat := 0
  deriving DecidableEq

def tokensOf (outcome : Outcome) : Nat := if outcome = .acquired then 1 else 0

def callsOf (next : WorkerPool.Next Attempt) : Nat :=
  match next with
  | .more (.sending _ _ _) => 1
  | _ => 0

section

variable (blast : Blast) (capacity : Nat)

def step (s : Sending) (e : WorkerPool.Event Outcome) : Option Sending :=
  match WorkerPool.step (notifyUser blast) capacity s.pool e with
  | none => none
  | some pool =>
    match e with
    | .progress worker outcome =>
      match s.pool.workers[worker]? with
      | some (.working _ attempt) =>
        some {
          pool := pool
          tokens := s.tokens + tokensOf outcome
          sends := s.sends + callsOf (attempt.next blast outcome) }
      | _ => none
    | .put | .take _ | .rested _ | .joined => some { s with pool := pool }

def start (users : List User) (numWorkers : Nat) : Sending :=
  { pool := WorkerPool.start users numWorkers }

def OneCall (e : WorkerPool.Event Outcome) : Prop :=
  match e with
  | .progress _ (.read freshUser) => (sendScheduleNotification freshUser blast).length ≤ 1
  | .progress _ (.retryAfter _) => False
  | _ => True

variable {blast capacity} {s s' : Sending}

theorem step_progress {worker : Nat} {outcome : Outcome}
    (h : step blast capacity s (.progress worker outcome) = some s')
    : ∃ user attempt pool, s.pool.workers[worker]? = some (.working user attempt) ∧
        s.pool.progress (notifyUser blast) worker outcome = some pool ∧
        s' = {
          pool := pool
          tokens := s.tokens + tokensOf outcome
          sends := s.sends + callsOf (attempt.next blast outcome) } := by
  unfold step at h
  split at h
  . cases h
  . next pool hpool =>
    dsimp only at h
    split at h
    . next user attempt hworker => exact ⟨user, attempt, pool, hworker, hpool, (Option.some.inj h).symm⟩
    . cases h

theorem step_pool {e : WorkerPool.Event Outcome} (h : step blast capacity s e = some s')
    : WorkerPool.step (notifyUser blast) capacity s.pool e = some s'.pool := by
  cases e with
  | progress worker outcome =>
    rcases step_progress h with ⟨user, attempt, pool, -, hpool, rfl⟩
    exact hpool
  | put | take | rested | joined =>
    unfold step at h
    split at h
    . cases h
    . next pool hpool =>
      cases h
      exact hpool

theorem exec_pool {es : List (WorkerPool.Event Outcome)} (h : Run.exec (step blast capacity) s es = some s')
    : Run.exec (WorkerPool.step (notifyUser blast) capacity) s.pool es = some s'.pool := by
  induction es generalizing s with
  | nil =>
    cases h
    rfl
  | cons e es ih =>
    rcases Run.exec_cons_eq_some.mp h with ⟨s₁, hstep, hrest⟩
    exact Run.exec_cons_eq_some.mpr ⟨s₁.pool, step_pool hstep, ih hrest⟩

theorem exec_fanout {users : List User} {numWorkers : Nat} {es : List (WorkerPool.Event Outcome)}
    (h : Run.exec (step blast capacity) (start users numWorkers) es = some s')
    : ∃ es', Run.exec (WorkerPool.step Fanout.notifyUser capacity) (WorkerPool.start users numWorkers) es' =
        some (s'.pool.map Attempt.outer) := by
  rcases WorkerPool.exec_map (notifyUser_refines blast) (exec_pool h) with ⟨es', hes'⟩
  rw [start, WorkerPool.map_start] at hes'
  exact ⟨es', hes'⟩

theorem step_counts {e : WorkerPool.Event Outcome} (h : step blast capacity s e = some s')
    (hprogress : ∀ worker outcome, e ≠ .progress worker outcome)
    : s'.tokens = s.tokens ∧ s'.sends = s.sends := by
  cases e with
  | progress worker outcome => exact absurd rfl (hprogress worker outcome)
  | put | take | rested | joined =>
    unfold step at h
    split at h
    . cases h
    . cases h
      exact ⟨rfl, rfl⟩

def Attempt.isLast (attempt : Attempt) : Prop :=
  match attempt with
  | .sending _ _ rest => rest = []
  | .sleeping _ _ _ => False
  | .acquiring | .reading | .persisting => True

def Attempt.held (attempt : Attempt) : Nat :=
  match attempt with
  | .reading => 1
  | .acquiring | .sending _ _ _ | .sleeping _ _ _ | .persisting => 0

theorem isLast_sendNext {messages : List ScheduleMessage} (h : messages.length ≤ 1)
    : (sendNext messages).isLast := by
  cases messages with
  | nil => trivial
  | cons message rest =>
    rw [List.length_cons] at h
    exact List.eq_nil_of_length_eq_zero (by omega)

theorem calls_sendNext {messages : List ScheduleMessage}
    : callsOf (.more (sendNext messages)) + (sendNext messages).held ≤ 1 := by
  cases messages with
  | nil => decide
  | cons message rest => exact Nat.le_refl 1

theorem isLast_next {attempt attempt' : Attempt} {worker : Nat} {outcome : Outcome}
    (hone : OneCall blast (.progress worker outcome)) (hlast : attempt.isLast)
    (h : attempt.next blast outcome = .more attempt') : attempt'.isLast := by
  unfold Attempt.next at h
  split at h
  . cases h
    trivial
  . cases h
    exact isLast_sendNext hone
  . cases h
  . cases h
    rw [show _ = [] from hlast]
    trivial
  . cases h
    rw [show _ = [] from hlast]
    trivial
  . cases hone
  . cases h
  . cases hlast
  . cases h
  . cases h
  . cases h

theorem calls_next {attempt : Attempt} {worker : Nat} {outcome : Outcome}
    (hone : OneCall blast (.progress worker outcome)) (hlast : attempt.isLast)
    (h : attempt.next blast outcome ≠ .blocked)
    : callsOf (attempt.next blast outcome) + (attempt.next blast outcome).credit Attempt.held ≤
        tokensOf outcome + attempt.held := by
  unfold Attempt.next at h ⊢
  split at h
  . exact Nat.le_refl 1
  . exact calls_sendNext
  . exact Nat.zero_le _
  . rw [show _ = [] from hlast]
    exact Nat.le_refl 0
  . rw [show _ = [] from hlast]
    exact Nat.le_refl 0
  . cases hone
  . exact Nat.le_refl 0
  . cases hlast
  . exact Nat.le_refl 0
  . exact Nat.le_refl 0
  . exact absurd rfl h

structure Paid (s : Sending) : Prop where
  last : WorkerPool.AllStates Attempt.isLast s.pool.workers
  paid : s.sends + WorkerPool.credits Attempt.held s.pool.workers ≤ s.tokens

theorem Paid.start (users : List User) (numWorkers : Nat) : Paid (start users numWorkers) := by
  constructor
  . intro user attempt hmem
    cases (List.mem_replicate.mp hmem).2
  . unfold Tokens.start WorkerPool.start
    rw [WorkerPool.credits_replicate]

theorem Paid.progress {worker : Nat} {outcome : Outcome} (h : Paid s)
    (hone : OneCall blast (.progress worker outcome))
    (hstep : step blast capacity s (.progress worker outcome) = some s')
    : s'.sends + WorkerPool.credits Attempt.held s'.pool.workers ≤ s'.tokens := by
  rcases step_progress hstep with ⟨user, attempt, pool, hworker, hpool, rfl⟩
  have hcredits : WorkerPool.credits Attempt.held pool.workers + attempt.held =
      WorkerPool.credits Attempt.held s.pool.workers +
        (attempt.next blast outcome).credit Attempt.held := by
    rcases WorkerPool.credits_progress hpool with ⟨user', attempt', hworker', hcredits⟩
    rw [hworker] at hworker'
    cases hworker'
    exact hcredits
  have hblocked : attempt.next blast outcome ≠ .blocked := by
    intro hblocked
    rcases WorkerPool.progress_cases hpool with ⟨user', attempt', hworker', hnext⟩
    rw [hworker] at hworker'
    cases hworker'
    rcases hnext with ⟨attempt', hmore, -⟩ | ⟨hfinished, -⟩
    . cases hblocked.symm.trans hmore
    . cases hblocked.symm.trans hfinished
  have hcalls := calls_next hone (h.last user attempt (List.mem_of_getElem? hworker)) hblocked
  have hpaid := h.paid
  dsimp only
  omega

theorem paid_step {e : WorkerPool.Event Outcome} (h : Paid s) (hone : OneCall blast e)
    (hstep : step blast capacity s e = some s') : Paid s' := by
  constructor
  . have hstart : (notifyUser blast).start.isLast := trivial
    apply h.last.step hstart _ (step_pool hstep)
    intro worker outcome attempt attempt' he hlast hmore
    subst he
    exact isLast_next hone hlast hmore
  . by_cases hprogress : ∃ worker outcome, e = .progress worker outcome
    . rcases hprogress with ⟨worker, outcome, rfl⟩
      exact h.progress hone hstep
    . have hother : ∀ worker outcome, e ≠ .progress worker outcome := by
        intro worker outcome he
        exact hprogress ⟨worker, outcome, he⟩
      have hcredits := WorkerPool.credits_step_le (rfl : Attempt.held (notifyUser blast).start = 0)
        (step_pool hstep) hother
      have hcounts := step_counts hstep hother
      have hpaid := h.paid
      omega

/--
If every user of a blast has one target at most and no send gets a 429, then the calls never exceed the
tokens.
-/
theorem sends_le_tokens {users : List User} {numWorkers : Nat} {es : List (WorkerPool.Event Outcome)}
    (hone : ∀ e ∈ es, OneCall blast e)
    : Run.Always (step blast capacity) (fun s => s.sends ≤ s.tokens) (start users numWorkers) es := by
  apply Run.always_of_stepsMeet (I := Paid) (C := fun _ e => OneCall blast e)
  . intro s s' e h hone hstep
    exact paid_step h hone hstep
  . intro s h
    exact Nat.le_of_add_right_le h.paid
  . exact Paid.start users numWorkers
  . exact Run.StepsMeet.of_events hone

end

open Reminders (channelUser noonChange)

instance (blast : Blast) (e : WorkerPool.Event Outcome) : Decidable (OneCall blast e) :=
  match e with
  | .progress _ (.read freshUser) =>
    inferInstanceAs (Decidable ((sendScheduleNotification freshUser blast).length ≤ 1))
  | .progress _ (.retryAfter _) => isFalse (fun h => h)
  | .progress _ .acquired | .progress _ .sent | .progress _ .failed | .progress _ .slept
  | .progress _ .returned | .progress _ .raised | .put | .take _ | .rested _ | .joined => isTrue trivial

def channelOnly : User := channelUser "1" { notifyScheduleTarget := "channel" }

def channelBlast : List (WorkerPool.Event Outcome) := [
  .put, .take 0, .progress 0 .acquired, .progress 0 (.read (some channelOnly)), .progress 0 .failed,
  .progress 0 .returned, .rested 0, .joined]

theorem sends_le_tokens_channelBlast
    : Run.Always (step noonChange 2) (fun s => s.sends ≤ s.tokens) (start [channelOnly] 1) channelBlast :=
  sends_le_tokens (by decide +kernel)

def bothTargets : List (WorkerPool.Event Outcome) := [
  .put, .take 0, .progress 0 .acquired, .progress 0 (.read (some (channelUser "1" {}))), .progress 0 .sent]

theorem not_sends_le_tokens_bothTargets
    : ∃ s, Run.exec (step noonChange 2) (start [channelUser "1" {}] 1) bothTargets = some s ∧
        s.tokens < s.sends := by
  have hcounts : (Run.exec (step noonChange 2) (start [channelUser "1" {}] 1) bothTargets).map
      (fun s => (s.tokens, s.sends)) = some (1, 2) := by
    decide +kernel
  rcases Option.map_eq_some_iff.mp hcounts with ⟨s, hs, hpair⟩
  refine ⟨s, hs, ?_⟩
  rw [(Prod.mk.inj hpair).1, (Prod.mk.inj hpair).2]
  exact Nat.one_lt_two

end Scheduler.Tokens
