import Mathlib.Data.List.Induction
import VoltykBot.Lib.TtlCache
import VoltykBot.Utils.Reference

/-!
This module contains `fetch_schedule_data`: the cache, the attempts of one fetch, and the circuit breaker
around them.
-/

namespace Scheduler

open CircuitBreaker (Breaker Config Outcome getState serve)

inductive FetchError where
  | timeoutError
  | clientError
  | other (type : String)
  deriving DecidableEq, Repr

/--
`except (TimeoutError, aiohttp.ClientError)`.
-/
def FetchError.isNetworkError (exc : FetchError) : Bool :=
  match exc with
  | .timeoutError | .clientError => true
  | .other _ => false

/--
What one request ends with. `fetched` is the JSON value of a body with status 200, where null is `None`, and
`status` is any other status.
-/
inductive Response (Data : Type) where
  | fetched (data : Option Data)
  | tooLarge
  | malformed
  | status (code : Nat)
  | raised (exc : FetchError)
  | cancelled
  deriving DecidableEq, Repr

structure Attempt (Data : Type) where
  response : Response Data
  sleepCancelled : Bool := false
  deriving DecidableEq, Repr

inductive Ending (Data : Type) where
  | fetched (data : Option Data)
  | gaveUp
  | raised (exc : FetchError)
  | cancelled
  deriving DecidableEq, Repr

inductive Result (Data : Type) where
  | returned (data : Option Data)
  | raised (exc : FetchError)
  | cancelled
  deriving DecidableEq, Repr

structure Attempts (Data : Type) where
  requests : Nat
  ending : Ending Data
  deriving DecidableEq, Repr

structure Reply (Data : Type) where
  requests : Nat
  result : Result Data
  deriving DecidableEq, Repr

/--
One call of `fetch_schedule_data`. `wall` is `datetime.now()`, and the other times are readings of the
monotonic clock: at `.state`, twice at the head of `call`, and when the call of the breaker ends.
-/
structure Fetch (Data : Type) where
  region : String
  cacheTtlS : Option Int := none
  forceRefresh : Bool := false
  wall : Int
  stateReadAt : ℚ
  enterAt : ℚ
  again : ℚ
  reply : Nat → Attempt Data
  finishedAt : ℚ

structure Client (Data : Type) where
  breaker : Breaker := {}
  scheduleCache : TtlCache.Front String (Option Data) := []
  deriving DecidableEq

def retryDelays : List Nat := [1, 3]

/--
No `Exception` is a `CancelledError`, so `exclude` has no effect.
-/
def scheduleApiBreaker : Config FetchError where
  name := "schedule_api"
  failMax := 5
  resetTimeout := 60

def scheduleCacheSize : Nat := 100

section

variable {Data : Type}

def doFetchFrom (reply : Nat → Attempt Data) (attempt : Nat) (delays : List Nat) : Attempts Data :=
  let next :=
    match delays with
    | [] => { requests := 1, ending := .gaveUp }
    | _ :: delays =>
      if (reply attempt).sleepCancelled then
        { requests := 1, ending := .cancelled }
      else
        let rest := doFetchFrom reply (attempt + 1) delays
        { rest with requests := rest.requests + 1 }
  match (reply attempt).response with
  | .fetched data => { requests := 1, ending := .fetched data }
  | .tooLarge | .malformed => { requests := 1, ending := .gaveUp }
  | .status _ => next
  | .raised exc =>
    if exc.isNetworkError ∧ delays ≠ [] then next else { requests := 1, ending := .raised exc }
  | .cancelled => { requests := 1, ending := .cancelled }

def doFetch (reply : Nat → Attempt Data) : Attempts Data := doFetchFrom reply 0 retryDelays

/--
How the breaker sees the end of `_do_fetch`: giving up is a success.
-/
def Ending.outcome (ending : Ending Data) : Outcome FetchError :=
  match ending with
  | .fetched _ | .gaveUp => .returned
  | .raised exc => .raised exc
  | .cancelled => .cancelled

def Ending.result (ending : Ending Data) : Result Data :=
  match ending with
  | .fetched data => .returned data
  | .gaveUp => .returned none
  | .raised exc => if exc.isNetworkError then .returned none else .raised exc
  | .cancelled => .cancelled

/--
In microseconds; an interval of 0 is `None` to `or`.
-/
def effectiveTtl (scheduleCheckIntervalS : Int) (cacheTtlS : Option Int) : Int :=
  let seconds := if cacheTtlS.getD 0 = 0 then scheduleCheckIntervalS else cacheTtlS.getD 0
  max (seconds - 5) 10 * 1000000

namespace Client

def stale (client : Client Data) (region : String) : Option Data :=
  (client.scheduleCache.lookup region).bind (·.value)

def put (client : Client Data) (region : String) (wall : Int) (fetched : Option Data) : Client Data :=
  let front : TtlCache.Front String (Option Data) :=
    if client.scheduleCache.length ≥ scheduleCacheSize then client.scheduleCache.tail
    else client.scheduleCache
  { client with scheduleCache := front.put region wall fetched }

def keep (client : Client Data) (f : Fetch Data) (ending : Ending Data) : Client Data :=
  match ending with
  | .fetched data => client.put f.region f.wall data
  | .gaveUp | .raised _ | .cancelled => client

end Client

def fetchScheduleData (scheduleCheckIntervalS : Int) (client : Client Data) (f : Fetch Data)
    : Client Data × Reply Data :=
  let fresh :=
    client.scheduleCache.fresh f.region (effectiveTtl scheduleCheckIntervalS f.cacheTtlS) f.wall
  match if f.forceRefresh then none else fresh with
  | some data =>
    ({ client with scheduleCache := client.scheduleCache.touch f.region },
      { requests := 0, result := .returned data })
  | none =>
    let client := { client with breaker := getState scheduleApiBreaker f.stateReadAt client.breaker }
    if client.breaker.state = .opened then
      (client, { requests := 0, result := .returned (client.stale f.region) })
    else
      let attempts := doFetch f.reply
      let call := .call f.enterAt f.again [] attempts.ending.outcome f.finishedAt
      match serve scheduleApiBreaker client.breaker call with
      | (breaker, .admitted) =>
        ({ client.keep f attempts.ending with breaker := breaker },
          { requests := attempts.requests, result := attempts.ending.result })
      | (breaker, _) =>
        ({ client with breaker := breaker },
          { requests := 0, result := .returned (client.stale f.region) })

theorem requests_doFetchFrom_pos (reply : Nat → Attempt Data) (attempt : Nat) (delays : List Nat)
    : 0 < (doFetchFrom reply attempt delays).requests := by
  unfold doFetchFrom
  dsimp only
  split <;> try exact Nat.one_pos
  . split
    . exact Nat.one_pos
    . split
      . exact Nat.one_pos
      . exact Nat.succ_pos _
  . split
    . split
      . exact Nat.one_pos
      . split
        . exact Nat.one_pos
        . exact Nat.succ_pos _
    . exact Nat.one_pos

def Attempt.goesOn (attempt : Attempt Data) : Bool :=
  match attempt.response with
  | .status _ => !attempt.sleepCancelled
  | .raised exc => exc.isNetworkError && !attempt.sleepCancelled
  | .fetched _ | .tooLarge | .malformed | .cancelled => false

variable {reply : Nat → Attempt Data} {attempt : Nat} {exc : FetchError}

theorem ending_of_goesOn {delay : Nat} {delays : List Nat} (h : (reply attempt).goesOn)
    : (doFetchFrom reply attempt (delay :: delays)).ending =
        (doFetchFrom reply (attempt + 1) delays).ending := by
  unfold Attempt.goesOn at h
  conv => lhs; unfold doFetchFrom
  split at h
  . next code hstatus =>
    rw [Bool.not_eq_true'] at h
    simp [hstatus, h]
  . next exc hraised =>
    rw [Bool.and_eq_true, Bool.not_eq_true'] at h
    simp [hraised, h]
  . cases h
  . cases h
  . cases h
  . cases h

theorem ending_eq_raised_of_not_goesOn {delays : List Nat}
    (h : ¬ ((reply attempt).goesOn ∧ delays ≠ []))
    : (doFetchFrom reply attempt delays).ending = .raised exc
        ↔
      (reply attempt).response = .raised exc ∧ (exc.isNetworkError → delays = []) := by
  unfold Attempt.goesOn at h
  unfold doFetchFrom
  cases hresponse : (reply attempt).response with
  | raised exc' =>
    cases delays with
    | nil => simp
    | cons delay delays =>
      by_cases hnetwork : exc'.isNetworkError
      . have hsleep : (reply attempt).sleepCancelled := by simpa [hresponse, hnetwork] using h
        simp only [hnetwork, hsleep, ne_eq, reduceCtorEq, not_false_eq_true, and_self, if_true, false_iff,
          Response.raised.injEq, not_and, imp_false, not_not]
        intro heq
        exact heq ▸ hnetwork
      . simp only [hnetwork, Bool.false_eq_true, false_and, if_false, Ending.raised.injEq,
          Response.raised.injEq, reduceCtorEq, imp_false, iff_self_and]
        intro heq
        exact heq ▸ hnetwork
  | status code =>
    cases delays with
    | nil => simp
    | cons delay delays =>
      have hsleep : (reply attempt).sleepCancelled := by simpa [hresponse] using h
      simp [hsleep]
  | fetched data => simp
  | tooLarge => simp
  | malformed => simp
  | cancelled => simp

theorem ending_doFetchFrom_eq_raised {delays : List Nat}
    : (doFetchFrom reply attempt delays).ending = .raised exc
        ↔
      ∃ k ≤ delays.length, (∀ j < k, (reply (attempt + j)).goesOn) ∧
        (reply (attempt + k)).response = .raised exc ∧ (exc.isNetworkError → k = delays.length) := by
  induction delays generalizing attempt with
  | nil =>
    rw [ending_eq_raised_of_not_goesOn (fun h => h.2 rfl)]
    simp
  | cons delay delays ih =>
    by_cases hgoes : (reply attempt).goesOn
    . rw [ending_of_goesOn hgoes, ih]
      constructor
      . rintro ⟨k, hk, hbefore, hraised, hlast⟩
        refine ⟨k + 1, Nat.succ_le_succ hk, ?_, ?_, ?_⟩
        . intro j hj
          cases j with
          | zero => exact hgoes
          | succ j =>
            have hj := hbefore j (Nat.lt_of_succ_lt_succ hj)
            rwa [Nat.add_assoc, Nat.add_comm 1 j] at hj
        . rwa [Nat.add_assoc, Nat.add_comm 1 k] at hraised
        . intro hnetwork
          rw [hlast hnetwork, List.length_cons]
      . rintro ⟨k, hk, hbefore, hraised, hlast⟩
        cases k with
        | zero =>
          -- what raises here and is tried again is a network error
          unfold Attempt.goesOn at hgoes
          rw [Nat.add_zero] at hraised
          simp only [hraised, Bool.and_eq_true] at hgoes
          have hzero := hlast hgoes.1
          rw [List.length_cons] at hzero
          omega
        | succ k =>
          refine ⟨k, Nat.le_of_succ_le_succ hk, ?_, ?_, ?_⟩
          . intro j hj
            have hj := hbefore (j + 1) (Nat.succ_lt_succ hj)
            rwa [Nat.add_assoc, Nat.add_comm 1 j]
          . rwa [Nat.add_assoc, Nat.add_comm 1 k]
          . intro hnetwork
            exact Nat.succ.inj (hlast hnetwork)
    . rw [ending_eq_raised_of_not_goesOn (fun h => hgoes h.1)]
      constructor
      . rintro ⟨hraised, hlast⟩
        refine ⟨0, Nat.zero_le _, nofun, hraised, ?_⟩
        intro hnetwork
        cases hlast hnetwork
      . rintro ⟨k, hk, hbefore, hraised, hlast⟩
        cases k with
        | zero =>
          refine ⟨hraised, ?_⟩
          intro hnetwork
          cases hlast hnetwork
        | succ k => exact absurd (hbefore 0 (Nat.succ_pos k)) hgoes

/--
The call issues no request, and what it returns is cached or `None`.
-/
def FromCache (scheduleCheckIntervalS : Int) (client : Client Data) (f : Fetch Data) : Prop :=
  ∃ data,
    (fetchScheduleData scheduleCheckIntervalS client f).2 = { requests := 0, result := .returned data } ∧
    (data = none ∨ ∃ entry ∈ client.scheduleCache, entry.key = f.region ∧ entry.value = data)

variable {scheduleCheckIntervalS : Int} {client : Client Data} {f : Fetch Data}

theorem stale_cases (client : Client Data) (region : String)
    : client.stale region = none ∨
        ∃ entry ∈ client.scheduleCache, entry.key = region ∧ entry.value = client.stale region := by
  unfold Client.stale
  cases hlookup : client.scheduleCache.lookup region with
  | none => exact .inl rfl
  | some entry =>
    have hentry := TtlCache.Front.mem_of_lookup hlookup
    exact .inr ⟨entry, hentry.1, hentry.2, rfl⟩

theorem fetch_cases (scheduleCheckIntervalS : Int) (client : Client Data) (f : Fetch Data)
    : (FromCache scheduleCheckIntervalS client f ∧
          (fetchScheduleData scheduleCheckIntervalS client f).1.breaker = client.breaker) ∨
        ((fetchScheduleData scheduleCheckIntervalS client f).2.requests ≠ 0 ∧
          (getState scheduleApiBreaker f.stateReadAt client.breaker).state ≠ .opened ∧
          (fetchScheduleData scheduleCheckIntervalS client f).1.breaker =
            CircuitBreaker.leave scheduleApiBreaker (doFetch f.reply).ending.outcome f.finishedAt
              (getState scheduleApiBreaker f.stateReadAt client.breaker)) := by
  unfold FromCache fetchScheduleData
  dsimp only
  split
  . next data hfresh =>
    left
    refine ⟨⟨data, rfl, .inr ?_⟩, rfl⟩
    split at hfresh
    . cases hfresh
    . rcases TtlCache.Front.exists_of_fresh hfresh with ⟨entry, hmem, hkey, hvalue, -⟩
      exact ⟨entry, hmem, hkey, hvalue⟩
  . split
    . next hopen =>
      left
      exact ⟨⟨_, rfl, stale_cases client f.region⟩, CircuitBreaker.getState_of_opened hopen⟩
    . next hopen =>
      right
      have hagain : getState scheduleApiBreaker f.enterAt
          (getState scheduleApiBreaker f.stateReadAt client.breaker) =
          getState scheduleApiBreaker f.stateReadAt client.breaker := CircuitBreaker.getState_of_ne hopen
      rw [CircuitBreaker.serve_of_ne (by rwa [hagain]), hagain]
      exact ⟨Nat.pos_iff_ne_zero.mp (requests_doFetchFrom_pos f.reply 0 retryDelays), hopen, rfl⟩

theorem not_fromCache_of_forceRefresh (hforce : f.forceRefresh) (hopen : client.breaker.state ≠ .opened)
    : ¬ FromCache scheduleCheckIntervalS client f := by
  rintro ⟨data, hreply, -⟩
  have hstate : getState scheduleApiBreaker f.stateReadAt client.breaker = client.breaker :=
    CircuitBreaker.getState_of_ne hopen
  have hagain : (getState scheduleApiBreaker f.enterAt client.breaker).state ≠ .opened := by
    rwa [CircuitBreaker.getState_of_ne hopen]
  unfold fetchScheduleData at hreply
  dsimp only at hreply
  rw [if_pos hforce] at hreply
  dsimp only at hreply
  rw [hstate, if_neg hopen, CircuitBreaker.serve_of_ne hagain] at hreply
  exact (requests_doFetchFrom_pos f.reply 0 retryDelays).ne' (congrArg Reply.requests hreply)

def isNetwork (reply : Reply Data) : Bool := reply.requests ≠ 0

def networkCalls (scheduleCheckIntervalS : Int) (client : Client Data) (fs : List (Fetch Data))
    : List (Fetch Data) :=
  Mealy.answered (fetchScheduleData scheduleCheckIntervalS) isNetwork client fs

def clientAfter (scheduleCheckIntervalS : Int) (client : Client Data) (fs : List (Fetch Data))
    : Client Data :=
  Mealy.final (fetchScheduleData scheduleCheckIntervalS) client fs

def NoSchedule (f : Fetch Data) : Prop :=
  match (doFetch f.reply).ending with
  | .fetched none | .gaveUp | .raised _ => True
  | .fetched (some _) | .cancelled => False

instance (f : Fetch Data) : Decidable (NoSchedule f) :=
  match h : (doFetch f.reply).ending with
  | .fetched none | .gaveUp | .raised _ => isTrue (by simp [NoSchedule, h])
  | .fetched (some _) | .cancelled => isFalse (by simp [NoSchedule, h])

/--
Some attempt of the call raised, after attempts that were tried again, and it was the last one or what it
raised is no network error.
-/
def RaisesAtTheEnd (f : Fetch Data) : Prop :=
  ∃ exc, ∃ k ≤ retryDelays.length, (∀ j < k, (f.reply j).goesOn) ∧ (f.reply k).response = .raised exc ∧
    (exc.isNetworkError → k = retryDelays.length)

theorem raisesAtTheEnd_iff : RaisesAtTheEnd f ↔ ∃ exc, (doFetch f.reply).ending = .raised exc := by
  unfold RaisesAtTheEnd doFetch
  simp only [ending_doFetchFrom_eq_raised, Nat.zero_add]

theorem outcome_of_not_raises (hnone : NoSchedule f) (h : ¬ RaisesAtTheEnd f)
    : (doFetch f.reply).ending.outcome = .returned := by
  rw [raisesAtTheEnd_iff] at h
  unfold NoSchedule at hnone
  cases hending : (doFetch f.reply).ending with
  | fetched data => rfl
  | gaveUp => rfl
  | raised exc => exact absurd ⟨exc, hending⟩ h
  | cancelled =>
    rw [hending] at hnone
    cases hnone

def FewFailures (n : Nat) (b : Breaker) : Prop := b.state = .closed ∧ b.failures < n

theorem leave_raised {now : ℚ} {b : Breaker}
    : CircuitBreaker.leave scheduleApiBreaker (.raised exc) now b =
        CircuitBreaker.onFailure scheduleApiBreaker now b := rfl

theorem failures_onFailure (now : ℚ) (b : Breaker)
    : (CircuitBreaker.onFailure scheduleApiBreaker now b).failures = b.failures + 1 := by
  unfold CircuitBreaker.onFailure
  split <;> rfl

theorem FewFailures.onFailure {n : Nat} {now : ℚ} {b : Breaker} (h : FewFailures n b) (hn : n < 5)
    : FewFailures (n + 1) (CircuitBreaker.onFailure scheduleApiBreaker now b) := by
  have htrips : ¬ CircuitBreaker.trips scheduleApiBreaker b := by
    have hfew := h.2
    simp only [CircuitBreaker.trips, h.1, scheduleApiBreaker, reduceCtorEq, false_or, decide_eq_true_eq]
    omega
  rw [(CircuitBreaker.onFailure_of_not_trips htrips).2]
  exact ⟨h.1, Nat.succ_lt_succ h.2⟩

theorem networkCalls_concat (fs : List (Fetch Data))
    : networkCalls scheduleCheckIntervalS client (fs ++ [f]) =
        networkCalls scheduleCheckIntervalS client fs ++
          if isNetwork (fetchScheduleData scheduleCheckIntervalS
            (clientAfter scheduleCheckIntervalS client fs) f).2 then [f] else [] :=
  Mealy.answered_concat _ _ _ _

theorem clientAfter_concat (fs : List (Fetch Data))
    : clientAfter scheduleCheckIntervalS client (fs ++ [f]) =
        (fetchScheduleData scheduleCheckIntervalS (clientAfter scheduleCheckIntervalS client fs) f).1 :=
  Mealy.final_concat _ _ _

theorem length_networkCalls_le {fs : List (Fetch Data)}
    (hraise : ∀ f ∈ networkCalls scheduleCheckIntervalS client fs, RaisesAtTheEnd f)
    : (networkCalls scheduleCheckIntervalS client fs).length ≤
        (clientAfter scheduleCheckIntervalS client fs).breaker.failures := by
  induction fs using List.reverseRecOn with
  | nil => exact Nat.zero_le _
  | append_singleton fs f ih =>
    rw [networkCalls_concat] at hraise ⊢
    rw [clientAfter_concat]
    have ih := ih fun f' hf' => hraise f' (List.mem_append_left _ hf')
    rcases fetch_cases scheduleCheckIntervalS (clientAfter scheduleCheckIntervalS client fs) f with
      ⟨⟨data, hreply, -⟩, hbreaker⟩ | ⟨hrequests, -, hbreaker⟩
    . rw [hbreaker, hreply]
      simpa [isNetwork] using ih
    . have hnetwork : isNetwork (fetchScheduleData scheduleCheckIntervalS
          (clientAfter scheduleCheckIntervalS client fs) f).2 := by simpa [isNetwork] using hrequests
      rw [if_pos hnetwork] at hraise ⊢
      rcases raisesAtTheEnd_iff.mp (hraise f (by simp)) with ⟨exc, hending⟩
      rw [hbreaker, hending, Ending.outcome, leave_raised, failures_onFailure,
        CircuitBreaker.getState_failures, List.length_append, List.length_singleton]
      exact Nat.succ_le_succ ih

theorem fewFailures_of_gaveUp {fs : List (Fetch Data)}
    (hnone : ∀ f ∈ networkCalls scheduleCheckIntervalS client fs, NoSchedule f)
    (hlen : (networkCalls scheduleCheckIntervalS client fs).length ≤ 5)
    (hgave : ∃ f ∈ networkCalls scheduleCheckIntervalS client fs, ¬ RaisesAtTheEnd f)
    : FewFailures (networkCalls scheduleCheckIntervalS client fs).length
        (clientAfter scheduleCheckIntervalS client fs).breaker := by
  induction fs using List.reverseRecOn with
  | nil =>
    rcases hgave with ⟨f, hf, -⟩
    cases hf
  | append_singleton fs f ih =>
    rw [networkCalls_concat] at hnone hlen hgave ⊢
    rw [clientAfter_concat]
    rcases fetch_cases scheduleCheckIntervalS (clientAfter scheduleCheckIntervalS client fs) f with
      ⟨⟨data, hreply, -⟩, hbreaker⟩ | ⟨hrequests, hopen, hbreaker⟩
    . rw [hreply] at hnone hlen hgave ⊢
      rw [hbreaker]
      simp only [isNetwork, ne_eq, not_true_eq_false, decide_false, Bool.false_eq_true, if_false,
        List.append_nil] at hnone hlen hgave ⊢
      exact ih hnone hlen hgave
    . have hnetwork : isNetwork (fetchScheduleData scheduleCheckIntervalS
          (clientAfter scheduleCheckIntervalS client fs) f).2 := by simpa [isNetwork] using hrequests
      rw [if_pos hnetwork] at hnone hlen hgave ⊢
      rw [List.length_append, List.length_singleton] at hlen ⊢
      rw [hbreaker]
      by_cases hraise : RaisesAtTheEnd f
      . rcases raisesAtTheEnd_iff.mp hraise with ⟨exc, hending⟩
        have hgave' : ∃ f ∈ networkCalls scheduleCheckIntervalS client fs, ¬ RaisesAtTheEnd f := by
          rcases hgave with ⟨f', hf', hgave⟩
          rcases List.mem_append.mp hf' with hf' | hf'
          . exact ⟨f', hf', hgave⟩
          . rw [List.mem_singleton] at hf'
            exact absurd (hf' ▸ hraise) hgave
        have hfew := ih (fun f' hf' => hnone f' (List.mem_append_left _ hf')) (Nat.le_of_succ_le hlen) hgave'
        have hclosed : (clientAfter scheduleCheckIntervalS client fs).breaker.state ≠ .opened := by
          simp [hfew.1]
        rw [hending, Ending.outcome, leave_raised, CircuitBreaker.getState_of_ne hclosed]
        exact hfew.onFailure hlen
      . rw [outcome_of_not_raises (hnone f (by simp)) hraise]
        exact ⟨rfl, Nat.succ_pos _⟩

structure FiveWithout (scheduleCheckIntervalS : Int) (client : Client Data) (fs : List (Fetch Data))
    (last : Fetch Data) : Prop where
  four : (networkCalls scheduleCheckIntervalS client fs).length = 4
  fifth :
    (fetchScheduleData scheduleCheckIntervalS (clientAfter scheduleCheckIntervalS client fs) last).2.requests
      ≠ 0
  noSchedule : ∀ f ∈ networkCalls scheduleCheckIntervalS client (fs ++ [last]), NoSchedule f

variable {fs : List (Fetch Data)} {last : Fetch Data}

theorem FiveWithout.networkCalls_eq (h : FiveWithout scheduleCheckIntervalS client fs last)
    : networkCalls scheduleCheckIntervalS client (fs ++ [last]) =
        networkCalls scheduleCheckIntervalS client fs ++ [last] := by
  rw [networkCalls_concat, if_pos]
  simpa [isNetwork] using h.fifth

theorem FiveWithout.opened (h : FiveWithout scheduleCheckIntervalS client fs last)
    (hraise : ∀ f ∈ networkCalls scheduleCheckIntervalS client (fs ++ [last]), RaisesAtTheEnd f)
    : (clientAfter scheduleCheckIntervalS client (fs ++ [last])).breaker.state = .opened ∧
        (clientAfter scheduleCheckIntervalS client (fs ++ [last])).breaker.openedAt = last.finishedAt := by
  rw [h.networkCalls_eq] at hraise
  have hfour := length_networkCalls_le fun f hf => hraise f (List.mem_append_left _ hf)
  rw [h.four] at hfour
  rw [clientAfter_concat]
  rcases fetch_cases scheduleCheckIntervalS (clientAfter scheduleCheckIntervalS client fs) last with
    ⟨⟨data, hreply, -⟩, -⟩ | ⟨-, -, hbreaker⟩
  . exact absurd (congrArg Reply.requests hreply) h.fifth
  . rcases raisesAtTheEnd_iff.mp (hraise last (by simp)) with ⟨exc, hending⟩
    have htrips : CircuitBreaker.trips scheduleApiBreaker (getState scheduleApiBreaker last.stateReadAt
        (clientAfter scheduleCheckIntervalS client fs).breaker) := by
      simp only [CircuitBreaker.trips, CircuitBreaker.getState_failures, scheduleApiBreaker,
        decide_eq_true_eq]
      right
      omega
    rw [hbreaker, hending, Ending.outcome, leave_raised, CircuitBreaker.onFailure_of_trips htrips]
    exact ⟨rfl, rfl⟩

theorem meets_fromCache_of_opened {since : ℚ} {later : List (Fetch Data)}
    (hopen : client.breaker.state = .opened) (hsince : client.breaker.openedAt = since)
    (hlater : ∀ f ∈ later, f.stateReadAt < since + 60)
    : Mealy.Meets (fetchScheduleData scheduleCheckIntervalS) (FromCache scheduleCheckIntervalS) client
        later := by
  have hserved : ∀ {client : Client Data} {f : Fetch Data},
      client.breaker.state = .opened ∧ client.breaker.openedAt = since → f.stateReadAt < since + 60 →
      FromCache scheduleCheckIntervalS client f ∧
        (fetchScheduleData scheduleCheckIntervalS client f).1.breaker = client.breaker := by
    intro client f hopen hf
    rcases fetch_cases scheduleCheckIntervalS client f with hcache | ⟨-, hnot, -⟩
    . exact hcache
    . exfalso
      apply hnot
      rw [CircuitBreaker.getState_state]
      refine ⟨hopen.1, ?_⟩
      rw [hopen.2]
      show f.stateReadAt - since < 60
      linarith
  apply Mealy.meets_of_invariant
    (I := fun client => client.breaker.state = .opened ∧ client.breaker.openedAt = since) _ _ ⟨hopen, hsince⟩
    hlater
  . intro client f hopen hf
    exact (hserved hopen hf).1
  . intro client f hopen hf
    rw [(hserved hopen hf).2]
    exact hopen

/--
After five calls that went to the network and obtained no schedule, all calls that are made less than a
minute later are served without a request if and only if each of the five raised in the end.
-/
theorem fromCache_iff_raises (h : FiveWithout scheduleCheckIntervalS client fs last)
    : (∀ later : List (Fetch Data), (∀ f ∈ later, f.stateReadAt < last.finishedAt + 60) →
          Mealy.Meets (fetchScheduleData scheduleCheckIntervalS) (FromCache scheduleCheckIntervalS)
            (clientAfter scheduleCheckIntervalS client (fs ++ [last])) later)
        ↔
      ∀ f ∈ networkCalls scheduleCheckIntervalS client (fs ++ [last]), RaisesAtTheEnd f := by
  constructor
  . intro hquiet
    by_contra hgave
    simp only [not_forall, exists_prop] at hgave
    have hlen : (networkCalls scheduleCheckIntervalS client (fs ++ [last])).length = 5 := by
      rw [h.networkCalls_eq, List.length_append, h.four, List.length_singleton]
    have hfew := fewFailures_of_gaveUp h.noSchedule (Nat.le_of_eq hlen) hgave
    -- the breaker is closed, so a call that does not take what is cached goes to the network
    let forced : Fetch Data := {
      last with
      forceRefresh := true
      stateReadAt := last.finishedAt
      enterAt := last.finishedAt
      again := last.finishedAt }
    have hforced : ∀ f ∈ [forced], f.stateReadAt < last.finishedAt + 60 := by
      intro f hf
      rw [List.mem_singleton] at hf
      subst hf
      show last.finishedAt < last.finishedAt + 60
      linarith
    have hclosed : (clientAfter scheduleCheckIntervalS client (fs ++ [last])).breaker.state ≠ .opened := by
      simp [hfew.1]
    exact not_fromCache_of_forceRefresh rfl hclosed (hquiet [forced] hforced).1
  . intro hraise later hlater
    have hopened := h.opened hraise
    exact meets_fromCache_of_opened hopened.1 hopened.2 hlater

end

def kyivFetch (response : Response String) (time : ℚ) : Fetch String where
  region := "kyiv"
  wall := 0
  stateReadAt := time
  enterAt := time
  again := time
  reply _ := { response }
  finishedAt := time + 5

theorem fromCache_iff_raises_timeouts
    : Mealy.Meets (fetchScheduleData 60) (FromCache 60)
        (clientAfter 60 {} ([0, 60, 120, 180].map (kyivFetch (.raised .timeoutError)) ++
          [kyivFetch (.raised .timeoutError) 240]))
        [kyivFetch (.status 500) 300] := by
  refine (fromCache_iff_raises ⟨by decide +kernel, by decide +kernel, by decide +kernel⟩).mpr ?_ _ ?_
  . have hraised : ∀ f ∈ networkCalls 60 {} ([0, 60, 120, 180].map (kyivFetch (.raised .timeoutError)) ++
        [kyivFetch (.raised .timeoutError) 240]), (doFetch f.reply).ending = .raised .timeoutError := by
      decide +kernel
    intro f hf
    exact raisesAtTheEnd_iff.mpr ⟨_, hraised f hf⟩
  . decide +kernel

theorem not_fromCache_status
    : FiveWithout 60 {} ([0, 60, 120, 180].map (kyivFetch (.status 500))) (kyivFetch (.status 500) 240) ∧
        (kyivFetch (.status 500) 300).stateReadAt < (kyivFetch (.status 500) 240).finishedAt + 60 ∧
        (fetchScheduleData 60 (clientAfter 60 {} ([0, 60, 120, 180].map (kyivFetch (.status 500)) ++
          [kyivFetch (.status 500) 240])) (kyivFetch (.status 500) 300)).2 =
            { requests := 3, result := .returned none } :=
  ⟨⟨by decide +kernel, by decide +kernel, by decide +kernel⟩, by decide +kernel, by decide +kernel⟩

end Scheduler
