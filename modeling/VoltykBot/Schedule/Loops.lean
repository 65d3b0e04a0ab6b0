import Mathlib.Data.List.Basic
import VoltykBot.Lib.Run
import VoltykBot.Schedule.Clock

/-!
This module contains the two loops of the scheduler, `schedule_checker_loop` and `daily_flush_loop`, as
far as their locks go: the advisory lock that PostgreSQL keeps for a session, and `_notify_lock`, which
a coroutine waits for. It shows when the 06:00 flush is dropped.
-/

namespace Scheduler

inductive Party where
  | checker
  | flush
  deriving DecidableEq, Repr

inductive CheckerPc where
  | sleeping
  | polling
  | tryKey
  | awaitLock
  | checking
  | closing
  deriving DecidableEq, Repr

inductive FlushPc where
  | waiting (target : WallTime)
  | tryKey (attempt : Nat)
  | awaitLock (attempt : Nat)
  | collecting (attempt : Nat)
  | flushing (attempt : Nat) (todo : List Pair)
  | purging (attempt : Nat)
  | retrySleep (attempt : Nat)
  | catchUp
  | stopped
  deriving DecidableEq, Repr

def maxDailyFlushRetries : Nat := 3

/--
Both loops, with the locks they share. `raised`, `active` and `visited` record what became of the flush
since its target was reached: whether it raised, the pairs that were active when its body read them, and
the pairs its body went through.
-/
structure Loops where
  now : WallTime
  running : Bool
  activePairs : List Pair
  key : Option Party
  notifyLock : Option Party
  checker : CheckerPc
  flush : FlushPc
  raised : Bool
  active : Option (List Pair)
  visited : List Pair

namespace Loops

inductive Event where
  | clock (now : WallTime)
  | usersChanged (activePairs : List Pair)
  | schedulerStopped
  | checkerWoke
  | polled (hasUpdate : Bool)
  | checkerKeyTried (supported : Bool)
  | checkerLocked
  | checked
  | checkerClosed
  | checkerRaised
  | targetReached
  | flushKeyTried (supported : Bool)
  | flushLocked
  | pairsCollected (pairs : List Pair)
  | pairFlushed
  | allFlushed
  | flushClosed
  | flushRaised
  | retried
  | caughtUp

/--
`_scheduler_advisory_lock`: the key goes to the session that asks while no session has it. A backend
without advisory locks lets everyone pass.
-/
def tryKey (m : Loops) (party : Party) (supported : Bool) : Loops × Bool :=
  if supported then
    match m.key with
    | none => ({ m with key := some party }, true)
    | some _ => (m, false)
  else
    (m, true)

def closeSession (m : Loops) (party : Party) : Loops :=
  -- the transaction of the session ends, and with it the key is gone
  if m.key = some party then { m with key := none } else m

def releaseLock (m : Loops) (party : Party) : Loops :=
  if m.notifyLock = some party then { m with notifyLock := none } else m

def stepChecker (m : Loops) (e : Event) : Option Loops :=
  match m.checker, e with
  | .sleeping, .checkerWoke => if m.running then some { m with checker := .polling } else none
  | .polling, .polled hasUpdate =>
    some { m with checker := if hasUpdate then .tryKey else .sleeping }
  | .tryKey, .checkerKeyTried supported =>
    let (m, acquired) := m.tryKey .checker supported
    some { m with checker := if acquired then .awaitLock else .sleeping }
  | .awaitLock, .checkerLocked =>
    match m.notifyLock with
    | none => some { m with checker := .checking, notifyLock := some .checker }
    | some _ => none
  | .checking, .checked => some { m.releaseLock .checker with checker := .closing }
  | .closing, .checkerClosed => some { m.closeSession .checker with checker := .sleeping }
  | .sleeping, .checkerRaised => none
  | _, .checkerRaised =>
    some { (m.releaseLock .checker).closeSession .checker with checker := .sleeping }
  | _, _ => none

def failAttempt (m : Loops) (attempt : Nat) : Loops :=
  let m := (m.releaseLock .flush).closeSession .flush
  { m with
    raised := true
    flush := if attempt < maxDailyFlushRetries - 1 then .retrySleep (attempt + 1) else .catchUp }

/--
`flush_pending_notifications` returns normally without its body if it does not get the key. An
exception about one pair is caught within the body, which goes on.
-/
def stepFlush (m : Loops) (e : Event) : Option Loops :=
  match m.flush, e with
  | .waiting target, .targetReached =>
    if m.running ∧ target ≤ m.now then
      some { m with flush := .tryKey 0, raised := false, active := none, visited := [] }
    else
      none
  | .tryKey attempt, .flushKeyTried supported =>
    let (m, acquired) := m.tryKey .flush supported
    some { m with flush := if acquired then .awaitLock attempt else .catchUp }
  | .awaitLock attempt, .flushLocked =>
    match m.notifyLock with
    | none => some { m with flush := .collecting attempt, notifyLock := some .flush }
    | some _ => none
  | .collecting attempt, .pairsCollected pairs =>
    if pairs.Perm m.activePairs then
      some { m with flush := .flushing attempt pairs, active := some m.activePairs }
    else
      none
  | .flushing attempt (pair :: todo), .pairFlushed =>
    some { m with flush := .flushing attempt todo, visited := pair :: m.visited }
  | .flushing attempt [], .allFlushed => some { m.releaseLock .flush with flush := .purging attempt }
  | .purging _, .flushClosed => some { m.closeSession .flush with flush := .catchUp }
  | .tryKey attempt, .flushRaised => some (m.failAttempt attempt)
  | .awaitLock attempt, .flushRaised => some (m.failAttempt attempt)
  | .collecting attempt, .flushRaised => some (m.failAttempt attempt)
  | .purging attempt, .flushRaised => some (m.failAttempt attempt)
  | .retrySleep attempt, .retried => some { m with flush := .tryKey attempt }
  | .catchUp, .caughtUp =>
    some { m with flush := if m.running then .waiting m.now.nextTarget else .stopped }
  | _, _ => none

def step (m : Loops) (e : Event) : Option Loops :=
  match e with
  | .clock now => some { m with now := now }
  | .usersChanged activePairs => some { m with activePairs := activePairs }
  | .schedulerStopped => some { m with running := false }
  | .checkerWoke => m.stepChecker e
  | .polled _ => m.stepChecker e
  | .checkerKeyTried _ => m.stepChecker e
  | .checkerLocked => m.stepChecker e
  | .checked => m.stepChecker e
  | .checkerClosed => m.stepChecker e
  | .checkerRaised => m.stepChecker e
  | e => m.stepFlush e

def Flushed (m : Loops) : Prop :=
  ∃ pairs, m.active = some pairs ∧ ∀ pair ∈ pairs, pair ∈ m.visited

/--
When the attempts of the flush are over, its body went through all active pairs or something raised.
-/
def FlushRuns (m : Loops) : Prop :=
  m.flush = .catchUp → m.raised = false → Flushed m

def Event.triesFlushKey (e : Event) : Bool :=
  match e with
  | .flushKeyTried supported => supported
  | _ => false

/--
No cycle of the checker has the key when the flush asks for it, but perhaps in a round that has raised.
-/
def FlushKeyFree (m : Loops) (e : Event) : Prop :=
  e.triesFlushKey = true → m.key ≠ some .checker ∨ m.raised = true

instance (m : Loops) (e : Event) : Decidable (FlushKeyFree m e) :=
  inferInstanceAs (Decidable (_ → _))

def flushInside (m : Loops) : Prop :=
  match m.flush with
  | .awaitLock _ => True
  | .collecting _ => True
  | .flushing _ _ => True
  | .purging _ => True
  | _ => False

def RoundSound (m : Loops) : Prop :=
  match m.flush with
  | .tryKey _ => m.raised = false → m.active = none
  | .retrySleep _ => m.raised = true
  | .flushing _ todo =>
    ∃ pairs, m.active = some pairs ∧ ∀ pair ∈ pairs, pair ∈ todo ∨ pair ∈ m.visited
  | .purging _ => Flushed m
  | .catchUp => m.raised = false → Flushed m
  | _ => True

structure LoopsInv (m : Loops) : Prop where
  key : m.key = some .flush → m.flushInside
  round : RoundSound m

theorem closeSession_eq (m : Loops) (party : Party)
    : m.closeSession party = { m with key := (m.closeSession party).key } := by
  unfold closeSession
  split <;> rfl

theorem key_closeSession (m : Loops) (party : Party) : (m.closeSession party).key ≠ some party := by
  unfold closeSession
  split
  . simp
  . assumption

theorem key_of_closeSession {m : Loops} {party party' : Party}
    (h : (m.closeSession party).key = some party') : m.key = some party' := by
  unfold closeSession at h
  split at h
  . cases h
  . exact h

theorem releaseLock_eq (m : Loops) (party : Party)
    : m.releaseLock party = { m with notifyLock := (m.releaseLock party).notifyLock } := by
  unfold releaseLock
  split <;> rfl

theorem tryKey_cases (m : Loops) (party : Party) (supported : Bool)
    : (m.tryKey party supported = ({ m with key := some party }, true) ∧ m.key = none) ∨
      (m.tryKey party supported = (m, true) ∧ supported = false) ∨
      (m.tryKey party supported = (m, false) ∧ supported = true ∧ m.key ≠ none) := by
  cases supported with
  | false => exact .inr (.inl ⟨rfl, rfl⟩)
  | true =>
    unfold tryKey
    cases hkey : m.key with
    | none => exact .inl ⟨rfl, rfl⟩
    | some _ => exact .inr (.inr ⟨rfl, rfl, nofun⟩)

theorem stepChecker_frame {m m' : Loops} {e : Event} (h : m.stepChecker e = some m')
    : m' = { m with key := m'.key, notifyLock := m'.notifyLock, checker := m'.checker } ∧
      (m'.key = some .flush → m.key = some .flush) := by
  unfold stepChecker at h
  split at h
  . split at h
    . cases h
      exact ⟨rfl, id⟩
    . cases h
  . cases h
    exact ⟨rfl, id⟩
  . next supported _ =>
    obtain ⟨hkey, _⟩ | ⟨hkey, _⟩ | ⟨hkey, _⟩ := m.tryKey_cases .checker supported
    . rw [hkey] at h
      cases h
      exact ⟨rfl, nofun⟩
    . rw [hkey] at h
      cases h
      exact ⟨rfl, id⟩
    . rw [hkey] at h
      cases h
      exact ⟨rfl, id⟩
  . split at h
    . cases h
      exact ⟨rfl, id⟩
    . cases h
  . cases h
    constructor
    . dsimp only
      rw [releaseLock_eq]
    . intro hkey
      dsimp only at hkey
      rwa [releaseLock_eq] at hkey
  . cases h
    constructor
    . dsimp only
      rw [closeSession_eq]
    . intro hkey
      exact key_of_closeSession hkey
  . cases h
  . cases h
    constructor
    . dsimp only
      rw [closeSession_eq, releaseLock_eq]
    . intro hkey
      have hkey := key_of_closeSession hkey
      rwa [releaseLock_eq] at hkey
  . cases h

theorem loopsInv_stepChecker {m m' : Loops} {e : Event} (hinv : LoopsInv m)
    (h : m.stepChecker e = some m') : LoopsInv m' := by
  obtain ⟨heq, hkey⟩ := stepChecker_frame h
  constructor
  . intro hflush
    rw [heq]
    exact hinv.key (hkey hflush)
  . rw [heq]
    exact hinv.round

theorem loopsInv_failAttempt (m : Loops) (attempt : Nat) : LoopsInv (m.failAttempt attempt) := by
  unfold failAttempt
  dsimp only
  constructor
  . intro hkey
    exact absurd hkey (key_closeSession _ _)
  . by_cases hlast : attempt < maxDailyFlushRetries - 1
    . simp only [if_pos hlast]
      rfl
    . simp only [if_neg hlast]
      nofun

theorem LoopsInv.key_ne {m : Loops} (hinv : LoopsInv m) (houtside : ¬ m.flushInside)
    : m.key ≠ some .flush :=
  fun hkey => houtside (hinv.key hkey)

theorem loopsInv_flushKeyTried {m m' : Loops} {attempt : Nat} {supported : Bool} (hinv : LoopsInv m)
    (hpc : m.flush = .tryKey attempt) (hfree : FlushKeyFree m (.flushKeyTried supported))
    (h : m.stepFlush (.flushKeyTried supported) = some m') : LoopsInv m' := by
  have hkeyless : m.key ≠ some .flush := by
    apply hinv.key_ne
    rw [flushInside, hpc]
    exact id
  unfold stepFlush at h
  rw [hpc] at h
  dsimp only at h
  obtain ⟨hkey, _⟩ | ⟨hkey, _⟩ | ⟨hkey, hsupported, hheld⟩ := m.tryKey_cases .flush supported
  . rw [hkey] at h
    cases h
    exact ⟨fun _ => trivial, trivial⟩
  . rw [hkey] at h
    cases h
    exact ⟨fun _ => trivial, trivial⟩
  . rw [hkey] at h
    cases h
    constructor
    . intro hflush
      exact absurd hflush hkeyless
    . intro hraised
      cases hfree hsupported with
      | inl hchecker =>
        cases hholder : m.key with
        | none => exact absurd hholder hheld
        | some party =>
          cases party with
          | checker => exact absurd hholder hchecker
          | flush => exact absurd hholder hkeyless
      | inr hraised' =>
        rw [hraised'] at hraised
        cases hraised

theorem loopsInv_pairFlushed {m : Loops} {attempt : Nat} {pair : Pair} {todo : List Pair}
    (hinv : LoopsInv m) (hpc : m.flush = .flushing attempt (pair :: todo))
    : LoopsInv { m with flush := .flushing attempt todo, visited := pair :: m.visited } := by
  have hround := hinv.round
  unfold RoundSound at hround
  rw [hpc] at hround
  obtain ⟨pairs, hactive, htodo⟩ := hround
  refine ⟨fun _ => trivial, pairs, hactive, ?_⟩
  intro pair' hpair'
  dsimp only
  cases htodo pair' hpair' with
  | inl htodo =>
    rw [List.mem_cons] at htodo
    cases htodo with
    | inl heq => exact .inr (heq ▸ List.mem_cons_self)
    | inr htodo => exact .inl htodo
  | inr hvisited => exact .inr (List.mem_cons_of_mem _ hvisited)

theorem loopsInv_stepFlush {m m' : Loops} {e : Event} (hinv : LoopsInv m)
    (hfree : FlushKeyFree m e) (h : m.stepFlush e = some m') : LoopsInv m' := by
  have hround := hinv.round
  have hstep := h
  unfold RoundSound at hround
  unfold stepFlush at h
  split at h
  . next hpc =>
    split at h
    . cases h
      constructor
      . intro hkey
        exact absurd hkey (hinv.key_ne (by rw [flushInside, hpc]; exact id))
      . intro _
        rfl
    . cases h
  . next hpc => exact loopsInv_flushKeyTried hinv hpc hfree hstep
  . split at h
    . cases h
      exact ⟨fun _ => trivial, trivial⟩
    . cases h
  . split at h
    . next hperm =>
      cases h
      refine ⟨fun _ => trivial, ?_⟩
      exact ⟨m.activePairs, rfl, fun pair hpair => .inl (hperm.symm.subset hpair)⟩
    . cases h
  . next hpc =>
    cases h
    exact loopsInv_pairFlushed hinv hpc
  . next attempt hpc =>
    rw [hpc] at hround
    obtain ⟨pairs, hactive, htodo⟩ := hround
    cases h
    refine ⟨fun _ => trivial, ?_⟩
    rw [releaseLock_eq]
    exact ⟨pairs, hactive, fun pair hpair => (htodo pair hpair).resolve_left List.not_mem_nil⟩
  . next attempt hpc =>
    rw [hpc] at hround
    cases h
    constructor
    . intro hkey
      exact absurd hkey (key_closeSession _ _)
    . rw [closeSession_eq]
      exact fun _ => hround
  . cases h
    exact loopsInv_failAttempt m _
  . cases h
    exact loopsInv_failAttempt m _
  . cases h
    exact loopsInv_failAttempt m _
  . cases h
    exact loopsInv_failAttempt m _
  . next attempt hpc =>
    rw [hpc] at hround
    cases h
    constructor
    . intro hkey
      exact absurd hkey (hinv.key_ne (by rw [flushInside, hpc]; exact id))
    . intro hraised
      dsimp only at hraised hround
      rw [hround] at hraised
      cases hraised
  . next hpc =>
    cases h
    constructor
    . intro hkey
      exact absurd hkey (hinv.key_ne (by rw [flushInside, hpc]; exact id))
    . cases hrunning : m.running with
      | true => exact trivial
      | false => exact trivial
  . cases h

theorem loopsInv_step {m m' : Loops} {e : Event} (hinv : LoopsInv m) (hfree : FlushKeyFree m e)
    (h : m.step e = some m') : LoopsInv m' := by
  unfold step at h
  split at h
  . cases h
    exact ⟨hinv.key, hinv.round⟩
  . cases h
    exact ⟨hinv.key, hinv.round⟩
  . cases h
    exact ⟨hinv.key, hinv.round⟩
  all_goals first | exact loopsInv_stepChecker hinv h | exact loopsInv_stepFlush hinv hfree h

theorem flushRuns_of_loopsInv {m : Loops} (hinv : LoopsInv m) : FlushRuns m := by
  intro hpc
  have hround := hinv.round
  rw [RoundSound, hpc] at hround
  exact hround

theorem stepFlush_flushKeyTried {m m' : Loops} {supported : Bool}
    (h : m.stepFlush (.flushKeyTried supported) = some m')
    : ∃ attempt, m.flush = .tryKey attempt ∧
        m' = { (m.tryKey .flush supported).1 with
          flush := if (m.tryKey .flush supported).2 then .awaitLock attempt else .catchUp } := by
  unfold stepFlush at h
  split at h
  case h_2 attempt _ hpc heq =>
    cases heq
    exact ⟨attempt, hpc, (Option.some.inj h).symm⟩
  all_goals contradiction

theorem not_flushRuns_of_held {m m' : Loops} {e : Event} (hinv : LoopsInv m)
    (hheld : ¬ FlushKeyFree m e) (h : m.step e = some m') : ¬ FlushRuns m' := by
  unfold FlushKeyFree at hheld
  push Not at hheld
  obtain ⟨htries, hkey, hraised⟩ := hheld
  cases e with
  | flushKeyTried supported =>
    obtain rfl : supported = true := htries
    have htry : m.tryKey .flush true = (m, false) := by
      unfold tryKey
      rw [hkey]
      rfl
    obtain ⟨attempt, hpc, rfl⟩ := stepFlush_flushKeyTried h
    have hactive : m.active = none := by
      have hround := hinv.round
      rw [RoundSound, hpc] at hround
      exact hround (Bool.eq_false_iff.mpr hraised)
    intro hnot
    rw [htry] at hnot
    obtain ⟨pairs, hpairs, _⟩ := hnot rfl (Bool.eq_false_iff.mpr hraised)
    dsimp only at hpairs
    rw [hactive] at hpairs
    cases hpairs
  | _ => cases htries

def start (now : WallTime) (activePairs : List Pair) : Loops where
  now := now
  running := true
  activePairs := activePairs
  key := none
  notifyLock := none
  checker := .sleeping
  flush := .waiting now.nextTarget
  raised := false
  active := none
  visited := []

/--
In a run of the loops the flush is never dropped if and only if it never asks for the key while a cycle
of the checker has it.
-/
theorem flushRuns_iff_flushKeyFree {now : WallTime} {activePairs : List Pair}
    {es : List Event} {m : Loops} (hrun : Run.exec step (start now activePairs) es = some m)
    : Run.Always step FlushRuns (start now activePairs) es
        ↔
      Run.StepsMeet step FlushKeyFree (start now activePairs) es := by
  apply Run.always_iff_stepsMeet (I := LoopsInv) loopsInv_step flushRuns_of_loopsInv
    not_flushRuns_of_held _ hrun
  exact ⟨nofun, trivial⟩

def busyMorning : List Event := [
  .checkerWoke,
  .polled true,
  .checkerKeyTried true,
  .checkerLocked,
  .clock (6 * hourUs),
  .targetReached,
  .flushKeyTried true]

theorem flushRuns_iff_flushKeyFree_busyMorning
    : Run.Always step FlushRuns (start 0 [("kyiv", "1.1")]) busyMorning
        ↔
      Run.StepsMeet step FlushKeyFree (start 0 [("kyiv", "1.1")]) busyMorning :=
  flushRuns_iff_flushKeyFree (Option.some_get (by decide +kernel)).symm

theorem not_flushRuns_busyMorning
    : ∃ m, Run.exec step (start 0 [("kyiv", "1.1")]) busyMorning = some m ∧
        ¬ FlushRuns m := by
  have hrun
      : (Run.exec step (start 0 [("kyiv", "1.1")]) busyMorning).map
          (fun m => (m.flush, m.raised, m.active)) = some (.catchUp, false, none) := by
    decide +kernel
  obtain ⟨m, hm, hproj⟩ := Option.map_eq_some_iff.mp hrun
  simp only [Prod.mk.injEq] at hproj
  obtain ⟨hpc, hraised, hactive⟩ := hproj
  refine ⟨m, hm, ?_⟩
  intro hnot
  obtain ⟨pairs, hpairs, _⟩ := hnot hpc hraised
  rw [hactive] at hpairs
  cases hpairs

end Loops
end Scheduler
