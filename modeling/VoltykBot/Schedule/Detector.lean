import Mathlib.Data.List.Basic
import VoltykBot.Lib.Run
import VoltykBot.Schedule.Clock

/-!
This module contains the detector of new commits in the source repository, the cycle of the schedule
checker that it starts, and what becomes of a commit when the cycle does not succeed.
-/

namespace Scheduler

inductive CommitsBody where
  | unreadable
  | tooLarge
  | emptyOrNoList
  | unexpected
  | commits (sha : String)
  deriving DecidableEq, Repr

inductive PollAnswer where
  | notModified
  | ok (etag : Option String) (body : CommitsBody)
  | otherStatus
  | raised
  deriving DecidableEq, Repr

/--
What a call of `fetch_schedule_data` comes to: data from the source, data of the cache behind an open
circuit breaker, `None` or an exception.
-/
inductive Fetched where
  | fresh
  | stale
  | missing
  | raised
  deriving DecidableEq, Repr

def Fetched.isData (f : Fetched) : Bool :=
  match f with
  | .fresh => true
  | .stale => true
  | _ => false

inductive SaveTask where
  | created
  | readSha (sha : Option String)
  | readEtag (sha : Option String) (etag : Option String)
  deriving DecidableEq, Repr

/--
Where `schedule_checker_loop` stands. `checking` has the results of the parallel fetch, the pairs that
are left, and whether all pairs so far were checked with data from the source.
-/
inductive CyclePc where
  | sleeping
  | polling
  | skipped
  | tryKey
  | loading
  | fetching (pairs : List Pair)
  | checking (data : List (String × Fetched)) (todo : List Pair) (allFresh : Bool)
  deriving DecidableEq, Repr

/--
The detector, its two settings in the database, and the cycle. `owed` records that no cycle has checked
all active pairs with data from the source since the last new SHA was observed.
-/
structure Detector where
  lastCommitSha : Option String := none
  lastEtag : Option String := none
  savedSha : Option String := none
  savedEtag : Option String := none
  saves : List SaveTask := []
  activePairs : List Pair := []
  pc : CyclePc := .sleeping
  owed : Bool := false

def truthy (s : Option String) : Option String := s.filter (· ≠ "")

namespace Detector

inductive Event where
  | usersChanged (activePairs : List Pair)
  | woke
  | polled (answer : PollAnswer)
  | slept
  | keyTried (acquired : Bool)
  | pairsLoaded (pairs : List Pair)
  | regionsFetched (data : List (String × Fetched))
  | pairChecked (refetched : Fetched)
  | cycleEnded
  | cycleRaised
  | saveRead (task : Nat)
  | saveCommitted (task : Nat)
  | saveFailed (task : Nat)
  | restarted (loaded : Bool)

def observeSha (m : Detector) (sha : String) : Detector :=
  { m with lastCommitSha := some sha, saves := m.saves ++ [.created], owed := true }

def storeEtag (m : Detector) (etag : Option String) : Detector :=
  { m with lastEtag := (truthy etag).or m.lastEtag }

def checkSourceRepoUpdated (m : Detector) (answer : PollAnswer) : Detector × Bool × Option String :=
  match answer with
  | .notModified => (m, false, none)
  | .ok etag (.commits sha) =>
    let m := m.storeEtag etag
    match m.lastCommitSha with
    | none => (m.observeSha sha, true, none)
    | some lastSha =>
      if sha ≠ lastSha then (m.observeSha sha, true, some sha) else (m, false, none)
  | .ok etag _ => (m.storeEtag etag, true, none)
  | .otherStatus => (m, true, none)
  | .raised => (m, true, none)

def dataOf (data : List (String × Fetched)) (pair : Pair) (refetched : Fetched) : Fetched :=
  -- a region without data is fetched once more for each of its pairs
  match data.lookup pair.1 with
  | some fetched => if fetched.isData then fetched else refetched
  | none => refetched

def stepCycle (m : Detector) (e : Event) : Option Detector :=
  match m.pc, e with
  | .sleeping, .woke => some { m with pc := .polling }
  | .polling, .polled answer =>
    let r := m.checkSourceRepoUpdated answer
    some { r.1 with pc := if r.2.1 then .tryKey else .skipped }
  | .skipped, .slept => some { m with pc := .sleeping }
  | .tryKey, .keyTried acquired => some { m with pc := if acquired then .loading else .sleeping }
  | .loading, .pairsLoaded pairs =>
    if pairs.Perm m.activePairs then some { m with pc := .fetching pairs } else none
  | .fetching pairs, .regionsFetched data =>
    if ∀ pair ∈ pairs, pair.1 ∈ data.map (·.1) then
      some { m with pc := .checking data pairs true }
    else
      none
  | .checking data (pair :: todo) allFresh, .pairChecked refetched =>
    let fresh := decide (dataOf data pair refetched = .fresh)
    some { m with pc := .checking data todo (allFresh && fresh) }
  | .checking _ [] allFresh, .cycleEnded =>
    some { m with pc := .sleeping, owed := m.owed && !allFresh }
  | .sleeping, .cycleRaised => none
  | .skipped, .cycleRaised => none
  | _, .cycleRaised => some { m with pc := .sleeping }
  | _, _ => none

def readForSave (m : Detector) (task : SaveTask) : Option SaveTask :=
  -- the SHA and the ETag are read one after the other
  match task with
  | .created => some (.readSha (truthy m.lastCommitSha))
  | .readSha sha => some (.readEtag sha (truthy m.lastEtag))
  | .readEtag _ _ => none

def stepSave (m : Detector) (e : Event) : Option Detector :=
  match e with
  | .saveRead i => do
    let task ← m.saves[i]?
    let task ← m.readForSave task
    some { m with saves := m.saves.set i task }
  | .saveCommitted i =>
    match m.saves[i]? with
    | some (.readEtag sha etag) => some { m with
        savedSha := sha.or m.savedSha
        savedEtag := etag.or m.savedEtag
        saves := m.saves.eraseIdx i }
    | _ => none
  | .saveFailed i => if i < m.saves.length then some { m with saves := m.saves.eraseIdx i } else none
  | _ => none

/--
The process dies and a new one runs `load_last_commit_sha`, which leaves the state empty if the
settings cannot be read.
-/
def restart (m : Detector) (loaded : Bool) : Detector :=
  { m with
    lastCommitSha := if loaded then truthy m.savedSha else none
    lastEtag := if loaded then truthy m.savedEtag else none
    saves := []
    pc := .sleeping }

def step (m : Detector) (e : Event) : Option Detector :=
  match e with
  | .usersChanged activePairs => some { m with activePairs := activePairs }
  | .saveRead _ => m.stepSave e
  | .saveCommitted _ => m.stepSave e
  | .saveFailed _ => m.stepSave e
  | .restarted loaded => some (m.restart loaded)
  | e => m.stepCycle e

/--
A cycle is skipped only if the last observed SHA got its full check.
-/
def NoCommitDropped (m : Detector) : Prop :=
  m.pc = .skipped → m.owed = false

def failsCycle (m : Detector) (e : Event) : Bool :=
  match e with
  | .keyTried acquired => !acquired
  | .cycleRaised => true
  | .cycleEnded =>
    match m.pc with
    | .checking _ _ allFresh => !allFresh
    | _ => false
  | .restarted _ => true
  | _ => false

/--
No cycle fails that owes an observed SHA its full check.
-/
def CycleSucceeds (m : Detector) (e : Event) : Prop :=
  m.owed = true → m.failsCycle e = false

instance (m : Detector) (e : Event) : Decidable (CycleSucceeds m e) :=
  inferInstanceAs (Decidable (_ → _))

def cycleInside (m : Detector) : Prop :=
  match m.pc with
  | .tryKey => True
  | .loading => True
  | .fetching _ => True
  | .checking _ _ _ => True
  | _ => False

def OwedInside (m : Detector) : Prop :=
  m.owed = true → m.cycleInside

theorem owed_checkSourceRepoUpdated {m : Detector} {answer : PollAnswer}
    : (m.checkSourceRepoUpdated answer).2.1 = false →
        (m.checkSourceRepoUpdated answer).1.owed = m.owed := by
  unfold checkSourceRepoUpdated
  split
  . intro _
    rfl
  . dsimp only
    split
    . nofun
    . split
      . nofun
      . intro _
        rfl
  . nofun
  . nofun
  . nofun

theorem owedInside_stepCycle {m m' : Detector} {e : Event} (hinv : OwedInside m)
    (hsucceeds : CycleSucceeds m e) (h : m.stepCycle e = some m') : OwedInside m' := by
  have houtside (hpc : ¬ m.cycleInside) : m.owed = false := by
    apply Bool.eq_false_iff.mpr
    intro howed
    exact hpc (hinv howed)
  unfold cycleInside at houtside
  unfold stepCycle at h
  split at h
  . next hpc =>
    rw [hpc] at houtside
    cases h
    intro howed
    exact absurd howed (Bool.eq_false_iff.mp (houtside id))
  . next answer hpc =>
    rw [hpc] at houtside
    cases h
    intro howed
    cases hupdate : (m.checkSourceRepoUpdated answer).2.1 with
    | true => exact trivial
    | false =>
      dsimp only at howed
      rw [owed_checkSourceRepoUpdated hupdate, houtside id] at howed
      cases howed
  . next hpc =>
    rw [hpc] at houtside
    cases h
    intro howed
    exact absurd howed (Bool.eq_false_iff.mp (houtside id))
  . next acquired hpc =>
    cases h
    intro howed
    cases acquired with
    | true => trivial
    | false => cases hsucceeds howed
  . split at h
    . cases h
      intro _
      trivial
    . cases h
  . split at h
    . cases h
      intro _
      trivial
    . cases h
  . cases h
    intro _
    trivial
  . next data allFresh hpc =>
    cases h
    intro howed
    dsimp only at howed
    rw [Bool.and_eq_true] at howed
    have hfails := hsucceeds howed.1
    rw [failsCycle, hpc] at hfails
    dsimp only at hfails
    rw [hfails] at howed
    cases howed.2
  . cases h
  . cases h
  . cases h
    intro howed
    cases hsucceeds howed
  . cases h

theorem owedInside_stepSave {m m' : Detector} {e : Event} (hinv : OwedInside m)
    (h : m.stepSave e = some m') : OwedInside m' := by
  have hframe : m'.pc = m.pc ∧ m'.owed = m.owed := by
    unfold stepSave at h
    split at h
    . simp only [Option.bind_eq_bind, Option.bind_eq_some_iff] at h
      obtain ⟨_, _, _, _, h⟩ := h
      cases h
      exact ⟨rfl, rfl⟩
    . split at h
      . cases h
        exact ⟨rfl, rfl⟩
      . cases h
    . split at h
      . cases h
        exact ⟨rfl, rfl⟩
      . cases h
    . cases h
  intro howed
  rw [hframe.2] at howed
  rw [cycleInside, hframe.1]
  exact hinv howed

theorem owedInside_step {m m' : Detector} {e : Event} (hinv : OwedInside m)
    (hsucceeds : CycleSucceeds m e) (h : m.step e = some m') : OwedInside m' := by
  unfold step at h
  split at h
  . cases h
    exact hinv
  . exact owedInside_stepSave hinv h
  . exact owedInside_stepSave hinv h
  . exact owedInside_stepSave hinv h
  . cases h
    intro howed
    cases hsucceeds howed
  . exact owedInside_stepCycle hinv hsucceeds h

theorem noCommitDropped_of_owedInside {m : Detector} (hinv : OwedInside m) : NoCommitDropped m := by
  intro hpc
  apply Bool.eq_false_iff.mpr
  intro howed
  have hinside := hinv howed
  rw [cycleInside, hpc] at hinside
  exact hinside

/--
In a run in which every cycle that observes a SHA succeeds, no cycle is skipped before the last
observed SHA got its full check.
-/
theorem noCommitDropped_of_cycleSucceeds {activePairs : List Pair} {es : List Event}
    (hsucceeds : Run.StepsMeet step CycleSucceeds { activePairs := activePairs } es)
    : Run.Always step NoCommitDropped { activePairs := activePairs } es := by
  apply Run.always_of_stepsMeet owedInside_step noCommitDropped_of_owedInside _ hsucceeds
  intro howed
  cases howed

def firstCheck : List Event := [
  .woke,
  .polled (.ok (some "e1") (.commits "a1")),
  .keyTried true,
  .pairsLoaded [("kyiv", "1.1")],
  .regionsFetched [("kyiv", .fresh)],
  .pairChecked .missing,
  .cycleEnded,
  .woke,
  .polled .notModified]

theorem noCommitDropped_firstCheck
    : Run.Always step NoCommitDropped { activePairs := [("kyiv", "1.1")] } firstCheck :=
  noCommitDropped_of_cycleSucceeds (by decide +kernel)

theorem not_noCommitDropped_denied
    : ∃ m, Run.exec step { activePairs := [("kyiv", "1.1")] }
          [.woke, .polled (.ok (some "e1") (.commits "a1")), .keyTried false, .woke,
            .polled .notModified] = some m ∧
        ¬ NoCommitDropped m := by
  refine ⟨_, rfl, ?_⟩
  intro h
  cases h rfl

end Detector
end Scheduler
