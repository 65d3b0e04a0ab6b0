import VoltykBot.Power.Monitor

/-!
This module contains the weekly statistics of a user, and what their total is made of.
-/

namespace PowerMonitor

/--
A change that `_handle_power_state_change` records. `pending` is the user's `pending_power_change_at` then,
`statementAt` is `NOW()` of the update, and `handledAt` is the handler's own time.
-/
structure Change where
  newState : PowerState
  pending : Option Time
  statementAt : Time
  handledAt : Time
  deriving DecidableEq

def Change.changedAt (c : Change) : Time := c.pending.getD c.statementAt

namespace Monitor

def found (m : Monitor) (tid : TelegramId) (c : Change) : Monitor :=
  let pend (row : PowerTracking) := { row with pendingPowerChangeAt := c.pending }
  { m with
    now := c.statementAt
    powerTracking := Function.update m.powerTracking tid ((m.powerTracking tid).map pend) }

def recorded (tid : TelegramId) (m : Monitor) (c : Change) : Monitor :=
  ((m.found tid c).powerStateChanged tid c.newState c.handledAt).1

def recordedAll (tid : TelegramId) (m : Monitor) (changes : List Change) : Monitor :=
  changes.foldl (recorded tid) m

/--
`int(cutoff.timestamp())`, seven days before `now`. `timestamp` takes the naive UTC time for the local time
of the process, which is `localOffset` ahead.
-/
def weekCutoff (localOffset now : Time) : Int :=
  (now - seconds (7 * 24 * 3600) - localOffset).tdiv (seconds 1)

/--
The order is the one of the insertions, the newest first, which the statistics do not look at.
-/
def getPowerHistoryWeek (m : Monitor) (tid : TelegramId) (cutoff : Int) : List PowerHistory :=
  m.powerHistory.filter fun row => row.telegramId = tid ∧ cutoff ≤ row.timestamp

end Monitor

/-! ## `stats_week` -/

def offEvents (history : List PowerHistory) : List PowerHistory :=
  history.filter (·.eventType = .off)

def totalSeconds (history : List PowerHistory) : Int :=
  ((offEvents history).map (·.durationSeconds.getD 0)).foldr (· + ·) 0

def statsWeek (history : List PowerHistory) : String :=
  let totalOutages := (offEvents history).length
  let totalHours := totalSeconds history / 3600
  let totalMinutes := totalSeconds history % 3600 / 60
  if totalOutages = 0 then
    "⚡ Відключення за тиждень\n\nЗа останні 7 днів відключень не зафіксовано."
  else
    "⚡ Відключення за тиждень\n\n" ++
    "📊 Кількість відключень: " ++ toString totalOutages ++ "\n" ++
    "⏱ Загальний час без світла: " ++ toString totalHours ++ "г " ++ toString totalMinutes ++ "хв"

def wholeSeconds (interval : Time) : Int := interval.tdiv (seconds 1)

/--
The completed periods in which the power was in the state `s`: from each change to `s` to the change that
follows it.
-/
def periods (s : PowerState) (changes : List Change) : List Time :=
  match changes with
  | [] => []
  | [_] => []
  | c :: c' :: changes =>
    if c.newState = s then
      (c'.changedAt - c.changedAt) :: periods s (c' :: changes)
    else
      periods s (c' :: changes)

def Alternating (changes : List Change) : Prop :=
  changes.IsChain (·.newState ≠ ·.newState)

instance (changes : List Change) : Decidable (Alternating changes) :=
  inferInstanceAs (Decidable (List.IsChain _ _))

/--
The period before the first change, if that one is an outage and the row knows when the period began.
-/
def firstPeriod (since : Option Time) (changes : List Change) : List Time :=
  match since, changes with
  | some t, c :: _ => if c.newState = .off then [c.changedAt - t] else []
  | _, _ => []

def onPeriods (since : Option Time) (changes : List Change) : List Time :=
  firstPeriod since changes ++ periods .on changes

namespace Monitor

variable {m : Monitor} {tid : TelegramId} {row : PowerTracking} {c : Change} {cutoff : Int}

theorem powerTracking_recorded (hrow : m.powerTracking tid = some row)
    : (m.recorded tid c).powerTracking tid = some {
        row with
        powerState := some c.newState
        powerChangedAt := some c.changedAt
        pendingPowerState := none
        pendingPowerChangeAt := none } := by
  unfold recorded found powerStateChanged changePowerStateAndGetDuration
  simp [hrow, Change.changedAt]

theorem powerHistory_recorded (hrow : m.powerTracking tid = some row)
    : (m.recorded tid c).powerHistory = {
        telegramId := tid
        eventType := c.newState
        timestamp := c.handledAt / seconds 1
        durationSeconds := row.powerChangedAt.map fun t => durationSeconds (c.changedAt - t) } ::
          m.powerHistory := by
  unfold recorded found powerStateChanged changePowerStateAndGetDuration
  simp [hrow, Change.changedAt, Function.comp_def]

def weekSeconds (m : Monitor) (tid : TelegramId) (cutoff : Int) : Int :=
  totalSeconds (m.getPowerHistoryWeek tid cutoff)

theorem weekSeconds_recorded (hrow : m.powerTracking tid = some row)
    (hweek : cutoff ≤ c.handledAt / seconds 1)
    : (m.recorded tid c).weekSeconds tid cutoff =
        ((firstPeriod row.powerChangedAt [c]).map durationSeconds).sum + m.weekSeconds tid cutoff := by
  unfold weekSeconds getPowerHistoryWeek
  rw [powerHistory_recorded hrow, List.filter_cons_of_pos (by simpa using hweek)]
  unfold totalSeconds offEvents firstPeriod
  cases hstate : c.newState with
  | on =>
    rw [List.filter_cons_of_neg (by simp)]
    cases row.powerChangedAt <;> simp [hstate]
  | off =>
    rw [List.filter_cons_of_pos (by simp), List.map_cons, List.foldr_cons]
    cases row.powerChangedAt <;> simp [hstate]

end Monitor

theorem onPeriods_cons {since : Option Time} {c : Change} {changes : List Change}
    (halternating : Alternating (c :: changes))
    : onPeriods since (c :: changes) = firstPeriod since [c] ++ onPeriods (some c.changedAt) changes := by
  have hfirst : firstPeriod since (c :: changes) = firstPeriod since [c] := by
    unfold firstPeriod
    cases since <;> rfl
  unfold onPeriods
  rw [hfirst]
  cases changes with
  | nil => simp [periods, firstPeriod]
  | cons c' changes =>
    have hne : c.newState ≠ c'.newState := (List.isChain_cons_cons.mp halternating).1
    conv => lhs; unfold periods
    unfold firstPeriod
    cases hc : c.newState with
    | on =>
      have hoff : c'.newState = .off := by
        cases hc' : c'.newState with
        | on => exact absurd (hc.trans hc'.symm) hne
        | off => rfl
      simp [hoff]
    | off =>
      have hon : c'.newState ≠ .off := fun hoff => hne (hc.trans hoff.symm)
      simp [hon]

theorem weekSeconds_recordedAll {m : Monitor} {tid : TelegramId} {row : PowerTracking}
    {changes : List Change} {cutoff : Int} (hrow : m.powerTracking tid = some row)
    (hweek : ∀ c ∈ changes, cutoff ≤ c.handledAt / seconds 1) (halternating : Alternating changes)
    : (m.recordedAll tid changes).weekSeconds tid cutoff =
        ((onPeriods row.powerChangedAt changes).map durationSeconds).sum + m.weekSeconds tid cutoff := by
  induction changes generalizing m row with
  | nil => simp [Monitor.recordedAll, onPeriods, firstPeriod, periods]
  | cons c changes ih =>
    have hrest := ih (Monitor.powerTracking_recorded hrow (c := c))
      (fun c' hc' => hweek c' (List.mem_cons_of_mem c hc')) (List.IsChain.of_cons halternating)
    dsimp only at hrest
    show ((m.recorded tid c).recordedAll tid changes).weekSeconds tid cutoff = _
    rw [hrest, Monitor.weekSeconds_recorded hrow (hweek c List.mem_cons_self), onPeriods_cons halternating,
      List.map_append, List.sum_append]
    omega

/--
The total that `stats_week` reports is the time of the completed outages if and only if the periods with
power that the outages ended were as long, in the seconds of their rows.
-/
theorem weekSeconds_eq_iff {m : Monitor} {tid : TelegramId} {row : PowerTracking} {changes : List Change}
    {cutoff : Int} (hrow : m.powerTracking tid = some row)
    (hearlier : ∀ h ∈ m.powerHistory, h.telegramId = tid → h.timestamp < cutoff)
    (hweek : ∀ c ∈ changes, cutoff ≤ c.handledAt / seconds 1) (halternating : Alternating changes)
    : totalSeconds ((m.recordedAll tid changes).getPowerHistoryWeek tid cutoff) =
        ((periods .off changes).map wholeSeconds).sum
        ↔
      ((onPeriods row.powerChangedAt changes).map durationSeconds).sum =
        ((periods .off changes).map wholeSeconds).sum := by
  have hempty : m.getPowerHistoryWeek tid cutoff = [] := by
    unfold Monitor.getPowerHistoryWeek
    rw [List.filter_eq_nil_iff]
    intro h hh
    rw [decide_eq_true_eq, not_and, not_le]
    exact hearlier h hh
  have hzero : m.weekSeconds tid cutoff = 0 := by
    unfold Monitor.weekSeconds
    rw [hempty]
    rfl
  have htotal := weekSeconds_recordedAll hrow hweek halternating
  rw [hzero, Int.add_zero] at htotal
  unfold Monitor.weekSeconds at htotal
  rw [htotal]

def sinceNine : Monitor where
  now := seconds (9 * 3600)
  powerTracking := fun _ => some { powerState := some .on, powerChangedAt := some (seconds (9 * 3600)) }

def changeAt (newState : PowerState) (hour : Int) : Change where
  newState := newState
  pending := some (seconds (hour * 3600))
  statementAt := seconds (hour * 3600 + 300)
  handledAt := seconds (hour * 3600 + 300)

theorem weekSeconds_eq_iff_hourly
    : totalSeconds ((sinceNine.recordedAll "1" [changeAt .off 10, changeAt .on 11]).getPowerHistoryWeek "1" 0) =
        ((periods .off [changeAt .off 10, changeAt .on 11]).map wholeSeconds).sum := by
  refine (weekSeconds_eq_iff rfl ?_ ?_ ?_).mpr ?_
  . nofun
  . decide
  . decide
  . decide +kernel

/--
The row of a change holds the whole seconds since the change before it, or one less where nothing is cut off,
and the message shows the whole minutes.
-/
theorem durations_of_recorded {m : Monitor} {tid : TelegramId} {row : PowerTracking} {c : Change}
    {since : Time} (hrow : m.powerTracking tid = some row) (hsince : row.powerChangedAt = some since)
    (hle : since ≤ c.changedAt) (hbound : c.changedAt - since ≤ seconds (10 ^ 9))
    : ∃ history s, (m.recorded tid c).powerHistory = history :: m.powerHistory ∧
        history.durationSeconds = some s ∧
        (s = wholeSeconds (c.changedAt - since) ∨
          seconds 1 ∣ c.changedAt - since ∧ s = wholeSeconds (c.changedAt - since) - 1) ∧
        ⌊Binary64.nearest (durationMinutes (c.changedAt - since))⌋ = (c.changedAt - since) / seconds 60 := by
  have hinterval : 0 ≤ c.changedAt - since := Int.sub_nonneg_of_le hle
  have hwhole : wholeSeconds (c.changedAt - since) = (c.changedAt - since) / seconds 1 := by
    unfold wholeSeconds
    exact Int.tdiv_eq_ediv_of_nonneg hinterval
  refine ⟨_, durationSeconds (c.changedAt - since), Monitor.powerHistory_recorded hrow, ?_, ?_, ?_⟩
  . simp [hsince]
  . rw [hwhole]
    exact durationSeconds_cases hinterval hbound
  . exact floor_durationMinutes hinterval hbound

theorem durations_of_recorded_hourly
    : ∃ history s, (sinceNine.recorded "1" (changeAt .off 10)).powerHistory = history :: sinceNine.powerHistory ∧
        history.durationSeconds = some s ∧
        (s = wholeSeconds (seconds 3600) ∨ seconds 1 ∣ seconds 3600 ∧ s = wholeSeconds (seconds 3600) - 1) ∧
        ⌊Binary64.nearest (durationMinutes (seconds 3600))⌋ = seconds 3600 / seconds 60 :=
  have hle : seconds (9 * 3600) ≤ (changeAt .off 10).changedAt := by decide
  durations_of_recorded (m := sinceNine) rfl rfl hle (by decide)

theorem not_weekSeconds_eq_fiveHours
    : Alternating [changeAt .off 10, changeAt .on 15] ∧
        totalSeconds ((sinceNine.recordedAll "1" [changeAt .off 10, changeAt .on 15]).getPowerHistoryWeek
          "1" 0) = 3600 ∧
        ((periods .off [changeAt .off 10, changeAt .on 15]).map wholeSeconds).sum = 5 * 3600 := by
  refine ⟨?_, ?_, ?_⟩
  . decide
  . decide +kernel
  . decide

end PowerMonitor
