import Mathlib.Data.List.AList
import Mathlib.Data.List.Sort

/-!
This module contains the data of the power monitor: the state dicts that `_user_states` holds, the
rows of `user_power_states` and `user_power_tracking`, and the conversions between dicts and rows.
-/

namespace PowerMonitor

/--
An instant, in microseconds. Aware datetimes compare by the instant they denote.
-/
abbrev Time := Int

def seconds (n : Int) : Time := n * 1000000

abbrev TelegramId := String

/--
The identity of a state dict. A coroutine that captured a dict keeps it after the dict has been popped
from `_user_states`.
-/
abbrev Ref := Nat

abbrev TaskId := Nat

inductive PowerState where
  | on
  | off
  deriving DecidableEq, Repr

def PowerState.ofAvailable (isAvailable : Bool) : PowerState :=
  if isAvailable then .on else .off

/--
A text handed to `datetime.fromisoformat`: it either spells an instant or is rejected.
-/
inductive IsoText where
  | iso (t : Time)
  | malformed (raw : String)
  deriving DecidableEq, Repr

def IsoText.fromisoformat (s : IsoText) : Option Time :=
  match s with
  | .iso t => some t
  | .malformed _ => none

inductive Stamp where
  | datetime (t : Time)
  | text (s : IsoText)
  deriving DecidableEq, Repr

def Stamp.timestamp (s : Stamp) : Option Time :=
  match s with
  | .datetime t => some t
  | .text s => s.fromisoformat

structure Settings where
  powerMinStabilizationS : Nat := 30
  powerNotificationCooldownS : Nat := 60
  userStatesMax : Nat := 200000
  userStatesStaleHours : Nat := 48

def Settings.userStatesStaleAfter (cfg : Settings) : Time := seconds (cfg.userStatesStaleHours * 3600)

/--
A state dict of `_user_states`. The defaults are those of `_get_user_state`.
-/
structure UserState where
  currentState : Option PowerState := none
  lastChangeAt : Option Stamp := none
  consecutiveChecks : Nat := 0
  isFirstCheck : Bool := true
  pendingState : Option PowerState := none
  pendingStateTime : Option Time := none
  originalChangeTime : Option Time := none
  debounceTask : Option TaskId := none
  instabilityStart : Option Time := none
  switchCount : Nat := 0
  lastStableState : Option PowerState := none
  lastStableAt : Option Time := none
  lastPingTime : Option Stamp := none
  lastPingSuccess : Option Bool := none
  lastNotificationAt : Option IsoText := none
  deriving DecidableEq

structure SavedFields where
  currentState : Option PowerState
  pendingState : Option PowerState
  pendingStateTime : Option Time
  lastStableState : Option PowerState
  lastStableAt : Option Time
  instabilityStart : Option Time
  switchCount : Nat
  lastNotificationAt : Option Time
  deriving DecidableEq

def UserState.savedFields (st : UserState) : SavedFields where
  currentState := st.currentState
  pendingState := st.pendingState
  pendingStateTime := st.pendingStateTime
  lastStableState := st.lastStableState
  lastStableAt := st.lastStableAt
  instabilityStart := st.instabilityStart
  switchCount := st.switchCount
  lastNotificationAt := st.lastNotificationAt.bind IsoText.fromisoformat

structure UserPowerStateRow where
  fields : SavedFields
  updatedAt : Time
  deriving DecidableEq

def UserPowerStateRow.restored (row : UserPowerStateRow) : UserState where
  currentState := row.fields.currentState
  lastChangeAt := none
  consecutiveChecks := 0
  isFirstCheck := false
  pendingState := row.fields.pendingState
  pendingStateTime := row.fields.pendingStateTime
  originalChangeTime := row.fields.pendingStateTime
  debounceTask := none
  instabilityStart := row.fields.instabilityStart
  switchCount := row.fields.switchCount
  lastStableState := row.fields.lastStableState
  lastStableAt := row.fields.lastStableAt
  lastPingTime := none
  lastPingSuccess := none
  lastNotificationAt := row.fields.lastNotificationAt.map IsoText.iso

@[simp]
theorem savedFields_restored (row : UserPowerStateRow) : row.restored.savedFields = row.fields := by
  rcases row with ⟨⟨_, _, _, _, _, _, _, lastNotificationAt⟩, _⟩
  cases lastNotificationAt with
  | none => rfl
  | some t => rfl

/--
`_state_last_touch_ts`: 0 stands for a state without a usable timestamp.
-/
def stateLastTouchTs (st : UserState) : Time :=
  match st.lastChangeAt.bind Stamp.timestamp with
  | some t => t
  | none =>
    match st.lastPingTime.bind Stamp.timestamp with
    | some t => t
    | none => 0

def defaultDebounceS : Int := 5 * 60

/--
`_get_debounce_seconds`. The argument is what `int` reads from the setting `power_debounce_minutes`,
`none` when the setting is missing or `int` rejects it.
-/
def getDebounceSeconds (val : Option Int) : Int :=
  match val with
  | some n => if 0 ≤ n then n * 60 else defaultDebounceS
  | none => defaultDebounceS

structure PowerTracking where
  powerState : Option PowerState := none
  powerChangedAt : Option Time := none
  pendingPowerState : Option PowerState := none
  pendingPowerChangeAt : Option Time := none
  deriving DecidableEq

structure User where
  id : Nat
  telegramId : TelegramId
  routerIp : String
  powerTracking : Option PowerTracking := none
  deriving DecidableEq

structure PowerHistory where
  telegramId : TelegramId
  eventType : PowerState
  timestamp : Time
  durationSeconds : Option Int
  deriving DecidableEq

/--
`duration` is the interval that `duration_minutes` is computed from.
-/
structure PowerResult where
  powerChangedAt : Time
  duration : Option Time
  deriving DecidableEq

/--
The row `change_power_state_and_get_duration` leaves behind, and what it returns, for a statement that
runs at `now`.
-/
def changePowerStateAndGetDuration (old : PowerTracking) (newState : PowerState) (now : Time)
    : PowerTracking × PowerResult :=
  let newChangedAt := old.pendingPowerChangeAt.getD now
  ⟨
    { old with
      powerState := some newState
      powerChangedAt := some newChangedAt
      pendingPowerState := none
      pendingPowerChangeAt := none },
    { powerChangedAt := newChangedAt
      duration := old.powerChangedAt.map (newChangedAt - ·) }
  ⟩

end PowerMonitor
