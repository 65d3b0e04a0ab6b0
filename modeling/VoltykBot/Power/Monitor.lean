import VoltykBot.Power.Duration
import VoltykBot.Lib.Run

/-!
This module contains the power monitor of one process as a step function. A step runs one coroutine
from one `await` to the next; what the environment decides (ping results, outcomes of sessions, the
clock, who runs next, cancellation) is part of the event. Every body of `async with _user_states_lock`
is free of `await`, so waiting for the lock is a suspension point in front of an atomic step.
-/

namespace PowerMonitor

abbrev CallId := Nat

inductive CallPc where
  | lock (isAvailable : Bool)
  | writeInitial (newState : PowerState)
  | clearPending
  | setPending (ref : Ref) (newState : PowerState) (originalChangeTime : Time)
  | readDebounce (ref : Ref) (newState : PowerState)
  | storeTask (ref : Ref) (newState : PowerState) (oldState : Option PowerState) (debounceS : Int)
  deriving DecidableEq

def CallPc.window (pc : CallPc) : Option (Ref × PowerState) :=
  match pc with
  | .setPending ref newState _ => some (ref, newState)
  | .readDebounce ref newState => some (ref, newState)
  | .storeTask ref newState _ _ => some (ref, newState)
  | _ => none

structure Call where
  id : CallId
  user : User
  pc : CallPc
  deriving DecidableEq

/--
A `_check_ip_group` task of a cycle: its users still to be checked, in order, and the invocation of
`_check_user_power` it awaits.
-/
structure Group where
  ip : String
  users : List User
  ping : Option (Option Bool) := none
  call : Option Call := none
  deriving DecidableEq

def addToGroup (groups : List Group) (user : User) : List Group :=
  match groups with
  | [] => [{ ip := user.routerIp, users := [user] }]
  | g :: groups =>
    if g.ip = user.routerIp then
      { g with users := g.users ++ [user] } :: groups
    else
      g :: addToGroup groups user

def ipGroups (users : List User) : List Group :=
  users.foldl addToGroup []

/-- `_BATCH` -/
def batchLimit : Nat := 500

/--
What `get_users_with_ip_cursor` can return: rows of one statement in the order of their ids, with the
`telegram_id` unique among them.
-/
def IsBatch (afterId : Nat) (batch : List User) : Prop :=
  batch.length ≤ batchLimit ∧ (afterId :: batch.map (·.id)).Pairwise (· < ·) ∧
    (batch.map (·.telegramId)).Nodup ∧ ∀ u ∈ batch, u.routerIp ≠ ""

instance (afterId : Nat) (batch : List User) : Decidable (IsBatch afterId batch) :=
  inferInstanceAs (Decidable (_ ∧ _ ∧ _ ∧ _))

inductive CyclePc where
  | idle
  | loading (afterId : Nat) (users : List User)
  | evictInactive (users : List User)
  | evictStale (users : List User)
  | checking
  deriving DecidableEq

inductive HandlerPc where
  | start
  | stateUpdate (now : Time)
  | lookAhead (now changedAt : Time) (shouldNotify : Bool)
  | send (now changedAt : Time)
  | persistIds (changedAt : Time)
  deriving DecidableEq

inductive TaskKind where
  | confirmState (call : CallId) (telegramId : TelegramId) (ref : Ref) (newState : PowerState)
      (oldState : Option PowerState)
  | confirmRestored (telegramId : TelegramId) (newState : PowerState) (oldState : Option PowerState)
      (origDt : Option Time)
  deriving DecidableEq

inductive TaskPc where
  | sleeping (wakeAt : Time)
  | lock
  | loadUser (ref : Ref)
  | handling (ref : Ref) (originalChangeTime : Option Time) (pc : HandlerPc)
  deriving DecidableEq

structure Task where
  kind : TaskKind
  pc : TaskPc
  deriving DecidableEq

def TaskKind.telegramId (kind : TaskKind) : TelegramId :=
  match kind with
  | .confirmState _ tid _ _ _ => tid
  | .confirmRestored tid _ _ _ => tid

def TaskKind.newState (kind : TaskKind) : PowerState :=
  match kind with
  | .confirmState _ _ _ newState _ => newState
  | .confirmRestored _ newState _ _ => newState

def TaskPc.unconfirmed (pc : TaskPc) : Bool :=
  match pc with
  | .sleeping _ => true
  | .lock => true
  | _ => false

inductive FlushPc where
  | writing
  | committed
  deriving DecidableEq

structure Flush where
  saveIds : List TelegramId
  snapshot : List (TelegramId × UserState)
  startedAt : Time
  pc : FlushPc
  deriving DecidableEq

/--
What a run has done, for the statements about runs; no step reads it.
-/
inductive LogEntry where
  | observed (call : CallId) (telegramId : TelegramId) (state : PowerState) (at_ : Time)
      (setsPending : Bool)
  | debounceRead (call : CallId) (debounceS : Int)
  | confirmed (call : CallId) (telegramId : TelegramId) (state : PowerState) (at_ : Time)
      (originalChangeTime : Option Time)
  | restoredConfirmed (telegramId : TelegramId) (state : PowerState) (at_ : Time)
      (originalChangeTime : Option Time)
  deriving DecidableEq

/--
The state of the process and of the tables it writes. `owner` names the user a dict was created for,
`log` has the newest entry first; the code keeps neither.
-/
structure Monitor where
  now : Time
  userStates : AList (fun _ : TelegramId => Ref) := ∅
  dirtyStates : List TelegramId := []
  heap : Ref → UserState := fun _ => {}
  owner : Ref → TelegramId := fun _ => ""
  nextRef : Ref := 0
  tasks : TaskId → Option Task := fun _ => none
  nextTask : TaskId := 0
  cycle : CyclePc := .idle
  groups : List Group := []
  nextCall : CallId := 0
  flushes : List Flush := []
  userPowerStates : AList (fun _ : TelegramId => UserPowerStateRow) := ∅
  powerTracking : TelegramId → Option PowerTracking := fun _ => none
  powerHistory : List PowerHistory := []
  log : List LogEntry := []

namespace Monitor

def modify (m : Monitor) (ref : Ref) (f : UserState → UserState) : Monitor :=
  { m with heap := Function.update m.heap ref (f (m.heap ref)) }

def markDirty (m : Monitor) (tid : TelegramId) : Monitor :=
  { m with dirtyStates := m.dirtyStates.insert tid }

def record (m : Monitor) (entry : LogEntry) : Monitor :=
  { m with log := entry :: m.log }

def setTask (m : Monitor) (k : TaskId) (task : Option Task) : Monitor :=
  { m with tasks := Function.update m.tasks k task }

def createDebounceTask (m : Monitor) (ref : Ref) (task : Task) : Monitor :=
  let k := m.nextTask
  let m := { m with nextTask := k + 1 }
  (m.setTask k (some task)).modify ref fun st => { st with debounceTask := some k }

def createEntry (m : Monitor) (tid : TelegramId) (st : UserState) : Monitor :=
  { m with
    userStates := m.userStates.insert tid m.nextRef
    heap := Function.update m.heap m.nextRef st
    owner := Function.update m.owner m.nextRef tid
    nextRef := m.nextRef + 1 }

def getUserState (m : Monitor) (tid : TelegramId) : Monitor × Ref :=
  match m.userStates.lookup tid with
  | some ref => (m, ref)
  | none => ((m.createEntry tid {}).markDirty tid, m.nextRef)

/-- `task.done()` -/
def taskDone (m : Monitor) (k : TaskId) : Bool :=
  (m.tasks k).isNone

def cancelDebounceTask (m : Monitor) (ref : Ref) : Monitor :=
  match (m.heap ref).debounceTask with
  | some k =>
    if m.taskDone k then
      m
    else
      (m.setTask k none).modify ref fun st => { st with debounceTask := none }
  | none => m

def cancelTaskOf (m : Monitor) (ref : Ref) : Monitor :=
  -- cancelling a task that is done has no effect
  match (m.heap ref).debounceTask with
  | some k => m.setTask k none
  | none => m

def evict (m : Monitor) (tids : List TelegramId) : Monitor :=
  let evictedStates := tids.filterMap fun tid => m.userStates.lookup tid
  let m := { m with
    userStates := tids.foldl (fun states tid => states.erase tid) m.userStates
    dirtyStates := m.dirtyStates.filter (· ∉ tids) }
  evictedStates.foldl cancelTaskOf m

def items (m : Monitor) : List (TelegramId × Ref) :=
  m.userStates.entries.reverse.map fun e => (e.1, e.2)

def lastTouch (m : Monitor) (item : TelegramId × Ref) : Time :=
  stateLastTouchTs (m.heap item.2)

def evictStaleEntries (cfg : Settings) (m : Monitor) : Monitor :=
  let ttlThreshold := m.now - cfg.userStatesStaleAfter
  let isStale := fun item => m.lastTouch item ≠ 0 ∧ m.lastTouch item < ttlThreshold
  let stale := m.items.filter fun item => isStale item
  let rest := m.items.filter fun item => ¬ isStale item
  let overflow := rest.length - cfg.userStatesMax
  let sortable := rest.insertionSort fun a b => m.lastTouch a ≤ m.lastTouch b
  m.evict ((stale ++ sortable.take overflow).map (·.1))

def evictInactive (m : Monitor) (users : List User) : Monitor :=
  let activeIds := users.map (·.telegramId)
  m.evict ((m.items.map (·.1)).filter (· ∉ activeIds))

/-! ## `_check_user_power` -/

end Monitor

inductive Verdict where
  | seedFromDb (state : PowerState) (changedAt : Time)
  | seedFromReading
  | unchanged
  | flapping
  | alreadyPending
  | newPending
  deriving DecidableEq

def UserState.verdict (st : UserState) (pt : Option PowerTracking) (newState : PowerState) : Verdict :=
  if st.isFirstCheck then
    match pt.bind (·.powerState), pt.bind (·.powerChangedAt) with
    | some state, some changedAt => .seedFromDb state changedAt
    | _, _ => .seedFromReading
  else if st.currentState = some newState then
    if st.pendingState ≠ none ∧ st.pendingState ≠ some newState then
      .flapping
    else
      .unchanged
  else if st.pendingState = some newState then
    .alreadyPending
  else
    .newPending

namespace Monitor

def applyVerdict (m : Monitor) (tid : TelegramId) (ref : Ref) (newState : PowerState)
    (verdict : Verdict) : Monitor × Option CallPc :=
  match verdict with
  | .seedFromDb state changedAt =>
    let m := m.modify ref fun st => { st with
      currentState := some state
      lastStableState := some state
      lastStableAt := some (st.lastStableAt.getD changedAt)
      isFirstCheck := false }
    (m, none)
  | .seedFromReading =>
    let m := m.modify ref fun st => { st with
      currentState := some newState
      lastStableState := some newState
      lastStableAt := none
      isFirstCheck := false
      consecutiveChecks := 0 }
    (m, some (.writeInitial newState))
  | .unchanged =>
    (m.modify ref fun st => { st with consecutiveChecks := 0 }, none)
  | .flapping =>
    let m := m.modify ref fun st => { st with consecutiveChecks := 0 }
    let m := m.cancelDebounceTask ref
    let m := m.modify ref fun st => { st with
      switchCount := st.switchCount + 1
      pendingState := none
      pendingStateTime := none
      originalChangeTime := none }
    (m.markDirty tid, some .clearPending)
  | .alreadyPending => (m, none)
  | .newPending =>
    let m := m.cancelDebounceTask ref
    let m := m.modify ref fun st =>
      if st.pendingState = none then
        { st with instabilityStart := some m.now, switchCount := 1 }
      else
        { st with switchCount := st.switchCount + 1 }
    let m := m.modify ref fun st => { st with
      pendingState := some newState
      pendingStateTime := some m.now
      originalChangeTime := some m.now }
    (m.markDirty tid, some (.setPending ref newState m.now))

def observe (m : Monitor) (call : Call) (isAvailable : Bool) : Monitor × Option CallPc :=
  let tid := call.user.telegramId
  let newState := PowerState.ofAvailable isAvailable
  let (m, ref) := m.getUserState tid
  let m := m.modify ref fun st => { st with
    lastPingTime := some (.text (.iso m.now))
    lastPingSuccess := some isAvailable }
  let m := m.markDirty tid
  let verdict := (m.heap ref).verdict call.user.powerTracking newState
  let m := m.record (.observed call.id tid newState m.now (verdict = .newPending))
  m.applyVerdict tid ref newState verdict

def editTracking (m : Monitor) (tid : TelegramId) (f : PowerTracking → PowerTracking) : Monitor :=
  -- nothing happens if the row is missing
  { m with powerTracking := Function.update m.powerTracking tid ((m.powerTracking tid).map f) }

def sessionDone (m : Monitor) (call : Call) (ok : Bool) : Option (Monitor × Option CallPc) :=
  -- an exception of the session is logged and swallowed
  let tid := call.user.telegramId
  match call.pc with
  | .writeInitial newState =>
    let m := if ok then m.editTracking tid fun pt => { pt with
        powerState := some newState
        powerChangedAt := some m.now }
      else m
    some (m, none)
  | .clearPending =>
    let m := if ok then m.editTracking tid fun pt => { pt with
        pendingPowerState := none
        pendingPowerChangeAt := none }
      else m
    some (m, none)
  | .setPending ref newState originalChangeTime =>
    let m := if ok then m.editTracking tid fun pt => { pt with
        pendingPowerState := some newState
        pendingPowerChangeAt := some originalChangeTime }
      else m
    some (m, some (.readDebounce ref newState))
  | _ => none

/--
The debounce read in a session of its own: `none` stands for a session that raised.
-/
def fetchedDebounce (val : Option (Option Int)) : Int :=
  match val with
  | some val => getDebounceSeconds val
  | none => defaultDebounceS

def debounceDelay (cfg : Settings) (val : Option (Option Int)) : Int :=
  let debounceS := fetchedDebounce val
  if debounceS = 0 then cfg.powerMinStabilizationS else debounceS

def debounceRead (cfg : Settings) (m : Monitor) (call : Call) (val : Option (Option Int))
    : Option (Monitor × Option CallPc) :=
  match call.pc with
  | .readDebounce ref newState =>
    let debounceS := debounceDelay cfg val
    let oldState := (m.heap ref).currentState
    some (m.record (.debounceRead call.id debounceS), some (.storeTask ref newState oldState debounceS))
  | _ => none

def taskStored (m : Monitor) (call : Call) : Option (Monitor × Option CallPc) :=
  match call.pc with
  | .storeTask ref newState oldState debounceS =>
    let task := {
      kind := .confirmState call.id call.user.telegramId ref newState oldState
      pc := .sleeping (m.now + seconds debounceS) }
    some (m.createDebounceTask ref task, none)
  | _ => none

/-! ## `_check_all_ips` -/

def stepCall (m : Monitor) (i : Nat) (f : Monitor → Call → Option (Monitor × Option CallPc))
    : Option Monitor := do
  let g ← m.groups[i]?
  let call ← g.call
  let (m', pc) ← f m call
  let call' := pc.map fun pc => { call with pc := pc }
  some { m' with groups := m.groups.set i { g with call := call' } }

def pinged (m : Monitor) (i : Nat) (result : Option Bool) : Option Monitor := do
  let g ← m.groups[i]?
  if g.ping = none then
    some { m with groups := m.groups.set i { g with ping := some result } }
  else
    none

def pingRaised (m : Monitor) (i : Nat) : Option Monitor := do
  let g ← m.groups[i]?
  if g.ping = none then
    some { m with groups := m.groups.set i { g with ping := some none, users := [] } }
  else
    none

def startCall (m : Monitor) (i : Nat) : Option Monitor := do
  -- without an IP the call returns at once
  let g ← m.groups[i]?
  match g.call, g.ping, g.users with
  | none, some (some isAvailable), u :: users =>
    let call := { id := m.nextCall, user := u, pc := .lock isAvailable }
    some { m with
      groups := m.groups.set i { g with users := users, call := some call }
      nextCall := m.nextCall + 1 }
  | none, some none, _ :: users =>
    some { m with groups := m.groups.set i { g with users := users } }
  | _, _, _ => none

def Group.finished (g : Group) : Bool :=
  g.ping.isSome && g.users.isEmpty && g.call.isNone

/-! ## Confirm tasks and `_handle_power_state_change` -/

def confirmEntry (m : Monitor) (tid : TelegramId) (ref : Ref) (newState : PowerState) : Monitor :=
  let m := m.modify ref fun st => { st with
    currentState := some newState
    consecutiveChecks := 0
    debounceTask := none
    pendingState := none
    pendingStateTime := none
    originalChangeTime := none }
  m.markDirty tid

def confirm (m : Monitor) (k : TaskId) (kind : TaskKind) : Monitor :=
  match kind with
  | .confirmState call tid ref newState _ =>
    let origDt := (m.heap ref).originalChangeTime
    let m := m.confirmEntry tid ref newState
    let m := m.record (.confirmed call tid newState m.now origDt)
    m.setTask k (some { kind := kind, pc := .handling ref origDt .start })
  | .confirmRestored tid newState _ origDt =>
    match m.userStates.lookup tid with
    | some ref =>
      if (m.heap ref).pendingState = some newState then
        let m := m.confirmEntry tid ref newState
        let m := m.record (.restoredConfirmed tid newState m.now origDt)
        m.setTask k (some { kind := kind, pc := .loadUser ref })
      else
        m.setTask k none
    | none => m.setTask k none

end Monitor

/--
How the first session of `_handle_power_state_change` ends: the user is missing; it raises in front of
the reload, in front of the update or in front of the commit; the commit raises although it took
effect; it succeeds.
-/
inductive StateUpdate where
  | userMissing
  | loadFailed
  | changeFailed
  | commitFailed
  | commitLost
  | ok
  deriving DecidableEq

namespace Monitor

def powerStateChanged (m : Monitor) (tid : TelegramId) (newState : PowerState) (now : Time)
    : Monitor × Option PowerResult :=
  let changed := (m.powerTracking tid).map (changePowerStateAndGetDuration · newState m.now)
  let result := changed.map (·.2)
  let history := {
    telegramId := tid
    eventType := newState
    timestamp := now / seconds 1
    durationSeconds := (result.bind (·.duration)).map durationSeconds }
  let m := { m with
    powerTracking := Function.update m.powerTracking tid (changed.map (·.1))
    powerHistory := history :: m.powerHistory }
  (m, result)

def shouldNotify (cfg : Settings) (st : UserState) (now : Time) : Bool :=
  -- a last time that cannot be read does not hold a notification back
  match st.lastNotificationAt.bind IsoText.fromisoformat with
  | some last => ¬ now - last < seconds cfg.powerNotificationCooldownS
  | none => true

def stateUpdated (cfg : Settings) (m : Monitor) (tid : TelegramId) (newState : PowerState) (ref : Ref)
    (origDt : Option Time) (now : Time) (outcome : StateUpdate) : Monitor × Option HandlerPc :=
  let (changed, result) := m.powerStateChanged tid newState now
  let continue_ := fun (m : Monitor) (result : Option PowerResult) =>
    let changedAt := (result.map (·.powerChangedAt)).getD (origDt.getD now)
    (m, some (HandlerPc.lookAhead now changedAt (shouldNotify cfg (m.heap ref) now)))
  match outcome with
  | .userMissing => (m, none)
  | .loadFailed => (m, none)
  | .changeFailed => continue_ m none
  | .commitFailed => continue_ m result
  | .commitLost => continue_ changed result
  | .ok => continue_ changed result

def notified (m : Monitor) (tid : TelegramId) (ref : Ref) (now : Time) : Monitor :=
  -- set without the lock
  (m.modify ref fun st => { st with lastNotificationAt := some (.iso now) }).markDirty tid

def stableStateUpdated (m : Monitor) (tid : TelegramId) (ref : Ref) (newState : PowerState)
    (changedAt : Time) : Monitor :=
  -- done without the lock
  let m := m.modify ref fun st => { st with
    lastStableAt := some changedAt
    lastStableState := some newState
    instabilityStart := none
    switchCount := 0 }
  m.markDirty tid

end Monitor

inductive HandlerEvent where
  | start
  | stateUpdated (outcome : StateUpdate)
  | scheduleFetched
  | sent
  | sendRaised
  | idsPersisted
  deriving DecidableEq

namespace Monitor

/--
One step of `_handle_power_state_change`. The second session swallows its exceptions, and where the
code skips it the step that follows it can be taken at once.
-/
def stepHandler (cfg : Settings) (m : Monitor) (tid : TelegramId) (newState : PowerState) (ref : Ref)
    (origDt : Option Time) (pc : HandlerPc) (e : HandlerEvent) : Option (Monitor × Option HandlerPc) :=
  match pc, e with
  | .start, .start => some (m, some (.stateUpdate m.now))
  | .stateUpdate now, .stateUpdated outcome =>
    some (m.stateUpdated cfg tid newState ref origDt now outcome)
  | .lookAhead now changedAt shouldNotify, .scheduleFetched =>
    some (m, some (if shouldNotify then .send now changedAt else .persistIds changedAt))
  | .send now changedAt, .sent => some (m.notified tid ref now, some (.persistIds changedAt))
  | .send _ _, .sendRaised => some (m, none)
  | .persistIds changedAt, .idsPersisted =>
    some (m.stableStateUpdated tid ref newState changedAt, none)
  | _, _ => none

/-! ## `_save_all_user_states` -/

def flushStarted (m : Monitor) : Monitor :=
  let snapshot := m.dirtyStates.filterMap fun tid =>
    (m.userStates.lookup tid).map fun ref => (tid, m.heap ref)
  if snapshot.isEmpty then
    m
  else
    let flush := {
      saveIds := m.dirtyStates
      snapshot := snapshot
      startedAt := m.now
      pc := .writing }
    { m with flushes := flush :: m.flushes }

end Monitor

/--
`INSERT ... ON CONFLICT DO UPDATE` of one row by a transaction that began at `txnAt`: `updated_at` is
not among the columns of `set_`, so only an insert sets it.
-/
def upsertUserPowerState (table : AList (fun _ : TelegramId => UserPowerStateRow)) (txnAt : Time)
    (row : TelegramId × SavedFields) : AList (fun _ : TelegramId => UserPowerStateRow) :=
  let updatedAt :=
    match table.lookup row.1 with
    | some old => old.updatedAt
    | none => txnAt
  table.insert row.1 { fields := row.2, updatedAt := updatedAt }

def batchUpsertUserPowerStates (table : AList (fun _ : TelegramId => UserPowerStateRow))
    (txnAt : Time) (rows : List (TelegramId × SavedFields))
    : AList (fun _ : TelegramId => UserPowerStateRow) :=
  rows.foldl (fun table row => upsertUserPowerState table txnAt row) table

def getRecentUserPowerStates (table : AList (fun _ : TelegramId => UserPowerStateRow)) (now : Time)
    : List (TelegramId × UserPowerStateRow) :=
  let cutoff := now - seconds 3600
  (table.entries.map fun e => (e.1, e.2)).filter fun row => cutoff < row.2.updatedAt

def Flush.rows (flush : Flush) : List (TelegramId × SavedFields) :=
  flush.snapshot.map fun item => (item.1, item.2.savedFields)

namespace Monitor

def flushCommitted (m : Monitor) (i : Nat) (txnAt : Time) : Option Monitor := do
  let flush ← m.flushes[i]?
  if flush.pc = .writing ∧ flush.startedAt ≤ txnAt ∧ txnAt ≤ m.now then
    some { m with
      userPowerStates := batchUpsertUserPowerStates m.userPowerStates txnAt flush.rows
      flushes := m.flushes.set i { flush with pc := .committed } }
  else
    none

def flushCleared (m : Monitor) (i : Nat) : Option Monitor := do
  let flush ← m.flushes[i]?
  if flush.pc = .committed then
    some { m with
      dirtyStates := m.dirtyStates.filter (· ∉ flush.saveIds)
      flushes := m.flushes.eraseIdx i }
  else
    none

def flushAborted (m : Monitor) (i : Nat) : Option Monitor := do
  -- raised or cancelled, before or after its commit took effect
  let _ ← m.flushes[i]?
  some { m with flushes := m.flushes.eraseIdx i }

def restoreUserStates (m : Monitor) (rows : List (TelegramId × UserPowerStateRow)) : Monitor :=
  rows.foldl (fun m row => m.createEntry row.1 row.2.restored) m

def remainingTime (debounceS : Int) (pendingStateTime : Option Time) (now : Time) : Time :=
  match pendingStateTime with
  | some pendingAt => max 0 (seconds debounceS - (now - pendingAt))
  | none => seconds debounceS

def restartPendingDebounceTask (debounceS : Int) (m : Monitor) (item : TelegramId × Ref) : Monitor :=
  let st := m.heap item.2
  match st.pendingState, st.debounceTask with
  | some newState, none =>
    let origDt := st.originalChangeTime.or st.pendingStateTime
    let task := {
      kind := .confirmRestored item.1 newState st.currentState origDt
      pc := .sleeping (m.now + remainingTime debounceS st.pendingStateTime m.now) }
    m.createDebounceTask item.2 task
  | _, _ => m

/--
`_restart_pending_debounce_tasks`. The setting is used as read, without the minimum that
`_check_user_power` puts on it.
-/
def restartPendingDebounceTasks (m : Monitor) (val : Option (Option Int)) : Monitor :=
  m.items.foldl (restartPendingDebounceTask (fetchedDebounce val)) m

/--
The process dies and a new one runs `_restore_user_states` and `_restart_pending_debounce_tasks`,
before any other coroutine of it touches the states. The counters go on, so that no identity is used
twice in a run.
-/
def restarted (m : Monitor) (val : Option (Option Int)) : Monitor :=
  let fresh := { m with
    userStates := ∅
    dirtyStates := []
    tasks := fun _ => none
    cycle := .idle
    groups := []
    flushes := [] }
  let rows := getRecentUserPowerStates m.userPowerStates m.now
  (fresh.restoreUserStates rows).restartPendingDebounceTasks val

end Monitor

inductive Event where
  | tick (elapsed : Nat)
  | cycleStarted
  | batchLoaded (batch : List User)
  | loadFailed
  | inactiveEvicted
  | staleEvicted
  | pinged (group : Nat) (result : Option Bool)
  | pingRaised (group : Nat)
  | callStarted (group : Nat)
  | observed (group : Nat)
  | sessionDone (group : Nat) (ok : Bool)
  | debounceRead (group : Nat) (val : Option (Option Int))
  | taskStored (group : Nat)
  | cycleEnded
  | cycleCancelled
  | woken (task : TaskId)
  | confirmed (task : TaskId)
  | userReloaded (task : TaskId) (found : Bool)
  | handler (task : TaskId) (e : HandlerEvent)
  | handlerTimedOut (task : TaskId)
  | flushStarted
  | flushCommitted (flush : Nat) (txnAt : Time)
  | flushCleared (flush : Nat)
  | flushAborted (flush : Nat)
  | restarted (val : Option (Option Int))

namespace Monitor

def stepTask (m : Monitor) (k : TaskId) (f : Task → Option Monitor) : Option Monitor := do
  let task ← m.tasks k
  f task

def observeCall (m : Monitor) (call : Call) : Option (Monitor × Option CallPc) :=
  match call.pc with
  | .lock isAvailable => some (m.observe call isAvailable)
  | _ => none

def afterBatch (afterId : Nat) (users batch : List User) : CyclePc :=
  -- the next page is loaded if this one is full
  let users := users ++ batch
  if batch.length < batchLimit then
    if users.isEmpty then .idle else .evictInactive users
  else
    .loading ((batch.getLast?.map (·.id)).getD afterId) users

def stepCycle (cfg : Settings) (m : Monitor) (e : Event) : Option Monitor :=
  match m.cycle, e with
  | .idle, .cycleStarted => some { m with cycle := .loading 0 [] }
  | .loading afterId users, .batchLoaded batch =>
    if IsBatch afterId batch then
      some { m with cycle := afterBatch afterId users batch }
    else
      none
  | .loading _ _, .loadFailed => some { m with cycle := .idle }
  | .evictInactive users, .inactiveEvicted =>
    some { m.evictInactive users with cycle := .evictStale users }
  | .evictStale users, .staleEvicted =>
    some { m.evictStaleEntries cfg with cycle := .checking, groups := ipGroups users }
  | .checking, .cycleEnded =>
    if m.groups.all Group.finished then
      some { m with cycle := .idle, groups := [] }
    else
      none
  | .idle, .cycleCancelled => none
  | _, .cycleCancelled => some { m with cycle := .idle, groups := [] }
  | _, _ => none

def step (cfg : Settings) (m : Monitor) (e : Event) : Option Monitor :=
  match e with
  | .tick elapsed => some { m with now := m.now + elapsed }
  | .pinged i result => m.pinged i result
  | .pingRaised i => m.pingRaised i
  | .callStarted i => m.startCall i
  | .observed i => m.stepCall i observeCall
  | .sessionDone i ok => m.stepCall i fun m call => m.sessionDone call ok
  | .debounceRead i val => m.stepCall i fun m call => m.debounceRead cfg call val
  | .taskStored i => m.stepCall i taskStored
  | .woken k => m.stepTask k fun task =>
    match task.pc with
    | .sleeping wakeAt =>
      if wakeAt ≤ m.now then some (m.setTask k (some { task with pc := .lock })) else none
    | _ => none
  | .confirmed k => m.stepTask k fun task =>
    match task.pc with
    | .lock => some (m.confirm k task.kind)
    | _ => none
  | .userReloaded k found => m.stepTask k fun task =>
    match task.pc, task.kind with
    | .loadUser ref, .confirmRestored _ _ _ origDt =>
      some (m.setTask k (if found then some { task with pc := .handling ref origDt .start } else none))
    | _, _ => none
  | .handler k e => m.stepTask k fun task =>
    match task.pc with
    | .handling ref origDt pc => do
      let (m, pc) ← m.stepHandler cfg task.kind.telegramId task.kind.newState ref origDt pc e
      some (m.setTask k (pc.map fun pc => { task with pc := .handling ref origDt pc }))
    | _ => none
  | .handlerTimedOut k => m.stepTask k fun task =>
    match task.pc, task.kind with
    | .handling _ _ _, .confirmState _ _ _ _ _ => some (m.setTask k none)
    | _, _ => none
  | .flushStarted => some m.flushStarted
  | .flushCommitted i txnAt => m.flushCommitted i txnAt
  | .flushCleared i => m.flushCleared i
  | .flushAborted i => m.flushAborted i
  | .restarted val => some (m.restarted val)
  | e => m.stepCycle cfg e

end Monitor

def initial (now : Time) (userPowerStates : AList (fun _ : TelegramId => UserPowerStateRow))
    (powerTracking : TelegramId → Option PowerTracking) (val : Option (Option Int)) : Monitor :=
  let m : Monitor := { now := now, userPowerStates := userPowerStates, powerTracking := powerTracking }
  m.restarted val

end PowerMonitor
