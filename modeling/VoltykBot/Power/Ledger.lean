import VoltykBot.Lib.Recording
import VoltykBot.Power.Senders

/-!
This module contains the ledger of a run: the writes of `power_state` and `power_changed_at`, the first sessions
of the handlers, and for each page of users that is being edited the writes that its load came after.
-/

namespace PowerMonitor

/--
Whether `change_power_state_and_get_duration` has returned in a session that ends so, and whether the session has
taken effect.
-/
def StateUpdate.returns (outcome : StateUpdate) : Bool :=
  match outcome with
  | .userMissing => false
  | .loadFailed => false
  | .changeFailed => false
  | .commitFailed => true
  | .commitLost => true
  | .ok => true

def StateUpdate.commits (outcome : StateUpdate) : Bool :=
  match outcome with
  | .commitLost => true
  | .ok => true
  | _ => false

/--
The first session of a handler: the call of the handler, the time of the session, and the row that
`change_power_state_and_get_duration` has found, if it has returned.
-/
structure FirstSession where
  task : TaskId
  kind : TaskKind
  originalChangeTime : Option Time
  startedAt : Time
  sessionAt : Time
  found : Option PowerTracking
  deriving DecidableEq

namespace FirstSession

def newState (c : FirstSession) : PowerState := c.kind.newState

def timeStr (zones : Zones) (c : FirstSession) : String :=
  eventTimeStr zones c.kind c.originalChangeTime c.startedAt

def changedAt (c : FirstSession) : Time :=
  (c.found.bind (·.pendingPowerChangeAt)).getD c.sessionAt

def lasted (c : FirstSession) : Option Time :=
  (c.found.bind (·.powerChangedAt)).map (c.changedAt - ·)

end FirstSession

inductive RowWrite where
  | initial (newState : PowerState) (changedAt : Time)
  | confirmed (c : FirstSession)
  deriving DecidableEq

def RowWrite.newState (write : RowWrite) : PowerState :=
  match write with
  | .initial newState _ => newState
  | .confirmed c => c.newState

def RowWrite.changedAt (write : RowWrite) : Time :=
  match write with
  | .initial _ changedAt => changedAt
  | .confirmed c => c.changedAt

structure Ledger where
  writes : TelegramId → List RowWrite
  told : TaskId → Option FirstSession := fun _ => none
  pages : List (TelegramId → List RowWrite) := []

def Ledger.enter (l : Ledger) (w : Option (TelegramId × RowWrite)) : Ledger :=
  match w with
  | some (tid, w) => { l with writes := Function.update l.writes tid (w :: l.writes tid) }
  | none => l

namespace Monitor

def firstSession (m : Monitor) (k : TaskId) (outcome : StateUpdate) : Option FirstSession := do
  let task ← m.tasks k
  match task.pc with
  | .handling _ origDt (.stateUpdate now) =>
    some {
      task := k
      kind := task.kind
      originalChangeTime := origDt
      startedAt := now
      sessionAt := m.now
      found := if outcome.returns then m.powerTracking task.kind.telegramId else none }
  | _ => none

def confirmedWrite (m : Monitor) (k : TaskId) (outcome : StateUpdate) : Option (TelegramId × RowWrite) := do
  let c ← m.firstSession k outcome
  let _ ← c.found
  if outcome.commits then some (c.kind.telegramId, .confirmed c) else none

/--
What the session after a seeding writes.
-/
def initialWrite (m : Monitor) (i : Nat) : Option (TelegramId × RowWrite) := do
  let call ← m.callAt i
  let newState ← initialState call.pc
  let _ ← m.powerTracking call.user.telegramId
  some (call.user.telegramId, .initial newState m.now)

end Monitor

namespace Notices

def record (s : Notices) (l : Ledger) (e : NoticeEvent) : Ledger :=
  match e with
  | .monitor (.sessionDone i true) => l.enter (s.monitor.initialWrite i)
  | .monitor (.restarted _) => { l with pages := [] }
  | .stateUpdated k outcome =>
    { l.enter (s.monitor.confirmedWrite k outcome) with
      told := Function.update l.told k (s.monitor.firstSession k outcome) }
  | .scheduleChanged _ => { l with pages := l.pages ++ [fun _ => []] }
  | .usersLoaded j [] => { l with pages := l.pages.eraseIdx j }
  | .usersLoaded j _ => { l with pages := l.pages.set j l.writes }
  | .loadFailed j => { l with pages := l.pages.eraseIdx j }
  | _ => l

end Notices

def PowerTracking.change (row : PowerTracking) : Option (PowerState × Time) := do
  let state ← row.powerState
  let changedAt ← row.powerChangedAt
  some (state, changedAt)

def RowWrite.change (w : RowWrite) : PowerState × Time :=
  (w.newState, w.changedAt)

def Ledger.initial (tracking : TelegramId → Option PowerTracking) : Ledger where
  writes tid := (((tracking tid).bind PowerTracking.change).map fun c => RowWrite.initial c.1 c.2).toList

def PowerTracking.WrittenBy (row : PowerTracking) (writes : List RowWrite) : Prop :=
  row.change = writes.head?.map RowWrite.change

def RowsWritten (tracking : TelegramId → Option PowerTracking) (writes : TelegramId → List RowWrite) : Prop :=
  ∀ tid, ∀ row ∈ tracking tid, row.WrittenBy (writes tid)

theorem rowsWritten_initial (tracking : TelegramId → Option PowerTracking)
    : RowsWritten tracking (Ledger.initial tracking).writes := by
  intro tid row hrow
  unfold PowerTracking.WrittenBy Ledger.initial
  dsimp only
  rw [Option.mem_def.mp hrow, Option.bind_some]
  cases row.change with
  | none => rfl
  | some c => rfl

theorem RowsWritten.update {tracking : TelegramId → Option PowerTracking} {l : Ledger} {tid : TelegramId}
    {row : PowerTracking} {w : RowWrite} (h : RowsWritten tracking l.writes) (hw : row.change = some w.change)
    : RowsWritten (Function.update tracking tid (some row)) (l.enter (some (tid, w))).writes := by
  intro tid' row' hrow
  unfold Ledger.enter
  dsimp only
  by_cases htid : tid' = tid
  . subst htid
    rw [Function.update_self] at hrow ⊢
    cases hrow
    exact hw
  . rw [Function.update_of_ne htid] at hrow ⊢
    exact h tid' row' hrow

theorem RowsWritten.editTracking {m : Monitor} {writes : TelegramId → List RowWrite} {tid : TelegramId}
    {f : PowerTracking → PowerTracking} (h : RowsWritten m.powerTracking writes)
    (hf : ∀ row, (f row).change = row.change) : RowsWritten (m.editTracking tid f).powerTracking writes := by
  intro tid' row hrow
  unfold Monitor.editTracking at hrow
  dsimp only at hrow
  by_cases htid : tid' = tid
  . subst htid
    rw [Function.update_self] at hrow
    rcases Option.map_eq_some_iff.mp hrow with ⟨row', hrow', rfl⟩
    exact (hf row').trans (h tid' row' hrow')
  . rw [Function.update_of_ne htid] at hrow
    exact h tid' row hrow

namespace Monitor

variable {cfg : Settings} {m m' : Monitor}

theorem powerTracking_evict (m : Monitor) (tids : List TelegramId)
    : (m.evict tids).powerTracking = m.powerTracking := by
  rw [(evicted_evict m tids).rest]

theorem powerTracking_confirm (m : Monitor) (k : TaskId) (kind : TaskKind)
    : (m.confirm k kind).powerTracking = m.powerTracking := by
  unfold confirm
  cases kind with
  | confirmState call tid ref newState oldState => rfl
  | confirmRestored tid newState oldState origDt =>
    dsimp only
    split
    . split
      . rfl
      . rfl
    . rfl

theorem powerTracking_handler {k : TaskId} {e : HandlerEvent} (h : m.step cfg (.handler k e) = some m')
    (he : ∀ outcome, e ≠ .stateUpdated outcome) : m'.powerTracking = m.powerTracking := by
  rcases step_handler h with ⟨task, ref, origDt, pc, m₁, pc', hk, hpc, hstep, rfl⟩
  unfold stepHandler at hstep
  split at hstep
  . cases hstep
    rfl
  . next outcome => exact absurd rfl (he outcome)
  . cases hstep
    rfl
  . cases hstep
    rfl
  . cases hstep
    rfl
  . cases hstep
    rfl
  . cases hstep

theorem powerTracking_step {e : Event} (he : e.plain = true) (hsession : ∀ i ok, e ≠ .sessionDone i ok)
    (h : m.step cfg e = some m') : m'.powerTracking = m.powerTracking := by
  cases e with
  | tick _ | cycleStarted | batchLoaded _ | loadFailed | pinged _ _ | pingRaised _ | callStarted _
  | cycleEnded | cycleCancelled =>
    rcases step_inCycle rfl h with ⟨_, _, _, _, rfl⟩
    rfl
  | inactiveEvicted =>
    rcases stepCycle_inactiveEvicted h with ⟨users, _, rfl⟩
    exact powerTracking_evict m _
  | staleEvicted =>
    rcases stepCycle_staleEvicted h with ⟨users, _, rfl⟩
    exact powerTracking_evict m _
  | observed i =>
    rcases stepCall_eq_some h with ⟨g, call, m₁, pc, _, _, hf, rfl⟩
    unfold observeCall at hf
    split at hf
    . next isAvailable _ =>
      have hjudged := (judged_observe m call isAvailable).powerTracking
      rw [Option.some.inj hf, (entered_getUserState m call.user.telegramId).rest] at hjudged
      exact hjudged
    . cases hf
  | sessionDone i ok => exact absurd rfl (hsession i ok)
  | debounceRead i val =>
    change m.stepCall i (fun m call => m.debounceRead cfg call val) = some m' at h
    rcases stepCall_eq_some h with ⟨g, call, m₁, pc, _, _, hf, rfl⟩
    unfold debounceRead at hf
    split at hf
    . cases hf
      rfl
    . cases hf
  | taskStored i =>
    rcases step_taskStored h with ⟨_, _, _, _, _, _, _, hstored⟩
    rw [hstored.eq]
    rfl
  | woken k =>
    rcases step_woken h with ⟨task, wakeAt, _, _, _, rfl⟩
    rfl
  | confirmed k =>
    rcases step_confirmed h with ⟨task, _, _, rfl⟩
    exact powerTracking_confirm m k task.kind
  | userReloaded k found =>
    rcases step_userReloaded h with ⟨_, _, _, _, _, _, _, _, _, rfl⟩
    rfl
  | handler k e =>
    apply powerTracking_handler h
    rintro outcome rfl
    cases he
  | handlerTimedOut k =>
    rcases step_handlerTimedOut h with ⟨_, _, _, _, _, _, rfl⟩
    rfl
  | flushStarted | flushCommitted _ _ | flushCleared _ | flushAborted _ =>
    rcases step_inFlush rfl h with ⟨_, _, _, rfl⟩
    rfl
  | restarted val =>
    cases h
    rw [(restart_restarted m val).rest]

theorem rowsWritten_sessionDone {l : Ledger} {i : Nat} {ok : Bool}
    (h : RowsWritten m.powerTracking l.writes)
    (hstep : m.stepCall i (fun m call => m.sessionDone call ok) = some m')
    : RowsWritten m'.powerTracking (if ok then l.enter (m.initialWrite i) else l).writes := by
  rcases stepCall_eq_some hstep with ⟨g, call, m₁, pc, hg, hcall, hf, rfl⟩
  have hcall := callAt_eq_some hg hcall
  cases ok with
  | false =>
    unfold sessionDone at hf
    split at hf
    all_goals cases hf
    all_goals exact h
  | true =>
    rw [if_pos rfl]
    unfold initialWrite
    rw [hcall]
    unfold sessionDone at hf
    split at hf
    . next newState hpc =>
      cases hf
      cases hrow : m.powerTracking call.user.telegramId with
      | none =>
        rw [Option.bind_eq_bind, Option.bind_some, hpc]
        simp only [if_true, editTracking, hrow, Option.map_none, initialState, Option.bind_eq_bind,
          Option.bind_some, Option.bind_none, Ledger.enter]
        rw [← hrow, Function.update_eq_self]
        exact h
      | some row =>
        rw [Option.bind_eq_bind, Option.bind_some, hpc]
        simp only [if_true, editTracking, hrow, Option.map_some, initialState, Option.bind_eq_bind,
          Option.bind_some]
        exact h.update rfl
    . next hpc =>
      cases hf
      rw [Option.bind_eq_bind, Option.bind_some, hpc]
      exact h.editTracking fun row => rfl
    . next hpc =>
      cases hf
      rw [Option.bind_eq_bind, Option.bind_some, hpc]
      exact h.editTracking fun row => rfl
    . cases hf

structure SessionEnded (cfg : Settings) (m m' : Monitor) (k : TaskId) (outcome : StateUpdate) (task : Task)
    (origDt : Option Time) (now : Time) : Prop where
  found : m.tasks k = some task
  firstSession : m.firstSession k outcome = some {
    task := k
    kind := task.kind
    originalChangeTime := origDt
    startedAt := now
    sessionAt := m.now
    found := if outcome.returns then m.powerTracking task.kind.telegramId else none }
  powerTracking : m'.powerTracking =
    if outcome.commits then
      Function.update m.powerTracking task.kind.telegramId ((m.powerTracking task.kind.telegramId).map fun row =>
        (changePowerStateAndGetDuration row task.kind.newState m.now).1)
    else
      m.powerTracking

theorem step_sessionEnded {k : TaskId} {outcome : StateUpdate}
    (h : m.step cfg (.handler k (.stateUpdated outcome)) = some m')
    : ∃ task ref origDt now, task.pc = .handling ref origDt (.stateUpdate now) ∧
        SessionEnded cfg m m' k outcome task origDt now := by
  rcases step_handler h with ⟨task, ref, origDt, pc, m₁, pc', hk, hpc, hstep, rfl⟩
  cases pc with
  | stateUpdate now =>
    refine ⟨task, ref, origDt, now, hpc, hk, ?_, ?_⟩
    . unfold Monitor.firstSession
      rw [hk, Option.bind_eq_bind, Option.bind_some, hpc]
    . have hstep := Option.some.inj hstep
      unfold stateUpdated powerStateChanged at hstep
      simp only [Option.map_map] at hstep
      cases outcome with
      | userMissing =>
        cases hstep
        rfl
      | loadFailed =>
        cases hstep
        rfl
      | changeFailed =>
        cases hstep
        rfl
      | commitFailed =>
        cases hstep
        rfl
      | commitLost =>
        cases hstep
        rfl
      | ok =>
        cases hstep
        rfl
  | start => cases hstep
  | lookAhead now changedAt shouldNotify => cases hstep
  | send now changedAt => cases hstep
  | persistIds changedAt => cases hstep

theorem rowsWritten_sessionEnded {l : Ledger} {k : TaskId} {outcome : StateUpdate} {task : Task}
    {origDt : Option Time} {now : Time} (h : RowsWritten m.powerTracking l.writes)
    (hended : SessionEnded cfg m m' k outcome task origDt now)
    : RowsWritten m'.powerTracking (l.enter (m.confirmedWrite k outcome)).writes := by
  have hreturns (hcommits : outcome.commits = true) : outcome.returns = true := by
    cases outcome <;> first | rfl | cases hcommits
  unfold confirmedWrite
  rw [hended.powerTracking, hended.firstSession, Option.bind_eq_bind, Option.bind_some]
  cases hcommits : outcome.commits with
  | false =>
    rw [if_neg Bool.false_ne_true]
    dsimp only
    cases (if outcome.returns = true then m.powerTracking task.kind.telegramId else none) with
    | none => exact h
    | some row => exact h
  | true =>
    rw [if_pos rfl, if_pos (hreturns hcommits)]
    cases hrow : m.powerTracking task.kind.telegramId with
    | none =>
      have hsame : Function.update m.powerTracking task.kind.telegramId none = m.powerTracking := by
        rw [← hrow, Function.update_eq_self]
      rw [Option.map_none, hsame]
      exact h
    | some row => exact h.update rfl

end Monitor

namespace Notices

variable {cfg : Settings} {zones : Zones} {s s' : Notices} {l : Ledger}

theorem writes_record {e : NoticeEvent} (hsession : ∀ i, e ≠ .monitor (.sessionDone i true))
    (hstate : ∀ k outcome, e ≠ .stateUpdated k outcome) : (s.record l e).writes = l.writes := by
  unfold record
  split
  . next i => exact absurd rfl (hsession i)
  . rfl
  . next k outcome => exact absurd rfl (hstate k outcome)
  all_goals rfl

theorem stateUpdated_eq_some {k : TaskId} {outcome : StateUpdate} (h : s.stateUpdated cfg zones k outcome = some s')
    : ∃ task origDt now, Monitor.SessionEnded cfg s.monitor s'.monitor k outcome task origDt now ∧
        s.monitor.early k = true ∧ s'.sent = s.sent ∧ s'.jobs = s.jobs ∧ s'.edits = s.edits ∧
        s'.sendings = Function.update s.sendings k (some {
          user := s.freshUser task.kind.telegramId
          notice := {
            newState := task.kind.newState
            timeStr := eventTimeStr zones task.kind origDt now
            duration := (s.monitor.powerResult task.kind.telegramId task.kind.newState now outcome).bind (·.duration)
            scheduleText := "" } }) := by
  rcases Option.bind_eq_some_iff.mp h with ⟨task, hk, h⟩
  split at h
  . next hpc =>
    rcases Option.bind_eq_some_iff.mp h with ⟨m, hm, hs'⟩
    cases hs'
    rcases Monitor.step_sessionEnded hm with ⟨task', ref', origDt', now', hpc', hended⟩
    have htask := hended.found
    rw [hk, Option.some.injEq] at htask
    subst htask
    rw [hpc] at hpc'
    cases hpc'
    refine ⟨task, _, _, hended, ?_, rfl, rfl, rfl, rfl⟩
    simp [Monitor.early, hk, hpc, TaskPc.early]
  . cases h

end Notices

def Notice.SameChange (notice notice' : Notice) : Prop :=
  notice.newState = notice'.newState ∧ notice.timeStr = notice'.timeStr ∧ notice.duration = notice'.duration

namespace Notices

variable {cfg : Settings} {zones : Zones} {s s' : Notices} {l : Ledger}

structure Sends (s s' : Notices) : Prop where
  powerTracking : s'.monitor.powerTracking = s.monitor.powerTracking
  sendings : ∀ k, ∀ x' ∈ s'.sendings k, ∃ x ∈ s.sendings k, x'.notice.SameChange x.notice
  sent : s'.sent = s.sent
  edits : s'.edits = s.edits
  jobs : s'.jobs = s.jobs

theorem sends_setSending {k : TaskId} {x₀ x : Sending} (hx₀ : s.sendings k = some x₀)
    (hsame : x.notice.SameChange x₀.notice) : Sends s (s.setSending k x) := by
  refine ⟨rfl, ?_, rfl, rfl, rfl⟩
  intro k' x' hx'
  unfold setSending at hx'
  dsimp only at hx'
  by_cases hk : k' = k
  . subst hk
    rw [Function.update_self] at hx'
    cases hx'
    exact ⟨x₀, hx₀, hsame⟩
  . rw [Function.update_of_ne hk] at hx'
    exact ⟨x', hx', rfl, rfl, rfl⟩

theorem sends_goOn {k : TaskId} {x₀ x : Sending} (hx₀ : s.sendings k = some x₀)
    (hsame : x.notice.SameChange x₀.notice) (h : s.goOn cfg k x = some s') : Sends s s' := by
  have hset := sends_setSending hx₀ hsame
  unfold goOn at h
  dsimp only at h
  split at h
  . rcases Option.bind_eq_some_iff.mp h with ⟨m, hm, hs'⟩
    cases hs'
    exact { hset with powerTracking := Monitor.powerTracking_handler hm nofun }
  . cases h
    exact hset

theorem cutOff_eq (s : Notices) (k : TaskId) (m : Monitor)
    : s.cutOff k m = { s with monitor := m, last := (s.cutOff k m).last } := by
  unfold cutOff
  split
  . split
    . rfl
    . rfl
  . rfl

theorem sends_cutOff (s : Notices) (k : TaskId) {m : Monitor}
    (hm : m.powerTracking = s.monitor.powerTracking) : Sends s (s.cutOff k m) := by
  rw [cutOff_eq]
  exact ⟨hm, fun _ x' hx' => ⟨x', hx', rfl, rfl, rfl⟩, rfl, rfl, rfl⟩

theorem notice_toChannel (x : Sending) (tid : TelegramId) : (x.toChannel tid).notice = x.notice := by
  unfold Sending.toChannel
  split
  . rfl
  . rfl

theorem notice_toBot (x : Sending) (tid : TelegramId) : (x.toBot tid).notice = x.notice := by
  unfold Sending.toBot
  split
  . rfl
  . exact notice_toChannel x tid

theorem sends_scheduleFetched {k : TaskId} {next : Option Scheduler.NextEvent}
    (h : s.scheduleFetched cfg k next = some s') : Sends s s' := by
  rcases Option.bind_eq_some_iff.mp h with ⟨task, _, h⟩
  rcases Option.bind_eq_some_iff.mp h with ⟨x, hx, h⟩
  rcases Option.bind_eq_some_iff.mp h with ⟨m, hm, h⟩
  have hsends := sends_goOn (s := { s with monitor := m }) hx (by rw [notice_toBot]; exact ⟨rfl, rfl, rfl⟩) h
  exact { hsends with powerTracking := hsends.powerTracking.trans (Monitor.powerTracking_handler hm nofun) }

theorem sends_sendEnded {k : TaskId} {outcome : SendOutcome} (h : s.sendEnded cfg k outcome = some s')
    : Sends s s' := by
  rcases Option.bind_eq_some_iff.mp h with ⟨task, _, h⟩
  rcases Option.bind_eq_some_iff.mp h with ⟨x, hx, h⟩
  dsimp only at h
  split at h
  . split at h
    . exact sends_goOn hx (by rw [notice_toChannel]; exact ⟨rfl, rfl, rfl⟩) h
    . cases h
  . cases h
    exact sends_setSending hx ⟨rfl, rfl, rfl⟩
  . exact sends_goOn hx (by rw [notice_toChannel]; exact ⟨rfl, rfl, rfl⟩) h
  . split at h
    . refine sends_goOn hx ?_ h
      exact ⟨rfl, rfl, rfl⟩
    . cases h
  . refine sends_goOn hx ?_ h
    exact ⟨rfl, rfl, rfl⟩
  . cases h

theorem sends_userDeactivated {k : TaskId} {ok : Bool} (h : s.userDeactivated cfg k ok = some s')
    : Sends s s' := by
  rcases Option.bind_eq_some_iff.mp h with ⟨a, _, h⟩
  rcases Option.bind_eq_some_iff.mp h with ⟨x, hx, h⟩
  split at h
  . split at h
    . refine sends_goOn hx ?_ h
      exact ⟨rfl, rfl, rfl⟩
    . rcases Option.bind_eq_some_iff.mp h with ⟨m, hm, hs'⟩
      cases hs'
      exact sends_cutOff s k (Monitor.powerTracking_handler hm nofun)
  . cases h

theorem delivered_eq_some {k : TaskId} {id : MessageId} (h : s.delivered k id = some s')
    : ∃ x message, s.sendings k = some x ∧ message.task = k ∧ message.notice = x.notice ∧
        s.isNew message.chat message.messageId ∧ s' = { s with sent := message :: s.sent } := by
  rcases Option.bind_eq_some_iff.mp h with ⟨task, _, h⟩
  rcases Option.bind_eq_some_iff.mp h with ⟨x, hx, h⟩
  split at h
  . rcases Option.bind_eq_some_iff.mp h with ⟨chat, _, h⟩
    split at h
    . next hnew =>
      cases h
      exact ⟨x, _, hx, rfl, rfl, hnew, rfl⟩
    . cases h
  . cases h

structure MonitorStepped (cfg : Settings) (s s' : Notices) (e : Event) : Prop where
  plain : e.plain = true
  step : s.monitor.step cfg e = some s'.monitor
  sendings : s'.sendings = s.sendings
  sent : s'.sent = s.sent
  edits : s'.edits = s.edits
  jobs : (∀ val, e ≠ .restarted val) → s'.jobs = s.jobs
  restarted : ∀ val, e = .restarted val → s'.jobs = []

theorem monitorStepped_of_step {e : Event} (h : s.step cfg zones (.monitor e) = some s')
    : MonitorStepped cfg s s' e := by
  unfold Notices.step at h
  dsimp only at h
  split at h
  . next hplain =>
    rcases Option.map_eq_some_iff.mp h with ⟨m, hm, rfl⟩
    unfold monitorStepped
    split
    . rw [cutOff_eq]
      exact ⟨hplain, hm, rfl, rfl, rfl, fun _ => rfl, nofun⟩
    . next val => exact ⟨hplain, hm, rfl, rfl, rfl, fun hne => absurd rfl (hne val), fun _ _ => rfl⟩
    . next hrestarted =>
      exact ⟨hplain, hm, rfl, rfl, rfl, fun _ => rfl, fun val hval => absurd hval (hrestarted val)⟩
  . cases h

theorem rowsWritten_step {e : NoticeEvent} (h : RowsWritten s.monitor.powerTracking l.writes)
    (hstep : s.step cfg zones e = some s')
    : RowsWritten s'.monitor.powerTracking (s.record l e).writes := by
  have hsame (htracking : s'.monitor.powerTracking = s.monitor.powerTracking)
      (hsession : ∀ i, e ≠ .monitor (.sessionDone i true)) (hstate : ∀ k outcome, e ≠ .stateUpdated k outcome)
      : RowsWritten s'.monitor.powerTracking (s.record l e).writes := by
    rw [htracking, writes_record hsession hstate]
    exact h
  have hquiet (he : e.quiet = true) : s'.monitor.powerTracking = s.monitor.powerTracking := by
    rw [(quiet_step he hstep).monitor]
  cases e with
  | monitor e =>
    have hmonitor := monitorStepped_of_step hstep
    by_cases hsession : ∀ i ok, e ≠ .sessionDone i ok
    . apply hsame (Monitor.powerTracking_step hmonitor.plain hsession hmonitor.step)
      . rintro i he
        cases he
        exact hsession i true rfl
      . exact nofun
    . simp only [not_forall, Classical.not_not] at hsession
      rcases hsession with ⟨i, ok, rfl⟩
      have hwritten := Monitor.rowsWritten_sessionDone h hmonitor.step
      cases ok with
      | true => exact hwritten
      | false => exact hwritten
  | stateUpdated k outcome =>
    rcases stateUpdated_eq_some hstep with ⟨task, origDt, now, hended, _⟩
    exact Monitor.rowsWritten_sessionEnded h hended
  | scheduleFetched k next => exact hsame (sends_scheduleFetched hstep).powerTracking nofun nofun
  | delivered k id =>
    rcases delivered_eq_some hstep with ⟨_, _, _, _, _, _, rfl⟩
    exact hsame rfl nofun nofun
  | sendEnded k outcome => exact hsame (sends_sendEnded hstep).powerTracking nofun nofun
  | userDeactivated k ok => exact hsame (sends_userDeactivated hstep).powerTracking nofun nofun
  | idsCommitted k => exact hsame (hquiet rfl) nofun nofun
  | settingsChanged tid ns cc => exact hsame (hquiet rfl) nofun nofun
  | scheduleChanged next => exact hsame (hquiet rfl) nofun nofun
  | usersLoaded j tids => exact hsame (hquiet rfl) nofun nofun
  | loadFailed j => exact hsame (hquiet rfl) nofun nofun
  | composed j => exact hsame (hquiet rfl) nofun nofun
  | editEnded j outcome => exact hsame (hquiet rfl) nofun nofun

end Notices
end PowerMonitor
