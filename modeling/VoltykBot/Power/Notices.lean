import VoltykBot.Lib.Cooldown
import VoltykBot.Power.Pairing
import VoltykBot.Power.Texts

/-!
This module contains the messages of the power monitor: the sends of `_handle_power_state_change`, the
columns that keep the ids of what was sent, and the jobs of
`update_power_notifications_on_schedule_change` that edit it. The monitor takes its steps underneath.
-/

namespace PowerMonitor

open Scheduler (NextEvent)

/--
A message of a chat. No id is 0.
-/
abbrev MessageId := Nat

abbrev Chat := String

structure NotificationSettings where
  notifyFactOff : Bool := true
  notifyFactOn : Bool := true
  deriving DecidableEq

structure ChannelConfig where
  channelId : Option Chat := none
  channelPaused : Bool := false
  chNotifyFactOff : Bool := true
  chNotifyFactOn : Bool := true
  lastPowerMessageId : Option MessageId := none
  deriving DecidableEq

structure MessageIds where
  alertOffMessageId : Option MessageId := none
  alertOnMessageId : Option MessageId := none
  botPowerMessageId : Option MessageId := none
  chPowerMessageId : Option MessageId := none
  powerMessageType : Option PowerMessageType := none
  deriving DecidableEq

structure FreshUser where
  notificationSettings : Option NotificationSettings
  channelConfig : Option ChannelConfig
  deriving DecidableEq

def FreshUser.sendToBot (user : FreshUser) (newState : PowerState) : Bool :=
  match user.notificationSettings, newState with
  | some ns, .off => ns.notifyFactOff
  | some ns, .on => ns.notifyFactOn
  | none, _ => true

def ChannelConfig.channel (cc : ChannelConfig) : Option Chat :=
  cc.channelId.filter (· ≠ "")

def ChannelConfig.notifies (cc : ChannelConfig) (newState : PowerState) : Bool :=
  match newState with
  | .off => cc.chNotifyFactOff
  | .on => cc.chNotifyFactOn

def FreshUser.sendToChannel (user : FreshUser) (tid : TelegramId) (newState : PowerState)
    : Option Chat := do
  let cc ← user.channelConfig
  let channelId ← cc.channel
  if channelId ≠ tid ∧ cc.notifies newState ∧ ¬ cc.channelPaused then some channelId else none

inductive SendPc where
  | bot
  | deactivating
  | channel (channelId : Chat)
  | done
  deriving DecidableEq

structure Sending where
  user : FreshUser
  notice : Notice
  powerMsgType : Option PowerMessageType := none
  botMsgId : Option MessageId := none
  chMsgId : Option MessageId := none
  userDeactivated : Bool := false
  pc : SendPc := .bot
  deriving DecidableEq

def Sending.toChannel (x : Sending) (tid : TelegramId) : Sending :=
  match x.user.sendToChannel tid x.notice.newState with
  | some channelId => { x with pc := .channel channelId }
  | none => { x with pc := .done }

def Sending.toBot (x : Sending) (tid : TelegramId) : Sending :=
  if x.user.sendToBot x.notice.newState then { x with pc := .bot } else x.toChannel tid

def Sending.chat (x : Sending) (tid : TelegramId) : Option Chat :=
  match x.pc with
  | .bot => some tid
  | .channel channelId => some channelId
  | _ => none

structure SentMessage where
  task : TaskId
  telegramId : TelegramId
  startedAt : Time
  chat : Chat
  messageId : MessageId
  notice : Notice
  deriving DecidableEq

structure Edit where
  chat : Chat
  messageId : MessageId
  currentState : PowerState
  powerChangedAt : Option Time
  composedAt : Time
  newScheduleLine : String
  deriving DecidableEq

def Edit.message (zones : Zones) (edit : Edit) : Message :=
  editMessage zones edit.currentState edit.powerChangedAt edit.composedAt edit.newScheduleLine

def Edit.edits (edit : Edit) (sent : SentMessage) : Prop :=
  sent.chat = edit.chat ∧ sent.messageId = edit.messageId

instance (edit : Edit) (sent : SentMessage) : Decidable (edit.edits sent) :=
  inferInstanceAs (Decidable (_ ∧ _))

/--
A user of a page as `get_active_power_users_by_region_queue_cursor` loads it.
-/
structure EditUser where
  telegramId : TelegramId
  powerTracking : Option PowerTracking
  messageIds : MessageIds
  channelConfig : Option ChannelConfig

inductive EditTarget where
  | bot
  | channel
  deriving DecidableEq

def EditUser.botMsgId (user : EditUser) (currentState : PowerState) : Option MessageId :=
  -- the fields of the states are the older ones
  user.messageIds.botPowerMessageId.or <|
    match currentState with
    | .off => user.messageIds.alertOffMessageId
    | .on => user.messageIds.alertOnMessageId

def EditUser.chMsgId (user : EditUser) : Option MessageId :=
  user.messageIds.chPowerMessageId.or (user.channelConfig.bind (·.lastPowerMessageId))

def EditUser.message (user : EditUser) (target : EditTarget) (currentState : PowerState)
    : Option (Chat × MessageId) :=
  match target with
  | .bot => (user.botMsgId currentState).map fun id => (user.telegramId, id)
  | .channel =>
    match user.channelConfig.bind ChannelConfig.channel, user.chMsgId with
    | some channelId, some id => some (channelId, id)
    | _, _ => none

/--
One call of `update_power_notifications_on_schedule_change`: the users of its page that are still to come,
which of the two messages of the first one is next, and the edit that it awaits.
-/
structure EditJob where
  nextEvent : Option NextEvent
  users : List EditUser := []
  target : EditTarget := .bot
  edit : Option Edit := none

def EditUser.edit (user : EditUser) (next : Option NextEvent) (target : EditTarget) (now : Time)
    : Option Edit := do
  let pt ← user.powerTracking
  let currentState ← pt.powerState
  let line ← newScheduleLine currentState next
  let message ← user.message target currentState
  some {
    chat := message.1
    messageId := message.2
    currentState := currentState
    powerChangedAt := pt.powerChangedAt
    composedAt := now
    newScheduleLine := line }

def EditJob.advance (job : EditJob) : EditJob :=
  match job.target with
  | .bot => { job with target := .channel, edit := none }
  | .channel => { job with users := job.users.tail, target := .bot, edit := none }

/--
`last` belongs to the statements about runs, as `log` of the monitor does: it has the newest entry first, and
no step reads it.
-/
structure Notices where
  monitor : Monitor
  sendings : TaskId → Option Sending := fun _ => none
  notificationSettings : TelegramId → Option NotificationSettings := fun _ => none
  channelConfig : TelegramId → Option ChannelConfig := fun _ => none
  messageIds : TelegramId → MessageIds := fun _ => {}
  jobs : List EditJob := []
  sent : List SentMessage := []
  edits : List Edit := []
  last : List (TelegramId × Cooldown.Last Ref) := []

def Task.attempt (task : Task) : Option (Cooldown.Attempt TelegramId Ref) :=
  match task.pc with
  | .handling ref _ (.lookAhead now _ true) => some ⟨task.kind.telegramId, ref, now⟩
  | .handling ref _ (.send now _) => some ⟨task.kind.telegramId, ref, now⟩
  | _ => none

namespace Monitor

def attempt (m : Monitor) (k : TaskId) : Option (Cooldown.Attempt TelegramId Ref) :=
  (m.tasks k).bind Task.attempt

def powerResult (m : Monitor) (tid : TelegramId) (newState : PowerState) (now : Time)
    (outcome : StateUpdate) : Option PowerResult :=
  match outcome with
  | .commitFailed => (m.powerStateChanged tid newState now).2
  | .commitLost => (m.powerStateChanged tid newState now).2
  | .ok => (m.powerStateChanged tid newState now).2
  | _ => none

end Monitor

/--
`event_time.strftime("%H:%M")`: what `_confirm_restored` hands over was read from the database.
-/
def eventTimeStr (zones : Zones) (kind : TaskKind) (originalChangeTime : Option Time) (now : Time)
    : String :=
  match kind, originalChangeTime with
  | .confirmRestored _ _ _ _, some t => hourMinute zones.database t
  | .confirmState _ _ _ _ _, some t => hourMinute zones.kyiv t
  | _, none => hourMinute zones.kyiv now

namespace Notices

def freshUser (s : Notices) (tid : TelegramId) : FreshUser where
  notificationSettings := s.notificationSettings tid
  channelConfig := s.channelConfig tid

def setSending (s : Notices) (k : TaskId) (x : Sending) : Notices :=
  { s with sendings := Function.update s.sendings k (some x) }

/-! ## `_handle_power_state_change` -/

def stateUpdated (cfg : Settings) (zones : Zones) (s : Notices) (k : TaskId) (outcome : StateUpdate)
    : Option Notices := do
  let task ← s.monitor.tasks k
  match task.pc with
  | .handling _ origDt (.stateUpdate now) =>
    let tid := task.kind.telegramId
    let newState := task.kind.newState
    let m ← s.monitor.step cfg (.handler k (.stateUpdated outcome))
    let x := {
      user := s.freshUser tid
      notice := {
        newState := newState
        timeStr := eventTimeStr zones task.kind origDt now
        duration := (s.monitor.powerResult tid newState now outcome).bind (·.duration)
        scheduleText := "" } }
    some ({ s with monitor := m }.setSending k x)
  | _ => none

/--
Behind the last send there is no `await` in front of the stamp.
-/
def goOn (cfg : Settings) (s : Notices) (k : TaskId) (x : Sending) : Option Notices :=
  let s := s.setSending k x
  match s.monitor.attempt k, x.pc with
  | some a, .done => do
    let m ← s.monitor.step cfg (.handler k .sent)
    some { s with monitor := m, last := (a.user, ⟨some a.ref, a.startedAt⟩) :: s.last }
  | _, _ => some s

def scheduleFetched (cfg : Settings) (s : Notices) (k : TaskId) (next : Option NextEvent)
    : Option Notices := do
  let task ← s.monitor.tasks k
  let x ← s.sendings k
  let m ← s.monitor.step cfg (.handler k .scheduleFetched)
  let x := { x with
    notice := { x.notice with scheduleText := scheduleText task.kind.newState next }
    powerMsgType := some (powerMessageType task.kind.newState next) }
  { s with monitor := m }.goOn cfg k (x.toBot task.kind.telegramId)

def isNew (s : Notices) (chat : Chat) (id : MessageId) : Prop :=
  (∀ message ∈ s.sent, ¬ (message.chat = chat ∧ message.messageId = id)) ∧
    ∀ edit ∈ s.edits, ¬ (edit.chat = chat ∧ edit.messageId = id)

instance (s : Notices) (chat : Chat) (id : MessageId) : Decidable (s.isNew chat id) :=
  inferInstanceAs (Decidable (_ ∧ _))

/--
A message reaches the chat that the handler is sending to, whether or not the call gets to return it.
-/
def delivered (s : Notices) (k : TaskId) (id : MessageId) : Option Notices := do
  let task ← s.monitor.tasks k
  let x ← s.sendings k
  match task.pc with
  | .handling _ _ (.send now _) =>
    let tid := task.kind.telegramId
    let chat ← x.chat tid
    if s.isNew chat id then
      let message := {
        task := k, telegramId := tid, startedAt := now, chat := chat, messageId := id, notice := x.notice }
      some { s with sent := message :: s.sent }
    else
      none
  | _ => none

end Notices

inductive SendOutcome where
  | returned (id : MessageId)
  | forbidden
  | raised
  deriving DecidableEq

namespace Notices

/--
A handler ends by a timeout or an exception, in front of its stamp if it was to write one.
-/
def cutOff (s : Notices) (k : TaskId) (m : Monitor) : Notices :=
  match s.monitor.attempt k with
  | some a =>
    if ∃ message ∈ s.sent, message.task = k then
      { s with monitor := m, last := (a.user, ⟨none, a.startedAt⟩) :: s.last }
    else
      { s with monitor := m }
  | none => { s with monitor := m }

def hasSent (s : Notices) (k : TaskId) (chat : Chat) (id : MessageId) : Prop :=
  ∃ message ∈ s.sent, message.task = k ∧ message.chat = chat ∧ message.messageId = id

instance (s : Notices) (k : TaskId) (chat : Chat) (id : MessageId) : Decidable (s.hasSent k chat id) :=
  inferInstanceAs (Decidable (∃ message ∈ s.sent, _))

def sendEnded (cfg : Settings) (s : Notices) (k : TaskId) (outcome : SendOutcome)
    : Option Notices := do
  let task ← s.monitor.tasks k
  let x ← s.sendings k
  let tid := task.kind.telegramId
  match task.pc, x.pc, outcome with
  | .handling _ _ (.send _ _), .bot, .returned id =>
    if s.hasSent k tid id then s.goOn cfg k ({ x with botMsgId := some id }.toChannel tid) else none
  | .handling _ _ (.send _ _), .bot, .forbidden => some (s.setSending k { x with pc := .deactivating })
  | .handling _ _ (.send _ _), .bot, .raised => s.goOn cfg k (x.toChannel tid)
  | .handling _ _ (.send _ _), .channel channelId, .returned id =>
    if s.hasSent k channelId id then s.goOn cfg k { x with chMsgId := some id, pc := .done } else none
  | .handling _ _ (.send _ _), .channel _, _ => s.goOn cfg k { x with pc := .done }
  | _, _, _ => none

def userDeactivated (cfg : Settings) (s : Notices) (k : TaskId) (ok : Bool) : Option Notices := do
  let _ ← s.monitor.attempt k
  let x ← s.sendings k
  if x.pc = .deactivating then
    if ok then
      s.goOn cfg k { x with userDeactivated := true, pc := .done }
    else
      let m ← s.monitor.step cfg (.handler k .sendRaised)
      some (s.cutOff k m)
  else
    none

def persistBotId (x : Sending) (ids : MessageIds) : MessageIds :=
  match x.botMsgId, x.notice.newState with
  | some id, .off =>
    { ids with
      alertOffMessageId := some id, botPowerMessageId := some id, powerMessageType := x.powerMsgType }
  | some id, .on =>
    { ids with
      alertOnMessageId := some id, botPowerMessageId := some id, powerMessageType := x.powerMsgType }
  | none, _ => ids

/--
The second session commits; where the handler goes on without, it has skipped the session or swallowed its
exception.
-/
def idsCommitted (s : Notices) (k : TaskId) : Option Notices := do
  let task ← s.monitor.tasks k
  let x ← s.sendings k
  match task.pc with
  | .handling _ _ (.persistIds _) =>
    let tid := task.kind.telegramId
    if ¬ x.userDeactivated ∧ (x.botMsgId ≠ none ∨ x.chMsgId ≠ none) then
      let ids := persistBotId x (s.messageIds tid)
      let ids := { ids with chPowerMessageId := x.chMsgId.or ids.chPowerMessageId }
      let ids := if (s.monitor.powerTracking tid).isSome then ids else s.messageIds tid
      let cc := (s.channelConfig tid).map fun (cc : ChannelConfig) =>
        { cc with lastPowerMessageId := x.chMsgId.or cc.lastPowerMessageId }
      some { s with
        messageIds := Function.update s.messageIds tid ids
        channelConfig := Function.update s.channelConfig tid cc }
    else
      none
  | _ => none

/-! ## `update_power_notifications_on_schedule_change` -/

def editUser (s : Notices) (tid : TelegramId) : EditUser where
  telegramId := tid
  powerTracking := s.monitor.powerTracking tid
  messageIds := s.messageIds tid
  channelConfig := s.channelConfig tid

def setJob (s : Notices) (j : Nat) (job : EditJob) : Notices :=
  { s with jobs := s.jobs.set j job }

def usersLoaded (s : Notices) (j : Nat) (tids : List TelegramId) : Option Notices := do
  let job ← s.jobs[j]?
  match job.users, tids with
  | [], [] => some { s with jobs := s.jobs.eraseIdx j }
  | [], tids => some (s.setJob j { job with users := tids.map s.editUser })
  | _, _ => none

def loadFailed (s : Notices) (j : Nat) : Option Notices := do
  let job ← s.jobs[j]?
  match job.users with
  | [] => some { s with jobs := s.jobs.eraseIdx j }
  | _ => none

def composed (s : Notices) (j : Nat) : Option Notices := do
  let job ← s.jobs[j]?
  match job.users, job.edit with
  | user :: _, none =>
    match user.edit job.nextEvent job.target s.monitor.now with
    | some edit => some (s.setJob j { job with edit := some edit })
    | none => some (s.setJob j job.advance)
  | _, _ => none

def clearBotId (currentState : PowerState) (ids : MessageIds) : MessageIds :=
  match currentState with
  | .off => { ids with alertOffMessageId := none, botPowerMessageId := none }
  | .on => { ids with alertOnMessageId := none, botPowerMessageId := none }

def clearIds (s : Notices) (target : EditTarget) (tid : TelegramId) (currentState : PowerState)
    : Notices :=
  match target with
  | .bot =>
    { s with
      messageIds := Function.update s.messageIds tid (clearBotId currentState (s.messageIds tid)) }
  | .channel =>
    let cc := (s.channelConfig tid).map fun (cc : ChannelConfig) => { cc with lastPowerMessageId := none }
    let ids := { s.messageIds tid with chPowerMessageId := none }
    { s with
      messageIds := Function.update s.messageIds tid ids
      channelConfig := Function.update s.channelConfig tid cc }

end Notices

/--
`notFound` tells whether the session that clears the ids succeeds.
-/
inductive EditOutcome where
  | edited
  | notModified
  | notFound (cleared : Bool)
  | raised
  deriving DecidableEq

namespace Notices

def editEnded (s : Notices) (j : Nat) (outcome : EditOutcome) : Option Notices := do
  let job ← s.jobs[j]?
  match job.users, job.edit, outcome with
  | _ :: _, some edit, .edited => some ({ s with edits := edit :: s.edits }.setJob j job.advance)
  | user :: _, some edit, .notFound true =>
    some ((s.clearIds job.target user.telegramId edit.currentState).setJob j job.advance)
  | _ :: _, some _, _ => some (s.setJob j job.advance)
  | _, _, _ => none

end Notices

/--
The steps of the handler that have an event of their own here are not taken as steps of the monitor alone.
-/
def Event.plain (e : Event) : Bool :=
  match e with
  | .handler _ .start => true
  | .handler _ .idsPersisted => true
  | .handler _ _ => false
  | _ => true

inductive NoticeEvent where
  | monitor (e : Event)
  | stateUpdated (task : TaskId) (outcome : StateUpdate)
  | scheduleFetched (task : TaskId) (nextEvent : Option NextEvent)
  | delivered (task : TaskId) (id : MessageId)
  | sendEnded (task : TaskId) (outcome : SendOutcome)
  | userDeactivated (task : TaskId) (ok : Bool)
  | idsCommitted (task : TaskId)
  | settingsChanged (telegramId : TelegramId) (notificationSettings : Option NotificationSettings)
      (channelConfig : Option ChannelConfig)
  | scheduleChanged (nextEvent : Option NextEvent)
  | usersLoaded (job : Nat) (telegramIds : List TelegramId)
  | loadFailed (job : Nat)
  | composed (job : Nat)
  | editEnded (job : Nat) (outcome : EditOutcome)

def NoticeEvent.quiet (e : NoticeEvent) : Bool :=
  match e with
  | .monitor _ => false
  | .stateUpdated _ _ => false
  | .scheduleFetched _ _ => false
  | .delivered _ _ => false
  | .sendEnded _ _ => false
  | .userDeactivated _ _ => false
  | _ => true

def NoticeEvent.restarts (e : NoticeEvent) : Bool :=
  match e with
  | .monitor (.restarted _) => true
  | _ => false

namespace Notices

def settingsChanged (s : Notices) (tid : TelegramId) (ns : Option NotificationSettings)
    (cc : Option ChannelConfig) : Notices :=
  let cc := cc.map fun (cc : ChannelConfig) =>
    { cc with lastPowerMessageId := (s.channelConfig tid).bind (·.lastPowerMessageId) }
  { s with
    notificationSettings := Function.update s.notificationSettings tid ns
    channelConfig := Function.update s.channelConfig tid cc }

def monitorStepped (s : Notices) (e : Event) (m : Monitor) : Notices :=
  match e with
  | .handlerTimedOut k => s.cutOff k m
  | .restarted _ => { s with monitor := m, jobs := [] }
  | _ => { s with monitor := m }

def step (cfg : Settings) (zones : Zones) (s : Notices) (e : NoticeEvent) : Option Notices :=
  match e with
  | .monitor e => if e.plain then (s.monitor.step cfg e).map (s.monitorStepped e) else none
  | .stateUpdated k outcome => s.stateUpdated cfg zones k outcome
  | .scheduleFetched k next => s.scheduleFetched cfg k next
  | .delivered k id => s.delivered k id
  | .sendEnded k outcome => s.sendEnded cfg k outcome
  | .userDeactivated k ok => s.userDeactivated cfg k ok
  | .idsCommitted k => s.idsCommitted k
  | .settingsChanged tid ns cc => some (s.settingsChanged tid ns cc)
  | .scheduleChanged next => some { s with jobs := s.jobs ++ [{ nextEvent := next }] }
  | .usersLoaded j tids => s.usersLoaded j tids
  | .loadFailed j => s.loadFailed j
  | .composed j => s.composed j
  | .editEnded j outcome => s.editEnded j outcome

end Notices

def Notices.initial (now : Time) (rows : AList (fun _ : TelegramId => UserPowerStateRow))
    (tracking : TelegramId → Option PowerTracking) (val : Option (Option Int))
    (ns : TelegramId → Option NotificationSettings) (cc : TelegramId → Option ChannelConfig)
    (ids : TelegramId → MessageIds) : Notices where
  monitor := PowerMonitor.initial now rows tracking val
  notificationSettings := ns
  channelConfig := cc
  messageIds := ids

namespace Notices

variable {cfg : Settings} {zones : Zones} {s s' : Notices}

structure Quiet (s s' : Notices) (e : NoticeEvent) : Prop where
  monitor : s'.monitor = s.monitor
  sendings : s'.sendings = s.sendings
  sent : s'.sent = s.sent
  last : s'.last = s.last
  edits : (∀ j outcome, e ≠ .editEnded j outcome) → s'.edits = s.edits

theorem quiet_step {e : NoticeEvent} (he : e.quiet = true)
    (hstep : s.step cfg zones e = some s') : Quiet s s' e := by
  cases e with
  | idsCommitted k =>
    rcases Option.bind_eq_some_iff.mp hstep with ⟨task, _, hstep⟩
    rcases Option.bind_eq_some_iff.mp hstep with ⟨x, _, hstep⟩
    split at hstep
    . dsimp only at hstep
      split at hstep
      . cases hstep
        exact ⟨rfl, rfl, rfl, rfl, fun _ => rfl⟩
      . cases hstep
    . cases hstep
  | settingsChanged tid ns cc =>
    cases hstep
    exact ⟨rfl, rfl, rfl, rfl, fun _ => rfl⟩
  | scheduleChanged next =>
    cases hstep
    exact ⟨rfl, rfl, rfl, rfl, fun _ => rfl⟩
  | usersLoaded j tids =>
    rcases Option.bind_eq_some_iff.mp hstep with ⟨job, _, hstep⟩
    split at hstep
    . cases hstep
      exact ⟨rfl, rfl, rfl, rfl, fun _ => rfl⟩
    . cases hstep
      exact ⟨rfl, rfl, rfl, rfl, fun _ => rfl⟩
    . cases hstep
  | loadFailed j =>
    rcases Option.bind_eq_some_iff.mp hstep with ⟨job, _, hstep⟩
    split at hstep
    . cases hstep
      exact ⟨rfl, rfl, rfl, rfl, fun _ => rfl⟩
    . cases hstep
  | composed j =>
    rcases Option.bind_eq_some_iff.mp hstep with ⟨job, _, hstep⟩
    split at hstep
    . split at hstep
      . cases hstep
        exact ⟨rfl, rfl, rfl, rfl, fun _ => rfl⟩
      . cases hstep
        exact ⟨rfl, rfl, rfl, rfl, fun _ => rfl⟩
    . cases hstep
  | editEnded j outcome =>
    have hedits {p : Prop} (hne : ∀ j' outcome', NoticeEvent.editEnded j outcome ≠ .editEnded j' outcome')
        : p := absurd rfl (hne j outcome)
    rcases Option.bind_eq_some_iff.mp hstep with ⟨job, _, hstep⟩
    split at hstep
    . cases hstep
      exact ⟨rfl, rfl, rfl, rfl, hedits⟩
    . cases hstep
      unfold clearIds
      split <;> exact ⟨rfl, rfl, rfl, rfl, hedits⟩
    . cases hstep
      exact ⟨rfl, rfl, rfl, rfl, hedits⟩
    . cases hstep
  | _ => cases he

theorem monitor_goOn {k : TaskId} {x : Sending} (h : s.goOn cfg k x = some s')
    : ∃ es, Run.exec (Monitor.step cfg) s.monitor es = some s'.monitor := by
  unfold goOn at h
  dsimp only at h
  split at h
  . rcases Option.bind_eq_some_iff.mp h with ⟨m, hm, hs'⟩
    cases hs'
    exact ⟨[.handler k .sent], Run.exec_cons_eq_some.mpr ⟨m, hm, rfl⟩⟩
  . cases h
    exact ⟨[], rfl⟩

theorem monitor_cutOff (s : Notices) (k : TaskId) (m : Monitor) : (s.cutOff k m).monitor = m := by
  unfold cutOff
  split
  . split <;> rfl
  . rfl

theorem monitor_sendEnded {k : TaskId} {outcome : SendOutcome} (h : s.sendEnded cfg k outcome = some s')
    : ∃ es, Run.exec (Monitor.step cfg) s.monitor es = some s'.monitor := by
  rcases Option.bind_eq_some_iff.mp h with ⟨task, _, h⟩
  rcases Option.bind_eq_some_iff.mp h with ⟨x, _, h⟩
  dsimp only at h
  split at h
  . split at h
    . exact monitor_goOn h
    . cases h
  . cases h
    exact ⟨[], rfl⟩
  . exact monitor_goOn h
  . split at h
    . exact monitor_goOn h
    . cases h
  . exact monitor_goOn h
  . cases h

theorem monitor_userDeactivated {k : TaskId} {ok : Bool} (h : s.userDeactivated cfg k ok = some s')
    : ∃ es, Run.exec (Monitor.step cfg) s.monitor es = some s'.monitor := by
  rcases Option.bind_eq_some_iff.mp h with ⟨a, _, h⟩
  rcases Option.bind_eq_some_iff.mp h with ⟨x, _, h⟩
  split at h
  . split at h
    . exact monitor_goOn h
    . rcases Option.bind_eq_some_iff.mp h with ⟨m, hm, hs'⟩
      cases hs'
      rw [monitor_cutOff]
      exact ⟨[.handler k .sendRaised], Run.exec_cons_eq_some.mpr ⟨m, hm, rfl⟩⟩
  . cases h

theorem monitor_step {e : NoticeEvent} (h : s.step cfg zones e = some s')
    : ∃ es, Run.exec (Monitor.step cfg) s.monitor es = some s'.monitor := by
  have hquiet (he : e.quiet = true) : ∃ es, Run.exec (Monitor.step cfg) s.monitor es = some s'.monitor :=
    ⟨[], congrArg some (quiet_step he h).monitor.symm⟩
  cases e with
  | monitor e =>
    unfold step at h
    dsimp only at h
    split at h
    . rcases Option.map_eq_some_iff.mp h with ⟨m, hm, rfl⟩
      have hmonitor : (s.monitorStepped e m).monitor = m := by
        unfold monitorStepped
        split
        . exact monitor_cutOff s _ m
        . rfl
        . rfl
      rw [hmonitor]
      exact ⟨[e], Run.exec_cons_eq_some.mpr ⟨m, hm, rfl⟩⟩
    . cases h
  | stateUpdated k outcome =>
    rcases Option.bind_eq_some_iff.mp h with ⟨task, _, h⟩
    split at h
    . rcases Option.bind_eq_some_iff.mp h with ⟨m, hm, hs'⟩
      cases hs'
      exact ⟨[.handler k (.stateUpdated outcome)], Run.exec_cons_eq_some.mpr ⟨m, hm, rfl⟩⟩
    . cases h
  | scheduleFetched k next =>
    rcases Option.bind_eq_some_iff.mp h with ⟨task, _, h⟩
    rcases Option.bind_eq_some_iff.mp h with ⟨x, _, h⟩
    rcases Option.bind_eq_some_iff.mp h with ⟨m, hm, h⟩
    rcases monitor_goOn h with ⟨es, hes⟩
    exact ⟨.handler k .scheduleFetched :: es, Run.exec_cons_eq_some.mpr ⟨m, hm, hes⟩⟩
  | delivered k id =>
    rcases Option.bind_eq_some_iff.mp h with ⟨task, _, h⟩
    rcases Option.bind_eq_some_iff.mp h with ⟨x, _, h⟩
    split at h
    . rcases Option.bind_eq_some_iff.mp h with ⟨chat, _, h⟩
      split at h
      . cases h
        exact ⟨[], rfl⟩
      . cases h
    . cases h
  | sendEnded k outcome => exact monitor_sendEnded h
  | userDeactivated k ok => exact monitor_userDeactivated h
  | idsCommitted k => exact hquiet rfl
  | settingsChanged tid ns cc => exact hquiet rfl
  | scheduleChanged next => exact hquiet rfl
  | usersLoaded j tids => exact hquiet rfl
  | loadFailed j => exact hquiet rfl
  | composed j => exact hquiet rfl
  | editEnded j outcome => exact hquiet rfl

/--
Whatever becomes of the messages, the monitor goes through a run of its own.
-/
theorem exec_monitor {es : List NoticeEvent} (h : Run.exec (step cfg zones) s es = some s')
    : ∃ ms, Run.exec (Monitor.step cfg) s.monitor ms = some s'.monitor :=
  Run.exec_of_simulation (f := Notices.monitor) monitor_step h

end Notices
end PowerMonitor
