import VoltykBot.Reminders.NextEvent

/-!
This module contains who is sent which reminder: the settings of the users, the lists that a tick of the
checker and the catch-up build for one pair, and the two messages of `_send_reminder`.
-/

namespace Scheduler.Reminders

abbrev TelegramId := String

inductive Remind where
  | h1
  | m30
  | m15
  deriving DecidableEq, Repr

def Remind.minutes (m : Remind) : Int :=
  match m with
  | .h1 => 60
  | .m30 => 30
  | .m15 => 15

def remindMinutes : List Remind := [.h1, .m30, .m15]

structure NotificationSettings where
  notifyScheduleChanges : Bool := true
  notifyDailySchedule0600 : Bool := true
  notifyRemindOff : Bool := true
  notifyRemindOn : Bool := true
  remind15m : Bool := true
  remind30m : Bool := false
  remind1h : Bool := false
  notifyScheduleTarget : String := "bot"
  notifyRemindTarget : String := "bot"
  deriving DecidableEq, Repr

structure ChannelConfig where
  channelId : Option String
  channelStatus : String := "active"
  channelPaused : Bool := false
  chNotifySchedule : Bool := true
  chNotifyDailySchedule0600 : Bool := true
  chNotifyRemindOff : Bool := true
  chNotifyRemindOn : Bool := true
  chRemind15m : Bool := true
  chRemind30m : Bool := false
  chRemind1h : Bool := false
  deriving DecidableEq, Repr

structure User where
  telegramId : TelegramId
  region : String
  queue : String
  notificationSettings : Option NotificationSettings
  channelConfig : Option ChannelConfig
  deriving DecidableEq, Repr

def NotificationSettings.remind (ns : NotificationSettings) (m : Remind) : Bool :=
  match m with
  | .h1 => ns.remind1h
  | .m30 => ns.remind30m
  | .m15 => ns.remind15m

def NotificationSettings.notifyRemind (ns : NotificationSettings) (type : EventType) : Bool :=
  match type with
  | .powerOff => ns.notifyRemindOff
  | .powerOn => ns.notifyRemindOn

def ChannelConfig.chRemind (cc : ChannelConfig) (m : Remind) : Bool :=
  match m with
  | .h1 => cc.chRemind1h
  | .m30 => cc.chRemind30m
  | .m15 => cc.chRemind15m

def ChannelConfig.chNotifyRemind (cc : ChannelConfig) (type : EventType) : Bool :=
  match type with
  | .powerOff => cc.chNotifyRemindOff
  | .powerOn => cc.chNotifyRemindOn

def ChannelConfig.activeChannel (cc : ChannelConfig) : Option String :=
  match cc.channelId with
  | none => none
  | some id => if id ≠ "" ∧ cc.channelStatus = "active" ∧ cc.channelPaused = false then some id else none

def collects (user : User) : Bool :=
  match user.notificationSettings with
  | none => false
  | some ns => remindMinutes.any ns.remind && (ns.notifyRemindOff || ns.notifyRemindOn)

/--
The settings that `to_send` asks for, the same in both routines.
-/
def wants (type : EventType) (m : Remind) (user : User) : Bool :=
  match user.notificationSettings with
  | none => false
  | some ns => ns.notifyRemind type && ns.remind m

def inWindow (minutes : Int) (m : Remind) : Bool :=
  m.minutes - 1 ≤ minutes ∧ minutes ≤ m.minutes + 1

structure Send where
  user : User
  remind : Remind
  deriving DecidableEq, Repr

def checkerToSend (next : NextEvent) (users : List User) : List Send :=
  (users.filter collects).flatMap fun user =>
    (remindMinutes.filter fun m => wants next.type m user && inWindow next.minutes m).map
      fun m => { user := user, remind := m }

def catchUpToSend (next : NextEvent) (users : List User) (m : Remind) : List Send :=
  ((users.filter collects).filter (wants next.type m)).map fun user => { user := user, remind := m }

/--
The lists that the catch-up works off, one after the other; it skips those that are empty.
-/
def catchUpBatches (next : NextEvent) (users : List User) : List (List Send) :=
  if next.minutes ≤ 0 ∨ Remind.minutes .h1 + 1 < next.minutes then
    []
  else
    ((remindMinutes.filter fun m => next.minutes ≤ m.minutes + 1).map
      (catchUpToSend next users)).filter (· ≠ [])

def checkerBatches (next : NextEvent) (users : List User) : List (List Send) :=
  [checkerToSend next users].filter (· ≠ [])

/-! ## `_send_reminder` -/

def sendToBot (user : User) : Bool :=
  match user.notificationSettings with
  | none => false
  | some ns => ns.notifyRemindTarget ≠ "channel"

def sendToChannel (type : EventType) (m : Remind) (user : User) : Option String :=
  match user.channelConfig with
  | none => none
  | some cc => if cc.chNotifyRemind type && cc.chRemind m then cc.activeChannel else none

structure Outcome where
  bot : Option Nat
  channel : Option Nat
  deriving DecidableEq, Repr

def botMessage (user : User) (outcome : Outcome) : Option Nat :=
  if sendToBot user then outcome.bot else none

def channelMessage (type : EventType) (send : Send) (outcome : Outcome) : Option Nat :=
  if send.user.notificationSettings.isSome && (sendToChannel type send.remind send.user).isSome then
    outcome.channel
  else
    none

def sent (type : EventType) (send : Send) (outcome : Outcome) : Bool :=
  (botMessage send.user outcome).isSome || (channelMessage type send outcome).isSome

def Send.targeted (type : EventType) (send : Send) : Bool :=
  sendToBot send.user ||
    send.user.notificationSettings.isSome && (sendToChannel type send.remind send.user).isSome

theorem targeted_of_sent {type : EventType} {send : Send} {outcome : Outcome}
    (h : sent type send outcome = true) : send.targeted type = true := by
  unfold sent botMessage channelMessage at h
  unfold Send.targeted
  rw [Bool.or_eq_true] at h ⊢
  cases h with
  | inl h =>
    left
    split at h
    . assumption
    . cases h
  | inr h =>
    right
    split at h
    . assumption
    . cases h

structure Key where
  telegramId : TelegramId
  periodKey : IsoTime
  reminderType : Remind
  deriving DecidableEq, Repr

structure SentReminder where
  key : Key
  region : String
  queue : String
  createdAt : Int
  deriving DecidableEq, Repr

def Send.key (next : NextEvent) (send : Send) : Key where
  telegramId := send.user.telegramId
  periodKey := next.time
  reminderType := send.remind

def recorded (table : List SentReminder) (key : Key) : Bool := table.any (·.key = key)

/--
`mark_reminder_sent`, which does nothing on a conflict
-/
def markReminderSent (table : List SentReminder) (row : SentReminder) : List SentReminder :=
  if recorded table row.key then table else table ++ [row]

def markAll (table : List SentReminder) (pair : Pair) (createdAt : Key → Int) (keys : List Key)
    : List SentReminder :=
  keys.foldl (fun table key => markReminderSent table {
    key := key
    region := pair.1
    queue := pair.2
    createdAt := createdAt key }) table

theorem recorded_iff {table : List SentReminder} {key : Key}
    : recorded table key = true ↔ ∃ row ∈ table, row.key = key := by
  simp [recorded]

theorem recorded_markReminderSent {table : List SentReminder} {row : SentReminder} {key : Key}
    : recorded (markReminderSent table row) key = true ↔ recorded table key = true ∨ row.key = key := by
  unfold markReminderSent
  split
  . next hrow =>
    constructor
    . exact .inl
    . rintro (hkey | rfl)
      . exact hkey
      . exact hrow
  . simp only [recorded_iff, List.mem_append, List.mem_singleton, or_and_right, exists_or,
      exists_eq_left]

theorem recorded_markAll {table : List SentReminder} {pair : Pair} {createdAt : Key → Int} {keys : List Key}
    {key : Key}
    : recorded (markAll table pair createdAt keys) key = true ↔
        recorded table key = true ∨ key ∈ keys := by
  unfold markAll
  induction keys generalizing table with
  | nil => simp
  | cons key' keys ih =>
    rw [List.foldl_cons, ih, recorded_markReminderSent, List.mem_cons, or_assoc]
    apply or_congr_right
    apply or_congr_left
    exact eq_comm

end Scheduler.Reminders
