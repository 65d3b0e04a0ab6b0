import Mathlib.Logic.Function.Basic
import VoltykBot.Handlers.Wizard
import VoltykBot.Lib.ColumnUpdate
import VoltykBot.Lib.PyText
import VoltykBot.Lib.Run

/-!
This module contains the buttons that change the notification settings of a user and of its channel, and the sessions
that handle them side by side at the isolation level READ COMMITTED.
-/

namespace Switches

open ColumnUpdate

inductive Switch where
  | notifyScheduleChanges
  | notifyDailySchedule0600
  | notifyRemindOff
  | notifyFactOff
  | notifyRemindOn
  | notifyFactOn
  | remind15m
  | remind30m
  | remind1h
  | autoDeleteCommands
  | autoDeleteBotMessages
  | chNotifySchedule
  | chNotifyDailySchedule0600
  | chNotifyFactOff
  | chNotifyFactOn
  | chRemind15m
  | chRemind30m
  | chRemind1h
  | deleteOldMessage
  | pictureOnly
  deriving DecidableEq, Repr

inductive Target where
  | notifyScheduleTarget
  | notifyRemindTarget
  | notifyPowerTarget
  deriving DecidableEq, Repr

structure Settings where
  flags : Switch → Bool
  targets : Target → String

def defaults : Settings where
  flags switch :=
    match switch with
    | .remind30m => false
    | .remind1h => false
    | .autoDeleteCommands => false
    | .autoDeleteBotMessages => false
    | .chRemind30m => false
    | .chRemind1h => false
    | .deleteOldMessage => false
    | .pictureOnly => false
    | _ => true
  targets _ := "bot"

inductive Assignment where
  | flags (change : Change Switch Bool)
  | targets (change : Change Target String)

def Assignment.apply (assignment : Assignment) (settings : Settings) : Settings :=
  match assignment with
  | .flags change => { settings with flags := change.apply settings.flags }
  | .targets change => { settings with targets := change.apply settings.targets }

def nothing : Assignment := .flags { writes := [], value := fun _ => false, own := fun _ => rfl }

/--
The first switch is flipped, and the others are set to what it is then.
-/
def flip (switch : Switch) (others : List Switch) : Assignment :=
  .flags {
    writes := switch :: others
    value := fun flags => !flags switch
    own := fun hsame => congrArg not (hsame switch List.mem_cons_self) }

def setTarget (target : Target) (value : String) : Assignment :=
  .targets { writes := [target], value := fun _ => value, own := fun _ => rfl }

def safeParseCallbackInt (data start : String) : Option Int :=
  if Wizard.startsWith data start then
    PyText.parseInt (data.toList.drop start.length)
  else
    none

def flipReminder (quarter half hour : Switch) (minutes : Option Int) : Assignment :=
  match minutes with
  | some 15 => flip quarter []
  | some 30 => flip half []
  | some 60 => flip hour []
  | _ => nothing

def wizardToggleSchedule : Assignment := flip .notifyScheduleChanges []

def wizardToggleTime (data : String) : Assignment :=
  flipReminder .remind15m .remind30m .remind1h (safeParseCallbackInt data "wizard_notif_time_")

def wizardToggleFact : Assignment := flip .notifyFactOff [.notifyFactOn]

def notifToggleSchedule : Assignment := flip .notifyScheduleChanges []

/--
The fallback of `_daily_0600_enabled` is never used, since each row has the attribute.
-/
def notifToggleDaily0600 : Assignment := flip .notifyDailySchedule0600 []

def fieldMap : List (String × Switch) := [
  ("remind_off", .notifyRemindOff),
  ("fact_off", .notifyFactOff),
  ("remind_on", .notifyRemindOn),
  ("fact_on", .notifyFactOn)]

def notifToggle (data : String) : Assignment :=
  let field := Wizard.removed data "notif_toggle_"
  match fieldMap.lookup field with
  | none => nothing
  | some attr =>
    if field = "fact_off" then flip attr [.notifyFactOn]
    else if field = "fact_on" then flip attr [.notifyFactOff]
    else flip attr []

def notifTime (data : String) : Assignment :=
  flipReminder .remind15m .remind30m .remind1h (safeParseCallbackInt data "notif_time_")

def allowedTargets : List String := ["bot", "channel", "both"]

/--
`rsplit("_", 1)` of a text with an underscore
-/
def rsplitUnderscore (text : List Char) : String × String :=
  (String.ofList (text.reverse.dropWhile (· ≠ '_')).tail.reverse,
    String.ofList (text.reverse.takeWhile (· ≠ '_')).reverse)

def attrMap : List (String × Target) := [
  ("schedule", .notifyScheduleTarget),
  ("remind", .notifyRemindTarget),
  ("power", .notifyPowerTarget)]

def notifTargetSet (data : String) : Assignment :=
  let text := (Wizard.removed data "notif_target_set_").toList
  let parts := rsplitUnderscore text
  if '_' ∈ text ∧ parts.2 ∈ allowedTargets then
    match attrMap.lookup parts.1 with
    | none => nothing
    | some attr => setTarget attr parts.2
  else
    nothing

def alertToggle : Assignment :=
  .flags {
    writes := [.notifyScheduleChanges, .notifyRemindOff, .notifyFactOff, .notifyRemindOn, .notifyFactOn]
    value := fun flags => !(flags .notifyScheduleChanges || flags .notifyRemindOff || flags .notifyFactOff)
    own := by
      intro flags flags' hsame
      rw [hsame .notifyScheduleChanges (by decide), hsame .notifyRemindOff (by decide),
        hsame .notifyFactOff (by decide)] }

def chNotifHandler (data : String) : Assignment :=
  let action := Wizard.removed data "ch_notif_"
  if action = "toggle_schedule" then
    flip .chNotifySchedule []
  else if action = "toggle_daily_0600" then
    flip .chNotifyDailySchedule0600 []
  else if action = "toggle_fact" then
    flip .chNotifyFactOff [.chNotifyFactOn]
  else if Wizard.startsWith action "time_" then
    flipReminder .chRemind15m .chRemind30m .chRemind1h (safeParseCallbackInt action "time_")
  else
    nothing

def cleanupToggleCommands : Assignment := flip .autoDeleteCommands []

def cleanupToggleMessages : Assignment := flip .autoDeleteBotMessages []

def formatToggleDelete : Assignment := flip .deleteOldMessage []

def formatTogglePiconly : Assignment := flip .pictureOnly []

/--
A press of a button. Those of the wizard are handled in its step `bot_notifications` only.
-/
structure Press where
  botNotifications : Bool
  data : String
  deriving DecidableEq, Repr

structure Handler where
  filter : Press → Bool
  assignment : String → Assignment

def equals (data : String) (press : Press) : Bool := press.data = data

def startsWith (start : String) (press : Press) : Bool := Wizard.startsWith press.data start

def inBotNotifications (filter : Press → Bool) (press : Press) : Bool := press.botNotifications && filter press

/--
In the order of the routers
-/
def handlers : List Handler := [
  { filter := inBotNotifications (equals "wizard_notif_toggle_schedule"), assignment := fun _ => wizardToggleSchedule },
  { filter := inBotNotifications (startsWith "wizard_notif_time_"), assignment := wizardToggleTime },
  { filter := inBotNotifications (equals "wizard_notif_toggle_fact"), assignment := fun _ => wizardToggleFact },
  { filter := equals "notif_toggle_schedule", assignment := fun _ => notifToggleSchedule },
  { filter := equals "notif_toggle_daily_0600", assignment := fun _ => notifToggleDaily0600 },
  { filter := startsWith "notif_toggle_", assignment := notifToggle },
  { filter := startsWith "notif_time_", assignment := notifTime },
  { filter := startsWith "notif_target_set_", assignment := notifTargetSet },
  { filter := equals "alert_toggle", assignment := fun _ => alertToggle },
  { filter := startsWith "ch_notif_", assignment := chNotifHandler },
  { filter := equals "cleanup_toggle_commands", assignment := fun _ => cleanupToggleCommands },
  { filter := equals "cleanup_toggle_messages", assignment := fun _ => cleanupToggleMessages },
  { filter := equals "format_toggle_delete", assignment := fun _ => formatToggleDelete },
  { filter := equals "format_toggle_piconly", assignment := fun _ => formatTogglePiconly }]

def Press.assignment (press : Press) : Option Assignment :=
  (handlers.find? (·.filter press)).map (·.assignment press.data)

structure Session where
  userId : Nat
  loaded : Settings
  assignment : Assignment

inductive Commit where
  | registered (userId : Nat)
  | deleted (userId : Nat)
  | assigned (userId : Nat) (assignment : Assignment)

abbrev Rows := Nat → Option Settings

/--
`log` records the commits. No step reads it.
-/
structure Database where
  rows : Rows := fun _ => none
  nextUserId : Nat := 1
  sessions : List Session := []
  log : List Commit := []

inductive Event where
  | registered
  | deleted (userId : Nat)
  | pressed (userId : Nat) (press : Press)
  | committed (i : Nat)
  | rolledBack (i : Nat)
  deriving DecidableEq, Repr

/--
The update of a row sets the columns in which the loaded row has been changed.
-/
def Settings.update (loaded changed row : Settings) : Settings where
  flags := ColumnUpdate.update loaded.flags changed.flags row.flags
  targets := ColumnUpdate.update loaded.targets changed.targets row.targets

/--
The update of a row that is gone fails, and the session is rolled back.
-/
def Database.commit (db : Database) (i : Nat) (session : Session) : Database :=
  let ended := { db with sessions := db.sessions.eraseIdx i }
  match db.rows session.userId with
  | none => ended
  | some row => { ended with
      rows := Function.update db.rows session.userId
        (some (session.loaded.update (session.assignment.apply session.loaded) row))
      log := db.log ++ [.assigned session.userId session.assignment] }

def step (db : Database) (e : Event) : Option Database :=
  match e with
  | .registered => some { db with
      rows := Function.update db.rows db.nextUserId (some defaults)
      nextUserId := db.nextUserId + 1
      log := db.log ++ [.registered db.nextUserId] }
  | .deleted userId => some { db with
      rows := Function.update db.rows userId none
      log := db.log ++ [.deleted userId] }
  | .pressed userId press => do
    let assignment ← press.assignment
    let loaded ← db.rows userId
    some { db with sessions := db.sessions ++ [⟨userId, loaded, assignment⟩] }
  | .committed i => do
    let session ← db.sessions[i]?
    some (db.commit i session)
  | .rolledBack i => do
    let _ ← db.sessions[i]?
    some { db with sessions := db.sessions.eraseIdx i }

end Switches
