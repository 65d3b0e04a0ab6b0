import VoltykBot.Lib.Run
import VoltykBot.Power.PingAlerts
import VoltykBot.Utils.RouterAddress

/-!
This module contains the dialogues in which users enter and delete the address of their router, as sessions that the
database executes side by side at the isolation level READ COMMITTED, with the alerts that they switch on and off.
-/

namespace IpDialog

open PingAlerts

/--
No statement reads `answered`: whether the router answered when its address was entered.
-/
structure User where
  id : Nat
  telegramId : String
  routerIp : Option String
  answered : Bool
  deriving DecidableEq, Repr

inductive Call where
  | ipInput (address : String)
  | ipDelete
  deriving DecidableEq, Repr

inductive Pc where
  | reading
  | saving (id : Nat)
  | checking (found : Bool)
  | alerting
  | finished
  deriving DecidableEq, Repr

inductive AlertWrite where
  | upsert (id : Nat) (routerIp : String)
  | deactivate
  deriving DecidableEq, Repr

/--
`saved` is the user whose `router_ip` it has set, and `alert` what it has written to `ping_error_alerts`. Nobody else
sees either before the commit, and the rows are locked until then.
-/
structure Session where
  telegramId : String
  call : Call
  pc : Pc := .reading
  saved : Option Nat := none
  verdict : Option Bool := none
  alert : Option AlertWrite := none
  deriving DecidableEq, Repr

def ipInput (telegramId text : String) : Option Session :=
  match RouterAddress.isValidIpOrDomain text with
  | some (.valid address _ _ _) => some { telegramId, call := .ipInput (String.ofList address) }
  | _ => none

def ipDelete (telegramId : String) : Session := { telegramId, call := .ipDelete }

namespace Call

variable (call : Call)

def routerIp : Option String :=
  match call with
  | ipInput address => some address
  | ipDelete => none

def afterSave : Pc :=
  match call with
  | ipInput _ => .checking true
  | ipDelete => .alerting

def afterRead (user : Option User) : Pc :=
  match user with
  | some user => if user.routerIp = call.routerIp then call.afterSave else .saving user.id
  | none =>
    match call with
    | ipInput _ => .checking false
    | ipDelete => .finished

end Call

def Session.ended (telegramId : String) : Session := { telegramId, call := .ipDelete, pc := .finished }

def Session.assign (session : Session) (user : User) : User :=
  if session.saved = some user.id then
    { user with routerIp := session.call.routerIp, answered := session.verdict = some true }
  else
    user

def hasAlert (alerts : Alerts) (telegramId : String) : Bool := alerts.rows.any (·.telegramId = telegramId)

def AlertWrite.apply (write : AlertWrite) (telegramId : String) (alerts : Alerts) : Option Alerts :=
  match write with
  | upsert id routerIp => upsertPingErrorAlert alerts id telegramId routerIp
  | deactivate => some (deactivatePingErrorAlert alerts telegramId)

def Session.alerted (session : Session) (alerts : Alerts) : Option Alerts :=
  match session.alert with
  | some write => write.apply session.telegramId alerts
  | none => some alerts

structure Database where
  users : List User
  alerts : Alerts
  nextUserId : Nat
  nextAlertId : Nat
  sessions : List Session := []

namespace Database

variable (db : Database)

def others (i : Nat) : List Session := db.sessions.eraseIdx i

def userIsFree (sessions : List Session) (id : Nat) : Bool := sessions.all fun other => other.saved ≠ some id

def alertIsFree (sessions : List Session) (telegramId : String) : Bool :=
  sessions.all fun other => other.alert = none ∨ other.telegramId ≠ telegramId

def read (session : Session) : Option Session :=
  match session.pc with
  | .reading =>
    let user := db.users.find? (·.telegramId = session.telegramId)
    some { session with pc := session.call.afterRead user }
  | _ => none

/--
An `UPDATE` that finds no row raises.
-/
def save (i : Nat) (session : Session) : Option Session :=
  match session.pc with
  | .saving id =>
    if userIsFree (db.others i) id && db.users.any (·.id = id) then
      some { session with pc := session.call.afterSave, saved := some id }
    else
      none
  | _ => none

def check (isAlive : Bool) (session : Session) : Option Session :=
  match session.pc with
  | .checking found =>
    some { session with pc := if found && !isAlive then .alerting else .finished, verdict := some isAlive }
  | _ => none

/--
The `UPDATE` of `deactivate_ping_error_alert` passes over a row that is not committed, the `INSERT` of
`upsert_ping_error_alert` waits for it. What either raises is caught, but the transaction cannot be committed any more.
-/
def writeAlert (i : Nat) (session : Session) : Option Session :=
  match session.pc, session.call with
  | .alerting, .ipInput address =>
    if alertIsFree (db.others i) session.telegramId then
      some { session with pc := .finished, alert := some (.upsert db.nextAlertId address) }
    else
      none
  | .alerting, .ipDelete =>
    if !hasAlert db.alerts session.telegramId then
      some { session with pc := .finished }
    else if alertIsFree (db.others i) session.telegramId then
      some { session with pc := .finished, alert := some .deactivate }
    else
      none
  | _, _ => none

def commit (i : Nat) (session : Session) : Option Database :=
  match session.pc with
  | .finished => (session.alerted db.alerts).map fun alerts => { db with
      users := db.users.map session.assign
      alerts
      sessions := db.sessions.set i (.ended session.telegramId) }
  | _ => none

end Database

/--
`registered` and `userDeleted` are the transactions of the wizard and of the settings, `alertDeactivated` and
`alertStamped` those of the power monitor, as far as they touch these rows. A session can be rolled back at any time.
-/
inductive Event where
  | ipEntered (telegramId text : String)
  | ipDeleted (telegramId : String)
  | userRead (i : Nat)
  | saved (i : Nat)
  | checked (i : Nat) (isAlive : Bool)
  | alertWritten (i : Nat)
  | committed (i : Nat)
  | rolledBack (i : Nat)
  | registered (telegramId : String)
  | userDeleted (telegramId : String)
  | alertDeactivated (telegramId : String)
  | alertStamped (telegramId : String) (now : Int)
  deriving DecidableEq, Repr

def Database.setSession (db : Database) (i : Nat) (session : Session) : Database :=
  { db with sessions := db.sessions.set i session }

def step (db : Database) (e : Event) : Option Database :=
  match e with
  | .ipEntered telegramId text =>
    (ipInput telegramId text).map fun session => { db with sessions := db.sessions ++ [session] }
  | .ipDeleted telegramId => some { db with sessions := db.sessions ++ [ipDelete telegramId] }
  | .userRead i => do
    let session ← db.sessions[i]?
    (db.read session).map (db.setSession i)
  | .saved i => do
    let session ← db.sessions[i]?
    (db.save i session).map (db.setSession i)
  | .checked i isAlive => do
    let session ← db.sessions[i]?
    (Database.check isAlive session).map (db.setSession i)
  | .alertWritten i => do
    let session ← db.sessions[i]?
    (db.writeAlert i session).map fun session => { db.setSession i session with nextAlertId := db.nextAlertId + 1 }
  | .committed i => do
    let session ← db.sessions[i]?
    db.commit i session
  | .rolledBack i => do
    let session ← db.sessions[i]?
    some (db.setSession i (.ended session.telegramId))
  | .registered telegramId =>
    if db.users.all (·.telegramId ≠ telegramId) then
      some { db with
        users := db.users ++ [⟨db.nextUserId, telegramId, none, false⟩]
        nextUserId := db.nextUserId + 1 }
    else
      none
  | .userDeleted telegramId =>
    if db.users.all fun user => user.telegramId ≠ telegramId ∨ Database.userIsFree db.sessions user.id then
      some { db with users := db.users.filter (·.telegramId ≠ telegramId) }
    else
      none
  | .alertDeactivated telegramId =>
    if !hasAlert db.alerts telegramId || Database.alertIsFree db.sessions telegramId then
      some { db with alerts := deactivatePingErrorAlert db.alerts telegramId }
    else
      none
  | .alertStamped telegramId now =>
    if !hasAlert db.alerts telegramId || Database.alertIsFree db.sessions telegramId then
      some { db with alerts := updatePingErrorAlertTime db.alerts telegramId now }
    else
      none

end IpDialog
