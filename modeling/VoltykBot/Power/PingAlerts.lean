import VoltykBot.Lib.Keyset
import VoltykBot.Lib.Run

/-!
This module contains `daily_ping_error_loop`: each hour it reads the active alerts page by page, checks the routers that
were not warned of for a day, and warns their users. The table of the alerts may change at any time.
-/

namespace PingAlerts

def batchSize : Nat := 500

def hourUs : Int := 3600 * 1000000

def dayUs : Int := 86400 * 1000000

/--
`lastAlertAt` is in microseconds.
-/
structure PingErrorAlert where
  id : Nat
  telegramId : String
  routerIp : String
  lastAlertAt : Option Int
  isActive : Bool
  deriving DecidableEq, Repr

/--
The table `ping_error_alerts`: `id` is the primary key, and a user has one row at most. No query deletes a row.
-/
structure Alerts where
  rows : List PingErrorAlert
  ids_nodup : (rows.map PingErrorAlert.id).Nodup
  users_nodup : (rows.map PingErrorAlert.telegramId).Nodup

theorem map_map_update {β : Type} {f : PingErrorAlert → PingErrorAlert} {key : PingErrorAlert → β}
    (hf : ∀ row, key (f row) = key row) (rows : List PingErrorAlert) : (rows.map f).map key = rows.map key := by
  rw [List.map_map]
  exact List.map_congr_left fun row _ => hf row

def Alerts.update (alerts : Alerts) (f : PingErrorAlert → PingErrorAlert) (hid : ∀ row, (f row).id = row.id)
    (huser : ∀ row, (f row).telegramId = row.telegramId) : Alerts where
  rows := alerts.rows.map f
  ids_nodup := map_map_update hid alerts.rows ▸ alerts.ids_nodup
  users_nodup := map_map_update huser alerts.rows ▸ alerts.users_nodup

def PingErrorAlert.reactivate (telegramId routerIp : String) (row : PingErrorAlert) : PingErrorAlert :=
  if row.telegramId = telegramId then { row with routerIp, isActive := true } else row

def PingErrorAlert.deactivate (telegramId : String) (row : PingErrorAlert) : PingErrorAlert :=
  if row.telegramId = telegramId then { row with isActive := false } else row

def PingErrorAlert.stamp (telegramId : String) (now : Int) (row : PingErrorAlert) : PingErrorAlert :=
  if row.telegramId = telegramId then { row with lastAlertAt := some now } else row

/--
`upsert_ping_error_alert`, where a new row has the id that the sequence gives it.
-/
def upsertPingErrorAlert (alerts : Alerts) (id : Nat) (telegramId routerIp : String) : Option Alerts :=
  if huser : telegramId ∈ alerts.rows.map PingErrorAlert.telegramId then
    some (alerts.update (.reactivate telegramId routerIp)
      (by intro row; unfold PingErrorAlert.reactivate; split <;> rfl)
      (by intro row; unfold PingErrorAlert.reactivate; split <;> rfl))
  else if hid : id ∈ alerts.rows.map PingErrorAlert.id then
    none
  else
    some {
      rows := ⟨id, telegramId, routerIp, none, true⟩ :: alerts.rows
      ids_nodup := List.nodup_cons.mpr ⟨hid, alerts.ids_nodup⟩
      users_nodup := List.nodup_cons.mpr ⟨huser, alerts.users_nodup⟩ }

def deactivatePingErrorAlert (alerts : Alerts) (telegramId : String) : Alerts :=
  alerts.update (.deactivate telegramId)
    (by intro row; unfold PingErrorAlert.deactivate; split <;> rfl)
    (by intro row; unfold PingErrorAlert.deactivate; split <;> rfl)

def updatePingErrorAlertTime (alerts : Alerts) (telegramId : String) (now : Int) : Alerts :=
  alerts.update (.stamp telegramId now)
    (by intro row; unfold PingErrorAlert.stamp; split <;> rfl)
    (by intro row; unfold PingErrorAlert.stamp; split <;> rfl)

def getActivePingErrorAlertsCursor (alerts : Alerts) (limit afterId : Nat) : List PingErrorAlert :=
  Keyset.page PingErrorAlert.id PingErrorAlert.isActive limit afterId alerts.rows

inductive AlertPc where
  | pinging
  | restoring
  | sending
  | stamping
  | blocking
  deriving DecidableEq, Repr

/--
`now` is read when a pass begins. `alerts` stands at the inner loop and `body` in its body; both have the page and what
is left of it.
-/
inductive Pc where
  | sleeping (wakeAt : Int)
  | reading (now : Int) (afterId : Nat)
  | alerts (now : Int) (batch rest : List PingErrorAlert)
  | body (now : Int) (batch rest : List PingErrorAlert) (alert : PingErrorAlert) (pc : AlertPc)
  | returned
  deriving DecidableEq, Repr

structure Message where
  alertId : Nat
  telegramId : String
  routerIp : String
  arrivedAt : Int
  stamped : Bool
  deriving DecidableEq, Repr

/--
No step reads `passed` and `current`, the messages of the passes that are over and of the one that goes on, the newest
first.
-/
structure Monitor where
  table : Alerts
  clock : Int
  pc : Pc
  passed : List Message := []
  current : List Message := []

/--
How the call of `send_message` ends, with its retries. A message may have arrived even though the call raised.
-/
inductive Answer where
  | sent
  | forbidden
  | raised (arrived : Bool)
  deriving DecidableEq, Repr

def Answer.arrived (answer : Answer) : Bool :=
  match answer with
  | .sent => true
  | .forbidden => false
  | .raised arrived => arrived

/--
`upserted` and `deactivated` are transactions of the handlers and the power monitor. `restored`, `stamped` and
`blockedRecorded` end a transaction of the loop, which may not have taken effect.
-/
inductive Event where
  | elapsed (us : Nat)
  | upserted (id : Nat) (telegramId routerIp : String)
  | deactivated (telegramId : String)
  | woke
  | stopped
  | pageRead
  | pageFailed
  | alertTaken
  | pinged (isAlive : Bool)
  | pingRaised
  | restored (committed : Bool)
  | answered (answer : Answer)
  | stamped (committed : Bool)
  | blockedRecorded (committed : Bool)
  | cancelled

def startMonitor (table : Alerts) (clock : Int) : Monitor := { table, clock, pc := .sleeping (clock + hourUs) }

namespace Monitor

variable (s : Monitor)

def passOver : Monitor :=
  { s with pc := .sleeping (s.clock + hourUs), passed := s.current ++ s.passed, current := [] }

def woke : Option Monitor :=
  match s.pc with
  | .sleeping wakeAt => if wakeAt ≤ s.clock then some { s with pc := .reading s.clock 0 } else none
  | _ => none

def stopped : Option Monitor :=
  match s.pc with
  | .sleeping _ => some { s with pc := .returned }
  | _ => none

def pageRead : Option Monitor :=
  match s.pc with
  | .reading now afterId =>
    let alerts := getActivePingErrorAlertsCursor s.table batchSize afterId
    some (if alerts = [] then s.passOver else { s with pc := .alerts now alerts alerts })
  | _ => none

def pageFailed : Option Monitor :=
  match s.pc with
  | .reading _ _ => some s.passOver
  | _ => none

def Rests (now : Int) (alert : PingErrorAlert) : Prop :=
  ∃ lastAt, alert.lastAlertAt = some lastAt ∧ now - lastAt < dayUs

instance (now : Int) (alert : PingErrorAlert) : Decidable (Rests now alert) :=
  match h : alert.lastAlertAt with
  | some lastAt => decidable_of_iff (now - lastAt < dayUs) (by simp [Rests, h])
  | none => .isFalse (by simp [Rests, h])

def alertTaken : Option Monitor :=
  match s.pc with
  | .alerts now batch (alert :: rest) =>
    some { s with pc := if Rests now alert then .alerts now batch rest else .body now batch rest alert .pinging }
  | .alerts now batch [] =>
    some (if batch.length < batchSize then s.passOver
      else { s with pc := .reading now (batch.getLast?.elim 0 PingErrorAlert.id) })
  | _ => none

def pinged (isAlive : Bool) : Option Monitor :=
  match s.pc with
  | .body now batch rest alert .pinging =>
    some { s with pc := .body now batch rest alert (if isAlive then .restoring else .sending) }
  | _ => none

def pingRaised : Option Monitor :=
  match s.pc with
  | .body now batch rest _ .pinging => some { s with pc := .alerts now batch rest }
  | _ => none

def restored (committed : Bool) : Option Monitor :=
  match s.pc with
  | .body now batch rest alert .restoring =>
    some { s with
      table := if committed then deactivatePingErrorAlert s.table alert.telegramId else s.table
      pc := .alerts now batch rest }
  | _ => none

def answered (answer : Answer) : Option Monitor :=
  match s.pc with
  | .body now batch rest alert .sending =>
    let message : Message := ⟨alert.id, alert.telegramId, alert.routerIp, s.clock, false⟩
    let s := { s with current := if answer.arrived then message :: s.current else s.current }
    match answer with
    | .sent => some { s with pc := .body now batch rest alert .stamping }
    | .forbidden => some { s with pc := .body now batch rest alert .blocking }
    | .raised _ => some { s with pc := .alerts now batch rest }
  | _ => none

def markStamped (messages : List Message) : List Message :=
  match messages with
  | [] => []
  | message :: messages => { message with stamped := true } :: messages

def stamped (committed : Bool) : Option Monitor :=
  match s.pc with
  | .body now batch rest alert .stamping =>
    if committed then
      some { s with
        table := updatePingErrorAlertTime s.table alert.telegramId s.clock
        pc := .alerts now batch rest
        current := markStamped s.current }
    else
      some { s with pc := .alerts now batch rest }
  | _ => none

def blockedRecorded (committed : Bool) : Option Monitor :=
  match s.pc with
  | .body now batch rest alert .blocking =>
    some { s with
      table := if committed then deactivatePingErrorAlert s.table alert.telegramId else s.table
      pc := .alerts now batch rest }
  | _ => none

def cancelled : Option Monitor :=
  match s.pc with
  | .alerts _ _ _ => none
  | .returned => none
  | _ => some { s with pc := .returned }

def step (e : Event) : Option Monitor :=
  match e with
  | .elapsed us => some { s with clock := s.clock + us }
  | .upserted id telegramId routerIp =>
    (upsertPingErrorAlert s.table id telegramId routerIp).map fun table => { s with table }
  | .deactivated telegramId => some { s with table := deactivatePingErrorAlert s.table telegramId }
  | .woke => s.woke
  | .stopped => s.stopped
  | .pageRead => s.pageRead
  | .pageFailed => s.pageFailed
  | .alertTaken => s.alertTaken
  | .pinged isAlive => s.pinged isAlive
  | .pingRaised => s.pingRaised
  | .restored committed => s.restored committed
  | .answered answer => s.answered answer
  | .stamped committed => s.stamped committed
  | .blockedRecorded committed => s.blockedRecorded committed
  | .cancelled => s.cancelled

end Monitor

section

variable {alerts alerts' : Alerts} {row row' : PingErrorAlert} {telegramId routerIp : String} {id : Nat}

def Alerts.Keeps (alerts alerts' : Alerts) : Prop :=
  ∀ row ∈ alerts.rows, ∃ row' ∈ alerts'.rows, row'.id = row.id ∧ row'.telegramId = row.telegramId ∧
    row'.lastAlertAt = row.lastAlertAt

theorem keeps_refl (alerts : Alerts) : alerts.Keeps alerts := fun row hrow => ⟨row, hrow, rfl, rfl, rfl⟩

theorem keeps_deactivate : alerts.Keeps (deactivatePingErrorAlert alerts telegramId) := by
  intro row hrow
  refine ⟨row.deactivate telegramId, List.mem_map_of_mem hrow, ?_⟩
  unfold PingErrorAlert.deactivate
  split
  . exact ⟨rfl, rfl, rfl⟩
  . exact ⟨rfl, rfl, rfl⟩

theorem keeps_upsert (h : upsertPingErrorAlert alerts id telegramId routerIp = some alerts')
    : alerts.Keeps alerts' := by
  unfold upsertPingErrorAlert at h
  split at h
  . cases h
    intro row hrow
    refine ⟨row.reactivate telegramId routerIp, List.mem_map_of_mem hrow, ?_⟩
    unfold PingErrorAlert.reactivate
    split
    . exact ⟨rfl, rfl, rfl⟩
    . exact ⟨rfl, rfl, rfl⟩
  . split at h
    . cases h
    . cases h
      exact fun row hrow => ⟨row, List.mem_cons_of_mem _ hrow, rfl, rfl, rfl⟩

theorem eq_of_user_eq (hrow : row ∈ alerts.rows) (hrow' : row' ∈ alerts.rows)
    (huser : row.telegramId = row'.telegramId) : row = row' :=
  List.inj_on_of_nodup_map alerts.users_nodup hrow hrow' huser

end

def Pc.begunAt (pc : Pc) : Option Int :=
  match pc with
  | .reading now _ => some now
  | .alerts now _ _ => some now
  | .body now _ _ _ _ => some now
  | _ => none

def Pc.pending (pc : Pc) : List PingErrorAlert :=
  match pc with
  | .alerts _ _ rest => rest
  | .body _ _ rest alert .pinging => alert :: rest
  | .body _ _ rest alert .sending => alert :: rest
  | .body _ _ rest _ _ => rest
  | _ => []

def Pc.lastId (pc : Pc) : Nat :=
  match pc with
  | .reading _ afterId => afterId
  | .alerts _ batch _ => batch.getLast?.elim 0 PingErrorAlert.id
  | .body _ batch _ _ _ => batch.getLast?.elim 0 PingErrorAlert.id
  | _ => 0

def Pc.Due (pc : Pc) : Prop :=
  match pc with
  | .body now _ _ alert .pinging => ¬ Monitor.Rests now alert
  | .body now _ _ alert .sending => ¬ Monitor.Rests now alert
  | _ => True

namespace Monitor

variable {s s' : Monitor} {e : Event}

inductive Moves (s : Monitor) : Monitor → Prop where
  | elapsed (us : Nat) : Moves s { s with clock := s.clock + us }
  | tableChanged {table : Alerts} (hkeeps : s.table.Keeps table) : Moves s { s with table }
  | woke {wakeAt : Int} (hpc : s.pc = .sleeping wakeAt) (hle : wakeAt ≤ s.clock)
    : Moves s { s with pc := .reading s.clock 0 }
  | pageRead {now : Int} {afterId : Nat} {page : List PingErrorAlert} (hpc : s.pc = .reading now afterId)
      (hpage : page = getActivePingErrorAlertsCursor s.table batchSize afterId) (hne : page ≠ [])
    : Moves s { s with pc := .alerts now page page }
  | passOver {now : Int} (hbegun : s.pc.begunAt = some now) : Moves s s.passOver
  | goesOn {table : Alerts} {pc : Pc} {now : Int} (hkeeps : s.table.Keeps table) (hbegun : s.pc.begunAt = some now)
      (hbegun' : pc.begunAt = some now) (hlast : pc.lastId = s.pc.lastId) (hpending : pc.pending <:+ s.pc.pending)
      (hdue : pc.Due) (hstamping : ∀ now' batch rest alert, pc ≠ .body now' batch rest alert .stamping)
    : Moves s { s with table, pc }
  | arrived {now : Int} {batch rest : List PingErrorAlert} {alert : PingErrorAlert} {pc : Pc}
      (hpc : s.pc = .body now batch rest alert .sending)
      (hpc' : pc = .body now batch rest alert .stamping ∨ pc = .alerts now batch rest)
    : Moves s { s with
        pc
        current := ⟨alert.id, alert.telegramId, alert.routerIp, s.clock, false⟩ :: s.current }
  | stamped {now : Int} {batch rest : List PingErrorAlert} {alert : PingErrorAlert}
      (hpc : s.pc = .body now batch rest alert .stamping)
    : Moves s { s with
        table := updatePingErrorAlertTime s.table alert.telegramId s.clock
        pc := .alerts now batch rest
        current := markStamped s.current }
  | returned : Moves s { s with pc := .returned }

theorem moves_alertTaken (h : s.alertTaken = some s') : Moves s s' := by
  unfold alertTaken at h
  split at h
  . next now batch alert rest hpc =>
    cases h
    have hbegun : s.pc.begunAt = some now := by rw [hpc]; rfl
    have hpending : s.pc.pending = alert :: rest := by rw [hpc]; rfl
    have hlast : s.pc.lastId = batch.getLast?.elim 0 PingErrorAlert.id := by rw [hpc]; rfl
    split
    . exact .goesOn (keeps_refl _) hbegun rfl hlast.symm (hpending ▸ List.suffix_cons alert rest) trivial nofun
    . next hdue => exact .goesOn (keeps_refl _) hbegun rfl hlast.symm (hpending ▸ List.suffix_rfl) hdue nofun
  . next now batch hpc =>
    cases h
    have hbegun : s.pc.begunAt = some now := by rw [hpc]; rfl
    have hlast : s.pc.lastId = batch.getLast?.elim 0 PingErrorAlert.id := by rw [hpc]; rfl
    split
    . exact .passOver hbegun
    . exact .goesOn (keeps_refl _) hbegun rfl hlast.symm (List.nil_suffix) trivial nofun
  . cases h

theorem moves_pinged {isAlive : Bool} (hdue : s.pc.Due) (h : s.pinged isAlive = some s') : Moves s s' := by
  unfold pinged at h
  split at h
  . next now batch rest alert hpc =>
    cases h
    have hbegun : s.pc.begunAt = some now := by rw [hpc]; rfl
    have hpending : s.pc.pending = alert :: rest := by rw [hpc]; rfl
    have hlast : s.pc.lastId = batch.getLast?.elim 0 PingErrorAlert.id := by rw [hpc]; rfl
    rw [hpc] at hdue
    split
    . exact .goesOn (keeps_refl _) hbegun rfl hlast.symm (hpending ▸ List.suffix_cons alert rest) trivial nofun
    . exact .goesOn (keeps_refl _) hbegun rfl hlast.symm (hpending ▸ List.suffix_rfl) hdue nofun
  . cases h

theorem moves_of_body {now : Int} {batch rest : List PingErrorAlert} {alert : PingErrorAlert} {pc : AlertPc}
    {table : Alerts} (hpc : s.pc = .body now batch rest alert pc) (hkeeps : s.table.Keeps table)
    : Moves s { s with table, pc := .alerts now batch rest } := by
  have hpending : rest <:+ s.pc.pending := by
    rw [hpc]
    cases pc with
    | pinging => exact List.suffix_cons alert rest
    | sending => exact List.suffix_cons alert rest
    | restoring => exact List.suffix_rfl
    | stamping => exact List.suffix_rfl
    | blocking => exact List.suffix_rfl
  refine Moves.goesOn hkeeps (?_ : _ = some now) rfl ?_ hpending trivial nofun
  . rw [hpc]
    rfl
  . rw [hpc]
    rfl

theorem keeps_ite {table : Alerts} {committed : Bool} (h : s.table.Keeps table)
    : s.table.Keeps (if committed then table else s.table) := by
  split
  . exact h
  . exact keeps_refl s.table

theorem moves_answered {answer : Answer} (h : s.answered answer = some s') : Moves s s' := by
  unfold answered at h
  split at h
  . next now batch rest alert hpc =>
    cases answer with
    | sent =>
      cases h
      exact .arrived hpc (Or.inl rfl)
    | forbidden =>
      cases h
      refine Moves.goesOn (keeps_refl _) (?_ : _ = some now) rfl ?_ ?_ trivial nofun
      . rw [hpc]
        rfl
      . rw [hpc]
        rfl
      . rw [hpc]
        exact List.suffix_cons alert rest
    | raised arrived =>
      cases h
      cases arrived with
      | true => exact .arrived hpc (Or.inr rfl)
      | false => exact moves_of_body hpc (keeps_refl _)
  . cases h

theorem moves_stamped {committed : Bool} (h : s.stamped committed = some s') : Moves s s' := by
  unfold stamped at h
  split at h
  . next now batch rest alert hpc =>
    cases committed with
    | true =>
      cases h
      exact .stamped hpc
    | false =>
      cases h
      exact moves_of_body hpc (keeps_refl _)
  . cases h

theorem moves_of_step (hdue : s.pc.Due) (h : s.step e = some s') : Moves s s' := by
  cases e with
  | elapsed us =>
    cases h
    exact .elapsed us
  | upserted id telegramId routerIp =>
    rcases Option.map_eq_some_iff.mp h with ⟨table, htable, rfl⟩
    exact .tableChanged (keeps_upsert htable)
  | deactivated telegramId =>
    cases h
    exact .tableChanged keeps_deactivate
  | woke =>
    change s.woke = some s' at h
    unfold woke at h
    split at h
    . next hpc =>
      split at h
      . next hle =>
        cases h
        exact .woke hpc hle
      . cases h
    . cases h
  | stopped =>
    change s.stopped = some s' at h
    unfold stopped at h
    split at h
    . cases h
      exact .returned
    . cases h
  | pageRead =>
    change s.pageRead = some s' at h
    unfold pageRead at h
    split at h
    . next now afterId hpc =>
      cases h
      split
      . exact Moves.passOver (by rw [hpc]; rfl : _ = some now)
      . next hne => exact .pageRead hpc rfl hne
    . cases h
  | pageFailed =>
    change s.pageFailed = some s' at h
    unfold pageFailed at h
    split at h
    . next now afterId hpc =>
      cases h
      exact Moves.passOver (by rw [hpc]; rfl : _ = some now)
    . cases h
  | alertTaken => exact moves_alertTaken h
  | pinged isAlive => exact moves_pinged hdue h
  | pingRaised =>
    change s.pingRaised = some s' at h
    unfold pingRaised at h
    split at h
    . next hpc =>
      cases h
      exact moves_of_body hpc (keeps_refl _)
    . cases h
  | restored committed =>
    change s.restored committed = some s' at h
    unfold restored at h
    split at h
    . next hpc =>
      cases h
      exact moves_of_body hpc (keeps_ite keeps_deactivate)
    . cases h
  | answered answer => exact moves_answered h
  | stamped committed => exact moves_stamped h
  | blockedRecorded committed =>
    change s.blockedRecorded committed = some s' at h
    unfold blockedRecorded at h
    split at h
    . next hpc =>
      cases h
      exact moves_of_body hpc (keeps_ite keeps_deactivate)
    . cases h
  | cancelled =>
    change s.cancelled = some s' at h
    unfold cancelled at h
    split at h
    . cases h
    . cases h
    . cases h
      exact .returned

end Monitor

end PingAlerts
