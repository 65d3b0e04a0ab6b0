import VoltykBot.Handlers.IpDialog
import VoltykBot.Lib.Sessions

/-!
This module shows whom the daily warnings can reach: the active alert of a user fits the address that the user has,
whatever dialogues go on at the same time.
-/

namespace IpDialog

open PingAlerts

/--
The active alert names the address of the user, or an earlier one if the router answered when the address was entered.
-/
def Fits (telegramId : String) (users : List User) (alert : PingErrorAlert) : Prop :=
  ∃ user ∈ users, user.telegramId = telegramId ∧ ∃ routerIp, user.routerIp = some routerIp ∧
    (alert.routerIp = routerIp ∨ user.answered = true)

def AllFit (telegramId : String) (users : List User) (alerts : Alerts) : Prop :=
  ∀ alert ∈ alerts.rows, alert.telegramId = telegramId → alert.isActive = true → Fits telegramId users alert

def EntersAnew (telegramId : String) (db : Database) (e : Event) : Prop :=
  match e with
  | .userRead i =>
    match db.sessions[i]? with
    | some session => session.telegramId = telegramId →
      ∀ user ∈ db.users, user.telegramId = telegramId → user.routerIp = session.call.routerIp →
        session.call = .ipDelete
    | none => True
  | _ => True

instance (telegramId : String) (db : Database) (e : Event) : Decidable (EntersAnew telegramId db e) := by
  unfold EntersAnew
  split
  . split
    . infer_instance
    . infer_instance
  . infer_instance

/-! ## Alerts -/

section

variable {telegramId other routerIp : String} {alerts alerts' : Alerts} {id : Nat} {users users' : List User}

def Quiet (telegramId : String) (alerts alerts' : Alerts) : Prop :=
  ∀ row' ∈ alerts'.rows, row'.telegramId = telegramId → ∃ row ∈ alerts.rows, row.telegramId = telegramId ∧
    row.routerIp = row'.routerIp ∧ (row'.isActive = true → row.isActive = true)

theorem quiet_refl : Quiet telegramId alerts alerts := fun row hrow huser => ⟨row, hrow, huser, rfl, id⟩

theorem quiet_of_rows {f : PingErrorAlert → PingErrorAlert} (hrows : alerts'.rows = alerts.rows.map f)
    (huser : ∀ row, (f row).telegramId = row.telegramId)
    (hf : ∀ row, row.telegramId = telegramId →
      (f row).routerIp = row.routerIp ∧ ((f row).isActive = true → row.isActive = true))
    : Quiet telegramId alerts alerts' := by
  intro row' hrow' htelegramId
  rw [hrows] at hrow'
  rcases List.mem_map.mp hrow' with ⟨row, hrow, rfl⟩
  rw [huser] at htelegramId
  have hkept := hf row htelegramId
  exact ⟨row, hrow, htelegramId, hkept.1.symm, hkept.2⟩

theorem telegramId_deactivate (row : PingErrorAlert) : (row.deactivate other).telegramId = row.telegramId := by
  unfold PingErrorAlert.deactivate
  split <;> rfl

theorem quiet_deactivate : Quiet telegramId alerts (deactivatePingErrorAlert alerts other) := by
  refine quiet_of_rows (f := .deactivate other) rfl telegramId_deactivate ?_
  intro row _
  unfold PingErrorAlert.deactivate
  split
  . exact ⟨rfl, nofun⟩
  . exact ⟨rfl, id⟩

theorem quiet_stamp {now : Int} : Quiet telegramId alerts (updatePingErrorAlertTime alerts other now) := by
  have hstamp : ∀ row : PingErrorAlert, (row.stamp other now).telegramId = row.telegramId ∧
      (row.stamp other now).routerIp = row.routerIp ∧ (row.stamp other now).isActive = row.isActive := by
    intro row
    unfold PingErrorAlert.stamp
    split <;> exact ⟨rfl, rfl, rfl⟩
  refine quiet_of_rows (f := .stamp other now) rfl (fun row => (hstamp row).1) ?_
  intro row _
  exact ⟨(hstamp row).2.1, fun h => (hstamp row).2.2 ▸ h⟩

theorem inactive_deactivate {row : PingErrorAlert} (hrow : row ∈ (deactivatePingErrorAlert alerts telegramId).rows)
    (huser : row.telegramId = telegramId) : row.isActive = false := by
  rcases List.mem_map.mp hrow with ⟨before, _, rfl⟩
  rw [telegramId_deactivate] at huser
  unfold PingErrorAlert.deactivate
  rw [if_pos huser]

theorem upsert_cases (h : upsertPingErrorAlert alerts id other routerIp = some alerts') {row' : PingErrorAlert}
    (hrow' : row' ∈ alerts'.rows)
    : row'.telegramId = other ∧ row'.routerIp = routerIp ∨ row'.telegramId ≠ other ∧ row' ∈ alerts.rows := by
  unfold upsertPingErrorAlert at h
  split at h
  . cases h
    rcases List.mem_map.mp hrow' with ⟨row, hrow, rfl⟩
    unfold PingErrorAlert.reactivate
    split
    . next huser => exact Or.inl ⟨huser, rfl⟩
    . next huser => exact Or.inr ⟨huser, hrow⟩
  . next hnone =>
    split at h
    . cases h
    . cases h
      rcases List.mem_cons.mp hrow' with rfl | hrow'
      . exact Or.inl ⟨rfl, rfl⟩
      . exact Or.inr ⟨fun huser => hnone (huser ▸ List.mem_map_of_mem hrow'), hrow'⟩

theorem quiet_upsert (h : upsertPingErrorAlert alerts id other routerIp = some alerts') (hne : other ≠ telegramId)
    : Quiet telegramId alerts alerts' := by
  intro row' hrow' huser
  rcases upsert_cases h hrow' with ⟨heq, _⟩ | ⟨_, hrow⟩
  . exact absurd (heq.symm.trans huser) hne
  . exact ⟨row', hrow, huser, rfl, fun hactive => hactive⟩

theorem quiet_apply {write : AlertWrite} (h : write.apply other alerts = some alerts') (hne : other ≠ telegramId)
    : Quiet telegramId alerts alerts' := by
  cases write with
  | upsert id routerIp => exact quiet_upsert h hne
  | deactivate =>
    cases h
    exact quiet_deactivate

theorem AllFit.quiet (h : AllFit telegramId users alerts) (hquiet : Quiet telegramId alerts alerts')
    (husers : ∀ user ∈ users, user.telegramId = telegramId → user ∈ users') : AllFit telegramId users' alerts' := by
  intro row' hrow' huser hactive
  rcases hquiet row' hrow' huser with ⟨row, hrow, huser, hrouterIp, hbefore⟩
  rcases h row hrow huser (hbefore hactive) with ⟨user, hmem, htelegramId, hfits⟩
  exact ⟨user, husers user hmem htelegramId, htelegramId, hrouterIp ▸ hfits⟩

theorem hasAlert_iff : hasAlert alerts telegramId = true ↔ ∃ row ∈ alerts.rows, row.telegramId = telegramId := by
  unfold hasAlert
  rw [List.any_eq_true]
  exact exists_congr fun row => and_congr_right fun _ => decide_eq_true_iff

theorem Quiet.hasAlert (h : Quiet telegramId alerts alerts') (halert : IpDialog.hasAlert alerts' telegramId = true)
    : IpDialog.hasAlert alerts telegramId = true := by
  rcases hasAlert_iff.mp halert with ⟨row', hrow', huser⟩
  rcases h row' hrow' huser with ⟨row, hrow, huser, _⟩
  exact hasAlert_iff.mpr ⟨row, hrow, huser⟩

end

/-! ## Sessions -/

def Session.Targets (session : Session) (id : Nat) : Prop := session.pc = .saving id ∨ session.saved = some id

def Session.Settled (hasAlert : Bool) (session : Session) : Prop :=
  match session.call with
  | .ipInput address =>
    (session.saved ≠ none → session.verdict = some true ∨ session.alert ≠ none) ∧
      ∀ write, session.alert = some write → session.saved ≠ none ∧ ∃ id, write = .upsert id address
  | .ipDelete =>
    (session.saved ≠ none → session.alert ≠ none ∨ hasAlert = false) ∧
      ∀ write, session.alert = some write → write = .deactivate

/--
Where the dialogue of a user who enters new addresses only stands. What it does to the alert depends on the row of the
user that it has locked.
-/
def Session.Stage (hasAlert : Bool) (session : Session) : Prop :=
  match session.pc, session.call with
  | .reading, _ => session.saved = none ∧ session.alert = none
  | .saving _, _ => session.saved = none ∧ session.alert = none
  | .checking found, .ipInput _ => session.alert = none ∧ (found = true ↔ session.saved ≠ none)
  | .checking _, .ipDelete => False
  | .alerting, .ipInput _ => session.alert = none ∧ session.saved ≠ none ∧ session.verdict = some false
  | .alerting, .ipDelete => session.alert = none
  | .finished, _ => session.Settled hasAlert

structure Own (telegramId : String) (users : List User) (alerts : Alerts) (nextUserId : Nat) (session : Session)
    : Prop where
  below : ∀ id, session.Targets id → id < nextUserId
  owner : ∀ id, session.Targets id → ∀ user ∈ users, user.id = id → user.telegramId = session.telegramId
  there : session.telegramId = telegramId → ∀ id, session.saved = some id → ∃ user ∈ users, user.id = id
  stage : session.telegramId = telegramId → session.Stage (hasAlert alerts telegramId)

def Apart (a b : Session) : Prop := ∀ id, a.saved = some id → b.saved ≠ some id

theorem apart_comm {a b : Session} (h : Apart a b) : Apart b a := fun id hb ha => h id ha hb

structure Inv (telegramId : String) (db : Database) : Prop where
  ids : (db.users.map User.id).Nodup
  telegramIds : (db.users.map User.telegramId).Nodup
  below : ∀ user ∈ db.users, user.id < db.nextUserId
  sessions : Sessions.Keep (Own telegramId db.users db.alerts db.nextUserId) Apart db.sessions
  fits : AllFit telegramId db.users db.alerts

section

variable {telegramId : String} {users users' : List User} {alerts alerts' : Alerts} {nextUserId nextUserId' : Nat}
  {session session' : Session} {hasAlert hasAlert' : Bool}

theorem Session.Settled.mono (h : session.Settled hasAlert)
    (hquiet : session.saved ≠ none → hasAlert' = true → hasAlert = true) : session.Settled hasAlert' := by
  unfold Session.Settled at h ⊢
  split at h
  . exact h
  . refine ⟨?_, h.2⟩
    intro hsaved
    refine (h.1 hsaved).imp_right ?_
    intro hnone
    rw [← Bool.not_eq_true] at hnone ⊢
    exact fun halert => hnone (hquiet hsaved halert)

theorem Session.Stage.mono (h : session.Stage hasAlert)
    (hquiet : session.saved ≠ none → hasAlert' = true → hasAlert = true) : session.Stage hasAlert' := by
  unfold Session.Stage at h ⊢
  split at h
  . exact h
  . exact h
  . exact h
  . exact h
  . exact h
  . exact h
  . exact h.mono hquiet

theorem Own.later (h : Own telegramId users alerts nextUserId session) (hle : nextUserId ≤ nextUserId')
    (howners : ∀ user ∈ users', user.id < nextUserId →
      ∃ before ∈ users, before.id = user.id ∧ before.telegramId = user.telegramId)
    (hstays : ∀ user ∈ users, user.telegramId = telegramId → ∃ after ∈ users', after.id = user.id)
    (hquiet : session.telegramId = telegramId → session.saved ≠ none →
      IpDialog.hasAlert alerts' telegramId = true → IpDialog.hasAlert alerts telegramId = true)
    : Own telegramId users' alerts' nextUserId' session where
  below := fun id htarget => Nat.lt_of_lt_of_le (h.below id htarget) hle
  owner := by
    intro id htarget user huser hid
    rcases howners user huser (hid ▸ h.below id htarget) with ⟨before, hbefore, hsame, htelegramId⟩
    rw [← htelegramId]
    exact h.owner id htarget before hbefore (hsame.trans hid)
  there := by
    intro htelegramId id hsaved
    rcases h.there htelegramId id hsaved with ⟨user, huser, hid⟩
    have howner := h.owner id (Or.inr hsaved) user huser hid
    rcases hstays user huser (howner.trans htelegramId) with ⟨after, hafter, hsame⟩
    exact ⟨after, hafter, hsame.trans hid⟩
  stage := fun htelegramId => (h.stage htelegramId).mono (hquiet htelegramId)

theorem own_ended (telegramId' : String) : Own telegramId users alerts nextUserId (.ended telegramId') where
  below := by
    rintro id (hpc | hsaved)
    . cases hpc
    . cases hsaved
  owner := by
    rintro id (hpc | hsaved)
    . cases hpc
    . cases hsaved
  there := nofun
  stage := fun _ => ⟨fun hsaved => absurd rfl hsaved, nofun⟩

end

/-! ## Steps -/

section

variable {call : Call} {user : Option User} {session : Session} {hasAlert : Bool} {id : Nat}

theorem exists_of_afterRead (h : call.afterRead user = .saving id) : ∃ read, user = some read ∧ read.id = id := by
  cases user with
  | none => cases call <;> cases h
  | some read =>
    refine ⟨read, rfl, ?_⟩
    dsimp only [Call.afterRead] at h
    split at h
    . cases call <;> cases h
    . cases h
      rfl

theorem stage_afterRead (hsaved : session.saved = none) (halert : session.alert = none)
    (hanew : ∀ read, user = some read → read.routerIp = session.call.routerIp → session.call = .ipDelete)
    : Session.Stage hasAlert { session with pc := session.call.afterRead user } := by
  cases user with
  | none =>
    unfold Call.afterRead Session.Stage
    cases session.call with
    | ipInput address => exact ⟨halert, iff_of_false Bool.false_ne_true fun h => h hsaved⟩
    | ipDelete => exact ⟨fun h => absurd hsaved h, fun write hwrite => absurd (halert.symm.trans hwrite) nofun⟩
  | some read =>
    unfold Call.afterRead
    dsimp only
    split
    . next hsame =>
      rw [hanew read rfl hsame]
      exact halert
    . exact ⟨hsaved, halert⟩

theorem stage_afterSave (halert : session.alert = none)
    : Session.Stage hasAlert { session with pc := session.call.afterSave, saved := some id } := by
  unfold Call.afterSave Session.Stage
  cases session.call with
  | ipInput address => exact ⟨halert, iff_of_true rfl nofun⟩
  | ipDelete => exact halert

theorem targets_of_save {id' : Nat} (hpc : session.pc = .saving id)
    (h : Session.Targets { session with pc := session.call.afterSave, saved := some id } id')
    : session.Targets id' := by
  rcases h with h | h
  . dsimp only [Call.afterSave] at h
    cases hcall : session.call with
    | ipInput address =>
      rw [hcall] at h
      cases h
    | ipDelete =>
      rw [hcall] at h
      cases h
  . cases h
    exact Or.inl hpc

theorem stage_check {found isAlive : Bool} (hpc : session.pc = .checking found) (h : session.Stage hasAlert)
    : Session.Stage hasAlert
        { session with pc := if found && !isAlive then .alerting else .finished, verdict := some isAlive } := by
  unfold Session.Stage at h ⊢
  rw [hpc] at h
  cases hcall : session.call with
  | ipDelete =>
    rw [hcall] at h
    exact h.elim
  | ipInput address =>
    rw [hcall] at h
    rcases h with ⟨halert, hfound⟩
    have hnoAlert : ∀ write, session.alert = some write →
        session.saved ≠ none ∧ ∃ id, write = .upsert id address := by
      intro write hwrite
      rw [halert] at hwrite
      cases hwrite
    cases found with
    | false => exact ⟨fun hsaved => absurd (hfound.mpr hsaved) Bool.false_ne_true, hnoAlert⟩
    | true =>
      cases isAlive with
      | false => exact ⟨halert, hfound.mp rfl, rfl⟩
      | true => exact ⟨fun _ => Or.inl rfl, hnoAlert⟩

end

namespace Inv

variable {telegramId : String} {db db' : Database} {session session' : Session} {i : Nat}

theorem setSession (h : Inv telegramId db) (hown : Own telegramId db.users db.alerts db.nextUserId session')
    (hapart : ∀ other ∈ db.sessions.eraseIdx i, Apart session' other)
    : Inv telegramId (db.setSession i session') :=
  ⟨h.ids, h.telegramIds, h.below, h.sessions.set apart_comm hown (fun _ _ hother => hother) hapart, h.fits⟩

theorem advance (h : Inv telegramId db) (hsession : db.sessions[i]? = some session)
    (hsaved : session'.saved = session.saved) (htelegramId : session'.telegramId = session.telegramId)
    (htargets : ∀ id, session'.pc = .saving id →
      id < db.nextUserId ∧ ∀ user ∈ db.users, user.id = id → user.telegramId = session.telegramId)
    (hstage : session.telegramId = telegramId → session'.Stage (hasAlert db.alerts telegramId))
    : Inv telegramId (db.setSession i session') := by
  have hown := h.sessions.own_of_getElem? hsession
  apply h.setSession
  . constructor
    . rintro id (hpc | hid)
      . exact (htargets id hpc).1
      . exact hown.below id (Or.inr (hsaved ▸ hid))
    . rw [htelegramId]
      rintro id (hpc | hid)
      . exact (htargets id hpc).2
      . exact hown.owner id (Or.inr (hsaved ▸ hid))
    . rw [htelegramId, hsaved]
      exact hown.there
    . rw [htelegramId]
      exact hstage
  . intro other hother id hid
    rw [hsaved] at hid
    exact h.sessions.apart_others apart_comm hsession other hother id hid

theorem read (h : Inv telegramId db) (hsession : db.sessions[i]? = some session)
    (hanew : EntersAnew telegramId db (.userRead i)) (hread : db.read session = some session')
    : Inv telegramId (db.setSession i session') := by
  unfold Database.read at hread
  split at hread
  . next hpc =>
    cases hread
    refine h.advance hsession rfl rfl ?_ ?_
    . intro id hsaving
      rcases exists_of_afterRead hsaving with ⟨user, hfind, rfl⟩
      have huser := List.mem_of_find?_eq_some hfind
      have htelegramId : user.telegramId = session.telegramId := by simpa using List.find?_some hfind
      refine ⟨h.below user huser, ?_⟩
      intro user' huser' hid
      rw [List.inj_on_of_nodup_map h.ids huser' huser hid]
      exact htelegramId
    . intro heq
      have hstage := (h.sessions.own_of_getElem? hsession).stage heq
      unfold Session.Stage at hstage
      rw [hpc] at hstage
      apply stage_afterRead hstage.1 hstage.2
      intro user hfind hsame
      have huser := List.mem_of_find?_eq_some hfind
      have htelegramId : user.telegramId = session.telegramId := by simpa using List.find?_some hfind
      unfold EntersAnew at hanew
      dsimp only at hanew
      rw [hsession] at hanew
      exact hanew heq user huser (htelegramId.trans heq) hsame
  . cases hread

theorem save (h : Inv telegramId db) (hsession : db.sessions[i]? = some session)
    (hsave : db.save i session = some session') : Inv telegramId (db.setSession i session') := by
  have hown := h.sessions.own_of_getElem? hsession
  unfold Database.save at hsave
  split at hsave
  . next id hpc =>
    rw [Option.ite_none_right_eq_some, Bool.and_eq_true] at hsave
    rcases hsave with ⟨⟨hfree, hthere⟩, heq⟩
    cases heq
    apply h.setSession
    . refine ⟨?_, ?_, ?_, ?_⟩
      . intro id' htarget
        exact hown.below id' (targets_of_save hpc htarget)
      . intro id' htarget
        exact hown.owner id' (targets_of_save hpc htarget)
      . intro _ id' hid
        cases hid
        rcases List.any_eq_true.mp hthere with ⟨user, huser, hsame⟩
        exact ⟨user, huser, of_decide_eq_true hsame⟩
      . intro htelegramId
        have hstage := hown.stage htelegramId
        unfold Session.Stage at hstage
        rw [hpc] at hstage
        exact stage_afterSave hstage.2
    . intro other hother id' hid
      cases hid
      exact of_decide_eq_true (List.all_eq_true.mp hfree other hother)
  . cases hsave

theorem check {isAlive : Bool} (h : Inv telegramId db) (hsession : db.sessions[i]? = some session)
    (hcheck : Database.check isAlive session = some session') : Inv telegramId (db.setSession i session') := by
  unfold Database.check at hcheck
  split at hcheck
  . next found hpc =>
    cases hcheck
    refine h.advance hsession rfl rfl ?_ ?_
    . intro id hsaving
      dsimp only at hsaving
      split at hsaving
      . cases hsaving
      . cases hsaving
    . intro htelegramId
      have hstage := (h.sessions.own_of_getElem? hsession).stage htelegramId
      exact stage_check hpc hstage
  . cases hcheck

theorem writeAlert (h : Inv telegramId db) (hsession : db.sessions[i]? = some session)
    (hwrite : db.writeAlert i session = some session') : Inv telegramId (db.setSession i session') := by
  have hstage := (h.sessions.own_of_getElem? hsession).stage
  unfold Session.Stage at hstage
  unfold Database.writeAlert at hwrite
  split at hwrite
  . next address hpc hcall =>
    rw [hpc, hcall] at hstage
    rw [Option.ite_none_right_eq_some] at hwrite
    rcases hwrite with ⟨_, heq⟩
    cases heq
    refine h.advance hsession rfl rfl nofun ?_
    intro htelegramId
    have hstage := hstage htelegramId
    unfold Session.Stage
    dsimp only
    rw [hcall]
    refine ⟨fun _ => Or.inr nofun, ?_⟩
    intro write hwrite
    cases hwrite
    exact ⟨hstage.2.1, db.nextAlertId, rfl⟩
  . next hpc hcall =>
    rw [hpc, hcall] at hstage
    split at hwrite
    . next hnone =>
      cases hwrite
      refine h.advance hsession rfl rfl nofun ?_
      intro htelegramId
      unfold Session.Stage
      dsimp only
      rw [hcall]
      refine ⟨fun _ => Or.inr (htelegramId ▸ Bool.not_eq_true' _ ▸ hnone), ?_⟩
      intro write hwrite
      rw [hstage htelegramId] at hwrite
      cases hwrite
    . rw [Option.ite_none_right_eq_some] at hwrite
      rcases hwrite with ⟨_, heq⟩
      cases heq
      refine h.advance hsession rfl rfl nofun ?_
      intro _
      unfold Session.Stage
      dsimp only
      rw [hcall]
      refine ⟨fun _ => Or.inl nofun, ?_⟩
      intro write hwrite
      cases hwrite
      rfl
  . cases hwrite

theorem later (h : Inv telegramId db) (hids : (db'.users.map User.id).Nodup)
    (htelegramIds : (db'.users.map User.telegramId).Nodup) (hbelow : ∀ user ∈ db'.users, user.id < db'.nextUserId)
    (hle : db.nextUserId ≤ db'.nextUserId) (hsessions : db'.sessions = db.sessions)
    (howners : ∀ user ∈ db'.users, user.id < db.nextUserId →
      ∃ before ∈ db.users, before.id = user.id ∧ before.telegramId = user.telegramId)
    (hstays : ∀ user ∈ db.users, user.telegramId = telegramId → user ∈ db'.users)
    (hquiet : Quiet telegramId db.alerts db'.alerts) : Inv telegramId db' := by
  refine ⟨hids, htelegramIds, hbelow, ?_, h.fits.quiet hquiet hstays⟩
  rw [hsessions]
  apply h.sessions.mono
  intro session _ hown
  apply hown.later hle howners
  . intro user huser htelegramId
    exact ⟨user, hstays user huser htelegramId, rfl⟩
  . intro _ _ halert
    exact hquiet.hasAlert halert

theorem quiet {alerts : Alerts} (h : Inv telegramId db) (hquiet : Quiet telegramId db.alerts alerts)
    : Inv telegramId { db with alerts } :=
  h.later h.ids h.telegramIds h.below (Nat.le_refl _) rfl (fun user huser _ => ⟨user, huser, rfl, rfl⟩)
    (fun _ huser _ => huser) hquiet

theorem registered {telegramId' : String} (h : Inv telegramId db)
    (hnew : ∀ user ∈ db.users, user.telegramId ≠ telegramId') : Inv telegramId { db with
        users := db.users ++ [⟨db.nextUserId, telegramId', none, false⟩]
        nextUserId := db.nextUserId + 1 } := by
  refine h.later ?_ ?_ ?_ (Nat.le_succ _) rfl ?_ ?_ quiet_refl
  . rw [List.map_append, List.nodup_append]
    refine ⟨h.ids, List.nodup_singleton _, ?_⟩
    intro id hid id' hid' heq
    rcases List.mem_map.mp hid with ⟨user, huser, rfl⟩
    rw [List.mem_singleton.mp hid'] at heq
    exact absurd heq (Nat.ne_of_lt (h.below user huser))
  . rw [List.map_append, List.nodup_append]
    refine ⟨h.telegramIds, List.nodup_singleton _, ?_⟩
    intro other hother other' hother' heq
    rcases List.mem_map.mp hother with ⟨user, huser, rfl⟩
    rw [List.mem_singleton.mp hother'] at heq
    exact absurd heq (hnew user huser)
  . intro user huser
    rcases List.mem_append.mp huser with huser | huser
    . exact Nat.lt_succ_of_lt (h.below user huser)
    . rw [List.mem_singleton.mp huser]
      exact Nat.lt_succ_self _
  . intro user huser hlt
    rcases List.mem_append.mp huser with huser | huser
    . exact ⟨user, huser, rfl, rfl⟩
    . rw [List.mem_singleton.mp huser] at hlt
      exact absurd hlt (Nat.lt_irrefl _)
  . intro user huser _
    exact List.mem_append_left _ huser

theorem userDeleted {telegramId' : String} (h : Inv telegramId db) (hne : telegramId' ≠ telegramId)
    : Inv telegramId { db with users := db.users.filter (·.telegramId ≠ telegramId') } := by
  refine h.later ?_ ?_ ?_ (Nat.le_refl _) rfl ?_ ?_ quiet_refl
  . exact h.ids.sublist (List.filter_sublist.map _)
  . exact h.telegramIds.sublist (List.filter_sublist.map _)
  . intro user huser
    exact h.below user (List.mem_of_mem_filter huser)
  . intro user huser _
    exact ⟨user, List.mem_of_mem_filter huser, rfl, rfl⟩
  . intro user huser htelegramId
    exact List.mem_filter.mpr ⟨huser, decide_eq_true (htelegramId ▸ hne.symm)⟩

theorem called (h : Inv telegramId db) (hpc : session.pc = .reading) (hsaved : session.saved = none)
    (halert : session.alert = none) : Inv telegramId { db with sessions := db.sessions ++ [session] } := by
  refine ⟨h.ids, h.telegramIds, h.below, h.sessions.concat ⟨?_, ?_, ?_, ?_⟩ ?_, h.fits⟩
  . rintro id (hid | hid)
    . exact absurd (hpc.symm.trans hid) nofun
    . exact absurd (hsaved.symm.trans hid) nofun
  . rintro id (hid | hid)
    . exact absurd (hpc.symm.trans hid) nofun
    . exact absurd (hsaved.symm.trans hid) nofun
  . intro _ id hid
    exact absurd (hsaved.symm.trans hid) nofun
  . intro _
    unfold Session.Stage
    rw [hpc]
    exact ⟨hsaved, halert⟩
  . intro other _ id _ hid
    exact absurd (hsaved.symm.trans hid) nofun

end Inv

/-! ## Commits -/

inductive Alerted (session : Session) (alerts : Alerts) : Alerts → Prop where
  | same (halert : session.alert = none) : Alerted session alerts alerts
  | written {write : AlertWrite} {alerts' : Alerts} (halert : session.alert = some write)
      (happly : write.apply session.telegramId alerts = some alerts') : Alerted session alerts alerts'

section

variable {telegramId : String} {db db' : Database} {session : Session} {alerts : Alerts} {user : User} {i : Nat}

theorem commit_cases (h : db.commit i session = some db')
    : session.pc = .finished ∧ ∃ alerts, Alerted session db.alerts alerts ∧ db' = { db with
        users := db.users.map session.assign
        alerts
        sessions := db.sessions.set i (.ended session.telegramId) } := by
  unfold Database.commit at h
  split at h
  . next hpc =>
    refine ⟨hpc, ?_⟩
    rcases Option.map_eq_some_iff.mp h with ⟨alerts, halerts, heq⟩
    refine ⟨alerts, ?_, heq.symm⟩
    unfold Session.alerted at halerts
    split at halerts
    . next write halert => exact .written halert halerts
    . next halert =>
      cases halerts
      exact .same halert
  . cases h

@[simp]
theorem id_assign : (session.assign user).id = user.id := by
  unfold Session.assign
  split <;> rfl

@[simp]
theorem telegramId_assign : (session.assign user).telegramId = user.telegramId := by
  unfold Session.assign
  split <;> rfl

theorem map_id_assign (users : List User) : (users.map session.assign).map User.id = users.map User.id := by
  rw [List.map_map]
  exact List.map_congr_left fun user _ => id_assign

theorem map_telegramId_assign (users : List User)
    : (users.map session.assign).map User.telegramId = users.map User.telegramId := by
  rw [List.map_map]
  exact List.map_congr_left fun user _ => telegramId_assign

theorem mem_map_assign {users : List User} (huser : user ∈ users) (hne : session.saved ≠ some user.id)
    : user ∈ users.map session.assign := by
  refine List.mem_map.mpr ⟨user, huser, ?_⟩
  unfold Session.assign
  rw [if_neg hne]

theorem Inv.settled (h : Inv telegramId db) (hsession : db.sessions[i]? = some session)
    (hpc : session.pc = .finished) (heq : session.telegramId = telegramId)
    : session.Settled (hasAlert db.alerts telegramId) := by
  have hstage := (h.sessions.own_of_getElem? hsession).stage heq
  unfold Session.Stage at hstage
  rw [hpc] at hstage
  exact hstage

theorem Inv.fits_unsaved (h : Inv telegramId db) (hsaved : session.saved = none)
    : AllFit telegramId (db.users.map session.assign) db.alerts :=
  h.fits.quiet quiet_refl fun _ huser _ => mem_map_assign huser (hsaved ▸ nofun)

theorem Inv.fits_ipInput {address : String} (h : Inv telegramId db) (hsession : db.sessions[i]? = some session)
    (hpc : session.pc = .finished) (hcall : session.call = .ipInput address) (heq : session.telegramId = telegramId)
    (halerts : Alerted session db.alerts alerts) : AllFit telegramId (db.users.map session.assign) alerts := by
  have hown := h.sessions.own_of_getElem? hsession
  have hsettled := h.settled hsession hpc heq
  unfold Session.Settled at hsettled
  rw [hcall] at hsettled
  cases hsaved : session.saved with
  | none =>
    cases halerts with
    | same _ => exact h.fits_unsaved hsaved
    | written hwrite _ => exact absurd hsaved (hsettled.2 _ hwrite).1
  | some id =>
    rcases hown.there heq id hsaved with ⟨user, huser, hid⟩
    have htelegramId := hown.owner id (Or.inr hsaved) user huser hid
    intro alert halert htold _
    refine ⟨session.assign user, List.mem_map_of_mem huser, telegramId_assign.trans (htelegramId.trans heq), ?_⟩
    unfold Session.assign
    rw [if_pos (hid ▸ hsaved), hcall]
    refine ⟨address, rfl, ?_⟩
    cases halerts with
    | same hnone =>
      refine Or.inr (decide_eq_true ?_)
      exact (hsettled.1 (hsaved ▸ nofun)).resolve_right fun hne => hne hnone
    | written hwrite happly =>
      rcases (hsettled.2 _ hwrite).2 with ⟨alertId, rfl⟩
      rcases upsert_cases happly halert with ⟨_, hrouterIp⟩ | ⟨hne, _⟩
      . exact Or.inl hrouterIp
      . exact absurd (htold.trans heq.symm) hne

theorem Inv.fits_ipDelete (h : Inv telegramId db) (hsession : db.sessions[i]? = some session)
    (hpc : session.pc = .finished) (hcall : session.call = .ipDelete) (heq : session.telegramId = telegramId)
    (halerts : Alerted session db.alerts alerts) : AllFit telegramId (db.users.map session.assign) alerts := by
  have hsettled := h.settled hsession hpc heq
  unfold Session.Settled at hsettled
  rw [hcall] at hsettled
  cases halerts with
  | same hnone =>
    cases hsaved : session.saved with
    | none => exact h.fits_unsaved hsaved
    | some id =>
      have hnoAlert := (hsettled.1 (hsaved ▸ nofun)).resolve_left fun hne => hne hnone
      intro alert halert htold
      exact absurd (hasAlert_iff.mpr ⟨alert, halert, htold⟩) (Bool.eq_false_iff.mp hnoAlert)
  | written hwrite happly =>
    rw [hsettled.2 _ hwrite] at happly
    cases happly
    intro alert halert htold hactive
    rw [inactive_deactivate halert (htold.trans heq.symm)] at hactive
    cases hactive

theorem Inv.fits_other (h : Inv telegramId db) (hsession : db.sessions[i]? = some session)
    (hne : session.telegramId ≠ telegramId) (halerts : Alerted session db.alerts alerts)
    : AllFit telegramId (db.users.map session.assign) alerts := by
  have hown := h.sessions.own_of_getElem? hsession
  have hquiet : Quiet telegramId db.alerts alerts := by
    cases halerts with
    | same _ => exact quiet_refl
    | written _ happly => exact quiet_apply happly hne
  refine h.fits.quiet hquiet ?_
  intro user huser htelegramId
  refine mem_map_assign huser ?_
  intro hsaved
  exact hne ((hown.owner user.id (Or.inr hsaved) user huser rfl).symm.trans htelegramId)

theorem Inv.fits_commit (h : Inv telegramId db) (hsession : db.sessions[i]? = some session)
    (hpc : session.pc = .finished) (halerts : Alerted session db.alerts alerts)
    : AllFit telegramId (db.users.map session.assign) alerts := by
  by_cases heq : session.telegramId = telegramId
  . cases hcall : session.call with
    | ipInput address => exact h.fits_ipInput hsession hpc hcall heq halerts
    | ipDelete => exact h.fits_ipDelete hsession hpc hcall heq halerts
  . exact h.fits_other hsession heq halerts

theorem Inv.hasAlert_of_commit (h : Inv telegramId db) (hsession : db.sessions[i]? = some session)
    (hpc : session.pc = .finished) (halerts : Alerted session db.alerts alerts) {other : Session}
    (hother : other ∈ db.sessions.eraseIdx i) (htelegramId : other.telegramId = telegramId)
    (hsaved : other.saved ≠ none) (halert : hasAlert alerts telegramId = true)
    : hasAlert db.alerts telegramId = true := by
  have hown := h.sessions.own_of_getElem? hsession
  have hownOther := h.sessions.own other (List.mem_of_mem_eraseIdx hother)
  cases halerts with
  | same _ => exact halert
  | written hwrite happly =>
    by_cases heq : session.telegramId = telegramId
    . have hsettled := h.settled hsession hpc heq
      unfold Session.Settled at hsettled
      cases hcall : session.call with
      | ipDelete =>
        rw [hcall] at hsettled
        rw [hsettled.2 _ hwrite] at happly
        cases happly
        exact quiet_deactivate.hasAlert halert
      | ipInput address =>
        -- both would have locked the row of the user
        rw [hcall] at hsettled
        rcases Option.ne_none_iff_exists'.mp (hsettled.2 _ hwrite).1 with ⟨id, hid⟩
        rcases Option.ne_none_iff_exists'.mp hsaved with ⟨id', hid'⟩
        rcases hown.there heq id hid with ⟨user, huser, rfl⟩
        rcases hownOther.there htelegramId id' hid' with ⟨user', huser', rfl⟩
        have htold := hown.owner user.id (Or.inr hid) user huser rfl
        have htold' := hownOther.owner user'.id (Or.inr hid') user' huser' rfl
        have hsame : user.telegramId = user'.telegramId := by rw [htold, htold', heq, htelegramId]
        rw [List.inj_on_of_nodup_map h.telegramIds huser huser' hsame] at hid
        exact absurd hid' (h.sessions.apart_others apart_comm hsession other hother _ hid)
    . exact (quiet_apply happly heq).hasAlert halert

theorem Inv.commit (h : Inv telegramId db) (hsession : db.sessions[i]? = some session)
    (hcommit : db.commit i session = some db') : Inv telegramId db' := by
  rcases commit_cases hcommit with ⟨hpc, alerts, halerts, rfl⟩
  have howners : ∀ user ∈ db.users.map session.assign, ∃ before ∈ db.users,
      before.id = user.id ∧ before.telegramId = user.telegramId := by
    intro user huser
    rcases List.mem_map.mp huser with ⟨before, hbefore, rfl⟩
    exact ⟨before, hbefore, id_assign.symm, telegramId_assign.symm⟩
  refine ⟨?_, ?_, ?_, ?_, h.fits_commit hsession hpc halerts⟩
  . rw [map_id_assign]
    exact h.ids
  . rw [map_telegramId_assign]
    exact h.telegramIds
  . intro user huser
    rcases howners user huser with ⟨before, hbefore, hid, _⟩
    exact hid ▸ h.below before hbefore
  . refine h.sessions.set apart_comm (own_ended _) ?_ nofun
    intro other hother hown
    apply hown.later (Nat.le_refl _)
    . intro user huser _
      exact howners user huser
    . intro user huser _
      exact ⟨session.assign user, List.mem_map_of_mem huser, id_assign⟩
    . exact h.hasAlert_of_commit hsession hpc halerts hother

theorem Inv.step {e : Event} (h : Inv telegramId db) (hkept : e ≠ .userDeleted telegramId)
    (hanew : EntersAnew telegramId db e) (hstep : step db e = some db') : Inv telegramId db' := by
  cases e with
  | ipEntered telegramId' text =>
    rcases Option.map_eq_some_iff.mp hstep with ⟨session, hinput, rfl⟩
    unfold ipInput at hinput
    split at hinput
    . cases hinput
      exact h.called rfl rfl rfl
    . cases hinput
  | ipDeleted telegramId' =>
    cases hstep
    exact h.called rfl rfl rfl
  | userRead i =>
    rcases Option.bind_eq_some_iff.mp hstep with ⟨session, hsession, hmap⟩
    rcases Option.map_eq_some_iff.mp hmap with ⟨session', hread, rfl⟩
    exact h.read hsession hanew hread
  | saved i =>
    rcases Option.bind_eq_some_iff.mp hstep with ⟨session, hsession, hmap⟩
    rcases Option.map_eq_some_iff.mp hmap with ⟨session', hsave, rfl⟩
    exact h.save hsession hsave
  | checked i isAlive =>
    rcases Option.bind_eq_some_iff.mp hstep with ⟨session, hsession, hmap⟩
    rcases Option.map_eq_some_iff.mp hmap with ⟨session', hcheck, rfl⟩
    exact h.check hsession hcheck
  | alertWritten i =>
    rcases Option.bind_eq_some_iff.mp hstep with ⟨session, hsession, hmap⟩
    rcases Option.map_eq_some_iff.mp hmap with ⟨session', hwrite, rfl⟩
    have hset := h.writeAlert hsession hwrite
    exact ⟨hset.ids, hset.telegramIds, hset.below, hset.sessions, hset.fits⟩
  | committed i =>
    rcases Option.bind_eq_some_iff.mp hstep with ⟨session, hsession, hcommit⟩
    exact h.commit hsession hcommit
  | rolledBack i =>
    rcases Option.bind_eq_some_iff.mp hstep with ⟨session, hsession, heq⟩
    cases heq
    exact h.setSession (own_ended _) nofun
  | registered telegramId' =>
    rcases Option.ite_none_right_eq_some.mp hstep with ⟨hnew, heq⟩
    cases heq
    exact h.registered fun user huser => of_decide_eq_true (List.all_eq_true.mp hnew user huser)
  | userDeleted telegramId' =>
    rcases Option.ite_none_right_eq_some.mp hstep with ⟨_, heq⟩
    cases heq
    exact h.userDeleted fun heq => hkept (congrArg Event.userDeleted heq)
  | alertDeactivated telegramId' =>
    rcases Option.ite_none_right_eq_some.mp hstep with ⟨_, heq⟩
    cases heq
    exact h.quiet quiet_deactivate
  | alertStamped telegramId' now =>
    rcases Option.ite_none_right_eq_some.mp hstep with ⟨_, heq⟩
    cases heq
    exact h.quiet quiet_stamp

end

/-! ## Runs -/

structure Start (telegramId : String) (db : Database) : Prop where
  ids : (db.users.map User.id).Nodup
  telegramIds : (db.users.map User.telegramId).Nodup
  below : ∀ user ∈ db.users, user.id < db.nextUserId
  sessions : db.sessions = []
  fits : AllFit telegramId db.users db.alerts

/--
Of a user who enters new addresses only and whose data are not deleted, the daily warnings read an active alert only if
the user has an address, and it is the one of the alert unless its router answered when it was entered.
-/
theorem active_alert_fits {telegramId : String} {db db' : Database} {es : List Event} (hstart : Start telegramId db)
    (hkept : .userDeleted telegramId ∉ es) (hanew : Run.StepsMeet step (EntersAnew telegramId) db es)
    (hrun : Run.exec step db es = some db')
    : ∀ limit afterId, ∀ alert ∈ getActivePingErrorAlertsCursor db'.alerts limit afterId,
        alert.telegramId = telegramId → Fits telegramId db'.users alert := by
  have hinv : Inv telegramId db := by
    refine ⟨hstart.ids, hstart.telegramIds, hstart.below, ?_, hstart.fits⟩
    rw [hstart.sessions]
    exact Sessions.keep_nil
  have hkeeps : Run.StepsMeet step (fun _ e => e ≠ .userDeleted telegramId) db es :=
    Run.StepsMeet.of_events fun e he heq => hkept (heq ▸ he)
  have hlast := Run.invariant (fun h hmeets hstep => Inv.step h hmeets.1 hmeets.2 hstep) hinv (hkeeps.and hanew) hrun
  intro limit afterId alert halert htold
  rcases Keyset.mem_of_mem_page halert with ⟨hrow, hactive, _⟩
  exact hlast.fits alert hrow htold hactive

def emptyTables : Database where
  users := []
  alerts := ⟨[], .nil, .nil⟩
  nextUserId := 1
  nextAlertId := 1

/--
The user corrects an address while the bot still checks it. The alert of the first address stays active, and the router
answers at the second one.
-/
def correctedAddress : List Event := [
  .registered "777", .ipEntered "777" "8.8.8.8", .userRead 0, .saved 0, .ipEntered "777" "example.org", .userRead 1,
  .checked 0 false, .alertWritten 0, .committed 0, .saved 1, .checked 1 true, .committed 1]

theorem isSome_correctedAddress : (Run.exec step emptyTables correctedAddress).isSome = true := by
  decide +kernel

theorem active_alert_fits_correctedAddress
    : Fits "777" ((Run.exec step emptyTables correctedAddress).get isSome_correctedAddress).users
        ⟨1, "777", "8.8.8.8", none, true⟩ := by
  have hstart : Start "777" emptyTables := ⟨.nil, .nil, nofun, rfl, nofun⟩
  have hkept : Event.userDeleted "777" ∉ correctedAddress := by decide +kernel
  have hanew : Run.StepsMeet step (EntersAnew "777") emptyTables correctedAddress := by decide +kernel
  have hrun := (Option.some_get isSome_correctedAddress).symm
  exact active_alert_fits hstart hkept hanew hrun 500 0 _ (by decide +kernel) rfl

end IpDialog
