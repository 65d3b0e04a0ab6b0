import VoltykBot.Lib.Parallel
import VoltykBot.Power.Cooldown
import VoltykBot.Power.Ledger

/-!
This module contains what `update_power_notifications_on_schedule_change` does to the messages that
`_handle_power_state_change` has sent: exactly when its edits leave all but the schedule line as it was.
-/

namespace PowerMonitor

/--
The notice is about the change that the session has written or tried to write.
-/
def FirstSession.Tells (zones : Zones) (c : FirstSession) (notice : Notice) : Prop :=
  notice.newState = c.newState ∧ notice.timeStr = c.timeStr zones ∧ notice.duration = c.lasted

theorem FirstSession.Tells.same {zones : Zones} {c : FirstSession} {notice notice' : Notice}
    (h : c.Tells zones notice) (hsame : notice'.SameChange notice) : c.Tells zones notice' :=
  ⟨hsame.1.trans h.1, hsame.2.1.trans h.2.1, hsame.2.2.trans h.2.2⟩

theorem duration_powerResult {m : Monitor} {tid : TelegramId} {newState : PowerState} {now : Time}
    {outcome : StateUpdate} {c : FirstSession}
    (hfound : c.found = if outcome.returns then m.powerTracking tid else none) (hsession : c.sessionAt = m.now)
    : (m.powerResult tid newState now outcome).bind (·.duration) = c.lasted := by
  have hreturned : (m.powerStateChanged tid newState now).2.bind (·.duration) =
      ((m.powerTracking tid).bind (·.powerChangedAt)).map
        (((m.powerTracking tid).bind (·.pendingPowerChangeAt)).getD m.now - ·) := by
    unfold Monitor.powerStateChanged
    dsimp only
    cases m.powerTracking tid with
    | none => rfl
    | some row => rfl
  unfold FirstSession.lasted FirstSession.changedAt
  rw [hfound, hsession]
  cases outcome with
  | userMissing => rfl
  | loadFailed => rfl
  | changeFailed => rfl
  | commitFailed => exact hreturned
  | commitLost => exact hreturned
  | ok => exact hreturned

structure EditJob.Reads (job : EditJob) (page : TelegramId → List RowWrite) : Prop where
  users : ∀ user ∈ job.users, ∀ row ∈ user.powerTracking, row.WrittenBy (page user.telegramId)
  edit : ∀ edit ∈ job.edit, ∃ user ∈ job.users.head?, ∃ row ∈ user.powerTracking,
    row.powerState = some edit.currentState ∧ row.powerChangedAt = edit.powerChangedAt

theorem EditJob.Reads.advance {job : EditJob} {page : TelegramId → List RowWrite} (h : job.Reads page)
    : job.advance.Reads page := by
  unfold EditJob.advance
  cases job.target with
  | bot => exact { users := h.users, edit := nofun }
  | channel =>
    refine { users := ?_, edit := nofun }
    intro user huser
    exact h.users user (List.mem_of_mem_tail huser)

theorem EditUser.edit_eq_some {user : EditUser} {next : Option Scheduler.NextEvent} {target : EditTarget}
    {now : Time} {edit : Edit} (h : user.edit next target now = some edit)
    : ∃ row ∈ user.powerTracking, row.powerState = some edit.currentState ∧
        row.powerChangedAt = edit.powerChangedAt := by
  rcases Option.bind_eq_some_iff.mp h with ⟨row, hrow, h⟩
  rcases Option.bind_eq_some_iff.mp h with ⟨state, hstate, h⟩
  rcases Option.bind_eq_some_iff.mp h with ⟨line, _, h⟩
  rcases Option.bind_eq_some_iff.mp h with ⟨message, _, h⟩
  cases h
  exact ⟨row, hrow, hstate, rfl⟩

namespace Notices

variable {cfg : Settings} {zones : Zones} {s s' : Notices} {l : Ledger}

structure Told (zones : Zones) (s : Notices) (l : Ledger) : Prop where
  sendings : ∀ k, ∀ x ∈ s.sendings k, ∃ c ∈ l.told k, c.Tells zones x.notice
  sent : ∀ message ∈ s.sent, ∃ c ∈ l.told message.task, c.Tells zones message.notice

theorem told_record {e : NoticeEvent} (h : ∀ k outcome, e ≠ .stateUpdated k outcome)
    : (s.record l e).told = l.told := by
  have henter (w : Option (TelegramId × RowWrite)) : (l.enter w).told = l.told := by
    cases w with
    | none => rfl
    | some w => rfl
  unfold record
  split
  . exact henter _
  . rfl
  . next k outcome => exact absurd rfl (h k outcome)
  all_goals rfl

theorem Told.same {l' : Ledger} (h : Told zones s l)
    (hsendings : ∀ k, ∀ x' ∈ s'.sendings k, ∃ x ∈ s.sendings k, x'.notice.SameChange x.notice)
    (hsent : s'.sent = s.sent) (htold : l'.told = l.told) : Told zones s' l' where
  sendings k x' hx' := by
    rcases hsendings k x' hx' with ⟨x, hx, hsame⟩
    rcases h.sendings k x hx with ⟨c, hc, htells⟩
    rw [htold]
    exact ⟨c, hc, htells.same hsame⟩
  sent message hmessage := by
    rw [hsent] at hmessage
    rw [htold]
    exact h.sent message hmessage

theorem Told.stateUpdated (h : Told zones s l) (hlate : SentLate s) {k : TaskId} {outcome : StateUpdate}
    (hstep : s.stateUpdated cfg zones k outcome = some s')
    : Told zones s' (s.record l (.stateUpdated k outcome)) := by
  rcases stateUpdated_eq_some hstep with ⟨task, origDt, now, hended, hearly, hsent, _, _, hsendings⟩
  have hother {k' : TaskId} (hne : k' ≠ k)
      : (s.record l (.stateUpdated k outcome)).told k' = l.told k' := Function.update_of_ne hne _ _
  constructor
  . intro k' x hx
    by_cases hk : k' = k
    . subst hk
      rw [hsendings, Function.update_self] at hx
      cases hx
      refine ⟨_, (Function.update_self _ _ _).trans hended.firstSession, rfl, rfl, ?_⟩
      exact duration_powerResult rfl rfl
    . rw [hsendings, Function.update_of_ne hk] at hx
      rw [hother hk]
      exact h.sendings k' x hx
  . intro message hmessage
    rw [hsent] at hmessage
    rw [hother (hlate.ne hearly message hmessage)]
    exact h.sent message hmessage

theorem told_step {e : NoticeEvent} (h : Told zones s l) (hlate : SentLate s)
    (hstep : s.step cfg zones e = some s') : Told zones s' (s.record l e) := by
  have hsends (hsends : Sends s s') (he : ∀ k outcome, e ≠ .stateUpdated k outcome)
      : Told zones s' (s.record l e) :=
    h.same hsends.sendings hsends.sent (told_record he)
  have hkept (hsendings : s'.sendings = s.sendings) (hsent : s'.sent = s.sent)
      (he : ∀ k outcome, e ≠ .stateUpdated k outcome) : Told zones s' (s.record l e) := by
    apply h.same ?_ hsent (told_record he)
    rw [hsendings]
    exact fun _ x' hx' => ⟨x', hx', rfl, rfl, rfl⟩
  have hquiet (he : e.quiet = true) (he' : ∀ k outcome, e ≠ .stateUpdated k outcome)
      : Told zones s' (s.record l e) :=
    hkept (quiet_step he hstep).sendings (quiet_step he hstep).sent he'
  cases e with
  | monitor e =>
    have hmonitor := monitorStepped_of_step hstep
    exact hkept hmonitor.sendings hmonitor.sent nofun
  | stateUpdated k outcome => exact h.stateUpdated hlate hstep
  | scheduleFetched k next => exact hsends (sends_scheduleFetched hstep) nofun
  | delivered k id =>
    rcases delivered_eq_some hstep with ⟨x, new, hx, htask, hnotice, _, rfl⟩
    refine { sendings := h.sendings, sent := ?_ }
    intro message hmessage
    rcases List.mem_cons.mp hmessage with rfl | hmessage
    . rw [htask, hnotice]
      exact h.sendings k x hx
    . exact h.sent message hmessage
  | sendEnded k outcome => exact hsends (sends_sendEnded hstep) nofun
  | userDeactivated k ok => exact hsends (sends_userDeactivated hstep) nofun
  | idsCommitted k => exact hquiet rfl nofun
  | settingsChanged tid ns cc => exact hquiet rfl nofun
  | scheduleChanged next => exact hquiet rfl nofun
  | usersLoaded j tids => exact hquiet rfl nofun
  | loadFailed j => exact hquiet rfl nofun
  | composed j => exact hquiet rfl nofun
  | editEnded j outcome => exact hquiet rfl nofun

def Paged (s : Notices) (l : Ledger) : Prop :=
  List.Forall₂ EditJob.Reads s.jobs l.pages

theorem pages_record {e : NoticeEvent} (hquiet : e.quiet = false) (he : e.restarts = false)
    : (s.record l e).pages = l.pages := by
  have henter (w : Option (TelegramId × RowWrite)) : (l.enter w).pages = l.pages := by
    cases w with
    | none => rfl
    | some w => rfl
  unfold record
  split
  . exact henter _
  . cases he
  . exact henter _
  . cases hquiet
  . cases hquiet
  . cases hquiet
  . cases hquiet
  . rfl

theorem paged_usersLoaded {j : Nat} {tids : List TelegramId} (h : Paged s l)
    (hrows : RowsWritten s.monitor.powerTracking l.writes) (hstep : s.usersLoaded j tids = some s')
    : Paged s' (s.record l (.usersLoaded j tids)) := by
  rcases Option.bind_eq_some_iff.mp hstep with ⟨job, hjob, hstep⟩
  cases husers : job.users with
  | cons user users =>
    rw [husers] at hstep
    cases hstep
  | nil =>
    rw [husers] at hstep
    cases tids with
    | nil =>
      cases hstep
      exact Parallel.forall₂_eraseIdx h j
    | cons tid tids =>
      cases hstep
      apply Parallel.forall₂_set h j
      constructor
      . intro user huser row hrow
        rcases List.mem_map.mp huser with ⟨tid', _, rfl⟩
        exact hrows tid' row hrow
      . -- no edit is awaited between two pages
        intro edit hedit
        rcases Parallel.getElem?_of_forall₂ h hjob with ⟨page, _, hreads⟩
        rcases hreads.edit edit hedit with ⟨user, huser, _⟩
        rw [husers] at huser
        cases huser

theorem paged_composed {j : Nat} (h : Paged s l) (hstep : s.composed j = some s') : Paged s' l := by
  rcases Option.bind_eq_some_iff.mp hstep with ⟨job, hjob, hstep⟩
  rcases Parallel.getElem?_of_forall₂ h hjob with ⟨page, hpage, hreads⟩
  have hset {job' : EditJob} (hjob' : job'.Reads page) : Paged (s.setJob j job') l := by
    apply Parallel.forall₂_set_left h
    intro page' hpage'
    rw [hpage, Option.some.injEq] at hpage'
    exact hpage' ▸ hjob'
  split at hstep
  . next user users husers _ =>
    split at hstep
    . next edit hedit =>
      cases hstep
      refine hset { users := hreads.users, edit := ?_ }
      rintro edit' hedit'
      cases hedit'
      exact ⟨user, by rw [husers]; rfl, EditUser.edit_eq_some hedit⟩
    . cases hstep
      exact hset hreads.advance
  . cases hstep

theorem paged_editEnded {j : Nat} {outcome : EditOutcome} (h : Paged s l)
    (hstep : s.editEnded j outcome = some s') : Paged s' l := by
  rcases Option.bind_eq_some_iff.mp hstep with ⟨job, hjob, hstep⟩
  rcases Parallel.getElem?_of_forall₂ h hjob with ⟨page, hpage, hreads⟩
  have hadvance : List.Forall₂ EditJob.Reads (s.jobs.set j job.advance) l.pages := by
    apply Parallel.forall₂_set_left h
    intro page' hpage'
    rw [hpage, Option.some.injEq] at hpage'
    exact hpage' ▸ hreads.advance
  split at hstep
  . cases hstep
    exact hadvance
  . cases hstep
    unfold clearIds
    split
    . exact hadvance
    . exact hadvance
  . cases hstep
    exact hadvance
  . cases hstep

theorem paged_step {e : NoticeEvent} (h : Paged s l) (hrows : RowsWritten s.monitor.powerTracking l.writes)
    (hstep : s.step cfg zones e = some s') : Paged s' (s.record l e) := by
  have hkept (hjobs : s'.jobs = s.jobs) (hpages : (s.record l e).pages = l.pages) : Paged s' (s.record l e) := by
    unfold Paged
    rw [hjobs, hpages]
    exact h
  cases e with
  | monitor e =>
    have hmonitor := monitorStepped_of_step hstep
    by_cases hrestarted : ∀ val, e ≠ .restarted val
    . apply hkept (hmonitor.jobs hrestarted) (pages_record rfl ?_)
      cases e with
      | restarted val => exact absurd rfl (hrestarted val)
      | _ => rfl
    . simp only [not_forall, Classical.not_not] at hrestarted
      rcases hrestarted with ⟨val, rfl⟩
      unfold Paged
      rw [hmonitor.restarted val rfl]
      exact .nil
  | stateUpdated k outcome =>
    rcases stateUpdated_eq_some hstep with ⟨_, _, _, _, _, _, hjobs, _, _⟩
    exact hkept hjobs (pages_record rfl rfl)
  | scheduleFetched k next => exact hkept (sends_scheduleFetched hstep).jobs rfl
  | delivered k id =>
    rcases delivered_eq_some hstep with ⟨_, _, _, _, _, _, rfl⟩
    exact hkept rfl rfl
  | sendEnded k outcome => exact hkept (sends_sendEnded hstep).jobs rfl
  | userDeactivated k ok => exact hkept (sends_userDeactivated hstep).jobs rfl
  | idsCommitted k =>
    rcases Option.bind_eq_some_iff.mp hstep with ⟨task, _, hstep⟩
    rcases Option.bind_eq_some_iff.mp hstep with ⟨x, _, hstep⟩
    split at hstep
    . dsimp only at hstep
      split at hstep
      . cases hstep
        exact h
      . cases hstep
    . cases hstep
  | settingsChanged tid ns cc =>
    cases hstep
    exact h
  | scheduleChanged next =>
    cases hstep
    have hnew : EditJob.Reads { nextEvent := next } fun _ => [] := by
      constructor
      . intro user huser
        cases huser
      . intro edit hedit
        cases hedit
    exact List.rel_append h (List.Forall₂.cons hnew List.Forall₂.nil)
  | usersLoaded j tids => exact paged_usersLoaded h hrows hstep
  | loadFailed j =>
    rcases Option.bind_eq_some_iff.mp hstep with ⟨job, _, hstep⟩
    split at hstep
    . cases hstep
      exact Parallel.forall₂_eraseIdx h j
    . cases hstep
  | composed j => exact paged_composed h hstep
  | editEnded j outcome => exact paged_editEnded h hstep

end Notices

/--
The last write of the row in front of the load of its page is that of the message's own session, or another one of
the same state; the change that it writes is of the hour and minute of the message; and the edit is composed as
many whole minutes after that change as the message gives for the time between the last two changes.
-/
structure RowWrite.InTime (zones : Zones) (last : RowWrite) (c : FirstSession) (composedAt : Time) : Prop where
  order : last = .confirmed c ∨ last.newState = c.newState
  minute : hourMinute zones.kyiv last.changedAt = c.timeStr zones
  elapsed : ∃ d ∈ c.lasted, (composedAt - last.changedAt) / seconds 60 = shownMinutes d

instance (zones : Zones) (last : RowWrite) (c : FirstSession) (composedAt : Time)
    : Decidable (last.InTime zones c composedAt) :=
  decidable_of_iff (_ ∧ _ ∧ ∃ d ∈ c.lasted, _) ⟨fun h => ⟨h.1, h.2.1, h.2.2⟩, fun h => ⟨h.order, h.minute, h.elapsed⟩⟩

theorem RowWrite.inTime_iff {zones : Zones} {last : RowWrite} {c : FirstSession} {composedAt : Time}
    : last.InTime zones c composedAt ↔ last.newState = c.newState ∧
        hourMinute zones.kyiv last.changedAt = c.timeStr zones ∧
          ∃ d, c.lasted = some d ∧ (composedAt - last.changedAt) / seconds 60 = shownMinutes d := by
  constructor
  . rintro ⟨horder, hminute, helapsed⟩
    refine ⟨?_, hminute, helapsed⟩
    rcases horder with rfl | hstate
    . rfl
    . exact hstate
  . rintro ⟨hstate, hminute, helapsed⟩
    exact ⟨.inr hstate, hminute, helapsed⟩

theorem PowerTracking.WrittenBy.inTime_iff {zones : Zones} {row : PowerTracking} {writes : List RowWrite}
    {c : FirstSession} {composedAt : Time} {state : PowerState} (h : row.WrittenBy writes)
    (hstate : row.powerState = some state)
    : (∃ last ∈ writes.head?, last.InTime zones c composedAt) ↔ state = c.newState ∧
        ∃ changed, row.powerChangedAt = some changed ∧ hourMinute zones.kyiv changed = c.timeStr zones ∧
          ∃ d, c.lasted = some d ∧ (composedAt - changed) / seconds 60 = shownMinutes d := by
  unfold PowerTracking.WrittenBy PowerTracking.change at h
  rw [hstate, Option.bind_eq_bind, Option.bind_some] at h
  cases hchanged : row.powerChangedAt with
  | none =>
    rw [hchanged] at h
    have hnone : writes.head? = none := Option.map_eq_none_iff.mp h.symm
    constructor
    . rintro ⟨last, hlast, _⟩
      rw [hnone] at hlast
      cases hlast
    . rintro ⟨_, changed, hsome, _⟩
      cases hsome
  | some changed =>
    rw [hchanged] at h
    rcases Option.map_eq_some_iff.mp h.symm with ⟨last, hlast, hchange⟩
    unfold RowWrite.change at hchange
    rw [Prod.mk.injEq] at hchange
    rcases hchange with ⟨rfl, rfl⟩
    constructor
    . rintro ⟨last', hlast', hinTime⟩
      rw [hlast, Option.mem_some_iff] at hlast'
      subst hlast'
      rcases RowWrite.inTime_iff.mp hinTime with ⟨hsame, hrest⟩
      exact ⟨hsame, _, rfl, hrest⟩
    . rintro ⟨hsame, changed, hsome, hrest⟩
      cases hsome
      exact ⟨last, hlast, RowWrite.inTime_iff.mpr ⟨hsame, hrest⟩⟩

namespace Notices

variable {cfg : Settings} {zones : Zones} {s s' : Notices} {p p' : Notices × Ledger}

structure LedgerInv (zones : Zones) (p : Notices × Ledger) : Prop where
  late : SentLate p.1
  rows : RowsWritten p.1.monitor.powerTracking p.2.writes
  told : Told zones p.1 p.2
  paged : Paged p.1 p.2

theorem ledgerInv_step {e : NoticeEvent} (h : LedgerInv zones p)
    (hstep : Run.recording (step cfg zones) record p e = some p') : LedgerInv zones p' := by
  rcases p' with ⟨s', l'⟩
  rcases Run.recording_eq_some.mp hstep with ⟨htaken, hrecord⟩
  dsimp only at htaken hrecord
  subst hrecord
  exact {
    late := sentLate_step h.late htaken
    rows := rowsWritten_step h.rows htaken
    told := told_step h.told h.late htaken
    paged := paged_step h.paged h.rows htaken }

def EditInTime (zones : Zones) (p : Notices × Ledger) (e : NoticeEvent) : Prop :=
  match e with
  | .editEnded j .edited =>
    ∀ job ∈ p.1.jobs[j]?, ∀ page ∈ p.2.pages[j]?, ∀ user ∈ job.users.head?, ∀ edit ∈ job.edit,
      ∀ message ∈ p.1.sent, edit.edits message → ∀ c ∈ p.2.told message.task,
        ∃ last ∈ (page user.telegramId).head?, last.InTime zones c edit.composedAt
  | _ => True

instance (zones : Zones) (p : Notices × Ledger) (e : NoticeEvent) : Decidable (EditInTime zones p e) := by
  unfold EditInTime
  split <;> infer_instance

theorem LedgerInv.sameButSchedule_iff (h : LedgerInv zones p) {j : Nat} {job : EditJob} {edit : Edit}
    {message : SentMessage} (hjob : p.1.jobs[j]? = some job) (hedit : edit ∈ job.edit) (hmessage : message ∈ p.1.sent)
    : (edit.message zones).SameButSchedule message.notice.message ↔
        ∀ page ∈ p.2.pages[j]?, ∀ user ∈ job.users.head?, ∀ c ∈ p.2.told message.task,
          ∃ last ∈ (page user.telegramId).head?, last.InTime zones c edit.composedAt := by
  rcases Parallel.getElem?_of_forall₂ h.paged hjob with ⟨page, hpage, hreads⟩
  rcases hreads.edit edit hedit with ⟨user, huser, row, hrow, hstate, hchanged⟩
  rcases h.told.sent message hmessage with ⟨c, hc, hnewState, htimeStr, hduration⟩
  have hwritten := hreads.users user (List.mem_of_mem_head? huser) row hrow
  have hinTime : (edit.message zones).SameButSchedule message.notice.message ↔
      ∃ last ∈ (page user.telegramId).head?, last.InTime zones c edit.composedAt := by
    rw [hwritten.inTime_iff hstate, hchanged, ← hnewState, ← htimeStr, ← hduration]
    exact sameButSchedule_editMessage
  rw [hinTime]
  constructor
  . intro hlast page' hpage' user' huser' c' hc'
    cases hpage.symm.trans hpage'
    cases (Option.mem_def.mp huser).symm.trans huser'
    cases (Option.mem_def.mp hc).symm.trans hc'
    exact hlast
  . intro hall
    exact hall page hpage user huser c hc

def EditsScheduleOnly (zones : Zones) (s : Notices) : Prop :=
  ∀ edit ∈ s.edits, ∀ message ∈ s.sent, edit.edits message →
    (edit.message zones).SameButSchedule message.notice.message

instance (zones : Zones) (s : Notices) : Decidable (EditsScheduleOnly zones s) :=
  inferInstanceAs (Decidable (∀ edit ∈ s.edits, _))

theorem EditsScheduleOnly.same (h : EditsScheduleOnly zones s) (hsent : s'.sent = s.sent)
    (hedits : s'.edits = s.edits) : EditsScheduleOnly zones s' := by
  unfold EditsScheduleOnly
  rw [hsent, hedits]
  exact h

theorem editEnded_eq_some {j : Nat} {outcome : EditOutcome} (h : s.editEnded j outcome = some s')
    : ∃ job edit, s.jobs[j]? = some job ∧ job.edit = some edit ∧ s'.sent = s.sent ∧
        s'.edits = if outcome = .edited then edit :: s.edits else s.edits := by
  rcases Option.bind_eq_some_iff.mp h with ⟨job, hjob, h⟩
  cases husers : job.users with
  | nil =>
    rw [husers] at h
    cases h
  | cons user users =>
    cases hedit : job.edit with
    | none =>
      rw [husers, hedit] at h
      cases h
    | some edit =>
      rw [husers, hedit] at h
      refine ⟨job, edit, hjob, hedit, ?_⟩
      cases outcome with
      | edited =>
        cases h
        exact ⟨rfl, rfl⟩
      | notModified =>
        cases h
        exact ⟨rfl, rfl⟩
      | raised =>
        cases h
        exact ⟨rfl, rfl⟩
      | notFound cleared =>
        cases cleared with
        | true =>
          cases h
          unfold clearIds
          split <;> exact ⟨rfl, rfl⟩
        | false =>
          cases h
          exact ⟨rfl, rfl⟩

theorem editsScheduleOnly_step {e : NoticeEvent} (hledger : LedgerInv zones p)
    (h : EditsScheduleOnly zones p.1) (hinTime : EditInTime zones p e) (hstep : p.1.step cfg zones e = some s')
    : EditsScheduleOnly zones s' := by
  have hquiet (he : e.quiet = true) (hne : ∀ j outcome, e ≠ .editEnded j outcome)
      : EditsScheduleOnly zones s' :=
    h.same (quiet_step he hstep).sent ((quiet_step he hstep).edits hne)
  have hsends (hsends : Sends p.1 s') : EditsScheduleOnly zones s' := h.same hsends.sent hsends.edits
  cases e with
  | monitor e =>
    have hmonitor := monitorStepped_of_step hstep
    exact h.same hmonitor.sent hmonitor.edits
  | stateUpdated k outcome =>
    rcases stateUpdated_eq_some hstep with ⟨_, _, _, _, _, hsent, _, hedits, _⟩
    exact h.same hsent hedits
  | scheduleFetched k next => exact hsends (sends_scheduleFetched hstep)
  | sendEnded k outcome => exact hsends (sends_sendEnded hstep)
  | userDeactivated k ok => exact hsends (sends_userDeactivated hstep)
  | delivered k id =>
    rcases delivered_eq_some hstep with ⟨x, new, _, _, _, hnew, rfl⟩
    intro edit hedit message hmessage hedits
    rcases List.mem_cons.mp hmessage with rfl | hmessage
    . exact absurd ⟨hedits.1.symm, hedits.2.symm⟩ (hnew.2 edit hedit)
    . exact h edit hedit message hmessage hedits
  | editEnded j outcome =>
    rcases editEnded_eq_some hstep with ⟨job, edit, hjob, hedit, hsent, hafter⟩
    by_cases hedited : outcome = .edited
    . subst hedited
      rw [if_pos rfl] at hafter
      intro edit' hedit' message hmessage hedits
      rw [hsent] at hmessage
      rw [hafter] at hedit'
      rcases List.mem_cons.mp hedit' with rfl | hedit'
      . rw [hledger.sameButSchedule_iff hjob hedit hmessage]
        intro page hpage user huser
        exact hinTime job hjob page hpage user huser edit' hedit message hmessage hedits
      . exact h edit' hedit' message hmessage hedits
    . rw [if_neg hedited] at hafter
      exact h.same hsent hafter
  | idsCommitted k => exact hquiet rfl nofun
  | settingsChanged tid ns cc => exact hquiet rfl nofun
  | scheduleChanged next => exact hquiet rfl nofun
  | usersLoaded j tids => exact hquiet rfl nofun
  | loadFailed j => exact hquiet rfl nofun
  | composed j => exact hquiet rfl nofun

theorem not_editsScheduleOnly_step {e : NoticeEvent} (hledger : LedgerInv zones p)
    (hinTime : ¬ EditInTime zones p e) (hstep : p.1.step cfg zones e = some s')
    : ¬ EditsScheduleOnly zones s' := by
  intro h
  apply hinTime
  unfold EditInTime
  split
  . intro job hjob page hpage user huser edit hedit message hmessage hedits
    rcases editEnded_eq_some hstep with ⟨job', edit', hjob', hedit', hsent, hafter⟩
    rw [Option.mem_def.mp hjob, Option.some.injEq] at hjob'
    subst hjob'
    rw [Option.mem_def.mp hedit, Option.some.injEq] at hedit'
    subst hedit'
    rw [if_pos rfl] at hafter
    have hsame : (edit.message zones).SameButSchedule message.notice.message := by
      apply h edit _ message _ hedits
      . rw [hafter]
        exact List.mem_cons_self
      . rw [hsent]
        exact hmessage
    exact (hledger.sameButSchedule_iff hjob hedit hmessage).mp hsame page hpage user huser
  . trivial

theorem ledgerInv_initial (zones : Zones) (now : Time) (rows : AList (fun _ : TelegramId => UserPowerStateRow))
    (tracking : TelegramId → Option PowerTracking) (val : Option (Option Int))
    (ns : TelegramId → Option NotificationSettings) (cc : TelegramId → Option ChannelConfig)
    (ids : TelegramId → MessageIds)
    : LedgerInv zones (Notices.initial now rows tracking val ns cc ids, Ledger.initial tracking) where
  late := sentLate_initial now rows tracking val ns cc ids
  rows := by
    have htracking : (PowerMonitor.initial now rows tracking val).powerTracking = tracking := by
      unfold PowerMonitor.initial
      rw [(Monitor.restart_restarted _ val).rest]
    unfold Notices.initial
    dsimp only
    rw [htracking]
    exact rowsWritten_initial tracking
  told := by
    constructor
    . intro k x hx
      cases hx
    . intro message hmessage
      cases hmessage
  paged := List.Forall₂.nil

/--
In every run the edits leave all but the schedule line of every message as it was sent if and only if each edit
that goes through is in time for the message that it edits.
-/
theorem editsScheduleOnly_iff_editInTime {now : Time}
    {rows : AList (fun _ : TelegramId => UserPowerStateRow)}
    {tracking : TelegramId → Option PowerTracking} {val : Option (Option Int)}
    {ns : TelegramId → Option NotificationSettings} {cc : TelegramId → Option ChannelConfig}
    {ids : TelegramId → MessageIds} {es : List NoticeEvent} {t : Notices}
    (hrun : Run.exec (step cfg zones) (Notices.initial now rows tracking val ns cc ids) es = some t)
    : Run.Always (step cfg zones) (EditsScheduleOnly zones)
        (Notices.initial now rows tracking val ns cc ids) es
        ↔
      Run.StepsMeet (Run.recording (step cfg zones) record) (EditInTime zones)
        (Notices.initial now rows tracking val ns cc ids, Ledger.initial tracking) es := by
  rcases Run.exec_recording record hrun (Ledger.initial tracking) with ⟨l, hrecorded⟩
  rw [← Run.always_recording record (Ledger.initial tracking)]
  apply Run.always_iff_stepsMeet (I := fun p => LedgerInv zones p ∧ EditsScheduleOnly zones p.1) ?_ ?_ ?_ ?_
    hrecorded
  . intro p p' e h hinTime hstep
    exact ⟨ledgerInv_step h.1 hstep,
      editsScheduleOnly_step h.1 h.2 hinTime (Run.recording_eq_some.mp hstep).1⟩
  . intro p h
    exact h.2
  . intro p p' e h hinTime hstep
    exact not_editsScheduleOnly_step h.1 hinTime (Run.recording_eq_some.mp hstep).1
  . exact ⟨ledgerInv_initial zones now rows tracking val ns cc ids, nofun⟩

def powerBackAtNoon : Scheduler.NextEvent where
  type := .powerOn
  time := { date := 0, half := 24, offset := 7200 }
  startTime := none
  endTime := none
  minutes := 300
  isPossible := false

/--
The light goes off after five hours, and the user gets the message. It is edited when the schedule changes so
many seconds later.
-/
def editedRun (elapsed : Nat) : List NoticeEvent :=
  [tickSeconds 18000] ++ readingCycle false ++ [tickSeconds 30] ++ notifiedChange 0 1 ++ [
    .sendEnded 0 (.returned 1),
    .idsCommitted 0,
    .monitor (.handler 0 .idsPersisted),
    tickSeconds elapsed,
    .scheduleChanged (some powerBackAtNoon),
    .usersLoaded 0 ["777"],
    .composed 0,
    .editEnded 0 .edited]

theorem editsScheduleOnly_iff_editInTime_fiveHours
    : Run.Always (step {} winterTime) (EditsScheduleOnly winterTime)
        (oneUser none) (editedRun 18000)
        ↔
      Run.StepsMeet (Run.recording (step {} winterTime) record) (EditInTime winterTime)
        (oneUser none, Ledger.initial Monitor.trackedOn) (editedRun 18000) := by
  have hrun : (Run.exec (step {} winterTime) (oneUser none) (editedRun 18000)).isSome := by
    decide +kernel
  exact editsScheduleOnly_iff_editInTime (Option.some_get hrun).symm

example : Run.StepsMeet (Run.recording (step {} winterTime) record) (EditInTime winterTime)
    (oneUser none, Ledger.initial Monitor.trackedOn) (editedRun 18000) := by
  decide +kernel

/--
An hour after the light has gone off, the edit says that it had been there for an hour.
-/
theorem not_editsScheduleOnly_oneHour
    : ∃ s, Run.exec (step {} winterTime) (oneUser none) (editedRun 3600) = some s ∧
        s.sent.map (·.notice.message.durationLine) = ["🕓 Воно було 5 год"] ∧
        s.edits.map (fun edit => (edit.message winterTime).durationLine) = ["🕓 Воно було 1 год"] ∧
        ¬ EditsScheduleOnly winterTime s := by
  have hrun : (Run.exec (step {} winterTime) (oneUser none) (editedRun 3600)).map
      (fun s => (s.sent.map (·.notice.message.durationLine),
        s.edits.map (fun edit => (edit.message winterTime).durationLine),
        decide (EditsScheduleOnly winterTime s))) =
      some (["🕓 Воно було 5 год"], ["🕓 Воно було 1 год"], false) := by
    decide +kernel
  rcases Option.map_eq_some_iff.mp hrun with ⟨s, hs, hlines⟩
  simp only [Prod.mk.injEq, decide_eq_false_iff_not] at hlines
  exact ⟨s, hs, hlines⟩

end Notices
end PowerMonitor
