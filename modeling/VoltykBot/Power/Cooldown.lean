import VoltykBot.Power.Senders

/-!
This module contains the cooldown of the power notifications: when any two invocations of
`_handle_power_state_change` that send something to a user start a cooldown apart.
-/

namespace PowerMonitor
namespace Monitor

theorem stamp_of_shouldNotify {cfg : Settings} {m : Monitor} {ref : Ref} {now t : Time}
    (h : shouldNotify cfg (m.heap ref) now = true) (ht : m.stamp ref = some t)
    : t + seconds cfg.powerNotificationCooldownS ≤ now := by
  unfold shouldNotify at h
  unfold stamp at ht
  rw [ht] at h
  have hpassed : ¬ now - t < seconds cfg.powerNotificationCooldownS := by simpa using h
  exact Int.add_le_of_le_sub_left (Int.not_lt.mp hpassed)

theorem attempt_eq_some {m : Monitor} {k : TaskId} {a : Cooldown.Attempt TelegramId Ref}
    (h : m.attempt k = some a) : ∃ task, m.tasks k = some task ∧ task.kind.telegramId = a.user ∧
      task.ref = some a.ref := by
  rcases Option.bind_eq_some_iff.mp h with ⟨task, hk, ha⟩
  refine ⟨task, hk, ?_⟩
  unfold Task.attempt at ha
  split at ha
  . next hpc =>
    cases ha
    exact ⟨rfl, ref_of_handling hpc⟩
  . next hpc =>
    cases ha
    exact ⟨rfl, ref_of_handling hpc⟩
  . cases ha

theorem attempt_of_send {m : Monitor} {k : TaskId} {task : Task} {ref : Ref} {origDt : Option Time}
    {now changedAt : Time} (hk : m.tasks k = some task)
    (hpc : task.pc = .handling ref origDt (.send now changedAt))
    : m.attempt k = some ⟨task.kind.telegramId, ref, now⟩ := by
  unfold attempt
  rw [hk, Option.bind_some, Task.attempt, hpc]

def reading (cfg : Settings) (m : Monitor) (k : TaskId) : Option (Cooldown.Attempt TelegramId Ref) := do
  let task ← m.tasks k
  match task.pc with
  | .handling ref _ (.stateUpdate now) =>
    if shouldNotify cfg (m.heap ref) now then some ⟨task.kind.telegramId, ref, now⟩ else none
  | _ => none

theorem StampRead.attempt {cfg : Settings} {m m' : Monitor} {k : TaskId} {task : Task} {ref : Ref}
    {origDt : Option Time} {now : Time} (h : StampRead cfg m m' k task ref origDt now)
    : m'.attempt = m.attempt ∨ shouldNotify cfg (m.heap ref) now = true ∧
        m'.attempt = Function.update m.attempt k (some ⟨task.kind.telegramId, ref, now⟩) := by
  have hnone : m.attempt k = none := by
    simp [Monitor.attempt, h.found, Task.attempt, h.pc]
  have hsame (hself : m'.attempt k = none) : m'.attempt = m.attempt := by
    funext k'
    by_cases hk : k' = k
    . rw [hk, hself, hnone]
    . exact attempt_of_tasks (h.tasks_ne k' hk)
  rcases h.tasks_self with hgone | ⟨changedAt, hself⟩
  . exact .inl (hsame (attempt_of_gone hgone))
  . cases hnotify : shouldNotify cfg (m.heap ref) now with
    | false =>
      left
      apply hsame
      simp [Monitor.attempt, hself, Task.attempt, hnotify]
    | true =>
      refine .inr ⟨rfl, ?_⟩
      funext k'
      by_cases hk : k' = k
      . subst hk
        rw [Function.update_self]
        simp [Monitor.attempt, hself, Task.attempt, hnotify]
      . rw [Function.update_of_ne hk]
        exact attempt_of_tasks (h.tasks_ne k' hk)

theorem StampRead.reading {cfg : Settings} {m m' : Monitor} {k : TaskId} {task : Task} {ref : Ref}
    {origDt : Option Time} {now : Time} (h : StampRead cfg m m' k task ref origDt now)
    (hnotify : shouldNotify cfg (m.heap ref) now = true)
    : m.reading cfg k = some ⟨task.kind.telegramId, ref, now⟩ := by
  simp [Monitor.reading, h.found, h.pc, hnotify]

theorem attempt_setTask (m : Monitor) (k : TaskId) (task : Option Task)
    : (m.setTask k task).attempt = Function.update m.attempt k (task.bind Task.attempt) := by
  funext k'
  by_cases hk : k' = k
  . subst hk
    rw [Function.update_self, attempt, setTask]
    dsimp only
    rw [Function.update_self]
  . rw [Function.update_of_ne hk]
    exact attempt_of_tasks (Function.update_of_ne hk _ _)

theorem stamp_notified (m : Monitor) (tid : TelegramId) (ref : Ref) (now : Time)
    : (m.notified tid ref now).stamp = Function.update m.stamp ref (some now) := by
  funext r
  by_cases hr : r = ref
  . subst hr
    rw [Function.update_self]
    simp [stamp, notified, modify, markDirty, IsoText.fromisoformat]
  . rw [Function.update_of_ne hr]
    simp [stamp, notified, modify, markDirty, hr]

end Monitor

namespace Notices

open Monitor

/--
The last attempt for a user that has written its stamp, or was cut off in front of it after it had sent
something.
-/
def lastOf (s : Notices) (tid : TelegramId) : Option (Cooldown.Last Ref) :=
  s.last.lookup tid

theorem lastOf_of_last {s s' : Notices} (h : s'.last = s.last) : s'.lastOf = s.lastOf := by
  funext u
  unfold lastOf
  rw [h]

theorem lastOf_cons {s s' : Notices} {tid : TelegramId} {l : Cooldown.Last Ref}
    (h : s'.last = (tid, l) :: s.last) : s'.lastOf = Function.update s.lastOf tid (some l) := by
  funext u
  unfold lastOf
  rw [h]
  by_cases hu : u = tid
  . subst hu
    rw [Function.update_self, List.lookup_cons_self]
  . rw [Function.update_of_ne hu, List.lookup_cons, beq_false_of_ne hu]

def book (s : Notices) : Cooldown.Book TaskId TelegramId Ref where
  inFlight := s.monitor.attempt
  sent := s.sent.map fun x => ⟨x.task, x.telegramId, x.startedAt⟩
  last := s.lastOf
  stamp := s.monitor.stamp

structure CooldownInv (cfg : Settings) (s : Notices) : Prop where
  book : s.book.Inv (seconds cfg.powerNotificationCooldownS)
  noted : ∀ {u l r}, s.lastOf u = some l → l.ref = some r →
    r < s.monitor.nextRef ∧ s.monitor.owner r = u

variable {cfg : Settings} {s s' : Notices}

theorem CooldownInv.same (h : CooldownInv cfg s) (hmonitor : SameAttempts s.monitor s'.monitor)
    (hsent : s'.sent = s.sent) (hlast : s'.last = s.last) : CooldownInv cfg s' where
  book := by
    apply h.book.same
    . exact funext hmonitor.attempt
    . unfold Notices.book
      rw [hsent]
    . exact lastOf_of_last hlast
    . intro u l r hl hr
      exact hmonitor.stamp r (h.noted hl hr).1
  noted {u l r} hl hr := by
    rw [lastOf_of_last hlast] at hl
    rcases h.noted hl hr with ⟨hlt, howner⟩
    refine ⟨Nat.lt_of_lt_of_le hlt hmonitor.nextRef, ?_⟩
    rw [hmonitor.owner r hlt]
    exact howner

theorem owner_of_attempt (hwf : Wf s.monitor) {k : TaskId}
    {a : Cooldown.Attempt TelegramId Ref} (ha : s.monitor.attempt k = some a)
    : a.ref < s.monitor.nextRef ∧ s.monitor.owner a.ref = a.user := by
  rcases attempt_eq_some ha with ⟨task, hk, htid, href⟩
  rw [← htid]
  exact hwf.taskRef hk href

theorem CooldownInv.ended (h : CooldownInv cfg s) (hwf : Wf s.monitor) {k : TaskId}
    {a : Cooldown.Attempt TelegramId Ref} {l : Cooldown.Last Ref}
    (ha : s.monitor.attempt k = some a)
    (hattempt : s'.monitor.attempt = Function.update s.monitor.attempt k none)
    (hnext : s'.monitor.nextRef = s.monitor.nextRef ∧ s'.monitor.owner = s.monitor.owner)
    (hsent : s'.sent = s.sent) (hlast : s'.last = (a.user, l) :: s.last)
    (hstart : l.startedAt = a.startedAt)
    (hself : ∀ r, l.ref = some r → r = a.ref ∧ s'.monitor.stamp r = some a.startedAt)
    (hother : ∀ r, r ≠ a.ref → s'.monitor.stamp r = s.monitor.stamp r) : CooldownInv cfg s' := by
  have hlast := lastOf_cons hlast
  have howner := owner_of_attempt hwf ha
  have hbook : s'.book.sent = s.book.sent := by
    unfold Notices.book
    rw [hsent]
  refine { book := ?_, noted := ?_ }
  . apply h.book.leave ?_ ha hattempt hbook
    . intro u hu
      exact (congrFun hlast u).trans (Function.update_of_ne hu _ _)
    . exact .inl ⟨l, (congrFun hlast a.user).trans (Function.update_self _ _ _), hstart⟩
    . intro u l' r hl' hr
      have hl' := (congrFun hlast u).symm.trans hl'
      by_cases hu : u = a.user
      . rw [hu, Function.update_self, Option.some.injEq] at hl'
        subst hl'
        rw [hstart]
        exact (hself r hr).2
      . rw [Function.update_of_ne hu] at hl'
        have hne : r ≠ a.ref := by
          rintro rfl
          exact hu ((h.noted hl' hr).2.symm.trans howner.2)
        exact (hother r hne).trans (h.book.stamped hl' hr)
    . exact Int.mul_nonneg (Int.natCast_nonneg _) (by decide)
  . intro u l' r hl' hr
    rw [hnext.1, hnext.2]
    rw [hlast] at hl'
    by_cases hu : u = a.user
    . rw [hu, Function.update_self, Option.some.injEq] at hl'
      subst hl'
      rw [(hself r hr).1, hu]
      exact howner
    . rw [Function.update_of_ne hu] at hl'
      exact h.noted hl' hr

theorem CooldownInv.stamped (h : CooldownInv cfg s) (hwf : Wf s.monitor) {k : TaskId} {m : Monitor}
    {a : Cooldown.Attempt TelegramId Ref} (ha : s.monitor.attempt k = some a)
    (hstep : s.monitor.step cfg (.handler k .sent) = some m)
    : CooldownInv cfg { s with
        monitor := m, last := (a.user, ⟨some a.ref, a.startedAt⟩) :: s.last } := by
  rcases step_sent hstep with ⟨task, ref, origDt, now, changedAt, hk, hpc, rfl⟩
  have hstamp := stamp_notified s.monitor task.kind.telegramId ref now
  rw [attempt_of_send hk hpc, Option.some.injEq] at ha
  subst ha
  apply h.ended hwf (attempt_of_send hk hpc)
  . exact attempt_setTask _ _ _
  . exact ⟨rfl, rfl⟩
  . rfl
  . rfl
  . rfl
  . rintro r hr
    cases hr
    exact ⟨rfl, (congrFun hstamp ref).trans (Function.update_self _ _ _)⟩
  . intro r hr
    exact (congrFun hstamp r).trans (Function.update_of_ne hr _ _)

theorem CooldownInv.cutOff (h : CooldownInv cfg s) (hwf : Wf s.monitor) (k : TaskId)
    : CooldownInv cfg (s.cutOff k (s.monitor.setTask k none)) := by
  unfold Notices.cutOff
  split
  . next a ha =>
    have hattempt := attempt_setTask s.monitor k none
    split
    . apply h.ended hwf ha hattempt
      . exact ⟨rfl, rfl⟩
      . rfl
      . rfl
      . rfl
      . intro r hr
        cases hr
      . intro r _
        rfl
    . next hnone =>
      refine { book := ?_, noted := h.noted }
      refine h.book.leave ?_ ha hattempt rfl ?_ ?_ ?_
      . exact Int.mul_nonneg (Int.natCast_nonneg _) (by decide)
      . intro u _
        rfl
      . right
        refine ⟨rfl, ?_⟩
        intro x hx heq
        rcases List.mem_map.mp hx with ⟨message, hmessage, rfl⟩
        exact hnone ⟨message, hmessage, heq⟩
      . intro u l r hl hr
        exact h.book.stamped hl hr
  . next hnone => exact h.same (sameAttempts_dropTask hnone) rfl rfl

theorem CooldownInv.delivered (h : CooldownInv cfg s) {k : TaskId} {id : MessageId}
    (hstep : s.delivered k id = some s') : CooldownInv cfg s' := by
  rcases Option.bind_eq_some_iff.mp hstep with ⟨task, hk, hstep⟩
  rcases Option.bind_eq_some_iff.mp hstep with ⟨x, _, hstep⟩
  split at hstep
  . next hpc =>
    rcases Option.bind_eq_some_iff.mp hstep with ⟨chat, _, hstep⟩
    split at hstep
    . cases hstep
      exact { book := h.book.send (attempt_of_send hk hpc), noted := h.noted }
    . cases hstep
  . cases hstep

/--
A handler that is going to notify is the only one of its user, and its dict is the one that the last such
handler has stamped, unless that one began a cooldown ago.
-/
def ReadsLastStamp (cfg : Settings) (s : Notices) (e : NoticeEvent) : Prop :=
  match e with
  | .stateUpdated k _ => ∀ a ∈ s.monitor.reading cfg k,
      (∀ k' < s.monitor.nextTask, ∀ a' ∈ s.monitor.attempt k', a'.user ≠ a.user) ∧
        ∀ l ∈ s.lastOf a.user, l.ref = some a.ref ∨
          l.startedAt + seconds cfg.powerNotificationCooldownS ≤ a.startedAt
  | _ => True

instance (cfg : Settings) (s : Notices) (e : NoticeEvent) : Decidable (ReadsLastStamp cfg s e) :=
  match e with
  | .stateUpdated k _ => inferInstanceAs (Decidable (∀ a ∈ s.monitor.reading cfg k, _ ∧ _))
  | .monitor _ => isTrue trivial
  | .scheduleFetched _ _ => isTrue trivial
  | .delivered _ _ => isTrue trivial
  | .sendEnded _ _ => isTrue trivial
  | .userDeactivated _ _ => isTrue trivial
  | .idsCommitted _ => isTrue trivial
  | .settingsChanged _ _ _ => isTrue trivial
  | .scheduleChanged _ => isTrue trivial
  | .usersLoaded _ _ => isTrue trivial
  | .loadFailed _ => isTrue trivial
  | .composed _ => isTrue trivial
  | .editEnded _ _ => isTrue trivial

theorem CooldownInv.stampRead (h : CooldownInv cfg s) (hlate : SentLate s) {k : TaskId}
    {outcome : StateUpdate} (hreads : ReadsLastStamp cfg s (.stateUpdated k outcome))
    (hstep : s.monitor.step cfg (.handler k (.stateUpdated outcome)) = some s'.monitor)
    (hsent : s'.sent = s.sent) (hlast : s'.last = s.last) : CooldownInv cfg s' := by
  rcases step_stateUpdated hstep with ⟨task, ref, origDt, now, hread⟩
  have hearly : s.monitor.early k = true := by
    simp [early, hread.found, hread.pc, TaskPc.early]
  have hstamp : s'.monitor.stamp = s.monitor.stamp := by
    unfold stamp
    rw [hread.rest]
  have hrest : s'.monitor.nextRef = s.monitor.nextRef ∧ s'.monitor.owner = s.monitor.owner := by
    rw [hread.rest]
    exact ⟨rfl, rfl⟩
  have hbook : s'.book.sent = s.book.sent := by
    unfold Notices.book
    rw [hsent]
  refine { book := ?_, noted := ?_ }
  . rcases hread.attempt with hsame | ⟨hnotify, hbegin⟩
    . exact h.book.same hsame hbook (lastOf_of_last hlast) fun u l r _ _ => congrFun hstamp r
    . rcases hreads _ (hread.reading hnotify) with ⟨halone, hpast⟩
      have hpasses : s.book.Passes (seconds cfg.powerNotificationCooldownS)
          ⟨task.kind.telegramId, ref, now⟩ := by
        constructor
        . intro k' a' ha'
          rcases attempt_eq_some ha' with ⟨task', hk', _⟩
          apply halone k' (hlate.wf.task _) a' ha'
          rw [hk']
          exact Option.some_ne_none task'
        . intro l hl
          exact hpast l hl
        . intro t ht
          exact stamp_of_shouldNotify hnotify ht
      have hfirst : ∀ x ∈ s.book.sent, x.task ≠ k := by
        intro x hx
        rcases List.mem_map.mp hx with ⟨message, hmessage, rfl⟩
        exact hlate.ne hearly message hmessage
      have hbegun := h.book.begin hpasses hfirst
      exact hbegun.same hbegin hbook (lastOf_of_last hlast) fun u l r _ _ => congrFun hstamp r
  . intro u l r hl hr
    rw [lastOf_of_last hlast] at hl
    rw [hrest.1, hrest.2]
    exact h.noted hl hr

theorem CooldownInv.goOn (h : CooldownInv cfg s) (hwf : Wf s.monitor) {k : TaskId} {x : Sending}
    (hstep : s.goOn cfg k x = some s') : CooldownInv cfg s' := by
  have hset : CooldownInv cfg (s.setSending k x) := h.same (.refl _) rfl rfl
  unfold Notices.goOn at hstep
  dsimp only at hstep
  split at hstep
  . next a ha _ =>
    rcases Option.bind_eq_some_iff.mp hstep with ⟨m, hm, hs'⟩
    cases hs'
    exact hset.stamped hwf ha hm
  . cases hstep
    exact hset

theorem CooldownInv.monitorStepped (h : CooldownInv cfg s) (hwf : Wf s.monitor) {e : Event} {m : Monitor}
    (he : e.plain = true) (hprocess : ∀ val, e ≠ .restarted val)
    (hstep : s.monitor.step cfg e = some m) : CooldownInv cfg (s.monitorStepped e m) := by
  unfold Notices.monitorStepped
  split
  . next k =>
    rcases step_handlerTimedOut hstep with ⟨_, _, _, _, _, _, rfl⟩
    exact h.cutOff hwf k
  . next val => exact absurd rfl (hprocess val)
  . next htimedOut _ => exact h.same (sameAttempts_step hwf he htimedOut hprocess hstep) rfl rfl

theorem CooldownInv.sendEnded (h : CooldownInv cfg s) (hwf : Wf s.monitor) {k : TaskId}
    {outcome : SendOutcome} (hstep : s.sendEnded cfg k outcome = some s') : CooldownInv cfg s' := by
  rcases Option.bind_eq_some_iff.mp hstep with ⟨task, _, hstep⟩
  rcases Option.bind_eq_some_iff.mp hstep with ⟨x, _, hstep⟩
  dsimp only at hstep
  split at hstep
  . split at hstep
    . exact h.goOn hwf hstep
    . cases hstep
  . cases hstep
    exact h.same (.refl _) rfl rfl
  . exact h.goOn hwf hstep
  . split at hstep
    . exact h.goOn hwf hstep
    . cases hstep
  . exact h.goOn hwf hstep
  . cases hstep

theorem CooldownInv.userDeactivated (h : CooldownInv cfg s) (hwf : Wf s.monitor) {k : TaskId} {ok : Bool}
    (hstep : s.userDeactivated cfg k ok = some s') : CooldownInv cfg s' := by
  rcases Option.bind_eq_some_iff.mp hstep with ⟨a, _, hstep⟩
  rcases Option.bind_eq_some_iff.mp hstep with ⟨x, _, hstep⟩
  split at hstep
  . split at hstep
    . exact h.goOn hwf hstep
    . rcases Option.bind_eq_some_iff.mp hstep with ⟨m, hm, hs'⟩
      cases hs'
      rw [step_sendRaised hm]
      exact h.cutOff hwf k
  . cases hstep

theorem cooldownInv_step {zones : Zones} {e : NoticeEvent} (h : CooldownInv cfg s) (hlate : SentLate s)
    (hprocess : e.restarts = false) (hreads : ReadsLastStamp cfg s e)
    (hstep : s.step cfg zones e = some s') : CooldownInv cfg s' := by
  have hwf := hlate.wf
  have hquiet (he : e.quiet = true) : CooldownInv cfg s' := by
    have hquiet := quiet_step he hstep
    apply h.same
    . rw [hquiet.monitor]
      exact .refl _
    . exact hquiet.sent
    . exact hquiet.last
  cases e with
  | monitor e =>
    unfold Notices.step at hstep
    dsimp only at hstep
    split at hstep
    . next he =>
      rcases Option.map_eq_some_iff.mp hstep with ⟨m, hm, rfl⟩
      apply h.monitorStepped hwf he ?_ hm
      rintro val rfl
      cases hprocess
    . cases hstep
  | stateUpdated k outcome =>
    rcases Option.bind_eq_some_iff.mp hstep with ⟨task, _, hstep⟩
    split at hstep
    . rcases Option.bind_eq_some_iff.mp hstep with ⟨m, hm, hs'⟩
      cases hs'
      exact h.stampRead hlate hreads hm rfl rfl
    . cases hstep
  | scheduleFetched k next =>
    rcases Option.bind_eq_some_iff.mp hstep with ⟨task, _, hstep⟩
    rcases Option.bind_eq_some_iff.mp hstep with ⟨x, _, hstep⟩
    rcases Option.bind_eq_some_iff.mp hstep with ⟨m, hm, hstep⟩
    have hfetched : CooldownInv cfg { s with monitor := m } :=
      h.same (sameAttempts_handler (.inr (.inl rfl)) hm) rfl rfl
    exact hfetched.goOn (wf_step hwf hm) hstep
  | delivered k id => exact h.delivered hstep
  | sendEnded k outcome => exact h.sendEnded hwf hstep
  | userDeactivated k ok => exact h.userDeactivated hwf hstep
  | idsCommitted k => exact hquiet rfl
  | settingsChanged tid ns cc => exact hquiet rfl
  | scheduleChanged next => exact hquiet rfl
  | usersLoaded j tids => exact hquiet rfl
  | loadFailed j => exact hquiet rfl
  | composed j => exact hquiet rfl
  | editEnded j outcome => exact hquiet rfl

/--
Any two invocations of the handler for one user that have each sent something began a cooldown apart.
-/
def KeepsCooldown (cfg : Settings) (s : Notices) : Prop :=
  ∀ x ∈ s.sent, ∀ y ∈ s.sent, x.telegramId = y.telegramId → x.task ≠ y.task →
    x.startedAt + seconds cfg.powerNotificationCooldownS ≤ y.startedAt ∨
      y.startedAt + seconds cfg.powerNotificationCooldownS ≤ x.startedAt

instance (cfg : Settings) (s : Notices) : Decidable (KeepsCooldown cfg s) :=
  inferInstanceAs (Decidable (∀ x ∈ s.sent, ∀ y ∈ s.sent, _))

theorem CooldownInv.keepsCooldown (h : CooldownInv cfg s) : KeepsCooldown cfg s := by
  intro x hx y hy huser htask
  exact h.book.spaced _ (List.mem_map_of_mem hx) _ (List.mem_map_of_mem hy) huser htask

theorem cooldownInv_initial (cfg : Settings) (now : Time)
    (rows : AList (fun _ : TelegramId => UserPowerStateRow))
    (tracking : TelegramId → Option PowerTracking) (val : Option (Option Int))
    (ns : TelegramId → Option NotificationSettings) (cc : TelegramId → Option ChannelConfig)
    (ids : TelegramId → MessageIds)
    : CooldownInv cfg (Notices.initial now rows tracking val ns cc ids) where
  book := by
    apply (Cooldown.Book.inv_empty _ (PowerMonitor.initial now rows tracking val).stamp).same
    . exact funext fun k => Monitor.attempt_initial now rows tracking val k
    . rfl
    . rfl
    . intro u l r _ _
      rfl
  noted := nofun

/--
In one process, if each handler that is going to notify reads the last stamp of its user, the handlers that
send something to one user begin a cooldown apart.
-/
theorem keepsCooldown_of_readsLastStamp {cfg : Settings} {zones : Zones} {now : Time}
    {rows : AList (fun _ : TelegramId => UserPowerStateRow)}
    {tracking : TelegramId → Option PowerTracking} {val : Option (Option Int)}
    {ns : TelegramId → Option NotificationSettings} {cc : TelegramId → Option ChannelConfig}
    {ids : TelegramId → MessageIds} {es : List NoticeEvent}
    (hprocess : ∀ e ∈ es, e.restarts = false)
    (hreads : Run.StepsMeet (step cfg zones) (ReadsLastStamp cfg)
      (Notices.initial now rows tracking val ns cc ids) es)
    : Run.Always (step cfg zones) (KeepsCooldown cfg) (Notices.initial now rows tracking val ns cc ids)
        es := by
  apply Run.always_of_stepsMeet (I := fun s => SentLate s ∧ CooldownInv cfg s)
    (C := fun s e => e.restarts = false ∧ ReadsLastStamp cfg s e)
  . intro s s' e h hmeets hstep
    exact ⟨sentLate_step h.1 hstep, cooldownInv_step h.2 h.1 hmeets.1 hmeets.2 hstep⟩
  . intro s h
    exact h.2.keepsCooldown
  . exact ⟨sentLate_initial now rows tracking val ns cc ids,
      cooldownInv_initial cfg now rows tracking val ns cc ids⟩
  . exact (Run.StepsMeet.of_events hprocess).and hreads

def oneUser (cc : Option ChannelConfig) : Notices :=
  Notices.initial 0 (savedOn "777") trackedOn none (fun _ => none) (fun _ => cc) (fun _ => {})

def winterTime : Zones where
  kyiv _ := 7200
  database _ := 0

def readingCycle (isAvailable : Bool) : List NoticeEvent := [
  .monitor .cycleStarted,
  .monitor (.batchLoaded [{ id := 1, telegramId := "777", routerIp := "192.168.1.1" }]),
  .monitor .inactiveEvicted,
  .monitor .staleEvicted,
  .monitor (.pinged 0 (some isAvailable)),
  .monitor (.callStarted 0),
  .monitor (.observed 0),
  .monitor (.sessionDone 0 true),
  .monitor (.debounceRead 0 (some (some 0))),
  .monitor (.taskStored 0),
  .monitor .cycleEnded]

def notifiedChange (k : TaskId) (id : MessageId) : List NoticeEvent := [
  .monitor (.woken k),
  .monitor (.confirmed k),
  .monitor (.handler k .start),
  .stateUpdated k .ok,
  .scheduleFetched k none,
  .delivered k id]

def tickSeconds (n : Nat) : NoticeEvent := .monitor (.tick (n * 1000000))

def cooledRun : List NoticeEvent :=
  readingCycle false ++ [tickSeconds 30] ++
    notifiedChange 0 1 ++ [.sendEnded 0 (.returned 1), tickSeconds 30] ++
    readingCycle true ++ [tickSeconds 30] ++ notifiedChange 1 2 ++ [.sendEnded 1 (.returned 2)]

theorem keepsCooldown_of_readsLastStamp_cooledRun
    : Run.Always (step {} winterTime) (KeepsCooldown {}) (oneUser none) cooledRun :=
  keepsCooldown_of_readsLastStamp (by decide +kernel) (by decide +kernel)

/--
The channel holds its message up until the handler times out, thirty seconds after its begin. The light comes
back meanwhile.
-/
def heldUpRun : List NoticeEvent :=
  readingCycle false ++ [tickSeconds 30] ++
    notifiedChange 0 1 ++ [.sendEnded 0 (.returned 1), tickSeconds 10] ++
    readingCycle true ++ [tickSeconds 20, .monitor (.handlerTimedOut 0), tickSeconds 10] ++
    notifiedChange 1 2

theorem not_keepsCooldown_heldUpRun
    : ∃ s, Run.exec (step {} winterTime) (oneUser (some { channelId := some "-1001" })) heldUpRun = some s ∧
        s.sent.map (fun x => (x.task, x.telegramId, x.startedAt)) =
          [(1, "777", seconds 70), (0, "777", seconds 30)] ∧
        ¬ KeepsCooldown {} s := by
  have hrun : (Run.exec (step {} winterTime) (oneUser (some { channelId := some "-1001" })) heldUpRun).map
      (fun s => (s.sent.map (fun x => (x.task, x.telegramId, x.startedAt)),
        decide (KeepsCooldown {} s))) =
      some ([(1, "777", seconds 70), (0, "777", seconds 30)], false) := by
    decide +kernel
  rcases Option.map_eq_some_iff.mp hrun with ⟨s, hs, hsent⟩
  rw [Prod.mk.injEq, decide_eq_false_iff_not] at hsent
  exact ⟨s, hs, hsent.1, hsent.2⟩

end Notices
end PowerMonitor
