import VoltykBot.Power.Stamps

/-!
This module contains that what has been sent was sent by handlers which had come to their sends, and that they
never come to them again.
-/

namespace PowerMonitor
namespace Monitor

theorem step_sent {cfg : Settings} {m m' : Monitor} {k : TaskId}
    (h : m.step cfg (.handler k .sent) = some m')
    : ∃ task ref origDt now changedAt, m.tasks k = some task ∧
        task.pc = .handling ref origDt (.send now changedAt) ∧
        m' = (m.notified task.kind.telegramId ref now).setTask k
          (some { task with pc := .handling ref origDt (.persistIds changedAt) }) := by
  rcases step_handler h with ⟨task, ref, origDt, pc, m₁, pc', hk, hpc, hstep, rfl⟩
  cases pc with
  | send now changedAt =>
    cases hstep
    exact ⟨task, ref, origDt, now, changedAt, hk, hpc, rfl⟩
  | start => cases hstep
  | stateUpdate now => cases hstep
  | lookAhead now changedAt shouldNotify => cases hstep
  | persistIds changedAt => cases hstep

theorem step_sendRaised {cfg : Settings} {m m' : Monitor} {k : TaskId}
    (h : m.step cfg (.handler k .sendRaised) = some m') : m' = m.setTask k none := by
  rcases step_handler h with ⟨task, ref, origDt, pc, m₁, pc', hk, hpc, hstep, rfl⟩
  cases pc with
  | send now changedAt =>
    cases hstep
    rfl
  | start => cases hstep
  | stateUpdate now => cases hstep
  | lookAhead now changedAt shouldNotify => cases hstep
  | persistIds changedAt => cases hstep

structure StampRead (cfg : Settings) (m m' : Monitor) (k : TaskId) (task : Task) (ref : Ref)
    (origDt : Option Time) (now : Time) : Prop where
  found : m.tasks k = some task
  pc : task.pc = .handling ref origDt (.stateUpdate now)
  rest : m' = { m with
    tasks := m'.tasks, powerTracking := m'.powerTracking, powerHistory := m'.powerHistory }
  tasks_ne : ∀ k', k' ≠ k → m'.tasks k' = m.tasks k'
  tasks_self : m'.tasks k = none ∨ ∃ changedAt, m'.tasks k = some { task with
    pc := .handling ref origDt (.lookAhead now changedAt (shouldNotify cfg (m.heap ref) now)) }

theorem step_stateUpdated {cfg : Settings} {m m' : Monitor} {k : TaskId} {outcome : StateUpdate}
    (h : m.step cfg (.handler k (.stateUpdated outcome)) = some m')
    : ∃ task ref origDt now, StampRead cfg m m' k task ref origDt now := by
  rcases step_handler h with ⟨task, ref, origDt, pc, m₁, pc', hk, hpc, hstep, rfl⟩
  cases pc with
  | stateUpdate now =>
    have hstep := Option.some.inj hstep
    refine ⟨task, ref, origDt, now, hk, hpc, ?_, ?_, ?_⟩
    . rw [stateUpdated_eq hstep]
      rfl
    . intro k' hne
      rw [stateUpdated_eq hstep]
      exact Function.update_of_ne hne _ _
    . rw [show (Monitor.tasks _ k) = _ from Function.update_self _ _ _]
      unfold stateUpdated at hstep
      cases outcome with
      | userMissing =>
        cases hstep
        exact .inl rfl
      | loadFailed =>
        cases hstep
        exact .inl rfl
      | changeFailed =>
        cases hstep
        exact .inr ⟨_, rfl⟩
      | commitFailed =>
        cases hstep
        exact .inr ⟨_, rfl⟩
      | commitLost =>
        cases hstep
        exact .inr ⟨_, rfl⟩
      | ok =>
        cases hstep
        exact .inr ⟨_, rfl⟩
  | start => cases hstep
  | send now changedAt => cases hstep
  | lookAhead now changedAt shouldNotify => cases hstep
  | persistIds changedAt => cases hstep

theorem early_setTask {m : Monitor} {k k' : TaskId} {task : Option Task}
    (htask : task.any (·.pc.early) = false) (h : m.early k' = false)
    : (m.setTask k task).early k' = false := by
  by_cases hk : k' = k
  . subst hk
    rw [early, setTask]
    dsimp only
    rw [Function.update_self, htask]
  . exact (early_of_tasks (Function.update_of_ne hk _ _)).trans h

end Monitor

namespace Notices

open Monitor

structure SentLate (s : Notices) : Prop where
  wf : Wf s.monitor
  sent : ∀ x ∈ s.sent, s.monitor.early x.task = false ∧ x.task < s.monitor.nextTask

variable {cfg : Settings} {s s' : Notices}

theorem SentLate.ne (h : SentLate s) {k : TaskId} (hearly : s.monitor.early k = true)
    : ∀ x ∈ s.sent, x.task ≠ k := by
  rintro x hx rfl
  have hlate := (h.sent x hx).1
  rw [hearly] at hlate
  cases hlate

theorem SentLate.of_early (h : SentLate s) (hwf : Wf s'.monitor)
    (hearly : ∀ k, s'.monitor.early k = true → s.monitor.early k = true ∨ s.monitor.nextTask ≤ k)
    (hnext : s.monitor.nextTask ≤ s'.monitor.nextTask) (hsent : s'.sent = s.sent) : SentLate s' where
  wf := hwf
  sent x hx := by
    rw [hsent] at hx
    rcases h.sent x hx with ⟨hlate, hlt⟩
    refine ⟨?_, Nat.lt_of_lt_of_le hlt hnext⟩
    rw [← Bool.not_eq_true]
    intro hearly'
    rcases hearly _ hearly' with htrue | hnew
    . rw [hlate] at htrue
      cases htrue
    . exact Nat.not_lt.mpr hnew hlt

theorem SentLate.same (h : SentLate s) (hwf : Wf s'.monitor) (hmonitor : SameAttempts s.monitor s'.monitor)
    (hsent : s'.sent = s.sent) : SentLate s' :=
  h.of_early hwf hmonitor.early hmonitor.nextTask hsent

theorem SentLate.ended (h : SentLate s) (hwf : Wf s'.monitor)
    (hearly : ∀ k, s.monitor.early k = false → s'.monitor.early k = false)
    (hnext : s'.monitor.nextTask = s.monitor.nextTask) (hsent : s'.sent = s.sent) : SentLate s' := by
  apply h.of_early hwf ?_ (Nat.le_of_eq hnext.symm) hsent
  intro k hearly'
  left
  rw [← Bool.not_eq_false]
  intro hlate
  rw [hearly k hlate] at hearly'
  cases hearly'

theorem SentLate.stateUpdated (h : SentLate s) {k : TaskId} {outcome : StateUpdate}
    (hstep : s.monitor.step cfg (.handler k (.stateUpdated outcome)) = some s'.monitor)
    (hsent : s'.sent = s.sent) : SentLate s' := by
  rcases step_stateUpdated hstep with ⟨task, ref, origDt, now, hread⟩
  apply h.of_early (wf_step h.wf hstep) ?_ ?_ hsent
  . intro k' hearly
    left
    by_cases hk : k' = k
    . simp [hk, early, hread.found, hread.pc, TaskPc.early]
    . rwa [early_of_tasks (hread.tasks_ne _ hk)] at hearly
  . rw [hread.rest]

theorem SentLate.delivered (h : SentLate s) {k : TaskId} {id : MessageId}
    (hstep : s.delivered k id = some s') : SentLate s' := by
  rcases Option.bind_eq_some_iff.mp hstep with ⟨task, hk, hstep⟩
  rcases Option.bind_eq_some_iff.mp hstep with ⟨x, _, hstep⟩
  split at hstep
  . next hpc =>
    rcases Option.bind_eq_some_iff.mp hstep with ⟨chat, _, hstep⟩
    split at hstep
    . cases hstep
      refine { wf := h.wf, sent := ?_ }
      intro message hmessage
      rcases List.mem_cons.mp hmessage with rfl | hmessage
      . refine ⟨?_, h.wf.task ?_⟩
        . simp [early, hk, hpc, TaskPc.early]
        . rw [hk]
          exact Option.some_ne_none task
      . exact h.sent message hmessage
    . cases hstep
  . cases hstep

theorem SentLate.cutOff (h : SentLate s) (k : TaskId) (hwf : Wf (s.monitor.setTask k none))
    : SentLate (s.cutOff k (s.monitor.setTask k none)) := by
  have hlate (k' : TaskId) (hlate : s.monitor.early k' = false)
      : (s.monitor.setTask k none).early k' = false := early_setTask rfl hlate
  unfold Notices.cutOff
  split
  . split
    . exact h.ended hwf hlate rfl rfl
    . exact h.ended hwf hlate rfl rfl
  . exact h.ended hwf hlate rfl rfl

theorem SentLate.goOn (h : SentLate s) {k : TaskId} {x : Sending} (hstep : s.goOn cfg k x = some s')
    : SentLate s' := by
  unfold Notices.goOn at hstep
  dsimp only at hstep
  split at hstep
  . rcases Option.bind_eq_some_iff.mp hstep with ⟨m, hm, hs'⟩
    cases hs'
    have hwf := wf_step h.wf hm
    rcases step_sent hm with ⟨_, _, _, _, _, _, _, rfl⟩
    exact h.ended hwf (fun k' hlate => early_setTask rfl hlate) rfl rfl
  . cases hstep
    exact h.same h.wf (.refl _) rfl

theorem SentLate.restarted (h : SentLate s) (val : Option (Option Int)) (jobs : List EditJob)
    : SentLate { s with monitor := s.monitor.restarted val, jobs := jobs } := by
  have hrestart := restart_restarted s.monitor val
  refine h.of_early (h.wf.of_restart hrestart) ?_ hrestart.nextTask rfl
  intro k hearly
  right
  cases hk : (s.monitor.restarted val).tasks k with
  | none =>
    rw [early_of_gone hk] at hearly
    cases hearly
  | some task => exact (hrestart.tasks hk).1

theorem SentLate.monitorStepped (h : SentLate s) {e : Event} {m : Monitor} (he : e.plain = true)
    (hstep : s.monitor.step cfg e = some m) : SentLate (s.monitorStepped e m) := by
  have hwf := wf_step h.wf hstep
  unfold Notices.monitorStepped
  split
  . next k =>
    rcases step_handlerTimedOut hstep with ⟨_, _, _, _, _, _, rfl⟩
    exact h.cutOff k hwf
  . next val =>
    cases hstep
    exact h.restarted val []
  . next htimedOut hrestarted => exact h.same hwf (sameAttempts_step h.wf he htimedOut hrestarted hstep) rfl

theorem SentLate.sendEnded (h : SentLate s) {k : TaskId} {outcome : SendOutcome}
    (hstep : s.sendEnded cfg k outcome = some s') : SentLate s' := by
  rcases Option.bind_eq_some_iff.mp hstep with ⟨task, _, hstep⟩
  rcases Option.bind_eq_some_iff.mp hstep with ⟨x, _, hstep⟩
  dsimp only at hstep
  split at hstep
  . split at hstep
    . exact h.goOn hstep
    . cases hstep
  . cases hstep
    exact h.same h.wf (.refl _) rfl
  . exact h.goOn hstep
  . split at hstep
    . exact h.goOn hstep
    . cases hstep
  . exact h.goOn hstep
  . cases hstep

theorem SentLate.userDeactivated (h : SentLate s) {k : TaskId} {ok : Bool}
    (hstep : s.userDeactivated cfg k ok = some s') : SentLate s' := by
  rcases Option.bind_eq_some_iff.mp hstep with ⟨a, _, hstep⟩
  rcases Option.bind_eq_some_iff.mp hstep with ⟨x, _, hstep⟩
  split at hstep
  . split at hstep
    . exact h.goOn hstep
    . rcases Option.bind_eq_some_iff.mp hstep with ⟨m, hm, hs'⟩
      cases hs'
      have hwf := wf_step h.wf hm
      rw [step_sendRaised hm] at hwf ⊢
      exact h.cutOff k hwf
  . cases hstep

theorem sentLate_step {zones : Zones} {e : NoticeEvent} (h : SentLate s)
    (hstep : s.step cfg zones e = some s') : SentLate s' := by
  have hquiet (he : e.quiet = true) : SentLate s' := by
    have hquiet := quiet_step he hstep
    apply h.same
    . rw [hquiet.monitor]
      exact h.wf
    . rw [hquiet.monitor]
      exact .refl _
    . exact hquiet.sent
  cases e with
  | monitor e =>
    unfold Notices.step at hstep
    dsimp only at hstep
    split at hstep
    . next he =>
      rcases Option.map_eq_some_iff.mp hstep with ⟨m, hm, rfl⟩
      exact h.monitorStepped he hm
    . cases hstep
  | stateUpdated k outcome =>
    rcases Option.bind_eq_some_iff.mp hstep with ⟨task, _, hstep⟩
    split at hstep
    . rcases Option.bind_eq_some_iff.mp hstep with ⟨m, hm, hs'⟩
      cases hs'
      exact h.stateUpdated hm rfl
    . cases hstep
  | scheduleFetched k next =>
    rcases Option.bind_eq_some_iff.mp hstep with ⟨task, _, hstep⟩
    rcases Option.bind_eq_some_iff.mp hstep with ⟨x, _, hstep⟩
    rcases Option.bind_eq_some_iff.mp hstep with ⟨m, hm, hstep⟩
    have hfetched : SentLate { s with monitor := m } :=
      h.same (wf_step h.wf hm) (sameAttempts_handler (.inr (.inl rfl)) hm) rfl
    exact hfetched.goOn hstep
  | delivered k id => exact h.delivered hstep
  | sendEnded k outcome => exact h.sendEnded hstep
  | userDeactivated k ok => exact h.userDeactivated hstep
  | idsCommitted k => exact hquiet rfl
  | settingsChanged tid ns cc => exact hquiet rfl
  | scheduleChanged next => exact hquiet rfl
  | usersLoaded j tids => exact hquiet rfl
  | loadFailed j => exact hquiet rfl
  | composed j => exact hquiet rfl
  | editEnded j outcome => exact hquiet rfl

theorem sentLate_initial (now : Time) (rows : AList (fun _ : TelegramId => UserPowerStateRow))
    (tracking : TelegramId → Option PowerTracking) (val : Option (Option Int))
    (ns : TelegramId → Option NotificationSettings) (cc : TelegramId → Option ChannelConfig)
    (ids : TelegramId → MessageIds) : SentLate (Notices.initial now rows tracking val ns cc ids) where
  wf := Monitor.wf_initial now rows tracking val
  sent := nofun

end Notices
end PowerMonitor
