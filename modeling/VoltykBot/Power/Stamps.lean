import VoltykBot.Power.Notices
import VoltykBot.Power.Recorded

/-!
This module contains what the steps of the monitor do to the attempts of the handlers that are to notify, and
to the stamps in their dicts.
-/

namespace PowerMonitor

def TaskPc.early (pc : TaskPc) : Bool :=
  match pc with
  | .handling _ _ (.send _ _) => false
  | .handling _ _ (.persistIds _) => false
  | _ => true

namespace Monitor

def early (m : Monitor) (k : TaskId) : Bool :=
  (m.tasks k).any (·.pc.early)

def stamp (m : Monitor) (ref : Ref) : Option Time :=
  (m.heap ref).lastNotificationAt.bind IsoText.fromisoformat

structure SameAttempts (m m' : Monitor) : Prop where
  attempt : ∀ k, m'.attempt k = m.attempt k
  early : ∀ k, m'.early k = true → m.early k = true ∨ m.nextTask ≤ k
  stamp : ∀ ref < m.nextRef, m'.stamp ref = m.stamp ref
  owner : ∀ ref < m.nextRef, m'.owner ref = m.owner ref
  nextRef : m.nextRef ≤ m'.nextRef
  nextTask : m.nextTask ≤ m'.nextTask

theorem attempt_of_tasks {m m' : Monitor} {k : TaskId} (h : m'.tasks k = m.tasks k)
    : m'.attempt k = m.attempt k := by
  unfold attempt
  rw [h]

theorem early_of_tasks {m m' : Monitor} {k : TaskId} (h : m'.tasks k = m.tasks k)
    : m'.early k = m.early k := by
  unfold early
  rw [h]

theorem attempt_of_gone {m : Monitor} {k : TaskId} (h : m.tasks k = none) : m.attempt k = none := by
  unfold attempt
  rw [h]
  rfl

theorem early_of_gone {m : Monitor} {k : TaskId} (h : m.tasks k = none) : m.early k = false := by
  unfold early
  rw [h]
  rfl

theorem attempt_of_unconfirmed {m : Monitor} {k : TaskId} {task : Task} (hk : m.tasks k = some task)
    (hpc : task.pc.unconfirmed = true) : m.attempt k = none := by
  unfold attempt Task.attempt
  rw [hk, Option.bind_some]
  unfold TaskPc.unconfirmed at hpc
  split
  . next hhandling =>
    rw [hhandling] at hpc
    cases hpc
  . next hhandling =>
    rw [hhandling] at hpc
    cases hpc
  . rfl

theorem attempt_of_stored {m : Monitor} {k : TaskId} {ref : Ref} (hwf : Wf m)
    (hk : (m.heap ref).debounceTask = some k) : m.attempt k = none := by
  cases htask : m.tasks k with
  | none => exact attempt_of_gone htask
  | some task => exact attempt_of_unconfirmed htask (hwf.stored hk htask).unconfirmed

theorem SameAttempts.of_tasks {m m' : Monitor} (hrest : m' = { m with
      tasks := m'.tasks, heap := m'.heap, userStates := m'.userStates, dirtyStates := m'.dirtyStates
      cycle := m'.cycle, groups := m'.groups, nextCall := m'.nextCall, flushes := m'.flushes
      userPowerStates := m'.userPowerStates, powerTracking := m'.powerTracking
      powerHistory := m'.powerHistory, log := m'.log, now := m'.now })
    (hheap : ∀ ref, (m'.heap ref).lastNotificationAt = (m.heap ref).lastNotificationAt)
    (htasks : ∀ k, m'.tasks k = m.tasks k ∨
      m.attempt k = none ∧ m'.attempt k = none ∧ (m'.early k = true → m.early k = true))
    : SameAttempts m m' where
  attempt k := by
    rcases htasks k with hsame | ⟨hnone, hnone', _⟩
    . exact attempt_of_tasks hsame
    . rw [hnone, hnone']
  early k hearly := by
    left
    rcases htasks k with hsame | ⟨_, _, himp⟩
    . rwa [early_of_tasks hsame] at hearly
    . exact himp hearly
  stamp ref _ := by
    unfold Monitor.stamp
    rw [hheap]
  owner ref _ := by rw [hrest]
  nextRef := by rw [hrest]
  nextTask := by rw [hrest]

theorem SameAttempts.refl (m : Monitor) : SameAttempts m m :=
  .of_tasks rfl (fun _ => rfl) fun _ => .inl rfl

theorem SameAttempts.of_rest {m m' : Monitor} (hrest : m' = { m with
      userStates := m'.userStates, dirtyStates := m'.dirtyStates
      cycle := m'.cycle, groups := m'.groups, nextCall := m'.nextCall, flushes := m'.flushes
      userPowerStates := m'.userPowerStates, powerTracking := m'.powerTracking
      powerHistory := m'.powerHistory, log := m'.log, now := m'.now }) : SameAttempts m m' := by
  apply SameAttempts.of_tasks
  . rw [hrest]
  . intro ref
    rw [hrest]
  . intro k
    rw [hrest]
    exact .inl rfl

theorem SameAttempts.trans {m m₁ m' : Monitor} (h : SameAttempts m m₁) (h' : SameAttempts m₁ m')
    : SameAttempts m m' where
  attempt k := (h'.attempt k).trans (h.attempt k)
  early k hearly := by
    rcases h'.early k hearly with hearly₁ | hnew
    . exact h.early k hearly₁
    . exact .inr (Nat.le_trans h.nextTask hnew)
  stamp ref href := (h'.stamp ref (Nat.lt_of_lt_of_le href h.nextRef)).trans (h.stamp ref href)
  owner ref href := (h'.owner ref (Nat.lt_of_lt_of_le href h.nextRef)).trans (h.owner ref href)
  nextRef := Nat.le_trans h.nextRef h'.nextRef
  nextTask := Nat.le_trans h.nextTask h'.nextTask

theorem sameAttempts_evicted {m m' : Monitor} {tids : List TelegramId} (hwf : Wf m)
    (h : Evicted m m' tids) : SameAttempts m m' := by
  apply SameAttempts.of_tasks
  . rw [h.rest]
  . intro ref
    rw [h.rest]
  . intro k
    by_cases hheld : ∀ tid ∈ tids, ∀ ref, m.userStates.lookup tid = some ref →
        (m.heap ref).debounceTask ≠ some k
    . exact .inl (h.kept_of hheld)
    . simp only [not_forall, Classical.not_not] at hheld
      rcases hheld with ⟨tid, htid, ref, href, hk⟩
      have hgone := h.gone htid href hk
      right
      refine ⟨attempt_of_stored hwf hk, attempt_of_gone hgone, ?_⟩
      rw [early_of_gone hgone]
      exact fun hearly => nomatch hearly

theorem SameAttempts.setCycle {m m' : Monitor} (h : SameAttempts m m') (cycle : CyclePc)
    (groups : List Group) : SameAttempts m { m' with cycle := cycle, groups := groups } :=
  h.trans (.of_rest rfl)

theorem lastNotificationAt_modify {m : Monitor} {ref : Ref} {f : UserState → UserState}
    (hf : ∀ st, (f st).lastNotificationAt = st.lastNotificationAt) (r : Ref)
    : ((m.modify ref f).heap r).lastNotificationAt = (m.heap r).lastNotificationAt :=
  heap_modify_keeps UserState.lastNotificationAt hf r

theorem lastNotificationAt_cancelDebounceTask (m : Monitor) (ref r : Ref)
    : ((m.cancelDebounceTask ref).heap r).lastNotificationAt = (m.heap r).lastNotificationAt := by
  unfold cancelDebounceTask
  split
  . split
    . rfl
    . apply lastNotificationAt_modify
      intro st
      rfl
  . rfl

theorem lastNotificationAt_applyVerdict (m : Monitor) (tid : TelegramId) (ref : Ref)
    (newState : PowerState) (verdict : Verdict) (r : Ref)
    : ((m.applyVerdict tid ref newState verdict).1.heap r).lastNotificationAt =
        (m.heap r).lastNotificationAt := by
  cases verdict with
  | seedFromDb state changedAt =>
    dsimp only [applyVerdict]
    apply lastNotificationAt_modify
    intro st
    rfl
  | seedFromReading =>
    dsimp only [applyVerdict]
    apply lastNotificationAt_modify
    intro st
    rfl
  | unchanged =>
    dsimp only [applyVerdict]
    apply lastNotificationAt_modify
    intro st
    rfl
  | flapping =>
    dsimp only [applyVerdict, markDirty]
    rw [lastNotificationAt_modify, lastNotificationAt_cancelDebounceTask, lastNotificationAt_modify]
    . intro st
      rfl
    . intro st
      rfl
  | alreadyPending => rfl
  | newPending =>
    dsimp only [applyVerdict, markDirty]
    rw [lastNotificationAt_modify, lastNotificationAt_modify, lastNotificationAt_cancelDebounceTask]
    . intro st
      split <;> rfl
    . intro st
      rfl

theorem cancelDebounceTask_eq (m : Monitor) (ref : Ref)
    : m.cancelDebounceTask ref = { m with
        heap := (m.cancelDebounceTask ref).heap, tasks := (m.cancelDebounceTask ref).tasks } := by
  unfold cancelDebounceTask
  split
  . split <;> rfl
  . rfl

theorem applyVerdict_eq (m : Monitor) (tid : TelegramId) (ref : Ref) (newState : PowerState)
    (verdict : Verdict)
    : (m.applyVerdict tid ref newState verdict).1 = { m with
        heap := (m.applyVerdict tid ref newState verdict).1.heap
        tasks := (m.applyVerdict tid ref newState verdict).1.tasks
        dirtyStates := (m.applyVerdict tid ref newState verdict).1.dirtyStates } := by
  cases verdict with
  | seedFromDb state changedAt => rfl
  | seedFromReading => rfl
  | unchanged => rfl
  | flapping =>
    dsimp only [applyVerdict, markDirty]
    rw [modify, cancelDebounceTask_eq]
    rfl
  | alreadyPending => rfl
  | newPending =>
    dsimp only [applyVerdict, markDirty]
    rw [modify, modify, cancelDebounceTask_eq]

theorem sameAttempts_entered {m m' : Monitor} {tid : TelegramId} {ref : Ref}
    (h : Entered m m' tid ref) : SameAttempts m m' := by
  rcases h.cases with rfl | ⟨_, _, rfl⟩
  . exact .refl _
  . constructor
    . intro k
      rfl
    . intro k hearly
      exact .inl hearly
    . intro r hr
      exact congrArg (fun st => st.lastNotificationAt.bind IsoText.fromisoformat)
        (heap_createEntry tid {} hr)
    . intro r hr
      exact @owner_createEntry m tid {} r hr
    . exact Nat.le_succ _
    . exact Nat.le_refl _

theorem SameAttempts.of_judged {m m' : Monitor} {ref : Ref} (hwf : Wf m) (h : Judged m m' ref)
    (hrest : m' = { m with
      heap := m'.heap, tasks := m'.tasks, dirtyStates := m'.dirtyStates, log := m'.log })
    (hstamp : ∀ r, (m'.heap r).lastNotificationAt = (m.heap r).lastNotificationAt)
    : SameAttempts m m' := by
  apply SameAttempts.of_tasks
  . rw [hrest]
  . exact hstamp
  . intro k
    rcases h.tasks k with hsame | ⟨hk, hnone⟩
    . exact .inl hsame
    . right
      refine ⟨attempt_of_stored hwf hk, attempt_of_gone hnone, ?_⟩
      rw [early_of_gone hnone]
      exact fun hearly => nomatch hearly

theorem sameAttempts_observed {m m' : Monitor} {i : Nat} (hwf : Wf m)
    (h : m.stepCall i observeCall = some m') : SameAttempts m m' := by
  rcases stepCall_eq_some h with ⟨g, call, m₂, pc, _, _, hf, rfl⟩
  unfold observeCall at hf
  split at hf
  . next isAvailable _ =>
    have hentered := entered_getUserState m call.user.telegramId
    have hjudged := judged_observe m call isAvailable
    refine SameAttempts.trans ((sameAttempts_entered hentered).trans ?_)
      (.of_rest (m := m₂) rfl)
    have heq : m₂ = (m.observe call isAvailable).1 := by rw [Option.some.inj hf]
    rw [heq]
    apply SameAttempts.of_judged (hwf.of_entered hentered) hjudged
    . dsimp only [observe]
      rw [applyVerdict_eq]
      rfl
    . intro r
      dsimp only [observe]
      rw [lastNotificationAt_applyVerdict]
      dsimp only [Monitor.record, markDirty]
      apply lastNotificationAt_modify
      intro st
      rfl
  . cases hf

theorem sameAttempts_setTask {m : Monitor} {k : TaskId} {task : Option Task}
    (h : task.bind Task.attempt = m.attempt k)
    (hearly : task.any (·.pc.early) = true → m.early k = true) : SameAttempts m (m.setTask k task) where
  attempt k' := by
    by_cases hk : k' = k
    . subst hk
      unfold attempt setTask at *
      dsimp only
      rw [Function.update_self, h]
    . exact attempt_of_tasks (Function.update_of_ne hk _ _)
  early k' hearly' := by
    left
    by_cases hk : k' = k
    . subst hk
      unfold early setTask at *
      dsimp only at hearly'
      rw [Function.update_self] at hearly'
      exact hearly hearly'
    . rwa [early_of_tasks (Function.update_of_ne hk _ _)] at hearly'
  stamp _ _ := rfl
  owner _ _ := rfl
  nextRef := Nat.le_refl _
  nextTask := Nat.le_refl _

theorem sameAttempts_moveTask {m : Monitor} {k : TaskId} {task task' : Task}
    (hk : m.tasks k = some task) (h : task'.attempt = task.attempt)
    (hearly : task'.pc.early = true → task.pc.early = true)
    : SameAttempts m (m.setTask k (some task')) := by
  apply sameAttempts_setTask
  . unfold attempt
    rw [hk, Option.bind_some, Option.bind_some, h]
  . unfold early
    rw [hk]
    exact hearly

theorem sameAttempts_dropTask {m : Monitor} {k : TaskId} (h : m.attempt k = none)
    : SameAttempts m (m.setTask k none) :=
  sameAttempts_setTask h.symm (fun hearly => nomatch hearly)

theorem sameAttempts_taskStored {m m' : Monitor} {i : Nat} {call : Call} {ref : Ref}
    {newState : PowerState} {oldState : Option PowerState} {debounceS : Int} (hwf : Wf m)
    (h : TaskStored m m' i call ref newState oldState debounceS) : SameAttempts m m' := by
  have hfresh : m.tasks m.nextTask = none := by
    by_contra hsome
    exact Nat.lt_irrefl _ (hwf.task hsome)
  constructor
  . intro k
    by_cases hk : k = m.nextTask
    . subst hk
      rw [attempt_of_gone hfresh]
      exact attempt_of_unconfirmed h.tasks_self rfl
    . exact attempt_of_tasks (h.tasks_ne hk)
  . intro k hearly
    by_cases hk : k = m.nextTask
    . exact .inr (Nat.le_of_eq hk.symm)
    . rw [early_of_tasks (h.tasks_ne hk)] at hearly
      exact .inl hearly
  . intro r _
    unfold stamp
    by_cases hr : r = ref
    . rw [hr, h.heap_self]
    . rw [h.heap_ne hr]
  . intro r _
    rw [h.rest]
  . rw [h.rest]
  . rw [h.rest]
    exact Nat.le_succ _

theorem sameAttempts_confirmed {m : Monitor} {k : TaskId} {task : Task} (hk : m.tasks k = some task)
    (hpc : task.pc = .lock) : SameAttempts m (m.confirm k task.kind) := by
  have hnone : m.attempt k = none := attempt_of_unconfirmed hk (by rw [hpc]; rfl)
  have hearly : m.early k = true := by
    unfold early
    rw [hk, Option.any_some, hpc]
    rfl
  have hentry (tid : TelegramId) (ref : Ref) (newState : PowerState) (entry : LogEntry)
      : SameAttempts m ((m.confirmEntry tid ref newState).record entry) := by
    apply SameAttempts.of_tasks
    . rfl
    . intro r
      unfold confirmEntry
      dsimp only [Monitor.record, markDirty]
      apply lastNotificationAt_modify
      intro st
      rfl
    . intro k'
      exact .inl rfl
  unfold confirm
  cases task.kind with
  | confirmState call tid ref newState oldState =>
    dsimp only
    refine (hentry tid ref newState _).trans (sameAttempts_setTask ?_ ?_)
    . exact hnone.symm
    . exact fun _ => hearly
  | confirmRestored tid newState oldState origDt =>
    dsimp only
    split
    . next ref _ =>
      split
      . refine (hentry tid ref newState _).trans (sameAttempts_setTask ?_ ?_)
        . exact hnone.symm
        . exact fun _ => hearly
      . exact sameAttempts_dropTask hnone
    . exact sameAttempts_dropTask hnone

theorem sameAttempts_handler {cfg : Settings} {m m' : Monitor} {k : TaskId} {e : HandlerEvent}
    (he : e = .start ∨ e = .scheduleFetched ∨ e = .idsPersisted)
    (h : m.step cfg (.handler k e) = some m') : SameAttempts m m' := by
  rcases step_handler h with ⟨task, ref, origDt, pc, m₁, pc', hk, hpc, hstep, rfl⟩
  unfold stepHandler at hstep
  split at hstep
  . cases hstep
    apply sameAttempts_moveTask hk
    . simp [Task.attempt, hpc]
    . rw [hpc]
      exact fun _ => rfl
  . simp at he
  . next shouldNotify =>
    cases hstep
    apply sameAttempts_moveTask hk
    . cases shouldNotify with
      | true => simp [Task.attempt, hpc]
      | false => simp [Task.attempt, hpc]
    . rw [hpc]
      exact fun _ => rfl
  . simp at he
  . simp at he
  . cases hstep
    have hstable (changedAt : Time)
        : SameAttempts m (m.stableStateUpdated task.kind.telegramId ref task.kind.newState changedAt) := by
      apply SameAttempts.of_tasks
      . rfl
      . intro r
        dsimp only [stableStateUpdated, markDirty]
        apply lastNotificationAt_modify
        intro st
        rfl
      . intro k'
        exact .inl rfl
    refine (hstable _).trans (sameAttempts_dropTask ?_)
    rw [(hstable _).attempt]
    simp [attempt, hk, Task.attempt, hpc]
  . cases hstep

theorem sameAttempts_sessionDone {m m' : Monitor} {i : Nat} {ok : Bool}
    (h : m.stepCall i (fun m call => m.sessionDone call ok) = some m') : SameAttempts m m' := by
  rcases stepCall_eq_some h with ⟨g, call, m₁, pc, _, _, hf, rfl⟩
  unfold sessionDone at hf
  split at hf
  . cases hf
    exact .of_rest (by cases ok <;> rfl)
  . cases hf
    exact .of_rest (by cases ok <;> rfl)
  . cases hf
    exact .of_rest (by cases ok <;> rfl)
  . cases hf

theorem sameAttempts_debounceRead {cfg : Settings} {m m' : Monitor} {i : Nat}
    {val : Option (Option Int)} (h : m.stepCall i (fun m call => m.debounceRead cfg call val) = some m')
    : SameAttempts m m' := by
  rcases stepCall_eq_some h with ⟨g, call, m₁, pc, _, _, hf, rfl⟩
  unfold debounceRead at hf
  split at hf
  . cases hf
    exact .of_rest rfl
  . cases hf

theorem sameAttempts_step {cfg : Settings} {m m' : Monitor} {e : Event} (hwf : Wf m)
    (he : e.plain = true) (htimedOut : ∀ k, e ≠ .handlerTimedOut k)
    (hrestarted : ∀ val, e ≠ .restarted val) (h : m.step cfg e = some m') : SameAttempts m m' := by
  cases e with
  | tick _ | cycleStarted | batchLoaded _ | loadFailed | pinged _ _ | pingRaised _ | callStarted _
  | cycleEnded | cycleCancelled =>
    rcases step_inCycle rfl h with ⟨_, _, _, _, rfl⟩
    exact .of_rest rfl
  | inactiveEvicted =>
    rcases stepCycle_inactiveEvicted h with ⟨users, _, rfl⟩
    exact (sameAttempts_evicted hwf (evicted_evict m _)).setCycle _ (m.evictInactive users).groups
  | staleEvicted =>
    rcases stepCycle_staleEvicted h with ⟨users, _, rfl⟩
    exact (sameAttempts_evicted hwf (evicted_evict m _)).setCycle _ _
  | observed i => exact sameAttempts_observed hwf h
  | sessionDone i ok => exact sameAttempts_sessionDone h
  | debounceRead i val => exact sameAttempts_debounceRead h
  | taskStored i =>
    rcases step_taskStored h with ⟨_, _, _, _, _, _, _, hstored⟩
    exact sameAttempts_taskStored hwf hstored
  | woken k =>
    rcases step_woken h with ⟨task, wakeAt, hk, hpc, _, rfl⟩
    apply sameAttempts_moveTask hk
    . simp [Task.attempt, hpc]
    . rw [hpc]
      exact fun _ => rfl
  | confirmed k =>
    rcases step_confirmed h with ⟨task, hk, hpc, rfl⟩
    exact sameAttempts_confirmed hk hpc
  | userReloaded k found =>
    rcases step_userReloaded h with ⟨task, ref, _, _, _, origDt, hk, hpc, _, rfl⟩
    cases found with
    | true =>
      apply sameAttempts_moveTask hk
      . simp [Task.attempt, hpc]
      . rw [hpc]
        exact fun _ => rfl
    | false =>
      apply sameAttempts_dropTask
      simp [attempt, hk, Task.attempt, hpc]
  | handler k e =>
    cases e with
    | start => exact sameAttempts_handler (.inl rfl) h
    | idsPersisted => exact sameAttempts_handler (.inr (.inr rfl)) h
    | stateUpdated outcome => cases he
    | scheduleFetched => cases he
    | sent => cases he
    | sendRaised => cases he
  | handlerTimedOut k => exact absurd rfl (htimedOut k)
  | flushStarted | flushCommitted _ _ | flushCleared _ | flushAborted _ =>
    rcases step_inFlush rfl h with ⟨_, _, _, rfl⟩
    exact .of_rest rfl
  | restarted val => exact absurd rfl (hrestarted val)

theorem attempt_initial (now : Time) (rows : AList (fun _ : TelegramId => UserPowerStateRow))
    (tracking : TelegramId → Option PowerTracking) (val : Option (Option Int)) (k : TaskId)
    : (initial now rows tracking val).attempt k = none := by
  cases hk : (initial now rows tracking val).tasks k with
  | none => exact attempt_of_gone hk
  | some task =>
    rcases ((restart_restarted _ val).tasks hk).2.2 with ⟨_, ref, _, hstored, _⟩
    exact attempt_of_stored (wf_initial now rows tracking val) hstored

end Monitor
end PowerMonitor
