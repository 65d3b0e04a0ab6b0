import VoltykBot.Power.Restart

/-!
This module contains when a pending state is confirmed if the process restarts before: the task that
`_restart_pending_debounce_tasks` creates, against the one of `_check_user_power`.
-/

namespace PowerMonitor
namespace Monitor

def debounceTaskOf (m : Monitor) (tid : TelegramId) : Option Task := do
  let ref ← m.userStates.lookup tid
  let k ← (m.heap ref).debounceTask
  m.tasks k

def restoredTask (debounceS : Int) (now : Time) (tid : TelegramId) (st : UserState) (newState : PowerState)
    : Task where
  kind := .confirmRestored tid newState st.currentState (st.originalChangeTime.or st.pendingStateTime)
  pc := .sleeping (now + remainingTime debounceS st.pendingStateTime now)

theorem restartPendingDebounceTask_eq {debounceS : Int} {m : Monitor} {item : TelegramId × Ref}
    {newState : PowerState} (hpending : (m.heap item.2).pendingState = some newState)
    (hnone : (m.heap item.2).debounceTask = none)
    : restartPendingDebounceTask debounceS m item
        =
      m.createDebounceTask item.2 (restoredTask debounceS m.now item.1 (m.heap item.2) newState) := by
  unfold restartPendingDebounceTask
  dsimp only
  rw [hpending, hnone]
  rfl

theorem tasks_foldl_restart (debounceS : Int) {items : List (TelegramId × Ref)} {m : Monitor}
    (hitems : (items.map (·.2)).Nodup) {item : TelegramId × Ref} (hitem : item ∈ items)
    {newState : PowerState} (hpending : (m.heap item.2).pendingState = some newState)
    (hnone : (m.heap item.2).debounceTask = none)
    : ∃ k, ((items.foldl (restartPendingDebounceTask debounceS) m).heap item.2).debounceTask = some k ∧
        (items.foldl (restartPendingDebounceTask debounceS) m).tasks k
          = some (restoredTask debounceS m.now item.1 (m.heap item.2) newState) := by
  induction items generalizing m with
  | nil => cases hitem
  | cons first items ih =>
    rw [List.map_cons, List.nodup_cons] at hitems
    rw [List.foldl_cons]
    have hfirst := restarting_restartPendingDebounceTask debounceS m first
    cases List.mem_cons.mp hitem with
    | inl heq =>
      -- what comes after the item neither touches its dict nor its task
      subst heq
      have hrest := restarting_foldl debounceS items (restartPendingDebounceTask debounceS m item) hitems.2
      have hne : ∀ item' ∈ items, item'.2 ≠ item.2 := fun item' hitem' heq =>
        hitems.1 (heq ▸ List.mem_map_of_mem hitem')
      rw [hrest.heap_ne hne]
      refine ⟨m.nextTask, ?_, ?_⟩
      . rw [restartPendingDebounceTask_eq hpending hnone]
        simp [createDebounceTask, modify, setTask]
      . rw [hrest.tasks_old]
        . rw [restartPendingDebounceTask_eq hpending hnone]
          simp [createDebounceTask, modify, setTask]
        . rw [restartPendingDebounceTask_eq hpending hnone]
          exact Nat.lt_succ_self m.nextTask
    | inr hmem =>
      have hheap : (restartPendingDebounceTask debounceS m first).heap item.2 = m.heap item.2 := by
        apply hfirst.heap_ne
        intro item' hitem' heq
        rw [List.mem_singleton.mp hitem'] at heq
        exact hitems.1 (heq ▸ List.mem_map_of_mem hmem)
      have hnow : (restartPendingDebounceTask debounceS m first).now = m.now := by
        rw [hfirst.rest]
      have hlast := ih hitems.2 hmem (hheap ▸ hpending) (hheap ▸ hnone)
      rw [hheap, hnow] at hlast
      exact hlast

theorem debounceTaskOf_restarted {m : Monitor} {val : Option (Option Int)} {tid : TelegramId}
    {row : UserPowerStateRow} (hrow : (tid, row) ∈ getRecentUserPowerStates m.userPowerStates m.now)
    {newState : PowerState} (hpending : row.fields.pendingState = some newState)
    : (m.restarted val).debounceTaskOf tid
        =
      some (restoredTask (fetchedDebounce val) m.now tid row.restored newState) := by
  unfold restarted restartPendingDebounceTasks
  dsimp only
  have hrestored := restored_restoreUserStates { m with
    userStates := ∅, dirtyStates := [], tasks := fun _ => none
    cycle := .idle, groups := [], flushes := [] } (getRecentUserPowerStates m.userPowerStates m.now)
  generalize restoreUserStates _ _ = m₁ at hrestored ⊢
  rcases hrestored.found (nodup_getRecentUserPowerStates _ _) hrow with ⟨ref, href, hheap⟩
  have hitems : (m₁.items.map (·.2)).Nodup := hrestored.nodup_refs rfl
  have hnow : m₁.now = m.now := by rw [hrestored.rest]
  have hpending₁ : (m₁.heap ref).pendingState = some newState := by
    rw [hheap]
    exact hpending
  have hnone₁ : (m₁.heap ref).debounceTask = none := by
    rw [hheap]
    rfl
  obtain ⟨k, hdebounce, htask⟩ := tasks_foldl_restart (fetchedDebounce val) hitems (mem_items.mpr href) hpending₁ hnone₁
  have hfold := restarting_foldl (fetchedDebounce val) m₁.items m₁ hitems
  have hstates : (m₁.items.foldl (restartPendingDebounceTask (fetchedDebounce val)) m₁).userStates
      = m₁.userStates := by
    rw [hfold.rest]
  unfold debounceTaskOf
  rw [hstates, href, Option.bind_eq_bind, Option.bind_some]
  change Option.bind (UserState.debounceTask _) _ = _
  rw [hdebounce, Option.bind_some, htask, hheap, hnow]

/--
The restored task of a state pending since `t` sleeps until the time the one of `_check_user_power` would have
confirmed the state, and confirms the same state with the same original time.
-/
def ConfirmsAsPlanned (cfg : Settings) (m : Monitor) (val : Option (Option Int)) (tid : TelegramId)
    (newState : PowerState) (t : Time) : Prop :=
  ∃ oldState, (m.restarted val).debounceTaskOf tid = some {
    kind := .confirmRestored tid newState oldState (some t)
    pc := .sleeping (max m.now (t + seconds (debounceDelay cfg val))) }

theorem add_max_sub (now t delay : Int) : now + max 0 (delay - (now - t)) = max now (t + delay) := by
  omega

theorem restoredTask_eq {debounceS : Int} {now t : Time} {tid : TelegramId} {row : UserPowerStateRow}
    {newState : PowerState} (htime : row.fields.pendingStateTime = some t)
    : restoredTask debounceS now tid row.restored newState
        =
      { kind := .confirmRestored tid newState row.fields.currentState (some t)
        pc := .sleeping (max now (t + seconds debounceS)) } := by
  unfold restoredTask UserPowerStateRow.restored remainingTime
  dsimp only
  rw [htime, Option.some_or]
  dsimp only
  rw [add_max_sub]

theorem fetchedDebounce_eq {d : Int} (hd : 0 ≤ d) : fetchedDebounce (some (some d)) = d * 60 := if_pos hd

theorem debounceDelay_eq {cfg : Settings} {d : Int} (hd : 0 ≤ d)
    : debounceDelay cfg (some (some d)) = if d = 0 then (cfg.powerMinStabilizationS : Int) else d * 60 := by
  unfold debounceDelay
  rw [fetchedDebounce_eq hd]
  by_cases hzero : d = 0
  . rw [if_pos hzero, hzero]
    rfl
  . have hne : d * 60 ≠ 0 := by omega
    rw [if_neg hzero, if_neg hne]

theorem max_eq_max_iff {now t delay : Int} (ht : t ≤ now) : max now t = max now (t + delay) ↔ t + delay ≤ now := by
  omega

theorem confirmsAsPlanned_iff (cfg : Settings) {m : Monitor} {tid : TelegramId} {row : UserPowerStateRow}
    {newState : PowerState} {t : Time} {d : Int}
    (hrow : (tid, row) ∈ getRecentUserPowerStates m.userPowerStates m.now)
    (hpending : row.fields.pendingState = some newState) (htime : row.fields.pendingStateTime = some t)
    (ht : t ≤ m.now) (hd : 0 ≤ d)
    : ConfirmsAsPlanned cfg m (some (some d)) tid newState t
        ↔
      0 < d ∨ t + seconds cfg.powerMinStabilizationS ≤ m.now := by
  unfold ConfirmsAsPlanned
  rw [debounceTaskOf_restarted hrow hpending, restoredTask_eq htime, fetchedDebounce_eq hd, debounceDelay_eq hd]
  by_cases hzero : d = 0
  . subst hzero
    rw [if_pos rfl]
    have hnever : ¬ (0 : Int) < 0 := Int.lt_irrefl 0
    have hnone : t + seconds (0 * 60) = t := Int.add_zero t
    rw [hnone, or_iff_right hnever, ← max_eq_max_iff ht]
    constructor
    . rintro ⟨oldState, htask⟩
      simpa using congrArg Task.pc (Option.some.inj htask)
    . intro hmax
      rw [hmax]
      exact ⟨row.fields.currentState, rfl⟩
  . rw [if_neg hzero]
    have hpos : 0 < d := lt_of_le_of_ne hd (Ne.symm hzero)
    exact iff_of_true ⟨row.fields.currentState, rfl⟩ (Or.inl hpos)

def tenSecondsPending : Monitor :=
  let row : UserPowerStateRow := {
    fields := {
      currentState := some .on
      pendingState := some .off
      pendingStateTime := some (seconds 1000)
      lastStableState := some .on
      lastStableAt := none
      instabilityStart := some (seconds 1000)
      switchCount := 1
      lastNotificationAt := none }
    updatedAt := seconds 1005 }
  { now := seconds 1010, userPowerStates := AList.singleton "777" row }

theorem confirmsAsPlanned_iff_tenSecondsPending
    : ConfirmsAsPlanned {} tenSecondsPending (some (some 5)) "777" .off (seconds 1000) := by
  have hrow : ("777", _) ∈ getRecentUserPowerStates tenSecondsPending.userPowerStates tenSecondsPending.now :=
    List.mem_singleton_self _
  exact (confirmsAsPlanned_iff {} hrow rfl rfl (by decide) (by decide)).mpr (Or.inl (by decide))

theorem not_confirmsAsPlanned_tenSecondsPending
    : ¬ ConfirmsAsPlanned {} tenSecondsPending (some (some 0)) "777" .off (seconds 1000) := by
  rintro ⟨oldState, htask⟩
  have hwake : (tenSecondsPending.restarted (some (some 0))).debounceTaskOf "777"
      = some {
        kind := .confirmRestored "777" .off (some .on) (some (seconds 1000))
        pc := .sleeping (seconds 1010) } := by
    decide
  rw [hwake] at htask
  cases htask

end Monitor
end PowerMonitor
