import VoltykBot.Power.Debounce

/-!
This module contains what a check cycle leaves of the users who are not on the list it loaded: their
entries of `_user_states`, and the debounce tasks of these.
-/

namespace PowerMonitor
namespace Monitor

/-! ## Who is checked, and who has an entry -/

theorem checkedIds_of_groups {m m' : Monitor} (h : m'.groups = m.groups)
    : m'.checkedIds = m.checkedIds := by
  rw [checkedIds, checkedIds, h]

theorem checkedIds_of_set {m m' : Monitor} {i : Nat} {g g' : Group} (hg : m.groups[i]? = some g)
    (hgroups : m'.groups = m.groups.set i g') (hsub : g'.telegramIds.Sublist g.telegramIds)
    : m'.checkedIds ⊆ m.checkedIds := by
  rw [checkedIds, hgroups]
  exact (sublist_flatMap_set hg hsub).subset

theorem checkedIds_of_stepCall {m m' : Monitor} {i : Nat}
    {f : Monitor → Call → Option (Monitor × Option CallPc)} (h : m.stepCall i f = some m')
    : m'.checkedIds ⊆ m.checkedIds := by
  obtain ⟨g, call, m₁, pc, hg, hcall, _, hm'⟩ := stepCall_eq_some h
  refine checkedIds_of_set hg (congrArg Monitor.groups hm') ?_
  unfold Group.telegramIds
  rw [hcall]
  cases pc with
  | none => exact List.sublist_append_right _ _
  | some pc => exact List.Sublist.refl _

theorem checkedIds_of_groups_nil {m : Monitor} (h : m.groups = []) : m.checkedIds = [] := by
  rw [checkedIds, h]
  rfl

theorem groups_confirmation {m m' : Monitor} {k : TaskId} {kind : TaskKind}
    (h : Confirmation m m' k kind) : m'.groups = m.groups := by
  cases h with
  | state _ confirmed _ => exact confirmed.groups
  | restored _ _ _ confirmed _ => exact confirmed.groups
  | dropped _ _ eq =>
    rw [eq]
    rfl

theorem mem_checkedIds_of_callAt {m : Monitor} {i : Nat} {call : Call} (h : m.callAt i = some call)
    : call.user.telegramId ∈ m.checkedIds := by
  obtain ⟨g, hg, hcall⟩ := Option.bind_eq_some_iff.mp h
  refine List.mem_flatMap.mpr ⟨g, List.mem_of_getElem? hg, ?_⟩
  simp [Group.telegramIds, hcall]

theorem checkedIds_step {cfg : Settings} {m m' : Monitor} {e : Event} (hwf : Wf m)
    (hstep : m.step cfg e = some m') {tid : TelegramId} (htid : tid ∈ m'.checkedIds)
    : tid ∈ m.checkedIds ∨
        ∃ users, m.cycle = .evictStale users ∧ e = .staleEvicted ∧ tid ∈ users.map (·.telegramId) := by
  cases e with
  | tick elapsed =>
    cases hstep
    exact .inl htid
  | cycleStarted =>
    obtain ⟨_, rfl⟩ := stepCycle_cycleStarted hstep
    exact .inl htid
  | batchLoaded batch =>
    obtain ⟨_, _, _, _, rfl⟩ := stepCycle_batchLoaded hstep
    exact .inl htid
  | loadFailed =>
    obtain ⟨_, _, _, rfl⟩ := stepCycle_loadFailed hstep
    exact .inl htid
  | inactiveEvicted =>
    obtain ⟨users, hcycle, rfl⟩ := stepCycle_inactiveEvicted hstep
    have hgroups : (m.evictInactive users).groups = [] :=
      groups_evict (groups_of_evictInactive hwf.idle hcycle)
    rw [checkedIds_of_groups_nil (by exact hgroups)] at htid
    cases htid
  | staleEvicted =>
    obtain ⟨users, hcycle, rfl⟩ := stepCycle_staleEvicted hstep
    exact .inr ⟨users, hcycle, rfl, (perm_ipGroups users).subset htid⟩
  | pinged i result =>
    rcases pinged_eq_some hstep with ⟨g, hg, _, rfl⟩
    exact .inl (checkedIds_of_set hg (by rfl) (by rfl) htid)
  | pingRaised i =>
    rcases pingRaised_eq_some hstep with ⟨g, hg, _, rfl⟩
    refine .inl (checkedIds_of_set hg (by rfl) ?_ htid)
    simp [Group.telegramIds]
  | callStarted i =>
    rcases startCall_eq_some hstep with ⟨g, u, users, hg, hcall, husers, ⟨call, hm'⟩ | hm'⟩
    . refine .inl (checkedIds_of_set hg (congrArg Monitor.groups hm') ?_ htid)
      simp [Group.telegramIds, hcall, husers]
    . refine .inl (checkedIds_of_set hg (congrArg Monitor.groups hm') ?_ htid)
      simp [Group.telegramIds, hcall, husers]
  | observed i => exact .inl (checkedIds_of_stepCall hstep htid)
  | sessionDone i ok =>
    exact .inl (checkedIds_of_stepCall (f := fun m call => m.sessionDone call ok) hstep htid)
  | debounceRead i val =>
    exact .inl (checkedIds_of_stepCall (f := fun m call => m.debounceRead cfg call val) hstep htid)
  | taskStored i => exact .inl (checkedIds_of_stepCall hstep htid)
  | cycleEnded =>
    obtain ⟨_, _, rfl⟩ := stepCycle_cycleEnded hstep
    cases htid
  | cycleCancelled =>
    obtain ⟨_, rfl⟩ := stepCycle_cycleCancelled hstep
    cases htid
  | woken k =>
    obtain ⟨_, _, _, _, _, rfl⟩ := step_woken hstep
    exact .inl htid
  | confirmed k =>
    obtain ⟨task, _, _, rfl⟩ := step_confirmed hstep
    rw [checkedIds_of_groups (groups_confirmation (confirmation_confirm m k task.kind))] at htid
    exact .inl htid
  | userReloaded k found =>
    rcases step_userReloaded hstep with ⟨_, _, _, _, _, _, _, _, _, rfl⟩
    exact .inl htid
  | handler k e =>
    rcases step_handler hstep with ⟨_, _, _, _, m₁, _, _, _, hhandler, rfl⟩
    have hgroups : m₁.groups = m.groups := by rw [stepHandler_eq hhandler]
    rw [checkedIds_of_groups (by exact hgroups)] at htid
    exact .inl htid
  | handlerTimedOut k =>
    rcases step_handlerTimedOut hstep with ⟨_, _, _, _, _, _, rfl⟩
    exact .inl htid
  | flushStarted | flushCommitted _ _ | flushCleared _ | flushAborted _ =>
    rcases step_inFlush rfl hstep with ⟨_, _, _, rfl⟩
    exact .inl htid
  | restarted val =>
    cases hstep
    rw [checkedIds_of_groups_nil (by rw [(restart_restarted m val).rest])] at htid
    cases htid

theorem userStates_confirmation {m m' : Monitor} {k : TaskId} {kind : TaskKind}
    (h : Confirmation m m' k kind) : m'.userStates = m.userStates := by
  cases h with
  | state _ confirmed _ => exact confirmed.userStates
  | restored _ _ _ confirmed _ => exact confirmed.userStates
  | dropped _ _ eq =>
    rw [eq]
    rfl

theorem userStates_observation {m m' : Monitor} {i : Nat} {call : Call} {ref : Ref}
    {newState : PowerState} (h : Observation m m' i call ref newState)
    : m'.userStates = m.userStates := by
  cases h with
  | kept _ frame => exact frame.userStates
  | flapping _ reset _ _ _ => exact reset.userStates
  | newPending _ reset _ _ _ _ => exact reset.userStates

theorem Evicted.lookup_eq_some {m m' : Monitor} {tids : List TelegramId} (h : Evicted m m' tids)
    {tid : TelegramId} {ref : Ref}
    : m'.userStates.lookup tid = some ref ↔ tid ∉ tids ∧ m.userStates.lookup tid = some ref := by
  rw [h.lookup]
  split
  . next htid => simp [htid]
  . next htid => simp [htid]

theorem lookup_step {cfg : Settings} {m m' : Monitor} {e : Event} (hstep : m.step cfg e = some m')
    {tid : TelegramId} {ref : Ref} (href : m'.userStates.lookup tid = some ref)
    : m.userStates.lookup tid = some ref ∨ tid ∈ m.checkedIds ∨ ∃ val, e = .restarted val := by
  by_cases hquiet : e.quiet = true
  . rw [(step_frame hquiet hstep).userStates] at href
    exact .inl href
  cases e with
  | inactiveEvicted =>
    obtain ⟨users, _, rfl⟩ := stepCycle_inactiveEvicted hstep
    exact .inl ((evicted_evict m _).lookup_eq_some.mp href).2
  | staleEvicted =>
    obtain ⟨users, _, rfl⟩ := stepCycle_staleEvicted hstep
    exact .inl ((evicted_evict m _).lookup_eq_some.mp href).2
  | observed i =>
    obtain ⟨call, isAvailable, m₁, ref', hcall, _, hentered, hobservation⟩ := step_observed hstep
    rw [userStates_observation hobservation] at href
    obtain rfl | ⟨_, _, rfl⟩ := hentered.cases
    . exact .inl href
    . by_cases htid : tid = call.user.telegramId
      . subst htid
        exact .inr (.inl (mem_checkedIds_of_callAt hcall))
      . left
        rwa [show ((m.createEntry call.user.telegramId {}).markDirty _).userStates.lookup tid = _ from
          lookup_createEntry_ne {} htid] at href
  | debounceRead i val =>
    obtain ⟨call, _, hread⟩ := step_debounceRead hstep
    rw [hread.kept.userStates] at href
    exact .inl href
  | taskStored i =>
    obtain ⟨_, _, _, _, _, _, _, hstored⟩ := step_taskStored hstep
    rw [hstored.eq] at href
    exact .inl href
  | cycleCancelled =>
    obtain ⟨_, rfl⟩ := stepCycle_cycleCancelled hstep
    exact .inl href
  | woken k =>
    obtain ⟨_, _, _, _, _, rfl⟩ := step_woken hstep
    exact .inl href
  | confirmed k =>
    obtain ⟨task, _, _, rfl⟩ := step_confirmed hstep
    rw [userStates_confirmation (confirmation_confirm m k task.kind)] at href
    exact .inl href
  | restarted val => exact .inr (.inr ⟨val, rfl⟩)
  | _ => exact absurd rfl hquiet

theorem cycle_of_groups {m : Monitor} (hidle : Idle m) (hgroups : m.groups ≠ [])
    : m.cycle = .checking := by
  by_contra hne
  exact hgroups (hidle hne)

theorem cycle_of_stepCall {m m' : Monitor} {i : Nat}
    {f : Monitor → Call → Option (Monitor × Option CallPc)} (hidle : Idle m) (hidle' : Idle m')
    (h : m.stepCall i f = some m') : m'.cycle = m.cycle := by
  obtain ⟨g, call, m₁, pc, hg, _, _, hm'⟩ := stepCall_eq_some h
  have hlen : m'.groups.length = m.groups.length := by
    rw [hm']
    exact List.length_set
  have hne : m.groups ≠ [] := List.ne_nil_of_mem (List.mem_of_getElem? hg)
  rw [cycle_of_groups hidle hne, cycle_of_groups hidle']
  exact List.ne_nil_of_length_pos (hlen ▸ List.length_pos_iff.mpr hne)

theorem cycle_confirmation {m m' : Monitor} {k : TaskId} {kind : TaskKind}
    (h : Confirmation m m' k kind) : m'.cycle = m.cycle := by
  cases h with
  | state _ confirmed _ => exact confirmed.cycle
  | restored _ _ _ confirmed _ => exact confirmed.cycle
  | dropped _ _ eq =>
    rw [eq]
    rfl

end Monitor

/-- The steps of `_check_all_ips` itself, and a new process. -/
def Event.ofCycle (e : Event) : Bool :=
  match e with
  | .cycleStarted => true
  | .batchLoaded _ => true
  | .loadFailed => true
  | .inactiveEvicted => true
  | .staleEvicted => true
  | .cycleEnded => true
  | .cycleCancelled => true
  | .restarted _ => true
  | _ => false

namespace Monitor

theorem cycle_step {cfg : Settings} {m m' : Monitor} {e : Event} (hwf : Wf m)
    (he : e.ofCycle = false) (hstep : m.step cfg e = some m') : m'.cycle = m.cycle := by
  have hidle' := (wf_step hwf hstep).idle
  cases e with
  | tick elapsed =>
    cases hstep
    rfl
  | pinged i result =>
    rcases pinged_eq_some hstep with ⟨_, _, _, rfl⟩
    rfl
  | pingRaised i =>
    rcases pingRaised_eq_some hstep with ⟨_, _, _, rfl⟩
    rfl
  | callStarted i =>
    rcases startCall_eq_some hstep with ⟨_, _, _, _, _, _, ⟨_, rfl⟩ | rfl⟩
    . rfl
    . rfl
  | observed i => exact cycle_of_stepCall hwf.idle hidle' hstep
  | sessionDone i ok =>
    exact cycle_of_stepCall (f := fun m call => m.sessionDone call ok) hwf.idle hidle' hstep
  | debounceRead i val =>
    exact cycle_of_stepCall (f := fun m call => m.debounceRead cfg call val) hwf.idle hidle' hstep
  | taskStored i => exact cycle_of_stepCall hwf.idle hidle' hstep
  | woken k =>
    obtain ⟨_, _, _, _, _, rfl⟩ := step_woken hstep
    rfl
  | confirmed k =>
    obtain ⟨task, _, _, rfl⟩ := step_confirmed hstep
    exact cycle_confirmation (confirmation_confirm m k task.kind)
  | userReloaded k found =>
    rcases step_userReloaded hstep with ⟨_, _, _, _, _, _, _, _, _, rfl⟩
    rfl
  | handler k e =>
    rcases step_handler hstep with ⟨_, _, _, _, m₁, _, _, _, hhandler, rfl⟩
    have heq := stepHandler_eq hhandler
    exact (congrArg Monitor.cycle heq).trans rfl
  | handlerTimedOut k =>
    rcases step_handlerTimedOut hstep with ⟨_, _, _, _, _, _, rfl⟩
    rfl
  | flushStarted | flushCommitted _ _ | flushCleared _ | flushAborted _ =>
    rcases step_inFlush rfl hstep with ⟨_, _, _, rfl⟩
    rfl
  | _ => cases he

/-! ## Dicts that are no longer in `_user_states` -/

structure Held (m : Monitor) : Prop where
  window : ∀ {i w}, m.windowAt i = some w → m.userStates.lookup w.telegramId = some w.ref
  dropped : ∀ {ref k}, (∀ tid, m.userStates.lookup tid ≠ some ref) →
    (m.heap ref).debounceTask = some k → m.tasks k = none

theorem Held.of_kept {m m' : Monitor} (h : Held m) (hwf : Wf m) (hkept : Kept m m') : Held m' where
  window hw := by
    rw [hkept.windowAt] at hw
    rw [hkept.userStates]
    exact h.window hw
  dropped href hk := by
    rw [hkept.debounceTask] at hk
    rw [hkept.userStates] at href
    rw [hkept.tasks_stored hwf hk]
    exact h.dropped href hk

theorem Held.of_evicted {m m' : Monitor} {tids : List TelegramId} (h : Held m)
    (hevicted : Evicted m m' tids) (hgroups : m.groups = []) : Held m' where
  window hw := by
    rw [hevicted.rest, windowAt_of_groups_nil (by exact hgroups)] at hw
    cases hw
  dropped := by
    intro ref k href hk
    rw [hevicted.rest] at hk
    by_contra halive
    by_cases hentry : ∃ tid, m.userStates.lookup tid = some ref
    . obtain ⟨tid, htid⟩ := hentry
      have hmem : tid ∈ tids := by
        by_contra hmem
        exact href tid (hevicted.lookup_eq_some.mpr ⟨hmem, htid⟩)
      exact halive (hevicted.gone hmem htid hk)
    . rw [hevicted.kept halive] at halive
      exact halive (h.dropped (not_exists.mp hentry) hk)

theorem Held.of_entered {m m' : Monitor} {tid : TelegramId} {ref : Ref} (h : Held m)
    (hentered : Entered m m' tid ref) : Held m' := by
  obtain rfl | ⟨hnone, rfl, rfl⟩ := hentered.cases
  . exact h
  have hlookup {tid' : TelegramId} {ref' : Ref} (href : m.userStates.lookup tid' = some ref')
      : (m.createEntry tid {}).userStates.lookup tid' = some ref' := by
    rw [lookup_createEntry_ne, href]
    rintro rfl
    rw [hnone] at href
    cases href
  constructor
  . intro i w hw
    rw [hentered.windowAt] at hw
    exact hlookup (h.window hw)
  . intro ref' k href hk
    have hne : ref' ≠ m.nextRef := by
      rintro rfl
      simp [createEntry, markDirty] at hk
    have hheap : ((m.createEntry tid {}).markDirty tid).heap ref' = m.heap ref' := by
      simp [createEntry, markDirty, hne]
    rw [hheap] at hk
    exact h.dropped (fun tid' htid' => href tid' (hlookup htid')) hk

theorem Held.dropped_reset {m m' : Monitor} {ref : Ref} {pendingState : Option PowerState}
    {originalChangeTime : Option Time} (h : Held m)
    (hreset : Reset m m' ref pendingState originalChangeTime) {ref' : Ref} {k : TaskId}
    (href : ∀ tid, m'.userStates.lookup tid ≠ some ref')
    (hk : (m'.heap ref').debounceTask = some k) : m'.tasks k = none := by
  by_cases hne : ref' = ref
  . subst hne
    exact hreset.gone (hreset.debounceTask hk)
  . rw [hreset.heap_ne hne] at hk
    rw [hreset.userStates] at href
    by_cases hown : (m.heap ref).debounceTask = some k
    . exact hreset.gone hown
    . rw [hreset.kept hown]
      exact h.dropped href hk

theorem held_observation {m m' : Monitor} {i : Nat} {call : Call} {ref : Ref} {newState : PowerState}
    (h : Held m) (hwf : Wf m) (hlookup : m.userStates.lookup call.user.telegramId = some ref)
    (hobservation : Observation m m' i call ref newState) : Held m' := by
  have hlog (entry : LogEntry) : Held (m.record entry) := ⟨h.window, h.dropped⟩
  cases hobservation with
  | kept _ frame => exact (hlog _).of_kept (hwf.setLog _) frame.toKept
  | flapping _ reset windowAt _ _ =>
    refine ⟨?_, (hlog _).dropped_reset reset⟩
    intro j w hw
    rw [windowAt] at hw
    rw [reset.userStates]
    exact h.window hw
  | newPending _ reset windowAt_self windowAt_ne _ _ =>
    refine ⟨?_, (hlog _).dropped_reset reset⟩
    intro j w hw
    rw [reset.userStates]
    by_cases hj : j = i
    . subst hj
      rw [windowAt_self] at hw
      cases hw
      exact hlookup
    . rw [windowAt_ne j hj] at hw
      exact h.window hw

theorem held_taskStored {m m' : Monitor} {i : Nat} {call : Call} {ref : Ref} {newState : PowerState}
    {oldState : Option PowerState} {debounceS : Int} (h : Held m) (hwf : Wf m)
    (hcall : m.callAt i = some call) (hpc : call.pc = .storeTask ref newState oldState debounceS)
    (hstored : TaskStored m m' i call ref newState oldState debounceS) : Held m' := by
  have hlookup : m.userStates.lookup call.user.telegramId = some ref :=
    h.window (windowAt_of_storeTask hcall hpc)
  have hstates : m'.userStates = m.userStates := by
    rw [hstored.eq]
    rfl
  constructor
  . intro j w hw
    rw [hstates]
    by_cases hj : j = i
    . subst hj
      rw [hstored.windowAt_self] at hw
      cases hw
    . rw [hstored.windowAt_ne hj] at hw
      exact h.window hw
  . intro ref' k href hk
    rw [hstates] at href
    have hne : ref' ≠ ref := by
      rintro rfl
      exact href _ hlookup
    rw [hstored.heap_ne hne] at hk
    rw [hstored.tasks_ne (Nat.ne_of_lt (hwf.debounceTask hk))]
    exact h.dropped href hk

theorem Held.of_task {m m' : Monitor} {k : TaskId} {task : Task} (h : Held m)
    (hk : m.tasks k = some task) (hstates : m'.userStates = m.userStates)
    (hgroups : m'.groups = m.groups)
    (hdebounce : ∀ {ref k'}, (m'.heap ref).debounceTask = some k' →
      (m.heap ref).debounceTask = some k')
    (htasks : ∀ {k'}, k' ≠ k → m'.tasks k' = m.tasks k') : Held m' where
  window hw := by
    rw [windowAt_of_groups hgroups] at hw
    rw [hstates]
    exact h.window hw
  dropped := by
    intro ref k' href hk'
    rw [hstates] at href
    have hnone := h.dropped href (hdebounce hk')
    rw [htasks, hnone]
    rintro rfl
    rw [hk] at hnone
    cases hnone

theorem held_confirmation {m m' : Monitor} {k : TaskId} {task : Task} (h : Held m)
    (hk : m.tasks k = some task) (hconfirmation : Confirmation m m' k task.kind) : Held m' := by
  have hstates := userStates_confirmation hconfirmation
  have hgroups := groups_confirmation hconfirmation
  have of_confirmed {ref : Ref} (confirmed : Confirmed m m' k task.kind ref) : Held m' := by
    refine h.of_task hk hstates hgroups ?_ confirmed.tasks_ne
    intro ref' k' hk'
    by_cases hne : ref' = ref
    . subst hne
      rw [confirmed.debounceTask] at hk'
      cases hk'
    . rwa [confirmed.heap_ne hne] at hk'
  cases hconfirmation with
  | state _ confirmed _ => exact of_confirmed confirmed
  | restored _ _ _ confirmed _ => exact of_confirmed confirmed
  | dropped _ _ eq =>
    subst eq
    exact h.of_task hk rfl rfl id fun hne => by simp [setTask, hne]

theorem held_restart {m m' : Monitor} (hwf : Wf m) (h : Restart m m') : Held m' where
  window hw := by
    rw [windowAt_of_groups_nil (by rw [h.rest])] at hw
    cases hw
  dropped := by
    intro ref k href hk
    by_contra halive
    obtain ⟨task, htask⟩ := Option.ne_none_iff_exists'.mp halive
    obtain ⟨tid, hlookup, _⟩ := h.stored (fun k hk => hwf.debounceTask hk) hk htask
    exact href tid hlookup

theorem held_step {cfg : Settings} {m m' : Monitor} {e : Event} (h : Held m) (hwf : Wf m)
    (hstep : m.step cfg e = some m') : Held m' := by
  by_cases hquiet : e.quiet = true
  . exact h.of_kept hwf (step_frame hquiet hstep).toKept
  cases e with
  | inactiveEvicted =>
    obtain ⟨users, hcycle, rfl⟩ := stepCycle_inactiveEvicted hstep
    have hheld : Held (m.evictInactive users) :=
      h.of_evicted (evicted_evict m _) (groups_of_evictInactive hwf.idle hcycle)
    exact ⟨hheld.window, hheld.dropped⟩
  | staleEvicted =>
    obtain ⟨users, hcycle, rfl⟩ := stepCycle_staleEvicted hstep
    refine ⟨?_, (h.of_evicted (evicted_evict m _) (groups_of_evictStale hwf.idle hcycle)).dropped⟩
    intro i w hw
    rw [windowAt, callAt_of_ipGroups rfl] at hw
    cases hw
  | observed i =>
    obtain ⟨call, isAvailable, m₁, ref, _, _, hentered, hobservation⟩ := step_observed hstep
    exact held_observation (h.of_entered hentered) (hwf.of_entered hentered) hentered.lookup
      hobservation
  | debounceRead i val =>
    obtain ⟨call, _, hread⟩ := step_debounceRead hstep
    exact h.of_kept hwf hread.kept
  | taskStored i =>
    obtain ⟨call, ref, newState, oldState, debounceS, hcall, hpc, hstored⟩ := step_taskStored hstep
    exact held_taskStored h hwf hcall hpc hstored
  | cycleCancelled =>
    obtain ⟨_, rfl⟩ := stepCycle_cycleCancelled hstep
    refine ⟨?_, h.dropped⟩
    intro i w hw
    rw [windowAt_of_groups_nil rfl] at hw
    cases hw
  | woken k =>
    obtain ⟨task, _, hk, _, _, rfl⟩ := step_woken hstep
    exact h.of_task hk rfl rfl id fun hne => by simp [setTask, hne]
  | confirmed k =>
    obtain ⟨task, hk, _, rfl⟩ := step_confirmed hstep
    exact held_confirmation h hk (confirmation_confirm m k task.kind)
  | restarted val =>
    cases hstep
    exact held_restart hwf (restart_restarted m val)
  | _ => exact absurd rfl hquiet

end Monitor

/-! ## The list of the last cycle -/

/--
The power monitor beside the list of users of its cycle, from the page that completes the list up to
the start of the next cycle; a cycle that is cut off leaves none.
-/
structure Watch where
  monitor : Monitor
  full : Option (List User) := none

namespace Watch

open Monitor

def loadedFully (w : Watch) (batch : List User) : Option (List User) :=
  if batch.length < batchLimit then some (w.monitor.cycle.loaded ++ batch) else none

def fullAfter (w : Watch) (e : Event) : Option (List User) :=
  match e with
  | .batchLoaded batch => w.loadedFully batch
  | .cycleStarted => none
  | .loadFailed => none
  | .cycleCancelled => none
  | .restarted _ => none
  | _ => w.full

def step (cfg : Settings) (w : Watch) (e : Event) : Option Watch :=
  (w.monitor.step cfg e).map fun m => { monitor := m, full := w.fullAfter e }

/-- The cycle is past the eviction, or there was none to be made. -/
def Evicted (w : Watch) (users : List User) : Prop :=
  w.full = some users ∧ ∀ users', w.monitor.cycle ≠ .evictInactive users'

/--
After a cycle that loaded the full list every key of `_user_states` is on the list, and every dict that
has been removed has no debounce task still to be done.
-/
def KeepsListedOnly (w : Watch) : Prop :=
  ∀ users, w.Evicted users →
    (∀ tid ∈ w.monitor.userStates.keys, tid ∈ users.map (·.telegramId)) ∧
    ∀ ref k, (∀ tid, w.monitor.userStates.lookup tid ≠ some ref) →
      (w.monitor.heap ref).debounceTask = some k → w.monitor.taskDone k = true

/--
After a cycle that loaded the full list no user who is not on the list has a debounce task that could
still confirm a change.
-/
def AwaitsListedOnly (w : Watch) : Prop :=
  ∀ users, w.Evicted users → ∀ k task, w.monitor.tasks k = some task →
    task.pc.unconfirmed = true → task.kind.telegramId ∈ users.map (·.telegramId)

def EmptyListFindsNoState (w : Watch) (e : Event) : Prop :=
  e matches .batchLoaded _ → w.loadedFully e.batch = some [] → w.monitor.userStates.keys = []

instance (w : Watch) (e : Event) : Decidable (EmptyListFindsNoState w e) :=
  inferInstanceAs (Decidable (_ → _ → _))

def LoadsNoUserTwice (w : Watch) (e : Event) : Prop :=
  w.monitor.LoadsNoUserTwice e

instance (w : Watch) (e : Event) : Decidable (LoadsNoUserTwice w e) :=
  inferInstanceAs (Decidable (w.monitor.LoadsNoUserTwice e))

structure Inv (w : Watch) : Prop where
  wf : w.monitor.Wf
  held : w.monitor.Held
  toEvict : ∀ {users}, w.monitor.cycle = .evictInactive users → w.full = some users
  evicted : ∀ {users}, w.monitor.cycle = .evictStale users → w.full = some users
  checked : ∀ {tid}, tid ∈ w.monitor.checkedIds →
    ∃ users, w.full = some users ∧ tid ∈ users.map (·.telegramId)
  listed : ∀ {users tid ref}, w.Evicted users → w.monitor.userStates.lookup tid = some ref →
    tid ∈ users.map (·.telegramId)

theorem step_eq_some {cfg : Settings} {w w' : Watch} {e : Event} (h : w.step cfg e = some w')
    : w.monitor.step cfg e = some w'.monitor ∧ w'.full = w.fullAfter e := by
  obtain ⟨m, hm, rfl⟩ := Option.map_eq_some_iff.mp h
  exact ⟨hm, rfl⟩

theorem Inv.listed_of_checked {w : Watch} {users : List User} {tid : TelegramId} (h : Inv w)
    (hsome : w.full = some users) (htid : tid ∈ w.monitor.checkedIds)
    : tid ∈ users.map (·.telegramId) := by
  obtain ⟨users', hsome', hmem⟩ := h.checked htid
  rw [hsome] at hsome'
  cases hsome'
  exact hmem

theorem Inv.of_same {w w' : Watch} {cfg : Settings} {e : Event} (h : Inv w)
    (hstep : w.monitor.step cfg e = some w'.monitor) (hfull : w'.full = w.full)
    (hcycle : w'.monitor.cycle = w.monitor.cycle)
    (hstale : e ≠ .staleEvicted) (hrestarted : ∀ val, e ≠ .restarted val) : Inv w' where
  wf := wf_step h.wf hstep
  held := held_step h.held h.wf hstep
  toEvict hevict := by
    rw [hfull]
    exact h.toEvict (hcycle ▸ hevict)
  evicted hevicted := by
    rw [hfull]
    exact h.evicted (hcycle ▸ hevicted)
  checked htid := by
    rw [hfull]
    cases checkedIds_step h.wf hstep htid with
    | inl hold => exact h.checked hold
    | inr hnew =>
      obtain ⟨_, _, rfl, _⟩ := hnew
      exact absurd rfl hstale
  listed hevicted href := by
    obtain ⟨hsome, hpast⟩ := hevicted
    rw [hfull] at hsome
    rw [hcycle] at hpast
    obtain href | htid | ⟨val, rfl⟩ := lookup_step hstep href
    . exact h.listed ⟨hsome, hpast⟩ href
    . exact h.listed_of_checked hsome htid
    . exact absurd rfl (hrestarted val)

theorem Inv.of_none {w w' : Watch} {cfg : Settings} {e : Event} (h : Inv w)
    (hstep : w.monitor.step cfg e = some w'.monitor) (hfull : w'.full = none)
    (hevict : ∀ users, w'.monitor.cycle ≠ .evictInactive users)
    (hevicted : ∀ users, w'.monitor.cycle ≠ .evictStale users)
    (hgroups : w'.monitor.groups = []) : Inv w' where
  wf := wf_step h.wf hstep
  held := held_step h.held h.wf hstep
  toEvict heq := absurd heq (hevict _)
  evicted heq := absurd heq (hevicted _)
  checked htid := by
    rw [checkedIds_of_groups_nil hgroups] at htid
    cases htid
  listed hfully := by
    have hsome := hfully.1
    rw [hfull] at hsome
    cases hsome

theorem loadedFully_eq_some {w : Watch} {batch users : List User}
    : w.loadedFully batch = some users ↔
        batch.length < batchLimit ∧ w.monitor.cycle.loaded ++ batch = users := by
  unfold loadedFully
  split
  . next hlt => simp [hlt]
  . next hlt => simp [hlt]

theorem afterBatch_evictInactive {afterId : Nat} {loaded batch users : List User}
    : afterBatch afterId loaded batch = .evictInactive users ↔
        batch.length < batchLimit ∧ loaded ++ batch = users ∧ users ≠ [] := by
  unfold afterBatch
  dsimp only
  split
  . split
    . next hlt hempty =>
      simp only [List.isEmpty_iff] at hempty
      rw [hempty]
      simp
    . next hlt hempty =>
      simp only [List.isEmpty_iff] at hempty
      simp [hlt]
      rintro rfl
      exact hempty
  . next hlt => simp [hlt]

theorem afterBatch_ne_evictStale (afterId : Nat) (loaded batch users : List User)
    : afterBatch afterId loaded batch ≠ .evictStale users := by
  unfold afterBatch
  dsimp only
  split
  . split
    . nofun
    . nofun
  . nofun

theorem inv_batchLoaded {cfg : Settings} {w w' : Watch} {batch : List User} (h : Inv w)
    (hempty : EmptyListFindsNoState w (.batchLoaded batch))
    (hstep : w.monitor.step cfg (.batchLoaded batch) = some w'.monitor)
    (hfull : w'.full = w.loadedFully batch) : Inv w' := by
  obtain ⟨afterId, loaded, hcycle, _, hm'⟩ := stepCycle_batchLoaded hstep
  have hloaded : w.monitor.cycle.loaded = loaded := by rw [hcycle]; rfl
  have hcycle' : w'.monitor.cycle = afterBatch afterId loaded batch := by rw [hm']
  constructor
  case wf => exact wf_step h.wf hstep
  case held => exact held_step h.held h.wf hstep
  case toEvict =>
    intro users hevict
    rw [hcycle', afterBatch_evictInactive] at hevict
    rw [hfull, loadedFully_eq_some, hloaded]
    exact ⟨hevict.1, hevict.2.1⟩
  case evicted =>
    intro users hevicted
    rw [hcycle'] at hevicted
    exact absurd hevicted (afterBatch_ne_evictStale _ _ _ _)
  case checked =>
    intro tid htid
    have hgroups : w'.monitor.groups = [] := by
      rw [hm']
      exact h.wf.idle (by rw [hcycle]; nofun)
    rw [checkedIds_of_groups_nil hgroups] at htid
    cases htid
  case listed =>
    intro users tid ref hevicted href
    obtain ⟨hsome, hpast⟩ := hevicted
    rw [hfull] at hsome
    obtain ⟨hlt, heq⟩ := loadedFully_eq_some.mp hsome
    rw [hloaded] at heq
    -- a list with a user on it is yet to be evicted against
    obtain rfl : users = [] := by
      by_contra hne
      exact hpast users (hcycle' ▸ afterBatch_evictInactive.mpr ⟨hlt, heq, hne⟩)
    have hkeys := hempty rfl hsome
    have hmem : tid ∈ w.monitor.userStates.keys := by
      rw [hm'] at href
      exact AList.mem_keys.mp (AList.lookup_isSome.mp (by rw [href]; rfl))
    rw [hkeys] at hmem
    cases hmem

theorem inv_inactiveEvicted {cfg : Settings} {w w' : Watch} (h : Inv w)
    (hstep : w.monitor.step cfg .inactiveEvicted = some w'.monitor) (hfull : w'.full = w.full)
    : Inv w' := by
  obtain ⟨users, hcycle, hm'⟩ := stepCycle_inactiveEvicted hstep
  have hsome := h.toEvict hcycle
  have hcycle' : w'.monitor.cycle = .evictStale users := by rw [hm']
  constructor
  case wf => exact wf_step h.wf hstep
  case held => exact held_step h.held h.wf hstep
  case toEvict =>
    intro users' hevict
    rw [hcycle'] at hevict
    cases hevict
  case evicted =>
    intro users' hevicted
    rw [hcycle'] at hevicted
    cases hevicted
    rw [hfull, hsome]
  case checked =>
    intro tid htid
    rw [hfull]
    cases checkedIds_step h.wf hstep htid with
    | inl hold => exact h.checked hold
    | inr hnew =>
      obtain ⟨_, _, hne, _⟩ := hnew
      cases hne
  case listed =>
    intro users' tid ref hevicted href
    have hsame := hevicted.1
    rw [hfull, hsome] at hsame
    cases hsame
    have href' : (w.monitor.evictInactive users).userStates.lookup tid = some ref := by
      rw [hm'] at href
      exact href
    obtain ⟨hkept, hold⟩ := (evicted_evict w.monitor _).lookup_eq_some.mp href'
    by_contra hgone
    apply hkept
    rw [List.mem_filter]
    refine ⟨List.mem_map.mpr ⟨(tid, ref), mem_items.mpr hold, rfl⟩, ?_⟩
    simpa using hgone

theorem inv_staleEvicted {cfg : Settings} {w w' : Watch} (h : Inv w)
    (hstep : w.monitor.step cfg .staleEvicted = some w'.monitor) (hfull : w'.full = w.full)
    : Inv w' := by
  obtain ⟨users, hcycle, hm'⟩ := stepCycle_staleEvicted hstep
  have hsome := h.evicted hcycle
  have hcycle' : w'.monitor.cycle = .checking := by rw [hm']
  constructor
  case wf => exact wf_step h.wf hstep
  case held => exact held_step h.held h.wf hstep
  case toEvict =>
    intro users' hevict
    rw [hcycle'] at hevict
    cases hevict
  case evicted =>
    intro users' hevicted
    rw [hcycle'] at hevicted
    cases hevicted
  case checked =>
    intro tid htid
    rw [hfull]
    cases checkedIds_step h.wf hstep htid with
    | inl hold => exact h.checked hold
    | inr hnew =>
      obtain ⟨users', hcycle'', _, hmem⟩ := hnew
      exact ⟨users', h.evicted hcycle'', hmem⟩
  case listed =>
    intro users' tid ref hevicted href
    have hsame := hevicted.1
    rw [hfull] at hsame
    obtain href | htid | ⟨val, hval⟩ := lookup_step hstep href
    . exact h.listed ⟨hsame, fun _ => by rw [hcycle]; nofun⟩ href
    . exact h.listed_of_checked hsame htid
    . cases hval

theorem inv_cycleEnded {cfg : Settings} {w w' : Watch} (h : Inv w)
    (hstep : w.monitor.step cfg .cycleEnded = some w'.monitor) (hfull : w'.full = w.full)
    : Inv w' := by
  obtain ⟨hcycle, _, hm'⟩ := stepCycle_cycleEnded hstep
  have hcycle' : w'.monitor.cycle = .idle := by rw [hm']
  constructor
  case wf => exact wf_step h.wf hstep
  case held => exact held_step h.held h.wf hstep
  case toEvict =>
    intro users hevict
    rw [hcycle'] at hevict
    cases hevict
  case evicted =>
    intro users hevicted
    rw [hcycle'] at hevicted
    cases hevicted
  case checked =>
    intro tid htid
    rw [checkedIds_of_groups_nil (by rw [hm'])] at htid
    cases htid
  case listed =>
    intro users tid ref hevicted href
    have hsome := hevicted.1
    rw [hfull] at hsome
    rw [hm'] at href
    exact h.listed ⟨hsome, fun _ => by rw [hcycle]; nofun⟩ href

theorem inv_step {cfg : Settings} {w w' : Watch} {e : Event} (h : Inv w)
    (hempty : EmptyListFindsNoState w e) (hstep : w.step cfg e = some w') : Inv w' := by
  obtain ⟨hm, hfull⟩ := step_eq_some hstep
  cases e with
  | cycleStarted =>
    obtain ⟨hcycle, hm'⟩ := stepCycle_cycleStarted hm
    refine h.of_none hm hfull ?_ ?_ ?_
    . rw [hm']
      nofun
    . rw [hm']
      nofun
    . rw [hm']
      exact h.wf.idle (by rw [hcycle]; nofun)
  | batchLoaded batch => exact inv_batchLoaded h hempty hm hfull
  | loadFailed =>
    obtain ⟨_, _, hcycle, hm'⟩ := stepCycle_loadFailed hm
    refine h.of_none hm hfull ?_ ?_ ?_
    . rw [hm']
      nofun
    . rw [hm']
      nofun
    . rw [hm']
      exact h.wf.idle (by rw [hcycle]; nofun)
  | inactiveEvicted => exact inv_inactiveEvicted h hm hfull
  | staleEvicted => exact inv_staleEvicted h hm hfull
  | cycleEnded => exact inv_cycleEnded h hm hfull
  | cycleCancelled =>
    obtain ⟨_, hm'⟩ := stepCycle_cycleCancelled hm
    refine h.of_none hm hfull ?_ ?_ ?_
    . rw [hm']
      nofun
    . rw [hm']
      nofun
    . rw [hm']
  | restarted val =>
    have hm' : w'.monitor = w.monitor.restarted val := (Option.some.inj hm).symm
    have hrest := (restart_restarted w.monitor val).rest
    refine h.of_none hm hfull ?_ ?_ ?_
    . rw [hm', hrest]
      nofun
    . rw [hm', hrest]
      nofun
    . rw [hm', hrest]
  | _ => exact h.of_same hm hfull (cycle_step h.wf rfl hm) nofun nofun

/-! ## Runs -/

def initial (now : Time) (rows : AList (fun _ : TelegramId => UserPowerStateRow))
    (tracking : TelegramId → Option PowerTracking) (val : Option (Option Int)) : Watch where
  monitor := PowerMonitor.initial now rows tracking val

theorem inv_initial (now : Time) (rows : AList (fun _ : TelegramId => UserPowerStateRow))
    (tracking : TelegramId → Option PowerTracking) (val : Option (Option Int))
    : Inv (initial now rows tracking val) := by
  have hrestart := restart_restarted
    { now := now, userPowerStates := rows, powerTracking := tracking } val
  have hcycle : (initial now rows tracking val).monitor.cycle = .idle := congrArg cycle hrestart.rest
  constructor
  case wf => exact wf_initial now rows tracking val
  case held => exact held_restart (wf_empty now rows tracking) hrestart
  case toEvict =>
    intro users hevict
    rw [hcycle] at hevict
    cases hevict
  case evicted =>
    intro users hevicted
    rw [hcycle] at hevicted
    cases hevicted
  case checked =>
    intro tid htid
    have hgroups : (initial now rows tracking val).monitor.groups = [] :=
      congrArg groups hrestart.rest
    rw [checkedIds_of_groups_nil hgroups] at htid
    cases htid
  case listed =>
    intro users tid ref hevicted
    cases hevicted.1

theorem keepsListedOnly_of_inv {w : Watch} (h : Inv w) : KeepsListedOnly w := by
  intro users hevicted
  constructor
  . intro tid htid
    obtain ⟨ref, href⟩ := Option.isSome_iff_exists.mp
      (AList.lookup_isSome.mpr (AList.mem_keys.mpr htid))
    exact h.listed hevicted href
  . intro ref k href hk
    rw [taskDone, h.held.dropped href hk]
    rfl

theorem not_keepsListedOnly_of_emptyList {cfg : Settings} {w w' : Watch} {e : Event}
    (hempty : ¬ EmptyListFindsNoState w e) (hstep : w.step cfg e = some w') : ¬ KeepsListedOnly w' := by
  unfold EmptyListFindsNoState at hempty
  push Not at hempty
  obtain ⟨he, hnil, hkeys⟩ := hempty
  obtain ⟨hm, hfull⟩ := step_eq_some hstep
  obtain ⟨batch, rfl⟩ : ∃ batch, e = .batchLoaded batch := by
    cases e with
    | batchLoaded batch => exact ⟨batch, rfl⟩
    | _ => cases he
  obtain ⟨afterId, loaded, hcycle, _, hm'⟩ := stepCycle_batchLoaded hm
  have heq := (loadedFully_eq_some.mp hnil).2
  rw [hcycle] at heq
  have hevicted : w'.Evicted [] := by
    refine ⟨hfull.trans hnil, ?_⟩
    intro users hevict
    rw [hm', afterBatch_evictInactive] at hevict
    exact hevict.2.2 (hevict.2.1.symm.trans heq)
  intro hlisted
  obtain ⟨tid, htid⟩ := List.exists_mem_of_ne_nil _ hkeys
  have hmem := (hlisted [] hevicted).1 tid (by rwa [hm'])
  cases hmem

theorem awaitsListedOnly_of_inv {w : Watch} (h : Inv w) (hdebounce : w.monitor.DebounceInv)
    : AwaitsListedOnly w := by
  intro users hevicted k task hk hunconfirmed
  obtain ⟨ref, hwaiting⟩ := hdebounce.task hk hunconfirmed
  exact h.listed hevicted hwaiting.lookup

/--
Every full cycle leaves entries of listed users only, and no live task in the dict of anybody else, if
and only if no cycle finds its list empty while a user has an entry. If moreover no cycle loads a user
twice, nobody off the list has a task left that could confirm a change.
-/
theorem keepsListedOnly_iff_emptyListFindsNoState {cfg : Settings} {now : Time}
    {rows : AList (fun _ : TelegramId => UserPowerStateRow)}
    {tracking : TelegramId → Option PowerTracking} {val : Option (Option Int)} {es : List Event}
    {w : Watch} (hrun : Run.exec (step cfg) (initial now rows tracking val) es = some w)
    : (Run.Always (step cfg) KeepsListedOnly (initial now rows tracking val) es
          ↔
        Run.StepsMeet (step cfg) EmptyListFindsNoState (initial now rows tracking val) es) ∧
      (Run.StepsMeet (step cfg) EmptyListFindsNoState (initial now rows tracking val) es →
        Run.StepsMeet (step cfg) LoadsNoUserTwice (initial now rows tracking val) es →
          Run.Always (step cfg) AwaitsListedOnly (initial now rows tracking val) es) := by
  constructor
  . exact Run.always_iff_stepsMeet inv_step keepsListedOnly_of_inv
      (fun _ hempty hstep => not_keepsListedOnly_of_emptyList hempty hstep)
      (inv_initial now rows tracking val) hrun
  . intro hempty hloads
    let I : Watch → Prop := fun w => Inv w ∧ w.monitor.DebounceInv
    refine Run.always_of_stepsMeet (I := I) ?_ (fun h => awaitsListedOnly_of_inv h.1 h.2)
      ⟨inv_initial now rows tracking val, debounceInv_initial now rows tracking val⟩
      (hempty.and hloads)
    intro w w' e h hcond hstep
    exact ⟨inv_step h.1 hcond.1 hstep, debounceInv_step h.2 hcond.2 (step_eq_some hstep).1⟩

/--
The light of a user goes off; before the debounce is over the user deletes the address. A second user
keeps it.
-/
def remainingRun : List Event := [
  .cycleStarted,
  .batchLoaded [
    { id := 1, telegramId := "777", routerIp := "192.168.1.1" },
    { id := 2, telegramId := "888", routerIp := "192.168.1.2" }],
  .inactiveEvicted,
  .staleEvicted,
  .pinged 0 (some false),
  .callStarted 0,
  .observed 0,
  .sessionDone 0 true,
  .debounceRead 0 (some (some 1)),
  .taskStored 0,
  .pinged 1 none,
  .callStarted 1,
  .cycleEnded,
  .tick 30000000,
  .cycleStarted,
  .batchLoaded [{ id := 2, telegramId := "888", routerIp := "192.168.1.2" }],
  .inactiveEvicted]

theorem keepsListedOnly_remainingRun
    : Run.Always (step {}) KeepsListedOnly (initial 0 (savedOn "777") (fun _ => none) none)
          remainingRun ∧
        Run.Always (step {}) AwaitsListedOnly (initial 0 (savedOn "777") (fun _ => none) none)
          remainingRun := by
  have hrun : (Run.exec (step {}) (initial 0 (savedOn "777") (fun _ => none) none)
      remainingRun).isSome := by
    decide +kernel
  have hempty : Run.StepsMeet (step {}) EmptyListFindsNoState
      (initial 0 (savedOn "777") (fun _ => none) none) remainingRun := by
    decide +kernel
  have hkeeps := keepsListedOnly_iff_emptyListFindsNoState (Option.some_get hrun).symm
  exact ⟨hkeeps.1.mpr hempty, hkeeps.2 hempty (by decide +kernel)⟩

/--
The same without a second user: the next cycle finds an empty list.
-/
def departedRun : List Event := [
  .cycleStarted,
  .batchLoaded [{ id := 1, telegramId := "777", routerIp := "192.168.1.1" }],
  .inactiveEvicted,
  .staleEvicted,
  .pinged 0 (some false),
  .callStarted 0,
  .observed 0,
  .sessionDone 0 true,
  .debounceRead 0 (some (some 1)),
  .taskStored 0,
  .cycleEnded,
  .tick 30000000,
  .cycleStarted,
  .batchLoaded []]

def notifiedRun : List Event := [
  .tick 30000000,
  .woken 0,
  .confirmed 0,
  .handler 0 .start,
  .handler 0 (.stateUpdated .ok),
  .handler 0 .scheduleFetched,
  .handler 0 .sent]

theorem not_keepsListedOnly_departedRun
    : ∃ w w', Run.exec (step {}) (initial 0 (savedOn "777") (fun _ => none) none) departedRun = some w ∧
        ¬ KeepsListedOnly w ∧ Run.exec (step {}) w notifiedRun = some w' ∧
        ((w'.monitor.userStates.lookup "777").map fun ref =>
          (w'.monitor.heap ref).lastNotificationAt) = some (some (.iso 60000000)) := by
  have hfirst
      : (Run.exec (step {}) (initial 0 (savedOn "777") (fun _ => none) none) departedRun).map
          (fun w => (w.full, w.monitor.cycle, w.monitor.userStates.keys)) =
        some (some [], .idle, ["777"]) := by
    decide +kernel
  obtain ⟨w, hw, hproj⟩ := Option.map_eq_some_iff.mp hfirst
  simp only [Prod.mk.injEq] at hproj
  obtain ⟨hfull, hcycle, hkeys⟩ := hproj
  have hlast
      : (Run.exec (step {}) (initial 0 (savedOn "777") (fun _ => none) none)
          (departedRun ++ notifiedRun)).map (fun w => (w.monitor.userStates.lookup "777").map fun ref =>
            (w.monitor.heap ref).lastNotificationAt) = some (some (some (.iso 60000000))) := by
    decide +kernel
  rw [Run.exec_append, hw, Option.bind_some] at hlast
  obtain ⟨w', hw', hsent⟩ := Option.map_eq_some_iff.mp hlast
  refine ⟨w, w', hw, ?_, hw', hsent⟩
  intro hlisted
  have hevicted : w.Evicted [] := ⟨hfull, fun _ => by rw [hcycle]; nofun⟩
  have hmem := (hlisted [] hevicted).1 "777" (by rw [hkeys]; exact List.mem_singleton_self _)
  cases hmem

end Watch
end PowerMonitor
