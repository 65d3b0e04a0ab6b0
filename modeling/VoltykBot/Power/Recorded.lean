import VoltykBot.Power.Books

/-!
This module contains when a confirmed power change reaches the database: `_confirm_state` sets the dict,
and the first session of `_handle_power_state_change` commits the state and the row of `power_history`
later, if at all.
-/

namespace PowerMonitor
namespace Monitor

/-! ## An observation -/

def seed (user : User) (newState : PowerState) : PowerState :=
  match user.powerTracking.bind (·.powerState), user.powerTracking.bind (·.powerChangedAt) with
  | some state, some _ => state
  | _, _ => newState

def entryOf (m : Monitor) (tid : TelegramId) : UserState :=
  match m.userStates.lookup tid with
  | some ref => m.heap ref
  | none => {}

structure Judged (m m' : Monitor) (ref : Ref) : Prop where
  userStates : m'.userStates = m.userStates
  changes : m'.log.filterMap LogEntry.change = m.log.filterMap LogEntry.change
  powerHistory : m'.powerHistory = m.powerHistory
  powerTracking : m'.powerTracking = m.powerTracking
  heap : ∀ r, r ≠ ref → m'.heap r = m.heap r
  debounceTask : ∀ {k}, (m'.heap ref).debounceTask = some k → (m.heap ref).debounceTask = some k
  tasks : ∀ k, m'.tasks k = m.tasks k ∨ (m.heap ref).debounceTask = some k ∧ m'.tasks k = none

theorem Judged.refl (m : Monitor) (ref : Ref) : Judged m m ref where
  userStates := rfl
  changes := rfl
  powerHistory := rfl
  powerTracking := rfl
  heap _ _ := rfl
  debounceTask hk := hk
  tasks _ := .inl rfl

theorem Judged.trans {m m₁ m' : Monitor} {ref : Ref} (h : Judged m m₁ ref) (h' : Judged m₁ m' ref)
    : Judged m m' ref where
  userStates := h'.userStates.trans h.userStates
  changes := h'.changes.trans h.changes
  powerHistory := h'.powerHistory.trans h.powerHistory
  powerTracking := h'.powerTracking.trans h.powerTracking
  heap r hr := (h'.heap r hr).trans (h.heap r hr)
  debounceTask hk := h.debounceTask (h'.debounceTask hk)
  tasks k := by
    rcases h'.tasks k with hsame | ⟨hk, hnone⟩
    . rcases h.tasks k with hsame₁ | ⟨hk, hnone⟩
      . exact .inl (hsame.trans hsame₁)
      . exact .inr ⟨hk, hsame.trans hnone⟩
    . exact .inr ⟨h.debounceTask hk, hnone⟩

theorem Judged.markDirty {m m' : Monitor} {ref : Ref} (h : Judged m m' ref) (tid : TelegramId)
    : Judged m (m'.markDirty tid) ref :=
  { h with }

theorem Judged.record {m m' : Monitor} {ref : Ref} (h : Judged m m' ref) {entry : LogEntry}
    (hentry : entry.change = none) : Judged m (m'.record entry) ref :=
  { h with
    changes := by
      unfold Monitor.record
      rw [List.filterMap_cons_none hentry]
      exact h.changes }

theorem judged_modify (m : Monitor) (ref : Ref) {f : UserState → UserState}
    (hf : ∀ st, (f st).debounceTask = st.debounceTask) : Judged m (m.modify ref f) ref :=
  { Judged.refl m ref with
    heap := fun r hr => Function.update_of_ne hr _ _
    debounceTask := by
      intro k hk
      unfold modify at hk
      dsimp only at hk
      rw [Function.update_self, hf] at hk
      exact hk }

theorem judged_cancelDebounceTask (m : Monitor) (ref : Ref) : Judged m (m.cancelDebounceTask ref) ref := by
  unfold cancelDebounceTask
  split
  . next k hk =>
    split
    . exact .refl m ref
    . constructor
      . rfl
      . rfl
      . rfl
      . rfl
      . intro r hr
        exact Function.update_of_ne hr _ _
      . intro k' hk'
        unfold modify at hk'
        dsimp only at hk'
        rw [Function.update_self] at hk'
        cases hk'
      . intro k'
        by_cases hne : k' = k
        . subst hne
          exact .inr ⟨hk, Function.update_self _ _ _⟩
        . exact .inl (Function.update_of_ne hne _ _)
  . exact .refl m ref

theorem judged_applyVerdict (m : Monitor) (tid : TelegramId) (ref : Ref) (newState : PowerState)
    (verdict : Verdict) : Judged m (m.applyVerdict tid ref newState verdict).1 ref := by
  cases verdict with
  | seedFromDb state changedAt =>
    dsimp only [applyVerdict]
    apply judged_modify
    intro st
    rfl
  | seedFromReading =>
    dsimp only [applyVerdict]
    apply judged_modify
    intro st
    rfl
  | unchanged =>
    dsimp only [applyVerdict]
    apply judged_modify
    intro st
    rfl
  | flapping =>
    apply Judged.markDirty
    refine Judged.trans (Judged.trans ?_ (judged_cancelDebounceTask _ ref)) (judged_modify _ ref ?_)
    . apply judged_modify
      intro st
      rfl
    . intro st
      rfl
  | alreadyPending => exact .refl m ref
  | newPending =>
    apply Judged.markDirty
    refine Judged.trans (Judged.trans (judged_cancelDebounceTask m ref) (judged_modify _ ref ?_))
      (judged_modify _ ref ?_)
    . intro st
      split <;> rfl
    . intro st
      rfl

theorem currentState_modify {m : Monitor} {ref : Ref} {f : UserState → UserState}
    (hf : ∀ st, (f st).currentState = st.currentState)
    : ((m.modify ref f).heap ref).currentState = (m.heap ref).currentState :=
  heap_modify_keeps UserState.currentState hf ref

theorem currentState_cancelDebounceTask (m : Monitor) (ref : Ref)
    : ((m.cancelDebounceTask ref).heap ref).currentState = (m.heap ref).currentState := by
  unfold cancelDebounceTask
  split
  . split
    . rfl
    . simp [modify, setTask]
  . rfl

def Verdict.seeds (verdict : Verdict) : Bool :=
  match verdict with
  | .seedFromDb _ _ => true
  | .seedFromReading => true
  | _ => false

theorem currentState_applyVerdict {m : Monitor} {tid : TelegramId} {ref : Ref} {newState : PowerState}
    {verdict : Verdict} (h : Verdict.seeds verdict = false)
    : ((m.applyVerdict tid ref newState verdict).1.heap ref).currentState = (m.heap ref).currentState := by
  cases verdict with
  | seedFromDb state changedAt => cases h
  | seedFromReading => cases h
  | unchanged =>
    dsimp only [applyVerdict]
    rw [currentState_modify]
    intro st
    rfl
  | flapping =>
    dsimp only [applyVerdict, Monitor.markDirty]
    rw [currentState_modify, currentState_cancelDebounceTask, currentState_modify]
    . intro st
      rfl
    . intro st
      rfl
  | alreadyPending => rfl
  | newPending =>
    dsimp only [applyVerdict, Monitor.markDirty]
    rw [currentState_modify, currentState_modify, currentState_cancelDebounceTask]
    . intro st
      split <;> rfl
    . intro st
      rfl

theorem currentState_judged (m : Monitor) (tid : TelegramId) (ref : Ref) (user : User)
    (newState : PowerState)
    : ((m.applyVerdict tid ref newState ((m.heap ref).verdict user.powerTracking newState)).1.heap
        ref).currentState =
        if (m.heap ref).isFirstCheck then some (seed user newState) else (m.heap ref).currentState := by
  unfold UserState.verdict
  by_cases hfirst : (m.heap ref).isFirstCheck = true
  . rw [if_pos hfirst, if_pos hfirst]
    unfold seed
    cases user.powerTracking.bind (·.powerState) with
    | none => simp [applyVerdict, modify]
    | some state =>
      cases user.powerTracking.bind (·.powerChangedAt) with
      | none => simp [applyVerdict, modify]
      | some changedAt => simp [applyVerdict, modify]
  . rw [if_neg hfirst, if_neg hfirst]
    apply currentState_applyVerdict
    split
    . split <;> rfl
    . split <;> rfl

theorem Entered.rest {m m' : Monitor} {tid : TelegramId} {ref : Ref} (h : Entered m m' tid ref)
    : m' = { m with
        userStates := m'.userStates, dirtyStates := m'.dirtyStates, heap := m'.heap, owner := m'.owner
        nextRef := m'.nextRef } := by
  rcases h.cases with rfl | ⟨_, _, rfl⟩
  . rfl
  . rfl

theorem Entered.entryOf {m m' : Monitor} {tid : TelegramId} {ref : Ref} (h : Entered m m' tid ref)
    : m'.heap ref = m.entryOf tid := by
  have hlookup := h.lookup
  unfold Monitor.entryOf
  rcases h.cases with rfl | ⟨hnone, rfl, rfl⟩
  . rw [hlookup]
  . rw [hnone]
    exact Function.update_self _ _ _

theorem Entered.memory {m m' : Monitor} {tid : TelegramId} {ref : Ref} (hwf : Wf m)
    (h : Entered m m' tid ref) {tid' : TelegramId} (hne : tid' ≠ tid) : m'.memory tid' = m.memory tid' := by
  rcases h.cases with rfl | ⟨_, _, rfl⟩
  . rfl
  . unfold Monitor.memory
    have hlookup : ((m.createEntry tid {}).markDirty tid).userStates.lookup tid' =
        m.userStates.lookup tid' := lookup_createEntry_ne {} hne
    rw [hlookup]
    cases hold : m.userStates.lookup tid' with
    | none => rfl
    | some r =>
      have hheap : ((m.createEntry tid {}).markDirty tid).heap r = m.heap r :=
        heap_createEntry tid {} (hwf.entry hold).1
      rw [Option.map_some, Option.map_some, hheap]

theorem unrecorded_of_judged {m m' : Monitor} {ref : Ref} (hwf : Wf m) (h : Judged m m' ref)
    (k : TaskId) : m'.unrecorded k = m.unrecorded k := by
  rcases h.tasks k with hsame | ⟨hk, hnone⟩
  . exact unrecorded_of_tasks hsame
  . rw [unrecorded_of_stored hwf hk]
    exact unrecorded_of_gone hnone

theorem judged_observe (m : Monitor) (call : Call) (isAvailable : Bool)
    : Judged (m.getUserState call.user.telegramId).1 (m.observe call isAvailable).1
        (m.getUserState call.user.telegramId).2 := by
  unfold observe
  refine Judged.trans (Judged.record (Judged.markDirty (judged_modify _ _ ?_) _) rfl)
    (judged_applyVerdict _ _ _ _ _)
  intro st
  rfl

theorem currentState_observe (m : Monitor) (call : Call) (isAvailable : Bool)
    : ((m.observe call isAvailable).1.heap (m.getUserState call.user.telegramId).2).currentState =
        if (m.entryOf call.user.telegramId).isFirstCheck then
          some (seed call.user (.ofAvailable isAvailable))
        else
          (m.entryOf call.user.telegramId).currentState := by
  rw [← (entered_getUserState m call.user.telegramId).entryOf]
  dsimp only [observe]
  generalize m.getUserState call.user.telegramId = r
  rcases r with ⟨m₁, ref⟩
  refine (currentState_judged _ _ _ call.user _).trans ?_
  simp only [Monitor.record, Monitor.markDirty, modify, Function.update_self]

theorem books_observed {m m' : Monitor} {i : Nat} (hwf : Wf m)
    (h : m.stepCall i observeCall = some m')
    : ∃ call isAvailable, m.callAt i = some call ∧ call.pc = .lock isAvailable ∧
        m'.log.filterMap LogEntry.change = m.log.filterMap LogEntry.change ∧
        m'.powerHistory = m.powerHistory ∧ m'.powerTracking = m.powerTracking ∧
        (∀ k, m'.unrecorded k = m.unrecorded k) ∧
        (∀ tid', tid' ≠ call.user.telegramId → m'.memory tid' = m.memory tid') ∧
        m'.memory call.user.telegramId = some
          (if (m.entryOf call.user.telegramId).isFirstCheck then
            some (seed call.user (.ofAvailable isAvailable))
          else
            (m.entryOf call.user.telegramId).currentState) := by
  rcases stepCall_eq_some h with ⟨g, call, m₂, pc, hg, hcall, hf, rfl⟩
  unfold observeCall at hf
  split at hf
  . next isAvailable hlock =>
    have hentered := entered_getUserState m call.user.telegramId
    have hjudged := judged_observe m call isAvailable
    have hcurrent := currentState_observe m call isAvailable
    rw [Option.some.inj hf] at hjudged hcurrent
    have hwf₁ := hwf.of_entered hentered
    refine ⟨call, isAvailable, callAt_eq_some hg hcall, hlock, ?_, ?_, ?_, ?_, ?_, ?_⟩
    . refine hjudged.changes.trans ?_
      rw [hentered.rest]
    . refine hjudged.powerHistory.trans ?_
      rw [hentered.rest]
    . refine hjudged.powerTracking.trans ?_
      rw [hentered.rest]
    . intro k
      refine (unrecorded_of_judged hwf₁ hjudged k).trans (unrecorded_of_tasks ?_)
      rw [hentered.rest]
    . intro tid' hne
      rw [← hentered.memory hwf hne]
      unfold Monitor.memory
      dsimp only
      rw [hjudged.userStates]
      cases hold : (m.getUserState call.user.telegramId).1.userStates.lookup tid' with
      | none => rfl
      | some r =>
        rw [Option.map_some, Option.map_some, hjudged.heap r]
        -- an entry of another user is another dict
        rintro rfl
        have howner := (hwf₁.entry hold).2
        rw [(hwf₁.entry hentered.lookup).2] at howner
        exact hne howner.symm
    . unfold Monitor.memory
      dsimp only
      rw [hjudged.userStates, hentered.lookup, Option.map_some]
      exact congrArg some hcurrent
  . cases hf

/-! ## The handler and the sessions -/

theorem sameBooks_modify (m : Monitor) (tid : TelegramId) (ref : Ref) {f : UserState → UserState}
    (hf : ∀ st, (f st).currentState = st.currentState)
    : SameBooks m ((m.modify ref f).markDirty tid) where
  changes := rfl
  history := rfl
  saved _ := rfl
  memory {tid' state} hstate := by
    have hsame : (m.modify ref f).memory tid' = m.memory tid' := by
      apply memory_of_heap
      . rfl
      . exact heap_modify_keeps UserState.currentState hf
    rw [← hsame]
    exact hstate
  unrecorded _ := rfl

theorem sameBooks_handler {cfg : Settings} {m m₁ : Monitor} {k : TaskId} {task : Task} {ref : Ref}
    {origDt : Option Time} {pc : HandlerPc} {pc' : Option HandlerPc} {e : HandlerEvent}
    (hk : m.tasks k = some task) (hpc : task.pc = .handling ref origDt pc)
    (hstep : m.stepHandler cfg task.kind.telegramId task.kind.newState ref origDt pc e = some (m₁, pc'))
    (he : ∀ outcome, e ≠ .stateUpdated outcome)
    : SameBooks m (m₁.setTask k (pc'.map fun pc => { task with pc := .handling ref origDt pc })) := by
  have hnotified (now : Time) : SameBooks m (m.notified task.kind.telegramId ref now) := by
    apply sameBooks_modify
    intro st
    rfl
  have hstable (changedAt : Time)
      : SameBooks m (m.stableStateUpdated task.kind.telegramId ref task.kind.newState changedAt) := by
    apply sameBooks_modify
    intro st
    rfl
  unfold stepHandler at hstep
  split at hstep
  . cases hstep
    exact sameBooks_moveTask hk (by rw [hpc]; rfl)
  . next outcome => exact absurd rfl (he outcome)
  . cases hstep
    apply sameBooks_moveTask hk
    rw [hpc]
    split <;> rfl
  . cases hstep
    exact (hnotified _).trans (sameBooks_moveTask hk (by rw [hpc]; rfl))
  . cases hstep
    exact sameBooks_dropTask hk (by rw [hpc]; rfl)
  . cases hstep
    exact (hstable _).trans (sameBooks_dropTask hk (by rw [hpc]; rfl))
  . cases hstep

theorem recordInv_stateUpdated {cfg : Settings} {m m₁ : Monitor} {k : TaskId} {task : Task} {ref : Ref}
    {origDt : Option Time} {pc : HandlerPc} {pc' : Option HandlerPc} {outcome : StateUpdate}
    (h : RecordInv m) (hk : m.tasks k = some task) (hpc : task.pc = .handling ref origDt pc)
    (hstep : m.stepHandler cfg task.kind.telegramId task.kind.newState ref origDt pc
      (.stateUpdated outcome) = some (m₁, pc'))
    (hwf : Wf (m₁.setTask k (pc'.map fun pc => { task with pc := .handling ref origDt pc })))
    (houtcome : outcome = .ok ∨ outcome = .commitLost)
    (hrow : (m.powerTracking task.kind.telegramId).isSome = true)
    : RecordInv (m₁.setTask k (pc'.map fun pc => { task with pc := .handling ref origDt pc })) := by
  cases pc with
  | stateUpdate now =>
    rcases Option.isSome_iff_exists.mp hrow with ⟨row, hrow⟩
    have hm₁ : m₁ = (m.powerStateChanged task.kind.telegramId task.kind.newState now).1 ∧
        ∃ changedAt shouldNotify, pc' = some (.lookAhead now changedAt shouldNotify) := by
      unfold stepHandler stateUpdated at hstep
      rcases houtcome with rfl | rfl
      . cases hstep
        exact ⟨rfl, _, _, rfl⟩
      . cases hstep
        exact ⟨rfl, _, _, rfl⟩
    rcases hm₁ with ⟨rfl, changedAt, shouldNotify, rfl⟩
    have hopen : m.unrecorded k = some (task.kind.telegramId, task.kind.newState) := by
      rw [unrecorded_eq_some]
      exact ⟨task, hk, by rw [hpc]; rfl, rfl, rfl⟩
    apply h.of_committed hwf hopen rfl
    . unfold Monitor.history powerStateChanged setTask
      dsimp only
      rw [List.filter_cons_of_pos, List.map_cons]
      exact decide_eq_true rfl
    . intro tid hne
      unfold Monitor.history powerStateChanged setTask
      dsimp only
      rw [List.filter_cons_of_neg]
      rw [decide_eq_true_eq]
      exact hne.symm
    . unfold savedState powerStateChanged setTask
      dsimp only
      rw [Function.update_self, hrow]
      rfl
    . intro tid hne
      unfold savedState powerStateChanged setTask
      dsimp only
      rw [Function.update_of_ne hne]
    . apply unrecorded_eq_none
      intro task' htask'
      rw [show (Monitor.tasks _ k) = _ from Function.update_self _ _ _] at htask'
      cases htask'
      rfl
    . intro k' hne
      exact unrecorded_of_tasks (Function.update_of_ne hne _ _)
    . intro tid
      rfl
  | start => cases hstep
  | lookAhead now changedAt shouldNotify => cases hstep
  | send now changedAt => cases hstep
  | persistIds changedAt => cases hstep

def initialState (pc : CallPc) : Option PowerState :=
  match pc with
  | .writeInitial newState => some newState
  | _ => none

theorem savedState_editTracking_ne {m : Monitor} {tid tid' : TelegramId}
    (f : PowerTracking → PowerTracking) (h : tid' ≠ tid)
    : (m.editTracking tid f).savedState tid' = m.savedState tid' := by
  unfold savedState editTracking
  dsimp only
  rw [Function.update_of_ne h]

theorem savedState_editTracking_self (m : Monitor) (tid : TelegramId) (f : PowerTracking → PowerTracking)
    : (m.editTracking tid f).savedState tid = (m.powerTracking tid).bind fun pt => (f pt).powerState := by
  unfold savedState editTracking
  dsimp only
  rw [Function.update_self, Option.bind_map]
  rfl

theorem sameBooks_editTracking {m : Monitor} {tid : TelegramId} {f : PowerTracking → PowerTracking}
    (hf : ∀ pt, (f pt).powerState = pt.powerState) (ok : Bool)
    : SameBooks m (if ok then m.editTracking tid f else m) := by
  cases ok with
  | false => exact .of_eq rfl rfl
  | true =>
    constructor
    . rfl
    . rfl
    . intro tid'
      rw [if_pos rfl]
      by_cases htid : tid' = tid
      . subst htid
        rw [savedState_editTracking_self]
        simp only [hf]
        rfl
      . exact savedState_editTracking_ne f htid
    . exact fun hstate => hstate
    . exact fun _ => rfl

theorem recordInv_sessionDone {m m' : Monitor} {i : Nat} {ok : Bool} (h : RecordInv m) (hwf : Wf m')
    (hstep : m.stepCall i (fun m call => m.sessionDone call ok) = some m')
    (hinitial : ∀ call ∈ m.callAt i, ∀ newState ∈ initialState call.pc, ok = true →
      m.NoneOpen call.user.telegramId →
        ∀ s ∈ (m.changes call.user.telegramId).head?, s = newState) : RecordInv m' := by
  rcases stepCall_eq_some hstep with ⟨g, call, m₁, pc, hg, hcall, hf, rfl⟩
  have hinitial := hinitial call (callAt_eq_some hg hcall)
  unfold sessionDone at hf
  split at hf
  . next newState hpc =>
    cases hf
    apply h.of_books hwf
    . intro tid
      cases ok <;> rfl
    . intro tid
      cases ok <;> rfl
    . intro k
      cases ok <;> rfl
    . intro tid s hs heq
      cases ok with
      | false => exact .inl rfl
      | true =>
        by_cases htid : tid = call.user.telegramId
        . subst htid
          rw [hinitial newState (by rw [hpc]; rfl) rfl (h.noneOpen_iff.mpr heq) s hs]
          have hself := savedState_editTracking_self m call.user.telegramId fun pt => { pt with
            powerState := some newState
            powerChangedAt := some m.now }
          cases hrow : m.powerTracking call.user.telegramId with
          | none =>
            left
            refine hself.trans ?_
            unfold savedState
            rw [hrow]
            rfl
          | some pt =>
            right
            refine hself.trans ?_
            rw [hrow]
            rfl
        . exact .inl (savedState_editTracking_ne _ htid)
    . intro tid s _ state hstate
      left
      cases ok <;> exact hstate
  . cases hf
    apply h.of_same hwf
    apply SameBooks.setGroups (sameBooks_editTracking _ ok) _ _
    intro pt
    rfl
  . cases hf
    apply h.of_same hwf
    apply SameBooks.setGroups (sameBooks_editTracking _ ok) _ _
    intro pt
    rfl
  . cases hf

/-! ## Confirmations and restarts -/

/--
Whether the task confirms its change: a restored one needs its entry to wait for it.
-/
def confirms (m : Monitor) (kind : TaskKind) : Bool :=
  match kind with
  | .confirmState _ _ _ _ _ => true
  | .confirmRestored tid newState _ _ =>
    match m.userStates.lookup tid with
    | some ref => (m.heap ref).pendingState = some newState
    | none => false

/--
The task confirms on the dict of the user's entry, if there is one, or the entry has that state already.
-/
def OnEntry (m : Monitor) (kind : TaskKind) : Prop :=
  match kind with
  | .confirmState _ tid ref newState _ =>
    ∀ r ∈ m.userStates.lookup tid, r = ref ∨ (m.heap r).currentState = some newState
  | .confirmRestored _ _ _ _ => True

instance (m : Monitor) (kind : TaskKind) : Decidable (m.OnEntry kind) := by
  unfold OnEntry
  split <;> infer_instance

theorem memory_confirmEntry {m : Monitor} (m' : Monitor) {tid : TelegramId} {ref : Ref}
    {newState : PowerState} (hwf : Wf m) (howner : m.owner ref = tid) (hstates : m'.userStates = m.userStates)
    (hheap : m'.heap = (m.confirmEntry tid ref newState).heap)
    (hentry : ∀ r ∈ m.userStates.lookup tid, r = ref ∨ (m.heap r).currentState = some newState)
    : (∀ state, m'.memory tid = some state → state = some newState) ∧
        ∀ tid', tid' ≠ tid → m'.memory tid' = m.memory tid' := by
  have hself : (m'.heap ref).currentState = some newState := by
    rw [hheap]
    unfold confirmEntry modify Monitor.markDirty
    dsimp only
    rw [Function.update_self]
  have hne (r : Ref) (hr : r ≠ ref) : m'.heap r = m.heap r := by
    rw [hheap]
    exact Function.update_of_ne hr _ _
  unfold memory
  rw [hstates]
  constructor
  . intro state hstate
    rcases Option.map_eq_some_iff.mp hstate with ⟨r, hr, rfl⟩
    by_cases hrr : r = ref
    . rw [hrr]
      exact hself
    . rw [hne r hrr]
      exact (hentry r hr).resolve_left hrr
  . intro tid' htid
    cases hr : m.userStates.lookup tid' with
    | none => rfl
    | some r =>
      rw [Option.map_some, Option.map_some, hne r]
      rintro rfl
      rw [(hwf.entry hr).2] at howner
      exact htid howner

theorem RecordInv.confirmEntry {m : Monitor} {k : TaskId} {tid : TelegramId} {ref : Ref}
    {newState : PowerState} {entry : LogEntry} {task : Task} (h : RecordInv m)
    (hwf : Wf (((m.confirmEntry tid ref newState).record entry).setTask k (some task)))
    (hnone : m.NoneOpen tid) (howner : m.owner ref = tid)
    (hentry : ∀ r ∈ m.userStates.lookup tid, r = ref ∨ (m.heap r).currentState = some newState)
    (hbefore : m.unrecorded k = none) (hchange : entry.change = some (tid, newState))
    (htask : task.pc.unrecorded = true ∧ task.kind.telegramId = tid ∧ task.kind.newState = newState)
    : RecordInv (((m.confirmEntry tid ref newState).record entry).setTask k (some task)) := by
  have hearlier : m.history tid = m.changes tid := h.noneOpen_iff.mp hnone
  have hlog : (((m.confirmEntry tid ref newState).record entry).setTask k (some task)).log.filterMap
      LogEntry.change = (tid, newState) :: m.log.filterMap LogEntry.change :=
    List.filterMap_cons_some hchange
  rcases memory_confirmEntry (((m.confirmEntry tid ref newState).record entry).setTask k (some task)) h.wf
    howner rfl rfl hentry with ⟨hmemory, hmemories⟩
  refine h.of_confirmed hwf hearlier hlog rfl rfl hbefore ?_ ?_ hmemory hmemories
  . rw [unrecorded_eq_some]
    exact ⟨task, Function.update_self _ _ _, htask.1, htask.2.1, htask.2.2⟩
  . intro k' hne
    exact unrecorded_of_tasks (Function.update_of_ne hne _ _)

theorem recordInv_confirmed {m : Monitor} {k : TaskId} {task : Task} (h : RecordInv m)
    (hwf : Wf (m.confirm k task.kind)) (hk : m.tasks k = some task) (hpc : task.pc = .lock)
    (hrecords : m.confirms task.kind = true →
      m.NoneOpen task.kind.telegramId ∧ m.OnEntry task.kind)
    : RecordInv (m.confirm k task.kind) := by
  have hbefore : m.unrecorded k = none := by
    apply unrecorded_eq_none
    intro task' htask'
    rw [hk] at htask'
    cases htask'
    rw [hpc]
    rfl
  have hdropped : SameBooks m (m.setTask k none) := sameBooks_dropTask hk (by rw [hpc]; rfl)
  generalize hkind : task.kind = kind at hwf hrecords ⊢
  cases kind with
  | confirmState call tid ref newState oldState =>
    rcases hrecords rfl with ⟨hnone, hentry⟩
    have howner : m.owner ref = tid := by
      have href : task.ref = some ref := by
        unfold Task.ref
        rw [hpc, hkind]
      rw [(h.wf.taskRef hk href).2, hkind]
      rfl
    exact h.confirmEntry hwf hnone howner hentry hbefore rfl ⟨rfl, rfl, rfl⟩
  | confirmRestored tid newState oldState origDt =>
    cases hlookup : m.userStates.lookup tid with
    | none =>
      have heq : m.confirm k (.confirmRestored tid newState oldState origDt) = m.setTask k none := by
        unfold confirm
        dsimp only
        rw [hlookup]
      rw [heq] at hwf ⊢
      exact h.of_same hwf hdropped
    | some ref =>
      by_cases hpending : (m.heap ref).pendingState = some newState
      . have hconfirms : m.confirms (.confirmRestored tid newState oldState origDt) = true := by
          unfold confirms
          dsimp only
          rw [hlookup]
          exact decide_eq_true hpending
        have heq : m.confirm k (.confirmRestored tid newState oldState origDt) =
            ((m.confirmEntry tid ref newState).record
              (.restoredConfirmed tid newState m.now origDt)).setTask k (some {
                kind := .confirmRestored tid newState oldState origDt
                pc := .loadUser ref }) := by
          unfold confirm
          dsimp only
          rw [hlookup]
          dsimp only
          rw [if_pos hpending]
          rfl
        rw [heq] at hwf ⊢
        have hentry : ∀ r ∈ m.userStates.lookup tid,
            r = ref ∨ (m.heap r).currentState = some newState := by
          intro r hr
          rw [hlookup] at hr
          cases hr
          exact .inl rfl
        exact h.confirmEntry hwf (hrecords hconfirms).1 (h.wf.entry hlookup).2 hentry hbefore rfl
          ⟨rfl, rfl, rfl⟩
      . have heq : m.confirm k (.confirmRestored tid newState oldState origDt) = m.setTask k none := by
          unfold confirm
          dsimp only
          rw [hlookup]
          dsimp only
          rw [if_neg hpending]
        rw [heq] at hwf ⊢
        exact h.of_same hwf hdropped

theorem recordInv_restart {m m' : Monitor} (h : RecordInv m) (hrestart : Restart m m')
    (hnone : ∀ k < m.nextTask, m.unrecorded k = none)
    (hrows : ∀ row ∈ getRecentUserPowerStates m.userPowerStates m.now,
      ∀ s ∈ (m.changes row.1).head?, row.2.fields.currentState = some s) : RecordInv m' := by
  have hlog : m'.log = m.log := by rw [hrestart.rest]
  have hchanges := changes_of_log (congrArg (List.filterMap LogEntry.change) hlog)
  have hhistory := history_of_powerHistory (show m'.powerHistory = m.powerHistory by rw [hrestart.rest])
  have hsaved := savedState_of_tracking (show m'.powerTracking = m.powerTracking by rw [hrestart.rest])
  have hrestarted (k : TaskId) : m'.unrecorded k = none := by
    apply unrecorded_eq_none
    intro task htask
    rcases (hrestart.tasks htask).2.2 with ⟨_, _, _, _, _, _, _, _, _, rfl⟩
    rfl
  have heq (tid : TelegramId) : m.history tid = m.changes tid := by
    rw [← h.noneOpen_iff]
    intro k hk
    rw [hnone k hk]
    nofun
  constructor
  . exact h.wf.of_restart hrestart
  . intro k k' tid s s' hk
    rw [hrestarted] at hk
    cases hk
  . intro k tid s hk
    rw [hrestarted] at hk
    cases hk
  . intro tid _
    rw [hhistory, hchanges]
    exact heq tid
  . intro tid s _ hs
    rw [hchanges] at hs
    rw [hsaved]
    exact h.saved (heq tid) hs
  . intro tid s state hs hstate
    rw [hchanges] at hs
    rcases Option.map_eq_some_iff.mp hstate with ⟨ref, href, rfl⟩
    rcases (hrestart.entry href).2.2 with ⟨row, hrow, hheap⟩
    rw [hheap]
    exact hrows _ hrow s hs

/-! ## All steps -/

def seedOf (call : Call) : Option PowerState :=
  match call.pc with
  | .lock isAvailable => some (seed call.user (.ofAvailable isAvailable))
  | _ => none

/--
A change is confirmed on the user's entry, and while no earlier one of the user is still in front of the end
of its first session; that session commits, before the timeout and with no restart in between; and where a
dict is seeded or restored, or an initial state written, that is the state of the user's latest change.
-/
def Records (m : Monitor) (e : Event) : Prop :=
  match e with
  | .observed i =>
    ∀ call ∈ m.callAt i, ∀ seeded ∈ seedOf call,
      (m.entryOf call.user.telegramId).isFirstCheck = true →
        ∀ s ∈ (m.changes call.user.telegramId).head?, seeded = s
  | .sessionDone i ok =>
    ∀ call ∈ m.callAt i, ∀ newState ∈ initialState call.pc, ok = true →
      m.NoneOpen call.user.telegramId →
        ∀ s ∈ (m.changes call.user.telegramId).head?, s = newState
  | .confirmed k =>
    ∀ task ∈ m.tasks k, m.confirms task.kind = true →
      m.NoneOpen task.kind.telegramId ∧ m.OnEntry task.kind
  | .userReloaded _ found => found = true
  | .handler k (.stateUpdated outcome) =>
    (outcome = .ok ∨ outcome = .commitLost) ∧
      ∀ task ∈ m.tasks k, (m.powerTracking task.kind.telegramId).isSome = true
  | .handlerTimedOut k => ∀ task ∈ m.tasks k, task.pc.unrecorded = false
  | .restarted _ =>
    (∀ k < m.nextTask, m.unrecorded k = none) ∧
      ∀ row ∈ getRecentUserPowerStates m.userPowerStates m.now,
        ∀ s ∈ (m.changes row.1).head?, row.2.fields.currentState = some s
  | _ => True

instance : DecidableRel Records := by
  intro m e
  unfold Records
  split <;> infer_instance

theorem recordInv_observed {m m' : Monitor} {i : Nat} (h : RecordInv m) (hwf : Wf m')
    (hstep : m.stepCall i observeCall = some m') (hrecords : Records m (.observed i)) : RecordInv m' := by
  rcases books_observed h.wf hstep with ⟨call, isAvailable, hcall, hpc, hlog, hhistory, htracking,
    hunrecorded, hmemories, hmemory⟩
  apply h.of_books hwf (changes_of_log hlog) (history_of_powerHistory hhistory) hunrecorded
  . intro tid s _ _
    exact .inl (savedState_of_tracking htracking tid)
  . intro tid s hs state hstate
    by_cases htid : tid = call.user.telegramId
    . subst htid
      rw [hmemory] at hstate
      split at hstate
      . next hfirst =>
        right
        cases hstate
        have hseed : seedOf call = some (seed call.user (.ofAvailable isAvailable)) := by
          unfold seedOf
          rw [hpc]
        exact congrArg some (hrecords call hcall _ hseed hfirst s hs)
      . next hfirst =>
        left
        unfold entryOf at hfirst hstate
        unfold Monitor.memory
        cases hlookup : m.userStates.lookup call.user.telegramId with
        | none =>
          rw [hlookup] at hfirst
          exact absurd rfl hfirst
        | some ref =>
          rw [hlookup] at hstate
          exact hstate
    . rw [hmemories tid htid] at hstate
      exact .inl hstate

theorem recordInv_step {cfg : Settings} {m m' : Monitor} {e : Event} (h : RecordInv m)
    (hrecords : Records m e) (hstep : m.step cfg e = some m') : RecordInv m' := by
  have hwf : Wf m' := wf_step h.wf hstep
  cases e with
  | tick _ | cycleStarted | batchLoaded _ | loadFailed | pinged _ _ | pingRaised _ | callStarted _
  | cycleEnded | cycleCancelled =>
    rcases step_inCycle rfl hstep with ⟨_, _, _, _, rfl⟩
    exact h.of_same hwf (.of_eq rfl rfl)
  | inactiveEvicted =>
    rcases stepCycle_inactiveEvicted hstep with ⟨users, _, rfl⟩
    apply h.of_same hwf
    exact (sameBooks_evicted h.wf (evicted_evict m _)).setGroups _ (m.evictInactive users).groups
  | staleEvicted =>
    rcases stepCycle_staleEvicted hstep with ⟨users, _, rfl⟩
    apply h.of_same hwf
    exact (sameBooks_evicted h.wf (evicted_evict m _)).setGroups _ _
  | observed i => exact recordInv_observed h hwf hstep hrecords
  | sessionDone i ok => exact recordInv_sessionDone h hwf hstep hrecords
  | debounceRead i val => exact h.of_same hwf (sameBooks_debounceRead hstep)
  | taskStored i =>
    rcases step_taskStored hstep with ⟨_, _, _, _, _, _, _, hstored⟩
    exact h.of_same hwf (sameBooks_taskStored h.wf hstored)
  | woken k =>
    rcases step_woken hstep with ⟨task, wakeAt, hk, hpc, _, rfl⟩
    exact h.of_same hwf (sameBooks_moveTask hk (by rw [hpc]; rfl))
  | confirmed k =>
    rcases step_confirmed hstep with ⟨task, hk, hpc, rfl⟩
    exact recordInv_confirmed h hwf hk hpc (hrecords task hk)
  | userReloaded k found =>
    rcases step_userReloaded hstep with ⟨task, ref, _, _, _, origDt, hk, hpc, _, rfl⟩
    cases hrecords
    exact h.of_same hwf (sameBooks_moveTask hk (by rw [hpc]; rfl))
  | handler k e =>
    rcases step_handler hstep with ⟨task, ref, origDt, pc, m₁, pc', hk, hpc, hhandler, rfl⟩
    cases e with
    | stateUpdated outcome =>
      exact recordInv_stateUpdated h hk hpc hhandler hwf hrecords.1 (hrecords.2 task hk)
    | start => exact h.of_same hwf (sameBooks_handler hk hpc hhandler nofun)
    | scheduleFetched => exact h.of_same hwf (sameBooks_handler hk hpc hhandler nofun)
    | sent => exact h.of_same hwf (sameBooks_handler hk hpc hhandler nofun)
    | sendRaised => exact h.of_same hwf (sameBooks_handler hk hpc hhandler nofun)
    | idsPersisted => exact h.of_same hwf (sameBooks_handler hk hpc hhandler nofun)
  | handlerTimedOut k =>
    rcases step_handlerTimedOut hstep with ⟨task, _, _, _, hk, _, rfl⟩
    exact h.of_same hwf (sameBooks_dropTask hk (hrecords task hk))
  | flushStarted | flushCommitted _ _ | flushCleared _ | flushAborted _ =>
    rcases step_inFlush rfl hstep with ⟨_, _, _, rfl⟩
    exact h.of_same hwf (.of_eq rfl rfl)
  | restarted val =>
    cases hstep
    exact recordInv_restart h (restart_restarted m val) hrecords.1 hrecords.2

theorem recordInv_initial (now : Time) (rows : AList (fun _ : TelegramId => UserPowerStateRow))
    (tracking : TelegramId → Option PowerTracking) (val : Option (Option Int))
    : RecordInv (initial now rows tracking val) := by
  have hempty : RecordInv { now := now, userPowerStates := rows, powerTracking := tracking } := by
    constructor
    . exact wf_empty now rows tracking
    . intro k k' tid s s' hk
      cases hk
    . intro k tid s hk
      cases hk
    . intro tid _
      rfl
    . intro tid s _ hs
      cases hs
    . intro tid s state hs
      cases hs
  apply recordInv_restart hempty (restart_restarted _ val)
  . intro k hk
    cases hk
  . intro row _ s hs
    cases hs

/--
In a run whose steps record what they confirm, every change of every user is in the database before the
next one is confirmed, and the entries agree with it while no change is handled.
-/
theorem changes_recorded {cfg : Settings} {now : Time}
    {rows : AList (fun _ : TelegramId => UserPowerStateRow)}
    {tracking : TelegramId → Option PowerTracking} {val : Option (Option Int)} {es : List Event}
    (hrecords : Run.StepsMeet (step cfg) Records (initial now rows tracking val) es)
    : Run.Always (step cfg) (fun m => ∀ tid, m.Recorded tid) (initial now rows tracking val) es := by
  apply Run.always_of_stepsMeet (I := RecordInv) (C := Records)
  . intro m m' e h hrecords hstep
    exact recordInv_step h hrecords hstep
  . intro m h tid
    exact h.recorded tid
  . exact recordInv_initial now rows tracking val
  . exact hrecords

def trackedOn : TelegramId → Option PowerTracking :=
  fun _ => some { powerState := some .on, powerChangedAt := some 0 }

def confirmedOutage : List Event := outageRun ++ [.confirmed 0, .handler 0 .start]

def recordedOutage : List Event := confirmedOutage ++ [
  .handler 0 (.stateUpdated .ok),
  .handler 0 .scheduleFetched,
  .handler 0 .sent,
  .handler 0 .idsPersisted]

theorem changes_recorded_recordedOutage
    : Run.Always (step {}) (fun m => ∀ tid, m.Recorded tid)
        (initial 0 (savedOn "777") trackedOn none) recordedOutage :=
  changes_recorded (by decide +kernel)

def unrecordedOutage : List Event := confirmedOutage ++ [
  .handler 0 (.stateUpdated .commitFailed),
  .handler 0 .scheduleFetched,
  .handler 0 .sent,
  .handler 0 .idsPersisted]

theorem not_changes_recorded_unrecordedOutage
    : ∃ m, Run.exec (step {}) (initial 0 (savedOn "777") trackedOn none) unrecordedOutage = some m ∧
        m.changes "777" = [.off] ∧ m.history "777" = [] ∧ m.memory "777" = some (some .off) ∧
        m.savedState "777" = some .on ∧ ¬ m.Recorded "777" := by
  have hbooks : (Run.exec (step {}) (initial 0 (savedOn "777") trackedOn none) unrecordedOutage).map
      (fun m => (m.changes "777", m.history "777", m.memory "777", m.savedState "777")) =
      some ([.off], [], some (some .off), some .on) := by
    decide +kernel
  have htasks : (Run.exec (step {}) (initial 0 (savedOn "777") trackedOn none) unrecordedOutage).map
      (fun m => (m.nextTask, (m.tasks 0).isNone)) = some (1, true) := by
    decide +kernel
  rcases Option.map_eq_some_iff.mp hbooks with ⟨m, hrun, hm⟩
  rw [hrun, Option.map_some, Option.some.injEq] at htasks
  simp only [Prod.mk.injEq] at hm htasks
  rcases hm with ⟨hchanges, hhistory, hmemory, hsaved⟩
  rcases htasks with ⟨hnext, htask⟩
  refine ⟨m, hrun, hchanges, hhistory, hmemory, hsaved, ?_⟩
  intro hrecorded
  rcases hrecorded.history with heq | ⟨⟨k, task, hk, _⟩, _⟩
  . rw [hchanges, hhistory] at heq
    cases heq
  . have hwf : Wf m := Run.invariant' wf_step (wf_initial 0 (savedOn "777") trackedOn none) hrun
    have hlt := hwf.task (k := k) (by rw [hk]; exact Option.some_ne_none task)
    rw [hnext, Nat.lt_one_iff] at hlt
    rw [hlt] at hk
    rw [hk] at htask
    cases htask

end Monitor
end PowerMonitor
