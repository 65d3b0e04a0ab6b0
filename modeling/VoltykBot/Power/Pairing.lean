import VoltykBot.Power.Restart

/-!
This module contains the invariant that ties debounce tasks to the dicts they are stored in, and the
theorem that says exactly when every pending state keeps a live debounce task.
-/

namespace PowerMonitor
namespace Monitor

structure Stored (m : Monitor) (ref : Ref) (task : Task) : Prop where
  unconfirmed : task.pc.unconfirmed = true
  bound : ref < m.nextRef
  owner : m.owner ref = task.kind.telegramId
  target : ∀ {call tid ref' newState oldState},
    task.kind = .confirmState call tid ref' newState oldState → ref' = ref
  restored : ∀ {tid newState oldState origDt},
    task.kind = .confirmRestored tid newState oldState origDt →
      m.userStates.lookup tid = some ref ∧ (m.heap ref).pendingState = some newState

structure Wf (m : Monitor) : Prop where
  entry : ∀ {tid ref}, m.userStates.lookup tid = some ref → ref < m.nextRef ∧ m.owner ref = tid
  window : ∀ {i w}, m.windowAt i = some w → w.ref < m.nextRef ∧ m.owner w.ref = w.telegramId
  taskRef : ∀ {k task ref}, m.tasks k = some task → task.ref = some ref →
    ref < m.nextRef ∧ m.owner ref = task.kind.telegramId
  task : ∀ {k}, m.tasks k ≠ none → k < m.nextTask
  debounceTask : ∀ {ref k}, (m.heap ref).debounceTask = some k → k < m.nextTask
  stored : ∀ {ref k task}, (m.heap ref).debounceTask = some k → m.tasks k = some task →
    Stored m ref task
  idle : Idle m

/-- `debounce_task` of `ref` is not done. -/
def Live (m : Monitor) (ref : Ref) : Prop :=
  ∃ k, (m.heap ref).debounceTask = some k ∧ m.tasks k ≠ none

def Paired (m : Monitor) : Prop :=
  ∀ tid ref, m.userStates.lookup tid = some ref → (m.heap ref).pendingState ≠ none →
    Live m ref ∨ ∃ i w, m.windowAt i = some w ∧ w.ref = ref

theorem Kept.debounceTask {m m' : Monitor} (h : Kept m m') (ref : Ref)
    : (m'.heap ref).debounceTask = (m.heap ref).debounceTask :=
  congrArg UserState.PendingPart.debounceTask (h.pendingPart ref)

theorem Kept.pendingState {m m' : Monitor} (h : Kept m m') (ref : Ref)
    : (m'.heap ref).pendingState = (m.heap ref).pendingState :=
  congrArg UserState.PendingPart.pendingState (h.pendingPart ref)

theorem Kept.originalChangeTime {m m' : Monitor} (h : Kept m m') (ref : Ref)
    : (m'.heap ref).originalChangeTime = (m.heap ref).originalChangeTime :=
  congrArg UserState.PendingPart.originalChangeTime (h.pendingPart ref)

theorem Kept.tasks_stored {m m' : Monitor} (h : Kept m m') (hwf : Wf m) {ref : Ref} {k : TaskId}
    (hk : (m.heap ref).debounceTask = some k) : m'.tasks k = m.tasks k := by
  cases h.tasks k with
  | inl hsame => exact hsame
  | inr hmoved =>
    obtain ⟨task, htask, hconfirmed, _⟩ := hmoved
    have hunconfirmed := (hwf.stored hk htask).unconfirmed
    rw [hconfirmed] at hunconfirmed
    cases hunconfirmed

theorem Stored.of_eq {m m' : Monitor} {ref : Ref} {task : Task} (h : Stored m ref task)
    (hstates : m'.userStates = m.userStates) (howner : m'.owner = m.owner)
    (hnextRef : m'.nextRef = m.nextRef)
    (hpending : (m'.heap ref).pendingState = (m.heap ref).pendingState) : Stored m' ref task where
  unconfirmed := h.unconfirmed
  bound := by rw [hnextRef]; exact h.bound
  owner := by rw [howner, h.owner]
  target := h.target
  restored hkind := by
    rw [hstates, hpending]
    exact h.restored hkind

theorem Wf.of_kept {m m' : Monitor} (hwf : Wf m) (h : Kept m m') : Wf m' where
  entry href := by
    rw [h.userStates] at href
    rw [h.nextRef, h.owner]
    exact hwf.entry href
  window hw := by
    rw [h.windowAt] at hw
    rw [h.nextRef, h.owner]
    exact hwf.window hw
  taskRef {k task ref} hk href := by
    rw [h.nextRef, h.owner]
    cases h.tasks k with
    | inl hsame => exact hwf.taskRef (hsame ▸ hk) href
    | inr hmoved =>
      obtain ⟨task₀, htask₀, _, hnext⟩ := hmoved
      obtain ⟨hkind, _, href₀⟩ := hnext task hk
      rw [hkind]
      exact hwf.taskRef htask₀ (href₀ ▸ href)
  task {k} hk := by
    rw [h.nextTask]
    cases h.tasks k with
    | inl hsame => exact hwf.task (hsame ▸ hk)
    | inr hmoved =>
      obtain ⟨task₀, htask₀, _⟩ := hmoved
      exact hwf.task (by rw [htask₀]; exact Option.some_ne_none _)
  debounceTask {ref k} hk := by
    rw [h.debounceTask] at hk
    rw [h.nextTask]
    exact hwf.debounceTask hk
  stored {ref k task} hk htask := by
    rw [h.debounceTask] at hk
    rw [h.tasks_stored hwf hk] at htask
    exact (hwf.stored hk htask).of_eq h.userStates h.owner h.nextRef (h.pendingState ref)
  idle := h.idle hwf.idle

theorem Paired.of_kept {m m' : Monitor} (hpaired : Paired m) (hwf : Wf m) (h : Kept m m')
    : Paired m' := by
  intro tid ref href hpending
  rw [h.userStates] at href
  rw [h.pendingState] at hpending
  cases hpaired _ _ href hpending with
  | inl hlive =>
    obtain ⟨k, hk, hlive⟩ := hlive
    exact .inl ⟨k, by rw [h.debounceTask, hk], by rwa [h.tasks_stored hwf hk]⟩
  | inr hwindow =>
    obtain ⟨i, w, hw, hwref⟩ := hwindow
    exact .inr ⟨i, w, by rw [h.windowAt, hw], hwref⟩

/-! ## Creating an entry -/

theorem windowAt_of_groups {m m' : Monitor} (h : m'.groups = m.groups) (i : Nat)
    : m'.windowAt i = m.windowAt i := by
  rw [windowAt, windowAt, callAt, callAt, h]

theorem Entered.windowAt {m m' : Monitor} {tid : TelegramId} {ref : Ref}
    (h : Entered m m' tid ref) (i : Nat) : m'.windowAt i = m.windowAt i :=
  windowAt_of_groups h.groups i

theorem lookup_createEntry_ne {m : Monitor} {tid tid' : TelegramId} (st : UserState)
    (h : tid' ≠ tid)
    : (m.createEntry tid st).userStates.lookup tid' = m.userStates.lookup tid' :=
  AList.lookup_insert_ne h

theorem heap_createEntry {m : Monitor} (tid : TelegramId) (st : UserState) {ref : Ref}
    (h : ref < m.nextRef) : (m.createEntry tid st).heap ref = m.heap ref := by
  simp [createEntry, Nat.ne_of_lt h]

theorem owner_createEntry {m : Monitor} {tid : TelegramId} {st : UserState} {ref : Ref}
    (h : ref < m.nextRef) : (m.createEntry tid st).owner ref = m.owner ref := by
  simp [createEntry, Nat.ne_of_lt h]

theorem Wf.of_createEntry {m : Monitor} {tid : TelegramId} (hwf : Wf m)
    (hnone : m.userStates.lookup tid = none) : Wf (m.createEntry tid {}) := by
  have hlt {ref : Ref} (href : ref < m.nextRef) : ref < (m.createEntry tid {}).nextRef :=
    Nat.lt_succ_of_lt href
  have hheap (ref : Ref)
      : (ref = m.nextRef ∧ (m.createEntry tid {}).heap ref = {}) ∨
          (m.createEntry tid {}).heap ref = m.heap ref := by
    by_cases href : ref = m.nextRef
    . exact .inl ⟨href, by simp [createEntry, href]⟩
    . exact .inr (by simp [createEntry, href])
  constructor
  case entry =>
    intro tid' ref href
    by_cases htid : tid' = tid
    . subst htid
      obtain rfl : m.nextRef = ref := by simpa [createEntry] using href
      exact ⟨Nat.lt_succ_self _, by simp [createEntry]⟩
    . rw [lookup_createEntry_ne _ htid] at href
      obtain ⟨hbound, howner⟩ := hwf.entry href
      exact ⟨hlt hbound, by rw [owner_createEntry hbound, howner]⟩
  case window =>
    intro i w hw
    obtain ⟨hbound, howner⟩ := hwf.window (i := i) (w := w) hw
    exact ⟨hlt hbound, by rw [owner_createEntry hbound, howner]⟩
  case taskRef =>
    intro k task ref hk href
    obtain ⟨hbound, howner⟩ := hwf.taskRef hk href
    exact ⟨hlt hbound, by rw [owner_createEntry hbound, howner]⟩
  case task =>
    intro k hk
    exact hwf.task hk
  case debounceTask =>
    intro ref k hk
    cases hheap ref with
    | inl hnew => rw [hnew.2] at hk; cases hk
    | inr hsame => exact hwf.debounceTask (hsame ▸ hk)
  case stored =>
    intro ref k task hk htask
    cases hheap ref with
    | inl hnew => rw [hnew.2] at hk; cases hk
    | inr hsame =>
      have hstored := hwf.stored (hsame ▸ hk) htask
      refine { hstored with bound := hlt hstored.bound, owner := ?_, restored := ?_ }
      . rw [owner_createEntry hstored.bound, hstored.owner]
      . intro tid' newState oldState origDt hkind
        obtain ⟨hlookup, hpending⟩ := hstored.restored hkind
        have htid : tid' ≠ tid := by
          rintro rfl
          rw [hnone] at hlookup
          cases hlookup
        rw [lookup_createEntry_ne _ htid, heap_createEntry _ _ hstored.bound]
        exact ⟨hlookup, hpending⟩
  case idle => exact hwf.idle

theorem Paired.of_createEntry {m : Monitor} {tid : TelegramId} (hpaired : Paired m) (hwf : Wf m)
    : Paired (m.createEntry tid {}) := by
  intro tid' ref href hpending
  by_cases htid : tid' = tid
  . subst htid
    obtain rfl : m.nextRef = ref := by simpa [createEntry] using href
    simp [createEntry] at hpending
  . rw [lookup_createEntry_ne _ htid] at href
    have hbound := (hwf.entry href).1
    rw [heap_createEntry _ _ hbound] at hpending
    refine (hpaired _ _ href hpending).imp_left ?_
    rintro ⟨k, hk, hlive⟩
    exact ⟨k, by rw [heap_createEntry _ _ hbound, hk], hlive⟩

theorem Wf.of_entered {m m' : Monitor} {tid : TelegramId} {ref : Ref} (hwf : Wf m)
    (h : Entered m m' tid ref) : Wf m' := by
  obtain rfl | ⟨hnone, _, rfl⟩ := h.cases
  . exact hwf
  . exact { hwf.of_createEntry hnone with
      stored := fun hk htask => { (hwf.of_createEntry hnone).stored hk htask with } }

theorem Paired.of_entered {m m' : Monitor} {tid : TelegramId} {ref : Ref} (hpaired : Paired m)
    (hwf : Wf m) (h : Entered m m' tid ref) : Paired m' := by
  obtain rfl | ⟨_, _, rfl⟩ := h.cases
  . exact hpaired
  . exact hpaired.of_createEntry hwf

/-! ## An observation -/

theorem Reset.tasks_of_ne {m m' : Monitor} {ref r : Ref} {k : TaskId}
    {pendingState : Option PowerState} {originalChangeTime : Option Time}
    (h : Reset m m' ref pendingState originalChangeTime) (hwf : Wf m) {tid tid' : TelegramId}
    (href : m.userStates.lookup tid = some ref) (hr : m.userStates.lookup tid' = some r)
    (hne : r ≠ ref) (hk : (m.heap r).debounceTask = some k) : m'.tasks k = m.tasks k := by
  cases htask : m.tasks k with
  | none =>
    by_cases hboth : (m.heap ref).debounceTask = some k
    . exact h.gone hboth
    . rw [h.kept hboth, htask]
  | some task =>
    rw [h.kept ?_, htask]
    intro hboth
    have howner := (hwf.stored hk htask).owner
    have howner' := (hwf.stored hboth htask).owner
    rw [(hwf.entry hr).2] at howner
    rw [(hwf.entry href).2] at howner'
    rw [howner, ← howner', href] at hr
    exact hne (Option.some.inj hr).symm

theorem Wf.of_reset {m m' : Monitor} {ref : Ref}
    {pendingState : Option PowerState} {originalChangeTime : Option Time} (hwf : Wf m)
    (h : Reset m m' ref pendingState originalChangeTime)
    (hwindow : ∀ {i w}, m'.windowAt i = some w → w.ref < m.nextRef ∧ m.owner w.ref = w.telegramId)
    (hidle : Idle m') : Wf m' := by
  have htasks {k : TaskId} (hk : m'.tasks k ≠ none) : m'.tasks k = m.tasks k := by
    by_cases hstored : (m.heap ref).debounceTask = some k
    . exact absurd (h.gone hstored) hk
    . exact h.kept hstored
  constructor
  case entry =>
    rw [h.userStates, h.nextRef, h.owner]
    exact hwf.entry
  case window =>
    rw [h.nextRef, h.owner]
    exact hwindow
  case taskRef =>
    intro k task r hk hr
    rw [htasks (by rw [hk]; exact Option.some_ne_none _)] at hk
    rw [h.nextRef, h.owner]
    exact hwf.taskRef hk hr
  case task =>
    intro k hk
    rw [h.nextTask]
    exact hwf.task (htasks hk ▸ hk)
  case debounceTask =>
    intro r k hk
    rw [h.nextTask]
    by_cases hr : r = ref
    . subst hr
      exact hwf.debounceTask (h.debounceTask hk)
    . rw [h.heap_ne hr] at hk
      exact hwf.debounceTask hk
  case stored =>
    intro r k task hk htask
    by_cases hr : r = ref
    . subst hr
      rw [h.gone (h.debounceTask hk)] at htask
      cases htask
    . have hheap := h.heap_ne hr
      rw [hheap] at hk
      rw [htasks (by rw [htask]; exact Option.some_ne_none _)] at htask
      exact (hwf.stored hk htask).of_eq h.userStates h.owner h.nextRef (by rw [hheap])
  case idle => exact hidle

theorem Paired.of_reset {m m' : Monitor} {tid : TelegramId} {ref : Ref}
    {pendingState : Option PowerState} {originalChangeTime : Option Time} (hpaired : Paired m)
    (hwf : Wf m) (href : m.userStates.lookup tid = some ref)
    (h : Reset m m' ref pendingState originalChangeTime)
    (hwindow : ∀ {i w}, m.windowAt i = some w → m'.windowAt i = some w)
    (hself : pendingState = none ∨ ∃ i w, m'.windowAt i = some w ∧ w.ref = ref) : Paired m' := by
  intro tid' r hr hpending
  rw [h.userStates] at hr
  by_cases hne : r = ref
  . subst hne
    rw [h.pendingState] at hpending
    exact .inr (hself.resolve_left hpending)
  . have hheap := h.heap_ne hne
    rw [hheap] at hpending
    refine (hpaired _ _ hr hpending).imp ?_ ?_
    . rintro ⟨k, hk, hlive⟩
      exact ⟨k, by rw [hheap, hk], by rwa [h.tasks_of_ne hwf href hr hne hk]⟩
    . rintro ⟨i, w, hw, hwref⟩
      exact ⟨i, w, hwindow hw, hwref⟩

theorem callAt_of_windowAt {m : Monitor} {i : Nat} {w : Window} (hw : m.windowAt i = some w)
    : ∃ call, m.callAt i = some call ∧ call.user.telegramId = w.telegramId := by
  obtain ⟨call, hcall, hwindow⟩ := Option.bind_eq_some_iff.mp hw
  obtain ⟨_, _, rfl⟩ := Option.map_eq_some_iff.mp hwindow
  exact ⟨call, hcall, rfl⟩

theorem windowAt_of_lock {m : Monitor} {i : Nat} {call : Call} {isAvailable : Bool}
    (hcall : m.callAt i = some call) (hlock : call.pc = .lock isAvailable)
    : m.windowAt i = none := by
  simp [windowAt, hcall, Call.window, hlock, CallPc.window]

theorem Kept.of_record {m m' : Monitor} {entry : LogEntry} (h : Kept (m.record entry) m')
    : Kept m m' :=
  { h with }

theorem Wf.setLog {m : Monitor} (hwf : Wf m) (log : List LogEntry) : Wf { m with log := log } :=
  { hwf with stored := fun hk htask => { hwf.stored hk htask with } }

theorem wf_observation {m m' : Monitor} {i : Nat} {call : Call} {ref : Ref} {newState : PowerState}
    (hwf : Wf m) (href : m.userStates.lookup call.user.telegramId = some ref)
    (h : Observation m m' i call ref newState) : Wf m' := by
  cases h with
  | kept _ frame => exact hwf.of_kept frame.toKept.of_record
  | flapping _ reset windowAt idle _ =>
    refine (hwf.setLog _).of_reset reset ?_ (idle hwf.idle)
    intro i w hw
    exact hwf.window (windowAt i ▸ hw)
  | newPending _ reset windowAt_self windowAt_ne idle _ =>
    refine (hwf.setLog _).of_reset reset ?_ (idle hwf.idle)
    intro j w hw
    by_cases hj : j = i
    . subst hj
      obtain rfl := Option.some.inj (windowAt_self.symm.trans hw)
      exact hwf.entry href
    . exact hwf.window (windowAt_ne j hj ▸ hw)

theorem paired_observation {m m' : Monitor} {i : Nat} {call : Call} {ref : Ref}
    {newState : PowerState} (hpaired : Paired m) (hwf : Wf m)
    (href : m.userStates.lookup call.user.telegramId = some ref) (hnone : m.windowAt i = none)
    (h : Observation m m' i call ref newState) : Paired m' := by
  cases h with
  | kept _ frame => exact hpaired.of_kept hwf frame.toKept.of_record
  | flapping _ reset windowAt _ _ =>
    refine Paired.of_reset (m := m.record _) hpaired (hwf.setLog _) href reset ?_ (.inl rfl)
    intro i w hw
    exact (windowAt i).trans hw
  | newPending _ reset windowAt_self windowAt_ne _ _ =>
    refine Paired.of_reset (m := m.record _) hpaired (hwf.setLog _) href reset ?_ ?_
    . intro j w hw
      by_cases hj : j = i
      . subst hj
        cases hnone.symm.trans hw
      . exact (windowAt_ne j hj).trans hw
    . exact .inr ⟨i, _, windowAt_self, rfl⟩

/-! ## Storing the task, waking up and confirming -/

theorem TaskStored.tasks_self {m m' : Monitor} {i : Nat} {call : Call} {ref : Ref}
    {newState : PowerState} {oldState : Option PowerState} {debounceS : Int}
    (h : TaskStored m m' i call ref newState oldState debounceS)
    : m'.tasks m.nextTask = some {
        kind := .confirmState call.id call.user.telegramId ref newState oldState
        pc := .sleeping (m.now + seconds debounceS) } := by
  rw [h.eq]
  simp [createDebounceTask, modify, setTask]

theorem TaskStored.tasks_ne {m m' : Monitor} {i : Nat} {call : Call} {ref : Ref}
    {newState : PowerState} {oldState : Option PowerState} {debounceS : Int}
    (h : TaskStored m m' i call ref newState oldState debounceS) {k : TaskId}
    (hk : k ≠ m.nextTask) : m'.tasks k = m.tasks k := by
  rw [h.eq]
  simp [createDebounceTask, modify, setTask, hk]

theorem TaskStored.heap_self {m m' : Monitor} {i : Nat} {call : Call} {ref : Ref}
    {newState : PowerState} {oldState : Option PowerState} {debounceS : Int}
    (h : TaskStored m m' i call ref newState oldState debounceS)
    : m'.heap ref = { m.heap ref with debounceTask := some m.nextTask } := by
  rw [h.eq]
  simp [createDebounceTask, modify, setTask]

theorem TaskStored.heap_ne {m m' : Monitor} {i : Nat} {call : Call} {ref r : Ref}
    {newState : PowerState} {oldState : Option PowerState} {debounceS : Int}
    (h : TaskStored m m' i call ref newState oldState debounceS) (hr : r ≠ ref)
    : m'.heap r = m.heap r := by
  rw [h.eq]
  simp [createDebounceTask, modify, setTask, hr]

theorem TaskStored.rest {m m' : Monitor} {i : Nat} {call : Call} {ref : Ref}
    {newState : PowerState} {oldState : Option PowerState} {debounceS : Int}
    (h : TaskStored m m' i call ref newState oldState debounceS)
    : m' = { m with
        heap := m'.heap, tasks := m'.tasks, groups := m'.groups, nextTask := m.nextTask + 1 } := by
  rw [h.eq]
  rfl

theorem wf_taskStored {m m' : Monitor} {i : Nat} {call : Call} {ref : Ref} {newState : PowerState}
    {oldState : Option PowerState} {debounceS : Int} (hwf : Wf m) (hcall : m.callAt i = some call)
    (hpc : call.pc = .storeTask ref newState oldState debounceS)
    (h : TaskStored m m' i call ref newState oldState debounceS) : Wf m' := by
  obtain ⟨hbound, howner⟩ := hwf.window (windowAt_of_storeTask hcall hpc)
  have hstates : m'.userStates = m.userStates := by rw [h.rest]
  have howner' : m'.owner = m.owner := by rw [h.rest]
  have hnextRef : m'.nextRef = m.nextRef := by rw [h.rest]
  have hnextTask : m'.nextTask = m.nextTask + 1 := by rw [h.rest]
  constructor
  case entry =>
    rw [hstates, hnextRef, howner']
    exact hwf.entry
  case window =>
    intro j w hw
    rw [hnextRef, howner']
    by_cases hj : j = i
    . subst hj
      cases h.windowAt_self.symm.trans hw
    . exact hwf.window (h.windowAt_ne hj ▸ hw)
  case taskRef =>
    intro k task r hk hr
    rw [hnextRef, howner']
    by_cases hnew : k = m.nextTask
    . subst hnew
      obtain rfl := Option.some.inj (h.tasks_self.symm.trans hk)
      obtain rfl : ref = r := Option.some.inj hr
      exact ⟨hbound, howner⟩
    . exact hwf.taskRef (h.tasks_ne hnew ▸ hk) hr
  case task =>
    intro k hk
    rw [hnextTask]
    by_cases hnew : k = m.nextTask
    . exact hnew ▸ Nat.lt_succ_self _
    . exact Nat.lt_succ_of_lt (hwf.task (h.tasks_ne hnew ▸ hk))
  case debounceTask =>
    intro r k hk
    rw [hnextTask]
    by_cases hr : r = ref
    . subst hr
      rw [h.heap_self] at hk
      exact Option.some.inj hk ▸ Nat.lt_succ_self _
    . exact Nat.lt_succ_of_lt (hwf.debounceTask (h.heap_ne hr ▸ hk))
  case stored =>
    intro r k task hk htask
    by_cases hr : r = ref
    . subst hr
      rw [h.heap_self] at hk
      obtain rfl : m.nextTask = k := Option.some.inj hk
      obtain rfl := Option.some.inj (h.tasks_self.symm.trans htask)
      exact {
        unconfirmed := rfl
        bound := by rw [hnextRef]; exact hbound
        owner := by rw [howner']; exact howner
        target := by
          intro _ _ _ _ _ hkind
          cases hkind
          rfl
        restored := nofun }
    . have hheap := h.heap_ne hr
      rw [hheap] at hk
      have hne : k ≠ m.nextTask := Nat.ne_of_lt (hwf.debounceTask hk)
      rw [h.tasks_ne hne] at htask
      exact (hwf.stored hk htask).of_eq hstates howner' hnextRef (by rw [hheap])
  case idle => exact h.idle hwf.idle

theorem paired_taskStored {m m' : Monitor} {i : Nat} {call : Call} {ref : Ref}
    {newState : PowerState} {oldState : Option PowerState} {debounceS : Int} (hpaired : Paired m)
    (hwf : Wf m) (hcall : m.callAt i = some call)
    (hpc : call.pc = .storeTask ref newState oldState debounceS)
    (h : TaskStored m m' i call ref newState oldState debounceS) : Paired m' := by
  intro tid r hr hpending
  rw [h.rest] at hr
  by_cases hne : r = ref
  . subst hne
    exact .inl ⟨m.nextTask, by rw [h.heap_self], by rw [h.tasks_self]; exact Option.some_ne_none _⟩
  . have hheap := h.heap_ne hne
    rw [hheap] at hpending
    refine (hpaired _ _ hr hpending).imp ?_ ?_
    . rintro ⟨k, hk, hlive⟩
      have hnew : k ≠ m.nextTask := Nat.ne_of_lt (hwf.debounceTask hk)
      exact ⟨k, by rw [hheap, hk], by rwa [h.tasks_ne hnew]⟩
    . rintro ⟨j, w, hw, hwref⟩
      refine ⟨j, w, ?_, hwref⟩
      by_cases hj : j = i
      . subst hj
        obtain rfl := Option.some.inj ((windowAt_of_storeTask hcall hpc).symm.trans hw)
        exact absurd hwref.symm hne
      . exact (h.windowAt_ne hj).trans hw

theorem ref_woken (kind : TaskKind) (wakeAt : Time)
    : Task.ref { kind := kind, pc := .lock } = Task.ref { kind := kind, pc := .sleeping wakeAt } := by
  cases kind <;> rfl

theorem wf_woken {m : Monitor} {k : TaskId} {task : Task} {wakeAt : Time} (hwf : Wf m)
    (hk : m.tasks k = some task) (hpc : task.pc = .sleeping wakeAt)
    : Wf (m.setTask k (some { task with pc := .lock })) := by
  obtain ⟨kind, pc⟩ := task
  subst hpc
  have htask {k' : TaskId} {task' : Task}
      (hk' : (m.setTask k (some { kind := kind, pc := .lock })).tasks k' = some task')
      : ∃ task, m.tasks k' = some task ∧ task'.kind = task.kind ∧ task'.ref = task.ref ∧
          (task.pc.unconfirmed = true → task'.pc.unconfirmed = true) := by
    by_cases hne : k' = k
    . subst hne
      obtain rfl : { kind := kind, pc := .lock } = task' := by simpa [setTask] using hk'
      exact ⟨_, hk, rfl, ref_woken kind wakeAt, fun _ => rfl⟩
    . exact ⟨task', by simpa [setTask, hne] using hk', rfl, rfl, id⟩
  constructor
  case entry => exact hwf.entry
  case window => exact hwf.window
  case taskRef =>
    intro k' task' ref hk' href
    obtain ⟨task, htask, hkind, href', _⟩ := htask hk'
    rw [hkind]
    exact hwf.taskRef htask (href' ▸ href)
  case task =>
    intro k' hk'
    obtain ⟨task', hk'⟩ := Option.ne_none_iff_exists'.mp hk'
    obtain ⟨task, htask, _⟩ := htask hk'
    exact hwf.task (by rw [htask]; exact Option.some_ne_none _)
  case debounceTask => exact hwf.debounceTask
  case stored =>
    intro ref k' task' hstored hk'
    obtain ⟨task, htask, hkind, _, hunconfirmed⟩ := htask hk'
    have h := hwf.stored hstored htask
    exact {
      unconfirmed := hunconfirmed h.unconfirmed
      bound := h.bound
      owner := by rw [hkind]; exact h.owner
      target := fun hkind' => h.target (hkind ▸ hkind')
      restored := fun hkind' => h.restored (hkind ▸ hkind') }
  case idle => exact hwf.idle

theorem paired_woken {m : Monitor} {k : TaskId} {task : Task} (hpaired : Paired m)
    : Paired (m.setTask k (some task)) := by
  intro tid ref href hpending
  refine (hpaired _ _ href hpending).imp_left ?_
  rintro ⟨k', hk', hlive⟩
  refine ⟨k', hk', ?_⟩
  by_cases hne : k' = k
  . subst hne
    simp [setTask]
  . simpa [setTask, hne] using hlive

theorem Confirmed.windowAt {m m' : Monitor} {k : TaskId} {kind : TaskKind} {ref : Ref}
    (h : Confirmed m m' k kind ref) (i : Nat) : m'.windowAt i = m.windowAt i :=
  windowAt_of_groups h.groups i

theorem Wf.of_confirmed {m m' : Monitor} {k : TaskId} {kind : TaskKind} {ref : Ref} (hwf : Wf m)
    (hk : m.tasks k ≠ none) (href : ref < m.nextRef ∧ m.owner ref = kind.telegramId)
    (hsame : ∀ {r}, (m.heap r).debounceTask = some k → r = ref)
    (h : Confirmed m m' k kind ref) : Wf m' := by
  obtain ⟨pc, htask, _, href'⟩ := h.task
  constructor
  case entry =>
    rw [h.userStates, h.nextRef, h.owner]
    exact hwf.entry
  case window =>
    intro i w hw
    rw [h.nextRef, h.owner]
    exact hwf.window (h.windowAt i ▸ hw)
  case taskRef =>
    intro k' task r hk' hr
    rw [h.nextRef, h.owner]
    by_cases hne : k' = k
    . subst hne
      obtain rfl := Option.some.inj (htask.symm.trans hk')
      obtain rfl := Option.some.inj (href'.symm.trans hr)
      exact href
    . exact hwf.taskRef (h.tasks_ne hne ▸ hk') hr
  case task =>
    intro k' hk'
    rw [h.nextTask]
    by_cases hne : k' = k
    . exact hne ▸ hwf.task hk
    . exact hwf.task (h.tasks_ne hne ▸ hk')
  case debounceTask =>
    intro r k' hk'
    rw [h.nextTask]
    by_cases hr : r = ref
    . rw [hr, h.debounceTask] at hk'
      cases hk'
    . exact hwf.debounceTask (h.heap_ne hr ▸ hk')
  case stored =>
    intro r k' task hk' htask'
    by_cases hr : r = ref
    . rw [hr, h.debounceTask] at hk'
      cases hk'
    . have hheap := h.heap_ne hr
      rw [hheap] at hk'
      by_cases hne : k' = k
      . exact absurd (hsame (hne ▸ hk')) hr
      . rw [h.tasks_ne hne] at htask'
        exact (hwf.stored hk' htask').of_eq h.userStates h.owner h.nextRef (by rw [hheap])
  case idle =>
    intro hcycle
    rw [h.groups]
    exact hwf.idle (h.cycle ▸ hcycle)

theorem Paired.of_confirmed {m m' : Monitor} {k : TaskId} {kind : TaskKind} {ref : Ref}
    (hpaired : Paired m) (hsame : ∀ {r}, (m.heap r).debounceTask = some k → r = ref)
    (h : Confirmed m m' k kind ref) : Paired m' := by
  intro tid r hr hpending
  rw [h.userStates] at hr
  by_cases hne : r = ref
  . exact absurd (hne ▸ h.pendingState) hpending
  . have hheap := h.heap_ne hne
    rw [hheap] at hpending
    refine (hpaired _ _ hr hpending).imp ?_ ?_
    . rintro ⟨k', hk', hlive⟩
      refine ⟨k', by rw [hheap, hk'], ?_⟩
      rwa [h.tasks_ne fun heq => hne (hsame (heq ▸ hk'))]
    . rintro ⟨i, w, hw, hwref⟩
      exact ⟨i, w, (h.windowAt i).trans hw, hwref⟩

theorem Wf.of_dropped {m : Monitor} {k : TaskId} (hwf : Wf m) : Wf (m.setTask k none) := by
  have htask {k' : TaskId} {task : Task} (hk' : (m.setTask k none).tasks k' = some task)
      : m.tasks k' = some task := by
    by_cases hne : k' = k
    . subst hne
      simp [setTask] at hk'
    . simpa [setTask, hne] using hk'
  exact { hwf with
    taskRef := fun hk' href => hwf.taskRef (htask hk') href
    task := fun hk' => by
      obtain ⟨task, hk'⟩ := Option.ne_none_iff_exists'.mp hk'
      exact hwf.task (by rw [htask hk']; exact Option.some_ne_none _)
    stored := fun hstored hk' => { hwf.stored hstored (htask hk') with } }

theorem Paired.of_dropped {m : Monitor} {k : TaskId} (hpaired : Paired m)
    (hunstored : ∀ ref, (m.heap ref).debounceTask ≠ some k) : Paired (m.setTask k none) := by
  intro tid ref href hpending
  refine (hpaired _ _ href hpending).imp_left ?_
  rintro ⟨k', hk', hlive⟩
  have hne : k' ≠ k := fun heq => hunstored ref (heq ▸ hk')
  exact ⟨k', hk', by simpa [setTask, hne] using hlive⟩

theorem ref_of_stored {m m' : Monitor} {k : TaskId} {task : Task} (hwf : Wf m)
    (hk : m.tasks k = some task) (hpc : task.pc = .lock) (h : Confirmation m m' k task.kind)
    : (∃ ref, ref < m.nextRef ∧ m.owner ref = task.kind.telegramId ∧
        Confirmed m m' k task.kind ref ∧
        ∀ {r}, (m.heap r).debounceTask = some k → r = ref) ∨
      (m' = m.setTask k none ∧ ∀ r, (m.heap r).debounceTask ≠ some k) := by
  obtain ⟨kind, pc⟩ := task
  subst hpc
  dsimp only at h ⊢
  cases h with
  | state hkind confirmed _ =>
    subst hkind
    obtain ⟨hbound, howner⟩ := hwf.taskRef hk rfl
    refine .inl ⟨_, hbound, howner, confirmed, ?_⟩
    intro r hr
    exact ((hwf.stored hr hk).target rfl).symm
  | restored hkind lookup _ confirmed _ =>
    subst hkind
    obtain ⟨hbound, howner⟩ := hwf.entry lookup
    refine .inl ⟨_, hbound, howner, confirmed, ?_⟩
    intro r hr
    obtain ⟨hlookup, _⟩ := (hwf.stored hr hk).restored rfl
    exact Option.some.inj (hlookup.symm.trans lookup)
  | dropped hkind notPending eq =>
    subst hkind
    refine .inr ⟨eq, ?_⟩
    intro r hr
    obtain ⟨hlookup, hpending⟩ := (hwf.stored hr hk).restored rfl
    exact notPending hlookup hpending

theorem wf_confirmation {m m' : Monitor} {k : TaskId} {task : Task} (hwf : Wf m)
    (hk : m.tasks k = some task) (hpc : task.pc = .lock) (h : Confirmation m m' k task.kind)
    : Wf m' := by
  cases ref_of_stored hwf hk hpc h with
  | inl hconfirmed =>
    obtain ⟨ref, hbound, howner, hconfirmed, hsame⟩ := hconfirmed
    exact hwf.of_confirmed (by rw [hk]; exact Option.some_ne_none _) ⟨hbound, howner⟩ hsame hconfirmed
  | inr hdropped =>
    rw [hdropped.1]
    exact hwf.of_dropped

theorem paired_confirmation {m m' : Monitor} {k : TaskId} {task : Task} (hpaired : Paired m)
    (hwf : Wf m) (hk : m.tasks k = some task) (hpc : task.pc = .lock)
    (h : Confirmation m m' k task.kind) : Paired m' := by
  cases ref_of_stored hwf hk hpc h with
  | inl hconfirmed =>
    obtain ⟨ref, _, _, hconfirmed, hsame⟩ := hconfirmed
    exact hpaired.of_confirmed hsame hconfirmed
  | inr hdropped =>
    rw [hdropped.1]
    exact hpaired.of_dropped hdropped.2

/-! ## Eviction, cancellation and restart -/

theorem windowAt_of_groups_nil {m : Monitor} (h : m.groups = []) (i : Nat)
    : m.windowAt i = none := by
  rw [windowAt, callAt_of_groups_nil h]
  rfl

theorem Evicted.tasks_of_entry {m m' : Monitor} {tids : List TelegramId} (h : Evicted m m' tids)
    (hwf : Wf m) {tid : TelegramId} {ref : Ref} {k : TaskId} (htid : tid ∉ tids)
    (href : m.userStates.lookup tid = some ref) (hk : (m.heap ref).debounceTask = some k)
    : m'.tasks k = m.tasks k := by
  by_cases hkept : m'.tasks k = none
  . cases htask : m.tasks k with
    | none => exact hkept
    | some task =>
      rw [← htask]
      apply h.kept_of
      intro tid' htid' ref' href' hk'
      have howner := (hwf.stored hk htask).owner
      have howner' := (hwf.stored hk' htask).owner
      rw [(hwf.entry href).2] at howner
      rw [(hwf.entry href').2] at howner'
      exact htid (howner.trans howner'.symm ▸ htid')
  . exact h.kept hkept

theorem Wf.of_evicted {m m' : Monitor} {tids : List TelegramId} (hwf : Wf m)
    (h : Evicted m m' tids) : Wf m' := by
  have hlookup {tid : TelegramId} {ref : Ref} (href : m'.userStates.lookup tid = some ref)
      : m.userStates.lookup tid = some ref := by
    rw [h.lookup] at href
    split at href
    . cases href
    . exact href
  have htask {k : TaskId} {task : Task} (hk : m'.tasks k = some task) : m.tasks k = some task := by
    rwa [h.kept (by rw [hk]; exact Option.some_ne_none _)] at hk
  have hheap : m'.heap = m.heap := by rw [h.rest]
  have howner : m'.owner = m.owner := by rw [h.rest]
  have hnextRef : m'.nextRef = m.nextRef := by rw [h.rest]
  have hnextTask : m'.nextTask = m.nextTask := by rw [h.rest]
  constructor
  case entry =>
    intro tid ref href
    rw [hnextRef, howner]
    exact hwf.entry (hlookup href)
  case window =>
    intro i w hw
    rw [hnextRef, howner]
    rw [h.rest] at hw
    exact hwf.window hw
  case taskRef =>
    intro k task ref hk href
    rw [hnextRef, howner]
    exact hwf.taskRef (htask hk) href
  case task =>
    intro k hk
    rw [hnextTask]
    exact hwf.task (h.kept hk ▸ hk)
  case debounceTask =>
    intro ref k hk
    rw [hheap] at hk
    rw [hnextTask]
    exact hwf.debounceTask hk
  case stored =>
    intro ref k task hk hk'
    rw [hheap] at hk
    have hstored := hwf.stored hk (htask hk')
    refine {
      unconfirmed := hstored.unconfirmed
      bound := by rw [hnextRef]; exact hstored.bound
      owner := by rw [howner]; exact hstored.owner
      target := hstored.target
      restored := ?_ }
    intro tid newState oldState origDt hkind
    obtain ⟨href, hpending⟩ := hstored.restored hkind
    rw [hheap]
    refine ⟨?_, hpending⟩
    rw [h.lookup, if_neg, href]
    intro htid
    rw [h.gone htid href hk] at hk'
    cases hk'
  case idle =>
    rw [h.rest]
    exact hwf.idle

theorem Paired.of_evicted {m m' : Monitor} {tids : List TelegramId} (hpaired : Paired m)
    (hwf : Wf m) (h : Evicted m m' tids) (hgroups : m.groups = []) : Paired m' := by
  intro tid ref href hpending
  rw [h.lookup] at href
  split at href
  . cases href
  . next htid =>
    have hheap : m'.heap = m.heap := by rw [h.rest]
    rw [hheap] at hpending
    cases hpaired _ _ href hpending with
    | inl hlive =>
      obtain ⟨k, hk, hlive⟩ := hlive
      exact .inl ⟨k, by rw [hheap, hk], by rwa [h.tasks_of_entry hwf htid href hk]⟩
    | inr hwindow =>
      obtain ⟨i, w, hw, _⟩ := hwindow
      rw [windowAt_of_groups_nil hgroups] at hw
      cases hw

theorem Wf.of_restart {m m' : Monitor} (hwf : Wf m) (h : Restart m m') : Wf m' := by
  have hwindow (i : Nat) : m'.windowAt i = none := windowAt_of_groups_nil (by rw [h.rest]) i
  have hrestored {tid : TelegramId} {ref : Ref} {task : Task}
      (href : m'.userStates.lookup tid = some ref)
      (htask : IsRestoredTask task tid (m'.heap ref)) : Stored m' ref task := by
    obtain ⟨newState, oldState, origDt, wakeAt, hpending, rfl⟩ := htask
    obtain ⟨hbound, howner, _⟩ := h.entry href
    refine { unconfirmed := rfl, bound := hbound, owner := howner, target := nofun, restored := ?_ }
    intro tid' newState' oldState' origDt' hkind
    cases hkind
    exact ⟨href, hpending⟩
  constructor
  case entry =>
    intro tid ref href
    obtain ⟨hbound, howner, _⟩ := h.entry href
    exact ⟨hbound, howner⟩
  case window =>
    intro i w hw
    rw [hwindow] at hw
    cases hw
  case taskRef =>
    intro k task ref hk href
    obtain ⟨_, _, tid, ref', _, _, newState, oldState, origDt, wakeAt, _, rfl⟩ := h.tasks hk
    cases href
  case task =>
    intro k hk
    obtain ⟨task, hk⟩ := Option.ne_none_iff_exists'.mp hk
    exact (h.tasks hk).2.1
  case debounceTask =>
    intro ref k hk
    cases h.debounceTask hk with
    | inl hold => exact Nat.lt_of_lt_of_le (hwf.debounceTask hold) h.nextTask
    | inr hnew => exact hnew
  case stored =>
    intro ref k task hk htask
    obtain ⟨tid, href, hrestored'⟩ := h.stored (fun _ => hwf.debounceTask) hk htask
    exact hrestored href hrestored'
  case idle =>
    rw [h.rest]
    exact fun _ => rfl

theorem Paired.of_restart {m m' : Monitor} (h : Restart m m') : Paired m' := by
  intro tid ref href hpending
  exact .inl (h.live href hpending)

theorem call_of_mem_addToGroup {groups : List Group} {user : User}
    (h : ∀ g ∈ groups, g.call = none) : ∀ g ∈ addToGroup groups user, g.call = none := by
  induction groups with
  | nil => simp [addToGroup]
  | cons g groups ih =>
    rw [List.forall_mem_cons] at h
    unfold addToGroup
    split
    . exact List.forall_mem_cons.mpr h
    . exact List.forall_mem_cons.mpr ⟨h.1, ih h.2⟩

theorem call_of_mem_foldl_addToGroup {users : List User} {groups : List Group}
    (h : ∀ g ∈ groups, g.call = none) : ∀ g ∈ users.foldl addToGroup groups, g.call = none := by
  induction users generalizing groups with
  | nil => exact h
  | cons user users ih => exact ih (call_of_mem_addToGroup h)

theorem callAt_of_ipGroups {m : Monitor} {users : List User} (h : m.groups = ipGroups users)
    (i : Nat) : m.callAt i = none := by
  unfold callAt
  cases hg : m.groups[i]? with
  | none => rfl
  | some g =>
    have hmem := List.mem_of_getElem? hg
    rw [h] at hmem
    exact call_of_mem_foldl_addToGroup (List.forall_mem_nil _) g hmem

/-! ## Runs -/

theorem Wf.setGroups {m : Monitor} (hwf : Wf m) (cycle : CyclePc) (groups : List Group)
    (hgroups : ∀ i, ({ m with cycle := cycle, groups := groups } : Monitor).windowAt i = none)
    (hidle : cycle ≠ .checking → groups = []) : Wf { m with cycle := cycle, groups := groups } :=
  { hwf with
    window := fun hw => by rw [hgroups] at hw; cases hw
    stored := fun hk htask => { hwf.stored hk htask with }
    idle := hidle }

theorem groups_evict {m : Monitor} {tids : List TelegramId} (hgroups : m.groups = [])
    : (m.evict tids).groups = [] := by
  rw [(evicted_evict m tids).rest]
  exact hgroups

theorem groups_of_evictInactive {m : Monitor} {users : List User} (hidle : Idle m)
    (hcycle : m.cycle = .evictInactive users) : m.groups = [] :=
  hidle (by rw [hcycle]; nofun)

theorem groups_of_evictStale {m : Monitor} {users : List User} (hidle : Idle m)
    (hcycle : m.cycle = .evictStale users) : m.groups = [] :=
  hidle (by rw [hcycle]; nofun)

theorem wf_step {cfg : Settings} {m m' : Monitor} {e : Event} (hwf : Wf m)
    (hstep : m.step cfg e = some m') : Wf m' := by
  by_cases hquiet : e.quiet = true
  . exact hwf.of_kept (step_frame hquiet hstep).toKept
  cases e with
  | inactiveEvicted =>
    obtain ⟨users, hcycle, rfl⟩ := stepCycle_inactiveEvicted hstep
    have hgroups : (m.evictInactive users).groups = [] :=
      groups_evict (groups_of_evictInactive hwf.idle hcycle)
    exact (hwf.of_evicted (evicted_evict m _)).setGroups _ _ (windowAt_of_groups_nil hgroups)
      (fun _ => hgroups)
  | staleEvicted =>
    obtain ⟨users, hcycle, rfl⟩ := stepCycle_staleEvicted hstep
    refine (hwf.of_evicted (evicted_evict m _)).setGroups _ _ ?_ (absurd rfl)
    intro i
    rw [windowAt, callAt_of_ipGroups rfl]
    rfl
  | observed i =>
    obtain ⟨call, isAvailable, m₁, ref, _, _, hentered, hobservation⟩ := step_observed hstep
    exact wf_observation (hwf.of_entered hentered) hentered.lookup hobservation
  | debounceRead i val =>
    obtain ⟨call, _, hread⟩ := step_debounceRead hstep
    exact hwf.of_kept hread.kept
  | taskStored i =>
    obtain ⟨call, ref, newState, oldState, debounceS, hcall, hpc, hstored⟩ := step_taskStored hstep
    exact wf_taskStored hwf hcall hpc hstored
  | cycleCancelled =>
    obtain ⟨_, rfl⟩ := stepCycle_cycleCancelled hstep
    exact hwf.setGroups _ _ (windowAt_of_groups_nil rfl) (fun _ => rfl)
  | woken k =>
    obtain ⟨task, wakeAt, hk, hpc, _, rfl⟩ := step_woken hstep
    exact wf_woken hwf hk hpc
  | confirmed k =>
    obtain ⟨task, hk, hpc, rfl⟩ := step_confirmed hstep
    exact wf_confirmation hwf hk hpc (confirmation_confirm m k task.kind)
  | restarted val =>
    cases hstep
    exact hwf.of_restart (restart_restarted m val)
  | _ => exact absurd rfl hquiet

/--
Cancelling a cycle hits no call between the pending fields of its entry and the task for them.
-/
def SparesWindows (m : Monitor) (e : Event) : Prop :=
  e matches .cycleCancelled → ∀ i w, m.windowAt i = some w →
    m.userStates.lookup w.telegramId = some w.ref → (m.heap w.ref).pendingState ≠ none → Live m w.ref

theorem paired_step {cfg : Settings} {m m' : Monitor} {e : Event} (hpaired : Paired m) (hwf : Wf m)
    (hspares : SparesWindows m e) (hstep : m.step cfg e = some m') : Paired m' := by
  by_cases hquiet : e.quiet = true
  . exact hpaired.of_kept hwf (step_frame hquiet hstep).toKept
  cases e with
  | inactiveEvicted =>
    obtain ⟨users, hcycle, rfl⟩ := stepCycle_inactiveEvicted hstep
    have hgroups := groups_of_evictInactive hwf.idle hcycle
    intro tid ref href hpending
    exact hpaired.of_evicted hwf (evicted_evict m _) hgroups tid ref href hpending
  | staleEvicted =>
    obtain ⟨users, hcycle, rfl⟩ := stepCycle_staleEvicted hstep
    have hgroups := groups_of_evictStale hwf.idle hcycle
    intro tid ref href hpending
    have hpaired := hpaired.of_evicted hwf (evicted_evict m _) hgroups tid ref href hpending
    refine .inl (hpaired.resolve_right ?_)
    rintro ⟨i, w, hw, _⟩
    rw [windowAt_of_groups_nil (groups_evict hgroups)] at hw
    cases hw
  | observed i =>
    obtain ⟨call, isAvailable, m₁, ref, hcall, hlock, hentered, hobservation⟩ := step_observed hstep
    have hnone : m₁.windowAt i = none := by
      rw [hentered.windowAt]
      exact windowAt_of_lock hcall hlock
    exact paired_observation (hpaired.of_entered hwf hentered) (hwf.of_entered hentered)
      hentered.lookup hnone hobservation
  | debounceRead i val =>
    obtain ⟨call, _, hread⟩ := step_debounceRead hstep
    exact hpaired.of_kept hwf hread.kept
  | taskStored i =>
    obtain ⟨call, ref, newState, oldState, debounceS, hcall, hpc, hstored⟩ := step_taskStored hstep
    exact paired_taskStored hpaired hwf hcall hpc hstored
  | cycleCancelled =>
    obtain ⟨_, rfl⟩ := stepCycle_cycleCancelled hstep
    intro tid ref href hpending
    left
    cases hpaired _ _ href hpending with
    | inl hlive => exact hlive
    | inr hwindow =>
      obtain ⟨i, w, hw, rfl⟩ := hwindow
      have htid : w.telegramId = tid := (hwf.window hw).2.symm.trans (hwf.entry href).2
      exact hspares rfl i w hw (htid ▸ href) hpending
  | woken k =>
    obtain ⟨task, wakeAt, hk, hpc, _, rfl⟩ := step_woken hstep
    exact paired_woken hpaired
  | confirmed k =>
    obtain ⟨task, hk, hpc, rfl⟩ := step_confirmed hstep
    exact paired_confirmation hpaired hwf hk hpc (confirmation_confirm m k task.kind)
  | restarted val =>
    cases hstep
    exact .of_restart (restart_restarted m val)
  | _ => exact absurd rfl hquiet

structure PairingInv (m : Monitor) : Prop where
  wf : Wf m
  paired : Paired m

theorem pairingInv_step {cfg : Settings} {m m' : Monitor} {e : Event} (h : PairingInv m)
    (hspares : SparesWindows m e) (hstep : m.step cfg e = some m') : PairingInv m' :=
  ⟨wf_step h.wf hstep, paired_step h.paired h.wf hspares hstep⟩

theorem wf_empty (now : Time) (rows : AList (fun _ : TelegramId => UserPowerStateRow))
    (tracking : TelegramId → Option PowerTracking)
    : Wf { now := now, userPowerStates := rows, powerTracking := tracking } := by
  constructor
  all_goals simp [windowAt, callAt, Idle]

theorem wf_initial (now : Time) (rows : AList (fun _ : TelegramId => UserPowerStateRow))
    (tracking : TelegramId → Option PowerTracking) (val : Option (Option Int))
    : Wf (initial now rows tracking val) :=
  (wf_empty now rows tracking).of_restart (restart_restarted _ val)

theorem pairingInv_initial (now : Time) (rows : AList (fun _ : TelegramId => UserPowerStateRow))
    (tracking : TelegramId → Option PowerTracking) (val : Option (Option Int))
    : PairingInv (initial now rows tracking val) :=
  ⟨wf_initial now rows tracking val, .of_restart (restart_restarted _ val)⟩

/--
Every pending entry has a debounce task that is not done, unless `_check_user_power` is running for its
user.
-/
def PendingHasTask (m : Monitor) : Prop :=
  ∀ tid ref, m.userStates.lookup tid = some ref → (m.heap ref).pendingState ≠ none →
    (∀ i call, m.callAt i = some call → call.user.telegramId ≠ tid) →
      ∃ k, (m.heap ref).debounceTask = some k ∧ m.taskDone k = false

theorem live_iff {m : Monitor} {ref : Ref}
    : Live m ref ↔ ∃ k, (m.heap ref).debounceTask = some k ∧ m.taskDone k = false := by
  simp only [Live, taskDone, Option.isNone_eq_false_iff, Option.isSome_iff_ne_none]

theorem pendingHasTask_of_inv {m : Monitor} (h : PairingInv m) : PendingHasTask m := by
  intro tid ref href hpending hcalls
  rw [← live_iff]
  refine (h.paired tid ref href hpending).resolve_right ?_
  rintro ⟨i, w, hw, rfl⟩
  obtain ⟨call, hcall, hcallTid⟩ := callAt_of_windowAt hw
  have htid : w.telegramId = tid := (h.wf.window hw).2.symm.trans (h.wf.entry href).2
  exact hcalls i call hcall (hcallTid.trans htid)

theorem not_pendingHasTask_of_cancelled {cfg : Settings} {m m' : Monitor} {e : Event}
    (hspares : ¬ SparesWindows m e) (hstep : m.step cfg e = some m') : ¬ PendingHasTask m' := by
  unfold SparesWindows at hspares
  push Not at hspares
  obtain ⟨he, i, w, hw, href, hpending, hlive⟩ := hspares
  cases e with
  | cycleCancelled =>
    obtain ⟨_, rfl⟩ := stepCycle_cycleCancelled hstep
    intro h
    apply hlive
    rw [live_iff]
    apply h w.telegramId w.ref href hpending
    intro j call hcall
    rw [callAt_of_groups_nil rfl] at hcall
    cases hcall
  | _ => cases he

/--
Every pending entry has a live debounce task throughout a run if and only if no cancelled cycle hits a
call of a pending user between the pending fields and the task.
-/
theorem pendingHasTask_iff_sparesWindows {cfg : Settings} {now : Time}
    {rows : AList (fun _ : TelegramId => UserPowerStateRow)}
    {tracking : TelegramId → Option PowerTracking} {val : Option (Option Int)} {es : List Event}
    {m : Monitor} (hrun : Run.exec (step cfg) (initial now rows tracking val) es = some m)
    : Run.Always (step cfg) PendingHasTask (initial now rows tracking val) es
        ↔
      Run.StepsMeet (step cfg) SparesWindows (initial now rows tracking val) es :=
  Run.always_iff_stepsMeet pairingInv_step pendingHasTask_of_inv
    (fun _ hspares hstep => not_pendingHasTask_of_cancelled hspares hstep)
    (pairingInv_initial now rows tracking val) hrun

def savedOn (tid : TelegramId) : AList (fun _ : TelegramId => UserPowerStateRow) :=
  AList.insert tid {
    fields := {
      currentState := some .on
      pendingState := none
      pendingStateTime := none
      lastStableState := some .on
      lastStableAt := none
      instabilityStart := none
      switchCount := 0
      lastNotificationAt := none }
    updatedAt := 0 } ∅

def outageRun : List Event := [
  .cycleStarted,
  .batchLoaded [{ id := 1, telegramId := "777", routerIp := "192.168.1.1" }],
  .inactiveEvicted,
  .staleEvicted,
  .pinged 0 (some false),
  .callStarted 0,
  .observed 0,
  .sessionDone 0 true,
  .debounceRead 0 (some (some 1)),
  .taskStored 0,
  .tick 60000000,
  .woken 0]

/--
A cycle reads that the light of the user went off and is cancelled while it awaits the session that
writes the pending state to the database.
-/
def cancelledRun : List Event := [
  .cycleStarted,
  .batchLoaded [{ id := 1, telegramId := "1", routerIp := "192.168.1.1" }],
  .inactiveEvicted,
  .staleEvicted,
  .pinged 0 (some false),
  .callStarted 0,
  .observed 0,
  .cycleCancelled]

theorem pendingHasTask_iff_sparesWindows_cancelledRun
    : Run.Always (step {}) PendingHasTask (initial 0 (savedOn "1") (fun _ => none) none) cancelledRun
        ↔
      Run.StepsMeet (step {}) SparesWindows (initial 0 (savedOn "1") (fun _ => none) none)
        cancelledRun :=
  pendingHasTask_iff_sparesWindows (Option.some_get (by decide +kernel)).symm

theorem pending_without_task
    : ∃ m, Run.exec (step {}) (initial 0 (savedOn "1") (fun _ => none) none) cancelledRun = some m ∧
        ¬ PendingHasTask m := by
  have hrun
      : (Run.exec (step {}) (initial 0 (savedOn "1") (fun _ => none) none) cancelledRun).map
          (fun m => (m.userStates.lookup "1", (m.heap 0).pendingState, (m.heap 0).debounceTask,
            m.groups)) = some (some 0, some .off, none, []) := by
    decide +kernel
  obtain ⟨m, hm, hproj⟩ := Option.map_eq_some_iff.mp hrun
  simp only [Prod.mk.injEq] at hproj
  obtain ⟨href, hpending, hdebounce, hgroups⟩ := hproj
  refine ⟨m, hm, ?_⟩
  intro h
  obtain ⟨k, hk, _⟩ := h "1" 0 href (by rw [hpending]; exact Option.some_ne_none _) (by
    intro i call hcall
    rw [callAt_of_groups_nil hgroups] at hcall
    cases hcall)
  rw [hdebounce] at hk
  cases hk

end Monitor
end PowerMonitor
