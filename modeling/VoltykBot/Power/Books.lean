import VoltykBot.Power.Pairing

/-!
This module contains the books of the power changes: what was confirmed for a user, what of it the database
holds, and the changes in between. It provides the invariant that ties them, and what a confirmation and a
commit do to it.
-/

namespace PowerMonitor

def LogEntry.change (entry : LogEntry) : Option (TelegramId × PowerState) :=
  match entry with
  | .confirmed _ tid state _ _ => some (tid, state)
  | .restoredConfirmed tid state _ _ => some (tid, state)
  | _ => none

def TaskPc.unrecorded (pc : TaskPc) : Bool :=
  match pc with
  | .loadUser _ => true
  | .handling _ _ .start => true
  | .handling _ _ (.stateUpdate _) => true
  | _ => false

namespace Monitor

/--
The states that were confirmed for a user, the newest one first
-/
def changes (m : Monitor) (tid : TelegramId) : List PowerState :=
  ((m.log.filterMap LogEntry.change).filter (·.1 = tid)).map (·.2)

def history (m : Monitor) (tid : TelegramId) : List PowerState :=
  (m.powerHistory.filter (·.telegramId = tid)).map (·.eventType)

def savedState (m : Monitor) (tid : TelegramId) : Option PowerState :=
  (m.powerTracking tid).bind (·.powerState)

def memory (m : Monitor) (tid : TelegramId) : Option (Option PowerState) :=
  (m.userStates.lookup tid).map fun ref => (m.heap ref).currentState

def unrecorded (m : Monitor) (k : TaskId) : Option (TelegramId × PowerState) :=
  match m.tasks k with
  | some task => if task.pc.unrecorded then some (task.kind.telegramId, task.kind.newState) else none
  | none => none

def Handling (m : Monitor) (tid : TelegramId) : Prop :=
  ∃ k task, m.tasks k = some task ∧ task.kind.telegramId = tid ∧ task.pc.unconfirmed = false

/--
Each confirmed change of the user has its row of `power_history`, but for the newest one while it is being
handled. What is recorded last is the saved state, and while no change is handled the entry of the user
agrees with it.
-/
structure Recorded (m : Monitor) (tid : TelegramId) : Prop where
  history : m.history tid = m.changes tid ∨
    m.Handling tid ∧ ∃ s, m.changes tid = s :: m.history tid
  saved : m.history tid = m.changes tid → ∀ s ∈ (m.changes tid).head?, m.savedState tid = some s
  agree : ¬ m.Handling tid → m.changes tid ≠ [] →
    ∀ state ∈ m.memory tid, state = m.savedState tid

structure RecordInv (m : Monitor) : Prop where
  wf : Wf m
  single : ∀ {k k' tid s s'}, m.unrecorded k = some (tid, s) → m.unrecorded k' = some (tid, s') →
    k = k'
  opened : ∀ {k tid s}, m.unrecorded k = some (tid, s) → m.changes tid = s :: m.history tid
  closed : ∀ {tid}, (∀ k s, m.unrecorded k ≠ some (tid, s)) → m.history tid = m.changes tid
  saved : ∀ {tid s}, m.history tid = m.changes tid → s ∈ (m.changes tid).head? →
    m.savedState tid = some s
  memory : ∀ {tid s state}, s ∈ (m.changes tid).head? → m.memory tid = some state → state = some s

theorem unconfirmed_of_unrecorded {pc : TaskPc} (h : pc.unrecorded = true) : pc.unconfirmed = false := by
  unfold TaskPc.unrecorded at h
  split at h
  . rfl
  . rfl
  . rfl
  . cases h

theorem unrecorded_eq_some {m : Monitor} {k : TaskId} {tid : TelegramId} {s : PowerState}
    : m.unrecorded k = some (tid, s) ↔ ∃ task, m.tasks k = some task ∧ task.pc.unrecorded = true ∧
        task.kind.telegramId = tid ∧ task.kind.newState = s := by
  unfold unrecorded
  constructor
  . intro h
    split at h
    . next task htask =>
      split at h
      . next hpc =>
        cases h
        exact ⟨task, htask, hpc, rfl, rfl⟩
      . cases h
    . cases h
  . rintro ⟨task, htask, hpc, rfl, rfl⟩
    rw [htask]
    dsimp only
    rw [if_pos hpc]

theorem unrecorded_eq_none {m : Monitor} {k : TaskId}
    (h : ∀ task, m.tasks k = some task → task.pc.unrecorded = false) : m.unrecorded k = none := by
  unfold unrecorded
  split
  . next task htask => rw [h task htask, if_neg Bool.false_ne_true]
  . rfl

theorem RecordInv.history_eq_iff {m : Monitor} (h : RecordInv m) {tid : TelegramId}
    : m.history tid = m.changes tid ↔ ∀ k s, m.unrecorded k ≠ some (tid, s) := by
  constructor
  . intro heq k s hk
    have hlength := congrArg List.length (h.opened hk)
    rw [← heq, List.length_cons] at hlength
    omega
  . exact h.closed

def NoneOpen (m : Monitor) (tid : TelegramId) : Prop :=
  ∀ k < m.nextTask, (m.unrecorded k).map (·.1) ≠ some tid

instance (m : Monitor) (tid : TelegramId) : Decidable (m.NoneOpen tid) :=
  inferInstanceAs (Decidable (∀ k < m.nextTask, _))

theorem RecordInv.noneOpen_iff {m : Monitor} (h : RecordInv m) {tid : TelegramId}
    : m.NoneOpen tid ↔ m.history tid = m.changes tid := by
  rw [h.history_eq_iff]
  constructor
  . intro hnone k s hk
    rcases unrecorded_eq_some.mp hk with ⟨task, htask, _⟩
    apply hnone k (h.wf.task _)
    . rw [hk]
      rfl
    . rw [htask]
      exact Option.some_ne_none task
  . intro hnone k _ hopen
    rcases Option.map_eq_some_iff.mp hopen with ⟨change, hk, rfl⟩
    exact hnone k change.2 hk

theorem RecordInv.recorded {m : Monitor} (h : RecordInv m) (tid : TelegramId) : m.Recorded tid := by
  have hhandling (k : TaskId) (s : PowerState) (hk : m.unrecorded k = some (tid, s))
      : m.Handling tid := by
    rcases unrecorded_eq_some.mp hk with ⟨task, htask, hpc, htid, _⟩
    exact ⟨k, task, htask, htid, unconfirmed_of_unrecorded hpc⟩
  constructor
  . by_cases hopen : ∃ k s, m.unrecorded k = some (tid, s)
    . rcases hopen with ⟨k, s, hk⟩
      exact .inr ⟨hhandling k s hk, s, h.opened hk⟩
    . left
      apply h.closed
      intro k s hk
      exact hopen ⟨k, s, hk⟩
  . intro heq s hs
    exact h.saved heq hs
  . intro hnone hchanges state hstate
    have heq : m.history tid = m.changes tid := by
      apply h.closed
      intro k s hk
      exact hnone (hhandling k s hk)
    cases hcs : m.changes tid with
    | nil => exact absurd hcs hchanges
    | cons s rest =>
      have hhead : s ∈ (m.changes tid).head? := by
        rw [hcs]
        rfl
      rw [h.saved heq hhead]
      exact h.memory hhead hstate

structure SameBooks (m m' : Monitor) : Prop where
  changes : m'.log.filterMap LogEntry.change = m.log.filterMap LogEntry.change
  history : m'.powerHistory = m.powerHistory
  saved : ∀ tid, m'.savedState tid = m.savedState tid
  memory : ∀ {tid state}, m'.memory tid = some state → m.memory tid = some state
  unrecorded : ∀ k, m'.unrecorded k = m.unrecorded k

theorem RecordInv.of_books {m m' : Monitor} (h : RecordInv m) (hwf : Wf m')
    (hchanges : ∀ tid, m'.changes tid = m.changes tid) (hhistory : ∀ tid, m'.history tid = m.history tid)
    (hunrecorded : ∀ k, m'.unrecorded k = m.unrecorded k)
    (hsaved : ∀ tid, ∀ s ∈ (m.changes tid).head?, m.history tid = m.changes tid →
      m'.savedState tid = m.savedState tid ∨ m'.savedState tid = some s)
    (hmemory : ∀ tid, ∀ s ∈ (m.changes tid).head?, ∀ state, m'.memory tid = some state →
      m.memory tid = some state ∨ state = some s) : RecordInv m' := by
  constructor
  . exact hwf
  . intro k k' tid s s' hk hk'
    rw [hunrecorded] at hk hk'
    exact h.single hk hk'
  . intro k tid s hk
    rw [hunrecorded] at hk
    rw [hchanges, hhistory]
    exact h.opened hk
  . intro tid hnone
    rw [hchanges, hhistory]
    apply h.closed
    intro k s
    rw [← hunrecorded]
    exact hnone k s
  . intro tid s heq hs
    rw [hchanges] at heq hs
    rw [hhistory] at heq
    rcases hsaved tid s hs heq with hsame | hnew
    . rw [hsame]
      exact h.saved heq hs
    . exact hnew
  . intro tid s state hs hstate
    rw [hchanges] at hs
    rcases hmemory tid s hs state hstate with hsame | hnew
    . exact h.memory hs hsame
    . exact hnew

theorem changes_of_log {m m' : Monitor}
    (h : m'.log.filterMap LogEntry.change = m.log.filterMap LogEntry.change) (tid : TelegramId)
    : m'.changes tid = m.changes tid := by
  unfold changes
  rw [h]

theorem history_of_powerHistory {m m' : Monitor} (h : m'.powerHistory = m.powerHistory)
    (tid : TelegramId) : m'.history tid = m.history tid := by
  unfold history
  rw [h]

theorem RecordInv.of_same {m m' : Monitor} (h : RecordInv m) (hwf : Wf m') (hsame : SameBooks m m')
    : RecordInv m' := by
  apply h.of_books hwf (changes_of_log hsame.changes) (history_of_powerHistory hsame.history)
    hsame.unrecorded
  . intro tid s _ _
    exact .inl (hsame.saved tid)
  . intro tid s _ state hstate
    exact .inl (hsame.memory hstate)

theorem memory_of_heap {m m' : Monitor} (hstates : m'.userStates = m.userStates)
    (hheap : ∀ ref, (m'.heap ref).currentState = (m.heap ref).currentState) (tid : TelegramId)
    : m'.memory tid = m.memory tid := by
  unfold memory
  rw [hstates]
  cases m.userStates.lookup tid with
  | none => rfl
  | some ref => exact congrArg some (hheap ref)

theorem savedState_of_tracking {m m' : Monitor} (h : m'.powerTracking = m.powerTracking)
    (tid : TelegramId) : m'.savedState tid = m.savedState tid := by
  unfold savedState
  rw [h]

theorem unrecorded_of_tasks {m m' : Monitor} {k : TaskId} (h : m'.tasks k = m.tasks k)
    : m'.unrecorded k = m.unrecorded k := by
  unfold unrecorded
  rw [h]

theorem SameBooks.of_eq {m m' : Monitor}
    (h : m' = { m with
      now := m'.now, dirtyStates := m'.dirtyStates, cycle := m'.cycle, groups := m'.groups
      nextCall := m'.nextCall, flushes := m'.flushes, userPowerStates := m'.userPowerStates
      log := m'.log })
    (hlog : m'.log.filterMap LogEntry.change = m.log.filterMap LogEntry.change) : SameBooks m m' where
  changes := hlog
  history := by rw [h]
  saved := savedState_of_tracking (by rw [h])
  memory hstate := by
    rw [memory_of_heap (m := m) (by rw [h]) (fun _ => by rw [h])] at hstate
    exact hstate
  unrecorded _ := unrecorded_of_tasks (by rw [h])

theorem SameBooks.trans {m m₁ m' : Monitor} (h : SameBooks m m₁) (h' : SameBooks m₁ m')
    : SameBooks m m' where
  changes := h'.changes.trans h.changes
  history := h'.history.trans h.history
  saved tid := (h'.saved tid).trans (h.saved tid)
  memory hstate := h.memory (h'.memory hstate)
  unrecorded k := (h'.unrecorded k).trans (h.unrecorded k)

theorem SameBooks.setGroups {m m' : Monitor} (h : SameBooks m m') (cycle : CyclePc)
    (groups : List Group) : SameBooks m { m' with cycle := cycle, groups := groups } :=
  { h with }

theorem unrecorded_of_gone {m : Monitor} {k : TaskId} (h : m.tasks k = none) : m.unrecorded k = none := by
  unfold unrecorded
  rw [h]

theorem unrecorded_of_stored {m : Monitor} {k : TaskId} {ref : Ref} (hwf : Wf m)
    (hk : (m.heap ref).debounceTask = some k) : m.unrecorded k = none := by
  rw [unrecorded_eq_none]
  intro task htask
  have hstored := (hwf.stored hk htask).unconfirmed
  rw [← Bool.not_eq_true]
  intro hpc
  rw [unconfirmed_of_unrecorded hpc] at hstored
  cases hstored

theorem sameBooks_evicted {m m' : Monitor} {tids : List TelegramId} (hwf : Wf m)
    (h : Evicted m m' tids) : SameBooks m m' := by
  constructor
  . rw [h.rest]
  . rw [h.rest]
  . intro tid
    exact savedState_of_tracking (by rw [h.rest]) tid
  . intro tid state hstate
    unfold memory at hstate ⊢
    rw [h.lookup] at hstate
    split at hstate
    . cases hstate
    . rw [h.rest] at hstate
      exact hstate
  . intro k
    by_cases hheld : ∀ tid ∈ tids, ∀ ref, m.userStates.lookup tid = some ref →
        (m.heap ref).debounceTask ≠ some k
    . exact unrecorded_of_tasks (h.kept_of hheld)
    . simp only [not_forall, Classical.not_not] at hheld
      rcases hheld with ⟨tid, htid, ref, href, hk⟩
      rw [unrecorded_of_stored hwf hk]
      exact unrecorded_of_gone (h.gone htid href hk)

theorem sameBooks_setTask {m : Monitor} {k : TaskId} {task : Option Task}
    (h : ({ m with tasks := Function.update m.tasks k task } : Monitor).unrecorded k = m.unrecorded k)
    : SameBooks m (m.setTask k task) where
  changes := rfl
  history := rfl
  saved _ := rfl
  memory hstate := hstate
  unrecorded k' := by
    by_cases hk : k' = k
    . subst hk
      exact h
    . exact unrecorded_of_tasks (Function.update_of_ne hk _ _)

theorem sameBooks_dropTask {m : Monitor} {k : TaskId} {task : Task} (hk : m.tasks k = some task)
    (hpc : task.pc.unrecorded = false) : SameBooks m (m.setTask k none) := by
  apply sameBooks_setTask
  rw [unrecorded_of_gone (Function.update_self _ _ _), eq_comm, unrecorded_eq_none]
  intro task' htask'
  rw [hk] at htask'
  cases htask'
  exact hpc

theorem sameBooks_moveTask {m : Monitor} {k : TaskId} {task : Task} {pc : TaskPc}
    (hk : m.tasks k = some task) (hpc : pc.unrecorded = task.pc.unrecorded)
    : SameBooks m (m.setTask k (some { task with pc := pc })) := by
  apply sameBooks_setTask
  unfold unrecorded
  rw [hk]
  dsimp only
  rw [Function.update_self]
  dsimp only
  rw [hpc]

theorem sameBooks_taskStored {m m' : Monitor} {i : Nat} {call : Call} {ref : Ref}
    {newState : PowerState} {oldState : Option PowerState} {debounceS : Int} (hwf : Wf m)
    (h : TaskStored m m' i call ref newState oldState debounceS) : SameBooks m m' := by
  have hheap (r : Ref) : (m'.heap r).currentState = (m.heap r).currentState := by
    by_cases hr : r = ref
    . rw [hr, h.heap_self]
    . rw [h.heap_ne hr]
  constructor
  . rw [h.rest]
  . rw [h.rest]
  . apply savedState_of_tracking
    rw [h.rest]
  . intro tid state hstate
    rw [memory_of_heap (m := m) (by rw [h.rest]) hheap] at hstate
    exact hstate
  . intro k
    by_cases hk : k = m.nextTask
    . subst hk
      have hnone : m.tasks m.nextTask = none := by
        by_contra hsome
        exact Nat.lt_irrefl _ (hwf.task hsome)
      rw [unrecorded_eq_none, unrecorded_eq_none]
      . rw [hnone]
        intro task htask
        cases htask
      . rw [h.tasks_self]
        intro task htask
        cases htask
        rfl
    . exact unrecorded_of_tasks (h.tasks_ne hk)

theorem sameBooks_debounceRead {cfg : Settings} {m m' : Monitor} {i : Nat} {val : Option (Option Int)}
    (h : m.stepCall i (fun m call => m.debounceRead cfg call val) = some m') : SameBooks m m' := by
  rcases stepCall_eq_some h with ⟨g, call, m₁, pc, _, _, hf, rfl⟩
  unfold debounceRead at hf
  split at hf
  . cases hf
    exact .of_eq rfl rfl
  . cases hf

theorem RecordInv.of_confirmed {m m' : Monitor} (h : RecordInv m) (hwf : Wf m') {k : TaskId}
    {tid : TelegramId} {newState : PowerState} (hearlier : m.history tid = m.changes tid)
    (hlog : m'.log.filterMap LogEntry.change = (tid, newState) :: m.log.filterMap LogEntry.change)
    (hhistory : m'.powerHistory = m.powerHistory) (htracking : m'.powerTracking = m.powerTracking)
    (hbefore : m.unrecorded k = none) (hself : m'.unrecorded k = some (tid, newState))
    (hothers : ∀ k', k' ≠ k → m'.unrecorded k' = m.unrecorded k')
    (hmemory : ∀ state, m'.memory tid = some state → state = some newState)
    (hmemories : ∀ tid', tid' ≠ tid → m'.memory tid' = m.memory tid') : RecordInv m' := by
  have hchange : m'.changes tid = newState :: m.changes tid := by
    unfold Monitor.changes
    rw [hlog, List.filter_cons_of_pos, List.map_cons]
    exact decide_eq_true rfl
  have hchanges (tid' : TelegramId) (hne : tid' ≠ tid) : m'.changes tid' = m.changes tid' := by
    unfold Monitor.changes
    rw [hlog, List.filter_cons_of_neg]
    rw [decide_eq_true_eq]
    exact hne.symm
  have hnone (k' : TaskId) (s : PowerState) : m.unrecorded k' ≠ some (tid, s) :=
    h.history_eq_iff.mp hearlier k' s
  have hother {k' : TaskId} {tid' : TelegramId} {s : PowerState}
      (hk' : m'.unrecorded k' = some (tid', s))
      : k' = k ∧ tid' = tid ∧ s = newState ∨ tid' ≠ tid ∧ m.unrecorded k' = some (tid', s) := by
    by_cases hk : k' = k
    . left
      rw [hk, hself] at hk'
      cases hk'
      exact ⟨hk, rfl, rfl⟩
    . right
      rw [hothers k' hk] at hk'
      refine ⟨?_, hk'⟩
      rintro rfl
      exact hnone k' s hk'
  have hhistory := history_of_powerHistory hhistory
  have hsaved := savedState_of_tracking htracking
  constructor
  . exact hwf
  . intro k₁ k₂ tid' s s' hk₁ hk₂
    rcases hother hk₁ with ⟨rfl, rfl, _⟩ | ⟨hne, hold₁⟩
    . rcases hother hk₂ with ⟨rfl, _, _⟩ | ⟨hne, _⟩
      . rfl
      . exact absurd rfl hne
    . rcases hother hk₂ with ⟨_, htid, _⟩ | ⟨_, hold₂⟩
      . exact absurd htid hne
      . exact h.single hold₁ hold₂
  . intro k' tid' s hk'
    rw [hhistory]
    rcases hother hk' with ⟨_, rfl, rfl⟩ | ⟨hne, hold⟩
    . rw [hchange, hearlier]
    . rw [hchanges tid' hne]
      exact h.opened hold
  . intro tid' hclosed
    have hne : tid' ≠ tid := by
      rintro rfl
      exact hclosed k newState hself
    rw [hhistory, hchanges tid' hne]
    apply h.closed
    intro k' s hk'
    by_cases hk : k' = k
    . rw [hk, hbefore] at hk'
      cases hk'
    . apply hclosed k' s
      rw [hothers k' hk]
      exact hk'
  . intro tid' s heq hs
    rw [hsaved]
    by_cases htid : tid' = tid
    . subst htid
      have hlength := congrArg List.length heq
      rw [hhistory, hchange, hearlier, List.length_cons] at hlength
      omega
    . rw [hchanges tid' htid] at heq hs
      rw [hhistory] at heq
      exact h.saved heq hs
  . intro tid' s state hs hstate
    by_cases htid : tid' = tid
    . subst htid
      rw [hchange] at hs
      cases hs
      exact hmemory state hstate
    . rw [hchanges tid' htid] at hs
      rw [hmemories tid' htid] at hstate
      exact h.memory hs hstate

theorem RecordInv.of_committed {m m' : Monitor} (h : RecordInv m) (hwf : Wf m') {k : TaskId}
    {tid : TelegramId} {newState : PowerState} (hk : m.unrecorded k = some (tid, newState))
    (hlog : m'.log = m.log) (hhistory : m'.history tid = newState :: m.history tid)
    (hhistories : ∀ tid', tid' ≠ tid → m'.history tid' = m.history tid')
    (hsaved : m'.savedState tid = some newState)
    (hsaveds : ∀ tid', tid' ≠ tid → m'.savedState tid' = m.savedState tid')
    (hself : m'.unrecorded k = none) (hothers : ∀ k', k' ≠ k → m'.unrecorded k' = m.unrecorded k')
    (hmemory : ∀ tid', m'.memory tid' = m.memory tid') : RecordInv m' := by
  have hchanges := changes_of_log (congrArg (List.filterMap LogEntry.change) hlog)
  have hold {k' : TaskId} {tid' : TelegramId} {s : PowerState}
      (hk' : m'.unrecorded k' = some (tid', s)) : tid' ≠ tid ∧ m.unrecorded k' = some (tid', s) := by
    have hne : k' ≠ k := by
      rintro rfl
      rw [hself] at hk'
      cases hk'
    rw [hothers k' hne] at hk'
    refine ⟨?_, hk'⟩
    rintro rfl
    exact hne (h.single hk' hk)
  constructor
  . exact hwf
  . intro k₁ k₂ tid' s s' hk₁ hk₂
    exact h.single (hold hk₁).2 (hold hk₂).2
  . intro k' tid' s hk'
    rw [hchanges, hhistories tid' (hold hk').1]
    exact h.opened (hold hk').2
  . intro tid' hclosed
    rw [hchanges]
    by_cases htid : tid' = tid
    . rw [htid, hhistory, h.opened hk]
    . rw [hhistories tid' htid]
      apply h.closed
      intro k' s hk'
      apply hclosed k' s
      rw [hothers k' _]
      . exact hk'
      . rintro rfl
        rw [hk] at hk'
        cases hk'
        exact htid rfl
  . intro tid' s heq hs
    rw [hchanges] at heq hs
    by_cases htid : tid' = tid
    . subst htid
      rw [h.opened hk] at hs
      cases hs
      exact hsaved
    . rw [hhistories tid' htid] at heq
      rw [hsaveds tid' htid]
      exact h.saved heq hs
  . intro tid' s state hs hstate
    rw [hchanges] at hs
    rw [hmemory] at hstate
    exact h.memory hs hstate

end Monitor
end PowerMonitor
