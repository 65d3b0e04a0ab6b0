import VoltykBot.Power.Changes

/-!
This module contains what a restart leaves behind: `_restore_user_states` creates one dict for each
recent row, and `_restart_pending_debounce_tasks` gives each dict with a pending state its task.
-/

namespace PowerMonitor
namespace Monitor

/-! ## `_restore_user_states` -/

structure Restored (m m' : Monitor) (rows : List (TelegramId × UserPowerStateRow)) : Prop where
  rest : m' = { m with
    userStates := m'.userStates, heap := m'.heap, owner := m'.owner, nextRef := m'.nextRef }
  nextRef : m.nextRef ≤ m'.nextRef
  old : ∀ {ref}, ref < m.nextRef → m'.heap ref = m.heap ref ∧ m'.owner ref = m.owner ref
  heap : ∀ ref, m'.heap ref = m.heap ref ∨ (m'.heap ref).debounceTask = none
  lookup : ∀ {tid}, tid ∉ rows.map (·.1) → m'.userStates.lookup tid = m.userStates.lookup tid
  entry : ∀ {tid ref}, m'.userStates.lookup tid = some ref →
    m.userStates.lookup tid = some ref ∨
      (ref < m'.nextRef ∧ m'.owner ref = tid ∧
        ∃ row, (tid, row) ∈ rows ∧ m'.heap ref = row.restored)
  found : ∀ {tid row}, (rows.map (·.1)).Nodup → (tid, row) ∈ rows →
    ∃ ref, m'.userStates.lookup tid = some ref ∧ m'.heap ref = row.restored

theorem restored_restoreUserStates (m : Monitor) (rows : List (TelegramId × UserPowerStateRow))
    : Restored m (m.restoreUserStates rows) rows := by
  unfold restoreUserStates
  induction rows generalizing m with
  | nil =>
    constructor
    all_goals simp
  | cons row rows ih =>
    have ih := ih (m.createEntry row.1 row.2.restored)
    rw [List.foldl_cons]
    generalize rows.foldl _ _ = m' at ih ⊢
    have hself : m'.heap m.nextRef = row.2.restored ∧ m'.owner m.nextRef = row.1 := by
      have hlt : m.nextRef < (m.createEntry row.1 row.2.restored).nextRef := Nat.lt_succ_self _
      obtain ⟨hheap, howner⟩ := ih.old hlt
      rw [hheap, howner]
      simp [createEntry]
    constructor
    case rest =>
      rw [ih.rest]
      rfl
    case nextRef => exact Nat.le_trans (Nat.le_succ _) ih.nextRef
    case old =>
      intro ref href
      have hlt : ref < (m.createEntry row.1 row.2.restored).nextRef := Nat.lt_succ_of_lt href
      obtain ⟨hheap, howner⟩ := ih.old hlt
      rw [hheap, howner]
      simp [createEntry, Nat.ne_of_lt href]
    case heap =>
      intro ref
      by_cases href : ref = m.nextRef
      . subst href
        right
        rw [hself.1]
        rfl
      . cases ih.heap ref with
        | inl h => exact .inl (by rw [h]; simp [createEntry, href])
        | inr h => exact .inr h
    case lookup =>
      intro tid htid
      rw [List.map_cons, List.mem_cons, not_or] at htid
      rw [ih.lookup htid.2]
      exact AList.lookup_insert_ne htid.1
    case entry =>
      intro tid ref href
      cases ih.entry href with
      | inl h =>
        by_cases htid : tid = row.1
        . subst htid
          obtain rfl : m.nextRef = ref := by simpa [createEntry] using h
          exact .inr ⟨ih.nextRef, hself.2, row.2, List.mem_cons_self, hself.1⟩
        . left
          rwa [show (m.createEntry row.1 row.2.restored).userStates.lookup tid = _ from
            AList.lookup_insert_ne htid] at h
      | inr h =>
        obtain ⟨hlt, howner, row', hmem, hheap⟩ := h
        exact .inr ⟨hlt, howner, row', List.mem_cons_of_mem _ hmem, hheap⟩
    case found =>
      intro tid row' hnodup hmem
      rw [List.map_cons, List.nodup_cons] at hnodup
      cases List.mem_cons.mp hmem with
      | inl h =>
        subst h
        refine ⟨m.nextRef, ?_, hself.1⟩
        rw [ih.lookup hnodup.1]
        exact AList.lookup_insert _
      | inr h => exact ih.found hnodup.2 h

/-! ## `_restart_pending_debounce_tasks` -/

def IsRestoredTask (task : Task) (tid : TelegramId) (st : UserState) : Prop :=
  ∃ newState oldState origDt wakeAt, st.pendingState = some newState ∧
    task = { kind := .confirmRestored tid newState oldState origDt, pc := .sleeping wakeAt }

structure Restarting (m m' : Monitor) (items : List (TelegramId × Ref)) : Prop where
  rest : m' = { m with heap := m'.heap, tasks := m'.tasks, nextTask := m'.nextTask }
  heap : ∀ ref, m'.heap ref = { m.heap ref with debounceTask := (m'.heap ref).debounceTask }
  heap_ne : ∀ {ref}, (∀ item ∈ items, item.2 ≠ ref) → m'.heap ref = m.heap ref
  nextTask : m.nextTask ≤ m'.nextTask
  tasks_old : ∀ {k}, k < m.nextTask → m'.tasks k = m.tasks k
  live : ∀ {item}, item ∈ items → (m.heap item.2).pendingState ≠ none →
    ∃ k, (m'.heap item.2).debounceTask = some k
  debounceTask : ∀ {ref k}, (m'.heap ref).debounceTask = some k →
    (m.heap ref).debounceTask = some k ∨
      (k < m'.nextTask ∧ ∃ item ∈ items, item.2 = ref ∧
        ∃ task, m'.tasks k = some task ∧ IsRestoredTask task item.1 (m.heap ref))
  tasks : ∀ {k task}, m'.tasks k = some task → m.tasks k = some task ∨
    (m.nextTask ≤ k ∧ k < m'.nextTask ∧ ∃ item ∈ items, (m'.heap item.2).debounceTask = some k ∧
      IsRestoredTask task item.1 (m.heap item.2))

theorem Restarting.refl (m : Monitor) (items : List (TelegramId × Ref))
    (h : ∀ item ∈ items, (m.heap item.2).pendingState = none ∨ (m.heap item.2).debounceTask ≠ none)
    : Restarting m m items where
  rest := rfl
  heap _ := rfl
  heap_ne _ := rfl
  nextTask := Nat.le_refl _
  tasks_old _ := rfl
  live hitem hpending := Option.ne_none_iff_exists'.mp ((h _ hitem).resolve_left hpending)
  debounceTask h := .inl h
  tasks h := .inl h

theorem restarting_createDebounceTask {m : Monitor} {item : TelegramId × Ref} {task : Task}
    (htask : IsRestoredTask task item.1 (m.heap item.2))
    : Restarting m (m.createDebounceTask item.2 task) [item] := by
  constructor
  case rest => rfl
  case heap =>
    intro ref
    by_cases href : ref = item.2
    . subst href
      simp [createDebounceTask, modify, setTask]
    . simp [createDebounceTask, modify, setTask, href]
  case heap_ne =>
    intro ref href
    have href : ref ≠ item.2 := (href item List.mem_cons_self).symm
    simp [createDebounceTask, modify, setTask, href]
  case nextTask => exact Nat.le_succ _
  case tasks_old =>
    intro k hk
    simp [createDebounceTask, modify, setTask, Nat.ne_of_lt hk]
  case live =>
    intro item' hitem' _
    rw [List.mem_singleton.mp hitem']
    exact ⟨m.nextTask, by simp [createDebounceTask, modify, setTask]⟩
  case debounceTask =>
    intro ref k hk
    by_cases href : ref = item.2
    . subst href
      obtain rfl : m.nextTask = k := by simpa [createDebounceTask, modify, setTask] using hk
      refine .inr ⟨Nat.lt_succ_self _, item, List.mem_cons_self, rfl, task, ?_, htask⟩
      simp [createDebounceTask, modify, setTask]
    . left
      simpa [createDebounceTask, modify, setTask, href] using hk
  case tasks =>
    intro k task' hk
    by_cases hnew : k = m.nextTask
    . subst hnew
      obtain rfl : task = task' := by simpa [createDebounceTask, modify, setTask] using hk
      refine .inr ⟨Nat.le_refl _, Nat.lt_succ_self _, item, List.mem_cons_self, ?_, htask⟩
      simp [createDebounceTask, modify, setTask]
    . left
      simpa [createDebounceTask, modify, setTask, hnew] using hk

theorem restarting_restartPendingDebounceTask (debounceS : Int) (m : Monitor)
    (item : TelegramId × Ref)
    : Restarting m (restartPendingDebounceTask debounceS m item) [item] := by
  dsimp only [restartPendingDebounceTask]
  cases hpending : (m.heap item.2).pendingState with
  | none =>
    apply Restarting.refl
    intro item' hitem'
    rw [List.mem_singleton.mp hitem']
    exact .inl hpending
  | some newState =>
    cases hdebounce : (m.heap item.2).debounceTask with
    | some k =>
      apply Restarting.refl
      intro item' hitem'
      rw [List.mem_singleton.mp hitem', hdebounce]
      exact .inr nofun
    | none => exact restarting_createDebounceTask ⟨_, _, _, _, hpending, rfl⟩

theorem Restarting.cons {m m₁ m' : Monitor} {item : TelegramId × Ref}
    {items : List (TelegramId × Ref)} (hitem : ∀ item' ∈ items, item'.2 ≠ item.2)
    (h₁ : Restarting m m₁ [item]) (h₂ : Restarting m₁ m' items)
    : Restarting m m' (item :: items) := by
  have hpending (ref : Ref) : (m₁.heap ref).pendingState = (m.heap ref).pendingState := by
    rw [h₁.heap]
  have hhead : m'.heap item.2 = m₁.heap item.2 := h₂.heap_ne hitem
  have htask {task : Task} {tid : TelegramId} {ref : Ref}
      : IsRestoredTask task tid (m₁.heap ref) ↔ IsRestoredTask task tid (m.heap ref) := by
    unfold IsRestoredTask
    rw [hpending]
  constructor
  case rest => rw [h₂.rest, h₁.rest]
  case heap =>
    intro ref
    rw [h₂.heap, h₁.heap]
  case heap_ne =>
    intro ref href
    rw [List.forall_mem_cons] at href
    rw [h₂.heap_ne href.2]
    apply h₁.heap_ne
    intro item' hitem'
    rw [List.mem_singleton.mp hitem']
    exact href.1
  case nextTask => exact Nat.le_trans h₁.nextTask h₂.nextTask
  case tasks_old =>
    intro k hk
    rw [h₂.tasks_old (Nat.lt_of_lt_of_le hk h₁.nextTask), h₁.tasks_old hk]
  case live =>
    intro item' hitem' hpending'
    cases List.mem_cons.mp hitem' with
    | inl heq =>
      subst heq
      rw [hhead]
      exact h₁.live List.mem_cons_self hpending'
    | inr hmem => exact h₂.live hmem (by rwa [hpending])
  case debounceTask =>
    intro ref k hk
    cases h₂.debounceTask hk with
    | inl hk₁ =>
      refine (h₁.debounceTask hk₁).imp_right ?_
      rintro ⟨hlt, item', hitem', href, task, htasks, hrestored⟩
      rw [List.mem_singleton.mp hitem'] at href hrestored
      refine ⟨Nat.lt_of_lt_of_le hlt h₂.nextTask, item, List.mem_cons_self, href, task, ?_, hrestored⟩
      rw [h₂.tasks_old hlt, htasks]
    | inr hnew =>
      obtain ⟨hlt, item', hitem', href, task, htasks, hrestored⟩ := hnew
      exact .inr ⟨hlt, item', List.mem_cons_of_mem _ hitem', href, task, htasks, htask.mp hrestored⟩
  case tasks =>
    intro k task hk
    cases h₂.tasks hk with
    | inl hk₁ =>
      refine (h₁.tasks hk₁).imp_right ?_
      rintro ⟨hle, hlt, item', hitem', hdebounce, hrestored⟩
      rw [List.mem_singleton.mp hitem'] at hdebounce hrestored
      refine ⟨hle, Nat.lt_of_lt_of_le hlt h₂.nextTask, item, List.mem_cons_self, ?_, hrestored⟩
      rw [hhead, hdebounce]
    | inr hnew =>
      obtain ⟨hle, hlt, item', hitem', hdebounce, hrestored⟩ := hnew
      exact .inr ⟨Nat.le_trans h₁.nextTask hle, hlt, item', List.mem_cons_of_mem _ hitem', hdebounce,
        htask.mp hrestored⟩

theorem restarting_foldl (debounceS : Int) (items : List (TelegramId × Ref)) (m : Monitor)
    (hitems : (items.map (·.2)).Nodup)
    : Restarting m (items.foldl (restartPendingDebounceTask debounceS) m) items := by
  induction items generalizing m with
  | nil => exact Restarting.refl m [] nofun
  | cons item items ih =>
    rw [List.map_cons, List.nodup_cons] at hitems
    refine .cons ?_ (restarting_restartPendingDebounceTask debounceS m item) (ih _ hitems.2)
    intro item' hitem' heq
    exact hitems.1 (heq ▸ List.mem_map_of_mem hitem')

structure Restart (m m' : Monitor) : Prop where
  rest : m' = { m with
    userStates := m'.userStates, dirtyStates := [], heap := m'.heap, owner := m'.owner
    nextRef := m'.nextRef, tasks := m'.tasks, nextTask := m'.nextTask
    cycle := .idle, groups := [], flushes := [] }
  nextTask : m.nextTask ≤ m'.nextTask
  entry : ∀ {tid ref}, m'.userStates.lookup tid = some ref →
    ref < m'.nextRef ∧ m'.owner ref = tid ∧
      ∃ row, (tid, row) ∈ getRecentUserPowerStates m.userPowerStates m.now ∧
        m'.heap ref = { row.restored with debounceTask := (m'.heap ref).debounceTask }
  found : ∀ {tid row}, (tid, row) ∈ getRecentUserPowerStates m.userPowerStates m.now →
    ∃ ref, m'.userStates.lookup tid = some ref ∧
      m'.heap ref = { row.restored with debounceTask := (m'.heap ref).debounceTask }
  live : ∀ {tid ref}, m'.userStates.lookup tid = some ref → (m'.heap ref).pendingState ≠ none →
    ∃ k, (m'.heap ref).debounceTask = some k ∧ m'.tasks k ≠ none
  debounceTask : ∀ {ref k}, (m'.heap ref).debounceTask = some k →
    (m.heap ref).debounceTask = some k ∨ k < m'.nextTask
  tasks : ∀ {k task}, m'.tasks k = some task → m.nextTask ≤ k ∧ k < m'.nextTask ∧
    ∃ tid ref, m'.userStates.lookup tid = some ref ∧ (m'.heap ref).debounceTask = some k ∧
      IsRestoredTask task tid (m'.heap ref)
  stored : ∀ {ref k task}, (∀ k, (m.heap ref).debounceTask = some k → k < m.nextTask) →
    (m'.heap ref).debounceTask = some k → m'.tasks k = some task →
      ∃ tid, m'.userStates.lookup tid = some ref ∧ IsRestoredTask task tid (m'.heap ref)

theorem nodup_items (m : Monitor) : m.items.Nodup := by
  unfold items
  refine List.Nodup.map ?_ (List.nodup_reverse.mpr m.userStates.nodupKeys.nodup)
  rintro ⟨tid, ref⟩ ⟨tid', ref'⟩ h
  cases h
  rfl

theorem Restored.nodup_refs {m m' : Monitor} {rows : List (TelegramId × UserPowerStateRow)}
    (h : Restored m m' rows) (hempty : m.userStates = ∅) : (m'.items.map (·.2)).Nodup := by
  have howner {tid : TelegramId} {ref : Ref} (href : m'.userStates.lookup tid = some ref)
      : m'.owner ref = tid := by
    have hnew := (h.entry href).resolve_left (by simp [hempty])
    exact hnew.2.1
  refine List.Nodup.map_on ?_ (nodup_items m')
  rintro ⟨tid, ref⟩ hmem ⟨tid', ref'⟩ hmem' heq
  dsimp only at heq
  rw [← howner (mem_items.mp hmem), ← howner (mem_items.mp hmem'), heq]

theorem nodup_getRecentUserPowerStates (table : AList (fun _ : TelegramId => UserPowerStateRow))
    (now : Time) : ((getRecentUserPowerStates table now).map (·.1)).Nodup := by
  unfold getRecentUserPowerStates
  dsimp only
  refine List.Nodup.sublist (List.filter_sublist.map _) ?_
  rw [List.map_map]
  exact table.nodupKeys

theorem restart_restarted (m : Monitor) (val : Option (Option Int))
    : Restart m (m.restarted val) := by
  unfold restarted restartPendingDebounceTasks
  dsimp only
  have h₁ := restored_restoreUserStates { m with
    userStates := ∅, dirtyStates := [], tasks := fun _ => none
    cycle := .idle, groups := [], flushes := [] } (getRecentUserPowerStates m.userPowerStates m.now)
  generalize restoreUserStates _ _ = m₁ at h₁ ⊢
  have hentry {tid : TelegramId} {ref : Ref} (h : m₁.userStates.lookup tid = some ref)
      : ref < m₁.nextRef ∧ m₁.owner ref = tid ∧
          ∃ row, (tid, row) ∈ getRecentUserPowerStates m.userPowerStates m.now ∧
            m₁.heap ref = row.restored :=
    (h₁.entry h).resolve_left (by simp)
  have hitems : (m₁.items.map (·.2)).Nodup := h₁.nodup_refs rfl
  have h₂ := restarting_foldl (fetchedDebounce val) m₁.items m₁ hitems
  generalize List.foldl _ _ _ = m₂ at h₂ ⊢
  have hstates : m₂.userStates = m₁.userStates := by rw [h₂.rest]
  have hnextTask : m₁.nextTask = m.nextTask := by rw [h₁.rest]
  have hpending (ref : Ref) : (m₂.heap ref).pendingState = (m₁.heap ref).pendingState := by
    rw [h₂.heap]
  have htask {task : Task} {tid : TelegramId} {ref : Ref}
      (h : IsRestoredTask task tid (m₁.heap ref)) : IsRestoredTask task tid (m₂.heap ref) := by
    unfold IsRestoredTask
    rwa [hpending]
  have htasks {k : TaskId} {task : Task} (hk : m₂.tasks k = some task)
      : m₁.nextTask ≤ k ∧ k < m₂.nextTask ∧ ∃ item ∈ m₁.items,
          (m₂.heap item.2).debounceTask = some k ∧ IsRestoredTask task item.1 (m₁.heap item.2) := by
    refine (h₂.tasks hk).resolve_left ?_
    rw [h₁.rest]
    nofun
  have hdebounce {ref : Ref} {k : TaskId} (hk : (m₂.heap ref).debounceTask = some k)
      : (m.heap ref).debounceTask = some k ∨
          (k < m₂.nextTask ∧ ∃ item ∈ m₁.items, item.2 = ref ∧
            ∃ task, m₂.tasks k = some task ∧ IsRestoredTask task item.1 (m₁.heap ref)) := by
    refine (h₂.debounceTask hk).imp_left fun hk₁ => ?_
    cases h₁.heap ref with
    | inl heq => rwa [heq] at hk₁
    | inr hnone => rw [hnone] at hk₁; cases hk₁
  constructor
  case rest => rw [h₂.rest, h₁.rest]
  case nextTask => exact hnextTask ▸ h₂.nextTask
  case entry =>
    intro tid ref href
    obtain ⟨hlt, howner, row, hmem, hheap⟩ := hentry (hstates ▸ href)
    refine ⟨?_, ?_, row, hmem, ?_⟩
    . rwa [h₂.rest]
    . rwa [h₂.rest]
    . rw [h₂.heap, hheap]
  case found =>
    intro tid row hmem
    obtain ⟨ref, href, hheap⟩ := h₁.found (nodup_getRecentUserPowerStates _ _) hmem
    refine ⟨ref, by rwa [hstates], ?_⟩
    rw [h₂.heap, hheap]
  case live =>
    intro tid ref href hpending'
    rw [hstates] at href
    obtain ⟨k, hk⟩ := h₂.live (mem_items.mpr href) (by rwa [← hpending])
    obtain ⟨_, _, row, _, hheap⟩ := hentry href
    have hnone : (m₁.heap ref).debounceTask ≠ some k := by
      rw [hheap]
      nofun
    obtain ⟨_, _, _, _, task, hsome, _⟩ := (h₂.debounceTask hk).resolve_left hnone
    exact ⟨k, hk, by rw [hsome]; exact Option.some_ne_none _⟩
  case debounceTask =>
    intro ref k hk
    exact (hdebounce hk).imp_right And.left
  case tasks =>
    intro k task hk
    obtain ⟨hle, hlt, ⟨tid, ref⟩, hmem, hstored, hrestored⟩ := htasks hk
    exact ⟨hnextTask ▸ hle, hlt, tid, ref, hstates ▸ mem_items.mp hmem, hstored, htask hrestored⟩
  case stored =>
    intro ref k task hbound hstored hk
    cases hdebounce hstored with
    | inl hold =>
      have hlt := hbound k hold
      exact absurd hlt (Nat.not_lt.mpr (hnextTask ▸ (htasks hk).1))
    | inr hnew =>
      obtain ⟨_, ⟨tid, ref'⟩, hmem, href, task', hk', hrestored⟩ := hnew
      obtain rfl := href
      obtain rfl : task = task' := Option.some.inj (hk ▸ hk')
      exact ⟨tid, hstates ▸ mem_items.mp hmem, htask hrestored⟩

end Monitor
end PowerMonitor
