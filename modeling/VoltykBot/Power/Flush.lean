import VoltykBot.Power.Pairing

/-!
This module contains what the flush of the power monitor owes: which entries are marked dirty, and when
dropping the marks of a flush loses an update. Every step but those of a flush marks the entries that
it writes to.
-/

namespace PowerMonitor

def Event.saves (e : Event) : Bool :=
  match e with
  | .flushStarted => true
  | .flushCommitted _ _ => true
  | .flushCleared _ => true
  | .restarted _ => true
  | _ => false

namespace Monitor

def Saved (m : Monitor) (tid : TelegramId) : Prop :=
  ∀ ref ∈ m.userStates.lookup tid,
    (m.userPowerStates.lookup tid).map (·.fields) = some (m.heap ref).savedFields

instance (m : Monitor) (tid : TelegramId) : Decidable (Saved m tid) :=
  inferInstanceAs (Decidable (∀ ref ∈ m.userStates.lookup tid, _))

def UnsavedMarked (m : Monitor) : Prop :=
  ∀ tid, ¬ Saved m tid → tid ∈ m.dirtyStates

structure Marks (m m' : Monitor) : Prop where
  rows : m'.userPowerStates = m.userPowerStates
  flushes : ∀ {flush}, flush ∈ m'.flushes → flush ∈ m.flushes
  entry : ∀ {tid ref}, m'.userStates.lookup tid = some ref → tid ∈ m'.dirtyStates ∨
    (m.userStates.lookup tid = some ref ∧ (m'.heap ref).savedFields = (m.heap ref).savedFields ∧
      (tid ∈ m.dirtyStates → tid ∈ m'.dirtyStates))

theorem UnsavedMarked.of_marks {m m' : Monitor} (h : UnsavedMarked m) (hmarks : Marks m m')
    : UnsavedMarked m' := by
  intro tid hunsaved
  unfold Saved at hunsaved
  push Not at hunsaved
  obtain ⟨ref, href, hne⟩ := hunsaved
  cases hmarks.entry href with
  | inl hdirty => exact hdirty
  | inr hsame =>
    obtain ⟨href', hfields, hdirty⟩ := hsame
    apply hdirty
    apply h
    intro hsaved
    apply hne
    rw [hmarks.rows, hfields]
    exact hsaved ref href'

theorem Marks.of_eq {m m' : Monitor} (hrows : m'.userPowerStates = m.userPowerStates)
    (hstates : m'.userStates = m.userStates)
    (hfields : ∀ ref, (m'.heap ref).savedFields = (m.heap ref).savedFields)
    (hdirty : m'.dirtyStates = m.dirtyStates) (hflushes : ∀ flush ∈ m'.flushes, flush ∈ m.flushes)
    : Marks m m' where
  rows := hrows
  flushes h := hflushes _ h
  entry href := .inr ⟨hstates ▸ href, hfields _, fun h => hdirty ▸ h⟩

theorem Marks.trans {m m₁ m' : Monitor} (h₁ : Marks m m₁) (h₂ : Marks m₁ m') : Marks m m' where
  rows := h₂.rows.trans h₁.rows
  flushes h := h₁.flushes (h₂.flushes h)
  entry href := by
    cases h₂.entry href with
    | inl hdirty => exact .inl hdirty
    | inr hsame =>
      obtain ⟨href₁, hfields₂, hdirty₂⟩ := hsame
      cases h₁.entry href₁ with
      | inl hdirty => exact .inl (hdirty₂ hdirty)
      | inr hsame =>
        obtain ⟨href₀, hfields₁, hdirty₁⟩ := hsame
        exact .inr ⟨href₀, hfields₂.trans hfields₁, hdirty₂ ∘ hdirty₁⟩

structure Writes (m m' : Monitor) (ref : Ref) : Prop where
  rows : m'.userPowerStates = m.userPowerStates
  flushes : m'.flushes = m.flushes
  userStates : m'.userStates = m.userStates
  owner : m'.owner = m.owner
  heap_ne : ∀ {r}, r ≠ ref → m'.heap r = m.heap r
  dirtyStates : ∀ {tid}, tid ∈ m.dirtyStates → tid ∈ m'.dirtyStates

theorem Writes.refl (m : Monitor) (ref : Ref) : Writes m m ref where
  rows := rfl
  flushes := rfl
  userStates := rfl
  owner := rfl
  heap_ne _ := rfl
  dirtyStates h := h

theorem Writes.modify {m m' : Monitor} {ref : Ref} (h : Writes m m' ref) (f : UserState → UserState)
    : Writes m (m'.modify ref f) ref :=
  { h with heap_ne := fun hr => by simp [Monitor.modify, hr, h.heap_ne hr] }

theorem Writes.markDirty {m m' : Monitor} {ref : Ref} (h : Writes m m' ref) (tid : TelegramId)
    : Writes m (m'.markDirty tid) ref :=
  { h with dirtyStates := fun htid => List.mem_insert_of_mem (h.dirtyStates htid) }

theorem Writes.record {m m' : Monitor} {ref : Ref} (h : Writes m m' ref) (entry : LogEntry)
    : Writes m (m'.record entry) ref :=
  { h with }

theorem Writes.setTask {m m' : Monitor} {ref : Ref} (h : Writes m m' ref) (k : TaskId)
    (task : Option Task) : Writes m (m'.setTask k task) ref :=
  { h with }

theorem Writes.cancelDebounceTask {m m' : Monitor} {ref : Ref} (h : Writes m m' ref)
    : Writes m (m'.cancelDebounceTask ref) ref := by
  unfold Monitor.cancelDebounceTask
  split
  . split
    . exact h
    . exact (h.setTask _ none).modify _
  . exact h

theorem Writes.applyVerdict {m m' : Monitor} {ref : Ref} (h : Writes m m' ref) (tid : TelegramId)
    (newState : PowerState) (verdict : Verdict)
    : Writes m (m'.applyVerdict tid ref newState verdict).1 ref := by
  cases verdict with
    dsimp only [Monitor.applyVerdict]
  | seedFromDb state changedAt => exact h.modify _
  | seedFromReading => exact h.modify _
  | unchanged => exact h.modify _
  | flapping => exact ((h.modify _).cancelDebounceTask.modify _).markDirty tid
  | alreadyPending => exact h
  | newPending => exact ((h.cancelDebounceTask.modify _).modify _).markDirty tid

theorem mem_dirtyStates_markDirty (m : Monitor) (tid : TelegramId)
    : tid ∈ (m.markDirty tid).dirtyStates :=
  List.mem_insert_self

theorem Writes.marks {m m' : Monitor} {tid : TelegramId} {ref : Ref} (h : Writes m m' ref)
    (hwf : Wf m) (howner : m.owner ref = tid) (hdirty : tid ∈ m'.dirtyStates) : Marks m m' where
  rows := h.rows
  flushes hflush := h.flushes ▸ hflush
  entry {tid' ref'} href := by
    rw [h.userStates] at href
    by_cases hne : ref' = ref
    . left
      rwa [← (hwf.entry href).2, hne, howner]
    . exact .inr ⟨href, by rw [h.heap_ne hne], h.dirtyStates⟩

theorem Marks.of_entered {m m' : Monitor} {tid : TelegramId} {ref : Ref} (hwf : Wf m)
    (h : Entered m m' tid ref) : Marks m m' := by
  obtain rfl | ⟨_, _, rfl⟩ := h.cases
  . exact .of_eq rfl rfl (fun _ => rfl) rfl fun _ h => h
  . constructor
    . rfl
    . exact id
    . intro tid' ref' href
      by_cases htid : tid' = tid
      . subst htid
        exact .inl (mem_dirtyStates_markDirty _ _)
      . have href' : m.userStates.lookup tid' = some ref' := by
          rw [← href]
          exact (lookup_createEntry_ne {} htid).symm
        refine .inr ⟨href', ?_, fun h => List.mem_insert_of_mem h⟩
        exact congrArg UserState.savedFields (heap_createEntry tid {} (hwf.entry href').1)

theorem Marks.of_evicted {m m' : Monitor} {tids : List TelegramId} (h : Evicted m m' tids)
    : Marks m m' where
  rows := by rw [h.rest]
  flushes hflush := by rwa [h.rest] at hflush
  entry {tid ref} href := by
    rw [h.lookup] at href
    split at href
    . cases href
    . next htid =>
      refine .inr ⟨href, by rw [h.rest], ?_⟩
      intro hdirty
      rw [h.rest]
      exact List.mem_filter.mpr ⟨hdirty, by simpa using htid⟩

theorem marks_observe {m m' : Monitor} {i : Nat} (hwf : Wf m)
    (h : m.stepCall i observeCall = some m') : Marks m m' := by
  obtain ⟨g, call, m₂, pc, _, _, hf, rfl⟩ := stepCall_eq_some h
  unfold observeCall at hf
  split at hf
  . have hentered := entered_getUserState m call.user.telegramId
    have hwf₁ := hwf.of_entered hentered
    dsimp only [observe] at hf
    generalize m.getUserState call.user.telegramId = r at hf hentered hwf₁
    obtain ⟨m₁, ref⟩ := r
    dsimp only at hf
    have hm₂ := congrArg Prod.fst (Option.some.inj hf)
    dsimp only at hm₂
    refine (Marks.of_entered hwf hentered).trans ?_
    have hwrites : Writes m₁ m₂ ref := by
      rw [← hm₂]
      exact ((((Writes.refl m₁ ref).modify _).markDirty _).record _).applyVerdict _ _ _
    have hdirty : call.user.telegramId ∈ m₂.dirtyStates := by
      rw [← hm₂]
      exact (((Writes.refl _ ref).record _).applyVerdict _ _ _).dirtyStates
        (mem_dirtyStates_markDirty _ _)
    have hmarks := hwrites.marks hwf₁ (hwf₁.entry hentered.lookup).2 hdirty
    exact ⟨hmarks.rows, hmarks.flushes, hmarks.entry⟩
  . cases hf

theorem marks_stepHandler {cfg : Settings} {m m' : Monitor} {tid : TelegramId}
    {newState : PowerState} {ref : Ref} {origDt : Option Time} {pc : HandlerPc}
    {pc' : Option HandlerPc} {e : HandlerEvent} (hwf : Wf m) (howner : m.owner ref = tid)
    (h : m.stepHandler cfg tid newState ref origDt pc e = some (m', pc')) : Marks m m' := by
  unfold stepHandler at h
  split at h
  . cases h
    exact .of_eq rfl rfl (fun _ => rfl) rfl fun _ h => h
  . rw [stateUpdated_eq (Option.some.inj h)]
    exact .of_eq rfl rfl (fun _ => rfl) rfl fun _ h => h
  . cases h
    exact .of_eq rfl rfl (fun _ => rfl) rfl fun _ h => h
  . cases h
    exact (((Writes.refl m ref).modify _).markDirty tid).marks hwf howner
      (mem_dirtyStates_markDirty _ _)
  . cases h
    exact .of_eq rfl rfl (fun _ => rfl) rfl fun _ h => h
  . cases h
    exact (((Writes.refl m ref).modify _).markDirty tid).marks hwf howner
      (mem_dirtyStates_markDirty _ _)
  . cases h

theorem marks_confirm {m : Monitor} {k : TaskId} {task : Task} (hwf : Wf m)
    (hk : m.tasks k = some task) (hpc : task.pc = .lock) : Marks m (m.confirm k task.kind) := by
  obtain ⟨kind, pc⟩ := task
  subst hpc
  have hwrites (tid : TelegramId) (ref : Ref) (newState : PowerState) (entry : LogEntry)
      (task' : Option Task) (howner : m.owner ref = tid)
      : Marks m (((m.confirmEntry tid ref newState).record entry).setTask k task') :=
    (((((Writes.refl m ref).modify _).markDirty tid).record entry).setTask k task').marks hwf howner
      (mem_dirtyStates_markDirty _ _)
  cases kind with
  | confirmState call tid ref newState oldState =>
    exact hwrites tid ref newState _ _ (hwf.taskRef hk rfl).2
  | confirmRestored tid newState oldState origDt =>
    dsimp only [confirm]
    split
    . next ref href =>
      split
      . exact hwrites tid ref newState _ _ (hwf.entry href).2
      . exact .of_eq rfl rfl (fun _ => rfl) rfl fun _ h => h
    . exact .of_eq rfl rfl (fun _ => rfl) rfl fun _ h => h

theorem marks_stepCall {m m' : Monitor} {i : Nat}
    {f : Monitor → Call → Option (Monitor × Option CallPc)}
    (hf : ∀ {call m₁ pc}, f m call = some (m₁, pc) → Marks m m₁) (h : m.stepCall i f = some m')
    : Marks m m' := by
  obtain ⟨g, call, m₁, pc, _, _, hf', rfl⟩ := stepCall_eq_some h
  have hmarks := hf hf'
  exact ⟨hmarks.rows, hmarks.flushes, hmarks.entry⟩

theorem marks_sessionDone {m m₁ : Monitor} {call : Call} {ok : Bool} {pc : Option CallPc}
    (h : m.sessionDone call ok = some (m₁, pc)) : Marks m m₁ := by
  unfold sessionDone at h
  split at h
  . cases h
    cases ok <;> exact .of_eq rfl rfl (fun _ => rfl) rfl fun _ h => h
  . cases h
    cases ok <;> exact .of_eq rfl rfl (fun _ => rfl) rfl fun _ h => h
  . cases h
    cases ok <;> exact .of_eq rfl rfl (fun _ => rfl) rfl fun _ h => h
  . cases h

theorem marks_debounceRead {cfg : Settings} {m m₁ : Monitor} {call : Call}
    {val : Option (Option Int)} {pc : Option CallPc}
    (h : m.debounceRead cfg call val = some (m₁, pc)) : Marks m m₁ := by
  unfold debounceRead at h
  split at h
  . cases h
    exact .of_eq rfl rfl (fun _ => rfl) rfl fun _ h => h
  . cases h

theorem marks_taskStored {m m₁ : Monitor} {call : Call} {pc : Option CallPc}
    (h : m.taskStored call = some (m₁, pc)) : Marks m m₁ := by
  unfold taskStored at h
  split at h
  . cases h
    refine .of_eq rfl rfl ?_ rfl fun _ h => h
    intro ref
    dsimp only [createDebounceTask]
    apply heap_modify_keeps UserState.savedFields
    intro st
    rfl
  . cases h

theorem marks_step {cfg : Settings} {m m' : Monitor} {e : Event} (hwf : Wf m)
    (he : e.saves = false) (hstep : m.step cfg e = some m') : Marks m m' := by
  cases e with
  | tick _ | cycleStarted | batchLoaded _ | loadFailed | pinged _ _ | pingRaised _ | callStarted _
  | cycleEnded | cycleCancelled =>
    rcases step_inCycle rfl hstep with ⟨_, _, _, _, rfl⟩
    exact .of_eq rfl rfl (fun _ => rfl) rfl fun _ h => h
  | inactiveEvicted =>
    obtain ⟨users, _, rfl⟩ := stepCycle_inactiveEvicted hstep
    have hmarks : Marks m (m.evictInactive users) := .of_evicted (evicted_evict m _)
    exact ⟨hmarks.rows, hmarks.flushes, hmarks.entry⟩
  | staleEvicted =>
    obtain ⟨users, _, rfl⟩ := stepCycle_staleEvicted hstep
    have hmarks : Marks m (m.evictStaleEntries cfg) := .of_evicted (evicted_evict m _)
    exact ⟨hmarks.rows, hmarks.flushes, hmarks.entry⟩
  | observed i => exact marks_observe hwf hstep
  | sessionDone i ok =>
    exact marks_stepCall (f := fun m call => m.sessionDone call ok) marks_sessionDone hstep
  | debounceRead i val =>
    exact marks_stepCall (f := fun m call => m.debounceRead cfg call val) marks_debounceRead hstep
  | taskStored i => exact marks_stepCall marks_taskStored hstep
  | woken k =>
    obtain ⟨_, _, _, _, _, rfl⟩ := step_woken hstep
    exact .of_eq rfl rfl (fun _ => rfl) rfl fun _ h => h
  | confirmed k =>
    obtain ⟨task, hk, hpc, rfl⟩ := step_confirmed hstep
    exact marks_confirm hwf hk hpc
  | userReloaded k found =>
    rcases step_userReloaded hstep with ⟨_, _, _, _, _, _, _, _, _, rfl⟩
    exact .of_eq rfl rfl (fun _ => rfl) rfl fun _ h => h
  | handler k e =>
    rcases step_handler hstep with ⟨task, ref, origDt, pc, m₁, pc', hk, hpc, hhandler, rfl⟩
    have howner := (hwf.taskRef hk (ref_of_handling hpc)).2
    have hmarks := marks_stepHandler hwf howner hhandler
    exact ⟨hmarks.rows, hmarks.flushes, hmarks.entry⟩
  | handlerTimedOut k =>
    rcases step_handlerTimedOut hstep with ⟨_, _, _, _, _, _, rfl⟩
    exact .of_eq rfl rfl (fun _ => rfl) rfl fun _ h => h
  | flushAborted i =>
    obtain ⟨_, _, rfl⟩ := flushAborted_eq_some hstep
    exact .of_eq rfl rfl (fun _ => rfl) rfl fun _ h => List.mem_of_mem_eraseIdx h
  | _ => cases he

theorem lookup_upsertUserPowerState_self (table : AList (fun _ : TelegramId => UserPowerStateRow))
    (txnAt : Time) (row : TelegramId × SavedFields)
    : (upsertUserPowerState table txnAt row).lookup row.1 = some {
        fields := row.2
        updatedAt := ((table.lookup row.1).map (·.updatedAt)).getD txnAt } := by
  unfold upsertUserPowerState
  rw [AList.lookup_insert]
  cases table.lookup row.1 <;> rfl

theorem lookup_upsertUserPowerState_ne {table : AList (fun _ : TelegramId => UserPowerStateRow)}
    {txnAt : Time} {row : TelegramId × SavedFields} {tid : TelegramId} (h : tid ≠ row.1)
    : (upsertUserPowerState table txnAt row).lookup tid = table.lookup tid :=
  AList.lookup_insert_ne h

theorem lookup_batchUpsert_notMem (table : AList (fun _ : TelegramId => UserPowerStateRow))
    (txnAt : Time) {rows : List (TelegramId × SavedFields)} {tid : TelegramId}
    (h : tid ∉ rows.map (·.1))
    : (batchUpsertUserPowerStates table txnAt rows).lookup tid = table.lookup tid := by
  unfold batchUpsertUserPowerStates
  induction rows generalizing table with
  | nil => rfl
  | cons row rows ih =>
    rw [List.map_cons, List.mem_cons, not_or] at h
    rw [List.foldl_cons, ih _ h.2, lookup_upsertUserPowerState_ne h.1]

theorem lookup_batchUpsert_mem (table : AList (fun _ : TelegramId => UserPowerStateRow))
    (txnAt : Time) {rows : List (TelegramId × SavedFields)} {tid : TelegramId}
    (h : tid ∈ rows.map (·.1))
    : ∃ fields, (tid, fields) ∈ rows ∧
        (batchUpsertUserPowerStates table txnAt rows).lookup tid = some {
          fields := fields
          updatedAt := ((table.lookup tid).map (·.updatedAt)).getD txnAt } := by
  unfold batchUpsertUserPowerStates
  induction rows generalizing table with
  | nil => cases h
  | cons row rows ih =>
    rw [List.foldl_cons]
    by_cases hmem : tid ∈ rows.map (·.1)
    . obtain ⟨fields, hfields, hlookup⟩ := ih (upsertUserPowerState table txnAt row) hmem
      refine ⟨fields, List.mem_cons_of_mem _ hfields, ?_⟩
      rw [hlookup]
      by_cases htid : tid = row.1
      . subst htid
        rw [lookup_upsertUserPowerState_self]
        rfl
      . rw [lookup_upsertUserPowerState_ne htid]
    . rw [List.map_cons, List.mem_cons] at h
      obtain rfl := h.resolve_right hmem
      refine ⟨row.2, List.mem_cons_self, ?_⟩
      have hnotMem := lookup_batchUpsert_notMem (upsertUserPowerState table txnAt row) txnAt hmem
      unfold batchUpsertUserPowerStates at hnotMem
      rw [hnotMem, lookup_upsertUserPowerState_self]

/--
Each entry that the flush is about is as the snapshot has it: nothing wrote to it, or created it anew,
since the snapshot was taken.
-/
def UpToDate (m : Monitor) (flush : Flush) : Prop :=
  ∀ tid ∈ flush.saveIds, ∀ ref ∈ m.userStates.lookup tid,
    (tid, (m.heap ref).savedFields) ∈ flush.rows

instance (m : Monitor) (flush : Flush) : Decidable (UpToDate m flush) :=
  inferInstanceAs (Decidable (∀ tid ∈ flush.saveIds, ∀ ref ∈ m.userStates.lookup tid, _))

/--
The flushes that the event relies on: the one whose marks are dropped, and for a flush that starts those
beside it.
-/
def reliesOn (m : Monitor) (e : Event) : List Flush :=
  match e with
  | .flushStarted => m.flushes
  | .flushCleared i => m.flushes[i]?.toList
  | _ => []

def FlushesUpToDate (m : Monitor) (e : Event) : Prop :=
  ∀ flush ∈ m.reliesOn e, UpToDate m flush

instance (m : Monitor) (e : Event) : Decidable (FlushesUpToDate m e) :=
  inferInstanceAs (Decidable (∀ flush ∈ m.reliesOn e, UpToDate m flush))

structure FlushInv (m : Monitor) : Prop where
  marked : UnsavedMarked m
  ids : ∀ {flush row}, flush ∈ m.flushes → row ∈ flush.rows → row.1 ∈ flush.saveIds
  agree : ∀ {flush flush' tid fields fields'}, flush ∈ m.flushes → flush' ∈ m.flushes →
    (tid, fields) ∈ flush.rows → (tid, fields') ∈ flush'.rows → fields = fields'
  committed : ∀ {flush row}, flush ∈ m.flushes → flush.pc = .committed → row ∈ flush.rows →
    (m.userPowerStates.lookup row.1).map (·.fields) = some row.2
  current : ∀ {flush row ref}, flush ∈ m.flushes → row ∈ flush.rows →
    m.userStates.lookup row.1 = some ref → row.1 ∉ m.dirtyStates →
      (m.heap ref).savedFields = row.2

theorem FlushInv.of_marks {m m' : Monitor} (h : FlushInv m) (hmarks : Marks m m') : FlushInv m' where
  marked := h.marked.of_marks hmarks
  ids hflush := h.ids (hmarks.flushes hflush)
  agree hflush hflush' := h.agree (hmarks.flushes hflush) (hmarks.flushes hflush')
  committed hflush := hmarks.rows ▸ h.committed (hmarks.flushes hflush)
  current hflush hrow href hdirty := by
    obtain ⟨href', hfields, hdirty'⟩ := (hmarks.entry href).resolve_left hdirty
    rw [hfields]
    exact h.current (hmarks.flushes hflush) hrow href' (hdirty ∘ hdirty')

theorem mem_rows_flushStarted {m : Monitor} {flush : Flush}
    (h : flush ∈ m.flushStarted.flushes)
    : flush ∈ m.flushes ∨ (flush.pc = .writing ∧ flush.saveIds = m.dirtyStates ∧
        ∀ {tid fields}, (tid, fields) ∈ flush.rows → tid ∈ m.dirtyStates ∧
          ∃ ref, m.userStates.lookup tid = some ref ∧ (m.heap ref).savedFields = fields) := by
  unfold flushStarted at h
  dsimp only at h
  split at h
  . exact .inl h
  . rw [List.mem_cons] at h
    cases h with
    | inr hold => exact .inl hold
    | inl hnew =>
      subst hnew
      refine .inr ⟨rfl, rfl, ?_⟩
      intro tid fields hrow
      obtain ⟨item, hitem, heq⟩ := List.mem_map.mp hrow
      cases heq
      obtain ⟨tid, htid, hitem⟩ := List.mem_filterMap.mp hitem
      obtain ⟨ref, href, rfl⟩ := Option.map_eq_some_iff.mp hitem
      exact ⟨htid, ref, href, rfl⟩

theorem flushInv_flushStarted {m : Monitor} (h : FlushInv m)
    (hcurrent : ∀ flush ∈ m.flushes, UpToDate m flush) : FlushInv m.flushStarted := by
  have hentry {flush : Flush} {tid : TelegramId} {fields : SavedFields} {ref : Ref}
      (hflush : flush ∈ m.flushes) (hrow : (tid, fields) ∈ flush.rows)
      (href : m.userStates.lookup tid = some ref) : (m.heap ref).savedFields = fields :=
    h.agree hflush hflush (hcurrent flush hflush tid (h.ids hflush hrow) ref href) hrow
  have hrest := flushStarted_eq m
  constructor
  . rw [hrest]
    exact h.marked
  . intro flush row hflush hrow
    cases mem_rows_flushStarted hflush with
    | inl hold => exact h.ids hold hrow
    | inr hnew => exact hnew.2.1 ▸ (hnew.2.2 hrow).1
  . intro flush flush' tid fields fields' hflush hflush' hrow hrow'
    cases mem_rows_flushStarted hflush with
    | inl hold =>
      cases mem_rows_flushStarted hflush' with
      | inl hold' => exact h.agree hold hold' hrow hrow'
      | inr hnew' =>
        obtain ⟨_, ref, href, rfl⟩ := hnew'.2.2 hrow'
        exact (hentry hold hrow href).symm
    | inr hnew =>
      obtain ⟨_, ref, href, rfl⟩ := hnew.2.2 hrow
      cases mem_rows_flushStarted hflush' with
      | inl hold' => exact hentry hold' hrow' href
      | inr hnew' =>
        obtain ⟨_, ref', href', rfl⟩ := hnew'.2.2 hrow'
        rw [Option.some.inj (href.symm.trans href')]
  . intro flush row hflush hpc hrow
    rw [hrest]
    cases mem_rows_flushStarted hflush with
    | inl hold => exact h.committed hold hpc hrow
    | inr hnew => exact FlushPc.noConfusion (hnew.1.symm.trans hpc)
  . intro flush row ref hflush hrow href hdirty
    rw [hrest] at href hdirty ⊢
    cases mem_rows_flushStarted hflush with
    | inl hold => exact h.current hold hrow href hdirty
    | inr hnew => exact absurd (hnew.2.2 hrow).1 hdirty

theorem flushInv_flushCommitted {m m' : Monitor} {i : Nat} {txnAt : Time} (h : FlushInv m)
    (hstep : m.flushCommitted i txnAt = some m') : FlushInv m' := by
  obtain ⟨flush, hflush, _, rfl⟩ := flushCommitted_eq_some hstep
  have hmem := List.mem_of_getElem? hflush
  -- the flushes in progress are the old ones, up to where they stand
  have hold {flush' : Flush}
      (h' : flush' ∈ m.flushes.set i { flush with pc := .committed })
      : ∃ flush₀ ∈ m.flushes, flush'.rows = flush₀.rows ∧ flush'.saveIds = flush₀.saveIds ∧
          (flush'.pc = flush₀.pc ∨ flush₀ = flush) := by
    cases List.mem_or_eq_of_mem_set h' with
    | inl h₀ => exact ⟨flush', h₀, rfl, rfl, .inl rfl⟩
    | inr heq => exact ⟨flush, hmem, heq ▸ rfl, heq ▸ rfl, .inr rfl⟩
  -- a row of the table is either untouched, or what this flush has
  have hrows (tid : TelegramId) (htid : tid ∈ flush.rows.map (·.1))
      : ∃ fields, (tid, fields) ∈ flush.rows ∧
          ((batchUpsertUserPowerStates m.userPowerStates txnAt flush.rows).lookup tid).map
            (·.fields) = some fields := by
    obtain ⟨fields, hfields, hlookup⟩ := lookup_batchUpsert_mem m.userPowerStates txnAt htid
    exact ⟨fields, hfields, by rw [hlookup]; rfl⟩
  constructor
  . intro tid hunsaved
    by_cases htid : tid ∈ flush.rows.map (·.1)
    . obtain ⟨fields, hfields, hlookup⟩ := hrows tid htid
      by_contra hdirty
      apply hunsaved
      intro ref href
      dsimp only
      rw [hlookup, h.current hmem hfields href hdirty]
    . apply h.marked
      intro hsaved
      apply hunsaved
      intro ref href
      dsimp only
      rw [lookup_batchUpsert_notMem _ _ htid]
      exact hsaved ref href
  . intro flush' row hflush' hrow
    obtain ⟨flush₀, hmem₀, heq, hids, _⟩ := hold hflush'
    rw [hids]
    exact h.ids hmem₀ (heq ▸ hrow)
  . intro flush₁ flush₂ tid fields fields' hflush₁ hflush₂ hrow hrow'
    obtain ⟨_, hmem₁, heq₁, _⟩ := hold hflush₁
    obtain ⟨_, hmem₂, heq₂, _⟩ := hold hflush₂
    exact h.agree hmem₁ hmem₂ (heq₁ ▸ hrow) (heq₂ ▸ hrow')
  . intro flush' row hflush' hpc hrow
    obtain ⟨flush₀, hmem₀, heq, _, hpc₀⟩ := hold hflush'
    rw [heq] at hrow
    dsimp only
    by_cases htid : row.1 ∈ flush.rows.map (·.1)
    . obtain ⟨fields, hfields, hlookup⟩ := hrows row.1 htid
      rw [hlookup, h.agree hmem hmem₀ hfields hrow]
    . rw [lookup_batchUpsert_notMem _ _ htid]
      cases hpc₀ with
      | inl hpc₀ => exact h.committed hmem₀ (hpc₀ ▸ hpc) hrow
      | inr heq₀ => exact absurd (List.mem_map_of_mem (heq₀ ▸ hrow)) htid
  . intro flush' row ref hflush' hrow href hdirty
    obtain ⟨_, hmem₀, heq, _⟩ := hold hflush'
    exact h.current hmem₀ (heq ▸ hrow) href hdirty

theorem flushInv_flushCleared {m m' : Monitor} {i : Nat} (h : FlushInv m)
    (hcurrent : FlushesUpToDate m (.flushCleared i))
    (hstep : m.flushCleared i = some m') : FlushInv m' := by
  obtain ⟨flush, hflush, hpc, rfl⟩ := flushCleared_eq_some hstep
  have hmem := List.mem_of_getElem? hflush
  have hcurrent := hcurrent flush (Option.mem_toList.mpr hflush)
  have hold {flush' : Flush} (h' : flush' ∈ m.flushes.eraseIdx i) : flush' ∈ m.flushes :=
    List.mem_of_mem_eraseIdx h'
  have hdropped {tid : TelegramId} (hdirty : tid ∉ m.dirtyStates.filter (· ∉ flush.saveIds))
      : tid ∉ m.dirtyStates ∨ tid ∈ flush.saveIds := by
    rw [List.mem_filter, decide_eq_true_eq] at hdirty
    tauto
  constructor
  . intro tid hunsaved
    by_contra hdirty
    cases hdropped hdirty with
    | inl hnot => exact hnot (h.marked tid hunsaved)
    | inr htid =>
      apply hunsaved
      intro ref href
      exact h.committed hmem hpc (hcurrent tid htid ref href)
  . intro flush' row hflush' hrow
    exact h.ids (hold hflush') hrow
  . intro flush₁ flush₂ tid fields fields' hflush₁ hflush₂
    exact h.agree (hold hflush₁) (hold hflush₂)
  . intro flush' row hflush'
    exact h.committed (hold hflush')
  . intro flush' row ref hflush' hrow href hdirty
    cases hdropped hdirty with
    | inl hnot => exact h.current (hold hflush') hrow href hnot
    | inr htid => exact h.agree hmem (hold hflush') (hcurrent row.1 htid ref href) hrow

theorem mem_getRecentUserPowerStates {table : AList (fun _ : TelegramId => UserPowerStateRow)}
    {now : Time} {tid : TelegramId} {row : UserPowerStateRow}
    : (tid, row) ∈ getRecentUserPowerStates table now ↔
        table.lookup tid = some row ∧ now - seconds 3600 < row.updatedAt := by
  have hlookup : table.lookup tid = some row ↔
      (⟨tid, row⟩ : Σ _, UserPowerStateRow) ∈ table.entries := by
    rw [← Option.mem_def, AList.mem_lookup_iff]
  rw [hlookup]
  simp only [getRecentUserPowerStates, List.mem_filter, List.mem_map, Prod.mk.injEq,
    decide_eq_true_eq, and_congr_left_iff]
  intro _
  constructor
  . rintro ⟨⟨tid', row'⟩, hmem, rfl, rfl⟩
    exact hmem
  . intro hmem
    exact ⟨_, hmem, rfl, rfl⟩

theorem saved_of_restart {m m' : Monitor} (h : Restart m m') (tid : TelegramId) : Saved m' tid := by
  intro ref href
  obtain ⟨_, _, row, hrow, hheap⟩ := h.entry href
  rw [hheap, h.rest]
  dsimp only
  rw [(mem_getRecentUserPowerStates.mp hrow).1]
  exact congrArg some (savedFields_restored row).symm

theorem flushInv_of_restart {m m' : Monitor} (h : Restart m m') : FlushInv m' := by
  have hflushes {flush : Flush} : flush ∉ m'.flushes := by
    rw [h.rest]
    exact List.not_mem_nil
  constructor
  . intro tid hunsaved
    exact absurd (saved_of_restart h tid) hunsaved
  . intro flush row hflush
    exact absurd hflush hflushes
  . intro flush flush' tid fields fields' hflush
    exact absurd hflush hflushes
  . intro flush row hflush
    exact absurd hflush hflushes
  . intro flush row ref hflush
    exact absurd hflush hflushes

theorem flushInv_step {cfg : Settings} {m m' : Monitor} {e : Event} (h : FlushInv m) (hwf : Wf m)
    (hcurrent : FlushesUpToDate m e) (hstep : m.step cfg e = some m') : FlushInv m' := by
  by_cases he : e.saves = false
  . exact h.of_marks (marks_step hwf he hstep)
  cases e with
  | flushStarted =>
    cases hstep
    exact flushInv_flushStarted h hcurrent
  | flushCommitted i txnAt => exact flushInv_flushCommitted h hstep
  | flushCleared i => exact flushInv_flushCleared h hcurrent hstep
  | restarted val =>
    cases hstep
    exact flushInv_of_restart (restart_restarted m val)
  | _ => exact absurd rfl he

/--
While no flush is in progress, an entry that differs from its last committed row is marked.
-/
def FlushLosesNothing (m : Monitor) : Prop :=
  m.flushes = [] → ∀ tid ref, m.userStates.lookup tid = some ref →
    (m.userPowerStates.lookup tid).map (·.fields) ≠ some (m.heap ref).savedFields →
      tid ∈ m.dirtyStates

theorem flushLosesNothing_of_unsavedMarked {m : Monitor} (h : UnsavedMarked m)
    : FlushLosesNothing m := by
  intro _ tid ref href hne
  exact h tid fun hsaved => hne (hsaved ref href)

/--
The flush loses no update in a run in which marks are dropped only while the snapshot is up to date.
-/
theorem flushLosesNothing_of_flushesUpToDate {cfg : Settings} {now : Time}
    {rows : AList (fun _ : TelegramId => UserPowerStateRow)}
    {tracking : TelegramId → Option PowerTracking} {val : Option (Option Int)} {es : List Event}
    (hcurrent : Run.StepsMeet (step cfg) FlushesUpToDate (initial now rows tracking val) es)
    : Run.Always (step cfg) FlushLosesNothing (initial now rows tracking val) es := by
  refine Run.always_of_stepsMeet (I := fun m => Wf m ∧ FlushInv m) ?_ ?_ ?_ hcurrent
  . rintro m m' e ⟨hwf, hinv⟩ hcurrent hstep
    exact ⟨wf_step hwf hstep, flushInv_step hinv hwf hcurrent hstep⟩
  . rintro m ⟨_, hinv⟩
    exact flushLosesNothing_of_unsavedMarked hinv.marked
  . exact ⟨wf_initial now rows tracking val, flushInv_of_restart (restart_restarted _ val)⟩

theorem flushLosesNothing_outageRun
    : Run.Always (step {}) FlushLosesNothing (initial 0 (savedOn "777") (fun _ => none) none)
        (outageRun ++ [.confirmed 0, .flushStarted, .flushCommitted 0 60000000, .flushCleared 0]) :=
  flushLosesNothing_of_flushesUpToDate (by decide +kernel)

theorem not_flushLosesNothing_outageRun
    : ∃ m, Run.exec (step {}) (initial 0 (savedOn "777") (fun _ => none) none)
          (outageRun ++ [.flushStarted, .confirmed 0, .flushCommitted 0 60000000, .flushCleared 0]) =
            some m ∧
        ¬ FlushLosesNothing m := by
  have hrun
      : (Run.exec (step {}) (initial 0 (savedOn "777") (fun _ => none) none)
          (outageRun ++
            [.flushStarted, .confirmed 0, .flushCommitted 0 60000000, .flushCleared 0])).map
          (fun m => (m.userStates.lookup "777",
            (m.userPowerStates.lookup "777").map (·.fields.currentState), (m.heap 0).currentState,
            m.dirtyStates, m.flushes.isEmpty)) =
        some (some 0, some (some .on), some .off, [], true) := by
    decide +kernel
  obtain ⟨m, hm, hproj⟩ := Option.map_eq_some_iff.mp hrun
  simp only [Prod.mk.injEq] at hproj
  obtain ⟨href, hrow, hstate, hdirty, hflushes⟩ := hproj
  refine ⟨m, hm, ?_⟩
  intro h
  have hahead : (m.userPowerStates.lookup "777").map (·.fields) ≠ some (m.heap 0).savedFields := by
    intro heq
    obtain ⟨row, hlookup, hfields⟩ := Option.map_eq_some_iff.mp heq
    rw [hlookup, Option.map_some, hfields] at hrow
    have hcurrent : (m.heap 0).currentState = some .on := Option.some.inj hrow
    rw [hstate] at hcurrent
    cases hcurrent
  have hmem := h (List.isEmpty_iff.mp hflushes) "777" 0 href hahead
  rw [hdirty] at hmem
  cases hmem

end Monitor
end PowerMonitor
