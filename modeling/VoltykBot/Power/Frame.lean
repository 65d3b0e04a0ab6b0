import VoltykBot.Power.Monitor

/-!
This module contains what the steps of the power monitor do to the part of the state that pairs a
pending state with its debounce task: the pending fields and `debounce_task` of the dicts, the confirm
tasks, and the invocations of `_check_user_power` that are about to store a task. Most events do not
touch it, which is `step_frame`; the other ones get a lemma each.
-/

namespace PowerMonitor

structure Window where
  call : CallId
  telegramId : TelegramId
  ref : Ref
  newState : PowerState
  deriving DecidableEq

def Call.window (call : Call) : Option Window :=
  call.pc.window.map fun w => {
    call := call.id
    telegramId := call.user.telegramId
    ref := w.1
    newState := w.2 }

def Task.ref (task : Task) : Option Ref :=
  match task.pc, task.kind with
  | .loadUser ref, _ => some ref
  | .handling ref _ _, _ => some ref
  | _, .confirmState _ _ ref _ _ => some ref
  | _, .confirmRestored _ _ _ _ => none

structure UserState.PendingPart where
  debounceTask : Option TaskId
  pendingState : Option PowerState
  originalChangeTime : Option Time

def UserState.pendingPart (st : UserState) : UserState.PendingPart where
  debounceTask := st.debounceTask
  pendingState := st.pendingState
  originalChangeTime := st.originalChangeTime

namespace Monitor

def callAt (m : Monitor) (i : Nat) : Option Call :=
  m.groups[i]?.bind (·.call)

def windowAt (m : Monitor) (i : Nat) : Option Window :=
  (m.callAt i).bind Call.window

def Idle (m : Monitor) : Prop :=
  m.cycle ≠ .checking → m.groups = []

theorem Idle.set {m m' : Monitor} {i : Nat} {g : Group} (hidle : Idle m)
    (hcycle : m'.cycle = m.cycle) (hgroups : m'.groups = m.groups.set i g) : Idle m' := by
  intro hne
  rw [hgroups, hidle (hcycle ▸ hne)]
  rfl

structure Kept (m m' : Monitor) : Prop where
  userStates : m'.userStates = m.userStates
  owner : m'.owner = m.owner
  nextRef : m'.nextRef = m.nextRef
  nextTask : m'.nextTask = m.nextTask
  pendingPart : ∀ ref, (m'.heap ref).pendingPart = (m.heap ref).pendingPart
  firstCheck : ∀ ref, (m'.heap ref).isFirstCheck = true → (m.heap ref).isFirstCheck = true
  tasks : ∀ k, m'.tasks k = m.tasks k ∨
    ∃ task, m.tasks k = some task ∧ task.pc.unconfirmed = false ∧
      ∀ task', m'.tasks k = some task' →
        task'.kind = task.kind ∧ task'.pc.unconfirmed = false ∧ task'.ref = task.ref
  windowAt : ∀ i, m'.windowAt i = m.windowAt i
  idle : Idle m → Idle m'
  now : m.now ≤ m'.now

structure Frame (m m' : Monitor) : Prop extends Kept m m' where
  storeTask : ∀ {i call ref newState oldState debounceS}, m'.callAt i = some call →
    call.pc = .storeTask ref newState oldState debounceS → m.callAt i = some call
  log : m'.log = m.log

theorem Kept.refl (m : Monitor) : Kept m m where
  userStates := rfl
  owner := rfl
  nextRef := rfl
  nextTask := rfl
  pendingPart _ := rfl
  firstCheck _ h := h
  tasks _ := .inl rfl
  windowAt _ := rfl
  idle h := h
  now := Int.le_refl _

theorem Frame.refl (m : Monitor) : Frame m m :=
  { Kept.refl m with
    storeTask := fun h _ => h
    log := rfl }

theorem callAt_of_set_self {m m' : Monitor} {i : Nat} {g g' : Group} (hg : m.groups[i]? = some g)
    (h : m'.groups = m.groups.set i g') : m'.callAt i = g'.call := by
  have hi : i < m.groups.length := (List.getElem?_eq_some_iff.mp hg).1
  simp [callAt, h, hi]

theorem callAt_of_set_ne {m m' : Monitor} {i j : Nat} {g' : Group}
    (h : m'.groups = m.groups.set i g') (hij : i ≠ j) : m'.callAt j = m.callAt j := by
  simp [callAt, h, List.getElem?_set_ne hij]

theorem callAt_of_groups_nil {m : Monitor} (h : m.groups = []) (i : Nat) : m.callAt i = none := by
  simp [callAt, h]

theorem callAt_of_finished {m : Monitor} (h : m.groups.all Group.finished = true) (i : Nat)
    : m.callAt i = none := by
  unfold callAt
  cases hg : m.groups[i]? with
  | none => rfl
  | some g =>
    have hfin := List.all_eq_true.mp h g (List.mem_of_getElem? hg)
    simp only [Group.finished, Bool.and_eq_true] at hfin
    exact Option.isNone_iff_eq_none.mp hfin.2

theorem callAt_eq_some {m : Monitor} {i : Nat} {g : Group} {call : Call}
    (hg : m.groups[i]? = some g) (hcall : g.call = some call) : m.callAt i = some call := by
  simp [callAt, hg, hcall]

theorem windowAt_of_set {m m' : Monitor} {i : Nat} {g g' : Group} (hg : m.groups[i]? = some g)
    (h : m'.groups = m.groups.set i g')
    (hcall : g'.call.bind Call.window = g.call.bind Call.window) (j : Nat)
    : m'.windowAt j = m.windowAt j := by
  unfold windowAt
  by_cases hij : i = j
  . subst hij
    rw [callAt_of_set_self hg h, hcall]
    simp [callAt, hg]
  . rw [callAt_of_set_ne h hij]

theorem storeTask_of_set {m m' : Monitor} {i : Nat} {g g' : Group} (hg : m.groups[i]? = some g)
    (h : m'.groups = m.groups.set i g')
    (hcall : ∀ call, g'.call = some call → g.call = some call ∨
      ∀ ref newState oldState debounceS, call.pc ≠ .storeTask ref newState oldState debounceS)
    {j : Nat} {call : Call} {ref : Ref} {newState : PowerState} {oldState : Option PowerState}
    {debounceS : Int} (hj : m'.callAt j = some call)
    (hpc : call.pc = .storeTask ref newState oldState debounceS) : m.callAt j = some call := by
  by_cases hij : i = j
  . subst hij
    rw [callAt_of_set_self hg h] at hj
    cases hcall call hj with
    | inl hsame => exact callAt_eq_some hg hsame
    | inr hne => exact absurd hpc (hne ref newState oldState debounceS)
  . rwa [callAt_of_set_ne h hij] at hj

theorem stepCall_eq_some {m m' : Monitor} {i : Nat}
    {f : Monitor → Call → Option (Monitor × Option CallPc)} (h : m.stepCall i f = some m')
    : ∃ g call m₁ pc, m.groups[i]? = some g ∧ g.call = some call ∧ f m call = some (m₁, pc) ∧
        m' = { m₁ with
          groups := m.groups.set i { g with call := pc.map fun pc => { call with pc := pc } } } := by
  simp only [stepCall, Option.bind_eq_bind, Option.bind_eq_some_iff] at h
  obtain ⟨g, hg, call, hcall, ⟨m₁, pc⟩, hf, hm⟩ := h
  exact ⟨g, call, m₁, pc, hg, hcall, hf, (Option.some.inj hm).symm⟩

theorem stepTask_eq_some {m m' : Monitor} {k : TaskId} {f : Task → Option Monitor}
    (h : m.stepTask k f = some m') : ∃ task, m.tasks k = some task ∧ f task = some m' := by
  simpa only [stepTask, Option.bind_eq_bind, Option.bind_eq_some_iff] using h

theorem pinged_eq_some {m m' : Monitor} {i : Nat} {result : Option Bool}
    (h : m.pinged i result = some m')
    : ∃ g, m.groups[i]? = some g ∧ g.ping = none ∧
        m' = { m with groups := m.groups.set i { g with ping := some result } } := by
  unfold pinged at h
  rcases Option.bind_eq_some_iff.mp h with ⟨g, hg, h⟩
  split at h
  . next hping => exact ⟨g, hg, hping, (Option.some.inj h).symm⟩
  . cases h

theorem pingRaised_eq_some {m m' : Monitor} {i : Nat} (h : m.pingRaised i = some m')
    : ∃ g, m.groups[i]? = some g ∧ g.ping = none ∧
        m' = { m with groups := m.groups.set i { g with ping := some none, users := [] } } := by
  unfold pingRaised at h
  rcases Option.bind_eq_some_iff.mp h with ⟨g, hg, h⟩
  split at h
  . next hping => exact ⟨g, hg, hping, (Option.some.inj h).symm⟩
  . cases h

theorem startCall_eq_some {m m' : Monitor} {i : Nat} (h : m.startCall i = some m')
    : ∃ g u users, m.groups[i]? = some g ∧ g.call = none ∧ g.users = u :: users ∧
        ((∃ isAvailable, m' = { m with
            groups := m.groups.set i { g with
              users := users, call := some { id := m.nextCall, user := u, pc := .lock isAvailable } }
            nextCall := m.nextCall + 1 }) ∨
          m' = { m with groups := m.groups.set i { g with users := users } }) := by
  unfold startCall at h
  rcases Option.bind_eq_some_iff.mp h with ⟨g, hg, h⟩
  split at h
  . next isAvailable u users hcall _ husers =>
    exact ⟨g, u, users, hg, hcall, husers, .inl ⟨isAvailable, (Option.some.inj h).symm⟩⟩
  . next u users hcall _ husers =>
    exact ⟨g, u, users, hg, hcall, husers, .inr (Option.some.inj h).symm⟩
  . cases h

theorem step_userReloaded {cfg : Settings} {m m' : Monitor} {k : TaskId} {found : Bool}
    (h : m.step cfg (.userReloaded k found) = some m')
    : ∃ task ref tid newState oldState origDt, m.tasks k = some task ∧ task.pc = .loadUser ref ∧
        task.kind = .confirmRestored tid newState oldState origDt ∧
        m' = m.setTask k
          (if found then some { task with pc := .handling ref origDt .start } else none) := by
  rcases stepTask_eq_some h with ⟨task, hk, h⟩
  split at h
  . next ref tid newState oldState origDt hpc hkind =>
    exact ⟨task, ref, tid, newState, oldState, origDt, hk, hpc, hkind, (Option.some.inj h).symm⟩
  . cases h

theorem step_handler {cfg : Settings} {m m' : Monitor} {k : TaskId} {e : HandlerEvent}
    (h : m.step cfg (.handler k e) = some m')
    : ∃ task ref origDt pc m₁ pc', m.tasks k = some task ∧ task.pc = .handling ref origDt pc ∧
        m.stepHandler cfg task.kind.telegramId task.kind.newState ref origDt pc e = some (m₁, pc') ∧
        m' = m₁.setTask k (pc'.map fun pc => { task with pc := .handling ref origDt pc }) := by
  rcases stepTask_eq_some h with ⟨task, hk, h⟩
  split at h
  . next ref origDt pc hpc =>
    rcases Option.bind_eq_some_iff.mp h with ⟨⟨m₁, pc'⟩, hhandler, hm'⟩
    exact ⟨task, ref, origDt, pc, m₁, pc', hk, hpc, hhandler, (Option.some.inj hm').symm⟩
  . cases h

theorem step_handlerTimedOut {cfg : Settings} {m m' : Monitor} {k : TaskId}
    (h : m.step cfg (.handlerTimedOut k) = some m')
    : ∃ task ref origDt pc, m.tasks k = some task ∧ task.pc = .handling ref origDt pc ∧
        m' = m.setTask k none := by
  rcases stepTask_eq_some h with ⟨task, hk, h⟩
  split at h
  . next ref origDt pc _ _ _ _ _ hpc _ =>
    exact ⟨task, ref, origDt, pc, hk, hpc, (Option.some.inj h).symm⟩
  . cases h

end Monitor

def Event.quiet (e : Event) : Bool :=
  match e with
  | .inactiveEvicted => false
  | .staleEvicted => false
  | .observed _ => false
  | .debounceRead _ _ => false
  | .taskStored _ => false
  | .cycleCancelled => false
  | .woken _ => false
  | .confirmed _ => false
  | .restarted _ => false
  | _ => true

def Event.inCycle (e : Event) : Bool :=
  match e with
  | .tick _ => true
  | .cycleStarted => true
  | .batchLoaded _ => true
  | .loadFailed => true
  | .pinged _ _ => true
  | .pingRaised _ => true
  | .callStarted _ => true
  | .cycleEnded => true
  | .cycleCancelled => true
  | _ => false

def Event.inFlush (e : Event) : Bool :=
  match e with
  | .flushStarted => true
  | .flushCommitted _ _ => true
  | .flushCleared _ => true
  | .flushAborted _ => true
  | _ => false

namespace Monitor

theorem Frame.of_set {m m' : Monitor} {i : Nat} {g g' : Group} (hg : m.groups[i]? = some g)
    (h : m' = { m with
      groups := m.groups.set i g', nextCall := m'.nextCall, powerTracking := m'.powerTracking })
    (hwindow : g'.call.bind Call.window = g.call.bind Call.window)
    (hstore : ∀ call, g'.call = some call → g.call = some call ∨
      ∀ ref newState oldState debounceS, call.pc ≠ .storeTask ref newState oldState debounceS)
    : Frame m m' := by
  have hgroups : m'.groups = m.groups.set i g' := by rw [h]
  exact {
    userStates := by rw [h]
    owner := by rw [h]
    nextRef := by rw [h]
    nextTask := by rw [h]
    pendingPart := fun _ => by rw [h]
    firstCheck := fun _ => by rw [h]; exact id
    tasks := fun _ => by rw [h]; exact .inl rfl
    windowAt := windowAt_of_set hg hgroups hwindow
    idle := fun hidle => hidle.set (by rw [h]) hgroups
    storeTask := storeTask_of_set hg hgroups hstore
    log := by rw [h]
    now := by rw [h] }

theorem Frame.of_pinged {m m' : Monitor} {i : Nat} {result : Option Bool}
    (h : m.pinged i result = some m') : Frame m m' := by
  rcases pinged_eq_some h with ⟨g, hg, _, rfl⟩
  exact .of_set hg rfl rfl fun _ hcall => .inl hcall

theorem Frame.of_pingRaised {m m' : Monitor} {i : Nat} (h : m.pingRaised i = some m')
    : Frame m m' := by
  rcases pingRaised_eq_some h with ⟨g, hg, _, rfl⟩
  exact .of_set hg rfl rfl fun _ hcall => .inl hcall

theorem Frame.of_startCall {m m' : Monitor} {i : Nat} (h : m.startCall i = some m')
    : Frame m m' := by
  rcases startCall_eq_some h with ⟨g, u, users, hg, hnone, _, ⟨isAvailable, rfl⟩ | rfl⟩
  . refine .of_set hg rfl (by rw [hnone]; rfl) ?_
    intro call hcall
    cases hcall
    exact .inr fun _ _ _ _ => by simp
  . exact .of_set hg rfl rfl fun _ hcall => .inl hcall

theorem Frame.of_sessionDone {m m' : Monitor} {i : Nat} {ok : Bool}
    (h : m.stepCall i (fun m call => m.sessionDone call ok) = some m') : Frame m m' := by
  obtain ⟨g, call, m₁, pc, hg, hcall, hf, rfl⟩ := stepCall_eq_some h
  unfold sessionDone at hf
  split at hf
  . next hpc =>
    cases hf
    refine .of_set hg (by cases ok <;> rfl) ?_ (by simp)
    simp [hcall, Call.window, CallPc.window, hpc]
  . next hpc =>
    cases hf
    refine .of_set hg (by cases ok <;> rfl) ?_ (by simp)
    simp [hcall, Call.window, CallPc.window, hpc]
  . next hpc =>
    cases hf
    refine .of_set hg (by cases ok <;> rfl) ?_ (by simp)
    simp [hcall, Call.window, CallPc.window, hpc]
  . cases hf

theorem Frame.of_task {m m' : Monitor} {k : TaskId} {task : Task} (hk : m.tasks k = some task)
    (hpc : task.pc.unconfirmed = false)
    (h : m' = { m with
      heap := m'.heap, tasks := m'.tasks, dirtyStates := m'.dirtyStates
      powerTracking := m'.powerTracking, powerHistory := m'.powerHistory })
    (hheap : ∀ ref, (m'.heap ref).pendingPart = (m.heap ref).pendingPart)
    (hfirst : ∀ ref, (m'.heap ref).isFirstCheck = (m.heap ref).isFirstCheck)
    (hne : ∀ k', k' ≠ k → m'.tasks k' = m.tasks k')
    (htask : ∀ task', m'.tasks k = some task' →
      task'.kind = task.kind ∧ task'.pc.unconfirmed = false ∧ task'.ref = task.ref)
    : Frame m m' := by
  have hcallAt : ∀ i, m'.callAt i = m.callAt i := fun i => by rw [callAt, h, callAt]
  exact {
    userStates := by rw [h]
    owner := by rw [h]
    nextRef := by rw [h]
    nextTask := by rw [h]
    pendingPart := hheap
    firstCheck := fun ref h => hfirst ref ▸ h
    tasks := by
      intro k'
      by_cases hk' : k' = k
      . subst hk'
        exact .inr ⟨task, hk, hpc, htask⟩
      . exact .inl (hne k' hk')
    windowAt := fun i => by rw [Monitor.windowAt, hcallAt, Monitor.windowAt]
    idle := fun hidle hne => by rw [h]; exact hidle (by rwa [h] at hne)
    storeTask := fun hcall _ => by rwa [hcallAt] at hcall
    log := by rw [h]
    now := by rw [h] }

theorem stateUpdated_eq {cfg : Settings} {m m' : Monitor} {tid : TelegramId}
    {newState : PowerState} {ref : Ref} {origDt : Option Time} {now : Time} {outcome : StateUpdate}
    {pc : Option HandlerPc} (h : m.stateUpdated cfg tid newState ref origDt now outcome = (m', pc))
    : m' = { m with powerTracking := m'.powerTracking, powerHistory := m'.powerHistory } := by
  unfold stateUpdated at h
  cases outcome with
  | userMissing => cases h; rfl
  | loadFailed => cases h; rfl
  | changeFailed => cases h; rfl
  | commitFailed => cases h; rfl
  | commitLost => cases h; rfl
  | ok => cases h; rfl

theorem heap_modify_keeps {α : Type} (p : UserState → α) {m : Monitor} {ref : Ref}
    {f : UserState → UserState} (hf : ∀ st, p (f st) = p st) (r : Ref)
    : p ((m.modify ref f).heap r) = p (m.heap r) := by
  by_cases href : r = ref
  . subst href
    simp [modify, hf]
  . simp [modify, href]

theorem stepHandler_eq {cfg : Settings} {m m' : Monitor} {tid : TelegramId} {newState : PowerState}
    {ref : Ref} {origDt : Option Time} {pc : HandlerPc} {pc' : Option HandlerPc} {e : HandlerEvent}
    (h : m.stepHandler cfg tid newState ref origDt pc e = some (m', pc'))
    : m' = { m with
        heap := m'.heap, dirtyStates := m'.dirtyStates
        powerTracking := m'.powerTracking, powerHistory := m'.powerHistory } := by
  unfold stepHandler at h
  split at h
  . cases h; rfl
  . rw [stateUpdated_eq (Option.some.inj h)]
  . cases h; rfl
  . cases h; rfl
  . cases h; rfl
  . cases h; rfl
  . cases h

theorem stepHandler_keeps {α : Type} (p : UserState → α) {cfg : Settings} {m m' : Monitor}
    {tid : TelegramId} {newState : PowerState} {ref : Ref} {origDt : Option Time} {pc : HandlerPc}
    {pc' : Option HandlerPc} {e : HandlerEvent}
    (hnotified : ∀ st now, p { st with lastNotificationAt := some (.iso now) } = p st)
    (hstable : ∀ st changedAt, p { st with
      lastStableAt := some changedAt, lastStableState := some newState, instabilityStart := none
      switchCount := 0 } = p st)
    (h : m.stepHandler cfg tid newState ref origDt pc e = some (m', pc')) (r : Ref)
    : p (m'.heap r) = p (m.heap r) := by
  unfold stepHandler at h
  split at h
  . cases h; rfl
  . rw [stateUpdated_eq (Option.some.inj h)]
  . cases h; rfl
  . cases h
    simp only [notified, markDirty]
    apply heap_modify_keeps
    intro st
    apply hnotified
  . cases h; rfl
  . cases h
    simp only [stableStateUpdated, markDirty]
    apply heap_modify_keeps
    intro st
    apply hstable
  . cases h

theorem ref_of_handling {task : Task} {ref : Ref} {origDt : Option Time} {pc : HandlerPc}
    (hpc : task.pc = .handling ref origDt pc) : task.ref = some ref := by
  unfold Task.ref
  rw [hpc]

theorem Frame.of_stepHandler {cfg : Settings} {m m' : Monitor} {k : TaskId} {task : Task}
    {ref : Ref} {origDt : Option Time} {pc : HandlerPc} {pc' : Option HandlerPc} {e : HandlerEvent}
    (hk : m.tasks k = some task) (hpc : task.pc = .handling ref origDt pc)
    (h : m.stepHandler cfg task.kind.telegramId task.kind.newState ref origDt pc e = some (m', pc'))
    : Frame m (m'.setTask k (pc'.map fun pc => { task with pc := .handling ref origDt pc })) := by
  have heq := stepHandler_eq h
  refine .of_task hk (by rw [hpc]; rfl) (by rw [heq]; rfl) ?_ ?_ ?_ ?_
  . intro r
    exact stepHandler_keeps UserState.pendingPart (fun _ _ => rfl) (fun _ _ => rfl) h r
  . intro r
    exact stepHandler_keeps UserState.isFirstCheck (fun _ _ => rfl) (fun _ _ => rfl) h r
  . intro k' hne
    rw [heq]
    simp [setTask, hne]
  . intro task' htask'
    simp only [setTask, Function.update_self, Option.map_eq_some_iff] at htask'
    obtain ⟨pc'', _, rfl⟩ := htask'
    exact ⟨rfl, rfl, (ref_of_handling rfl).trans (ref_of_handling hpc).symm⟩

theorem flushStarted_eq (m : Monitor)
    : m.flushStarted = { m with flushes := m.flushStarted.flushes } := by
  unfold flushStarted
  dsimp only
  split <;> rfl

theorem flushCommitted_eq_some {m m' : Monitor} {i : Nat} {txnAt : Time}
    (h : m.flushCommitted i txnAt = some m')
    : ∃ flush, m.flushes[i]? = some flush ∧
        (flush.pc = .writing ∧ flush.startedAt ≤ txnAt ∧ txnAt ≤ m.now) ∧
        m' = { m with
          userPowerStates := batchUpsertUserPowerStates m.userPowerStates txnAt flush.rows
          flushes := m.flushes.set i { flush with pc := .committed } } := by
  simp only [flushCommitted, Option.bind_eq_bind, Option.bind_eq_some_iff] at h
  obtain ⟨flush, hflush, h⟩ := h
  split at h
  . next hpc => exact ⟨flush, hflush, hpc, (Option.some.inj h).symm⟩
  . cases h

theorem flushCleared_eq_some {m m' : Monitor} {i : Nat} (h : m.flushCleared i = some m')
    : ∃ flush, m.flushes[i]? = some flush ∧ flush.pc = .committed ∧
        m' = { m with
          dirtyStates := m.dirtyStates.filter (· ∉ flush.saveIds)
          flushes := m.flushes.eraseIdx i } := by
  simp only [flushCleared, Option.bind_eq_bind, Option.bind_eq_some_iff] at h
  obtain ⟨flush, hflush, h⟩ := h
  split at h
  . next hpc => exact ⟨flush, hflush, hpc, (Option.some.inj h).symm⟩
  . cases h

theorem flushAborted_eq_some {m m' : Monitor} {i : Nat} (h : m.flushAborted i = some m')
    : ∃ flush, m.flushes[i]? = some flush ∧ m' = { m with flushes := m.flushes.eraseIdx i } := by
  simp only [flushAborted, Option.bind_eq_bind, Option.bind_eq_some_iff] at h
  obtain ⟨flush, hflush, h⟩ := h
  exact ⟨flush, hflush, (Option.some.inj h).symm⟩

theorem stepCycle_cycleStarted {cfg : Settings} {m m' : Monitor}
    (h : m.stepCycle cfg .cycleStarted = some m')
    : m.cycle = .idle ∧ m' = { m with cycle := .loading 0 [] } := by
  unfold stepCycle at h
  split at h
  all_goals simp_all

theorem stepCycle_batchLoaded {cfg : Settings} {m m' : Monitor} {batch : List User}
    (h : m.stepCycle cfg (.batchLoaded batch) = some m')
    : ∃ afterId users, m.cycle = .loading afterId users ∧ IsBatch afterId batch ∧
        m' = { m with cycle := afterBatch afterId users batch } := by
  unfold stepCycle at h
  split at h
  all_goals simp_all

theorem stepCycle_loadFailed {cfg : Settings} {m m' : Monitor}
    (h : m.stepCycle cfg .loadFailed = some m')
    : ∃ afterId users, m.cycle = .loading afterId users ∧ m' = { m with cycle := .idle } := by
  unfold stepCycle at h
  split at h
  all_goals simp_all

theorem stepCycle_inactiveEvicted {cfg : Settings} {m m' : Monitor}
    (h : m.stepCycle cfg .inactiveEvicted = some m')
    : ∃ users, m.cycle = .evictInactive users ∧
        m' = { m.evictInactive users with cycle := .evictStale users } := by
  unfold stepCycle at h
  split at h
  all_goals simp_all

theorem stepCycle_staleEvicted {cfg : Settings} {m m' : Monitor}
    (h : m.stepCycle cfg .staleEvicted = some m')
    : ∃ users, m.cycle = .evictStale users ∧
        m' = { m.evictStaleEntries cfg with cycle := .checking, groups := ipGroups users } := by
  unfold stepCycle at h
  split at h
  all_goals simp_all

theorem stepCycle_cycleEnded {cfg : Settings} {m m' : Monitor}
    (h : m.stepCycle cfg .cycleEnded = some m')
    : m.cycle = .checking ∧ m.groups.all Group.finished = true ∧
        m' = { m with cycle := .idle, groups := [] } := by
  unfold stepCycle at h
  split at h
  all_goals simp_all

theorem stepCycle_cycleCancelled {cfg : Settings} {m m' : Monitor}
    (h : m.stepCycle cfg .cycleCancelled = some m')
    : m.cycle ≠ .idle ∧ m' = { m with cycle := .idle, groups := [] } := by
  unfold stepCycle at h
  split at h
  all_goals simp_all

theorem step_inCycle {cfg : Settings} {m m' : Monitor} {e : Event} (he : e.inCycle = true)
    (h : m.step cfg e = some m')
    : ∃ now cycle groups nextCall,
        m' = { m with now := now, cycle := cycle, groups := groups, nextCall := nextCall } := by
  cases e with
  | tick elapsed => exact ⟨_, _, _, _, (Option.some.inj h).symm⟩
  | cycleStarted =>
    rcases stepCycle_cycleStarted h with ⟨_, rfl⟩
    exact ⟨_, _, _, _, rfl⟩
  | batchLoaded batch =>
    rcases stepCycle_batchLoaded h with ⟨_, _, _, _, rfl⟩
    exact ⟨_, _, _, _, rfl⟩
  | loadFailed =>
    rcases stepCycle_loadFailed h with ⟨_, _, _, rfl⟩
    exact ⟨_, _, _, _, rfl⟩
  | pinged i result =>
    rcases pinged_eq_some h with ⟨_, _, _, rfl⟩
    exact ⟨_, _, _, _, rfl⟩
  | pingRaised i =>
    rcases pingRaised_eq_some h with ⟨_, _, _, rfl⟩
    exact ⟨_, _, _, _, rfl⟩
  | callStarted i =>
    rcases startCall_eq_some h with ⟨_, _, _, _, _, _, ⟨_, rfl⟩ | rfl⟩
    . exact ⟨_, _, _, _, rfl⟩
    . exact ⟨_, _, _, _, rfl⟩
  | cycleEnded =>
    rcases stepCycle_cycleEnded h with ⟨_, _, rfl⟩
    exact ⟨_, _, _, _, rfl⟩
  | cycleCancelled =>
    rcases stepCycle_cycleCancelled h with ⟨_, rfl⟩
    exact ⟨_, _, _, _, rfl⟩
  | _ => cases he

theorem step_inFlush {cfg : Settings} {m m' : Monitor} {e : Event} (he : e.inFlush = true)
    (h : m.step cfg e = some m')
    : ∃ dirtyStates flushes userPowerStates, m' = { m with
        dirtyStates := dirtyStates, flushes := flushes, userPowerStates := userPowerStates } := by
  cases e with
  | flushStarted =>
    cases h
    exact ⟨_, _, _, flushStarted_eq m⟩
  | flushCommitted i txnAt =>
    rcases flushCommitted_eq_some h with ⟨_, _, _, rfl⟩
    exact ⟨_, _, _, rfl⟩
  | flushCleared i =>
    rcases flushCleared_eq_some h with ⟨_, _, _, rfl⟩
    exact ⟨_, _, _, rfl⟩
  | flushAborted i =>
    rcases flushAborted_eq_some h with ⟨_, _, rfl⟩
    exact ⟨_, _, _, rfl⟩
  | _ => cases he

theorem step_frame {cfg : Settings} {m m' : Monitor} {e : Event} (he : e.quiet = true)
    (h : m.step cfg e = some m') : Frame m m' := by
  cases e with
  | tick elapsed =>
    cases h
    exact { Frame.refl m with now := Int.le_add_of_nonneg_right (Int.natCast_nonneg elapsed) }
  | cycleStarted =>
    obtain ⟨hcycle, rfl⟩ := stepCycle_cycleStarted h
    exact { Frame.refl m with idle := fun hidle _ => hidle (by rw [hcycle]; nofun) }
  | batchLoaded batch =>
    obtain ⟨_, _, hcycle, _, rfl⟩ := stepCycle_batchLoaded h
    exact { Frame.refl m with idle := fun hidle _ => hidle (by rw [hcycle]; nofun) }
  | loadFailed =>
    obtain ⟨_, _, hcycle, rfl⟩ := stepCycle_loadFailed h
    exact { Frame.refl m with idle := fun hidle _ => hidle (by rw [hcycle]; nofun) }
  | pinged i result => exact .of_pinged h
  | pingRaised i => exact .of_pingRaised h
  | callStarted i => exact .of_startCall h
  | sessionDone i ok => exact .of_sessionDone h
  | cycleEnded =>
    obtain ⟨_, hall, rfl⟩ := stepCycle_cycleEnded h
    exact { Frame.refl m with
      windowAt := fun i => by
        rw [windowAt, windowAt, callAt_of_groups_nil rfl, callAt_of_finished hall]
      idle := fun _ _ => rfl
      storeTask := fun hcall _ => by
        rw [callAt_of_groups_nil rfl] at hcall
        cases hcall }
  | userReloaded k found =>
    rcases step_userReloaded h with ⟨task, ref, _, _, _, origDt, hk, hpc, hkind, rfl⟩
    refine .of_task hk (by rw [hpc]; rfl) rfl (fun _ => rfl) (fun _ => rfl) ?_ ?_
    . intro k' hne
      simp [setTask, hne]
    . intro task' htask'
      simp only [setTask, Function.update_self, Option.ite_none_right_eq_some] at htask'
      obtain ⟨_, htask'⟩ := htask'
      cases htask'
      exact ⟨rfl, rfl, by simp [Task.ref, hkind, hpc]⟩
  | handler k e =>
    rcases step_handler h with ⟨task, ref, origDt, pc, m₁, pc', hk, hpc, hhandler, rfl⟩
    exact .of_stepHandler hk hpc hhandler
  | handlerTimedOut k =>
    rcases step_handlerTimedOut h with ⟨task, ref, origDt, pc, hk, hpc, rfl⟩
    refine .of_task hk (by rw [hpc]; rfl) rfl (fun _ => rfl) (fun _ => rfl) ?_ ?_
    . intro k' hne
      simp [setTask, hne]
    . intro task' htask'
      simp [setTask] at htask'
  | flushStarted | flushCommitted _ _ | flushCleared _ | flushAborted _ =>
    rcases step_inFlush rfl h with ⟨_, _, _, rfl⟩
    exact { Frame.refl m with }
  | _ => simp [Event.quiet] at he

end Monitor
end PowerMonitor
