import VoltykBot.Power.Frame

/-!
This module contains what the other steps of the power monitor do to pending states and debounce
tasks: eviction, an observation, storing a task, waking up, confirming, and a restart.
-/

namespace PowerMonitor
namespace Monitor

theorem mem_items {m : Monitor} {tid : TelegramId} {ref : Ref}
    : (tid, ref) ∈ m.items ↔ m.userStates.lookup tid = some ref := by
  have : m.userStates.lookup tid = some ref ↔ (⟨tid, ref⟩ : Σ _, Ref) ∈ m.userStates.entries := by
    rw [← Option.mem_def, AList.mem_lookup_iff]
  rw [this]
  simp only [items, List.mem_map, List.mem_reverse, Prod.mk.injEq]
  constructor
  . rintro ⟨⟨tid', ref'⟩, hmem, rfl, rfl⟩
    exact hmem
  . intro hmem
    exact ⟨⟨tid, ref⟩, hmem, rfl, rfl⟩

theorem lookup_foldl_erase (tids : List TelegramId) (d : AList (fun _ : TelegramId => Ref))
    (tid : TelegramId)
    : (tids.foldl (fun d tid => d.erase tid) d).lookup tid
        =
      if tid ∈ tids then none else d.lookup tid := by
  induction tids generalizing d with
  | nil => simp
  | cons t tids ih =>
    rw [List.foldl_cons, ih]
    by_cases ht : tid = t
    . subst ht
      simp
    . simp [ht, AList.lookup_erase_ne ht]

theorem foldl_cancelTaskOf_eq (refs : List Ref) (m : Monitor)
    : refs.foldl cancelTaskOf m = { m with tasks := (refs.foldl cancelTaskOf m).tasks } := by
  induction refs generalizing m with
  | nil => rfl
  | cons ref refs ih =>
    rw [List.foldl_cons, ih]
    unfold cancelTaskOf
    split <;> rfl

theorem heap_cancelTaskOf (m : Monitor) (ref : Ref) : (m.cancelTaskOf ref).heap = m.heap := by
  unfold cancelTaskOf
  split <;> rfl

theorem tasks_foldl_cancelTaskOf (refs : List Ref) (m : Monitor) (k : TaskId)
    : (refs.foldl cancelTaskOf m).tasks k
        =
      if ∃ ref ∈ refs, (m.heap ref).debounceTask = some k then none else m.tasks k := by
  induction refs generalizing m with
  | nil => simp
  | cons ref refs ih =>
    rw [List.foldl_cons, ih, heap_cancelTaskOf]
    unfold cancelTaskOf
    cases hk : (m.heap ref).debounceTask with
    | none => simp [hk]
    | some k' =>
      by_cases hkk : k = k'
      . subst hkk
        simp [hk, setTask]
      . simp [hk, setTask, hkk, Ne.symm hkk]

structure Evicted (m m' : Monitor) (tids : List TelegramId) : Prop where
  rest : m' = { m with
    userStates := m'.userStates, dirtyStates := m.dirtyStates.filter (· ∉ tids), tasks := m'.tasks }
  lookup : ∀ tid, m'.userStates.lookup tid = if tid ∈ tids then none else m.userStates.lookup tid
  gone : ∀ {tid ref k}, tid ∈ tids → m.userStates.lookup tid = some ref →
    (m.heap ref).debounceTask = some k → m'.tasks k = none
  kept : ∀ {k}, m'.tasks k ≠ none → m'.tasks k = m.tasks k
  kept_of : ∀ {k}, (∀ tid ∈ tids, ∀ ref, m.userStates.lookup tid = some ref →
    (m.heap ref).debounceTask ≠ some k) → m'.tasks k = m.tasks k

theorem evicted_evict (m : Monitor) (tids : List TelegramId) : Evicted m (m.evict tids) tids := by
  unfold evict
  dsimp only
  constructor
  . rw [foldl_cancelTaskOf_eq]
  . intro tid
    rw [foldl_cancelTaskOf_eq]
    exact lookup_foldl_erase tids m.userStates tid
  . intro tid ref k htid href hk
    rw [tasks_foldl_cancelTaskOf, if_pos]
    exact ⟨ref, List.mem_filterMap.mpr ⟨tid, htid, href⟩, hk⟩
  . intro k hk
    rw [tasks_foldl_cancelTaskOf] at hk ⊢
    split at hk
    . exact absurd rfl hk
    . next hno => rw [if_neg hno]
  . intro k hk
    rw [tasks_foldl_cancelTaskOf, if_neg]
    rintro ⟨ref, href, hdebounce⟩
    obtain ⟨tid, htid, hlookup⟩ := List.mem_filterMap.mp href
    exact hk tid htid ref hlookup hdebounce

structure Entered (m m' : Monitor) (tid : TelegramId) (ref : Ref) : Prop where
  lookup : m'.userStates.lookup tid = some ref
  cases : m' = m ∨
    (m.userStates.lookup tid = none ∧ ref = m.nextRef ∧ m' = (m.createEntry tid {}).markDirty tid)

theorem entered_getUserState (m : Monitor) (tid : TelegramId)
    : Entered m (m.getUserState tid).1 tid (m.getUserState tid).2 := by
  unfold getUserState
  cases h : m.userStates.lookup tid with
  | some ref => exact ⟨h, .inl rfl⟩
  | none => exact ⟨AList.lookup_insert _, .inr ⟨h, rfl, rfl⟩⟩

theorem Entered.groups {m m' : Monitor} {tid : TelegramId} {ref : Ref} (h : Entered m m' tid ref)
    : m'.groups = m.groups := by
  obtain rfl | ⟨_, _, rfl⟩ := h.cases
  . rfl
  . rfl

theorem Entered.now {m m' : Monitor} {tid : TelegramId} {ref : Ref} (h : Entered m m' tid ref)
    : m'.now = m.now := by
  obtain rfl | ⟨_, _, rfl⟩ := h.cases
  . rfl
  . rfl

structure Reset (m m' : Monitor) (ref : Ref) (pendingState : Option PowerState)
    (originalChangeTime : Option Time) : Prop where
  userStates : m'.userStates = m.userStates
  owner : m'.owner = m.owner
  nextRef : m'.nextRef = m.nextRef
  nextTask : m'.nextTask = m.nextTask
  cycle : m'.cycle = m.cycle
  log : m'.log = m.log
  now : m'.now = m.now
  heap_ne : ∀ {r}, r ≠ ref → m'.heap r = m.heap r
  pendingState : (m'.heap ref).pendingState = pendingState
  originalChangeTime : (m'.heap ref).originalChangeTime = originalChangeTime
  firstCheck : (m'.heap ref).isFirstCheck = (m.heap ref).isFirstCheck
  debounceTask : ∀ {k}, (m'.heap ref).debounceTask = some k → (m.heap ref).debounceTask = some k
  gone : ∀ {k}, (m.heap ref).debounceTask = some k → m'.tasks k = none
  kept : ∀ {k}, (m.heap ref).debounceTask ≠ some k → m'.tasks k = m.tasks k

theorem Reset.of_cancel {m : Monitor} {ref : Ref} {pendingState : Option PowerState}
    {originalChangeTime : Option Time} {f : UserState → UserState}
    (hpending : ∀ st, (f st).pendingState = pendingState)
    (horiginal : ∀ st, (f st).originalChangeTime = originalChangeTime)
    (hdebounce : ∀ st, (f st).debounceTask = st.debounceTask)
    (hfirst : ∀ st, (f st).isFirstCheck = st.isFirstCheck)
    : Reset m ((m.cancelDebounceTask ref).modify ref f) ref pendingState originalChangeTime := by
  unfold cancelDebounceTask
  cases hk : (m.heap ref).debounceTask with
  | none =>
    constructor
    all_goals simp_all [modify]
  | some k =>
    dsimp only
    split
    . next hdone =>
      have hdone : m.tasks k = none := by simpa [taskDone] using hdone
      constructor
      all_goals simp_all [modify]
    . constructor
      all_goals simp_all [modify, setTask, Function.update_apply]
      intro k' hne heq
      exact absurd heq.symm hne

theorem Reset.of_modify {m m' : Monitor} {ref : Ref} {pendingState : Option PowerState}
    {originalChangeTime : Option Time} {f : UserState → UserState}
    (hdebounce : ∀ st, (f st).debounceTask = st.debounceTask)
    (hfirst : ∀ st, (f st).isFirstCheck = st.isFirstCheck)
    (h : Reset (m.modify ref f) m' ref pendingState originalChangeTime)
    : Reset m m' ref pendingState originalChangeTime where
  userStates := h.userStates
  owner := h.owner
  nextRef := h.nextRef
  nextTask := h.nextTask
  cycle := h.cycle
  log := h.log
  now := h.now
  heap_ne hr := (h.heap_ne hr).trans (by simp [modify, hr])
  pendingState := h.pendingState
  originalChangeTime := h.originalChangeTime
  firstCheck := h.firstCheck.trans (by simp [modify, hfirst])
  debounceTask hk := by simpa [modify, hdebounce] using h.debounceTask hk
  gone hk := h.gone (by simpa [modify, hdebounce] using hk)
  kept hk := h.kept (by simpa [modify, hdebounce] using hk)

theorem Reset.of_markDirty {m m' : Monitor} {ref : Ref} {pendingState : Option PowerState}
    {originalChangeTime : Option Time} {tid : TelegramId}
    (h : Reset (m.markDirty tid) m' ref pendingState originalChangeTime)
    : Reset m m' ref pendingState originalChangeTime :=
  { h with }

theorem Reset.markDirty {m m' : Monitor} {ref : Ref} {pendingState : Option PowerState}
    {originalChangeTime : Option Time} (h : Reset m m' ref pendingState originalChangeTime)
    (tid : TelegramId) : Reset m (m'.markDirty tid) ref pendingState originalChangeTime :=
  { h with }

theorem Reset.setGroups {m m' : Monitor} {ref : Ref} {pendingState : Option PowerState}
    {originalChangeTime : Option Time} (h : Reset m m' ref pendingState originalChangeTime)
    (groups : List Group)
    : Reset m { m' with groups := groups } ref pendingState originalChangeTime :=
  { h with }

theorem modify_modify (m : Monitor) (ref : Ref) (f g : UserState → UserState)
    : (m.modify ref f).modify ref g = m.modify ref (g ∘ f) := by
  simp [modify]

inductive Observation (m m' : Monitor) (i : Nat) (call : Call) (ref : Ref) (newState : PowerState)
    : Prop where
  | kept
    (pending : (m.heap ref).pendingState = none ∨ (m.heap ref).pendingState = some newState ∨
      (m.heap ref).isFirstCheck = true)
    (frame : Frame (m.record (.observed call.id call.user.telegramId newState m.now false)) m')
  | flapping
    (firstCheck : (m.heap ref).isFirstCheck = false)
    (reset : Reset (m.record (.observed call.id call.user.telegramId newState m.now false)) m' ref
      none none)
    (windowAt : ∀ j, m'.windowAt j = m.windowAt j)
    (idle : Idle m → Idle m')
    (storeTask : ∀ {j call ref newState oldState debounceS}, m'.callAt j = some call →
      call.pc = .storeTask ref newState oldState debounceS → m.callAt j = some call)
  | newPending
    (firstCheck : (m.heap ref).isFirstCheck = false)
    (reset : Reset (m.record (.observed call.id call.user.telegramId newState m.now true)) m' ref
      (some newState) (some m.now))
    (windowAt_self : m'.windowAt i = some {
      call := call.id, telegramId := call.user.telegramId, ref := ref, newState := newState })
    (windowAt_ne : ∀ j, j ≠ i → m'.windowAt j = m.windowAt j)
    (idle : Idle m → Idle m')
    (storeTask : ∀ {j call ref newState oldState debounceS}, m'.callAt j = some call →
      call.pc = .storeTask ref newState oldState debounceS → m.callAt j = some call)

theorem verdict_kept {st : UserState} {pt : Option PowerTracking} {newState : PowerState}
    (hflapping : st.verdict pt newState ≠ .flapping)
    (hnewPending : st.verdict pt newState ≠ .newPending)
    : st.pendingState = none ∨ st.pendingState = some newState ∨ st.isFirstCheck = true := by
  unfold UserState.verdict at hflapping hnewPending
  by_cases hfirst : st.isFirstCheck = true
  . exact .inr (.inr hfirst)
  . rw [if_neg hfirst] at hflapping hnewPending
    by_cases hcurrent : st.currentState = some newState
    . rw [if_pos hcurrent] at hflapping
      by_cases hpending : st.pendingState = none
      . exact .inl hpending
      . by_cases hnew : st.pendingState = some newState
        . exact .inr (.inl hnew)
        . exact absurd (if_pos ⟨hpending, hnew⟩) hflapping
    . rw [if_neg hcurrent] at hnewPending
      by_cases hnew : st.pendingState = some newState
      . exact .inr (.inl hnew)
      . exact absurd (if_neg hnew) hnewPending

theorem firstCheck_of_verdict {st : UserState} {pt : Option PowerTracking} {newState : PowerState}
    (h : st.verdict pt newState = .flapping ∨ st.verdict pt newState = .newPending)
    : st.isFirstCheck = false := by
  unfold UserState.verdict at h
  by_cases hfirst : st.isFirstCheck = true
  . rw [if_pos hfirst] at h
    split at h <;> simp at h
  . exact Bool.eq_false_iff.mpr hfirst

theorem modify_id (m : Monitor) (ref : Ref) : m.modify ref id = m := by
  simp [modify]

theorem now_cancelDebounceTask (m : Monitor) (ref : Ref)
    : (m.cancelDebounceTask ref).now = m.now := by
  unfold cancelDebounceTask
  split
  . split <;> rfl
  . rfl

theorem applyVerdict_kept (m : Monitor) (tid : TelegramId) (ref : Ref) (newState : PowerState)
    {verdict : Verdict} (hflapping : verdict ≠ .flapping) (hnewPending : verdict ≠ .newPending)
    : ∃ f pc, m.applyVerdict tid ref newState verdict = (m.modify ref f, pc) ∧
        (∀ st, (f st).pendingPart = st.pendingPart) ∧
        (∀ st, (f st).isFirstCheck = true → st.isFirstCheck = true) ∧
        pc.bind CallPc.window = none := by
  cases verdict with
  | seedFromDb state changedAt =>
    refine ⟨_, _, rfl, fun _ => rfl, ?_, rfl⟩
    intro st h
    simp at h
  | seedFromReading =>
    refine ⟨_, _, rfl, fun _ => rfl, ?_, rfl⟩
    intro st h
    simp at h
  | unchanged => exact ⟨_, _, rfl, fun _ => rfl, fun _ h => h, rfl⟩
  | alreadyPending =>
    exact ⟨id, none, by rw [modify_id]; rfl, fun _ => rfl, fun _ h => h, rfl⟩
  | flapping => exact absurd rfl hflapping
  | newPending => exact absurd rfl hnewPending

theorem heap_modify_of {p : UserState → Prop} {m : Monitor} {ref : Ref} {f : UserState → UserState}
    (hf : ∀ st, p (f st) → p st) {r : Ref} (h : p ((m.modify ref f).heap r)) : p (m.heap r) := by
  by_cases href : r = ref
  . subst href
    apply hf
    simpa [modify] using h
  . simpa [modify, href] using h

theorem reset_flapping (m : Monitor) (tid : TelegramId) (ref : Ref) (newState : PowerState)
    : Reset m (m.applyVerdict tid ref newState .flapping).1 ref none none := by
  dsimp only [applyVerdict]
  apply Reset.markDirty
  apply Reset.of_modify (f := fun st => { st with consecutiveChecks := 0 }) (fun _ => rfl)
    (fun _ => rfl)
  apply Reset.of_cancel
  all_goals intro st; rfl

theorem reset_newPending (m : Monitor) (tid : TelegramId) (ref : Ref) (newState : PowerState)
    : Reset m (m.applyVerdict tid ref newState .newPending).1 ref (some newState) (some m.now) := by
  dsimp only [applyVerdict]
  rw [modify_modify]
  apply Reset.markDirty
  apply Reset.of_cancel
  . intro st
    rfl
  . intro st
    exact congrArg some (now_cancelDebounceTask m ref)
  . intro st
    dsimp only [Function.comp_apply]
    split <;> rfl
  . intro st
    dsimp only [Function.comp_apply]
    split <;> rfl

theorem windowAt_of_observed {m m' : Monitor} {i : Nat} {g : Group} {call : Call}
    (pc : Option CallPc) (hg : m.groups[i]? = some g) (hcall : g.call = some call)
    (hlock : call.pc.window = none) (hpc : pc.bind CallPc.window = none)
    (h : m'.groups = m.groups.set i { g with call := pc.map fun pc => { call with pc := pc } })
    (j : Nat) : m'.windowAt j = m.windowAt j := by
  apply windowAt_of_set hg h
  cases pc with
  | none => simp [hcall, Call.window, hlock]
  | some pc =>
    rw [Option.bind_some] at hpc
    simp [hcall, Call.window, hlock, hpc]

theorem storeTask_of_observed {m m' : Monitor} {i : Nat} {g : Group} {call : Call}
    {pc : Option CallPc} (hg : m.groups[i]? = some g)
    (hpc : ∀ ref newState oldState debounceS, pc ≠ some (.storeTask ref newState oldState debounceS))
    (h : m'.groups = m.groups.set i { g with call := pc.map fun pc => { call with pc := pc } })
    {j : Nat} {call' : Call} {ref : Ref} {newState : PowerState} {oldState : Option PowerState}
    {debounceS : Int} (hj : m'.callAt j = some call')
    (hpc' : call'.pc = .storeTask ref newState oldState debounceS) : m.callAt j = some call' := by
  refine storeTask_of_set hg h ?_ hj hpc'
  intro call'' hcall''
  right
  intro ref newState oldState debounceS heq
  obtain ⟨pc', rfl, rfl⟩ := Option.map_eq_some_iff.mp hcall''
  exact hpc ref newState oldState debounceS (congrArg some heq)

theorem observation_of_applyVerdict {m m₁ m' : Monitor} {i : Nat} {g : Group} {call : Call}
    {isAvailable : Bool} {ref : Ref} {newState : PowerState} {verdict : Verdict}
    {f : UserState → UserState} {r : Monitor × Option CallPc}
    (hg : m.groups[i]? = some g) (hcall : g.call = some call) (hlock : call.pc = .lock isAvailable)
    (hverdict : (m.heap ref).verdict call.user.powerTracking newState = verdict)
    (hpending : ∀ st, (f st).pendingPart = st.pendingPart)
    (hfirst : ∀ st, (f st).isFirstCheck = st.isFirstCheck)
    (hm₁ : m₁ = m.record (.observed call.id call.user.telegramId newState m.now
      (verdict = .newPending)))
    (hr : r = ((m₁.modify ref f).markDirty call.user.telegramId).applyVerdict call.user.telegramId ref
      newState verdict)
    (h : m' = { r.1 with
      groups := m.groups.set i { g with call := r.2.map fun pc => { call with pc := pc } } })
    : Observation m m' i call ref newState := by
  have hwindow : call.pc.window = none := by rw [hlock]; rfl
  have hdebounce (st : UserState) : (f st).debounceTask = st.debounceTask :=
    congrArg UserState.PendingPart.debounceTask (hpending st)
  have hgroups := congrArg Monitor.groups h
  dsimp only at hgroups
  by_cases hflapping : verdict = .flapping
  . subst hflapping hm₁ hr
    have hreset : Reset (m.record (.observed call.id call.user.telegramId newState m.now false)) m'
        ref none none := by
      rw [h]
      exact ((reset_flapping _ _ _ _).of_markDirty.of_modify hdebounce hfirst).setGroups _
    refine .flapping (firstCheck_of_verdict (.inl hverdict)) hreset ?_ ?_ ?_
    . exact windowAt_of_observed _ hg hcall hwindow rfl hgroups
    . intro hidle
      exact hidle.set hreset.cycle hgroups
    . exact storeTask_of_observed hg (fun _ _ _ _ heq => by cases heq) hgroups
  by_cases hnewPending : verdict = .newPending
  . subst hnewPending hm₁ hr
    have hreset : Reset (m.record (.observed call.id call.user.telegramId newState m.now true)) m'
        ref (some newState) (some m.now) := by
      rw [h]
      exact ((reset_newPending _ _ _ _).of_markDirty.of_modify hdebounce hfirst).setGroups _
    refine .newPending (firstCheck_of_verdict (.inr hverdict)) hreset ?_ ?_ ?_ ?_
    . rw [windowAt, callAt_of_set_self hg hgroups]
      rfl
    . intro j hj
      rw [windowAt, windowAt, callAt_of_set_ne hgroups hj.symm]
    . intro hidle
      exact hidle.set hreset.cycle hgroups
    . exact storeTask_of_observed hg (fun _ _ _ _ heq => by cases heq) hgroups
  . obtain ⟨f', pc, heq, hpending', hfirst', hpc⟩ :=
      applyVerdict_kept ((m₁.modify ref f).markDirty call.user.telegramId) call.user.telegramId ref
        newState hflapping hnewPending
    subst hm₁
    rw [decide_eq_false hnewPending] at hr heq
    rw [hr, heq] at h hgroups
    refine .kept (verdict_kept (hverdict ▸ hflapping) (hverdict ▸ hnewPending)) ?_
    exact {
      userStates := by rw [h]; rfl
      owner := by rw [h]; rfl
      nextRef := by rw [h]; rfl
      nextTask := by rw [h]; rfl
      pendingPart := fun r => by
        rw [h]
        exact (heap_modify_keeps UserState.pendingPart hpending' r).trans
          (heap_modify_keeps UserState.pendingPart hpending r)
      firstCheck := fun r hr => by
        rw [h] at hr
        have hr := heap_modify_of (p := fun st => st.isFirstCheck = true) hfirst' hr
        exact heap_modify_of (p := fun st => st.isFirstCheck = true) (fun st h => hfirst st ▸ h) hr
      tasks := fun k => by rw [h]; exact .inl rfl
      windowAt := windowAt_of_observed _ hg hcall hwindow hpc hgroups
      idle := fun hidle => Idle.set hidle (by rw [h]; rfl) hgroups
      storeTask := storeTask_of_observed hg (by rintro _ _ _ _ rfl; cases hpc) hgroups
      log := by rw [h]; rfl
      now := by rw [h]; exact Int.le_refl _ }

theorem step_observed {m m' : Monitor} {i : Nat} (h : m.stepCall i observeCall = some m')
    : ∃ call isAvailable m₁ ref, m.callAt i = some call ∧ call.pc = .lock isAvailable ∧
        Entered m m₁ call.user.telegramId ref ∧
        Observation m₁ m' i call ref (.ofAvailable isAvailable) := by
  obtain ⟨g, call, m₂, pc, hg, hcall, hf, hm'⟩ := stepCall_eq_some h
  unfold observeCall at hf
  split at hf
  . next isAvailable hlock =>
    have hcallAt := callAt_eq_some hg hcall
    have hentered := entered_getUserState m call.user.telegramId
    refine ⟨call, isAvailable, _, _, hcallAt, hlock, hentered, ?_⟩
    rw [← hentered.groups] at hg hm'
    dsimp only [observe] at hf
    generalize m.getUserState call.user.telegramId = r at hf hg hm' ⊢
    obtain ⟨m₁, ref⟩ := r
    let f : UserState → UserState := fun st => { st with
      lastPingTime := some (.text (.iso m₁.now))
      lastPingSuccess := some isAvailable }
    have hverdict : (m₁.heap ref).verdict call.user.powerTracking (.ofAvailable isAvailable) =
        ((m₁.modify ref f).heap ref).verdict call.user.powerTracking (.ofAvailable isAvailable) := by
      rw [show (m₁.modify ref f).heap ref = f (m₁.heap ref) from Function.update_self ..]
      rfl
    exact observation_of_applyVerdict (f := f) (r := (m₂, pc)) hg hcall hlock hverdict
      (fun _ => rfl) (fun _ => rfl) rfl (Option.some.inj hf).symm hm'
  . cases hf

structure DebounceRead (m m' : Monitor) (i : Nat) (call : Call) (debounceS : Int) : Prop where
  kept : Kept m m'
  window : ∃ w, m.windowAt i = some w ∧ w.call = call.id
  log : m'.log = .debounceRead call.id debounceS :: m.log
  storeTask : ∀ {j call' ref newState oldState d}, m'.callAt j = some call' →
    call'.pc = .storeTask ref newState oldState d →
    m.callAt j = some call' ∨ (j = i ∧ d = debounceS)

theorem step_debounceRead {cfg : Settings} {m m' : Monitor} {i : Nat} {val : Option (Option Int)}
    (h : m.stepCall i (fun m call => m.debounceRead cfg call val) = some m')
    : ∃ call, m.callAt i = some call ∧ DebounceRead m m' i call (debounceDelay cfg val) := by
  obtain ⟨g, call, m₁, pc, hg, hcall, hf, hm'⟩ := stepCall_eq_some h
  unfold debounceRead at hf
  split at hf
  . next ref newState hpc =>
    cases hf
    have hgroups := congrArg Monitor.groups hm'
    refine ⟨call, callAt_eq_some hg hcall, ?_⟩
    have hwindow : call.window = some {
        call := call.id, telegramId := call.user.telegramId, ref := ref, newState := newState } := by
      simp [Call.window, hpc, CallPc.window]
    have hwindowAt : ∀ j, m'.windowAt j = m.windowAt j := by
      apply windowAt_of_set hg hgroups
      rw [hcall, Option.bind_some, hwindow]
      rfl
    have hidle (hidle : Idle m) : Idle m' := hidle.set (by rw [hm']; rfl) hgroups
    have hkept : Kept m m' := by
      subst hm'
      exact { Kept.refl m with windowAt := hwindowAt, idle := hidle }
    refine { kept := hkept, window := ?_, log := by rw [hm']; rfl, storeTask := ?_ }
    . exact ⟨_, by rw [windowAt, callAt_eq_some hg hcall, Option.bind_some, hwindow], rfl⟩
    . intro j call' ref' newState' oldState' d hj hpc'
      by_cases hij : i = j
      . subst hij
        rw [callAt_of_set_self hg hgroups] at hj
        cases hj
        cases hpc'
        exact .inr ⟨rfl, rfl⟩
      . rw [callAt_of_set_ne hgroups hij] at hj
        exact .inl hj
  . cases hf

structure TaskStored (m m' : Monitor) (i : Nat) (call : Call) (ref : Ref) (newState : PowerState)
    (oldState : Option PowerState) (debounceS : Int) : Prop where
  eq : m' = { m.createDebounceTask ref {
      kind := .confirmState call.id call.user.telegramId ref newState oldState
      pc := .sleeping (m.now + seconds debounceS) } with groups := m'.groups }
  windowAt_self : m'.windowAt i = none
  windowAt_ne : ∀ {j}, j ≠ i → m'.windowAt j = m.windowAt j
  idle : Idle m → Idle m'
  storeTask : ∀ {j call ref newState oldState debounceS}, m'.callAt j = some call →
    call.pc = .storeTask ref newState oldState debounceS → m.callAt j = some call

theorem windowAt_of_storeTask {m : Monitor} {i : Nat} {call : Call} {ref : Ref}
    {newState : PowerState} {oldState : Option PowerState} {debounceS : Int}
    (hcall : m.callAt i = some call) (hpc : call.pc = .storeTask ref newState oldState debounceS)
    : m.windowAt i = some {
        call := call.id, telegramId := call.user.telegramId, ref := ref, newState := newState } := by
  simp [windowAt, hcall, Call.window, hpc, CallPc.window]

theorem step_taskStored {m m' : Monitor} {i : Nat} (h : m.stepCall i taskStored = some m')
    : ∃ call ref newState oldState debounceS, m.callAt i = some call ∧
        call.pc = .storeTask ref newState oldState debounceS ∧
        TaskStored m m' i call ref newState oldState debounceS := by
  obtain ⟨g, call, m₁, pc, hg, hcall, hf, hm'⟩ := stepCall_eq_some h
  unfold taskStored at hf
  split at hf
  . next ref newState oldState debounceS hpc =>
    cases hf
    have hgroups := congrArg Monitor.groups hm'
    refine ⟨call, ref, newState, oldState, debounceS, callAt_eq_some hg hcall, hpc, ?_⟩
    constructor
    . rw [hm']
    . rw [windowAt, callAt_of_set_self hg hgroups]
      rfl
    . intro j hj
      rw [windowAt, windowAt, callAt_of_set_ne hgroups hj.symm]
    . intro hidle
      exact hidle.set (by rw [hm']; rfl) hgroups
    . refine storeTask_of_set hg hgroups ?_
      intro call' hcall'
      cases hcall'
  . cases hf

theorem step_woken {cfg : Settings} {m m' : Monitor} {k : TaskId}
    (h : m.step cfg (.woken k) = some m')
    : ∃ task wakeAt, m.tasks k = some task ∧ task.pc = .sleeping wakeAt ∧ wakeAt ≤ m.now ∧
        m' = m.setTask k (some { task with pc := .lock }) := by
  obtain ⟨task, hk, h⟩ := stepTask_eq_some h
  split at h
  . next wakeAt hpc =>
    split at h
    . next hwake => exact ⟨task, wakeAt, hk, hpc, hwake, (Option.some.inj h).symm⟩
    . cases h
  . cases h

theorem step_confirmed {cfg : Settings} {m m' : Monitor} {k : TaskId}
    (h : m.step cfg (.confirmed k) = some m')
    : ∃ task, m.tasks k = some task ∧ task.pc = .lock ∧ m' = m.confirm k task.kind := by
  obtain ⟨task, hk, h⟩ := stepTask_eq_some h
  split at h
  . next hpc => exact ⟨task, hk, hpc, (Option.some.inj h).symm⟩
  . cases h

structure Confirmed (m m' : Monitor) (k : TaskId) (kind : TaskKind) (ref : Ref) : Prop where
  userStates : m'.userStates = m.userStates
  owner : m'.owner = m.owner
  nextRef : m'.nextRef = m.nextRef
  nextTask : m'.nextTask = m.nextTask
  groups : m'.groups = m.groups
  cycle : m'.cycle = m.cycle
  now : m'.now = m.now
  heap_ne : ∀ {r}, r ≠ ref → m'.heap r = m.heap r
  debounceTask : (m'.heap ref).debounceTask = none
  pendingState : (m'.heap ref).pendingState = none
  firstCheck : (m'.heap ref).isFirstCheck = (m.heap ref).isFirstCheck
  tasks_ne : ∀ {k'}, k' ≠ k → m'.tasks k' = m.tasks k'
  task : ∃ pc, m'.tasks k = some { kind := kind, pc := pc } ∧ pc.unconfirmed = false ∧
    Task.ref { kind := kind, pc := pc } = some ref

inductive Confirmation (m m' : Monitor) (k : TaskId) (kind : TaskKind) : Prop where
  | state {call : CallId} {tid : TelegramId} {ref : Ref} {newState : PowerState}
    {oldState : Option PowerState}
    (hkind : kind = .confirmState call tid ref newState oldState)
    (confirmed : Confirmed m m' k kind ref)
    (log : m'.log = .confirmed call tid newState m.now (m.heap ref).originalChangeTime :: m.log)
  | restored {tid : TelegramId} {ref : Ref} {newState : PowerState} {oldState : Option PowerState}
    {origDt : Option Time}
    (hkind : kind = .confirmRestored tid newState oldState origDt)
    (lookup : m.userStates.lookup tid = some ref)
    (pending : (m.heap ref).pendingState = some newState)
    (confirmed : Confirmed m m' k kind ref)
    (log : m'.log = .restoredConfirmed tid newState m.now origDt :: m.log)
  | dropped {tid : TelegramId} {newState : PowerState} {oldState : Option PowerState}
    {origDt : Option Time}
    (hkind : kind = .confirmRestored tid newState oldState origDt)
    (notPending : ∀ {ref}, m.userStates.lookup tid = some ref →
      (m.heap ref).pendingState ≠ some newState)
    (eq : m' = m.setTask k none)

theorem confirmed_confirmEntry {m m₁ m' : Monitor} {k : TaskId} {kind : TaskKind} {tid : TelegramId}
    {ref : Ref} {newState : PowerState} (pc : TaskPc) (hpc : pc.unconfirmed = false)
    (href : Task.ref { kind := kind, pc := pc } = some ref)
    (h₁ : m₁ = m.confirmEntry tid ref newState)
    (h : m' = { m₁ with
      log := m'.log, tasks := Function.update m.tasks k (some { kind := kind, pc := pc }) })
    : Confirmed m m' k kind ref := by
  subst h₁
  rw [h]
  constructor
  case heap_ne =>
    intro r hr
    simp [confirmEntry, modify, markDirty, hr]
  case tasks_ne =>
    intro k' hk'
    simp [hk']
  case task => exact ⟨pc, by simp, hpc, href⟩
  all_goals simp [confirmEntry, modify, markDirty]

theorem confirmation_confirm (m : Monitor) (k : TaskId) (kind : TaskKind)
    : Confirmation m (m.confirm k kind) k kind := by
  cases kind with
  | confirmState call tid ref newState oldState =>
    refine .state rfl ?_ rfl
    exact confirmed_confirmEntry (.handling ref _ .start) rfl rfl rfl rfl
  | confirmRestored tid newState oldState origDt =>
    cases hlookup : m.userStates.lookup tid with
    | none =>
      refine .dropped rfl (by simp [hlookup]) ?_
      simp [confirm, hlookup]
    | some ref =>
      by_cases hpending : (m.heap ref).pendingState = some newState
      . have heq : m.confirm k (.confirmRestored tid newState oldState origDt) =
            (((m.confirmEntry tid ref newState).record
              (.restoredConfirmed tid newState m.now origDt)).setTask k (some {
                kind := .confirmRestored tid newState oldState origDt
                pc := .loadUser ref })) := by
          simp only [confirm, hlookup, if_pos hpending]
          rfl
        rw [heq]
        refine .restored rfl hlookup hpending ?_ rfl
        exact confirmed_confirmEntry (.loadUser ref) rfl rfl rfl rfl
      . refine .dropped rfl ?_ ?_
        . intro ref' hlookup'
          rw [hlookup] at hlookup'
          cases hlookup'
          exact hpending
        . simp [confirm, hlookup, hpending]

end Monitor
end PowerMonitor
