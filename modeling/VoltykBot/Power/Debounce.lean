import VoltykBot.Power.Cycle

/-!
This module contains debounce safety: what a confirm task commits has been observed a debounce ago, and
nothing else has been observed since. The invariant ties each unconfirmed task, and each call that is
about to store one, to its entry and to the observation in the log.
-/

namespace PowerMonitor

def LogEntry.contrary (tid : TelegramId) (state : PowerState) (entry : LogEntry) : Prop :=
  match entry with
  | .observed _ tid' state' _ _ => tid' = tid ∧ state' ≠ state
  | _ => False

/--
`call` observed `state` at `t₀` and made it pending, and since then, in `newer`, nothing else has been
observed for the user.
-/
def ObservedSince (log newer : List LogEntry) (call : CallId) (tid : TelegramId)
    (state : PowerState) (t₀ : Time) : Prop :=
  (∃ older, log = newer ++ .observed call tid state t₀ true :: older) ∧
    ∀ entry ∈ newer, ¬ entry.contrary tid state

def Justified (log : List LogEntry) (call : CallId) (tid : TelegramId) (state : PowerState)
    (t : Time) (origDt : Option Time) : Prop :=
  ∃ t₀ debounceS newer, ObservedSince log newer call tid state t₀ ∧
    .debounceRead call debounceS ∈ newer ∧ t₀ + seconds debounceS ≤ t ∧ origDt = some t₀

/--
Every state that a confirm task of `_check_user_power` has committed was justified at that point.
-/
def DebounceSafe (log : List LogEntry) : Prop :=
  ∀ newer older call tid state t origDt,
    log = newer ++ .confirmed call tid state t origDt :: older →
      Justified older call tid state t origDt

theorem ObservedSince.append {log newer new : List LogEntry} {call : CallId} {tid : TelegramId}
    {state : PowerState} {t₀ : Time} (h : ObservedSince log newer call tid state t₀)
    (hnew : ∀ entry ∈ new, ¬ entry.contrary tid state)
    : ObservedSince (new ++ log) (new ++ newer) call tid state t₀ := by
  obtain ⟨⟨older, rfl⟩, hnewer⟩ := h
  refine ⟨⟨older, by rw [List.append_assoc]⟩, ?_⟩
  intro entry hentry
  cases List.mem_append.mp hentry with
  | inl hmem => exact hnew entry hmem
  | inr hmem => exact hnewer entry hmem

theorem DebounceSafe.cons {log : List LogEntry} {entry : LogEntry} (h : DebounceSafe log)
    (hentry : ∀ {call tid state t origDt}, entry = .confirmed call tid state t origDt →
      Justified log call tid state t origDt) : DebounceSafe (entry :: log) := by
  intro newer older call tid state t origDt heq
  cases newer with
  | nil =>
    cases heq
    exact hentry rfl
  | cons _ newer =>
    cases heq
    exact h newer older call tid state t origDt rfl

def TaskPc.due (pc : TaskPc) (now : Time) : Time :=
  match pc with
  | .sleeping wakeAt => wakeAt
  | _ => now

namespace Monitor

structure Waiting (m : Monitor) (k : TaskId) (task : Task) (ref : Ref) : Prop where
  lookup : m.userStates.lookup task.kind.telegramId = some ref
  debounceTask : (m.heap ref).debounceTask = some k
  pendingState : (m.heap ref).pendingState = some task.kind.newState
  justified : ∀ {call tid ref' newState oldState},
    task.kind = .confirmState call tid ref' newState oldState →
      Justified m.log call tid newState (task.pc.due m.now) (m.heap ref).originalChangeTime

structure Opened (m : Monitor) (w : Window) : Prop where
  lookup : m.userStates.lookup w.telegramId = some w.ref
  pendingState : (m.heap w.ref).pendingState = some w.newState
  notLive : ¬ Live m w.ref
  observed : ∃ t₀ newer, (m.heap w.ref).originalChangeTime = some t₀ ∧ t₀ ≤ m.now ∧
    ObservedSince m.log newer w.call w.telegramId w.newState t₀

def HasRead (m : Monitor) (call : Call) (ref : Ref) (newState : PowerState) (debounceS : Int) : Prop :=
  ∃ t₀ newer, (m.heap ref).originalChangeTime = some t₀ ∧ t₀ ≤ m.now ∧
    ObservedSince m.log newer call.id call.user.telegramId newState t₀ ∧
    .debounceRead call.id debounceS ∈ newer

structure DebounceInv (m : Monitor) : Prop where
  wf : Wf m
  distinct : Distinct m
  task : ∀ {k task}, m.tasks k = some task → task.pc.unconfirmed = true → ∃ ref, Waiting m k task ref
  window : ∀ {i w}, m.windowAt i = some w → Opened m w
  storeTask : ∀ {i call ref newState oldState debounceS}, m.callAt i = some call →
    call.pc = .storeTask ref newState oldState debounceS → HasRead m call ref newState debounceS
  firstCheck : ∀ {tid ref}, m.userStates.lookup tid = some ref → (m.heap ref).isFirstCheck = true →
    (m.heap ref).pendingState = none
  safe : DebounceSafe m.log

structure Undisturbed (m m' : Monitor) (tid : TelegramId) (ref : Ref) (state : PowerState) : Prop where
  lookup : m.userStates.lookup tid = some ref → m'.userStates.lookup tid = some ref
  pendingPart : (m'.heap ref).pendingPart = (m.heap ref).pendingPart
  log : ∃ new, m'.log = new ++ m.log ∧ ∀ entry ∈ new, ¬ entry.contrary tid state
  now : m.now ≤ m'.now

theorem Undisturbed.pendingState {m m' : Monitor} {tid : TelegramId} {ref : Ref} {state : PowerState}
    (h : Undisturbed m m' tid ref state)
    : (m'.heap ref).pendingState = (m.heap ref).pendingState :=
  congrArg UserState.PendingPart.pendingState h.pendingPart

theorem Undisturbed.debounceTask {m m' : Monitor} {tid : TelegramId} {ref : Ref} {state : PowerState}
    (h : Undisturbed m m' tid ref state)
    : (m'.heap ref).debounceTask = (m.heap ref).debounceTask :=
  congrArg UserState.PendingPart.debounceTask h.pendingPart

theorem Undisturbed.originalChangeTime {m m' : Monitor} {tid : TelegramId} {ref : Ref}
    {state : PowerState} (h : Undisturbed m m' tid ref state)
    : (m'.heap ref).originalChangeTime = (m.heap ref).originalChangeTime :=
  congrArg UserState.PendingPart.originalChangeTime h.pendingPart

theorem Justified.of_undisturbed {m m' : Monitor} {call : CallId} {tid : TelegramId} {ref : Ref}
    {state : PowerState} {pc : TaskPc} {origDt : Option Time}
    (h : Justified m.log call tid state (pc.due m.now) origDt)
    (hundisturbed : Undisturbed m m' tid ref state)
    : Justified m'.log call tid state (pc.due m'.now) origDt := by
  obtain ⟨t₀, debounceS, newer, hobserved, hread, hdue, horig⟩ := h
  obtain ⟨new, hlog, hnew⟩ := hundisturbed.log
  refine ⟨t₀, debounceS, new ++ newer, ?_, List.mem_append_right _ hread, ?_, horig⟩
  . rw [hlog]
    exact hobserved.append hnew
  . cases pc with
    | sleeping wakeAt => exact hdue
    | _ => exact Int.le_trans hdue hundisturbed.now

theorem Waiting.of_undisturbed {m m' : Monitor} {k : TaskId} {task : Task} {ref : Ref}
    (h : Waiting m k task ref)
    (hundisturbed : Undisturbed m m' task.kind.telegramId ref task.kind.newState)
    : Waiting m' k task ref where
  lookup := hundisturbed.lookup h.lookup
  debounceTask := hundisturbed.debounceTask.trans h.debounceTask
  pendingState := hundisturbed.pendingState.trans h.pendingState
  justified hkind := by
    rw [hundisturbed.originalChangeTime]
    rw [hkind] at hundisturbed
    exact Justified.of_undisturbed (h.justified hkind) hundisturbed

theorem Opened.of_undisturbed {m m' : Monitor} {w : Window} (h : Opened m w)
    (hundisturbed : Undisturbed m m' w.telegramId w.ref w.newState) (hnotLive : ¬ Live m' w.ref)
    : Opened m' w where
  lookup := hundisturbed.lookup h.lookup
  pendingState := hundisturbed.pendingState.trans h.pendingState
  notLive := hnotLive
  observed := by
    obtain ⟨t₀, newer, horig, hnow, hobserved⟩ := h.observed
    obtain ⟨new, hlog, hnew⟩ := hundisturbed.log
    refine ⟨t₀, new ++ newer, hundisturbed.originalChangeTime.trans horig,
      Int.le_trans hnow hundisturbed.now, ?_⟩
    rw [hlog]
    exact hobserved.append hnew

theorem HasRead.of_undisturbed {m m' : Monitor} {call : Call} {ref : Ref} {newState : PowerState}
    {debounceS : Int} (h : HasRead m call ref newState debounceS)
    (hundisturbed : Undisturbed m m' call.user.telegramId ref newState)
    : HasRead m' call ref newState debounceS := by
  obtain ⟨t₀, newer, horig, hnow, hobserved, hread⟩ := h
  obtain ⟨new, hlog, hnew⟩ := hundisturbed.log
  refine ⟨t₀, new ++ newer, hundisturbed.originalChangeTime.trans horig,
    Int.le_trans hnow hundisturbed.now, ?_, List.mem_append_right _ hread⟩
  rw [hlog]
  exact hobserved.append hnew

/-! ## Quiet steps -/

theorem Kept.undisturbed {m m' : Monitor} (h : Kept m m') {tid : TelegramId} {ref : Ref}
    {state : PowerState} (new : List LogEntry) (hlog : m'.log = new ++ m.log)
    (hnew : ∀ entry ∈ new, ¬ entry.contrary tid state) : Undisturbed m m' tid ref state where
  lookup hlookup := by rwa [h.userStates]
  pendingPart := h.pendingPart ref
  log := ⟨new, hlog, hnew⟩
  now := h.now

theorem Kept.live {m m' : Monitor} (h : Kept m m') {ref : Ref} (hlive : Live m' ref)
    : Live m ref := by
  obtain ⟨k, hk, hlive⟩ := hlive
  refine ⟨k, by rw [← h.debounceTask, hk], ?_⟩
  cases h.tasks k with
  | inl hsame => exact hsame ▸ hlive
  | inr hmoved =>
    obtain ⟨task, htask, _⟩ := hmoved
    rw [htask]
    nofun

theorem Kept.tasks_unconfirmed {m m' : Monitor} (h : Kept m m') {k : TaskId} {task : Task}
    (hk : m'.tasks k = some task) (hpc : task.pc.unconfirmed = true) : m.tasks k = some task := by
  cases h.tasks k with
  | inl hsame => rw [← hsame, hk]
  | inr hmoved =>
    obtain ⟨_, _, _, hnext⟩ := hmoved
    rw [(hnext task hk).2.1] at hpc
    cases hpc

theorem DebounceInv.of_kept {m m' : Monitor} (h : DebounceInv m) (new : List LogEntry)
    (hkept : Kept m m') (hdistinct : Distinct m') (hlog : m'.log = new ++ m.log)
    (htask : ∀ {k task ref}, Waiting m k task ref →
      ∀ entry ∈ new, ¬ entry.contrary task.kind.telegramId task.kind.newState)
    (hwindow : ∀ {w}, Opened m w → ∀ entry ∈ new, ¬ entry.contrary w.telegramId w.newState)
    (hstoreTask : ∀ {i call ref newState oldState debounceS}, m'.callAt i = some call →
      call.pc = .storeTask ref newState oldState debounceS → HasRead m' call ref newState debounceS)
    (hsafe : DebounceSafe m'.log) : DebounceInv m' where
  wf := h.wf.of_kept hkept
  distinct := hdistinct
  task hk hpc := by
    obtain ⟨ref, hwaiting⟩ := h.task (hkept.tasks_unconfirmed hk hpc) hpc
    exact ⟨ref, hwaiting.of_undisturbed (hkept.undisturbed new hlog (htask hwaiting))⟩
  window hw := by
    rw [hkept.windowAt] at hw
    have hopened := h.window hw
    exact hopened.of_undisturbed (hkept.undisturbed new hlog (hwindow hopened))
      (fun hlive => hopened.notLive (hkept.live hlive))
  storeTask := hstoreTask
  firstCheck {tid ref} href hfirst := by
    rw [hkept.userStates] at href
    rw [hkept.pendingState]
    exact h.firstCheck href (hkept.firstCheck ref hfirst)
  safe := hsafe

theorem DebounceInv.of_frame {m m' : Monitor} (h : DebounceInv m) (hframe : Frame m m')
    (hdistinct : Distinct m') : DebounceInv m' := by
  refine h.of_kept [] hframe.toKept hdistinct hframe.log ?_ ?_ ?_ ?_
  . intro _ _ _ _
    exact List.forall_mem_nil _
  . intro _ _
    exact List.forall_mem_nil _
  . intro i call ref newState oldState debounceS hcall hpc
    have hread := h.storeTask (hframe.storeTask hcall hpc) hpc
    exact hread.of_undisturbed
      (hframe.toKept.undisturbed [] hframe.log (List.forall_mem_nil _))
  . rw [hframe.log]
    exact h.safe

/-! ## An observation -/

theorem HasRead.lookup {m : Monitor} (h : DebounceInv m) {i : Nat} {call : Call} {ref : Ref}
    {newState : PowerState} {oldState : Option PowerState} {debounceS : Int}
    (hcall : m.callAt i = some call) (hpc : call.pc = .storeTask ref newState oldState debounceS)
    : m.userStates.lookup call.user.telegramId = some ref ∧
        (m.heap ref).pendingState = some newState :=
  have hopened := h.window (windowAt_of_storeTask hcall hpc)
  ⟨hopened.lookup, hopened.pendingState⟩

theorem undisturbed_createEntry {m : Monitor} {tid tid' : TelegramId} {ref : Ref}
    {state : PowerState} (hwf : Wf m) (hnone : m.userStates.lookup tid = none)
    (href : m.userStates.lookup tid' = some ref)
    : Undisturbed m ((m.createEntry tid {}).markDirty tid) tid' ref state where
  lookup _ := by
    have hne : tid' ≠ tid := by
      rintro rfl
      cases hnone.symm.trans href
    show (m.createEntry tid {}).userStates.lookup tid' = some ref
    rw [lookup_createEntry_ne _ hne, href]
  pendingPart := congrArg UserState.pendingPart (heap_createEntry tid {} (hwf.entry href).1)
  log := ⟨[], rfl, List.forall_mem_nil _⟩
  now := Int.le_refl _

theorem DebounceInv.of_entered {m m' : Monitor} {tid : TelegramId} {ref : Ref} (h : DebounceInv m)
    (hentered : Entered m m' tid ref) : DebounceInv m' := by
  have hwf := h.wf.of_entered hentered
  obtain rfl | ⟨hnone, _, rfl⟩ := hentered.cases
  . exact h
  . constructor
    case wf => exact hwf
    case distinct => exact h.distinct.of_eq rfl rfl
    case task =>
      intro k task hk hpc
      obtain ⟨ref', hwaiting⟩ := h.task hk hpc
      exact ⟨ref', hwaiting.of_undisturbed (undisturbed_createEntry h.wf hnone hwaiting.lookup)⟩
    case window =>
      intro i w hw
      have hopened := h.window (i := i) hw
      refine hopened.of_undisturbed (undisturbed_createEntry h.wf hnone hopened.lookup) ?_
      rintro ⟨k, hk, hlive⟩
      have hheap : ((m.createEntry tid {}).markDirty tid).heap w.ref = m.heap w.ref :=
        heap_createEntry tid {} (h.wf.entry hopened.lookup).1
      rw [hheap] at hk
      exact hopened.notLive ⟨k, hk, hlive⟩
    case storeTask =>
      intro i call ref' newState oldState debounceS hcall hpc
      have hcall : m.callAt i = some call := hcall
      exact (h.storeTask hcall hpc).of_undisturbed
        (undisturbed_createEntry h.wf hnone (HasRead.lookup h hcall hpc).1)
    case firstCheck =>
      intro tid' ref' href hfirst
      by_cases htid : tid' = tid
      . subst htid
        obtain rfl : m.nextRef = ref' := by simpa [createEntry, markDirty] using href
        simp [createEntry, markDirty]
      . have href : m.userStates.lookup tid' = some ref' :=
          (lookup_createEntry_ne {} htid).symm.trans href
        have hheap : ((m.createEntry tid {}).markDirty tid).heap ref' = m.heap ref' :=
          heap_createEntry tid {} (h.wf.entry href).1
        rw [hheap] at hfirst ⊢
        exact h.firstCheck href hfirst
    case safe => exact h.safe

theorem Reset.undisturbed {m m' : Monitor} {tid tid' : TelegramId} {ref ref' : Ref}
    {pendingState : Option PowerState} {originalChangeTime : Option Time} {state : PowerState}
    {call : CallId} {newState : PowerState} {setsPending : Bool} (hwf : Wf m)
    (h : Reset (m.record (.observed call tid newState m.now setsPending)) m' ref pendingState
      originalChangeTime)
    (href : m.userStates.lookup tid = some ref) (href' : m.userStates.lookup tid' = some ref')
    (hne : tid' ≠ tid) : Undisturbed m m' tid' ref' state where
  lookup hlookup := by rwa [h.userStates]
  pendingPart := by
    rw [h.heap_ne]
    . rfl
    . rintro rfl
      exact hne ((hwf.entry href').2.symm.trans (hwf.entry href).2)
  log := by
    refine ⟨[.observed call tid newState m.now setsPending], h.log, ?_⟩
    intro entry hentry
    rw [List.mem_singleton.mp hentry]
    exact fun hcontrary => hne hcontrary.1.symm
  now := Int.le_of_eq h.now.symm

theorem Reset.live {m m' : Monitor} {ref ref' : Ref} {pendingState : Option PowerState}
    {originalChangeTime : Option Time} (h : Reset m m' ref pendingState originalChangeTime)
    (hlive : Live m' ref') : Live m ref' ∧ ref' ≠ ref := by
  obtain ⟨k, hk, hlive⟩ := hlive
  by_cases hne : ref' = ref
  . subst hne
    exact absurd (h.gone (h.debounceTask hk)) hlive
  . rw [h.heap_ne hne] at hk
    refine ⟨⟨k, hk, ?_⟩, hne⟩
    by_cases hstored : (m.heap ref).debounceTask = some k
    . exact absurd (h.gone hstored) hlive
    . rwa [← h.kept hstored]

theorem DebounceInv.of_reset {m m' : Monitor} {i : Nat} {call : Call} {isAvailable : Bool}
    {ref : Ref} {pendingState : Option PowerState} {originalChangeTime : Option Time}
    {newState : PowerState} {setsPending : Bool} (h : DebounceInv m)
    (hcall : m.callAt i = some call) (hlock : call.pc = .lock isAvailable)
    (href : m.userStates.lookup call.user.telegramId = some ref)
    (hfirst : (m.heap ref).isFirstCheck = false)
    (hreset : Reset (m.record (.observed call.id call.user.telegramId newState m.now setsPending)) m'
      ref pendingState originalChangeTime)
    (hwf : Wf m') (hdistinct : Distinct m')
    (hwindow_self : ∀ {w}, m'.windowAt i = some w → Opened m' w)
    (hwindow_ne : ∀ j, j ≠ i → m'.windowAt j = m.windowAt j)
    (hstoreTask : ∀ {j call ref newState oldState debounceS}, m'.callAt j = some call →
      call.pc = .storeTask ref newState oldState debounceS → m.callAt j = some call)
    : DebounceInv m' where
  wf := hwf
  distinct := hdistinct
  task {k task} hk hpc := by
    have hstored : (m.heap ref).debounceTask ≠ some k := by
      intro hstored
      rw [hreset.gone hstored] at hk
      cases hk
    obtain ⟨ref', hwaiting⟩ := h.task ((hreset.kept hstored).symm.trans hk) hpc
    refine ⟨ref', hwaiting.of_undisturbed (hreset.undisturbed h.wf href hwaiting.lookup ?_)⟩
    intro heq
    have hlookup := hwaiting.lookup
    rw [heq, href] at hlookup
    cases hlookup
    exact hstored hwaiting.debounceTask
  window {j w} hw := by
    by_cases hj : j = i
    . subst hj
      exact hwindow_self hw
    . rw [hwindow_ne j hj] at hw
      obtain ⟨call', hcall', htid⟩ := callAt_of_windowAt hw
      have hopened := h.window hw
      have hne : w.telegramId ≠ call.user.telegramId :=
        htid ▸ h.distinct.callAt hcall' hcall hj
      refine hopened.of_undisturbed (hreset.undisturbed h.wf href hopened.lookup hne) ?_
      exact fun hlive => hopened.notLive (hreset.live hlive).1
  storeTask {j call' ref' newState' oldState' debounceS'} hcall' hpc' := by
    have hcall' := hstoreTask hcall' hpc'
    have hj : j ≠ i := by
      rintro rfl
      cases hcall.symm.trans hcall'
      cases hlock.symm.trans hpc'
    exact (h.storeTask hcall' hpc').of_undisturbed
      (hreset.undisturbed h.wf href (HasRead.lookup h hcall' hpc').1
        (h.distinct.callAt hcall' hcall hj))
  firstCheck {tid' ref'} href' hfirst' := by
    rw [hreset.userStates] at href'
    by_cases hne : ref' = ref
    . rw [hne, hreset.firstCheck] at hfirst'
      cases hfirst.symm.trans hfirst'
    . rw [hreset.heap_ne hne] at hfirst' ⊢
      exact h.firstCheck href' hfirst'
  safe := by
    rw [hreset.log]
    exact h.safe.cons nofun

theorem debounceInv_observation {m m' : Monitor} {i : Nat} {call : Call} {isAvailable : Bool}
    {ref : Ref} {newState : PowerState} (h : DebounceInv m) (hcall : m.callAt i = some call)
    (hlock : call.pc = .lock isAvailable)
    (href : m.userStates.lookup call.user.telegramId = some ref) (hdistinct : Distinct m')
    (hobservation : Observation m m' i call ref newState) : DebounceInv m' := by
  have hwf := wf_observation h.wf href hobservation
  cases hobservation with
  | kept pending frame =>
    have hpending {state : PowerState} (hstate : (m.heap ref).pendingState = some state)
        : state = newState := by
      rcases pending with hnone | hsome | hfirst
      . cases hnone.symm.trans hstate
      . exact Option.some.inj (hstate.symm.trans hsome)
      . cases (h.firstCheck href hfirst).symm.trans hstate
    have hnot {tid : TelegramId} {ref' : Ref} {state : PowerState}
        (href' : m.userStates.lookup tid = some ref')
        (hstate : (m.heap ref').pendingState = some state)
        : ∀ entry ∈ [LogEntry.observed call.id call.user.telegramId newState m.now false],
            ¬ entry.contrary tid state := by
      intro entry hentry
      rw [List.mem_singleton.mp hentry]
      rintro ⟨rfl, hne⟩
      cases href.symm.trans href'
      exact hne (hpending hstate).symm
    have hkept := frame.toKept.of_record
    have hlog : m'.log = [.observed call.id call.user.telegramId newState m.now false] ++ m.log :=
      frame.log
    refine h.of_kept _ hkept hdistinct hlog ?_ ?_ ?_ ?_
    . exact fun hwaiting => hnot hwaiting.lookup hwaiting.pendingState
    . exact fun hopened => hnot hopened.lookup hopened.pendingState
    . intro j call' ref' newState' oldState' debounceS' hcall' hpc'
      have hcall' : m.callAt j = some call' := frame.storeTask hcall' hpc'
      obtain ⟨hlookup, hstate⟩ := HasRead.lookup h hcall' hpc'
      exact (h.storeTask hcall' hpc').of_undisturbed
        (hkept.undisturbed _ hlog (hnot hlookup hstate))
    . rw [frame.log]
      exact h.safe.cons nofun
  | flapping firstCheck reset windowAt _ storeTask =>
    refine h.of_reset hcall hlock href firstCheck reset hwf hdistinct ?_ (fun j _ => windowAt j)
      storeTask
    intro w hw
    rw [windowAt, windowAt_of_lock hcall hlock] at hw
    cases hw
  | newPending firstCheck reset windowAt_self windowAt_ne _ storeTask =>
    refine h.of_reset hcall hlock href firstCheck reset hwf hdistinct ?_ windowAt_ne storeTask
    intro w hw
    obtain rfl := Option.some.inj (windowAt_self.symm.trans hw)
    exact {
      lookup := by rw [reset.userStates]; exact href
      pendingState := reset.pendingState
      notLive := fun hlive => (reset.live hlive).2 rfl
      observed := ⟨m.now, [], reset.originalChangeTime, Int.le_of_eq reset.now.symm,
        ⟨m.log, reset.log⟩, List.forall_mem_nil _⟩ }

/-! ## The way to the debounce task -/

theorem debounceInv_debounceRead {m m' : Monitor} {i : Nat} {call : Call} {debounceS : Int}
    (h : DebounceInv m) (hdistinct : Distinct m')
    (hread : DebounceRead m m' i call debounceS) : DebounceInv m' := by
  have hnot (tid : TelegramId) (state : PowerState)
      : ∀ entry ∈ [LogEntry.debounceRead call.id debounceS], ¬ entry.contrary tid state := by
    intro entry hentry
    rw [List.mem_singleton.mp hentry]
    exact id
  have hlog : m'.log = [.debounceRead call.id debounceS] ++ m.log := hread.log
  refine h.of_kept _ hread.kept hdistinct hlog (fun _ => hnot _ _) (fun _ => hnot _ _) ?_ ?_
  . intro j call' ref newState oldState d hcall' hpc'
    cases hread.storeTask hcall' hpc' with
    | inl hcall =>
      exact (h.storeTask hcall hpc').of_undisturbed (hread.kept.undisturbed _ hlog (hnot _ _))
    | inr hself =>
      obtain ⟨rfl, rfl⟩ := hself
      have hw := windowAt_of_storeTask hcall' hpc'
      rw [hread.kept.windowAt] at hw
      obtain ⟨w, hw', hid⟩ := hread.window
      obtain rfl := Option.some.inj (hw'.symm.trans hw)
      obtain ⟨t₀, newer, horig, hnow, hobserved⟩ := (h.window hw).observed
      refine ⟨t₀, .debounceRead call.id d :: newer, ?_, Int.le_trans hnow hread.kept.now, ?_, ?_⟩
      . rw [hread.kept.originalChangeTime, horig]
      . rw [hlog]
        exact hobserved.append (hnot _ _)
      . rw [← hid]
        exact List.mem_cons_self
  . rw [hread.log]
    exact h.safe.cons nofun

theorem TaskStored.undisturbed {m m' : Monitor} {i : Nat} {call : Call} {ref ref' : Ref}
    {newState state : PowerState} {oldState : Option PowerState} {debounceS : Int}
    {tid : TelegramId} (h : TaskStored m m' i call ref newState oldState debounceS)
    (hne : ref' ≠ ref) : Undisturbed m m' tid ref' state where
  lookup hlookup := by rwa [h.rest]
  pendingPart := by rw [h.heap_ne hne]
  log := ⟨[], by rw [h.rest]; rfl, List.forall_mem_nil _⟩
  now := by rw [h.rest]

theorem debounceInv_taskStored {m m' : Monitor} {i : Nat} {call : Call} {ref : Ref}
    {newState : PowerState} {oldState : Option PowerState} {debounceS : Int} (h : DebounceInv m)
    (hdistinct : Distinct m') (hcall : m.callAt i = some call)
    (hpc : call.pc = .storeTask ref newState oldState debounceS)
    (hstored : TaskStored m m' i call ref newState oldState debounceS) : DebounceInv m' := by
  have hopened := h.window (windowAt_of_storeTask hcall hpc)
  have hlog : m'.log = m.log := by rw [hstored.rest]
  have hnow : m'.now = m.now := by rw [hstored.rest]
  have hother {j : Nat} {call' : Call} (hj : j ≠ i) (hcall' : m.callAt j = some call') {ref' : Ref}
      (href' : m.userStates.lookup call'.user.telegramId = some ref') : ref' ≠ ref := by
    rintro rfl
    exact h.distinct.callAt hcall' hcall hj
      ((h.wf.entry href').2.symm.trans (h.wf.entry hopened.lookup).2)
  constructor
  case wf => exact wf_taskStored h.wf hcall hpc hstored
  case distinct => exact hdistinct
  case task =>
    intro k task hk hpc'
    by_cases hnew : k = m.nextTask
    . subst hnew
      obtain rfl := Option.some.inj (hstored.tasks_self.symm.trans hk)
      refine ⟨ref, ?_, ?_, ?_, ?_⟩
      . rw [hstored.rest]
        exact hopened.lookup
      . rw [hstored.heap_self]
      . rw [hstored.heap_self]
        exact hopened.pendingState
      . intro _ _ _ _ _ hkind
        cases hkind
        obtain ⟨t₀, newer, horig, hle, hobserved, hread⟩ := h.storeTask hcall hpc
        refine ⟨t₀, debounceS, newer, hlog ▸ hobserved, hread, ?_, ?_⟩
        . exact Int.add_le_add_right hle _
        . rw [hstored.heap_self]
          exact horig
    . rw [hstored.tasks_ne hnew] at hk
      obtain ⟨ref', hwaiting⟩ := h.task hk hpc'
      refine ⟨ref', hwaiting.of_undisturbed (hstored.undisturbed ?_)⟩
      rintro rfl
      exact hopened.notLive ⟨k, hwaiting.debounceTask, by rw [hk]; exact Option.some_ne_none _⟩
  case window =>
    intro j w hw
    have hj : j ≠ i := by
      rintro rfl
      cases hstored.windowAt_self.symm.trans hw
    rw [hstored.windowAt_ne hj] at hw
    obtain ⟨call', hcall', htid⟩ := callAt_of_windowAt hw
    have hopened' := h.window hw
    have hne := hother hj hcall' (htid ▸ hopened'.lookup)
    refine hopened'.of_undisturbed (hstored.undisturbed hne) ?_
    rintro ⟨k, hk, hlive⟩
    rw [hstored.heap_ne hne] at hk
    rw [hstored.tasks_ne (Nat.ne_of_lt (h.wf.debounceTask hk))] at hlive
    exact hopened'.notLive ⟨k, hk, hlive⟩
  case storeTask =>
    intro j call' ref' newState' oldState' debounceS' hcall' hpc'
    have hj : j ≠ i := by
      rintro rfl
      cases hstored.windowAt_self.symm.trans (windowAt_of_storeTask hcall' hpc')
    have hcall' := hstored.storeTask hcall' hpc'
    have hne := hother hj hcall' (HasRead.lookup h hcall' hpc').1
    exact (h.storeTask hcall' hpc').of_undisturbed (hstored.undisturbed hne)
  case firstCheck =>
    intro tid ref' href hfirst
    rw [hstored.rest] at href
    by_cases hne : ref' = ref
    . subst hne
      rw [hstored.heap_self] at hfirst ⊢
      exact h.firstCheck href hfirst
    . rw [hstored.heap_ne hne] at hfirst ⊢
      exact h.firstCheck href hfirst
  case safe => exact hlog ▸ h.safe

/-! ## Waking up and confirming -/

theorem debounceInv_woken {m : Monitor} {k : TaskId} {task : Task} {wakeAt : Time}
    (h : DebounceInv m) (hk : m.tasks k = some task) (hpc : task.pc = .sleeping wakeAt)
    (hwake : wakeAt ≤ m.now) (hdistinct : Distinct (m.setTask k (some { task with pc := .lock })))
    : DebounceInv (m.setTask k (some { task with pc := .lock })) := by
  have hlive {ref : Ref} (hlive : Live (m.setTask k (some { task with pc := .lock })) ref)
      : Live m ref := by
    obtain ⟨k', hk', hlive⟩ := hlive
    refine ⟨k', hk', ?_⟩
    by_cases hne : k' = k
    . rw [hne, hk]
      nofun
    . simpa [setTask, hne] using hlive
  constructor
  case wf => exact wf_woken h.wf hk hpc
  case distinct => exact hdistinct
  case task =>
    intro k' task' hk' hpc'
    by_cases hne : k' = k
    . subst hne
      obtain rfl : { task with pc := .lock } = task' := by simpa [setTask] using hk'
      obtain ⟨ref, hwaiting⟩ := h.task hk (by rw [hpc]; rfl)
      refine ⟨ref, { hwaiting with justified := ?_ }⟩
      intro call tid ref' newState oldState hkind
      obtain ⟨t₀, debounceS, newer, hobserved, hread, hdue, horig⟩ := hwaiting.justified hkind
      rw [hpc] at hdue
      exact ⟨t₀, debounceS, newer, hobserved, hread, Int.le_trans hdue hwake, horig⟩
    . have hk' : m.tasks k' = some task' := by simpa [setTask, hne] using hk'
      obtain ⟨ref, hwaiting⟩ := h.task hk' hpc'
      exact ⟨ref, { hwaiting with }⟩
  case window =>
    intro i w hw
    have hopened := h.window (i := i) hw
    exact { hopened with notLive := fun h => hopened.notLive (hlive h) }
  case storeTask => exact h.storeTask
  case firstCheck => exact h.firstCheck
  case safe => exact h.safe

theorem Confirmed.undisturbed {m m' : Monitor} {k : TaskId} {kind : TaskKind} {ref ref' : Ref}
    {tid : TelegramId} {state : PowerState} {entry : LogEntry} (h : Confirmed m m' k kind ref)
    (hlog : m'.log = entry :: m.log) (hentry : ¬ entry.contrary tid state) (hne : ref' ≠ ref)
    : Undisturbed m m' tid ref' state where
  lookup hlookup := by rwa [h.userStates]
  pendingPart := by rw [h.heap_ne hne]
  log := ⟨[entry], hlog, fun _ hmem => List.mem_singleton.mp hmem ▸ hentry⟩
  now := Int.le_of_eq h.now.symm

theorem Confirmed.live {m m' : Monitor} {k : TaskId} {kind : TaskKind} {ref ref' : Ref}
    (h : Confirmed m m' k kind ref) (hk : m.tasks k ≠ none) (hlive : Live m' ref')
    : Live m ref' := by
  obtain ⟨k', hk', hlive⟩ := hlive
  have hne : ref' ≠ ref := by
    rintro rfl
    rw [h.debounceTask] at hk'
    cases hk'
  rw [h.heap_ne hne] at hk'
  refine ⟨k', hk', ?_⟩
  by_cases hkk : k' = k
  . exact hkk ▸ hk
  . rwa [← h.tasks_ne hkk]

theorem callAt_of_groups {m m' : Monitor} (h : m'.groups = m.groups) (i : Nat)
    : m'.callAt i = m.callAt i := by
  rw [callAt, callAt, h]

theorem DebounceInv.of_confirmed {m m' : Monitor} {k : TaskId} {task : Task} {ref : Ref}
    {entry : LogEntry} (h : DebounceInv m) (hwf : Wf m') (hdistinct : Distinct m')
    (hk : m.tasks k = some task) (hstored : (m.heap ref).debounceTask = some k)
    (hconfirmed : Confirmed m m' k task.kind ref) (hlog : m'.log = entry :: m.log)
    (hentry : ∀ tid state, ¬ entry.contrary tid state) (hsafe : DebounceSafe m'.log)
    : DebounceInv m' := by
  have hlive : m.tasks k ≠ none := by
    rw [hk]
    nofun
  have hwindow {w : Window} (hopened : Opened m w) : w.ref ≠ ref := by
    rintro heq
    exact hopened.notLive ⟨k, heq ▸ hstored, hlive⟩
  constructor
  case wf => exact hwf
  case distinct => exact hdistinct
  case task =>
    intro k' task' hk' hpc'
    have hkk : k' ≠ k := by
      rintro rfl
      obtain ⟨pc, hpc, hunconfirmed, _⟩ := hconfirmed.task
      cases hpc.symm.trans hk'
      cases hunconfirmed.symm.trans hpc'
    rw [hconfirmed.tasks_ne hkk] at hk'
    obtain ⟨ref', hwaiting⟩ := h.task hk' hpc'
    refine ⟨ref', hwaiting.of_undisturbed (hconfirmed.undisturbed hlog (hentry _ _) ?_)⟩
    rintro rfl
    exact hkk (Option.some.inj (hwaiting.debounceTask.symm.trans hstored))
  case window =>
    intro i w hw
    rw [hconfirmed.windowAt] at hw
    have hopened := h.window hw
    refine hopened.of_undisturbed (hconfirmed.undisturbed hlog (hentry _ _) (hwindow hopened)) ?_
    exact fun hlive' => hopened.notLive (hconfirmed.live hlive hlive')
  case storeTask =>
    intro i call ref' newState oldState debounceS hcall hpc
    rw [callAt_of_groups hconfirmed.groups] at hcall
    have hopened := h.window (windowAt_of_storeTask hcall hpc)
    exact (h.storeTask hcall hpc).of_undisturbed
      (hconfirmed.undisturbed hlog (hentry _ _) (hwindow hopened))
  case firstCheck =>
    intro tid ref' href hfirst
    rw [hconfirmed.userStates] at href
    by_cases hne : ref' = ref
    . rw [hne, hconfirmed.pendingState]
    . rw [hconfirmed.heap_ne hne] at hfirst ⊢
      exact h.firstCheck href hfirst
  case safe => exact hsafe

theorem DebounceInv.of_dropped {m : Monitor} {k : TaskId} (h : DebounceInv m)
    (hdistinct : Distinct (m.setTask k none)) : DebounceInv (m.setTask k none) := by
  have htask {k' : TaskId} {task : Task} (hk' : (m.setTask k none).tasks k' = some task)
      : m.tasks k' = some task := by
    by_cases hne : k' = k
    . subst hne
      simp [setTask] at hk'
    . simpa [setTask, hne] using hk'
  constructor
  case wf => exact h.wf.of_dropped
  case distinct => exact hdistinct
  case task =>
    intro k' task hk' hpc
    obtain ⟨ref, hwaiting⟩ := h.task (htask hk') hpc
    exact ⟨ref, { hwaiting with }⟩
  case window =>
    intro i w hw
    have hopened := h.window (i := i) hw
    refine { hopened with notLive := ?_ }
    rintro ⟨k', hk', hlive⟩
    obtain ⟨task, htask'⟩ := Option.ne_none_iff_exists'.mp hlive
    exact hopened.notLive ⟨k', hk', by rw [htask htask']; exact Option.some_ne_none _⟩
  case storeTask => exact h.storeTask
  case firstCheck => exact h.firstCheck
  case safe => exact h.safe

theorem debounceInv_confirmation {m m' : Monitor} {k : TaskId} {task : Task} (h : DebounceInv m)
    (hk : m.tasks k = some task) (hpc : task.pc = .lock) (hdistinct : Distinct m')
    (hconfirmation : Confirmation m m' k task.kind) : DebounceInv m' := by
  have hwf := wf_confirmation h.wf hk hpc hconfirmation
  obtain ⟨ref, hwaiting⟩ := h.task hk (by rw [hpc]; rfl)
  cases hconfirmation with
  | state hkind confirmed log =>
    obtain rfl := (h.wf.stored hwaiting.debounceTask hk).target hkind
    refine h.of_confirmed hwf hdistinct hk hwaiting.debounceTask confirmed log (fun _ _ => id) ?_
    rw [log]
    apply h.safe.cons
    intro _ _ _ _ _ heq
    cases heq
    have hjustified := hwaiting.justified hkind
    rwa [hpc] at hjustified
  | restored hkind lookup _ confirmed log =>
    have hlookup := hwaiting.lookup
    rw [hkind, TaskKind.telegramId, lookup] at hlookup
    cases hlookup
    refine h.of_confirmed hwf hdistinct hk hwaiting.debounceTask confirmed log (fun _ _ => id) ?_
    rw [log]
    exact h.safe.cons nofun
  | dropped _ _ eq =>
    subst eq
    exact h.of_dropped hdistinct

/-! ## Eviction, cancellation and restart -/

theorem windowAt_of_callAt {m : Monitor} {i : Nat} (h : m.callAt i = none) : m.windowAt i = none := by
  rw [windowAt, h]
  rfl

theorem DebounceInv.setGroups {m : Monitor} (h : DebounceInv m) (cycle : CyclePc)
    (groups : List Group)
    (hcallAt : ∀ i, ({ m with cycle := cycle, groups := groups } : Monitor).callAt i = none)
    (hwf : Wf { m with cycle := cycle, groups := groups })
    (hdistinct : Distinct { m with cycle := cycle, groups := groups })
    : DebounceInv { m with cycle := cycle, groups := groups } where
  wf := hwf
  distinct := hdistinct
  task hk hpc := by
    obtain ⟨ref, hwaiting⟩ := h.task hk hpc
    exact ⟨ref, { hwaiting with }⟩
  window hw := by
    rw [windowAt_of_callAt (hcallAt _)] at hw
    cases hw
  storeTask hcall _ := by
    rw [hcallAt] at hcall
    cases hcall
  firstCheck := h.firstCheck
  safe := h.safe

theorem DebounceInv.of_evicted {m m' : Monitor} {tids : List TelegramId} (h : DebounceInv m)
    (hevicted : Evicted m m' tids) (hgroups : m.groups = []) : DebounceInv m' := by
  have hheap : m'.heap = m.heap := by rw [hevicted.rest]
  have hlog : m'.log = m.log := by rw [hevicted.rest]
  have hnow : m'.now = m.now := by rw [hevicted.rest]
  have hcallAt (i : Nat) : m'.callAt i = none :=
    callAt_of_groups_nil (by rw [hevicted.rest]; exact hgroups) i
  constructor
  case wf => exact h.wf.of_evicted hevicted
  case distinct =>
    rw [hevicted.rest]
    exact h.distinct.of_eq rfl rfl
  case task =>
    intro k task hk hpc
    have hlive : m'.tasks k ≠ none := by
      rw [hk]
      nofun
    rw [hevicted.kept hlive] at hk
    obtain ⟨ref, hwaiting⟩ := h.task hk hpc
    refine ⟨ref, hwaiting.of_undisturbed ?_⟩
    refine ⟨?_, by rw [hheap], ⟨[], hlog, List.forall_mem_nil _⟩, Int.le_of_eq hnow.symm⟩
    intro hlookup
    rw [hevicted.lookup, if_neg, hlookup]
    intro htid
    exact hlive (hevicted.gone htid hwaiting.lookup hwaiting.debounceTask)
  case window =>
    intro i w hw
    rw [windowAt_of_callAt (hcallAt i)] at hw
    cases hw
  case storeTask =>
    intro i call ref newState oldState debounceS hcall _
    rw [hcallAt] at hcall
    cases hcall
  case firstCheck =>
    intro tid ref href hfirst
    rw [hevicted.lookup] at href
    split at href
    . cases href
    . rw [hheap] at hfirst ⊢
      exact h.firstCheck href hfirst
  case safe => exact hlog ▸ h.safe

theorem debounceInv_restart {m m' : Monitor} (hwf : Wf m) (hsafe : DebounceSafe m.log)
    (hdistinct : Distinct m') (h : Restart m m') : DebounceInv m' := by
  have hcallAt (i : Nat) : m'.callAt i = none := callAt_of_groups_nil (by rw [h.rest]) i
  constructor
  case wf => exact hwf.of_restart h
  case distinct => exact hdistinct
  case task =>
    intro k task hk _
    obtain ⟨_, _, tid, ref, href, hstored, newState, oldState, origDt, wakeAt, hpending, rfl⟩ :=
      h.tasks hk
    exact ⟨ref, href, hstored, hpending, nofun⟩
  case window =>
    intro i w hw
    rw [windowAt_of_callAt (hcallAt i)] at hw
    cases hw
  case storeTask =>
    intro i call ref newState oldState debounceS hcall _
    rw [hcallAt] at hcall
    cases hcall
  case firstCheck =>
    intro tid ref href hfirst
    obtain ⟨_, _, row, _, hheap⟩ := h.entry href
    rw [hheap] at hfirst
    cases hfirst
  case safe =>
    rw [h.rest]
    exact hsafe

/-! ## Runs -/

theorem debounceInv_step {cfg : Settings} {m m' : Monitor} {e : Event} (h : DebounceInv m)
    (hloads : LoadsNoUserTwice m e) (hstep : m.step cfg e = some m') : DebounceInv m' := by
  have hwf := wf_step h.wf hstep
  have hdistinct := distinct_step h.distinct h.wf hloads hstep
  by_cases hquiet : e.quiet = true
  . exact h.of_frame (step_frame hquiet hstep) hdistinct
  cases e with
  | inactiveEvicted =>
    obtain ⟨users, hcycle, rfl⟩ := stepCycle_inactiveEvicted hstep
    have hgroups := groups_of_evictInactive h.wf.idle hcycle
    have hgroups' : (m.evictInactive users).groups = [] := groups_evict hgroups
    exact (h.of_evicted (evicted_evict m _) hgroups).setGroups _ _ (callAt_of_groups_nil hgroups')
      hwf hdistinct
  | staleEvicted =>
    obtain ⟨users, hcycle, rfl⟩ := stepCycle_staleEvicted hstep
    have hgroups := groups_of_evictStale h.wf.idle hcycle
    exact (h.of_evicted (evicted_evict m _) hgroups).setGroups _ _ (callAt_of_ipGroups rfl)
      hwf hdistinct
  | observed i =>
    obtain ⟨call, isAvailable, m₁, ref, hcall, hlock, hentered, hobservation⟩ := step_observed hstep
    rw [← callAt_of_groups hentered.groups] at hcall
    exact debounceInv_observation (h.of_entered hentered) hcall hlock hentered.lookup hdistinct
      hobservation
  | debounceRead i val =>
    obtain ⟨call, _, hread⟩ := step_debounceRead hstep
    exact debounceInv_debounceRead h hdistinct hread
  | taskStored i =>
    obtain ⟨call, ref, newState, oldState, debounceS, hcall, hpc, hstored⟩ := step_taskStored hstep
    exact debounceInv_taskStored h hdistinct hcall hpc hstored
  | cycleCancelled =>
    obtain ⟨_, rfl⟩ := stepCycle_cycleCancelled hstep
    exact h.setGroups _ _ (callAt_of_groups_nil rfl) hwf hdistinct
  | woken k =>
    obtain ⟨task, wakeAt, hk, hpc, hwake, rfl⟩ := step_woken hstep
    exact debounceInv_woken h hk hpc hwake hdistinct
  | confirmed k =>
    obtain ⟨task, hk, hpc, rfl⟩ := step_confirmed hstep
    exact debounceInv_confirmation h hk hpc hdistinct (confirmation_confirm m k task.kind)
  | restarted val =>
    cases hstep
    exact debounceInv_restart h.wf h.safe hdistinct (restart_restarted m val)
  | _ => exact absurd rfl hquiet

theorem debounceInv_initial (now : Time) (rows : AList (fun _ : TelegramId => UserPowerStateRow))
    (tracking : TelegramId → Option PowerTracking) (val : Option (Option Int))
    : DebounceInv (initial now rows tracking val) := by
  have hrestart := restart_restarted
    { now := now, userPowerStates := rows, powerTracking := tracking } val
  refine debounceInv_restart (wf_empty now rows tracking) ?_ (distinct_restart hrestart) hrestart
  intro newer older call tid state t origDt hlog
  cases newer <;> cases hlog

/--
Debounce safety: in a run whose cycles load no user twice, every state that a confirm task of
`_check_user_power` commits was observed and made pending by its call, at least the debounce ago that
the call read; nothing else was observed for the user since; and the handler gets the time of that
observation.
-/
theorem debounceSafe_of_loadsNoUserTwice {cfg : Settings} {now : Time}
    {rows : AList (fun _ : TelegramId => UserPowerStateRow)}
    {tracking : TelegramId → Option PowerTracking} {val : Option (Option Int)} {es : List Event}
    {m : Monitor}
    (hloads : Run.StepsMeet (step cfg) LoadsNoUserTwice (initial now rows tracking val) es)
    (hrun : Run.exec (step cfg) (initial now rows tracking val) es = some m)
    : DebounceSafe m.log :=
  (Run.invariant debounceInv_step (debounceInv_initial now rows tracking val) hloads hrun).safe

theorem debounceSafe_outageRun
    : ∃ m, Run.exec (step {}) (initial 0 (savedOn "777") (fun _ => none) none)
          (outageRun ++ [.confirmed 0]) = some m ∧
        DebounceSafe m.log := by
  have hrun : (Run.exec (step {}) (initial 0 (savedOn "777") (fun _ => none) none)
      (outageRun ++ [.confirmed 0])).isSome := by
    decide +kernel
  exact ⟨_, (Option.some_get hrun).symm,
    debounceSafe_of_loadsNoUserTwice (by decide +kernel) (Option.some_get hrun).symm⟩

def decimal (s : String) : Nat :=
  s.toList.foldl (fun n c => 10 * n + (c.toNat - '0'.toNat)) 0

def fullPage : List User :=
  { id := 1, telegramId := "777", routerIp := "192.168.1.1" } ::
    (List.range 499).map fun i => {
      id := i + 2, telegramId := Nat.repr (1000 + i), routerIp := "192.168.1.1" }

theorem isBatch_fullPage : IsBatch 0 fullPage := by
  refine ⟨by decide +kernel, ?_, ?_, ?_⟩
  . have hids : 0 :: fullPage.map (·.id) = List.range 501 := by decide +kernel
    rw [hids]
    exact List.pairwise_lt_range
  . have hids : (fullPage.map (·.telegramId)).map decimal = 777 :: (List.range 499).map (1000 + ·) := by
      decide +kernel
    apply List.Nodup.of_map decimal
    rw [hids, List.nodup_cons]
    refine ⟨?_, List.nodup_range.map fun _ _ => Nat.add_left_cancel⟩
    simp only [List.mem_map, List.mem_range, not_exists, not_and]
    omega
  . simp [fullPage]

/--
The user registers anew, with another address, while the second page is loaded. The first check makes
off pending, the second one takes it back before the task is stored.
-/
def repeatedRun : List Event := [
  .batchLoaded [{ id := 501, telegramId := "777", routerIp := "192.168.1.2" }],
  .inactiveEvicted,
  .staleEvicted,
  .pinged 0 (some false),
  .pinged 1 (some true),
  .callStarted 0,
  .observed 0,
  .callStarted 1,
  .observed 1,
  .sessionDone 0 true,
  .debounceRead 0 (some (some 1)),
  .taskStored 0,
  .tick 60000000,
  .woken 0,
  .confirmed 0]

theorem step_batchLoaded {cfg : Settings} {m : Monitor} {afterId : Nat} {users batch : List User}
    (hcycle : m.cycle = .loading afterId users) (hbatch : IsBatch afterId batch)
    : m.step cfg (.batchLoaded batch) = some { m with cycle := afterBatch afterId users batch } := by
  simp only [step, stepCycle, hcycle, if_pos hbatch]

/--
The confirm task commits off, although on has been observed since, and hands over no time.
-/
theorem not_debounceSafe_repeatedRun
    : ∃ m, Run.exec (step {}) (initial 0 (savedOn "777") (fun _ => none) none)
          (.cycleStarted :: .batchLoaded fullPage :: repeatedRun) = some m ∧
        ¬ DebounceSafe m.log := by
  generalize hm₀ : initial 0 (savedOn "777") (fun _ => none) none = m₀
  have hcycle : m₀.cycle = .idle := by
    rw [← hm₀, initial, (restart_restarted _ _).rest]
  have hstarted : step {} m₀ .cycleStarted = some { m₀ with cycle := .loading 0 [] } := by
    simp only [step, stepCycle, hcycle]
  have hloaded : step {} { m₀ with cycle := .loading 0 [] } (.batchLoaded fullPage) =
      some { m₀ with cycle := afterBatch 0 [] fullPage } :=
    step_batchLoaded rfl isBatch_fullPage
  have hlog : (Run.exec (step {}) { m₀ with cycle := afterBatch 0 [] fullPage } repeatedRun).map
      (·.log) = some [
        .confirmed 0 "777" .off 60000000 none,
        .debounceRead 0 60,
        .observed 1 "777" .on 0 false,
        .observed 0 "777" .off 0 true] := by
    rw [← hm₀]
    decide +kernel
  obtain ⟨m, hrun, hlog⟩ := Option.map_eq_some_iff.mp hlog
  refine ⟨m, ?_, ?_⟩
  . rw [Run.exec_cons_eq_some]
    refine ⟨_, hstarted, ?_⟩
    rw [Run.exec_cons_eq_some]
    exact ⟨_, hloaded, hrun⟩
  . intro hsafe
    rw [hlog] at hsafe
    obtain ⟨_, _, _, _, _, _, horig⟩ := hsafe [] _ 0 "777" .off 60000000 none rfl
    cases horig

end Monitor
end PowerMonitor
