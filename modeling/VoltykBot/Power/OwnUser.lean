import VoltykBot.Power.Recorded

/-!
This module contains what an invocation of `_check_user_power` leaves alone: the dict, the debounce task and the
row of every other user. So invocations for different users do not get in each other's way.
-/

namespace PowerMonitor
namespace Monitor

structure Elsewhere (tid : TelegramId) (m m' : Monitor) : Prop where
  lookup : ∀ {other}, other ≠ tid → m'.userStates.lookup other = m.userStates.lookup other
  heap : ∀ {other ref}, other ≠ tid → m.userStates.lookup other = some ref → m'.heap ref = m.heap ref
  tasks : ∀ {other ref k}, other ≠ tid → m.userStates.lookup other = some ref →
    (m.heap ref).debounceTask = some k → m'.tasks k = m.tasks k
  powerTracking : ∀ {other}, other ≠ tid → m'.powerTracking other = m.powerTracking other

section Elsewhere

variable {m m₁ m' : Monitor} {tid : TelegramId} {ref : Ref}

theorem Elsewhere.trans (h : Elsewhere tid m m₁) (h' : Elsewhere tid m₁ m') : Elsewhere tid m m' where
  lookup hne := (h'.lookup hne).trans (h.lookup hne)
  heap hne href := (h'.heap hne ((h.lookup hne).trans href)).trans (h.heap hne href)
  tasks hne href hk :=
    (h'.tasks hne ((h.lookup hne).trans href) (h.heap hne href ▸ hk)).trans (h.tasks hne href hk)
  powerTracking hne := (h'.powerTracking hne).trans (h.powerTracking hne)

theorem elsewhere_entered (hwf : Wf m) (h : Entered m m' tid ref) : Elsewhere tid m m' := by
  rcases h.cases with rfl | ⟨_, _, rfl⟩
  . exact ⟨fun _ => rfl, fun _ _ => rfl, fun _ _ _ => rfl, fun _ => rfl⟩
  . refine ⟨?_, ?_, fun _ _ _ => rfl, fun _ => rfl⟩
    . intro other hne
      exact lookup_createEntry_ne {} hne
    . intro other r hne hr
      exact heap_createEntry tid {} (hwf.entry hr).1

theorem Wf.ref_ne (hwf : Wf m) (howner : m.owner ref = tid) {other : TelegramId} {r : Ref} (hne : other ≠ tid)
    (hr : m.userStates.lookup other = some r) : r ≠ ref := by
  rintro rfl
  exact hne ((hwf.entry hr).2.symm.trans howner)

theorem elsewhere_judged (hwf : Wf m) (howner : m.owner ref = tid) (h : Judged m m' ref) : Elsewhere tid m m' := by
  refine ⟨fun _ => by rw [h.userStates], ?_, ?_, fun _ => by rw [h.powerTracking]⟩
  . intro other r hne hr
    exact h.heap r (hwf.ref_ne howner hne hr)
  . intro other r k hne hr hk
    rcases h.tasks k with hsame | ⟨hown, hnone⟩
    . exact hsame
    . -- a live task is stored in one dict only
      cases htask : m.tasks k with
      | none => exact hnone
      | some task =>
        have hother := (hwf.stored hk htask).owner
        rw [(hwf.entry hr).2, ← (hwf.stored hown htask).owner, howner] at hother
        exact absurd hother hne

theorem elsewhere_observe (hwf : Wf m) (call : Call) (isAvailable : Bool)
    : Elsewhere call.user.telegramId m (m.observe call isAvailable).1 := by
  have hentered := entered_getUserState m call.user.telegramId
  have hwf₁ := hwf.of_entered hentered
  have howner := (hwf₁.entry hentered.lookup).2
  exact (elsewhere_entered hwf hentered).trans (elsewhere_judged hwf₁ howner (judged_observe m call isAvailable))

theorem elsewhere_editTracking (m : Monitor) (tid : TelegramId) (f : PowerTracking → PowerTracking)
    : Elsewhere tid m (m.editTracking tid f) := by
  refine ⟨fun _ => rfl, fun _ _ => rfl, fun _ _ _ => rfl, ?_⟩
  intro other hne
  exact Function.update_of_ne hne _ _

theorem elsewhere_sessionDone {call : Call} {ok : Bool} {pc : Option CallPc}
    (h : m.sessionDone call ok = some (m', pc)) : Elsewhere call.user.telegramId m m' := by
  have hsame : Elsewhere call.user.telegramId m m := ⟨fun _ => rfl, fun _ _ => rfl, fun _ _ _ => rfl, fun _ => rfl⟩
  unfold sessionDone at h
  cases ok with
  | false =>
    split at h
    all_goals cases h
    all_goals exact hsame
  | true =>
    split at h
    all_goals cases h
    all_goals exact elsewhere_editTracking m call.user.telegramId _

theorem elsewhere_createDebounceTask (hwf : Wf m) (howner : m.owner ref = tid) (task : Task)
    : Elsewhere tid m (m.createDebounceTask ref task) := by
  refine ⟨fun _ => rfl, ?_, ?_, fun _ => rfl⟩
  . intro other r hne hr
    simp [createDebounceTask, modify, setTask, hwf.ref_ne howner hne hr]
  . intro other r k hne hr hk
    have hlt : k < m.nextTask := hwf.debounceTask hk
    simp [createDebounceTask, modify, setTask, Nat.ne_of_lt hlt]

theorem Elsewhere.setGroups (h : Elsewhere tid m m') (groups : List Group)
    : Elsewhere tid m { m' with groups := groups } :=
  ⟨h.lookup, h.heap, h.tasks, h.powerTracking⟩

end Elsewhere

def Event.isCheck (i : Nat) (e : Event) : Bool :=
  match e with
  | .observed j => i = j
  | .sessionDone j _ => i = j
  | .debounceRead j _ => i = j
  | .taskStored j => i = j
  | _ => false

theorem elsewhere_check {cfg : Settings} {m m' : Monitor} {e : Event} {i : Nat} (hwf : Wf m)
    (hcheck : Event.isCheck i e = true) (hstep : m.step cfg e = some m')
    : ∃ call, m.callAt i = some call ∧ Elsewhere call.user.telegramId m m' := by
  cases e with
  | observed j =>
    obtain rfl : i = j := of_decide_eq_true hcheck
    rcases stepCall_eq_some hstep with ⟨g, call, m₁, pc, hg, hcall, hf, rfl⟩
    refine ⟨call, callAt_eq_some hg hcall, Elsewhere.setGroups ?_ _⟩
    unfold observeCall at hf
    split at hf
    . next isAvailable hpc =>
      have hobserve := elsewhere_observe hwf call isAvailable
      rw [Option.some.inj hf] at hobserve
      exact hobserve
    . cases hf
  | sessionDone j ok =>
    obtain rfl : i = j := of_decide_eq_true hcheck
    change m.stepCall i (fun m call => m.sessionDone call ok) = some m' at hstep
    rcases stepCall_eq_some hstep with ⟨g, call, m₁, pc, hg, hcall, hf, rfl⟩
    exact ⟨call, callAt_eq_some hg hcall, (elsewhere_sessionDone hf).setGroups _⟩
  | debounceRead j val =>
    obtain rfl : i = j := of_decide_eq_true hcheck
    change m.stepCall i (fun m call => m.debounceRead cfg call val) = some m' at hstep
    rcases stepCall_eq_some hstep with ⟨g, call, m₁, pc, hg, hcall, hf, rfl⟩
    refine ⟨call, callAt_eq_some hg hcall, Elsewhere.setGroups ?_ _⟩
    unfold debounceRead at hf
    split at hf
    . cases hf
      exact ⟨fun _ => rfl, fun _ _ => rfl, fun _ _ _ => rfl, fun _ => rfl⟩
    . cases hf
  | taskStored j =>
    obtain rfl : i = j := of_decide_eq_true hcheck
    rcases step_taskStored hstep with ⟨call, ref, newState, oldState, debounceS, hcall, hpc, hstored⟩
    refine ⟨call, hcall, ?_⟩
    have howner : m.owner ref = call.user.telegramId := (hwf.window (windowAt_of_storeTask hcall hpc)).2
    rw [hstored.eq]
    exact (elsewhere_createDebounceTask hwf howner _).setGroups _
  | _ => cases hcheck

end Monitor
end PowerMonitor
