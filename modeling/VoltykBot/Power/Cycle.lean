import VoltykBot.Power.Pairing

/-!
This module contains who is checked at the same time: as long as the pages of a cycle do not repeat a
user, no two invocations of `_check_user_power` run for one user.
-/

namespace PowerMonitor

def CyclePc.loaded (cycle : CyclePc) : List User :=
  match cycle with
  | .loading _ users => users
  | .evictInactive users => users
  | .evictStale users => users
  | _ => []

def Event.batch (e : Event) : List User :=
  match e with
  | .batchLoaded batch => batch
  | _ => []

def Group.telegramIds (g : Group) : List TelegramId :=
  (g.call.map (·.user.telegramId)).toList ++ g.users.map (·.telegramId)

namespace Monitor

def checkedIds (m : Monitor) : List TelegramId :=
  m.groups.flatMap Group.telegramIds

structure Distinct (m : Monitor) : Prop where
  loaded : (m.cycle.loaded.map (·.telegramId)).Nodup
  checked : m.checkedIds.Nodup

/--
The pages of one cycle repeat no user: a user that registers anew between two of them is loaded twice.
-/
def LoadsNoUserTwice (m : Monitor) (e : Event) : Prop :=
  ∀ u ∈ e.batch, ∀ u' ∈ m.cycle.loaded, u.telegramId ≠ u'.telegramId

instance (m : Monitor) (e : Event) : Decidable (LoadsNoUserTwice m e) :=
  inferInstanceAs (Decidable (∀ u ∈ e.batch, ∀ u' ∈ m.cycle.loaded, u.telegramId ≠ u'.telegramId))

theorem Distinct.callAt {m : Monitor} (h : Distinct m) {i j : Nat} {call call' : Call}
    (hi : m.callAt i = some call) (hj : m.callAt j = some call') (hij : i ≠ j)
    : call.user.telegramId ≠ call'.user.telegramId := by
  obtain ⟨g, hg, hcall⟩ := Option.bind_eq_some_iff.mp hi
  obtain ⟨g', hg', hcall'⟩ := Option.bind_eq_some_iff.mp hj
  have hdisjoint := (List.nodup_flatMap.mp h.checked).2
  rw [List.pairwise_iff_getElem] at hdisjoint
  obtain ⟨hi, rfl⟩ := List.getElem?_eq_some_iff.mp hg
  obtain ⟨hj, rfl⟩ := List.getElem?_eq_some_iff.mp hg'
  have hmem : call.user.telegramId ∈ m.groups[i].telegramIds := by
    simp [Group.telegramIds, hcall]
  have hmem' : call'.user.telegramId ∈ m.groups[j].telegramIds := by
    simp [Group.telegramIds, hcall']
  intro heq
  cases Nat.lt_or_gt_of_ne hij with
  | inl hlt => exact hdisjoint i j hi hj hlt hmem (heq ▸ hmem')
  | inr hgt => exact hdisjoint j i hj hi hgt hmem' (heq ▸ hmem)

theorem sublist_flatMap_set {groups : List Group} {i : Nat} {g g' : Group}
    (hg : groups[i]? = some g) (hsub : g'.telegramIds.Sublist g.telegramIds)
    : ((groups.set i g').flatMap Group.telegramIds).Sublist (groups.flatMap Group.telegramIds) := by
  induction groups generalizing i with
  | nil => cases hg
  | cons g₀ groups ih =>
    cases i with
    | zero =>
      cases hg
      exact hsub.append (List.Sublist.refl _)
    | succ i => exact (List.Sublist.refl _).append (ih hg)

theorem perm_addToGroup (groups : List Group) (user : User) (h : ∀ g ∈ groups, g.call = none)
    : ((addToGroup groups user).flatMap Group.telegramIds).Perm
        (groups.flatMap Group.telegramIds ++ [user.telegramId]) := by
  induction groups with
  | nil => exact List.Perm.refl _
  | cons g groups ih =>
    rw [List.forall_mem_cons] at h
    unfold addToGroup
    split
    . simp only [List.flatMap_cons, Group.telegramIds, h.1, Option.map_none, Option.toList_none,
        List.nil_append, List.map_append, List.map_cons, List.map_nil, List.append_assoc]
      exact List.Perm.append_left _ List.perm_append_comm
    . simp only [List.flatMap_cons, List.append_assoc]
      exact List.Perm.append_left _ (ih h.2)

theorem perm_foldl_addToGroup (users : List User) (groups : List Group)
    (h : ∀ g ∈ groups, g.call = none)
    : ((users.foldl addToGroup groups).flatMap Group.telegramIds).Perm
        (groups.flatMap Group.telegramIds ++ users.map (·.telegramId)) := by
  induction users generalizing groups with
  | nil => simp
  | cons user users ih =>
    rw [List.foldl_cons, List.map_cons]
    refine (ih _ (call_of_mem_addToGroup h)).trans ?_
    refine ((perm_addToGroup groups user h).append_right _).trans ?_
    simp

theorem perm_ipGroups (users : List User)
    : ((ipGroups users).flatMap Group.telegramIds).Perm (users.map (·.telegramId)) :=
  perm_foldl_addToGroup users [] (List.forall_mem_nil _)

theorem Distinct.set {m m' : Monitor} {i : Nat} {g g' : Group} (h : Distinct m)
    (hg : m.groups[i]? = some g) (hgroups : m'.groups = m.groups.set i g')
    (hsub : g'.telegramIds.Sublist g.telegramIds) (hidle : Idle m') : Distinct m' := by
  constructor
  . have hcycle : m'.cycle = .checking := by
      by_contra hne
      have hlen := congrArg List.length (hidle hne)
      rw [hgroups, List.length_set] at hlen
      rw [List.eq_nil_of_length_eq_zero hlen] at hg
      cases hg
    rw [hcycle]
    exact List.nodup_nil
  . unfold checkedIds
    rw [hgroups]
    exact h.checked.sublist (sublist_flatMap_set hg hsub)

theorem distinct_stepCall {m m' : Monitor} {i : Nat}
    {f : Monitor → Call → Option (Monitor × Option CallPc)} (h : Distinct m)
    (hstep : m.stepCall i f = some m') (hidle : Idle m') : Distinct m' := by
  obtain ⟨g, call, m₁, pc, hg, hcall, _, hm'⟩ := stepCall_eq_some hstep
  refine h.set hg (congrArg Monitor.groups hm') ?_ hidle
  unfold Group.telegramIds
  rw [hcall]
  cases pc with
  | none => exact List.sublist_append_right _ _
  | some pc => exact List.Sublist.refl _

theorem Distinct.of_eq {m m' : Monitor} (h : Distinct m) (hcycle : m'.cycle = m.cycle)
    (hgroups : m'.groups = m.groups) : Distinct m' where
  loaded := hcycle ▸ h.loaded
  checked := by
    unfold checkedIds
    rw [hgroups]
    exact h.checked

theorem Distinct.of_idle {m : Monitor} {cycle : CyclePc} (h : cycle.loaded = [])
    : Distinct { m with cycle := cycle, groups := [] } where
  loaded := by
    dsimp only
    rw [h]
    exact List.nodup_nil
  checked := List.nodup_nil

theorem distinct_batchLoaded {m : Monitor} {afterId : Nat} {users batch : List User}
    (h : Distinct m) (hcycle : m.cycle = .loading afterId users) (hbatch : IsBatch afterId batch)
    (hloads : ∀ u ∈ batch, ∀ u' ∈ users, u.telegramId ≠ u'.telegramId)
    : Distinct { m with cycle := afterBatch afterId users batch } := by
  refine ⟨?_, h.checked⟩
  have hnodup : ((users ++ batch).map (·.telegramId)).Nodup := by
    rw [List.map_append, List.nodup_append]
    refine ⟨?_, hbatch.2.2.1, ?_⟩
    . have hloaded := h.loaded
      rwa [hcycle] at hloaded
    . intro tid htid tid' htid' heq
      obtain ⟨u', hu', rfl⟩ := List.mem_map.mp htid
      obtain ⟨u, hu, rfl⟩ := List.mem_map.mp htid'
      exact hloads u hu u' hu' heq.symm
  unfold afterBatch
  dsimp only
  split
  . split
    . exact List.nodup_nil
    . exact hnodup
  . exact hnodup

theorem distinct_confirmation {m m' : Monitor} {k : TaskId} {kind : TaskKind} (h : Distinct m)
    (hconfirmation : Confirmation m m' k kind) : Distinct m' := by
  cases hconfirmation with
  | state _ confirmed _ => exact h.of_eq confirmed.cycle confirmed.groups
  | restored _ _ _ confirmed _ => exact h.of_eq confirmed.cycle confirmed.groups
  | dropped _ _ eq =>
    subst eq
    exact h.of_eq rfl rfl

theorem distinct_startCall {m m' : Monitor} {i : Nat} (h : Distinct m)
    (hstep : m.startCall i = some m') (hidle : Idle m') : Distinct m' := by
  rcases startCall_eq_some hstep with ⟨g, u, users, hg, hcall, husers, ⟨_, rfl⟩ | rfl⟩
  . refine h.set hg rfl ?_ hidle
    simp [Group.telegramIds, hcall, husers]
  . refine h.set hg rfl ?_ hidle
    simp [Group.telegramIds, hcall, husers]

theorem distinct_restart {m m' : Monitor} (h : Restart m m') : Distinct m' := by
  have hrest := h.rest
  constructor
  all_goals
    rw [hrest]
    exact List.nodup_nil

theorem distinct_step {cfg : Settings} {m m' : Monitor} {e : Event} (h : Distinct m) (hwf : Wf m)
    (hloads : LoadsNoUserTwice m e) (hstep : m.step cfg e = some m') : Distinct m' := by
  have hidle : Idle m' := (wf_step hwf hstep).idle
  cases e with
  | tick elapsed =>
    cases hstep
    exact h.of_eq rfl rfl
  | cycleStarted =>
    obtain ⟨_, rfl⟩ := stepCycle_cycleStarted hstep
    exact ⟨List.nodup_nil, h.checked⟩
  | batchLoaded batch =>
    obtain ⟨afterId, users, hcycle, hbatch, rfl⟩ := stepCycle_batchLoaded hstep
    unfold LoadsNoUserTwice at hloads
    rw [hcycle] at hloads
    exact distinct_batchLoaded h hcycle hbatch hloads
  | loadFailed =>
    obtain ⟨_, _, _, rfl⟩ := stepCycle_loadFailed hstep
    exact ⟨List.nodup_nil, h.checked⟩
  | inactiveEvicted =>
    obtain ⟨users, hcycle, rfl⟩ := stepCycle_inactiveEvicted hstep
    have hloaded := h.loaded
    rw [hcycle] at hloaded
    refine ⟨hloaded, ?_⟩
    have hgroups : (m.evictInactive users).groups = [] :=
      groups_evict (groups_of_evictInactive hwf.idle hcycle)
    simp [checkedIds, hgroups]
  | staleEvicted =>
    obtain ⟨users, hcycle, rfl⟩ := stepCycle_staleEvicted hstep
    have hloaded := h.loaded
    rw [hcycle] at hloaded
    exact ⟨List.nodup_nil, (perm_ipGroups users).nodup_iff.mpr hloaded⟩
  | pinged i result =>
    rcases pinged_eq_some hstep with ⟨g, hg, _, rfl⟩
    exact h.set hg rfl (List.Sublist.refl _) hidle
  | pingRaised i =>
    rcases pingRaised_eq_some hstep with ⟨g, hg, _, rfl⟩
    refine h.set hg rfl ?_ hidle
    simp [Group.telegramIds]
  | callStarted i => exact distinct_startCall h hstep hidle
  | observed i => exact distinct_stepCall h hstep hidle
  | sessionDone i ok =>
    exact distinct_stepCall (f := fun m call => m.sessionDone call ok) h hstep hidle
  | debounceRead i val =>
    exact distinct_stepCall (f := fun m call => m.debounceRead cfg call val) h hstep hidle
  | taskStored i => exact distinct_stepCall h hstep hidle
  | cycleEnded =>
    obtain ⟨_, _, rfl⟩ := stepCycle_cycleEnded hstep
    exact .of_idle rfl
  | cycleCancelled =>
    obtain ⟨_, rfl⟩ := stepCycle_cycleCancelled hstep
    exact .of_idle rfl
  | woken k =>
    obtain ⟨_, _, _, _, _, rfl⟩ := step_woken hstep
    exact h.of_eq rfl rfl
  | confirmed k =>
    obtain ⟨task, _, _, rfl⟩ := step_confirmed hstep
    exact distinct_confirmation h (confirmation_confirm m k task.kind)
  | userReloaded k found =>
    rcases step_userReloaded hstep with ⟨_, _, _, _, _, _, _, _, _, rfl⟩
    exact h.of_eq rfl rfl
  | handler k e =>
    rcases step_handler hstep with ⟨_, _, _, _, m₁, _, _, _, hhandler, rfl⟩
    have heq := stepHandler_eq hhandler
    exact h.of_eq (by rw [heq]; rfl) (by rw [heq]; rfl)
  | handlerTimedOut k =>
    rcases step_handlerTimedOut hstep with ⟨_, _, _, _, _, _, rfl⟩
    exact h.of_eq rfl rfl
  | flushStarted | flushCommitted _ _ | flushCleared _ | flushAborted _ =>
    rcases step_inFlush rfl hstep with ⟨_, _, _, rfl⟩
    exact h.of_eq rfl rfl
  | restarted val =>
    cases hstep
    exact distinct_restart (restart_restarted m val)

end Monitor
end PowerMonitor
