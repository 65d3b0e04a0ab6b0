import VoltykBot.Power.CheckGroups
import VoltykBot.Power.Debounce

/-!
This module contains what a cycle of `_check_all_ips` comes to: it can always be finished, and its result is that
of a loop over the users as long as no user is loaded twice.
-/

namespace PowerMonitor
namespace CheckAllIps

section Progress

variable {S : Type} {checker : Checker S} {checks checks' : Checks S} {before after : List (Group S)} {g : Group S}

def Reaches (checker : Checker S) (checks checks' : Checks S) : Prop :=
  ∃ es, Run.exec (Checks.step checker) checks es = some checks'

theorem Reaches.refl (checks : Checks S) : Reaches checker checks checks := ⟨[], rfl⟩

theorem Reaches.head {e : CheckEvent} {checks₁ : Checks S} (hstep : checks.step checker e = some checks₁)
    (h : Reaches checker checks₁ checks') : Reaches checker checks checks' := by
  rcases h with ⟨es, hrun⟩
  exact ⟨e :: es, Run.exec_cons_eq_some.mpr ⟨checks₁, hstep, hrun⟩⟩

theorem Reaches.trans {checks₁ : Checks S} (h : Reaches checker checks checks₁)
    (h' : Reaches checker checks₁ checks') : Reaches checker checks checks' := by
  rcases h with ⟨es, hrun⟩
  rcases h' with ⟨es', hrun'⟩
  exact ⟨es ++ es', by rw [Run.exec_append, hrun]; exact hrun'⟩

theorem getElem?_middle (hgroups : checks.groups = before ++ g :: after)
    : checks.groups[before.length]? = some g := by
  rw [hgroups, List.getElem?_append_right (Nat.le_refl _), Nat.sub_self, List.getElem?_cons_zero]

theorem set_middle (hgroups : checks.groups = before ++ g :: after) (g' : Group S)
    : checks.groups.set before.length g' = before ++ g' :: after := by
  rw [hgroups, List.set_append_right _ _ (Nat.le_refl _), Nat.sub_self, List.set_cons_zero]

def Brings (checker : Checker S) (checks : Checks S) (before after : List (Group S)) (g' : Group S) : Prop :=
  ∃ checks', Reaches checker checks checks' ∧ checks'.groups = before ++ g' :: after

theorem Brings.of_step {e : CheckEvent} {checks₁ : Checks S} {g₁ g' : Group S}
    (hstep : checks.step checker e = some checks₁) (hgroups : checks₁.groups = before ++ g₁ :: after)
    (h : checks₁.groups = before ++ g₁ :: after → Brings checker checks₁ before after g')
    : Brings checker checks before after g' := by
  rcases h hgroups with ⟨checks', hreaches, hgroups'⟩
  exact ⟨checks', hreaches.head hstep, hgroups'⟩

theorem Brings.here (hgroups : checks.groups = before ++ g :: after) : Brings checker checks before after g :=
  ⟨checks, Reaches.refl checks, hgroups⟩

theorem step_resumed_over {user : User} {c : Coroutine S} (hgroups : checks.groups = before ++ g :: after)
    (hcall : g.call = some (user, .running c)) (hover : c.isOver = true)
    : checks.step checker (.resumed before.length)
        =
      some (checks.setGroup before.length { g with call := none }) := by
  change checks.resumed before.length = _
  unfold Checks.resumed
  rw [getElem?_middle hgroups]
  cases c with
  | step f rest => cases hover
  | returned => simp only [Option.bind_eq_bind, Option.bind_some, hcall]
  | raised => simp only [Option.bind_eq_bind, Option.bind_some, hcall]

variable (checker) in
theorem brings_callOver {user : User} {c : Coroutine S} (hgroups : checks.groups = before ++ g :: after)
    (hcall : g.call = some (user, .running c)) : Brings checker checks before after { g with call := none } := by
  induction c generalizing checks g with
  | step f rest ih =>
    let g₁ := { g with call := some (user, .running (rest (checks.states user.telegramId))) }
    have hstep : checks.step checker (.resumed before.length) = some {
        checks.setGroup before.length g₁
        with states := Function.update checks.states user.telegramId (f (checks.states user.telegramId)) } := by
      change checks.resumed before.length = _
      unfold Checks.resumed
      rw [getElem?_middle hgroups]
      simp only [Option.bind_eq_bind, Option.bind_some, hcall]
      rfl
    refine Brings.of_step hstep (set_middle hgroups _) ?_
    intro hgroups₁
    exact ih (checks.states user.telegramId) (g := g₁) hgroups₁ rfl
  | returned => exact Brings.of_step (step_resumed_over hgroups hcall rfl) (set_middle hgroups _) Brings.here
  | raised => exact Brings.of_step (step_resumed_over hgroups hcall rfl) (set_middle hgroups _) Brings.here

variable (checker) in
theorem brings_usersChecked {isAvailable : Bool} (hgroups : checks.groups = before ++ g :: after)
    (hpc : g.pc = .pinged (some isAvailable)) (hcall : g.call = none)
    : Brings checker checks before after { g with users := [] } := by
  rcases g with ⟨ip, users, pc, call⟩
  induction users generalizing checks with
  | nil => exact Brings.here hgroups
  | cons user users ih =>
    subst hpc hcall
    let g₁ : Group S := {
      ip := ip, users := users, pc := .pinged (some isAvailable)
      call := some (user, .running (checker.checkUserPower user isAvailable)) }
    have hstep : checks.step checker (.callStarted before.length) = some {
        checks.setGroup before.length g₁ with checked := checks.checked ++ [(user, some isAvailable)] } := by
      change checks.callStarted checker before.length = _
      unfold Checks.callStarted
      rw [getElem?_middle hgroups]
      rfl
    refine Brings.of_step hstep (set_middle hgroups _) ?_
    intro hgroups₁
    rcases brings_callOver checker hgroups₁ rfl with ⟨checks₂, hreaches, hgroups₂⟩
    rcases ih hgroups₂ rfl rfl with ⟨checks₃, hreaches', hgroups₃⟩
    exact ⟨checks₃, hreaches.trans hreaches', hgroups₃⟩

def Finishes (checker : Checker S) (checks : Checks S) (before after : List (Group S)) : Prop :=
  ∃ g', g'.isFinished = true ∧ Brings checker checks before after g'

theorem Finishes.of_step {e : CheckEvent} {checks₁ : Checks S} {g₁ : Group S}
    (hstep : checks.step checker e = some checks₁) (hgroups : checks₁.groups = before ++ g₁ :: after)
    (h : checks₁.groups = before ++ g₁ :: after → Finishes checker checks₁ before after)
    : Finishes checker checks before after := by
  rcases h hgroups with ⟨g', hfinished, hbrings⟩
  exact ⟨g', hfinished, .of_step hstep hgroups fun _ => hbrings⟩

theorem finishes_of_pinged {result : Option Bool} (hgroups : checks.groups = before ++ g :: after)
    (hg : GroupSound checker g) (hpc : g.pc = .pinged result) : Finishes checker checks before after := by
  cases result with
  | none => exact absurd hpc hg.not_unread
  | some isAvailable =>
    refine ⟨{ g with users := [], call := none }, by unfold Group.isFinished; rw [hpc], ?_⟩
    cases hcall : g.call with
    | none =>
      have hbrings := brings_usersChecked checker hgroups hpc hcall
      rw [hcall] at hbrings
      exact hbrings
    | some call =>
      rcases call with ⟨user, callPc⟩
      cases callPc with
      | pinging => exact absurd hcall (hg.running user)
      | running c =>
        rcases brings_callOver checker hgroups hcall with ⟨checks₁, hreaches, hgroups₁⟩
        rcases brings_usersChecked checker hgroups₁ hpc rfl with ⟨checks₂, hreaches', hgroups₂⟩
        exact ⟨checks₂, hreaches.trans hreaches', hgroups₂⟩

theorem finishes_of_pinging (hgroups : checks.groups = before ++ g :: after) (hg : GroupSound checker g)
    (hpc : g.pc = .pinging) : Finishes checker checks before after := by
  have hstep : checks.step checker (.pinged before.length) = some {
      checks.setGroup before.length { g with pc := .pinged (checkRouterHttp checker.reachable g.ip) } with
      pings := checks.pings ++ [g.ip] } := by
    change checks.pinged checker before.length = _
    unfold Checks.pinged
    rw [getElem?_middle hgroups]
    simp only [Option.bind_eq_bind, Option.bind_some, hpc]
  have hmoves : GroupMoves checker checks.states g _ _ _ _ := .pinged hpc
  exact .of_step hstep (set_middle hgroups _) fun hgroups₁ => finishes_of_pinged hgroups₁ (hg.moves hmoves) rfl

theorem finishes_of_waiting (hgroups : checks.groups = before ++ g :: after) (hg : GroupSound checker g)
    (hpc : g.pc = .waiting) (hslot : checks.groups.countP (·.pc.isPinging) < checker.maxConcurrentPings)
    : Finishes checker checks before after := by
  have hstep : checks.step checker (.acquired before.length)
      = some (checks.setGroup before.length { g with pc := .pinging }) := by
    change checks.acquired checker before.length = _
    unfold Checks.acquired
    rw [getElem?_middle hgroups]
    simp only [Option.bind_eq_bind, Option.bind_some, hpc]
    exact if_pos hslot
  have hmoves : GroupMoves checker checks.states g _ _ _ _ := .acquired hpc
  exact .of_step hstep (set_middle hgroups _) fun hgroups₁ => finishes_of_pinging hgroups₁ (hg.moves hmoves) rfl

theorem exists_finishes (hsound : ∀ g ∈ checks.groups, GroupSound checker g) (hmax : 0 < checker.maxConcurrentPings)
    (hnot : ¬ checks.Finished)
    : ∃ before g after, checks.groups = before ++ g :: after ∧ g.isFinished = false ∧
        Finishes checker checks before after := by
  by_cases hpinging : ∃ g ∈ checks.groups, g.pc = .pinging
  . obtain ⟨g, hg, hpc⟩ := hpinging
    rcases List.append_of_mem hg with ⟨before, after, hgroups⟩
    refine ⟨before, g, after, hgroups, ?_, finishes_of_pinging hgroups (hsound g hg) hpc⟩
    unfold Group.isFinished
    rw [hpc]
  . unfold Checks.Finished at hnot
    push Not at hnot
    rcases hnot with ⟨g, hg, hunfinished⟩
    rcases List.append_of_mem hg with ⟨before, after, hgroups⟩
    refine ⟨before, g, after, hgroups, Bool.eq_false_iff.mpr hunfinished, ?_⟩
    cases hpc : g.pc with
    | pinged result => exact finishes_of_pinged hgroups (hsound g hg) hpc
    | pinging => exact absurd ⟨g, hg, hpc⟩ hpinging
    | waiting =>
      apply finishes_of_waiting hgroups (hsound g hg) hpc
      have hnone : checks.groups.countP (·.pc.isPinging) = 0 := by
        rw [List.countP_eq_zero]
        intro other hother hisPinging
        unfold GroupPc.isPinging at hisPinging
        split at hisPinging
        . next hpc' => exact hpinging ⟨other, hother, hpc'⟩
        . cases hisPinging
      rw [hnone]
      exact hmax

theorem sound_reaches (h : Reaches checker checks checks') (hsound : ∀ g ∈ checks.groups, GroupSound checker g)
    : ∀ g ∈ checks'.groups, GroupSound checker g := by
  rcases h with ⟨es, hrun⟩
  refine Run.invariant' (I := fun checks => ∀ g ∈ checks.groups, GroupSound checker g) ?_ hsound hrun
  intro checks₁ checks₂ e hsound₁ hstep
  rcases moved_of_step hstep with ⟨before, after, g, g', pings, checked, hmoved⟩
  rw [hmoved.groups] at hsound₁
  rw [hmoved.eq]
  exact sound_moved (hsound₁ g (List.mem_append_right before List.mem_cons_self)) hmoved.moves hsound₁

theorem exists_finished (hsound : ∀ g ∈ checks.groups, GroupSound checker g) (hmax : 0 < checker.maxConcurrentPings)
    : ∃ es checks', Run.exec (Checks.step checker) checks es = some checks' ∧ checks'.Finished := by
  generalize hn : checks.groups.countP (fun g => !g.isFinished) = n
  induction n using Nat.strong_induction_on generalizing checks with
  | h n ih =>
    by_cases hfinished : checks.Finished
    . exact ⟨[], checks, rfl, hfinished⟩
    . obtain ⟨before, g, after, hgroups, hunfinished, g', hdone, checks₁, hreaches, hgroups₁⟩ :=
        exists_finishes hsound hmax hfinished
      have hless : checks₁.groups.countP (fun g => !g.isFinished) < n := by
        rw [← hn, hgroups, hgroups₁, List.countP_append, List.countP_append, List.countP_cons, List.countP_cons,
          hunfinished, hdone]
        simp
      rcases ih _ hless (sound_reaches hreaches hsound) rfl with ⟨es', checks', hrun', hfinished'⟩
      rcases hreaches with ⟨es, hrun⟩
      refine ⟨es ++ es', checks', ?_, hfinished'⟩
      rw [Run.exec_append, hrun]
      exact hrun'

end Progress

/--
`checks` is what a cycle that has loaded `load` may come to, with the evictions having left `states`.
-/
def CycleEnds {S : Type} (checker : Checker S) (load : Load) (states : TelegramId → S) (checks : Checks S) : Prop :=
  ∃ es, Run.exec (Checks.step checker) (startChecks load states) es = some checks ∧ checks.Finished

/--
The load misses nobody and reads nobody twice, each address is pinged once, each user is checked once with what
the ping of the user's own address found, and what becomes of the states is what a loop over the users makes of
them, in any order.
-/
structure EqualsLoop (table : Users) (es : List LoadEvent) (load : Load) : Prop where
  loadsOnce : (load.users.map User.id).Nodup
  missesNone : ∀ id, Run.Always Load.step (fun load => load.table.HasIp id) (startLoad table) es →
    id ∈ load.users.map User.id
  pings : ∀ {S : Type} {checker : Checker S} {states : TelegramId → S} {checks : Checks S},
    CycleEnds checker load states checks →
      checks.pings.Nodup ∧ ∀ ip, ip ∈ checks.pings ↔ ∃ user ∈ load.users, user.routerIp = ip
  checked : ∀ {S : Type} {checker : Checker S} {states : TelegramId → S} {checks : Checks S},
    CycleEnds checker load states checks →
      checks.checked.Perm (load.users.map (reading checker)) ∧ ∀ call ∈ checks.checked, call.2 ≠ none
  states : ∀ {S : Type} {checker : Checker S} {states : TelegramId → S} {checks : Checks S},
    CycleEnds checker load states checks → ∀ order : List User, order.Perm load.users →
      checks.states = perUserLoop checker order states

section EqualsLoop

variable {table : Users} {es : List LoadEvent} {load : Load}

theorem exists_cycleEnds {S : Type} (checker : Checker S) (h : Loading load) (hmax : 0 < checker.maxConcurrentPings)
    (states : TelegramId → S) : ∃ checks, CycleEnds checker load states checks := by
  rcases exists_finished (fun g hg => groups_startChecks h hg) hmax with ⟨es, checks, hrun, hfinished⟩
  exact ⟨checks, es, hrun, hfinished⟩

theorem CycleEnds.finished {S : Type} {checker : Checker S} {states : TelegramId → S} {checks : Checks S}
    (hends : CycleEnds checker load states checks) (h : Loading load)
    : checks.pings.Perm (load.ipGroups.map Prod.fst) ∧ checks.checked.Perm (load.users.map (reading checker)) ∧
        ((load.users.map User.telegramId).Nodup → checks.states = perUserLoop checker load.users states) := by
  rcases hends with ⟨es, hrun, hfinished⟩
  exact (checking_of_run h hrun).finished hfinished

theorem equalsLoop_of_nodup (hrun : Run.exec Load.step (startLoad table) es = some load)
    (hover : load.isOver = true) (hnodup : (load.users.map User.telegramId).Nodup) : EqualsLoop table es load := by
  have hloading := loading_of_run hrun
  constructor
  case loadsOnce => exact hloading.nodup
  case missesNone =>
    intro id hhasIp
    exact (covers_of_run hhasIp hrun).mem hover
  case pings =>
    intro S checker states checks hends
    have hpings := (hends.finished hloading).1
    refine ⟨hpings.nodup_iff.mpr hloading.groups.nodup, ?_⟩
    intro ip
    rw [hpings.mem_iff]
    exact hloading.groups.mem_keys
  case checked =>
    intro S checker states checks hends
    have hchecked := (hends.finished hloading).2.1
    refine ⟨hchecked, ?_⟩
    intro call hcall
    rcases List.mem_map.mp (hchecked.mem_iff.mp hcall) with ⟨user, huser, rfl⟩
    exact checkRouterHttp_ne_none (routerIp_of_hasIp (hloading.hasIp user huser))
  case states =>
    intro S checker states checks hends order horder
    rw [(hends.finished hloading).2.2 hnodup, perUserLoop_perm horder hnodup]

def idChecker : Checker Nat where
  reachable := fun _ => true
  checkUserPower := fun user _ => .step (fun _ => user.id) fun _ => .returned
  maxConcurrentPings := 1

theorem perUserLoop_append {S : Type} (checker : Checker S) (users users' : List User) (states : TelegramId → S)
    : perUserLoop checker (users ++ users') states
        =
      perUserLoop checker users' (perUserLoop checker users states) := by
  induction users generalizing states with
  | nil => rfl
  | cons user users ih => exact ih _

theorem perUserLoop_last {user : User} (hhasIp : user.hasIp = true) (users : List User) (states : TelegramId → Nat)
    : perUserLoop idChecker (users ++ [user]) states user.telegramId = user.id := by
  have halone : checkAlone idChecker user = .step (fun _ => user.id) fun _ => .returned := by
    unfold checkAlone
    split
    . rfl
    . next hnone => exact absurd hnone (checkRouterHttp_ne_none (routerIp_of_hasIp hhasIp))
  rw [perUserLoop_append]
  dsimp only [perUserLoop]
  rw [halone, Function.update_self]
  rfl

/--
With two rows of one user the last one of a loop decides, so the order matters.
-/
theorem EqualsLoop.nodup (h : EqualsLoop table es load) (hloading : Loading load)
    : (load.users.map User.telegramId).Nodup := by
  refine List.Nodup.map_on ?_ (List.Nodup.of_map User.id hloading.nodup)
  intro user huser user' huser' heq
  rcases exists_cycleEnds idChecker hloading Nat.one_pos fun _ => 0 with ⟨checks, hends⟩
  have hlast {user : User} (huser : user ∈ load.users) : checks.states user.telegramId = user.id := by
    have horder : (load.users.erase user ++ [user]).Perm load.users :=
      List.perm_append_comm.trans (List.perm_cons_erase huser).symm
    rw [h.states hends _ horder]
    exact perUserLoop_last (hloading.hasIp user huser) _ _
  have hid : user.id = user'.id := by rw [← hlast huser, heq, hlast huser']
  exact List.inj_on_of_nodup_map hloading.nodup huser huser' hid

theorem checkAllIps_equalsLoop_iff (hrun : Run.exec Load.step (startLoad table) es = some load)
    (hover : load.isOver = true)
    : EqualsLoop table es load ↔ Run.StepsMeet Load.step LoadsNoUserTwice (startLoad table) es := by
  have hiff := (nodup_run_iff hrun).trans (and_iff_right List.nodup_nil)
  rw [← hiff]
  constructor
  . intro hequals
    exact hequals.nodup (loading_of_run hrun)
  . intro hnodup
    exact equalsLoop_of_nodup hrun hover hnodup

end EqualsLoop

def threeUsers : Users where
  rows := [
    { id := 1, telegramId := "777", isActive := true, routerIp := some "192.168.1.1" },
    { id := 2, telegramId := "778", isActive := true, routerIp := some "192.168.1.2" },
    { id := 3, telegramId := "779", isActive := true, routerIp := some "192.168.1.1" }]
  ids_nodup := by decide
  ids_pos := by decide
  telegramIds_nodup := by decide

theorem checkAllIps_equalsLoop_iff_threeUsers
    : ∃ load, Run.exec Load.step (startLoad threeUsers) [.pageRead] = some load ∧
        EqualsLoop threeUsers [.pageRead] load :=
  ⟨_, rfl, (checkAllIps_equalsLoop_iff rfl (by decide)).mpr (by decide)⟩

def ofMonitored (user : PowerMonitor.User) : User where
  id := user.id
  telegramId := user.telegramId
  isActive := true
  routerIp := some user.routerIp

def fullPage : List User := Monitor.fullPage.map ofMonitored

def usersBefore : Users where
  rows := fullPage
  ids_nodup := by
    have hids := (List.pairwise_cons.mp Monitor.isBatch_fullPage.2.1).2
    unfold fullPage
    rw [List.map_map]
    exact hids.imp Nat.ne_of_lt
  ids_pos := by
    intro row hrow
    rcases List.mem_map.mp hrow with ⟨user, huser, rfl⟩
    exact (List.pairwise_cons.mp Monitor.isBatch_fullPage.2.1).1 user.id (List.mem_map_of_mem huser)
  telegramIds_nodup := by
    unfold fullPage
    rw [List.map_map]
    exact Monitor.isBatch_fullPage.2.2.1

def usersAfter : Users where
  rows := { id := 501, telegramId := "777", isActive := true, routerIp := some "192.168.1.2" } :: fullPage.tail
  ids_nodup := by
    rw [List.map_cons, List.nodup_cons]
    refine ⟨by decide +kernel, ?_⟩
    exact usersBefore.ids_nodup.sublist ((List.tail_sublist _).map User.id)
  ids_pos := by
    rw [List.forall_mem_cons]
    exact ⟨by decide, fun row hrow => usersBefore.ids_pos row (List.mem_of_mem_tail hrow)⟩
  telegramIds_nodup := by
    have htelegramIds : fullPage.map User.telegramId = "777" :: fullPage.tail.map User.telegramId := by
      unfold fullPage Monitor.fullPage
      rw [List.map_cons, List.map_cons, List.tail_cons]
      rfl
    rw [List.map_cons, ← htelegramIds]
    exact usersBefore.telegramIds_nodup

theorem not_equalsLoop_usersAfter
    : ∃ load, Run.exec Load.step (startLoad usersBefore) [.pageRead, .tableChanged usersAfter, .pageRead] = some load ∧
        load.isOver = true ∧
        ¬ EqualsLoop usersBefore [.pageRead, .tableChanged usersAfter, .pageRead] load := by
  have hload : (Run.exec Load.step (startLoad usersBefore) [.pageRead, .tableChanged usersAfter, .pageRead]).map
      (fun load => (load.isOver, (load.users.map User.telegramId).count "777")) = some (true, 2) := by
    decide +kernel
  rcases Option.map_eq_some_iff.mp hload with ⟨load, hrun, hpair⟩
  rcases Prod.mk.inj hpair with ⟨hover, hcount⟩
  refine ⟨load, hrun, hover, ?_⟩
  intro hequals
  have hnodup := hequals.nodup (loading_of_run hrun)
  have hle := List.nodup_iff_count_le_one.mp hnodup "777"
  omega

end CheckAllIps
end PowerMonitor
