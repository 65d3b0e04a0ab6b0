import VoltykBot.Lib.Coroutine
import VoltykBot.Power.LoadUsers

/-!
This module contains the second half of `_check_all_ips`: each group pings its address once and checks its users
one after the other, and the groups run beside each other.
-/

namespace PowerMonitor
namespace CheckAllIps

/--
What the pings of a cycle find, and what `_check_user_power` does to the state of its user once it has a reading:
it may be suspended between any two steps, and it may raise. That the states of the other users are none of its
business is `Monitor.elsewhere_check`.
-/
structure Checker (S : Type) where
  reachable : String → Bool
  checkUserPower : User → Bool → Coroutine S
  maxConcurrentPings : Nat

def checkRouterHttp (reachable : String → Bool) (routerIp : Option String) : Option Bool :=
  match routerIp with
  | some ip => if ip = "" then none else some (reachable ip)
  | none => none

/--
An invocation of `_check_user_power`: without a reading it pings by itself.
-/
inductive CallPc (S : Type) where
  | pinging
  | running (c : Coroutine S)

inductive GroupPc where
  | waiting
  | pinging
  | pinged (result : Option Bool)
  deriving DecidableEq

structure Group (S : Type) where
  ip : Option String
  users : List User
  pc : GroupPc := .waiting
  call : Option (User × CallPc S) := none

/--
The gathered tasks. `pings` are the addresses that have been pinged, `checked` the invocations of
`_check_user_power` with their readings; no step reads them.
-/
structure Checks (S : Type) where
  groups : List (Group S)
  states : TelegramId → S
  pings : List (Option String) := []
  checked : List (User × Option Bool) := []

inductive CheckEvent where
  | acquired (group : Nat)
  | pinged (group : Nat)
  | callStarted (group : Nat)
  | userPinged (group : Nat)
  | resumed (group : Nat)

def startChecks {S : Type} (load : Load) (states : TelegramId → S) : Checks S where
  groups := load.ipGroups.map fun group => { ip := group.1, users := group.2 }
  states := states

def GroupPc.isPinging (pc : GroupPc) : Bool :=
  match pc with
  | .pinging => true
  | _ => false

namespace Checks

variable {S : Type} (checker : Checker S) (checks : Checks S)

def setGroup (i : Nat) (g : Group S) : Checks S :=
  { checks with groups := checks.groups.set i g }

def acquired (i : Nat) : Option (Checks S) := do
  let g ← checks.groups[i]?
  match g.pc with
  | .waiting =>
    if checks.groups.countP (·.pc.isPinging) < checker.maxConcurrentPings then
      some (checks.setGroup i { g with pc := .pinging })
    else
      none
  | _ => none

def pinged (i : Nat) : Option (Checks S) := do
  let g ← checks.groups[i]?
  match g.pc with
  | .pinging =>
    let pingResult := checkRouterHttp checker.reachable g.ip
    some { checks.setGroup i { g with pc := .pinged pingResult } with pings := checks.pings ++ [g.ip] }
  | _ => none

def callStarted (i : Nat) : Option (Checks S) := do
  let g ← checks.groups[i]?
  match g.pc, g.call, g.users with
  | .pinged pingResult, none, user :: users =>
    let pc :=
      match pingResult with
      | some isAvailable => .running (checker.checkUserPower user isAvailable)
      | none => .pinging
    some { checks.setGroup i { g with users := users, call := some (user, pc) } with
      checked := checks.checked ++ [(user, pingResult)] }
  | _, _, _ => none

def userPinged (i : Nat) : Option (Checks S) := do
  let g ← checks.groups[i]?
  match g.call with
  | some (user, .pinging) =>
    let call := (checkRouterHttp checker.reachable user.routerIp).map fun isAvailable =>
      (user, .running (checker.checkUserPower user isAvailable))
    some { checks.setGroup i { g with call := call } with pings := checks.pings ++ [user.routerIp] }
  | _ => none

def resumed (i : Nat) : Option (Checks S) := do
  let g ← checks.groups[i]?
  match g.call with
  | some (user, .running (.step f rest)) =>
    let state := checks.states user.telegramId
    some { checks.setGroup i { g with call := some (user, .running (rest state)) } with
      states := Function.update checks.states user.telegramId (f state) }
  | some (_, .running _) =>
    -- an exception is logged, the group goes on with its next user
    some (checks.setGroup i { g with call := none })
  | _ => none

def step (e : CheckEvent) : Option (Checks S) :=
  match e with
  | .acquired i => checks.acquired checker i
  | .pinged i => checks.pinged checker i
  | .callStarted i => checks.callStarted checker i
  | .userPinged i => checks.userPinged checker i
  | .resumed i => checks.resumed i

end Checks

def Group.isFinished {S : Type} (g : Group S) : Bool :=
  match g.pc, g.call, g.users with
  | .pinged _, none, [] => true
  | _, _, _ => false

def Checks.Finished {S : Type} (checks : Checks S) : Prop := ∀ g ∈ checks.groups, g.isFinished = true

section Loop

variable {S : Type} (checker : Checker S)

def checkAlone (user : User) : Coroutine S :=
  match checkRouterHttp checker.reachable user.routerIp with
  | some isAvailable => checker.checkUserPower user isAvailable
  | none => .returned

def perUserLoop (users : List User) (states : TelegramId → S) : TelegramId → S :=
  match users with
  | [] => states
  | user :: users =>
    let state := (checkAlone checker user).run (states user.telegramId)
    perUserLoop users (Function.update states user.telegramId state)

def thread (user : User) : TelegramId × Coroutine S := (user.telegramId, checkAlone checker user)

theorem perUserLoop_eq (users : List User) (states : TelegramId → S)
    : perUserLoop checker users states = Coroutine.runAll (users.map (thread checker)) states := by
  induction users generalizing states with
  | nil => rfl
  | cons user users ih => exact ih _

end Loop

section Steps

variable {S : Type} {checker : Checker S} {checks checks' : Checks S} {g g' : Group S}

inductive GroupMoves (checker : Checker S) (states : TelegramId → S) (g : Group S)
    : Group S → (TelegramId → S) → List (Option String) → List (User × Option Bool) → Prop where
  | acquired (hpc : g.pc = .waiting) : GroupMoves checker states g { g with pc := .pinging } states [] []
  | pinged (hpc : g.pc = .pinging)
    : GroupMoves checker states g { g with pc := .pinged (checkRouterHttp checker.reachable g.ip) } states [g.ip] []
  | started {user : User} {users : List User} {isAvailable : Bool} (hpc : g.pc = .pinged (some isAvailable))
      (hcall : g.call = none) (husers : g.users = user :: users)
    : GroupMoves checker states g
        { g with users := users, call := some (user, .running (checker.checkUserPower user isAvailable)) } states
        [] [(user, some isAvailable)]
  | unread {user : User} {users : List User} (hpc : g.pc = .pinged none) (hcall : g.call = none)
      (husers : g.users = user :: users)
    : GroupMoves checker states g { g with users := users, call := some (user, .pinging) } states [] [(user, none)]
  | userPinged {user : User} {call : Option (User × CallPc S)} (hcall : g.call = some (user, .pinging))
    : GroupMoves checker states g { g with call := call } states [user.routerIp] []
  | stepped {user : User} {f : S → S} {rest : S → Coroutine S}
      (hcall : g.call = some (user, .running (.step f rest)))
    : GroupMoves checker states g { g with call := some (user, .running (rest (states user.telegramId))) }
        (Function.update states user.telegramId (f (states user.telegramId))) [] []
  | ended {user : User} {c : Coroutine S} (hcall : g.call = some (user, .running c)) (hover : c.isOver = true)
    : GroupMoves checker states g { g with call := none } states [] []

theorem exists_split {groups : List (Group S)} {i : Nat} (h : groups[i]? = some g)
    : ∃ before after, groups = before ++ g :: after ∧ ∀ g', groups.set i g' = before ++ g' :: after := by
  rcases List.getElem?_eq_some_iff.mp h with ⟨hi, rfl⟩
  have hset (g' : Group S) : groups.set i g' = groups.take i ++ g' :: groups.drop (i + 1) := by
    rw [List.set_eq_take_append_cons_drop, if_pos hi]
  refine ⟨groups.take i, groups.drop (i + 1), ?_, hset⟩
  rw [← hset, List.set_getElem_self]

structure Moved (checker : Checker S) (checks checks' : Checks S) (before after : List (Group S)) (g g' : Group S)
    (pings : List (Option String)) (checked : List (User × Option Bool)) : Prop where
  groups : checks.groups = before ++ g :: after
  moves : GroupMoves checker checks.states g g' checks'.states pings checked
  eq : checks' = {
    groups := before ++ g' :: after
    states := checks'.states
    pings := checks.pings ++ pings
    checked := checks.checked ++ checked }

variable (checker) in
theorem moved_setGroup {i : Nat} {states : TelegramId → S} {pings : List (Option String)}
    {checked : List (User × Option Bool)} (hg : checks.groups[i]? = some g)
    (hmoves : GroupMoves checker checks.states g g' states pings checked)
    : ∃ before after, Moved checker checks
        { groups := checks.groups.set i g', states := states, pings := checks.pings ++ pings
          checked := checks.checked ++ checked }
        before after g g' pings checked := by
  rcases exists_split hg with ⟨before, after, hgroups, hset⟩
  exact ⟨before, after, hgroups, hmoves, by rw [hset]⟩

theorem moved_of_step {e : CheckEvent} (h : checks.step checker e = some checks')
    : ∃ before after g g' pings checked, Moved checker checks checks' before after g g' pings checked := by
  cases e with
  | acquired i =>
    rcases Option.bind_eq_some_iff.mp h with ⟨g, hg, h⟩
    split at h
    . next hpc =>
      split at h
      . cases h
        rcases moved_setGroup checker hg (.acquired hpc) with ⟨before, after, hmoved⟩
        rw [List.append_nil, List.append_nil] at hmoved
        exact ⟨before, after, g, _, _, _, hmoved⟩
      . cases h
    . cases h
  | pinged i =>
    rcases Option.bind_eq_some_iff.mp h with ⟨g, hg, h⟩
    split at h
    . next hpc =>
      cases h
      rcases moved_setGroup checker hg (.pinged hpc) with ⟨before, after, hmoved⟩
      rw [List.append_nil] at hmoved
      exact ⟨before, after, g, _, _, _, hmoved⟩
    . cases h
  | callStarted i =>
    rcases Option.bind_eq_some_iff.mp h with ⟨g, hg, h⟩
    split at h
    . next pingResult user users hpc hcall husers =>
      cases h
      cases pingResult with
      | some isAvailable =>
        rcases moved_setGroup checker hg (.started hpc hcall husers) with ⟨before, after, hmoved⟩
        rw [List.append_nil] at hmoved
        exact ⟨before, after, g, _, _, _, hmoved⟩
      | none =>
        rcases moved_setGroup checker hg (.unread hpc hcall husers) with ⟨before, after, hmoved⟩
        rw [List.append_nil] at hmoved
        exact ⟨before, after, g, _, _, _, hmoved⟩
    . cases h
  | userPinged i =>
    rcases Option.bind_eq_some_iff.mp h with ⟨g, hg, h⟩
    split at h
    . next user hcall =>
      cases h
      rcases moved_setGroup checker hg (.userPinged hcall) with ⟨before, after, hmoved⟩
      rw [List.append_nil] at hmoved
      exact ⟨before, after, g, _, _, _, hmoved⟩
    . cases h
  | resumed i =>
    rcases Option.bind_eq_some_iff.mp h with ⟨g, hg, h⟩
    split at h
    . next user f rest hcall =>
      cases h
      rcases moved_setGroup checker hg (.stepped hcall) with ⟨before, after, hmoved⟩
      rw [List.append_nil, List.append_nil] at hmoved
      exact ⟨before, after, g, _, _, _, hmoved⟩
    . next user c hnot hcall =>
      cases h
      have hover : c.isOver = true := by
        cases c with
        | step f rest => exact absurd rfl (hnot f rest)
        | returned => rfl
        | raised => rfl
      rcases moved_setGroup checker hg (.ended hcall hover) with ⟨before, after, hmoved⟩
      rw [List.append_nil, List.append_nil] at hmoved
      exact ⟨before, after, g, _, _, _, hmoved⟩
    . cases h

end Steps

section Groups

variable {S : Type} (checker : Checker S)

def unpinged (g : Group S) : List (Option String) :=
  match g.pc with
  | .pinged _ => []
  | _ => [g.ip]

def reading (user : User) : User × Option Bool := (user, checkRouterHttp checker.reachable user.routerIp)

def unchecked (g : Group S) : List (User × Option Bool) := g.users.map (reading checker)

def callThread (g : Group S) : List (TelegramId × Coroutine S) :=
  match g.call with
  | some (user, .running c) => [(user.telegramId, c)]
  | some (user, .pinging) => [thread checker user]
  | none => []

def threads (g : Group S) : List (TelegramId × Coroutine S) := callThread checker g ++ g.users.map (thread checker)

structure GroupSound (g : Group S) : Prop where
  ip : g.ip ≠ none ∧ g.ip ≠ some ""
  users : ∀ user ∈ g.users, user.routerIp = g.ip
  pinged : ∀ result, g.pc = .pinged result → result = checkRouterHttp checker.reachable g.ip
  called : g.call ≠ none → ∃ result, g.pc = .pinged result
  running : ∀ user, g.call ≠ some (user, .pinging)

variable {checker} {g g' : Group S} {states states' : TelegramId → S} {pings : List (Option String)}
  {checked : List (User × Option Bool)}

theorem checkRouterHttp_ne_none {reachable : String → Bool} {routerIp : Option String}
    (h : routerIp ≠ none ∧ routerIp ≠ some "") : checkRouterHttp reachable routerIp ≠ none := by
  cases routerIp with
  | none => exact absurd rfl h.1
  | some ip =>
    have hne : ip ≠ "" := fun heq => h.2 (congrArg some heq)
    unfold checkRouterHttp
    dsimp only
    rw [if_neg hne]
    exact Option.some_ne_none _

theorem GroupSound.not_unread (h : GroupSound checker g) : g.pc ≠ .pinged none := by
  intro hpc
  exact checkRouterHttp_ne_none h.ip (h.pinged none hpc).symm

theorem GroupSound.moves (h : GroupSound checker g) (hmoves : GroupMoves checker states g g' states' pings checked)
    : GroupSound checker g' := by
  cases hmoves with
  | acquired hpc =>
    refine ⟨h.ip, h.users, nofun, ?_, h.running⟩
    intro hcall
    rcases h.called hcall with ⟨result, hpinged⟩
    rw [hpc] at hpinged
    cases hpinged
  | pinged hpc =>
    refine ⟨h.ip, h.users, ?_, fun _ => ⟨_, rfl⟩, h.running⟩
    rintro result ⟨⟩
    rfl
  | started hpc hcall husers =>
    refine ⟨h.ip, ?_, h.pinged, fun _ => ⟨_, hpc⟩, ?_⟩
    . intro user huser
      exact h.users user (husers ▸ List.mem_cons_of_mem _ huser)
    . rintro user ⟨⟩
  | unread hpc hcall husers => exact absurd hpc h.not_unread
  | userPinged hcall => exact absurd hcall (h.running _)
  | stepped hcall =>
    have hcalled := h.called (by rw [hcall]; exact Option.some_ne_none _)
    refine ⟨h.ip, h.users, h.pinged, fun _ => hcalled, ?_⟩
    rintro user ⟨⟩
  | ended hcall hover =>
    refine ⟨h.ip, h.users, h.pinged, fun hnone => absurd rfl hnone, ?_⟩
    rintro user ⟨⟩

theorem GroupSound.unpinged (h : GroupSound checker g)
    (hmoves : GroupMoves checker states g g' states' pings checked) : pings ++ unpinged g' = unpinged g := by
  cases hmoves with
  | acquired hpc =>
    unfold CheckAllIps.unpinged
    dsimp only
    rw [hpc]
    rfl
  | pinged hpc =>
    unfold CheckAllIps.unpinged
    dsimp only
    rw [hpc]
    rfl
  | unread hpc hcall husers => exact absurd hpc h.not_unread
  | userPinged hcall => exact absurd hcall (h.running _)
  | _ => rfl

theorem GroupSound.unchecked (h : GroupSound checker g)
    (hmoves : GroupMoves checker states g g' states' pings checked)
    : checked ++ unchecked checker g' = unchecked checker g := by
  cases hmoves with
  | started hpc hcall husers =>
    have hresult := h.pinged _ hpc
    rw [← h.users _ (husers ▸ List.mem_cons_self)] at hresult
    unfold CheckAllIps.unchecked
    rw [husers, hresult]
    rfl
  | unread hpc hcall husers => exact absurd hpc h.not_unread
  | userPinged hcall => exact absurd hcall (h.running _)
  | _ => rfl

theorem GroupSound.threads (h : GroupSound checker g)
    (hmoves : GroupMoves checker states g g' states' pings checked)
    : (threads checker g' = threads checker g ∧ states' = states) ∨ ∀ before after,
        Coroutine.Resumes (before ++ (threads checker g ++ after)) states
          (before ++ (threads checker g' ++ after)) states' := by
  cases hmoves with
  | started hpc hcall husers =>
    left
    have hresult := h.pinged _ hpc
    rw [← h.users _ (husers ▸ List.mem_cons_self)] at hresult
    unfold CheckAllIps.threads callThread
    dsimp only
    rw [hcall, husers, List.map_cons]
    unfold thread checkAlone
    rw [← hresult]
    exact ⟨rfl, rfl⟩
  | unread hpc hcall husers => exact absurd hpc h.not_unread
  | userPinged hcall => exact absurd hcall (h.running _)
  | stepped hcall =>
    right
    intro before after
    unfold CheckAllIps.threads callThread
    dsimp only
    rw [hcall]
    exact .stepped
  | ended hcall hover =>
    right
    intro before after
    unfold CheckAllIps.threads callThread
    dsimp only
    rw [hcall]
    exact .ended hover
  | _ => exact Or.inl ⟨rfl, rfl⟩

end Groups

section Checking

variable {S : Type}

/--
What has been done and what the groups have still to do make up the addresses `ips`, the readings of `users`, and
the loop over them.
-/
structure Checking (checker : Checker S) (ips : List (Option String)) (users : List User) (start : TelegramId → S)
    (checks : Checks S) : Prop where
  sound : ∀ g ∈ checks.groups, GroupSound checker g
  pings : (checks.pings ++ checks.groups.flatMap unpinged).Perm ips
  checked : (checks.checked ++ checks.groups.flatMap (unchecked checker)).Perm (users.map (reading checker))
  states : (users.map User.telegramId).Nodup →
    ((checks.groups.flatMap (threads checker)).map Prod.fst).Nodup ∧
      Coroutine.runAll (checks.groups.flatMap (threads checker)) checks.states = perUserLoop checker users start

variable {checker : Checker S} {ips : List (Option String)} {users : List User} {start : TelegramId → S}
  {checks checks' : Checks S}

theorem perm_moved {α : Type} {f : Group S → List α} {before after : List (Group S)} {g g' : Group S}
    {done new all : List α} (h : (done ++ (before ++ g :: after).flatMap f).Perm all) (hmoved : new ++ f g' = f g)
    : (done ++ new ++ (before ++ g' :: after).flatMap f).Perm all := by
  refine List.Perm.trans ?_ h
  rw [List.flatMap_append, List.flatMap_append, List.flatMap_cons, List.flatMap_cons, ← hmoved,
    List.append_assoc, List.append_assoc]
  exact (List.perm_append_comm_assoc _ _ _).append_left done

theorem sound_moved {before after : List (Group S)} {g g' : Group S} {states states' : TelegramId → S}
    {pings : List (Option String)} {checked : List (User × Option Bool)} (hg : GroupSound checker g)
    (hmoves : GroupMoves checker states g g' states' pings checked)
    (h : ∀ other ∈ before ++ g :: after, GroupSound checker other)
    : ∀ other ∈ before ++ g' :: after, GroupSound checker other := by
  intro other hother
  cases List.mem_append.mp hother with
  | inl hbefore => exact h other (List.mem_append_left _ hbefore)
  | inr hrest =>
    cases List.mem_cons.mp hrest with
    | inl heq => exact heq ▸ hg.moves hmoves
    | inr hafter => exact h other (List.mem_append_right before (List.mem_cons_of_mem g hafter))

theorem Checking.step {e : CheckEvent} (h : Checking checker ips users start checks)
    (hstep : checks.step checker e = some checks') : Checking checker ips users start checks' := by
  rcases moved_of_step hstep with ⟨before, after, g, g', pings, checked, hmoved⟩
  have hpings := h.pings
  have hchecked := h.checked
  have hstates := h.states
  have hall := h.sound
  rw [hmoved.groups] at hpings hchecked hstates hall
  have hg : GroupSound checker g := hall g (List.mem_append_right before List.mem_cons_self)
  rw [hmoved.eq]
  constructor
  . exact sound_moved hg hmoved.moves hall
  . exact perm_moved hpings (hg.unpinged hmoved.moves)
  . exact perm_moved hchecked (hg.unchecked hmoved.moves)
  . intro hnodup
    rcases hstates hnodup with ⟨hkeys, hloop⟩
    rw [List.flatMap_append, List.flatMap_cons] at hkeys hloop
    dsimp only
    rw [List.flatMap_append, List.flatMap_cons]
    rcases hg.threads hmoved.moves with ⟨hsame, hstates'⟩ | hresumes
    . rw [hsame, hstates']
      exact ⟨hkeys, hloop⟩
    . obtain ⟨hrun, hkeys'⟩ := Coroutine.runAll_resumes (hresumes _ _) hkeys
      exact ⟨hkeys', hrun.trans hloop⟩

theorem groups_startChecks {load : Load} (h : Loading load) {g : Group S} (hg : g ∈ (startChecks load start).groups)
    : GroupSound checker g := by
  rcases List.mem_map.mp hg with ⟨group, hgroup, rfl⟩
  have husers : ∀ user ∈ group.2, user.routerIp = group.1 := h.groups.key_eq group hgroup
  rcases List.exists_mem_of_ne_nil group.2 (h.groups.nonempty group hgroup) with ⟨user, huser⟩
  have hip := routerIp_of_hasIp (h.hasIp user (h.groups.perm.mem_iff.mp (List.mem_flatMap.mpr ⟨group, hgroup, huser⟩)))
  rw [husers user huser] at hip
  refine ⟨hip, husers, nofun, fun hnone => absurd rfl hnone, ?_⟩
  rintro user ⟨⟩

theorem perm_startChecks {α : Type} {load : Load} (h : Loading load) {f : Group S → List α} {item : User → α}
    (hf : ∀ ip users, f { ip := ip, users := users } = users.map item)
    : ((startChecks load start).groups.flatMap f).Perm (load.users.map item) := by
  have hgroups : (startChecks load start).groups.flatMap f = (load.ipGroups.flatMap Prod.snd).map item := by
    unfold startChecks
    dsimp only
    rw [List.flatMap_map, List.map_flatMap]
    apply List.flatMap_congr
    intro group _
    exact hf group.1 group.2
  rw [hgroups]
  exact h.groups.perm.map item

theorem checking_startChecks {load : Load} (h : Loading load) (start : TelegramId → S)
    : Checking checker (load.ipGroups.map Prod.fst) load.users start (startChecks load start) := by
  constructor
  . exact fun g hg => groups_startChecks h hg
  . unfold startChecks
    dsimp only
    rw [List.nil_append, List.flatMap_map]
    unfold unpinged
    dsimp only
    rw [List.map_eq_flatMap]
  . exact perm_startChecks h fun ip users => rfl
  . intro hnodup
    have hthreads : ((startChecks load start).groups.flatMap (threads checker)).Perm
        (load.users.map (thread checker)) :=
      perm_startChecks h fun ip users => rfl
    have hkeys : ((load.users.map (thread checker)).map Prod.fst).Nodup := by
      rw [List.map_map]
      exact hnodup
    have hkeys' := (hthreads.map Prod.fst).nodup_iff.mpr hkeys
    refine ⟨hkeys', ?_⟩
    rw [perUserLoop_eq]
    exact Coroutine.runAll_perm hthreads hkeys' start

theorem checking_of_run {load : Load} (h : Loading load) {es : List CheckEvent}
    (hrun : Run.exec (Checks.step checker) (startChecks load start) es = some checks)
    : Checking checker (load.ipGroups.map Prod.fst) load.users start checks :=
  Run.invariant' (fun hchecking hstep => hchecking.step hstep) (checking_startChecks h start) hrun

variable (checker) in
theorem eq_of_isFinished {g : Group S} (h : g.isFinished = true)
    : unpinged g = [] ∧ unchecked checker g = [] ∧ threads checker g = [] := by
  unfold Group.isFinished at h
  split at h
  . next hpc hcall husers =>
    unfold unpinged unchecked threads callThread
    rw [hpc, hcall, husers]
    exact ⟨rfl, rfl, rfl⟩
  . cases h

theorem Checking.finished (h : Checking checker ips users start checks) (hfinished : checks.Finished)
    : checks.pings.Perm ips ∧ checks.checked.Perm (users.map (reading checker)) ∧
        ((users.map User.telegramId).Nodup → checks.states = perUserLoop checker users start) := by
  have hpings : checks.groups.flatMap unpinged = [] :=
    List.flatMap_eq_nil_iff.mpr fun g hg => (eq_of_isFinished checker (hfinished g hg)).1
  have hchecked : checks.groups.flatMap (unchecked checker) = [] :=
    List.flatMap_eq_nil_iff.mpr fun g hg => (eq_of_isFinished checker (hfinished g hg)).2.1
  have hthreads : checks.groups.flatMap (threads checker) = [] :=
    List.flatMap_eq_nil_iff.mpr fun g hg => (eq_of_isFinished checker (hfinished g hg)).2.2
  refine ⟨?_, ?_, ?_⟩
  . have hperm := h.pings
    rwa [hpings, List.append_nil] at hperm
  . have hperm := h.checked
    rwa [hchecked, List.append_nil] at hperm
  . intro hnodup
    have hloop := (h.states hnodup).2
    rwa [hthreads] at hloop

theorem perUserLoop_perm {order : List User} (hperm : order.Perm users)
    (hnodup : (users.map User.telegramId).Nodup) (states : TelegramId → S)
    : perUserLoop checker order states = perUserLoop checker users states := by
  rw [perUserLoop_eq, perUserLoop_eq]
  apply Coroutine.runAll_perm (hperm.map (thread checker))
  rw [List.map_map]
  exact (hperm.map User.telegramId).nodup_iff.mpr hnodup

end Checking

end CheckAllIps
end PowerMonitor
