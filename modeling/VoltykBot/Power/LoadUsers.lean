import VoltykBot.Lib.Grouping
import VoltykBot.Lib.Keyset
import VoltykBot.Power.Monitor

/-!
This module contains the first half of `_check_all_ips`: it reads the users with an address page by page and puts
them into groups, while the table of the users may change between any two pages.
-/

namespace PowerMonitor
namespace CheckAllIps

structure User where
  id : Nat
  telegramId : TelegramId
  isActive : Bool
  routerIp : Option String
  powerTracking : Option PowerTracking := none
  deriving DecidableEq

def User.hasIp (user : User) : Bool :=
  user.isActive && user.routerIp != none && user.routerIp != some ""

theorem routerIp_of_hasIp {user : User} (h : user.hasIp = true) : user.routerIp ≠ none ∧ user.routerIp ≠ some "" := by
  simp only [User.hasIp, Bool.and_eq_true, bne_iff_ne] at h
  exact ⟨h.1.2, h.2⟩

/--
The table `users`: `id` is the primary key, it counts from 1, and `telegram_id` is unique.
-/
structure Users where
  rows : List User
  ids_nodup : (rows.map User.id).Nodup
  ids_pos : ∀ row ∈ rows, 0 < row.id
  telegramIds_nodup : (rows.map User.telegramId).Nodup

def getUsersWithIpCursor (users : Users) (limit afterId : Nat) : List User :=
  Keyset.page User.id User.hasIp limit afterId users.rows

def Users.HasIp (users : Users) (id : Nat) : Prop :=
  ∃ user ∈ users.rows, user.id = id ∧ user.hasIp = true

/--
The loop over the pages, with the table it reads. `users` are all the users read, no step reads it.
-/
structure Load where
  table : Users
  afterId : Nat := 0
  ipGroups : List (Option String × List User) := []
  isOver : Bool := false
  users : List User := []

inductive LoadEvent where
  | tableChanged (table : Users)
  | pageRead

def startLoad (table : Users) : Load := { table }

namespace Load

def pageRead (load : Load) : Load :=
  let batch := getUsersWithIpCursor load.table batchLimit load.afterId
  if batch = [] then
    { load with isOver := true }
  else
    let load := { load with
      ipGroups := batch.foldl (Grouping.add User.routerIp) load.ipGroups
      users := load.users ++ batch }
    if batch.length < batchLimit then
      { load with isOver := true }
    else
      { load with afterId := batch.getLast?.elim load.afterId User.id }

def step (load : Load) (e : LoadEvent) : Option Load :=
  if load.isOver then
    none
  else
    match e with
    | .tableChanged table => some { load with table }
    | .pageRead => some load.pageRead

end Load

namespace Load

abbrev nextBatch (load : Load) : List User := getUsersWithIpCursor load.table batchLimit load.afterId

def addBatch (load : Load) : Load :=
  { load with
    ipGroups := load.nextBatch.foldl (Grouping.add User.routerIp) load.ipGroups
    users := load.users ++ load.nextBatch }

inductive Moves (load : Load) : Load → Prop where
  | tableChanged (table : Users) : Moves load { load with table }
  | lastRead (hshort : load.nextBatch.length < batchLimit) : Moves load { load.addBatch with isOver := true }
  | pageRead (last : User) (hlast : load.nextBatch.getLast? = some last)
    : Moves load { load.addBatch with afterId := last.id }

theorem moves_of_step {load load' : Load} {e : LoadEvent} (h : load.step e = some load')
    : load.isOver = false ∧ Moves load load' := by
  unfold step at h
  split at h
  . cases h
  . next hover =>
    refine ⟨Bool.eq_false_iff.mpr hover, ?_⟩
    cases e with
    | tableChanged table =>
      cases h
      exact .tableChanged table
    | pageRead =>
      cases h
      unfold pageRead
      dsimp only
      split
      . next hbatch =>
        have hshort : load.nextBatch.length < batchLimit := by
          rw [show load.nextBatch = [] from hbatch]
          exact Nat.succ_pos _
        have hsame : { load with isOver := true } = { load.addBatch with isOver := true } := by
          unfold addBatch
          rw [show load.nextBatch = [] from hbatch, List.append_nil]
          rfl
        rw [hsame]
        exact .lastRead hshort
      . next hbatch =>
        split
        . next hshort => exact .lastRead hshort
        . have hlast := List.getLast?_eq_some_getLast hbatch
          rw [hlast]
          exact .pageRead _ hlast

end Load

structure Loading (load : Load) : Prop where
  nodup : (load.users.map User.id).Nodup
  upTo : load.isOver = false → ∀ user ∈ load.users, user.id ≤ load.afterId
  hasIp : ∀ user ∈ load.users, user.hasIp = true
  groups : Grouping.Groups User.routerIp load.users load.ipGroups

def Covers (id : Nat) (load : Load) : Prop :=
  (load.isOver = false → id ≤ load.afterId) → id ∈ load.users.map User.id

section Loading

variable {load load' : Load} {id : Nat}

theorem loading_startLoad (table : Users) : Loading (startLoad table) :=
  ⟨List.nodup_nil, fun _ => nofun, nofun, Grouping.Groups.nil⟩

theorem Loading.addBatch (h : Loading load) (hover : load.isOver = false)
    : (load.addBatch.users.map User.id).Nodup ∧ (∀ user ∈ load.addBatch.users, user.hasIp = true) ∧
        Grouping.Groups User.routerIp load.addBatch.users load.addBatch.ipGroups := by
  refine ⟨?_, ?_, h.groups.foldl_add load.nextBatch⟩
  . unfold Load.addBatch
    dsimp only
    rw [List.map_append, List.nodup_append]
    refine ⟨h.nodup, Keyset.page_nodup load.table.ids_nodup, ?_⟩
    intro id hid id' hid' heq
    rcases List.mem_map.mp hid with ⟨user, huser, rfl⟩
    rcases List.mem_map.mp hid' with ⟨user', huser', rfl⟩
    have hle := h.upTo hover user huser
    have hlt := (Keyset.mem_of_mem_page huser').2.2
    omega
  . intro user huser
    cases List.mem_append.mp huser with
    | inl hold => exact h.hasIp user hold
    | inr hnew => exact (Keyset.mem_of_mem_page hnew).2.1

theorem Loading.moves (h : Loading load) (hover : load.isOver = false) (hmoves : Load.Moves load load')
    : Loading load' := by
  cases hmoves with
  | tableChanged table => exact ⟨h.nodup, h.upTo, h.hasIp, h.groups⟩
  | lastRead hshort =>
    rcases h.addBatch hover with ⟨hnodup, hhasIp, hgroups⟩
    exact ⟨hnodup, nofun, hhasIp, hgroups⟩
  | pageRead last hlast =>
    rcases h.addBatch hover with ⟨hnodup, hhasIp, hgroups⟩
    refine ⟨hnodup, ?_, hhasIp, hgroups⟩
    intro _ user huser
    cases List.mem_append.mp huser with
    | inl hold =>
      have hle := h.upTo hover user hold
      have hlt := (Keyset.mem_of_mem_page (List.mem_of_getLast? hlast)).2.2
      exact Nat.le_of_lt (Nat.lt_of_le_of_lt hle hlt)
    | inr hnew => exact Keyset.key_le_last load.table.ids_nodup hnew hlast

theorem covers_startLoad {table : Users} (hhasIp : table.HasIp id) : Covers id (startLoad table) := by
  rcases hhasIp with ⟨user, huser, rfl, _⟩
  intro hle
  exact absurd (hle rfl) (Nat.not_le_of_gt (table.ids_pos user huser))

theorem mem_addBatch_of_mem (h : id ∈ load.users.map User.id) : id ∈ load.addBatch.users.map User.id := by
  unfold Load.addBatch
  dsimp only
  rw [List.map_append]
  exact List.mem_append_left _ h

theorem Covers.moves (h : Covers id load) (hover : load.isOver = false) (hhasIp : load.table.HasIp id)
    (hmoves : Load.Moves load load') : Covers id load' := by
  have hpage (hafter : load.afterId < id)
      : id ∈ load.addBatch.users.map User.id ∨
          (load.nextBatch.length = batchLimit ∧ ∀ user ∈ load.nextBatch, user.id < id) := by
    rcases hhasIp with ⟨user, huser, rfl, hmatch⟩
    refine (Keyset.mem_page_or_after load.table.ids_nodup huser hmatch hafter).imp_left ?_
    intro hmem
    exact List.mem_map_of_mem (List.mem_append_right load.users hmem)
  have hcover (hnext : load.afterId < id → id ∈ load.addBatch.users.map User.id)
      : id ∈ load.addBatch.users.map User.id := by
    cases Nat.lt_or_ge load.afterId id with
    | inl hafter => exact hnext hafter
    | inr hle => exact mem_addBatch_of_mem (h fun _ => hle)
  cases hmoves with
  | tableChanged table => exact h
  | lastRead hshort =>
    intro _
    apply hcover
    intro hafter
    cases hpage hafter with
    | inl hmem => exact hmem
    | inr hfull => omega
  | pageRead last hlast =>
    intro hle
    apply hcover
    intro hafter
    cases hpage hafter with
    | inl hmem => exact hmem
    | inr hfull =>
      have hlt := hfull.2 last (List.mem_of_getLast? hlast)
      exact absurd (hle hover) (Nat.not_le_of_gt hlt)

theorem Covers.mem (h : Covers id load) (hover : load.isOver = true) : id ∈ load.users.map User.id := by
  apply h
  intro hnot
  rw [hover] at hnot
  cases hnot

end Loading

/--
No page repeats a user of an earlier one. The table never holds a `telegram_id` twice, but a user that registers
anew between two pages has another id.
-/
def LoadsNoUserTwice (load : Load) (e : LoadEvent) : Prop :=
  match e with
  | .tableChanged _ => True
  | .pageRead => ∀ user ∈ load.nextBatch, ∀ user' ∈ load.users, user.telegramId ≠ user'.telegramId

instance (load : Load) (e : LoadEvent) : Decidable (LoadsNoUserTwice load e) :=
  match e with
  | .tableChanged _ => isTrue trivial
  | .pageRead =>
    inferInstanceAs (Decidable (∀ user ∈ load.nextBatch, ∀ user' ∈ load.users, user.telegramId ≠ user'.telegramId))

theorem users_pageRead (load : Load) : load.pageRead.users = load.users ++ load.nextBatch := by
  unfold Load.pageRead
  dsimp only
  split
  . next hbatch => rw [show load.nextBatch = [] from hbatch, List.append_nil]
  . split
    . rfl
    . rfl

theorem nodup_step_iff {load load' : Load} {e : LoadEvent} (hstep : load.step e = some load')
    : (load'.users.map User.telegramId).Nodup
        ↔
      (load.users.map User.telegramId).Nodup ∧ LoadsNoUserTwice load e := by
  unfold Load.step at hstep
  split at hstep
  . cases hstep
  . cases e with
    | tableChanged table =>
      cases hstep
      exact (and_iff_left trivial).symm
    | pageRead =>
      cases hstep
      have hbatch : (load.nextBatch.map User.telegramId).Nodup := Keyset.page_map_nodup load.table.telegramIds_nodup
      rw [users_pageRead, List.map_append, List.nodup_append]
      refine and_congr_right fun _ => ?_
      rw [and_iff_right hbatch]
      unfold LoadsNoUserTwice
      constructor
      . intro hne user huser user' huser' heq
        exact hne _ (List.mem_map_of_mem huser') _ (List.mem_map_of_mem huser) heq.symm
      . intro hne tid htid tid' htid' heq
        rcases List.mem_map.mp htid with ⟨user', huser', rfl⟩
        rcases List.mem_map.mp htid' with ⟨user, huser, rfl⟩
        exact hne user huser user' huser' heq.symm

theorem nodup_run_iff {load load' : Load} {es : List LoadEvent} (hrun : Run.exec Load.step load es = some load')
    : (load'.users.map User.telegramId).Nodup
        ↔
      (load.users.map User.telegramId).Nodup ∧ Run.StepsMeet Load.step LoadsNoUserTwice load es := by
  induction es generalizing load with
  | nil =>
    cases hrun
    exact (and_iff_left trivial).symm
  | cons e es ih =>
    rcases Run.exec_cons_eq_some.mp hrun with ⟨load₁, hstep, hrest⟩
    rw [ih hrest, nodup_step_iff hstep, and_assoc]
    refine and_congr_right fun _ => and_congr_right fun _ => ?_
    constructor
    . intro hmeet load₂ hstep₂
      obtain rfl : load₁ = load₂ := Option.some.inj (hstep ▸ hstep₂)
      exact hmeet
    . intro hmeet
      exact hmeet load₁ hstep

theorem loading_of_run {table : Users} {es : List LoadEvent} {load : Load}
    (hrun : Run.exec Load.step (startLoad table) es = some load) : Loading load := by
  refine Run.invariant' ?_ (loading_startLoad table) hrun
  intro load load' e h hstep
  rcases Load.moves_of_step hstep with ⟨hover, hmoves⟩
  exact h.moves hover hmoves

theorem covers_of_run {table : Users} {es : List LoadEvent} {load : Load} {id : Nat}
    (hhasIp : Run.Always Load.step (fun load => load.table.HasIp id) (startLoad table) es)
    (hrun : Run.exec Load.step (startLoad table) es = some load) : Covers id load := by
  refine Run.invariant (C := fun load _ => load.table.HasIp id) ?_ (covers_startLoad hhasIp.head)
    hhasIp.stepsMeet hrun
  intro load load' e h hmatch hstep
  rcases Load.moves_of_step hstep with ⟨hover, hmoves⟩
  exact h.moves hover hmatch hmoves

end CheckAllIps
end PowerMonitor
