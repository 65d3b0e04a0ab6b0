import Mathlib.Data.List.Nodup
import VoltykBot.Handlers.UserRows
import VoltykBot.Lib.Sessions

/-!
This module shows that each user who is registered has exactly one row in each of the tables of relations, whatever
sessions register and delete users at the same time.
-/

namespace UserRows

def Write.IsInsert (write : Write) : Prop :=
  match write with
  | .insertUser _ => True
  | .insertRelated _ => True
  | _ => False

def Write.IsDelete (write : Write) : Prop :=
  match write with
  | .deleteRelated _ => True
  | .deleteUser _ => True
  | _ => False

structure Balanced (writes : List Write) : Prop where
  inserted : ∀ user, .insertUser user ∈ writes → ∀ relation, .insertRelated ⟨relation, user.id⟩ ∈ writes
  deleted : ∀ key, .deleteRelated key ∈ writes → .deleteUser key.userId ∈ writes
  apart : (∀ write ∈ writes, ¬ write.IsDelete) ∨ ∀ write ∈ writes, ¬ write.IsInsert

/--
Whatever its statements find, a session that has written `writes` comes to its end with writes that are balanced. The
user of a row that it has deleted is still there.
-/
def Sound (writes : List Write) (program : Program) : Prop :=
  match program with
  | .done => Balanced writes
  | .getUser _ next => ∀ user, Sound writes (next user)
  | .getRelated _ next => ∀ there, Sound writes (next there)
  | .insertUser telegramId next => ∀ id, Sound (writes ++ [.insertUser ⟨id, telegramId⟩]) (next id)
  | .updateUser id next => Sound (writes ++ [.updateUser id]) next
  | .insertRelated key next => Sound (writes ++ [.insertRelated key]) next
  | .deleteRelated key next => Sound writes next ∧ Sound (writes ++ [.deleteRelated key]) next
  | .deleteUser id next =>
    ((∀ key, .deleteRelated key ∈ writes → key.userId ≠ id) → Sound writes next) ∧
      Sound (writes ++ [.deleteUser id]) next

theorem sound_loadRelations {writes : List Write} {id : Nat} {next : List Relation → Program} (rest : List Relation)
    (hnext : ∀ loaded, Sound writes (next loaded)) : Sound writes (loadRelations id rest next) := by
  induction rest generalizing next with
  | nil => exact hnext []
  | cons relation rest ih =>
    intro there
    exact ih fun loaded => hnext _

theorem sound_getUserByTelegramId {writes : List Write} {next : Option (Nat × List Relation) → Program}
    (telegramId : String) (hnext : ∀ user, Sound writes (next user))
    : Sound writes (getUserByTelegramId telegramId next) := by
  intro user
  cases user with
  | none => exact hnext none
  | some id => exact sound_loadRelations relations fun loaded => hnext (some (id, loaded))

theorem sound_insertRows {writes : List Write} {id : Nat} (missing : List Relation)
    (hbalanced : Balanced (writes ++ missing.map fun relation => .insertRelated ⟨relation, id⟩))
    : Sound writes (insertRows id missing) := by
  induction missing generalizing writes with
  | nil =>
    rw [List.map_nil, List.append_nil] at hbalanced
    exact hbalanced
  | cons relation missing ih =>
    apply ih
    rw [List.append_assoc]
    exact hbalanced

theorem sound_deleteRows {writes : List Write} {id : Nat} (loaded : List Relation)
    (hwrites : ∀ write ∈ writes, ∃ relation, write = .deleteRelated ⟨relation, id⟩)
    : Sound writes (loaded.foldr (fun relation next => .deleteRelated ⟨relation, id⟩ next) (.deleteUser id .done)) := by
  induction loaded generalizing writes with
  | nil =>
    constructor
    . intro hnone
      have hnil : writes = [] := by
        rw [List.eq_nil_iff_forall_not_mem]
        intro write hwrite
        rcases hwrites write hwrite with ⟨relation, rfl⟩
        exact hnone _ hwrite rfl
      rw [hnil]
      exact ⟨nofun, nofun, Or.inl nofun⟩
    . have hdeletes : ∀ write ∈ writes ++ [.deleteUser id], ¬ write.IsInsert := by
        intro write hwrite
        rcases List.mem_append.mp hwrite with hold | hnew
        . rcases hwrites write hold with ⟨relation, rfl⟩
          exact not_false
        . rw [List.mem_singleton.mp hnew]
          exact not_false
      refine ⟨?_, ?_, Or.inr hdeletes⟩
      . intro user huser
        exact absurd trivial (hdeletes _ huser)
      . intro key hkey
        rcases List.mem_append.mp hkey with hold | hnew
        . rcases hwrites _ hold with ⟨relation, heq⟩
          rw [Write.deleteRelated.inj heq]
          exact List.mem_append_right _ List.mem_cons_self
        . cases List.mem_singleton.mp hnew
  | cons relation loaded ih =>
    refine ⟨ih hwrites, ih ?_⟩
    intro write hwrite
    rcases List.mem_append.mp hwrite with hold | hnew
    . exact hwrites write hold
    . exact ⟨relation, List.mem_singleton.mp hnew⟩

theorem mem_relations (relation : Relation) : relation ∈ relations := by
  cases relation with
  | _ => decide

theorem not_isDelete_insertRows (first : Write) (hfirst : ¬ first.IsDelete) (missing : List Relation) (id : Nat)
    : ∀ write ∈ [] ++ [first] ++ missing.map fun relation => Write.insertRelated ⟨relation, id⟩,
        ¬ write.IsDelete := by
  intro write hwrite
  rw [List.nil_append, List.mem_append, List.mem_singleton, List.mem_map] at hwrite
  rcases hwrite with rfl | ⟨relation, _, rfl⟩
  . exact hfirst
  . exact not_false

theorem sound_program (call : Call) : Sound [] call.program := by
  cases call with
  | createOrUpdateUser telegramId =>
    unfold Call.program createOrUpdateUser
    apply sound_getUserByTelegramId
    intro user
    cases user with
    | none =>
      intro id
      apply sound_insertRows
      refine ⟨?_, ?_, Or.inl (not_isDelete_insertRows (.insertUser ⟨id, telegramId⟩) not_false relations id)⟩
      all_goals simp [mem_relations]
    | some user =>
      apply sound_insertRows
      refine ⟨?_, ?_, Or.inl (not_isDelete_insertRows (.updateUser user.1) not_false _ user.1)⟩
      all_goals simp
  | deleteUserData telegramId =>
    unfold Call.program deleteUserData
    apply sound_getUserByTelegramId
    intro user
    cases user with
    | none => exact ⟨nofun, nofun, Or.inl nofun⟩
    | some user => exact sound_deleteRows user.2 nofun

def Write.newUser (write : Write) : Option User :=
  match write with
  | .insertUser user => some user
  | _ => none

def Write.newRelated (write : Write) : Option Key :=
  match write with
  | .insertRelated key => some key
  | _ => none

theorem mem_newUsers {writes : List Write} {user : User}
    : user ∈ writes.filterMap Write.newUser ↔ .insertUser user ∈ writes := by
  rw [List.mem_filterMap]
  constructor
  . rintro ⟨write, hwrite, hnew⟩
    unfold Write.newUser at hnew
    split at hnew
    . rw [← Option.some.inj hnew]
      exact hwrite
    . cases hnew
  . exact fun hwrite => ⟨_, hwrite, rfl⟩

theorem mem_newRelated {writes : List Write} {key : Key}
    : key ∈ writes.filterMap Write.newRelated ↔ .insertRelated key ∈ writes := by
  rw [List.mem_filterMap]
  constructor
  . rintro ⟨write, hwrite, hnew⟩
    unfold Write.newRelated at hnew
    split at hnew
    . rw [← Option.some.inj hnew]
      exact hwrite
    . cases hnew
  . exact fun hwrite => ⟨_, hwrite, rfl⟩

theorem foldl_apply_inserts {writes : List Write} (h : ∀ write ∈ writes, ¬ write.IsDelete) (tables : Tables)
    : writes.foldl Write.apply tables =
        ⟨tables.users ++ writes.filterMap Write.newUser, tables.related ++ writes.filterMap Write.newRelated⟩ := by
  induction writes generalizing tables with
  | nil => rw [List.filterMap_nil, List.filterMap_nil, List.append_nil, List.append_nil, List.foldl_nil]
  | cons write writes ih =>
    rw [List.forall_mem_cons] at h
    rw [List.foldl_cons, ih h.2]
    cases write with
    | insertUser user => simp [List.filterMap_cons, Write.apply, Write.newUser, Write.newRelated]
    | updateUser id => simp [List.filterMap_cons, Write.apply, Write.newUser, Write.newRelated]
    | insertRelated key => simp [List.filterMap_cons, Write.apply, Write.newUser, Write.newRelated]
    | deleteRelated key => exact absurd trivial h.1
    | deleteUser id => exact absurd trivial h.1

theorem mem_users_deletes {writes : List Write} (h : ∀ write ∈ writes, ¬ write.IsInsert) {tables : Tables} {user : User}
    : user ∈ (writes.foldl Write.apply tables).users ↔ user ∈ tables.users ∧ .deleteUser user.id ∉ writes := by
  induction writes generalizing tables with
  | nil => exact (and_iff_left nofun).symm
  | cons write writes ih =>
    rw [List.forall_mem_cons] at h
    rw [List.foldl_cons, ih h.2]
    cases write with
    | insertUser user => exact absurd trivial h.1
    | updateUser id => simp [Write.apply]
    | insertRelated key => exact absurd trivial h.1
    | deleteRelated key => simp [Write.apply]
    | deleteUser id => simp [Write.apply, and_assoc]

theorem mem_related_deletes {writes : List Write} (h : ∀ write ∈ writes, ¬ write.IsInsert) {tables : Tables} {key : Key}
    : key ∈ (writes.foldl Write.apply tables).related ↔
        key ∈ tables.related ∧ .deleteRelated key ∉ writes ∧ .deleteUser key.userId ∉ writes := by
  induction writes generalizing tables with
  | nil => exact (and_iff_left ⟨nofun, nofun⟩).symm
  | cons write writes ih =>
    rw [List.forall_mem_cons] at h
    rw [List.foldl_cons, ih h.2]
    cases write with
    | insertUser user => exact absurd trivial h.1
    | updateUser id => simp [Write.apply]
    | insertRelated key => exact absurd trivial h.1
    | deleteRelated other => simp [Write.apply, and_assoc]
    | deleteUser id =>
      simp only [Write.apply, List.mem_filter, decide_eq_true_eq, List.mem_cons, not_or, Write.deleteUser.injEq,
        reduceCtorEq, not_false_eq_true, true_and]
      tauto

theorem sublist_deletes {writes : List Write} (h : ∀ write ∈ writes, ¬ write.IsInsert) (tables : Tables)
    : (writes.foldl Write.apply tables).users.Sublist tables.users ∧
        (writes.foldl Write.apply tables).related.Sublist tables.related := by
  induction writes generalizing tables with
  | nil => exact ⟨List.Sublist.refl _, List.Sublist.refl _⟩
  | cons write writes ih =>
    rw [List.forall_mem_cons] at h
    rw [List.foldl_cons]
    rcases ih h.2 (write.apply tables) with ⟨husers, hrelated⟩
    cases write with
    | insertUser user => exact absurd trivial h.1
    | updateUser id => exact ⟨husers, hrelated⟩
    | insertRelated key => exact absurd trivial h.1
    | deleteRelated key => exact ⟨husers, hrelated.trans List.filter_sublist⟩
    | deleteUser id => exact ⟨husers.trans List.filter_sublist, hrelated.trans List.filter_sublist⟩

namespace Tables

variable (tables : Tables)

def HasUser (id : Nat) : Prop := ∃ user ∈ tables.users, user.id = id

def Complete (id : Nat) : Prop := ∀ relation, ⟨relation, id⟩ ∈ tables.related

structure Consistent : Prop where
  users : tables.users.Pairwise fun a b => a.id ≠ b.id ∧ a.telegramId ≠ b.telegramId
  related : tables.related.Nodup
  owned : ∀ key ∈ tables.related, tables.HasUser key.userId

end Tables

def Fits (tables : Tables) (nextId : Nat) (writes : List Write) (x : Write) : Prop :=
  match x with
  | .insertUser user =>
    user.id < nextId ∧ ∀ other ∈ tables.users, other.id ≠ user.id ∧ other.telegramId ≠ user.telegramId
  | .updateUser _ => True
  | .insertRelated key =>
    key ∉ tables.related ∧ (tables.HasUser key.userId ∨ ∃ user, .insertUser user ∈ writes ∧ user.id = key.userId)
  | .deleteRelated key => tables.HasUser key.userId
  | .deleteUser id => tables.HasUser id

structure Own (tables : Tables) (nextId : Nat) (session : Session) : Prop where
  fits : ∀ x ∈ session.writes, Fits tables nextId session.writes x
  unique : session.writes.Pairwise fun x y => x.duplicates y = false
  sound : Sound session.writes session.program

def Apart (a b : Session) : Prop := ∀ x ∈ a.writes, ∀ y ∈ b.writes, x.waits y = false

/--
`lacking` are the users who may lack rows.
-/
structure Inv (lacking : Nat → Prop) (db : Database) : Prop where
  consistent : db.tables.Consistent
  below : ∀ user ∈ db.tables.users, user.id < db.nextId
  complete : ∀ user ∈ db.tables.users, ¬ lacking user.id → db.tables.Complete user.id
  sessions : Sessions.Keep (Own db.tables db.nextId) Apart db.sessions

section

variable {lacking : Nat → Prop} {db db' : Database} {i : Nat} {session session' : Session} {x y : Write}
  {write : Option Write}

theorem duplicates_comm (x y : Write) : x.duplicates y = y.duplicates x := by
  cases x with
  | _ =>
    cases y with
    | _ => simp [Write.duplicates, eq_comm]

theorem waits_comm (x y : Write) : x.waits y = y.waits x := by
  cases x with
  | deleteUser id =>
    cases y with
    | deleteUser id' => exact decide_eq_decide.mpr eq_comm
    | _ => rfl
  | _ =>
    cases y with
    | deleteUser id' => rfl
    | _ => simp [Write.waits, duplicates_comm, eq_comm]

theorem duplicates_of_waits (h : x.waits y = false) : x.duplicates y = false := by
  cases x with
  | insertUser user =>
    cases y with
    | insertUser user' => exact h
    | _ => rfl
  | insertRelated key =>
    cases y with
    | insertRelated key' => exact h
    | _ => rfl
  | _ => rfl

theorem apart_comm {a b : Session} (h : Apart a b) : Apart b a := by
  intro x hx y hy
  rw [waits_comm]
  exact h y hy x hx

theorem isFree_iff
    : db.isFree i x = true ↔ ∀ other ∈ db.sessions.eraseIdx i, ∀ y ∈ other.writes, x.waits y = false := by
  unfold Database.isFree
  simp only [List.all_eq_true, Bool.not_eq_true']

theorem hasUser_iff {id : Nat}
    : db.hasUser session id = true ↔
        db.tables.HasUser id ∨ ∃ user, .insertUser user ∈ session.writes ∧ user.id = id := by
  unfold Database.hasUser Tables.HasUser
  rw [Bool.or_eq_true, List.any_eq_true, List.any_eq_true]
  constructor
  . rintro (⟨user, huser, hid⟩ | ⟨write, hwrite, hid⟩)
    . exact Or.inl ⟨user, huser, of_decide_eq_true hid⟩
    . split at hid
      . next user => exact Or.inr ⟨user, hwrite, of_decide_eq_true hid⟩
      . cases hid
  . rintro (⟨user, huser, hid⟩ | ⟨user, hwrite, hid⟩)
    . exact Or.inl ⟨user, huser, decide_eq_true hid⟩
    . exact Or.inr ⟨_, hwrite, decide_eq_true hid⟩

structure Executed (db : Database) (i : Nat) (session session' : Session) (write : Option Write) : Prop where
  writes : session'.writes = session.writes
  free : ∀ x, write = some x → db.isFree i x = true
  fits : ∀ x, write = some x → Fits db.tables (db.wrote i session' write).nextId session.writes x
  unique : ∀ x, write = some x → ∀ y ∈ session.writes, x.duplicates y = false
  sound : Sound (session.writes ++ write.toList) session'.program

theorem executed_none {program : Program} (hsound : Sound session.writes program)
    : Executed db i session { session with program } none := by
  refine ⟨rfl, nofun, nofun, nofun, ?_⟩
  rw [Option.toList_none, List.append_nil]
  exact hsound

theorem executed_some {program : Program} (hfree : db.isFree i x = true)
    (hfits : Fits db.tables (db.wrote i session (some x)).nextId session.writes x)
    (hunique : ∀ y ∈ session.writes, x.duplicates y = false) (hsound : Sound (session.writes ++ [x]) program)
    : Executed db i session { session with program } (some x) := by
  refine ⟨rfl, ?_, ?_, ?_, hsound⟩
  . rintro _ ⟨⟩
    exact hfree
  . rintro _ ⟨⟩
    exact hfits
  . rintro _ ⟨⟩
    exact hunique

theorem Inv.executed (h : Inv lacking db) (hsession : db.sessions[i]? = some session)
    (hexecute : db.execute i session = some (session', write)) : Executed db i session session' write := by
  have hown := h.sessions.own_of_getElem? hsession
  have hsound := hown.sound
  unfold Database.execute at hexecute
  unfold Sound at hsound
  cases hprogram : session.program with
  | done =>
    rw [hprogram] at hexecute
    cases hexecute
  | getUser telegramId next =>
    rw [hprogram] at hexecute hsound
    cases hexecute
    exact executed_none (hsound _)
  | getRelated key next =>
    rw [hprogram] at hexecute hsound
    cases hexecute
    exact executed_none (hsound _)
  | insertUser telegramId next =>
    rw [hprogram] at hexecute hsound
    dsimp only at hexecute
    rw [Option.ite_none_right_eq_some, Bool.and_eq_true] at hexecute
    rcases hexecute with ⟨⟨hfree, hunique⟩, heq⟩
    cases heq
    unfold Database.isUnique at hunique
    rw [Bool.and_eq_true, List.all_eq_true, List.all_eq_true] at hunique
    apply executed_some hfree
    . refine ⟨Nat.lt_succ_self _, ?_⟩
      intro other hother
      exact of_decide_eq_true (hunique.2 other hother)
    . intro y hy
      simpa using hunique.1 y hy
    . exact hsound _
  | updateUser id next =>
    rw [hprogram] at hexecute hsound
    dsimp only at hexecute
    rw [Option.ite_none_right_eq_some, Bool.and_eq_true] at hexecute
    rcases hexecute with ⟨⟨hfree, _⟩, heq⟩
    cases heq
    exact executed_some hfree trivial (fun _ _ => rfl) hsound
  | insertRelated key next =>
    rw [hprogram] at hexecute hsound
    dsimp only at hexecute
    rw [Option.ite_none_right_eq_some, Bool.and_eq_true, Bool.and_eq_true] at hexecute
    rcases hexecute with ⟨⟨⟨hfree, hunique⟩, huser⟩, heq⟩
    cases heq
    unfold Database.isUnique at hunique
    rw [Bool.and_eq_true, List.all_eq_true] at hunique
    apply executed_some hfree
    . exact ⟨of_decide_eq_true hunique.2, hasUser_iff.mp huser⟩
    . intro y hy
      simpa using hunique.1 y hy
    . exact hsound
  | deleteRelated key next =>
    rw [hprogram] at hexecute hsound
    dsimp only at hexecute
    split at hexecute
    . cases hexecute
      exact executed_none hsound.1
    . next hthere =>
      rw [Option.ite_none_right_eq_some] at hexecute
      rcases hexecute with ⟨hfree, heq⟩
      cases heq
      exact executed_some hfree (h.consistent.owned key (not_not.mp hthere)) (fun _ _ => rfl) hsound.2
  | deleteUser id next =>
    rw [hprogram] at hexecute hsound
    dsimp only at hexecute
    split at hexecute
    . next hgone =>
      cases hexecute
      apply executed_none
      apply hsound.1
      intro key hkey heq
      rcases hown.fits _ hkey with ⟨user, huser, hid⟩
      exact of_decide_eq_true (List.all_eq_true.mp hgone user huser) (hid.trans heq)
    . next hthere =>
      rw [Option.ite_none_right_eq_some] at hexecute
      rcases hexecute with ⟨hfree, heq⟩
      cases heq
      refine executed_some hfree ?_ (fun _ _ => rfl) hsound.2
      rw [List.all_eq_true] at hthere
      simpa [Tables.HasUser, Fits] using hthere

theorem Fits.mono {tables : Tables} {nextId nextId' : Nat} {writes writes' : List Write}
    (h : Fits tables nextId writes x) (hle : nextId ≤ nextId') (hsub : writes ⊆ writes')
    : Fits tables nextId' writes' x := by
  cases x with
  | insertUser user => exact ⟨Nat.lt_of_lt_of_le h.1 hle, h.2⟩
  | insertRelated key =>
    refine ⟨h.1, h.2.imp_right ?_⟩
    rintro ⟨user, huser, hid⟩
    exact ⟨user, hsub huser, hid⟩
  | updateUser id => exact h
  | deleteRelated key => exact h
  | deleteUser id => exact h

theorem nextId_le_wrote : db.nextId ≤ (db.wrote i session write).nextId := by
  unfold Database.wrote
  dsimp only
  split
  . exact Nat.le_succ _
  . exact Nat.le_refl _

theorem Inv.of_set (h : Inv lacking db) (hconsistent : db'.tables.Consistent)
    (hbelow : ∀ user ∈ db'.tables.users, user.id < db'.nextId)
    (hcomplete : ∀ user ∈ db'.tables.users, ¬ lacking user.id → db'.tables.Complete user.id)
    (hsessions : db'.sessions = db.sessions.set i session) (hown : Own db'.tables db'.nextId session)
    (hapart : ∀ other ∈ db.sessions.eraseIdx i, Apart session other)
    (hothers : ∀ other ∈ db.sessions.eraseIdx i, Own db.tables db.nextId other →
      ∀ x ∈ other.writes, Fits db'.tables db'.nextId other.writes x) : Inv lacking db' := by
  refine ⟨hconsistent, hbelow, hcomplete, ?_⟩
  rw [hsessions]
  refine h.sessions.set apart_comm hown ?_ hapart
  intro other hother hownOther
  exact ⟨hothers other hother hownOther, hownOther.unique, hownOther.sound⟩

theorem Inv.setSession (h : Inv lacking db) (htables : db'.tables = db.tables) (hnextId : db.nextId ≤ db'.nextId)
    (hsessions : db'.sessions = db.sessions.set i session) (hown : Own db'.tables db'.nextId session)
    (hapart : ∀ other ∈ db.sessions.eraseIdx i, Apart session other) : Inv lacking db' := by
  refine h.of_set (htables ▸ h.consistent) ?_ ?_ hsessions hown hapart ?_
  . intro user huser
    exact Nat.lt_of_lt_of_le (h.below user (htables ▸ huser)) hnextId
  . rw [htables]
    exact h.complete
  . intro other _ hother x hx
    rw [htables]
    exact (hother.fits x hx).mono hnextId (List.Subset.refl _)

theorem Inv.wrote (h : Inv lacking db) (hsession : db.sessions[i]? = some session)
    (hexecuted : Executed db i session session' write) : Inv lacking (db.wrote i session' write) := by
  have hold := h.sessions.own_of_getElem? hsession
  refine h.setSession rfl nextId_le_wrote rfl ⟨?_, ?_, ?_⟩ ?_
  . intro x hx
    dsimp only at hx ⊢
    rw [hexecuted.writes] at hx ⊢
    rcases List.mem_append.mp hx with hx | hx
    . exact (hold.fits x hx).mono nextId_le_wrote (List.subset_append_left _ _)
    . have hfits := hexecuted.fits x (Option.mem_toList.mp hx)
      exact hfits.mono (Nat.le_refl _) (List.subset_append_left _ _)
  . dsimp only
    rw [hexecuted.writes, List.pairwise_append]
    refine ⟨hold.unique, ?_, ?_⟩
    . cases write with
      | none => exact .nil
      | some x => exact List.pairwise_singleton _ x
    . intro y hy x hx
      rw [duplicates_comm]
      exact hexecuted.unique x (Option.mem_toList.mp hx) y hy
  . dsimp only
    rw [hexecuted.writes]
    exact hexecuted.sound
  . intro other hother x hx
    dsimp only at hx
    rw [hexecuted.writes] at hx
    rcases List.mem_append.mp hx with hx | hx
    . exact h.sessions.apart_others apart_comm hsession other hother x hx
    . exact isFree_iff.mp (hexecuted.free x (Option.mem_toList.mp hx)) other hother

theorem own_ended (tables : Tables) (nextId : Nat) : Own tables nextId .ended :=
  ⟨nofun, .nil, ⟨nofun, nofun, Or.inl nofun⟩⟩

theorem Inv.rolledBack (h : Inv lacking db) (i : Nat) : Inv lacking (db.setSession i .ended) :=
  h.setSession rfl (Nat.le_refl _) rfl (own_ended _ _) fun _ _ => nofun

theorem Inv.called (h : Inv lacking db) (call : Call)
    : Inv lacking { db with sessions := db.sessions ++ [{ program := call.program }] } := by
  refine ⟨h.consistent, h.below, h.complete, h.sessions.concat ⟨nofun, .nil, sound_program call⟩ ?_⟩
  exact fun _ _ _ _ => nofun

theorem of_newUser {user : User} (h : x.newUser = some user) : x = .insertUser user := by
  unfold Write.newUser at h
  split at h
  . rw [Option.some.inj h]
  . cases h

theorem of_newRelated {key : Key} (h : x.newRelated = some key) : x = .insertRelated key := by
  unfold Write.newRelated at h
  split at h
  . rw [Option.some.inj h]
  . cases h

theorem apart_users {user user' : User} (h : (Write.insertUser user).duplicates (.insertUser user') = false)
    : user.id ≠ user'.id ∧ user.telegramId ≠ user'.telegramId := not_or.mp (of_decide_eq_false h)

theorem Tables.HasUser.append {tables : Tables} {id : Nat} (h : tables.HasUser id) (users : List User)
    (related : List Key) : Tables.HasUser ⟨tables.users ++ users, related⟩ id := by
  rcases h with ⟨user, huser, hid⟩
  exact ⟨user, List.mem_append_left _ huser, hid⟩

theorem Inv.commitInserts (h : Inv lacking db) (hsession : db.sessions[i]? = some session)
    (hbalanced : Balanced session.writes) (hinserts : ∀ write ∈ session.writes, ¬ write.IsDelete)
    : Inv lacking {
        tables := session.writes.foldl Write.apply db.tables
        nextId := db.nextId
        sessions := db.sessions.set i .ended } := by
  have hown := h.sessions.own_of_getElem? hsession
  rw [foldl_apply_inserts hinserts]
  refine h.of_set ⟨?_, ?_, ?_⟩ ?_ ?_ rfl (own_ended _ _) (fun _ _ => nofun) ?_
  . rw [List.pairwise_append, List.pairwise_filterMap]
    refine ⟨h.consistent.users, hown.unique.imp ?_, ?_⟩
    . intro x y hunique a ha b hb
      rw [of_newUser ha, of_newUser hb] at hunique
      exact apart_users hunique
    . intro old hold new hnew
      exact (hown.fits _ (mem_newUsers.mp hnew)).2 old hold
  . rw [List.nodup_append, List.Nodup, List.pairwise_filterMap]
    refine ⟨h.consistent.related, hown.unique.imp ?_, ?_⟩
    . intro x y hunique a ha b hb
      rw [of_newRelated ha, of_newRelated hb] at hunique
      exact of_decide_eq_false hunique
    . rintro old hold new hnew rfl
      exact (hown.fits _ (mem_newRelated.mp hnew)).1 hold
  . intro key hkey
    rcases List.mem_append.mp hkey with hold | hnew
    . exact (h.consistent.owned key hold).append _ _
    . rcases (hown.fits _ (mem_newRelated.mp hnew)).2 with hthere | ⟨user, huser, hid⟩
      . exact hthere.append _ _
      . exact ⟨user, List.mem_append_right _ (mem_newUsers.mpr huser), hid⟩
  . intro user huser
    rcases List.mem_append.mp huser with hold | hnew
    . exact h.below user hold
    . exact (hown.fits _ (mem_newUsers.mp hnew)).1
  . intro user huser hlacking relation
    rcases List.mem_append.mp huser with hold | hnew
    . exact List.mem_append_left _ (h.complete user hold hlacking relation)
    . exact List.mem_append_right _ (mem_newRelated.mpr (hbalanced.inserted user (mem_newUsers.mp hnew) relation))
  . intro other hother hownOther x hx
    have hfits := hownOther.fits x hx
    have hfree (y : Write) (hy : y ∈ session.writes) : x.duplicates y = false :=
      duplicates_of_waits (apart_comm (h.sessions.apart_others apart_comm hsession other hother) x hx y hy)
    cases x with
    | insertUser user =>
      refine ⟨hfits.1, ?_⟩
      intro old hold
      rcases List.mem_append.mp hold with hold | hnew
      . exact hfits.2 old hold
      . rcases apart_users (hfree _ (mem_newUsers.mp hnew)) with ⟨hid, htelegramId⟩
        exact ⟨hid.symm, htelegramId.symm⟩
    | updateUser id => trivial
    | insertRelated key =>
      refine ⟨?_, hfits.2.imp_left fun hthere => hthere.append _ _⟩
      intro hkey
      rcases List.mem_append.mp hkey with hold | hnew
      . exact hfits.1 hold
      . exact of_decide_eq_false (hfree _ (mem_newRelated.mp hnew)) rfl
    | deleteRelated key => exact Tables.HasUser.append hfits _ _
    | deleteUser id => exact Tables.HasUser.append hfits _ _

theorem Inv.commitDeletes (h : Inv lacking db) (hsession : db.sessions[i]? = some session)
    (hbalanced : Balanced session.writes) (hdeletes : ∀ write ∈ session.writes, ¬ write.IsInsert)
    : Inv lacking {
        tables := session.writes.foldl Write.apply db.tables
        nextId := db.nextId
        sessions := db.sessions.set i .ended } := by
  rcases sublist_deletes hdeletes db.tables with ⟨husers, hrelated⟩
  have hstays {id : Nat} (hthere : db.tables.HasUser id) (hkept : .deleteUser id ∉ session.writes)
      : Tables.HasUser (session.writes.foldl Write.apply db.tables) id := by
    rcases hthere with ⟨user, huser, rfl⟩
    exact ⟨user, (mem_users_deletes hdeletes).mpr ⟨huser, hkept⟩, rfl⟩
  refine h.of_set ⟨h.consistent.users.sublist husers, h.consistent.related.sublist hrelated, ?_⟩ ?_ ?_ rfl
    (own_ended _ _) (fun _ _ => nofun) ?_
  . intro key hkey
    rcases (mem_related_deletes hdeletes).mp hkey with ⟨hold, _, hkept⟩
    exact hstays (h.consistent.owned key hold) hkept
  . intro user huser
    exact h.below user (husers.subset huser)
  . intro user huser hlacking relation
    rcases (mem_users_deletes hdeletes).mp huser with ⟨hold, hkept⟩
    refine (mem_related_deletes hdeletes).mpr ⟨h.complete user hold hlacking relation, ?_, hkept⟩
    exact fun hdeleted => hkept (hbalanced.deleted _ hdeleted)
  . intro other hother hownOther x hx
    have hfits := hownOther.fits x hx
    have hkept : .deleteUser x.userId ∉ session.writes := by
      intro hdeleted
      have hfree := h.sessions.apart_others apart_comm hsession other hother _ hdeleted x hx
      exact of_decide_eq_false hfree rfl
    cases x with
    | insertUser user => exact ⟨hfits.1, fun old hold => hfits.2 old (husers.subset hold)⟩
    | updateUser id => trivial
    | insertRelated key =>
      exact ⟨fun hkey => hfits.1 (hrelated.subset hkey), hfits.2.imp_left fun hthere => hstays hthere hkept⟩
    | deleteRelated key => exact hstays hfits hkept
    | deleteUser id => exact hstays hfits hkept

theorem Inv.commit (h : Inv lacking db) (hsession : db.sessions[i]? = some session)
    (hcommit : db.commit i session = some db') : Inv lacking db' := by
  have hsound := (h.sessions.own_of_getElem? hsession).sound
  unfold Database.commit at hcommit
  split at hcommit
  . next hdone =>
    rw [hdone] at hsound
    cases hcommit
    rcases hsound.apart with hinserts | hdeletes
    . exact h.commitInserts hsession hsound hinserts
    . exact h.commitDeletes hsession hsound hdeletes
  . cases hcommit

theorem Inv.step {e : Event} (h : Inv lacking db) (hstep : step db e = some db') : Inv lacking db' := by
  cases e with
  | called call =>
    cases hstep
    exact h.called call
  | advanced i =>
    rcases Option.bind_eq_some_iff.mp hstep with ⟨session, hsession, hstep⟩
    rcases Option.bind_eq_some_iff.mp hstep with ⟨⟨session', write⟩, hexecute, hwrote⟩
    cases hwrote
    exact h.wrote hsession (h.executed hsession hexecute)
  | committed i =>
    rcases Option.bind_eq_some_iff.mp hstep with ⟨session, hsession, hcommit⟩
    exact h.commit hsession hcommit
  | rolledBack i =>
    cases hstep
    exact h.rolledBack i

end

/--
Whichever sessions register and delete users side by side, no telegram id is there twice, no row is left without its
user, and each user has exactly one row in each table, if the users of the start had one.
-/
theorem rows_of_run {tables : Tables} {nextId : Nat} {es : List Event} {db : Database}
    (hconsistent : tables.Consistent) (hbelow : ∀ user ∈ tables.users, user.id < nextId)
    (hrun : Run.exec step { tables, nextId } es = some db)
    : db.tables.Consistent ∧
        ∀ user ∈ db.tables.users, (tables.HasUser user.id → tables.Complete user.id) →
          ∀ relation, db.tables.related.count ⟨relation, user.id⟩ = 1 := by
  let lacking (id : Nat) : Prop := tables.HasUser id ∧ ¬ tables.Complete id
  have hstart : Inv lacking { tables, nextId } := by
    refine ⟨hconsistent, hbelow, ?_, Sessions.keep_nil⟩
    intro user huser hlacking
    exact not_not.mp fun hincomplete => hlacking ⟨⟨user, huser, rfl⟩, hincomplete⟩
  have hlast := Run.invariant' (I := Inv lacking) Inv.step hstart hrun
  refine ⟨hlast.consistent, ?_⟩
  intro user huser hbefore relation
  apply List.count_eq_one_of_mem hlast.consistent.related
  exact hlast.complete user huser (fun h => h.2 (hbefore h.1)) relation

/--
Two sessions register one user, the second of which finds the row of the first one. A third one deletes the user, and
has not committed yet.
-/
def twoRegistrations : List Event := [
  .called (.createOrUpdateUser "777"), .called (.createOrUpdateUser "777"), .advanced 0, .advanced 1, .advanced 0,
  .advanced 0, .advanced 0, .advanced 0, .advanced 0, .committed 0, .rolledBack 1, .called (.deleteUserData "777"),
  .advanced 2, .advanced 2, .advanced 2, .advanced 2, .advanced 2, .advanced 2, .advanced 2]

theorem isSome_twoRegistrations
    : (Run.exec step { tables := ⟨[], []⟩, nextId := 1 } twoRegistrations).isSome = true := by
  decide +kernel

theorem rows_of_run_twoRegistrations
    : ((Run.exec step { tables := ⟨[], []⟩, nextId := 1 } twoRegistrations).get
        isSome_twoRegistrations).tables.related.count ⟨.powerTracking, 1⟩ = 1 := by
  have hrun := (Option.some_get isSome_twoRegistrations).symm
  have hconsistent : Tables.Consistent ⟨[], []⟩ := ⟨.nil, .nil, nofun⟩
  have huser : ⟨1, "777"⟩ ∈ ((Run.exec step { tables := ⟨[], []⟩, nextId := 1 } twoRegistrations).get
      isSome_twoRegistrations).tables.users := by
    decide +kernel
  refine (rows_of_run hconsistent nofun hrun).2 _ huser ?_ .powerTracking
  rintro ⟨user, hnone, _⟩
  cases hnone

end UserRows
