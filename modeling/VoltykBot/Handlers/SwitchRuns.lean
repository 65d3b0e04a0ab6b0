import VoltykBot.Handlers.Switches

/-!
This module contains what the sessions of the buttons keep: settings that belong together stay together, and presses of
different buttons do not undo each other.
-/

namespace Switches

open ColumnUpdate

/--
Both columns of the detection by the router say the same, and each target is one that the bot knows.
-/
structure Settings.WellFormed (settings : Settings) : Prop where
  fact : settings.flags .notifyFactOff = settings.flags .notifyFactOn
  chFact : settings.flags .chNotifyFactOff = settings.flags .chNotifyFactOn
  targets : ∀ target, settings.targets target ∈ allowedTargets

def Assignment.Keeps (assignment : Assignment) : Prop :=
  match assignment with
  | .flags change =>
    (.notifyFactOff ∈ change.writes ↔ .notifyFactOn ∈ change.writes) ∧
      (.chNotifyFactOff ∈ change.writes ↔ .chNotifyFactOn ∈ change.writes)
  | .targets change => ∀ targets, change.value targets ∈ allowedTargets

theorem keeps_nothing : nothing.Keeps := And.intro (by decide) (by decide)

theorem keeps_flip {switch : Switch} {others : List Switch}
    (hfact : .notifyFactOff ∈ switch :: others ↔ .notifyFactOn ∈ switch :: others)
    (hchFact : .chNotifyFactOff ∈ switch :: others ↔ .chNotifyFactOn ∈ switch :: others)
    : (flip switch others).Keeps := And.intro hfact hchFact

theorem keeps_wizardToggleSchedule : wizardToggleSchedule.Keeps := keeps_flip (by decide) (by decide)

theorem keeps_notifToggleDaily0600 : notifToggleDaily0600.Keeps := keeps_flip (by decide) (by decide)

theorem keeps_wizardToggleFact : wizardToggleFact.Keeps := keeps_flip (by decide) (by decide)

theorem keeps_remind (minutes : Option Int) : (flipReminder .remind15m .remind30m .remind1h minutes).Keeps := by
  unfold flipReminder
  split
  . exact keeps_flip (by decide) (by decide)
  . exact keeps_flip (by decide) (by decide)
  . exact keeps_flip (by decide) (by decide)
  . exact keeps_nothing

theorem keeps_chRemind (minutes : Option Int) : (flipReminder .chRemind15m .chRemind30m .chRemind1h minutes).Keeps := by
  unfold flipReminder
  split
  . exact keeps_flip (by decide) (by decide)
  . exact keeps_flip (by decide) (by decide)
  . exact keeps_flip (by decide) (by decide)
  . exact keeps_nothing

theorem mem_of_lookup {β : Type*} {map : List (String × β)} {name : String} {value : β}
    (h : map.lookup name = some value) : (name, value) ∈ map := by
  rcases List.lookup_eq_some_iff.mp h with ⟨before, after, rfl, _⟩
  exact List.mem_append_right _ List.mem_cons_self

theorem keeps_notifToggle (data : String) : (notifToggle data).Keeps := by
  unfold notifToggle
  dsimp only
  split
  . exact keeps_nothing
  . next attr hattr =>
    have hmem := mem_of_lookup hattr
    unfold fieldMap at hmem
    simp only [List.mem_cons, Prod.mk.injEq, List.not_mem_nil, or_false] at hmem
    rcases hmem with ⟨hfield, rfl⟩ | ⟨hfield, rfl⟩ | ⟨hfield, rfl⟩ | ⟨hfield, rfl⟩
    . rw [hfield, if_neg (by decide), if_neg (by decide)]
      exact keeps_flip (by decide) (by decide)
    . rw [hfield, if_pos rfl]
      exact keeps_flip (by decide) (by decide)
    . rw [hfield, if_neg (by decide), if_neg (by decide)]
      exact keeps_flip (by decide) (by decide)
    . rw [hfield, if_neg (by decide), if_pos rfl]
      exact keeps_flip (by decide) (by decide)

theorem keeps_notifTargetSet (data : String) : (notifTargetSet data).Keeps := by
  unfold notifTargetSet
  dsimp only
  split
  . next hallowed =>
    split
    . exact keeps_nothing
    . exact fun _ => hallowed.2
  . exact keeps_nothing

theorem keeps_alertToggle : alertToggle.Keeps := And.intro (by decide) (by decide)

theorem keeps_chNotifHandler (data : String) : (chNotifHandler data).Keeps := by
  unfold chNotifHandler
  dsimp only
  split_ifs
  . exact keeps_flip (by decide) (by decide)
  . exact keeps_flip (by decide) (by decide)
  . exact keeps_flip (by decide) (by decide)
  . exact keeps_chRemind _
  . exact keeps_nothing

theorem keeps_handlers : ∀ handler ∈ handlers, ∀ data, (handler.assignment data).Keeps := by
  unfold handlers
  simp only [List.forall_mem_cons]
  refine ⟨?_, ?_, ?_, ?_, ?_, ?_, ?_, ?_, ?_, ?_, ?_, ?_, ?_, ?_, ?_⟩
  . exact fun _ => keeps_wizardToggleSchedule
  . exact fun _ => keeps_remind _
  . exact fun _ => keeps_wizardToggleFact
  . exact fun _ => keeps_wizardToggleSchedule
  . exact fun _ => keeps_notifToggleDaily0600
  . exact keeps_notifToggle
  . exact fun _ => keeps_remind _
  . exact keeps_notifTargetSet
  . exact fun _ => keeps_alertToggle
  . exact keeps_chNotifHandler
  . exact fun _ => keeps_flip (by decide) (by decide)
  . exact fun _ => keeps_flip (by decide) (by decide)
  . exact fun _ => keeps_flip (by decide) (by decide)
  . exact fun _ => keeps_flip (by decide) (by decide)
  . exact List.forall_mem_nil _

theorem Press.keeps {press : Press} {assignment : Assignment} (h : press.assignment = some assignment)
    : assignment.Keeps := by
  rcases Option.map_eq_some_iff.mp h with ⟨handler, hhandler, rfl⟩
  exact keeps_handlers handler (List.mem_of_find?_eq_some hhandler) press.data

theorem wellFormed_defaults : defaults.WellFormed where
  fact := rfl
  chFact := rfl
  targets _ := List.mem_cons_self

section

variable {settings loaded changed row : Settings} {assignment : Assignment}

theorem Settings.WellFormed.apply (h : settings.WellFormed) (hkeeps : assignment.Keeps)
    : (assignment.apply settings).WellFormed := by
  cases assignment with
  | flags change =>
    exact {
      fact := Change.apply_together hkeeps.1 h.fact
      chFact := Change.apply_together hkeeps.2 h.chFact
      targets := h.targets }
  | targets change =>
    exact {
      fact := h.fact
      chFact := h.chFact
      targets := fun target => Change.apply_meets (hkeeps _) (h.targets target) }

theorem Settings.WellFormed.update (hloaded : loaded.WellFormed) (hchanged : changed.WellFormed)
    (hrow : row.WellFormed) : (loaded.update changed row).WellFormed where
  fact := update_together hloaded.fact hchanged.fact hrow.fact
  chFact := update_together hloaded.chFact hchanged.chFact hrow.chFact
  targets target := update_meets (hchanged.targets target) (hrow.targets target)

end

section

variable {db db' : Database} {e : Event} {es : List Event}

structure Inv (db : Database) : Prop where
  rows : ∀ userId settings, db.rows userId = some settings → settings.WellFormed
  loaded : ∀ session ∈ db.sessions, session.loaded.WellFormed
  keeps : ∀ session ∈ db.sessions, session.assignment.Keeps

theorem wellFormed_of_update {rows : Rows} {userId : Nat} {settings : Option Settings}
    (hrows : ∀ userId settings, rows userId = some settings → settings.WellFormed)
    (hsettings : ∀ s, settings = some s → s.WellFormed)
    : ∀ id s, Function.update rows userId settings id = some s → s.WellFormed := by
  intro id s hs
  by_cases hid : id = userId
  . rw [hid, Function.update_self] at hs
    exact hsettings s hs
  . rw [Function.update_of_ne hid] at hs
    exact hrows id s hs

theorem Inv.commit (h : Inv db) {i : Nat} {session : Session} (hsession : db.sessions[i]? = some session)
    : Inv (db.commit i session) := by
  have hmem := List.mem_of_getElem? hsession
  unfold Database.commit
  dsimp only
  split
  . exact {
      rows := h.rows
      loaded := fun session hsession => h.loaded session (List.mem_of_mem_eraseIdx hsession)
      keeps := fun session hsession => h.keeps session (List.mem_of_mem_eraseIdx hsession) }
  . next row hrow =>
    have hloaded := h.loaded session hmem
    have hupdated := hloaded.update (hloaded.apply (h.keeps session hmem)) (h.rows _ row hrow)
    refine ⟨wellFormed_of_update h.rows ?_, ?_, ?_⟩
    . intro s hs
      cases hs
      exact hupdated
    . exact fun session hsession => h.loaded session (List.mem_of_mem_eraseIdx hsession)
    . exact fun session hsession => h.keeps session (List.mem_of_mem_eraseIdx hsession)

theorem Inv.step (h : Inv db) (hstep : step db e = some db') : Inv db' := by
  cases e with
  | registered =>
    cases hstep
    refine ⟨wellFormed_of_update h.rows ?_, h.loaded, h.keeps⟩
    intro s hs
    cases hs
    exact wellFormed_defaults
  | deleted userId =>
    cases hstep
    exact ⟨wellFormed_of_update h.rows nofun, h.loaded, h.keeps⟩
  | pressed userId press =>
    rcases Option.bind_eq_some_iff.mp hstep with ⟨assignment, hassignment, hstep⟩
    rcases Option.bind_eq_some_iff.mp hstep with ⟨loaded, hloaded, hstep⟩
    cases hstep
    refine ⟨h.rows, ?_, ?_⟩
    . intro session hsession
      rcases List.mem_append.mp hsession with hold | hnew
      . exact h.loaded session hold
      . rw [List.mem_singleton.mp hnew]
        exact h.rows userId loaded hloaded
    . intro session hsession
      rcases List.mem_append.mp hsession with hold | hnew
      . exact h.keeps session hold
      . rw [List.mem_singleton.mp hnew]
        exact press.keeps hassignment
  | committed i =>
    rcases Option.bind_eq_some_iff.mp hstep with ⟨session, hsession, hstep⟩
    cases hstep
    exact h.commit hsession
  | rolledBack i =>
    rcases Option.bind_eq_some_iff.mp hstep with ⟨session, _, hstep⟩
    cases hstep
    exact {
      rows := h.rows
      loaded := fun session hsession => h.loaded session (List.mem_of_mem_eraseIdx hsession)
      keeps := fun session hsession => h.keeps session (List.mem_of_mem_eraseIdx hsession) }

/--
However presses overlap, the columns that belong together say the same.
-/
theorem wellFormed_of_run (hsessions : db.sessions = [])
    (hrows : ∀ userId settings, db.rows userId = some settings → settings.WellFormed)
    (hrun : Run.exec step db es = some db')
    : ∀ userId settings, db'.rows userId = some settings → settings.WellFormed := by
  have hinv : Inv db := by
    refine ⟨hrows, ?_, ?_⟩
    . rw [hsessions]
      exact List.forall_mem_nil _
    . rw [hsessions]
      exact List.forall_mem_nil _
  exact (Run.invariant' Inv.step hinv hrun).rows

end

def Assignment.Untouched (assignment : Assignment) (loaded row : Settings) : Prop :=
  match assignment with
  | .flags change => ∀ switch ∈ change.writes, row.flags switch = loaded.flags switch
  | .targets change => ∀ target ∈ change.writes, row.targets target = loaded.targets target

instance (assignment : Assignment) (loaded row : Settings) : Decidable (assignment.Untouched loaded row) := by
  unfold Assignment.Untouched
  split <;> infer_instance

/--
No other press of the same buttons is committed between the read of a handler and its commit.
-/
def Undisturbed (db : Database) (e : Event) : Prop :=
  match e with
  | .committed i =>
    ∀ session ∈ db.sessions[i]?, ∀ row ∈ db.rows session.userId, session.assignment.Untouched session.loaded row
  | _ => True

instance (db : Database) (e : Event) : Decidable (Undisturbed db e) := by
  unfold Undisturbed
  split <;> infer_instance

def Commit.replay (rows : Rows) (commit : Commit) : Rows :=
  match commit with
  | .registered userId => Function.update rows userId (some defaults)
  | .deleted userId => Function.update rows userId none
  | .assigned userId assignment => Function.update rows userId ((rows userId).map assignment.apply)

section

variable {db db' : Database} {e : Event} {es : List Event} {rows : Rows}

theorem Assignment.Untouched.update_apply {assignment : Assignment} {loaded row : Settings}
    (h : assignment.Untouched loaded row) : loaded.update (assignment.apply loaded) row = assignment.apply row := by
  unfold Settings.update Assignment.apply
  cases assignment with
  | flags change =>
    dsimp only
    rw [ColumnUpdate.update_apply h, update_unchanged]
  | targets change =>
    dsimp only
    rw [ColumnUpdate.update_apply h, update_unchanged]

theorem replayed_step (h : db.rows = db.log.foldl Commit.replay rows) (hundisturbed : Undisturbed db e)
    (hstep : step db e = some db') : db'.rows = db'.log.foldl Commit.replay rows := by
  cases e with
  | registered =>
    cases hstep
    dsimp only
    rw [List.foldl_append, ← h]
    rfl
  | deleted userId =>
    cases hstep
    dsimp only
    rw [List.foldl_append, ← h]
    rfl
  | pressed userId press =>
    rcases Option.bind_eq_some_iff.mp hstep with ⟨assignment, _, hstep⟩
    rcases Option.bind_eq_some_iff.mp hstep with ⟨loaded, _, hstep⟩
    cases hstep
    exact h
  | committed i =>
    rcases Option.bind_eq_some_iff.mp hstep with ⟨session, hsession, hstep⟩
    cases hstep
    unfold Database.commit
    dsimp only
    split
    . exact h
    . next row hrow =>
      have huntouched : session.assignment.Untouched session.loaded row := hundisturbed session hsession row hrow
      dsimp only
      rw [List.foldl_append, ← h, huntouched.update_apply, List.foldl_cons, List.foldl_nil]
      unfold Commit.replay
      dsimp only
      rw [hrow]
      rfl
  | rolledBack i =>
    rcases Option.bind_eq_some_iff.mp hstep with ⟨session, _, hstep⟩
    cases hstep
    exact h

/--
Presses that overlap do what they would do one after another, in the order of their commits.
-/
theorem rows_eq_replay (hlog : db.log = []) (hundisturbed : Run.StepsMeet step Undisturbed db es)
    (hrun : Run.exec step db es = some db') : db'.rows = db'.log.foldl Commit.replay db.rows := by
  have hstart : db.rows = db.log.foldl Commit.replay db.rows := by
    rw [hlog]
    rfl
  exact Run.invariant (I := fun s => s.rows = s.log.foldl Commit.replay db.rows) replayed_step hstart hundisturbed hrun

def threeButtons : List Event := [
  .registered, .pressed 1 ⟨true, "wizard_notif_time_30"⟩, .pressed 1 ⟨false, "notif_toggle_fact_on"⟩,
  .pressed 1 ⟨false, "notif_target_set_power_both"⟩, .committed 1, .committed 0, .committed 0]

theorem isSome_threeButtons : (Run.exec step {} threeButtons).isSome = true := by
  decide +kernel

theorem wellFormed_of_run_threeButtons
    : ∃ settings, ((Run.exec step {} threeButtons).get isSome_threeButtons).rows 1 = some settings ∧
        settings.WellFormed := by
  have hthere : (((Run.exec step {} threeButtons).get isSome_threeButtons).rows 1).isSome = true := by decide +kernel
  rcases Option.isSome_iff_exists.mp hthere with ⟨settings, hsettings⟩
  refine ⟨settings, hsettings, ?_⟩
  apply wellFormed_of_run rfl _ (Option.some_get isSome_threeButtons).symm 1 settings hsettings
  intro userId settings hrows
  cases hrows

theorem rows_eq_replay_threeButtons
    : ((Run.exec step {} threeButtons).get isSome_threeButtons).rows =
        ((Run.exec step {} threeButtons).get isSome_threeButtons).log.foldl Commit.replay fun _ => none := by
  have hundisturbed : Run.StepsMeet step Undisturbed {} threeButtons := by decide +kernel
  exact rows_eq_replay rfl hundisturbed (Option.some_get isSome_threeButtons).symm

end

end Switches
