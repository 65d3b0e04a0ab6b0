import VoltykBot.Handlers.ChannelRows
import VoltykBot.Lib.Tickets

/-!
This module contains the owners of channels: a pending row is the ticket with which a user may take a
channel, and as long as tickets are saved for free channels only, no channel gets two owners.
-/

namespace ChannelRows

def Program.assigned (program : Program) : List ConfigChange :=
  match program with
  | .setChannelConfig change _ => [change]
  | _ => []

def Session.assigned (session : Session) : List ConfigChange :=
  session.dirty.toList ++ session.program.assigned

def Session.Takes (session : Session) (telegramId channelId : String) : Prop :=
  ∃ change ∈ session.assigned, change.loaded.telegramId = telegramId ∧
    change.new.channelId = some channelId

namespace Database

def Owns (db : Database) (telegramId channelId : String) : Prop :=
  ∃ row ∈ db.configs, row.telegramId = telegramId ∧ row.channelId = some channelId

/--
The user has the channel, or will have it when one of the sessions is committed.
-/
def Holds (db : Database) (telegramId channelId : String) : Prop :=
  db.Owns telegramId channelId ∨ ∃ session ∈ db.sessions, session.Takes telegramId channelId

def HasTicket (db : Database) (telegramId channelId : String) : Prop :=
  ∃ row ∈ db.pending, row.telegramId = telegramId ∧ row.channelId = channelId

def OneOwner (db : Database) : Prop :=
  ∀ row ∈ db.configs, ∀ row' ∈ db.configs, ∀ channelId,
    row.channelId = some channelId → row'.channelId = some channelId → row.telegramId = row'.telegramId

end Database

def Program.TakesNothing (program : Program) : Prop :=
  ∀ change ∈ program.assigned, change.new.channelId = none

/--
Whenever a program takes a channel, it has just read a pending row of the user for it.
-/
def Program.Careful (program : Program) : Prop :=
  match program with
  | .done => True
  | .getUserByChannelId _ next => ∀ found, (next found).TakesNothing ∧ (next found).Careful
  | .getChannelConfig telegramId next => ∀ found, (∀ config ∈ found, config.telegramId = telegramId) →
    (next found).TakesNothing ∧ (next found).Careful
  | .getPendingChannel wanted next => ∀ found, (∀ row ∈ found, wanted row = true) →
    (∀ change ∈ (next found).assigned, ∀ channelId, change.new.channelId = some channelId →
      ∃ row ∈ found, row.telegramId = change.loaded.telegramId ∧ row.channelId = channelId) ∧
        (next found).Careful
  | .setChannelConfig _ next => next.TakesNothing ∧ next.Careful
  | .savePendingChannel _ next => next.TakesNothing ∧ next.Careful
  | .deletePendingChannel _ next => next.TakesNothing ∧ next.Careful
  | .deletePendingChannelByTelegramId _ next => next.TakesNothing ∧ next.Careful
  | .deleteRows _ _ next => next.TakesNothing ∧ next.Careful

theorem careful_handleBotAdded (channelId channelTitle : String) (channelUsername : Option String)
    (fromUser : String) : (handleBotAdded channelId channelTitle channelUsername fromUser).Careful := by
  intro existingOwner
  dsimp only
  split
  . exact ⟨nofun, trivial⟩
  . exact ⟨nofun, nofun, trivial⟩

theorem careful_handleBotRemoved (channelId : String) : (handleBotRemoved channelId).Careful := by
  refine ⟨nofun, ?_⟩
  intro user
  cases user with
  | none => exact ⟨nofun, trivial⟩
  | some user =>
    refine ⟨nofun, ?_⟩
    intro config _
    cases config with
    | none => exact ⟨nofun, trivial⟩
    | some config =>
      refine ⟨?_, nofun, trivial⟩
      intro change hchange
      rw [List.mem_singleton.mp hchange]
      rfl

theorem careful_takeChannel (fromUser channelId : String) {wanted : PendingChannel → Bool}
    (hwanted : ∀ row, wanted row = true → row.telegramId = fromUser)
    : (takeChannel fromUser channelId wanted).Careful := by
  intro config hconfig
  cases config with
  | none => exact ⟨nofun, trivial⟩
  | some config =>
    refine ⟨nofun, ?_⟩
    intro pending hpending
    cases pending with
    | none => exact ⟨nofun, trivial⟩
    | some pending =>
      dsimp only
      split
      . exact ⟨nofun, trivial⟩
      . next hchannel =>
        refine ⟨?_, nofun, nofun, trivial⟩
        intro change hchange channelId' hnew
        rw [List.mem_singleton.mp hchange] at hnew ⊢
        refine ⟨pending, rfl, ?_, ?_⟩
        . rw [hwanted pending (hpending pending rfl), hconfig config rfl]
        . cases hnew
          exact Decidable.of_not_not hchannel

theorem Call.careful (call : Call) : call.program.Careful := by
  cases call with
  | handleBotAdded => exact careful_handleBotAdded _ _ _ _
  | handleBotRemoved => exact careful_handleBotRemoved _
  | channelConfirm =>
    apply careful_takeChannel
    intro row hrow
    exact of_decide_eq_true hrow
  | connectChannel =>
    apply careful_takeChannel
    intro row hrow
    exact (of_decide_eq_true hrow).1
  | replaceChannel =>
    apply careful_takeChannel
    intro row hrow
    exact (of_decide_eq_true hrow).1
  | keepCurrent => exact ⟨nofun, trivial⟩
  | cancelConnect => exact ⟨nofun, trivial⟩

theorem Call.takesNothing (call : Call) : call.program.TakesNothing := by
  cases call <;> exact nofun

theorem mem_of_firstOf {α : Type} {rows : List α} {choice : Nat} {row : α}
    (h : row ∈ firstOf rows choice) : row ∈ rows :=
  List.mem_of_getElem? h

theorem takes_of_next {session session' : Session} (hdirty : session'.dirty = session.dirty)
    (hnothing : session'.program.TakesNothing) {telegramId channelId : String}
    (h : session'.Takes telegramId channelId) : session.Takes telegramId channelId := by
  obtain ⟨change, hchange, htelegramId, hchannelId⟩ := h
  cases List.mem_append.mp hchange with
  | inl hmem => exact ⟨change, List.mem_append_left _ (hdirty ▸ hmem), htelegramId, hchannelId⟩
  | inr hmem =>
    rw [hnothing change hmem] at hchannelId
    cases hchannelId

namespace Database

variable {db db' : Database} {session session' : Session} {choice i : Nat}

def TakesWithTickets (db : Database) (session session' : Session) : Prop :=
  session'.program.Careful ∧ ∀ telegramId channelId, session'.Takes telegramId channelId →
    session.Takes telegramId channelId ∨ db.HasTicket telegramId channelId

theorem takesWithTickets_of_next (hdirty : session'.dirty = session.dirty)
    (hnext : session'.program.TakesNothing ∧ session'.program.Careful)
    : db.TakesWithTickets session session' :=
  ⟨hnext.2, fun _ _ htakes => .inl (takes_of_next hdirty hnext.1 htakes)⟩

theorem takesWithTickets_of_read {program : Program} (hcareful : program.Careful)
    (htickets : ∀ change ∈ program.assigned, ∀ channelId, change.new.channelId = some channelId →
      db.HasTicket change.loaded.telegramId channelId)
    : db.TakesWithTickets session { session with program := program } := by
  refine ⟨hcareful, ?_⟩
  rintro telegramId channelId ⟨change, hchange, rfl, hchannelId⟩
  cases List.mem_append.mp hchange with
  | inl hdirty => exact .inl ⟨change, List.mem_append_left _ hdirty, rfl, hchannelId⟩
  | inr hassigned => exact .inr (htickets change hassigned channelId hchannelId)

theorem takesWithTickets_of_assigned {change : ConfigChange} {next : Program}
    (hprogram : session.program = .setChannelConfig change next)
    (hnext : next.TakesNothing ∧ next.Careful)
    : db.TakesWithTickets session
        { session with program := next, dirty := some change, flushed := false } := by
  refine ⟨hnext.2, ?_⟩
  rintro telegramId channelId ⟨change', hchange, htelegramId, hchannelId⟩
  left
  cases List.mem_append.mp hchange with
  | inl hdirty =>
    refine ⟨change', List.mem_append_right _ ?_, htelegramId, hchannelId⟩
    rw [hprogram]
    exact hdirty
  | inr hassigned =>
    rw [hnext.1 change' hassigned] at hchannelId
    cases hchannelId

theorem flush_spec (hcareful : session.program.Careful) (h : db.flush session = some session')
    : db.TakesWithTickets session session' := by
  unfold flush at h
  split at h
  . cases h
    exact ⟨hcareful, fun _ _ htakes => .inl htakes⟩
  . split at h
    . cases h
      exact ⟨hcareful, fun _ _ htakes => .inl htakes⟩
    . cases h

theorem execute_spec (hcareful : session.program.Careful) (h : db.execute session choice = some session')
    : db.TakesWithTickets session session' := by
  unfold execute at h
  split at h
  . cases h
  . next channelId next hprogram =>
    rw [hprogram] at hcareful
    cases h
    exact takesWithTickets_of_next rfl (hcareful _)
  . next telegramId next hprogram =>
    rw [hprogram] at hcareful
    cases h
    refine takesWithTickets_of_next rfl (hcareful _ ?_)
    intro config hconfig
    exact of_decide_eq_true (List.mem_filter.mp (mem_of_firstOf hconfig)).2
  . next wanted next hprogram =>
    rw [hprogram] at hcareful
    cases h
    obtain ⟨htaken, hcareful⟩ := hcareful (firstOf (db.pending.filter wanted) choice)
      fun row hrow => (List.mem_filter.mp (mem_of_firstOf hrow)).2
    apply takesWithTickets_of_read hcareful
    intro change hchange channelId hchannelId
    obtain ⟨row, hrow, htelegramId, hrowChannel⟩ := htaken change hchange channelId hchannelId
    exact ⟨row, (List.mem_filter.mp (mem_of_firstOf hrow)).1, htelegramId, hrowChannel⟩
  . next change next hprogram =>
    rw [hprogram] at hcareful
    cases h
    exact takesWithTickets_of_assigned hprogram hcareful
  . next row next hprogram =>
    rw [hprogram] at hcareful
    split at h
    . cases h
      exact takesWithTickets_of_next rfl hcareful
    . cases h
  . next channelId next hprogram =>
    rw [hprogram] at hcareful
    split at h
    . cases h
      exact takesWithTickets_of_next rfl hcareful
    . split at h
      . cases h
        exact takesWithTickets_of_next rfl hcareful
      . cases h
  . next telegramId next hprogram =>
    rw [hprogram] at hcareful
    cases h
    exact takesWithTickets_of_next rfl ⟨nofun, hcareful⟩
  . next telegramId next hprogram =>
    rw [hprogram] at hcareful
    cases h
    exact takesWithTickets_of_next rfl hcareful
  . next telegramId channelId channelIds next hprogram =>
    rw [hprogram] at hcareful
    split at h
    . cases h
    . split at h
      . cases h
        exact takesWithTickets_of_next rfl ⟨nofun, hcareful⟩
      . cases h
        exact takesWithTickets_of_next rfl ⟨nofun, hcareful⟩

theorem advance_spec (hcareful : session.program.Careful) (h : db.advance session choice = some session')
    : db.TakesWithTickets session session' := by
  unfold advance at h
  split at h
  . exact flush_spec hcareful h
  . exact execute_spec hcareful h

end Database

theorem channelId_apply {change : ConfigChange} {row : UserChannelConfig} {channelId : String}
    (h : (change.apply row).channelId = some channelId)
    : row.channelId = some channelId ∨
        (row.telegramId = change.loaded.telegramId ∧ change.new.channelId = some channelId) := by
  unfold ConfigChange.apply at h
  split at h
  . next htelegramId =>
    dsimp only at h
    split at h
    . exact .inl h
    . exact .inr ⟨htelegramId, h⟩
  . exact .inl h

theorem telegramId_apply (change : ConfigChange) (row : UserChannelConfig)
    : (change.apply row).telegramId = row.telegramId := by
  unfold ConfigChange.apply
  split <;> rfl

def ChannelsUnique (pending : List PendingChannel) : Prop :=
  ∀ row ∈ pending, ∀ row' ∈ pending, row.channelId = row'.channelId → row = row'

theorem mem_apply {write : PendingWrite} {pending : List PendingChannel} {row : PendingChannel}
    (h : row ∈ write.apply pending)
    : (row ∈ pending ∧ row.channelId ≠ write.channelId) ∨ write = .save row := by
  cases write with
  | save row' =>
    cases List.mem_append.mp h with
    | inl hold =>
      obtain ⟨hmem, hne⟩ := List.mem_filter.mp hold
      exact .inl ⟨hmem, of_decide_eq_true hne⟩
    | inr hnew =>
      rw [List.mem_singleton.mp hnew]
      exact .inr rfl
  | delete channelId =>
    obtain ⟨hmem, hne⟩ := List.mem_filter.mp h
    exact .inl ⟨hmem, of_decide_eq_true hne⟩

theorem ChannelsUnique.apply {pending : List PendingChannel} (h : ChannelsUnique pending)
    (write : PendingWrite) : ChannelsUnique (write.apply pending) := by
  intro row hrow row' hrow' heq
  rcases mem_apply hrow with ⟨hold, hne⟩ | rfl
  . rcases mem_apply hrow' with ⟨hold', _⟩ | rfl
    . exact h row hold row' hold' heq
    . exact absurd heq hne
  . rcases mem_apply hrow' with ⟨_, hne⟩ | hsame
    . exact absurd heq.symm hne
    . cases hsame
      rfl

theorem ChannelsUnique.foldl {pending : List PendingChannel} (h : ChannelsUnique pending)
    (writes : List PendingWrite) : ChannelsUnique (writes.foldl PendingWrite.apply pending) := by
  induction writes generalizing pending with
  | nil => exact h
  | cons write writes ih => exact ih (h.apply write)

theorem mem_foldl_apply {writes : List PendingWrite} {pending : List PendingChannel} {row : PendingChannel}
    (h : row ∈ writes.foldl PendingWrite.apply pending) : row ∈ pending ∨ .save row ∈ writes := by
  induction writes generalizing pending with
  | nil => exact .inl h
  | cons write writes ih =>
    rcases ih h with hmem | hlater
    . rcases mem_apply hmem with ⟨hold, _⟩ | rfl
      . exact .inl hold
      . exact .inr List.mem_cons_self
    . exact .inr (List.mem_cons_of_mem _ hlater)

namespace Database

variable {db db' : Database} {session session' : Session} {choice i : Nat}

theorem holds_setSession {telegramId channelId : String}
    (h : (db.setSession i session').Holds telegramId channelId)
    : db.Holds telegramId channelId ∨ session'.Takes telegramId channelId := by
  rcases h with howns | ⟨session'', hmem, htakes⟩
  . exact .inl (.inl howns)
  . cases List.mem_or_eq_of_mem_set hmem with
    | inl hmem => exact .inl (.inr ⟨session'', hmem, htakes⟩)
    | inr heq => exact .inr (heq ▸ htakes)

theorem not_takes_ended (telegramId channelId : String) : ¬ Session.ended.Takes telegramId channelId := by
  rintro ⟨_, hchange, _⟩
  cases hchange

theorem commit_eq (h : db.commit i session = some db')
    : db' = {
        configs := db.configs.map fun row => session.dirty.elim row (·.apply row)
        pending := session.writes.foldl PendingWrite.apply db.pending
        sessions := db.sessions.set i .ended } := by
  unfold commit at h
  split at h
  . split at h
    . cases h
    . exact (Option.some.inj h).symm
  . cases h

theorem holds_commit (hsession : session ∈ db.sessions) (h : db.commit i session = some db')
    {telegramId channelId : String} (hholds : db'.Holds telegramId channelId)
    : db.Holds telegramId channelId := by
  rw [commit_eq h] at hholds
  rcases hholds with ⟨row', hrow, rfl, hchannelId⟩ | ⟨session'', hmem, htakes⟩
  . obtain ⟨row, hmem, rfl⟩ := List.mem_map.mp hrow
    cases hdirty : session.dirty with
    | none =>
      rw [hdirty] at hchannelId
      exact .inl ⟨row, hmem, rfl, hchannelId⟩
    | some change =>
      rw [hdirty, Option.elim_some] at hchannelId
      rw [Option.elim_some, telegramId_apply]
      rcases channelId_apply hchannelId with hold | ⟨htelegramId, hnew⟩
      . exact .inl ⟨row, hmem, rfl, hold⟩
      . refine .inr ⟨session, hsession, change, List.mem_append_left _ ?_, htelegramId.symm, hnew⟩
        rw [hdirty]
        exact List.mem_singleton_self _
  . cases List.mem_or_eq_of_mem_set hmem with
    | inl hmem => exact .inr ⟨session'', hmem, htakes⟩
    | inr heq => exact absurd (heq ▸ htakes) (not_takes_ended _ _)

def FreeFor (db : Database) (row : PendingChannel) : Prop :=
  (∀ config ∈ db.configs, config.channelId = some row.channelId → config.telegramId = row.telegramId) ∧
    ∀ session ∈ db.sessions, ∀ change ∈ session.assigned,
      change.new.channelId = some row.channelId → change.loaded.telegramId = row.telegramId

instance (db : Database) (row : PendingChannel) : Decidable (db.FreeFor row) :=
  inferInstanceAs (Decidable (_ ∧ _))

def WritesFreely (db : Database) (write : PendingWrite) : Prop :=
  match write with
  | .save row => db.FreeFor row
  | .delete _ => True

instance (db : Database) (write : PendingWrite) : Decidable (db.WritesFreely write) :=
  match write with
  | .save row => inferInstanceAs (Decidable (db.FreeFor row))
  | .delete _ => isTrue trivial

/--
When a pending row is committed, its channel is free for its user.
-/
def SavesFreely (db : Database) (e : Event) : Prop :=
  match e with
  | .committed i => ∀ session ∈ db.sessions[i]?, ∀ write ∈ session.writes, db.WritesFreely write
  | _ => True

instance (db : Database) (e : Event) : Decidable (db.SavesFreely e) :=
  match e with
  | .called _ => isTrue trivial
  | .advanced _ _ => isTrue trivial
  | .committed i => inferInstanceAs
    (Decidable (∀ session ∈ db.sessions[i]?, ∀ write ∈ session.writes, db.WritesFreely write))
  | .rolledBack _ => isTrue trivial

theorem FreeFor.eq_of_holds {row : PendingChannel} (h : db.FreeFor row) {telegramId : String}
    (hholds : db.Holds telegramId row.channelId) : telegramId = row.telegramId := by
  rcases hholds with ⟨config, hconfig, rfl, hchannelId⟩ | ⟨session, hsession, change, hchange, rfl, hnew⟩
  . exact h.1 config hconfig hchannelId
  . exact h.2 session hsession change hchange hnew

structure Ticketed (db : Database) : Prop where
  careful : ∀ session ∈ db.sessions, session.program.Careful
  unique : ChannelsUnique db.pending
  exclusive : Tickets.Exclusive db.Holds db.HasTicket

theorem Ticketed.oneOwner (h : db.Ticketed) : db.OneOwner := by
  intro row hrow row' hrow' channelId hchannelId hchannelId'
  exact h.exclusive.holder (.inl ⟨row, hrow, rfl, hchannelId⟩) (.inl ⟨row', hrow', rfl, hchannelId'⟩)

theorem careful_set {sessions : List Session} (h : ∀ session ∈ sessions, session.program.Careful)
    (hnew : session'.program.Careful)
    : ∀ session ∈ sessions.set i session', session.program.Careful := by
  intro session hsession
  cases List.mem_or_eq_of_mem_set hsession with
  | inl hmem => exact h session hmem
  | inr heq => exact heq ▸ hnew

theorem Ticketed.called (h : db.Ticketed) (call : Call)
    : Ticketed { db with sessions := db.sessions ++ [{ program := call.program }] } where
  careful := by
    intro session hsession
    cases List.mem_append.mp hsession with
    | inl hmem => exact h.careful session hmem
    | inr hnew =>
      rw [List.mem_singleton.mp hnew]
      exact call.careful
  unique := h.unique
  exclusive := by
    refine h.exclusive.mono ?_ (fun _ _ hticket => hticket)
    rintro telegramId channelId (howns | ⟨session, hsession, htakes⟩)
    . exact .inl howns
    . cases List.mem_append.mp hsession with
      | inl hmem => exact .inr ⟨session, hmem, htakes⟩
      | inr hnew =>
        obtain ⟨change, hchange, _, hchannelId⟩ := htakes
        rw [List.mem_singleton.mp hnew] at hchange
        rw [call.takesNothing change hchange] at hchannelId
        cases hchannelId

theorem Ticketed.advanced (h : db.Ticketed) (hsession : session ∈ db.sessions)
    (hadvance : db.advance session choice = some session') : Ticketed (db.setSession i session') := by
  obtain ⟨hcareful, htakes⟩ := advance_spec (h.careful session hsession) hadvance
  refine ⟨careful_set h.careful hcareful, h.unique, ?_⟩
  apply h.exclusive.redeem
  intro telegramId channelId hholds
  rcases holds_setSession hholds with hholds | htaken
  . exact .inl hholds
  . rcases htakes _ _ htaken with htaken | hticket
    . exact .inl (.inr ⟨session, hsession, htaken⟩)
    . exact .inr hticket

theorem Ticketed.rolledBack (h : db.Ticketed) (i : Nat) : Ticketed (db.setSession i .ended) := by
  refine ⟨careful_set h.careful trivial, h.unique, ?_⟩
  refine h.exclusive.mono ?_ (fun _ _ hticket => hticket)
  intro telegramId channelId hholds
  rcases holds_setSession hholds with hholds | htaken
  . exact hholds
  . exact absurd htaken (not_takes_ended _ _)

theorem Ticketed.committed (h : db.Ticketed) (hsession : session ∈ db.sessions)
    (hfree : ∀ row, .save row ∈ session.writes → db.FreeFor row) (hcommit : db.commit i session = some db')
    : Ticketed db' := by
  have hmono := h.exclusive.mono (fun _ _ hholds => holds_commit hsession hcommit hholds)
    fun _ _ hticket => hticket
  have heq := commit_eq hcommit
  have hunique : ChannelsUnique db'.pending := by
    rw [heq]
    exact h.unique.foldl session.writes
  refine ⟨?_, hunique, ?_⟩
  . rw [heq]
    exact careful_set h.careful trivial
  . let issued (telegramId channelId : String) : Prop := ∃ row, .save row ∈ session.writes ∧
      row.telegramId = telegramId ∧ row.channelId = channelId
    refine @Tickets.Exclusive.issue _ _ _ _ _ hmono issued ?_ ?_ ?_
    . rintro _ _ ⟨row, hrow, rfl, rfl⟩
      rw [heq] at hrow
      rcases mem_foldl_apply hrow with hold | hsave
      . exact .inl ⟨row, hold, rfl, rfl⟩
      . exact .inr ⟨row, hsave, rfl, rfl⟩
    . rintro _ _ _ ⟨row, hrow, rfl, rfl⟩ ⟨row', hrow', rfl, hsame⟩
      rw [hunique row hrow row' hrow' hsame.symm]
    . rintro _ telegramId _ ⟨row, hsave, rfl, rfl⟩ hholds
      exact (hfree row hsave).eq_of_holds (holds_commit hsession hcommit hholds)

theorem Ticketed.step (h : db.Ticketed) {e : Event} (hfree : db.SavesFreely e)
    (hstep : ChannelRows.step db e = some db') : db'.Ticketed := by
  cases e with
  | called call =>
    cases hstep
    exact h.called call
  | advanced i choice =>
    simp only [ChannelRows.step, Option.bind_eq_bind, Option.bind_eq_some_iff, Option.some.injEq] at hstep
    obtain ⟨session, hsession, session', hadvance, rfl⟩ := hstep
    exact h.advanced (List.mem_of_getElem? hsession) hadvance
  | committed i =>
    simp only [ChannelRows.step, Option.bind_eq_bind, Option.bind_eq_some_iff] at hstep
    obtain ⟨session, hsession, hcommit⟩ := hstep
    refine h.committed (List.mem_of_getElem? hsession) ?_ hcommit
    intro row hsave
    exact hfree session hsession (.save row) hsave
  | rolledBack i =>
    cases hstep
    exact h.rolledBack i

/--
No session is open, no two rows are for one channel, no two users have the same channel, and nobody has a
channel that is pending for somebody else.
-/
def Start (db : Database) : Prop :=
  db.sessions = [] ∧ ChannelsUnique db.pending ∧ db.OneOwner ∧
    ∀ row ∈ db.pending, ∀ config ∈ db.configs, config.channelId = some row.channelId →
      config.telegramId = row.telegramId

theorem Start.ticketed (h : db.Start) : db.Ticketed := by
  obtain ⟨hsessions, hunique, howner, hpending⟩ := h
  have howns {telegramId channelId : String} (hholds : db.Holds telegramId channelId)
      : db.Owns telegramId channelId := by
    rcases hholds with howns | ⟨session, hsession, _⟩
    . exact howns
    . rw [hsessions] at hsession
      cases hsession
  refine ⟨?_, hunique, ?_, ?_, ?_⟩
  . rw [hsessions]
    exact nofun
  . intro u v c hu hv
    obtain ⟨row, hrow, rfl, hchannelId⟩ := howns hu
    obtain ⟨row', hrow', rfl, hchannelId'⟩ := howns hv
    exact howner row hrow row' hrow' c hchannelId hchannelId'
  . rintro _ _ _ ⟨row, hrow, rfl, rfl⟩ ⟨row', hrow', rfl, hsame⟩
    rw [hunique row hrow row' hrow' hsame.symm]
  . rintro _ v _ ⟨row, hrow, rfl, rfl⟩ hv
    obtain ⟨config, hconfig, rfl, hchannelId⟩ := howns hv
    exact hpending row hrow config hconfig hchannelId

/--
If every pending row is committed while its channel is free for its user, no channel ever has two owners.
-/
theorem always_oneOwner {es : List Event} (hstart : db.Start)
    (hsteps : Run.StepsMeet ChannelRows.step SavesFreely db es)
    : Run.Always ChannelRows.step OneOwner db es :=
  Run.always_of_stepsMeet (fun h hfree hstep => Ticketed.step h hfree hstep) Ticketed.oneOwner
    hstart.ticketed hsteps

def newUsers : Database where
  configs := [
    { telegramId := "1", channelId := none, channelTitle := none, channelStatus := "active" },
    { telegramId := "2", channelId := none, channelTitle := none, channelStatus := "active" }]
  pending := []

theorem start_newUsers : newUsers.Start := by
  refine ⟨rfl, nofun, ?_, nofun⟩
  unfold OneOwner
  intro row hrow _ _ channelId hchannelId
  have hnone : ∀ row ∈ newUsers.configs, row.channelId = none := by decide
  rw [hnone row hrow] at hchannelId
  cases hchannelId

/--
The first user adds the bot and connects the channel; after that the second one adds the bot too.
-/
def oneAfterTheOther : List Event := [
  .called (.handleBotAdded "-100" "Канал" none "1"), .advanced 0 0, .advanced 0 0, .committed 0,
  .called (.connectChannel "1" "-100"), .advanced 1 0, .advanced 1 0, .advanced 1 0, .advanced 1 0,
  .advanced 1 0, .committed 1,
  .called (.handleBotAdded "-100" "Канал" none "2"), .advanced 2 0, .committed 2]

theorem always_oneOwner_oneAfterTheOther
    : (Run.exec ChannelRows.step newUsers oneAfterTheOther).map (·.configs.map (·.channelId)) =
          some [some "-100", none] ∧
        Run.Always ChannelRows.step OneOwner newUsers oneAfterTheOther :=
  ⟨by decide +kernel, always_oneOwner start_newUsers (by decide +kernel)⟩

/--
The second user adds the bot while the first one's confirmation is open: its owner is not committed yet,
and its pending row is deleted before the new one is saved.
-/
def overlappingConfirmation : List Event := [
  .called (.handleBotAdded "-100" "Канал" none "1"), .advanced 0 0, .advanced 0 0, .committed 0,
  .called (.channelConfirm "1" "-100"), .advanced 1 0, .advanced 1 0, .advanced 1 0, .advanced 1 0,
  .advanced 1 0,
  .called (.handleBotAdded "-100" "Канал" none "2"), .advanced 2 0,
  .committed 1, .advanced 2 0, .committed 2,
  .called (.connectChannel "2" "-100"), .advanced 3 0, .advanced 3 0, .advanced 3 0, .advanced 3 0,
  .advanced 3 0, .committed 3]

theorem not_always_oneOwner_overlappingConfirmation
    : newUsers.Start ∧ ¬ Run.Always ChannelRows.step OneOwner newUsers overlappingConfirmation := by
  refine ⟨start_newUsers, ?_⟩
  intro halways
  have hrun : ((Run.exec ChannelRows.step newUsers overlappingConfirmation).map (·.configs)) = some [
      { telegramId := "1", channelId := some "-100", channelTitle := some "Канал",
        channelStatus := "active" },
      { telegramId := "2", channelId := some "-100", channelTitle := some "Канал",
        channelStatus := "active" }] := by
    decide +kernel
  obtain ⟨db, hexec, hconfigs⟩ := Option.map_eq_some_iff.mp hrun
  have howner := halways.last hexec
  unfold OneOwner at howner
  rw [hconfigs] at howner
  have hsame := howner _ List.mem_cons_self _ (List.mem_cons_of_mem _ List.mem_cons_self) "-100" rfl rfl
  revert hsame
  decide

end Database

end ChannelRows
