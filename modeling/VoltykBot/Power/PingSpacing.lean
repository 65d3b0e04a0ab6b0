import VoltykBot.Power.PingAlerts

/-!
This module shows how far apart the warnings of one user are.
-/

namespace PingAlerts

/--
Of two messages to one user, the newest first, the later one comes an hour after the other at least, and a day after if
the stamp of the other was committed.
-/
def Spaced (messages : List Message) : Prop :=
  messages.Pairwise fun later earlier => later.telegramId = earlier.telegramId →
    earlier.arrivedAt + hourUs ≤ later.arrivedAt ∧
      (earlier.stamped = true → earlier.arrivedAt + dayUs ≤ later.arrivedAt)

instance (messages : List Message) : Decidable (Spaced messages) :=
  inferInstanceAs (Decidable (List.Pairwise _ _))

namespace Monitor

def Recorded (table : Alerts) (message : Message) : Prop :=
  ∃ row ∈ table.rows, row.id = message.alertId ∧ row.telegramId = message.telegramId ∧
    (message.stamped = true → ∃ t, row.lastAlertAt = some t ∧ message.arrivedAt ≤ t)

structure Fresh (s : Monitor) (alert : PingErrorAlert) : Prop where
  there : ∃ row ∈ s.table.rows, row.id = alert.id ∧ row.telegramId = alert.telegramId
  ahead : ∀ message ∈ s.current, message.alertId < alert.id
  stamps : ∀ message ∈ s.passed, message.stamped = true → message.telegramId = alert.telegramId →
    ∃ t, alert.lastAlertAt = some t ∧ message.arrivedAt ≤ t

structure Inv (s : Monitor) : Prop where
  spaced : Spaced (s.current ++ s.passed)
  recorded : ∀ message ∈ s.current ++ s.passed, Recorded s.table message
  past : ∀ message ∈ s.current ++ s.passed, message.arrivedAt ≤ s.clock
  asleep : ∀ wakeAt, s.pc = .sleeping wakeAt →
    s.current = [] ∧ ∀ message ∈ s.passed, message.arrivedAt + hourUs ≤ wakeAt
  begun : ∀ now, s.pc.begunAt = some now → now ≤ s.clock ∧ ∀ message ∈ s.passed, message.arrivedAt + hourUs ≤ now
  reached : s.pc.begunAt ≠ none → ∀ message ∈ s.current, message.alertId ≤ s.pc.lastId
  within : ∀ alert ∈ s.pc.pending, alert.id ≤ s.pc.lastId
  sorted : s.pc.pending.Pairwise fun a b => a.id < b.id
  fresh : ∀ alert ∈ s.pc.pending, s.Fresh alert
  due : s.pc.Due
  stamping : ∀ now batch rest alert, s.pc = .body now batch rest alert .stamping →
    ∃ message messages, s.current = message :: messages ∧ message.telegramId = alert.telegramId

variable {s s' : Monitor}

theorem inv_startMonitor (table : Alerts) (clock : Int) : (startMonitor table clock).Inv where
  spaced := List.Pairwise.nil
  recorded := nofun
  past := nofun
  asleep := by
    rintro wakeAt ⟨⟩
    exact ⟨rfl, nofun⟩
  begun := nofun
  reached := fun h => absurd rfl h
  within := nofun
  sorted := List.Pairwise.nil
  fresh := nofun
  due := trivial
  stamping := nofun

theorem Recorded.keeps {table : Alerts} {message : Message} (h : Recorded s.table message)
    (hkeeps : s.table.Keeps table) : Recorded table message := by
  rcases h with ⟨row, hrow, hid, huser, hstamp⟩
  rcases hkeeps row hrow with ⟨row', hrow', hid', huser', hlast⟩
  exact ⟨row', hrow', hid'.trans hid, huser'.trans huser, by rwa [hlast]⟩

theorem Fresh.keeps {table : Alerts} {alert : PingErrorAlert} (h : s.Fresh alert) (hkeeps : s.table.Keeps table)
    (pc : Pc) (clock : Int) : Fresh { s with table, pc, clock } alert where
  there := by
    rcases h.there with ⟨row, hrow, hid, huser⟩
    rcases hkeeps row hrow with ⟨row', hrow', hid', huser', -⟩
    exact ⟨row', hrow', hid'.trans hid, huser'.trans huser⟩
  ahead := h.ahead
  stamps := h.stamps

theorem Inv.elapsed (h : s.Inv) (us : Nat) : Inv { s with clock := s.clock + us } where
  spaced := h.spaced
  recorded := h.recorded
  past := fun message hmessage => (h.past message hmessage).trans (Int.le_add_of_nonneg_right (Int.natCast_nonneg us))
  asleep := h.asleep
  begun := fun now hnow =>
    ⟨(h.begun now hnow).1.trans (Int.le_add_of_nonneg_right (Int.natCast_nonneg us)), (h.begun now hnow).2⟩
  reached := h.reached
  within := h.within
  sorted := h.sorted
  fresh := fun alert halert => (h.fresh alert halert).keeps (keeps_refl _) _ _
  due := h.due
  stamping := h.stamping

theorem Inv.tableChanged (h : s.Inv) {table : Alerts} (hkeeps : s.table.Keeps table) : Inv { s with table } where
  spaced := h.spaced
  recorded := fun message hmessage => (h.recorded message hmessage).keeps hkeeps
  past := h.past
  asleep := h.asleep
  begun := h.begun
  reached := h.reached
  within := h.within
  sorted := h.sorted
  fresh := fun alert halert => (h.fresh alert halert).keeps hkeeps _ _
  due := h.due
  stamping := h.stamping

theorem Inv.woke (h : s.Inv) {wakeAt : Int} (hpc : s.pc = .sleeping wakeAt) (hle : wakeAt ≤ s.clock)
    : Inv { s with pc := .reading s.clock 0 } where
  spaced := h.spaced
  recorded := h.recorded
  past := h.past
  asleep := nofun
  begun := by
    rintro now ⟨⟩
    exact ⟨le_rfl, fun message hmessage => ((h.asleep wakeAt hpc).2 message hmessage).trans hle⟩
  reached := by
    intro _ message hmessage
    rw [(h.asleep wakeAt hpc).1] at hmessage
    cases hmessage
  within := nofun
  sorted := List.Pairwise.nil
  fresh := nofun
  due := trivial
  stamping := nofun

theorem Inv.passOver (h : s.Inv) : s.passOver.Inv where
  spaced := h.spaced
  recorded := h.recorded
  past := h.past
  asleep := by
    rintro wakeAt ⟨⟩
    exact ⟨rfl, fun message hmessage => Int.add_le_add_right (h.past message hmessage) hourUs⟩
  begun := nofun
  reached := fun h => absurd rfl h
  within := nofun
  sorted := List.Pairwise.nil
  fresh := nofun
  due := trivial
  stamping := nofun

theorem Inv.returned (h : s.Inv) : Inv { s with pc := .returned } where
  spaced := h.spaced
  recorded := h.recorded
  past := h.past
  asleep := nofun
  begun := nofun
  reached := fun h => absurd rfl h
  within := nofun
  sorted := List.Pairwise.nil
  fresh := nofun
  due := trivial
  stamping := nofun

theorem Inv.pageRead (h : s.Inv) {now : Int} {afterId : Nat} {page : List PingErrorAlert}
    (hpc : s.pc = .reading now afterId) (hpage : page = getActivePingErrorAlertsCursor s.table batchSize afterId)
    (hne : page ≠ []) : Inv { s with pc := .alerts now page page } := by
  have hbegun : s.pc.begunAt = some now := by rw [hpc]; rfl
  have hmem {alert : PingErrorAlert} (halert : alert ∈ page)
      : alert ∈ s.table.rows ∧ alert.isActive = true ∧ afterId < alert.id := by
    rw [hpage] at halert
    exact Keyset.mem_of_mem_page halert
  have hlast {alert : PingErrorAlert} (halert : alert ∈ page) : alert.id ≤ (Pc.alerts now page page).lastId := by
    change alert.id ≤ page.getLast?.elim 0 PingErrorAlert.id
    cases hlast : page.getLast? with
    | none => exact absurd (List.getLast?_eq_none_iff.mp hlast) hne
    | some last =>
      subst hpage
      exact Keyset.key_le_last s.table.ids_nodup halert hlast
  have hreached : ∀ message ∈ s.current, message.alertId ≤ afterId := by
    intro message hmessage
    have hreached := h.reached (by rw [hbegun]; nofun) message hmessage
    rwa [hpc] at hreached
  refine ⟨h.spaced, h.recorded, h.past, nofun, ?_, ?_, fun alert halert => hlast halert, ?_, ?_, trivial, nofun⟩
  . rintro _ ⟨⟩
    exact h.begun now hbegun
  . intro _ message hmessage
    rcases List.exists_mem_of_ne_nil page hne with ⟨alert, halert⟩
    exact ((hreached message hmessage).trans (hmem halert).2.2.le).trans (hlast halert)
  . change page.Pairwise _
    rw [hpage]
    exact Keyset.page_pairwise s.table.ids_nodup
  . intro alert halert
    have halert := hmem halert
    refine ⟨⟨alert, halert.1, rfl, rfl⟩, ?_, ?_⟩
    . exact fun message hmessage => (hreached message hmessage).trans_lt halert.2.2
    . intro message hmessage hstamped huser
      rcases h.recorded message (List.mem_append_right _ hmessage) with ⟨row, hrow, -, huser', hstamp⟩
      rw [← eq_of_user_eq hrow halert.1 (huser'.trans huser)]
      exact hstamp hstamped

theorem Inv.goesOn (h : s.Inv) {table : Alerts} {pc : Pc} {now : Int} (hkeeps : s.table.Keeps table)
    (hbegun : s.pc.begunAt = some now) (hbegun' : pc.begunAt = some now) (hlast : pc.lastId = s.pc.lastId)
    (hpending : pc.pending <:+ s.pc.pending) (hdue : pc.Due)
    (hstamping : ∀ now' batch rest alert, pc ≠ .body now' batch rest alert .stamping)
    : Inv { s with table, pc } where
  spaced := h.spaced
  recorded := fun message hmessage => (h.recorded message hmessage).keeps hkeeps
  past := h.past
  asleep := by
    rintro wakeAt rfl
    cases hbegun'
  begun := by
    intro now' hnow'
    exact h.begun now' (hbegun.trans (hbegun'.symm.trans hnow'))
  reached := by
    intro _
    rw [hlast]
    exact h.reached (by rw [hbegun]; nofun)
  within := by
    rw [hlast]
    exact fun alert halert => h.within alert (hpending.subset halert)
  sorted := h.sorted.sublist hpending.sublist
  fresh := fun alert halert => (h.fresh alert (hpending.subset halert)).keeps hkeeps _ _
  due := hdue
  stamping := fun now' batch rest alert hpc => absurd hpc (hstamping now' batch rest alert)

theorem Inv.spaced_arrived (h : s.Inv) {now : Int} {alert : PingErrorAlert} (hbegun : s.pc.begunAt = some now)
    (hfresh : s.Fresh alert) (hdue : ¬ Rests now alert) {message : Message} (hmessage : message ∈ s.current ++ s.passed)
    (huser : alert.telegramId = message.telegramId)
    : message.arrivedAt + hourUs ≤ s.clock ∧ (message.stamped = true → message.arrivedAt + dayUs ≤ s.clock) := by
  rcases List.mem_append.mp hmessage with hcurrent | hpassed
  . rcases h.recorded message hmessage with ⟨row, hrow, hid, huser', -⟩
    rcases hfresh.there with ⟨row', hrow', hid', huser''⟩
    have heq := eq_of_user_eq hrow hrow' (huser'.trans (huser.symm.trans huser''.symm))
    have hahead := hfresh.ahead message hcurrent
    rw [← hid, ← hid', heq] at hahead
    exact absurd hahead (lt_irrefl _)
  . rcases h.begun now hbegun with ⟨hnow, hhour⟩
    refine ⟨(hhour message hpassed).trans hnow, ?_⟩
    intro hstamped
    rcases hfresh.stamps message hpassed hstamped huser.symm with ⟨t, hlast, hle⟩
    have hday : dayUs ≤ now - t := not_lt.mp fun hrests => hdue ⟨t, hlast, hrests⟩
    omega

theorem Inv.arrived (h : s.Inv) {now : Int} {batch rest : List PingErrorAlert} {alert : PingErrorAlert} {pc : Pc}
    (hpc : s.pc = .body now batch rest alert .sending)
    (hpc' : pc = .body now batch rest alert .stamping ∨ pc = .alerts now batch rest)
    : Inv { s with
        pc
        current := ⟨alert.id, alert.telegramId, alert.routerIp, s.clock, false⟩ :: s.current } := by
  have hbegun : s.pc.begunAt = some now := by rw [hpc]; rfl
  have hpending : s.pc.pending = alert :: rest := by rw [hpc]; rfl
  have hlast : pc.lastId = s.pc.lastId := by rcases hpc' with rfl | rfl <;> rw [hpc] <;> rfl
  have hbegun' : pc.begunAt = some now := by rcases hpc' with rfl | rfl <;> rfl
  have hrest : pc.pending = rest := by rcases hpc' with rfl | rfl <;> rfl
  have hdue : ¬ Rests now alert := by
    have hdue := h.due
    rwa [hpc] at hdue
  have halert : alert ∈ s.pc.pending := hpending ▸ List.mem_cons_self
  have hfresh := h.fresh alert halert
  have hsorted := h.sorted
  rw [hpending, List.pairwise_cons] at hsorted
  refine ⟨?_, ?_, ?_, ?_, ?_, ?_, ?_, ?_, ?_, ?_, ?_⟩
  . refine List.pairwise_cons.mpr ⟨?_, h.spaced⟩
    intro message hmessage huser
    exact h.spaced_arrived hbegun hfresh hdue hmessage huser
  . refine List.forall_mem_cons.mpr ⟨?_, h.recorded⟩
    rcases hfresh.there with ⟨row, hrow, hid, huser⟩
    exact ⟨row, hrow, hid, huser, nofun⟩
  . exact List.forall_mem_cons.mpr ⟨le_rfl, h.past⟩
  . rintro wakeAt rfl
    cases hbegun'
  . intro now' hnow'
    exact h.begun now' (hbegun.trans (hbegun'.symm.trans hnow'))
  . intro _
    rw [hlast]
    exact List.forall_mem_cons.mpr ⟨h.within alert halert, h.reached (by rw [hbegun]; nofun)⟩
  . rw [hlast, hrest]
    exact fun other hother => h.within other (hpending ▸ List.mem_cons_of_mem alert hother)
  . rw [hrest]
    exact hsorted.2
  . rw [hrest]
    intro other hother
    have hother' := h.fresh other (hpending ▸ List.mem_cons_of_mem alert hother)
    exact ⟨hother'.there, List.forall_mem_cons.mpr ⟨hsorted.1 other hother, hother'.ahead⟩, hother'.stamps⟩
  . rcases hpc' with rfl | rfl <;> trivial
  . intro now' batch' rest' alert' heq
    rcases hpc' with rfl | rfl
    . cases heq
      exact ⟨_, _, rfl, rfl⟩
    . cases heq

theorem Recorded.stamp {message : Message} {user : String} {clock : Int} (h : Recorded s.table message)
    (hpast : message.arrivedAt ≤ clock) : Recorded (updatePingErrorAlertTime s.table user clock) message := by
  rcases h with ⟨row, hrow, hid, huser, hstamp⟩
  refine ⟨row.stamp user clock, List.mem_map_of_mem hrow, ?_⟩
  unfold PingErrorAlert.stamp
  split
  . exact ⟨hid, huser, fun _ => ⟨clock, rfl, hpast⟩⟩
  . exact ⟨hid, huser, hstamp⟩

theorem Recorded.stamp_self {message : Message} {clock : Int} (h : Recorded s.table message)
    (hpast : message.arrivedAt ≤ clock)
    : Recorded (updatePingErrorAlertTime s.table message.telegramId clock) { message with stamped := true } := by
  rcases h with ⟨row, hrow, hid, huser, hstamp⟩
  refine ⟨row.stamp message.telegramId clock, List.mem_map_of_mem hrow, ?_⟩
  unfold PingErrorAlert.stamp
  rw [if_pos huser]
  exact ⟨hid, huser, fun _ => ⟨clock, rfl, hpast⟩⟩

theorem Fresh.stamp {alert : PingErrorAlert} {user : String} {clock : Int} {message : Message} {messages : List Message}
    {pc : Pc} (h : s.Fresh alert) (hcurrent : s.current = message :: messages)
    : Fresh { s with
        table := updatePingErrorAlertTime s.table user clock
        pc
        current := { message with stamped := true } :: messages } alert where
  there := by
    rcases h.there with ⟨row, hrow, hid, huser⟩
    refine ⟨row.stamp user clock, List.mem_map_of_mem hrow, ?_⟩
    unfold PingErrorAlert.stamp
    split
    . exact ⟨hid, huser⟩
    . exact ⟨hid, huser⟩
  ahead := by
    have hahead := h.ahead
    rw [hcurrent, List.forall_mem_cons] at hahead
    exact List.forall_mem_cons.mpr hahead
  stamps := h.stamps

theorem Inv.stamped (h : s.Inv) {now : Int} {batch rest : List PingErrorAlert} {alert : PingErrorAlert}
    (hpc : s.pc = .body now batch rest alert .stamping)
    : Inv { s with
        table := updatePingErrorAlertTime s.table alert.telegramId s.clock
        pc := .alerts now batch rest
        current := markStamped s.current } := by
  rcases h.stamping now batch rest alert hpc with ⟨message, messages, hcurrent, huser⟩
  have hbegun : s.pc.begunAt = some now := by rw [hpc]; rfl
  have hpending : s.pc.pending = rest := by rw [hpc]; rfl
  have hlast : s.pc.lastId = (Pc.alerts now batch rest).lastId := by rw [hpc]; rfl
  have hspaced := h.spaced
  have hrecorded := h.recorded
  have hpast := h.past
  have hreached := h.reached (by rw [hbegun]; nofun)
  rw [hcurrent] at hspaced hrecorded hpast hreached
  rw [List.cons_append, List.forall_mem_cons] at hrecorded hpast
  rw [List.forall_mem_cons, hlast] at hreached
  rw [hcurrent]
  refine ⟨List.pairwise_cons.mpr (List.pairwise_cons.mp hspaced), ?_, List.forall_mem_cons.mpr hpast, nofun, ?_,
    fun _ => List.forall_mem_cons.mpr hreached, ?_, ?_, ?_, trivial, nofun⟩
  . refine List.forall_mem_cons.mpr ⟨?_, ?_⟩
    . rw [← huser]
      exact hrecorded.1.stamp_self hpast.1
    . exact fun other hother => (hrecorded.2 other hother).stamp (hpast.2 other hother)
  . rintro _ ⟨⟩
    exact h.begun now hbegun
  . rw [← hlast]
    exact fun other hother => h.within other (hpending ▸ hother)
  . have hsorted := h.sorted
    rwa [hpending] at hsorted
  . exact fun other hother => (h.fresh other (hpending ▸ hother)).stamp hcurrent

theorem Inv.moves (h : s.Inv) (hmoves : Moves s s') : s'.Inv := by
  cases hmoves with
  | elapsed us => exact h.elapsed us
  | tableChanged hkeeps => exact h.tableChanged hkeeps
  | woke hpc hle => exact h.woke hpc hle
  | pageRead hpc hpage hne => exact h.pageRead hpc hpage hne
  | passOver hbegun => exact h.passOver
  | goesOn hkeeps hbegun hbegun' hlast hpending hdue hstamping =>
    exact h.goesOn hkeeps hbegun hbegun' hlast hpending hdue hstamping
  | arrived hpc hpc' => exact h.arrived hpc hpc'
  | stamped hpc => exact h.stamped hpc
  | returned => exact h.returned

/--
In every run the warnings of a user are an hour apart, and a day after one whose stamp was committed.
-/
theorem spaced_of_run {table : Alerts} {clock : Int} {es : List Event}
    (hrun : Run.exec step (startMonitor table clock) es = some s) : Spaced (s.current ++ s.passed) :=
  (Run.invariant' (I := Inv) (fun h hstep => h.moves (moves_of_step h.due hstep)) (inv_startMonitor table clock)
    hrun).spaced

def oneAlert : Alerts where
  rows := [⟨1, "777", "1.2.3.4", none, true⟩]
  ids_nodup := by decide
  users_nodup := by decide

def warns (committed : Bool) : List Event :=
  [.woke, .pageRead, .alertTaken, .pinged false, .answered .sent, .stamped committed, .alertTaken]

theorem spaced_of_run_oneAlert
    : ∃ s, Run.exec step (startMonitor oneAlert 0)
        ([.elapsed 3600000000] ++ warns false ++ [.elapsed 3600000000] ++ warns true ++
          [.elapsed 86400000000, .upserted 2 "777" "5.6.7.8"] ++ warns true) = some s ∧
        Spaced (s.current ++ s.passed) := by
  have hrun : (Run.exec step (startMonitor oneAlert 0)
      ([.elapsed 3600000000] ++ warns false ++ [.elapsed 3600000000] ++ warns true ++
        [.elapsed 86400000000, .upserted 2 "777" "5.6.7.8"] ++ warns true)).isSome := by decide +kernel
  exact ⟨_, (Option.some_get hrun).symm, spaced_of_run (Option.some_get hrun).symm⟩

end Monitor

end PingAlerts
