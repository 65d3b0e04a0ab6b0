import VoltykBot.Reminders.Checker
import VoltykBot.Reminders.Routines

/-!
This module contains `cleanup_old_reminders`, which the daily flush calls while both routines go on. The rows that it
deletes are not missed: the routines do what they would do with all rows.
-/

namespace Scheduler.Reminders

/--
`older_than_hours`
-/
def keptUs : Int := 48 * 60 * minuteUs

def cleanupOldReminders (table : List SentReminder) (now : Int) : List SentReminder :=
  table.filter fun row => ¬ row.createdAt < now - keptUs

def aheadUs : Int := (Remind.minutes .h1 + 2) * minuteUs

namespace Routines

/--
`floor` records before which time rows have been deleted, and `scannedAt` the clock of the last pair of each routine.
-/
structure Purged where
  routines : Routines
  floor : Int
  scannedAt : Routine → Int

inductive PurgedEvent where
  | goesOn (e : Event)
  | cleanedUp (now : Int)

def Event.scan (e : Event) (scannedAt : Routine → Int) : Routine → Int :=
  match e with
  | .acted r (.pairScanned _ _ now _) => Function.update scannedAt r now
  | _ => scannedAt

def PurgedEvent.step (s : Purged) (e : PurgedEvent) : Option Purged :=
  match e with
  | .goesOn e => (s.routines.step e).map fun routines => { s with routines, scannedAt := e.scan s.scannedAt }
  | .cleanedUp now => some { s with
      routines := { s.routines with table := cleanupOldReminders s.routines.table now }
      floor := max s.floor (now - keptUs) }

def PurgedEvent.event (e : PurgedEvent) : Option Event :=
  match e with
  | .goesOn e => some e
  | .cleanedUp _ => none

/--
No read of the anchors falls behind a cleanup, marks are not stamped before the scan of their pair, and no pair is
worked off nearly 47 hours after its scan.
-/
def Timely (s : Purged) (e : PurgedEvent) : Prop :=
  match e with
  | .goesOn (.acted _ (.anchorsRead _ cutoff)) => s.floor ≤ cutoff
  | .goesOn (.acted r .checked) => s.floor + aheadUs ≤ s.scannedAt r
  | .goesOn (.acted r (.marked createdAt _)) =>
    s.floor + aheadUs ≤ s.scannedAt r ∧ ∀ key ∈ (s.routines.pc r).toMark, s.scannedAt r ≤ createdAt key
  | _ => True

instance (s : Purged) (e : PurgedEvent) : Decidable (Timely s e) := by
  unfold Timely
  split <;> infer_instance

def besidesTable (m : Routines) : Routines := { m with table := [] }

section

variable {floor cutoff : Int} {table : List SentReminder} {key : Key} {pair : Pair} {createdAt : Key → Int}

def above (floor : Int) (table : List SentReminder) : List SentReminder := table.filter (floor ≤ ·.createdAt)

/--
No row is older than the time at which a reminder of its event could first be sent.
-/
def Stamped (table : List SentReminder) : Prop :=
  ∀ row ∈ table, row.key.periodKey.instant ≤ row.createdAt + aheadUs

theorem cleanupOldReminders_above (now : Int)
    : cleanupOldReminders (above floor table) now = above (max floor (now - keptUs)) table := by
  unfold cleanupOldReminders above
  rw [List.filter_filter]
  apply List.filter_congr
  intro row _
  rw [← Bool.decide_and, decide_eq_decide, Int.not_lt, Int.max_le]
  exact and_comm

theorem getActiveReminderAnchors_above (h : floor ≤ cutoff)
    : getActiveReminderAnchors (above floor table) cutoff = getActiveReminderAnchors table cutoff := by
  have hrows : (above floor table).filter (cutoff < ·.createdAt) = table.filter (cutoff < ·.createdAt) := by
    unfold above
    rw [List.filter_filter]
    apply List.filter_congr
    intro row _
    rw [← Bool.decide_and, decide_eq_decide]
    exact and_iff_left_of_imp fun hlt => Int.le_trans h (Int.le_of_lt hlt)
  unfold getActiveReminderAnchors
  rw [hrows]

theorem recorded_above (hstamped : Stamped table) (hkey : floor + aheadUs ≤ key.periodKey.instant)
    : recorded (above floor table) key = recorded table key := by
  rw [Bool.eq_iff_iff, recorded_iff, recorded_iff]
  unfold above
  constructor
  . rintro ⟨row, hrow, rfl⟩
    exact ⟨row, List.mem_of_mem_filter hrow, rfl⟩
  . rintro ⟨row, hrow, rfl⟩
    refine ⟨row, List.mem_filter.mpr ⟨hrow, decide_eq_true ?_⟩, rfl⟩
    have := hstamped row hrow
    omega

theorem markReminderSent_above (row : SentReminder) (hstamped : Stamped table) (hrow : floor ≤ row.createdAt)
    (hkey : floor + aheadUs ≤ row.key.periodKey.instant)
    : markReminderSent (above floor table) row = above floor (markReminderSent table row) := by
  unfold markReminderSent
  rw [recorded_above hstamped hkey]
  split
  . rfl
  . unfold above
    rw [List.filter_append, List.filter_singleton, decide_eq_true hrow]
    rfl

theorem stamped_markReminderSent {row : SentReminder} (hstamped : Stamped table)
    (hrow : row.key.periodKey.instant ≤ row.createdAt + aheadUs) : Stamped (markReminderSent table row) := by
  unfold markReminderSent
  split
  . exact hstamped
  . intro row' hrow'
    rcases List.mem_append.mp hrow' with hold | hnew
    . exact hstamped row' hold
    . rw [List.mem_singleton.mp hnew]
      exact hrow

/--
What the marks of a commit need: a key's event is not over for long, and its mark is not stamped too early.
-/
def Marks (floor : Int) (createdAt : Key → Int) (keys : List Key) : Prop :=
  ∀ key ∈ keys, floor ≤ createdAt key ∧ floor + aheadUs ≤ key.periodKey.instant ∧
    key.periodKey.instant ≤ createdAt key + aheadUs

theorem stamped_markAll {keys : List Key} (hstamped : Stamped table) (hmarks : Marks floor createdAt keys)
    : Stamped (markAll table pair createdAt keys) := by
  unfold markAll
  induction keys generalizing table with
  | nil => exact hstamped
  | cons key keys ih =>
    have hkey := hmarks key List.mem_cons_self
    exact ih (stamped_markReminderSent hstamped hkey.2.2) fun key hkey => hmarks key (List.mem_cons_of_mem _ hkey)

theorem markAll_above {keys : List Key} (hstamped : Stamped table) (hmarks : Marks floor createdAt keys)
    : markAll (above floor table) pair createdAt keys = above floor (markAll table pair createdAt keys) := by
  unfold markAll
  induction keys generalizing table with
  | nil => rfl
  | cons key keys ih =>
    have hkey := hmarks key List.mem_cons_self
    have hmark := markReminderSent_above ⟨key, pair.1, pair.2, createdAt key⟩ hstamped hkey.1 hkey.2.1
    rw [List.foldl_cons, List.foldl_cons, hmark]
    apply ih
    . exact stamped_markReminderSent hstamped hkey.2.2
    . exact fun key hkey => hmarks key (List.mem_cons_of_mem _ hkey)

end

def Ahead (now : Int) (next : NextEvent) : Prop := now < next.time.instant ∧ next.time.instant < now + aheadUs

theorem ahead_of_minutes {t : IsoTime} {now : Int} (hlow : 0 < minutesUntil t now)
    (hhigh : minutesUntil t now ≤ Remind.minutes .h1 + 1) : now < t.instant ∧ t.instant < now + aheadUs := by
  unfold minutesUntil at hlow hhigh
  unfold aheadUs
  have hminutes : Remind.minutes .h1 = 60 := rfl
  rw [hminutes] at hhigh ⊢
  unfold minuteUs at hlow hhigh ⊢
  cases Int.le_total 0 (t.instant - now) with
  | inl hahead =>
    rw [Int.tdiv_eq_ediv_of_nonneg hahead] at hlow hhigh
    omega
  | inr hpassed =>
    have hneg : (t.instant - now).tdiv (60 * 1000000) ≤ 0 := by
      rw [← Int.neg_neg (t.instant - now), Int.neg_tdiv, Int.tdiv_eq_ediv_of_nonneg (by omega)]
      omega
    omega

theorem ahead_of_batches {r : Routine} {sched : Sched} {now : Int} {next : NextEvent} {users : List User}
    (hnext : findNextEvent sched now = some next) (hbatches : batchesOf r next users ≠ []) : Ahead now next := by
  have hminutes := minutes_findNextEvent hnext
  unfold Ahead
  cases r with
  | checker =>
    rcases List.exists_mem_of_ne_nil _ hbatches with ⟨batch, hbatch⟩
    rcases List.mem_filter.mp hbatch with ⟨hmem, hne⟩
    rw [List.mem_singleton.mp hmem, decide_eq_true_eq] at hne
    rcases List.exists_mem_of_ne_nil _ hne with ⟨send, hsend⟩
    have hwindow := of_decide_eq_true (mem_checkerToSend.mp hsend).2.2
    rw [hminutes] at hwindow
    have hlow : 15 ≤ send.remind.minutes := by cases send.remind <;> decide
    have hhigh : send.remind.minutes ≤ Remind.minutes .h1 := by cases send.remind <;> decide
    apply ahead_of_minutes
    . omega
    . omega
  | catchUp =>
    unfold batchesOf catchUpBatches at hbatches
    dsimp only at hbatches
    split at hbatches
    . exact absurd rfl hbatches
    . next hnear =>
      rw [not_or, Int.not_le, Int.not_lt] at hnear
      rw [hminutes] at hnear
      exact ahead_of_minutes hnear.1 hnear.2

def Scanned (now : Int) (pc : Pc) : Prop :=
  match pc with
  | .checking work _ => Ahead now work.next
  | .sending work toMark _ => Ahead now work.next ∧ ∀ key ∈ toMark, key.periodKey = work.next.time
  | .deleting work toMark _ _ _ _ => Ahead now work.next ∧ ∀ key ∈ toMark, key.periodKey = work.next.time
  | .awaiting work toMark _ _ => Ahead now work.next ∧ ∀ key ∈ toMark, key.periodKey = work.next.time
  | .storing work toMark _ _ _ => Ahead now work.next ∧ ∀ key ∈ toMark, key.periodKey = work.next.time
  | _ => True

section

variable {now : Int} {work : Work} {toMark : List Key} {todo : List Send}

theorem scanned_nextBatch (h : Ahead now work.next) : Scanned now (nextBatch work) := by
  unfold nextBatch
  split
  . trivial
  . exact h

theorem scanned_proceed (h : Ahead now work.next) (hkeys : ∀ key ∈ toMark, key.periodKey = work.next.time)
    : Scanned now (proceed work toMark todo) := by
  unfold proceed
  split
  . exact scanned_nextBatch h
  . exact ⟨h, hkeys⟩

end

def hide (floor : Int) (m : Routines) : Routines := { m with table := above floor m.table }

theorem hide_updateTracking {floor : Int} {m : Routines} {tid : TelegramId} {ok : Bool} {write : Tracking → Tracking}
    : (hide floor m).updateTracking tid ok write = hide floor (m.updateTracking tid ok write) := by
  unfold updateTracking
  split
  . rfl
  . rfl

theorem marks_of_scanned {floor : Int} {work : Work} {toMark : List Key} {createdAt : Key → Int} {scannedAt : Int}
    (hscanned : Ahead scannedAt work.next ∧ ∀ key ∈ toMark, key.periodKey = work.next.time)
    (hfloor : floor + aheadUs ≤ scannedAt) (hstamps : ∀ key ∈ toMark, scannedAt ≤ createdAt key)
    : Marks floor createdAt toMark := by
  intro key hkey
  have hahead : 0 ≤ aheadUs := by decide
  have hstamp := hstamps key hkey
  rcases hscanned.1 with ⟨hlow, hhigh⟩
  rw [hscanned.2 key hkey]
  refine ⟨?_, ?_, ?_⟩
  . omega
  . omega
  . omega

theorem act_hide {floor : Int} {m : Routines} {r : Routine} {a : Action} {scannedAt : Routine → Int}
    (hstamped : Stamped m.table) (hscanned : Scanned (scannedAt r) (m.pc r))
    (htimely : Timely ⟨hide floor m, floor, scannedAt⟩ (.goesOn (.acted r a)))
    : (hide floor m).act r a = (m.act r a).map (hide floor) := by
  have hpc : (hide floor m).pc r = m.pc r := rfl
  unfold act
  rw [hpc]
  split
  . next now cutoff _ =>
    split
    . have hanchors : getActiveReminderAnchors (hide floor m).table cutoff = getActiveReminderAnchors m.table cutoff :=
        getActiveReminderAnchors_above htimely
      rw [hanchors]
      rfl
    . rfl
  . split
    . rfl
    . rfl
  . split
    . rfl
    . rfl
  . next tid _ _ _ _ =>
    have htracking : (hide floor m).tracking tid = m.tracking tid := rfl
    rw [htracking]
    split
    . rfl
    . rfl
  . rfl
  . rfl
  . rw [hide_updateTracking]
    rfl
  . split
    . rfl
    . rfl
  . rfl
  . next work batch hchecking =>
    rw [hchecking] at hscanned
    have hfound : (batch.filter fun send => !recorded (hide floor m).table (send.key work.next)) =
        batch.filter fun send => !recorded m.table (send.key work.next) := by
      apply List.filter_congr
      intro send _
      have hkey : floor + aheadUs ≤ (send.key work.next).periodKey.instant :=
        Int.le_trans htimely (Int.le_of_lt hscanned.1)
      exact congrArg not (recorded_above hstamped hkey)
    rw [hfound]
    rfl
  . next send _ _ _ =>
    have htracking : (hide floor m).tracking send.user.telegramId = m.tracking send.user.telegramId := rfl
    rw [htracking]
    split
    . rfl
    . rfl
  . rfl
  . rw [hide_updateTracking]
    rfl
  . split
    . rfl
    . rfl
  . rw [hide_updateTracking]
    rfl
  . next work toMark createdAt clock hsending =>
    rw [hsending] at hscanned
    have hstamps : ∀ key ∈ toMark, scannedAt r ≤ createdAt key := by
      intro key hkey
      apply htimely.2
      dsimp only
      rw [hpc, hsending]
      exact hkey
    have hmarks := marks_of_scanned hscanned htimely.1 hstamps
    have htable : markAll (hide floor m).table work.pair createdAt toMark =
        above floor (markAll m.table work.pair createdAt toMark) := markAll_above hstamped hmarks
    have hclock : (hide floor m).clock = m.clock := rfl
    rw [htable, hclock]
    split
    . rfl
    . rfl
  . rfl
  . rfl
  . rfl
  . rfl
  . rfl
  . rfl

theorem goto_keeps {m m' : Routines} {r : Routine} {pc : Pc} {now : Int} (hstamped : Stamped m.table)
    (htable : m'.table = m.table) (hpc : m'.pc = m.pc) (hscanned : Scanned now pc)
    : Stamped (m'.goto r pc).table ∧ ∃ pc', (m'.goto r pc).pc = Function.update m.pc r pc' ∧ Scanned now pc' := by
  refine ⟨?_, pc, ?_, hscanned⟩
  . unfold goto
    dsimp only
    rw [htable]
    exact hstamped
  . unfold goto
    dsimp only
    rw [hpc]

theorem scanned_pair {r : Routine} {pair : Pair} {sched : Sched} {now : Int} {next : NextEvent} {users : List User}
    (hnext : findNextEvent sched now = some next)
    : Scanned now (nextBatch { pair := pair, next := next, rest := batchesOf r next users }) := by
  by_cases hbatches : batchesOf r next users = []
  . rw [hbatches]
    trivial
  . exact scanned_nextBatch (ahead_of_batches hnext hbatches)

theorem act_keeps {floor : Int} {m m' : Routines} {r : Routine} {a : Action} {scannedAt : Routine → Int}
    (hstamped : Stamped m.table) (hscanned : Scanned (scannedAt r) (m.pc r))
    (htimely : Timely ⟨hide floor m, floor, scannedAt⟩ (.goesOn (.acted r a))) (hact : m.act r a = some m')
    : Stamped m'.table ∧
        ∃ pc, m'.pc = Function.update m.pc r pc ∧ Scanned ((Event.acted r a).scan scannedAt r) pc := by
  unfold act at hact
  split at hact
  . split at hact
    . cases hact
      exact goto_keeps hstamped rfl rfl trivial
    . cases hact
  . split at hact
    . cases hact
      exact goto_keeps hstamped rfl rfl trivial
    . cases hact
  . split at hact
    . cases hact
      exact goto_keeps hstamped rfl rfl trivial
    . cases hact
  . split at hact
    . cases hact
      exact goto_keeps hstamped rfl rfl trivial
    . cases hact
      exact goto_keeps hstamped rfl rfl trivial
  . cases hact
    exact goto_keeps hstamped rfl rfl trivial
  . cases hact
    exact goto_keeps hstamped rfl rfl trivial
  . cases hact
    exact goto_keeps hstamped (table_updateTracking _ _ _ _) (pc_updateTracking _ _ _ _) trivial
  . next pair sched now users hpairs =>
    have hscan : (Event.acted r (.pairScanned pair sched now users)).scan scannedAt r = now := by
      unfold Event.scan
      exact Function.update_self r now scannedAt
    rw [hscan]
    split at hact
    . cases hact
      refine ⟨hstamped, m.pc r, (Function.update_eq_self r m.pc).symm, ?_⟩
      rw [hpairs]
      trivial
    . next next hnext =>
      cases hact
      exact goto_keeps hstamped rfl rfl (scanned_pair hnext)
  . cases hact
    exact goto_keeps hstamped rfl rfl trivial
  . next work batch hchecking =>
    cases hact
    rw [hchecking] at hscanned
    exact goto_keeps hstamped rfl rfl (scanned_proceed hscanned nofun)
  . next work toMark send todo hasChannel hsending =>
    rw [hsending] at hscanned
    split at hact
    . cases hact
      exact goto_keeps hstamped rfl rfl hscanned
    . cases hact
      exact goto_keeps hstamped rfl rfl hscanned
  . next hsending =>
    rw [hsending] at hscanned
    cases hact
    exact goto_keeps hstamped rfl rfl hscanned
  . next hdeleting =>
    rw [hdeleting] at hscanned
    cases hact
    exact goto_keeps hstamped (table_updateTracking _ _ _ _) (pc_updateTracking _ _ _ _) hscanned
  . next hawaiting =>
    rw [hawaiting] at hscanned
    split at hact
    . cases hact
      exact goto_keeps hstamped rfl rfl hscanned
    . cases hact
      exact goto_keeps hstamped rfl rfl (scanned_proceed hscanned.1 hscanned.2)
  . next work toMark send todo outcome ok hstoring =>
    rw [hstoring] at hscanned
    cases hact
    have hkeys : ∀ key ∈ toMark ++ [send.key work.next], key.periodKey = work.next.time := by
      intro key hkey
      rcases List.mem_append.mp hkey with hold | hnew
      . exact hscanned.2 key hold
      . rw [List.mem_singleton.mp hnew]
        rfl
    have hproceed : Scanned (scannedAt r) (proceed work (toMark ++ [send.key work.next]) todo) :=
      scanned_proceed hscanned.1 hkeys
    exact goto_keeps hstamped (table_updateTracking _ _ _ _) (pc_updateTracking _ _ _ _) hproceed
  . next work toMark createdAt clock hsending =>
    have hstamps : ∀ key ∈ toMark, scannedAt r ≤ createdAt key := by
      intro key hkey
      apply htimely.2
      have hpc : (hide floor m).pc r = m.pc r := rfl
      dsimp only
      rw [hpc, hsending]
      exact hkey
    rw [hsending] at hscanned
    split at hact
    . cases hact
      have hmarks := marks_of_scanned hscanned htimely.1 hstamps
      exact ⟨stamped_markAll hstamped hmarks, _, rfl, scanned_nextBatch hscanned.1⟩
    . cases hact
  . cases hact
    exact goto_keeps hstamped rfl rfl trivial
  . cases hact
    exact goto_keeps hstamped rfl rfl trivial
  . cases hact
    exact goto_keeps hstamped rfl rfl trivial
  . cases hact
    exact goto_keeps hstamped rfl rfl trivial
  . cases hact
    exact goto_keeps hstamped rfl rfl trivial
  . cases hact

structure Hides (s : Purged) (m : Routines) : Prop where
  same : s.routines = hide s.floor m
  stamped : Stamped m.table
  scanned : ∀ r, Scanned (s.scannedAt r) (m.pc r)

theorem Hides.cleanedUp {s : Purged} {m : Routines} (h : Hides s m) (now : Int)
    : ∃ s', PurgedEvent.step s (.cleanedUp now) = some s' ∧ Hides s' m := by
  refine ⟨_, rfl, ?_, h.stamped, h.scanned⟩
  rw [h.same]
  unfold hide
  dsimp only
  rw [cleanupOldReminders_above]

theorem scan_other {r : Routine} {a : Action} {scannedAt : Routine → Int}
    : (Event.acted r a).scan scannedAt r.other = scannedAt r.other := by
  unfold Event.scan
  cases a with
  | pairScanned pair sched now users => exact Function.update_of_ne (other_ne r) _ _
  | _ => rfl

theorem step_hide {floor : Int} {m : Routines} {e : Event} {scannedAt : Routine → Int} (hstamped : Stamped m.table)
    (hscanned : ∀ r, Scanned (scannedAt r) (m.pc r)) (htimely : Timely ⟨hide floor m, floor, scannedAt⟩ (.goesOn e))
    : (hide floor m).step e = (m.step e).map (hide floor) := by
  cases e with
  | acted r a => exact act_hide hstamped (hscanned r) htimely
  | registered tid =>
    have htracking : (hide floor m).tracking = m.tracking := rfl
    unfold step
    dsimp only
    rw [htracking]
    split
    . rfl
    . rfl
  | unregistered tid => rfl
  | restarted => rfl

theorem step_keeps {floor : Int} {m m' : Routines} {e : Event} {scannedAt : Routine → Int}
    (hstamped : Stamped m.table) (hscanned : ∀ r, Scanned (scannedAt r) (m.pc r))
    (htimely : Timely ⟨hide floor m, floor, scannedAt⟩ (.goesOn e)) (hstep : m.step e = some m')
    : Stamped m'.table ∧ ∀ r, Scanned (e.scan scannedAt r) (m'.pc r) := by
  cases e with
  | acted r a =>
    rcases act_keeps hstamped (hscanned r) htimely hstep with ⟨hstamped', pc, hpc, hscanned'⟩
    refine ⟨hstamped', forall_routine (fun q pc => Scanned ((Event.acted r a).scan scannedAt q) pc) hpc hscanned' ?_⟩
    rw [scan_other]
    exact hscanned r.other
  | registered tid =>
    unfold step at hstep
    dsimp only at hstep
    split at hstep
    . cases hstep
      exact ⟨hstamped, hscanned⟩
    . cases hstep
      exact ⟨hstamped, hscanned⟩
  | unregistered tid =>
    cases hstep
    exact ⟨hstamped, hscanned⟩
  | restarted =>
    cases hstep
    exact ⟨hstamped, fun _ => trivial⟩

theorem Hides.goesOn {s : Purged} {m : Routines} {e : Event} (h : Hides s m) (htimely : Timely s (.goesOn e))
    : (PurgedEvent.step s (.goesOn e) = none ∧ m.step e = none) ∨
        ∃ s' m', PurgedEvent.step s (.goesOn e) = some s' ∧ m.step e = some m' ∧ Hides s' m' := by
  rcases s with ⟨routines, floor, scannedAt⟩
  rcases h with ⟨hsame, hstamped, hscanned⟩
  dsimp only at hsame hscanned
  subst hsame
  have hhide := step_hide hstamped hscanned htimely
  unfold PurgedEvent.step
  dsimp only
  rw [hhide]
  cases hm : m.step e with
  | none => exact .inl ⟨rfl, rfl⟩
  | some m' =>
    have hkeeps := step_keeps hstamped hscanned htimely hm
    exact .inr ⟨_, m', rfl, rfl, rfl, hkeeps.1, hkeeps.2⟩

theorem Hides.besidesTable_eq {s : Purged} {m : Routines} (h : Hides s m)
    : besidesTable s.routines = besidesTable m := by
  rw [h.same]
  rfl

theorem Hides.run {s : Purged} {m : Routines} {es : List PurgedEvent} (h : Hides s m)
    (htimely : Run.StepsMeet PurgedEvent.step Timely s es)
    : (Run.exec PurgedEvent.step s es).map (fun s => besidesTable s.routines) =
        (Run.exec Routines.step m (es.filterMap PurgedEvent.event)).map besidesTable := by
  induction es generalizing s m with
  | nil => exact congrArg some h.besidesTable_eq
  | cons e es ih =>
    cases e with
    | cleanedUp now =>
      rcases h.cleanedUp now with ⟨s', hstep, h'⟩
      have hevents : (PurgedEvent.cleanedUp now :: es).filterMap PurgedEvent.event = es.filterMap PurgedEvent.event :=
        rfl
      rw [hevents, Run.exec_cons, hstep]
      exact ih h' (htimely.tail hstep)
    | goesOn e =>
      have hevents : (PurgedEvent.goesOn e :: es).filterMap PurgedEvent.event =
          e :: es.filterMap PurgedEvent.event := rfl
      rw [hevents, Run.exec_cons, Run.exec_cons]
      rcases h.goesOn htimely.head with ⟨hstep, hm⟩ | ⟨s', m', hstep, hm, h'⟩
      . rw [hstep, hm]
        rfl
      . rw [hstep, hm]
        exact ih h' (htimely.tail hstep)

/--
The routines send, delete and store what they would if no row was ever deleted.
-/
theorem cleanupOldReminders_unnoticed {s : Purged} {es : List PurgedEvent} (hidle : ∀ r, s.routines.pc r = .idle)
    (hstamped : Stamped s.routines.table) (hfloor : ∀ row ∈ s.routines.table, s.floor ≤ row.createdAt)
    (htimely : Run.StepsMeet PurgedEvent.step Timely s es)
    : (Run.exec PurgedEvent.step s es).map (fun s => besidesTable s.routines) =
        (Run.exec Routines.step s.routines (es.filterMap PurgedEvent.event)).map besidesTable := by
  have hrows : above s.floor s.routines.table = s.routines.table := by
    apply List.filter_eq_self.mpr
    exact fun row hrow => decide_eq_true (hfloor row hrow)
  have hhides : Hides s s.routines := {
    same := by
      unfold hide
      rw [hrows]
    stamped := hstamped
    scanned := by
      intro r
      rw [hidle r]
      trivial }
  exact hhides.run htimely

def noRows : Purged where
  routines := {}
  floor := 0
  scannedAt := fun _ => 0

def threeDaysUs : Int := 3 * 24 * 60 * minuteUs

def laterOutage : Sched where
  hasData := true
  events := [{
    start := ⟨4, 13, 7200⟩
    endAt := ⟨4, 17, 7200⟩
    isPossible := false }]
  queue := "1.1"
  dtekUpdatedAt := none

def firstMorning : List Event :=
  [.registered "777", .acted .catchUp .started, pairAtSix .catchUp, .acted .catchUp .checked] ++
  sendOf .catchUp 1 ++
  [.acted .catchUp (.marked (fun _ => sixSharp) sixSharp), .acted .catchUp .ended]

def fourthMorning : List Event :=
  [.acted .checker (.anchorsRead (sixSharp + threeDaysUs) (sixSharp + threeDaysUs - keptUs)),
    .acted .checker .cleanupEnded,
    .acted .checker (.pairScanned ("kyiv", "1.1") laterOutage (sixSharp + threeDaysUs) [earlyUser]),
    .acted .checker .checked] ++
  sendOf .checker 2 ++
  [.acted .checker (.marked (fun _ => sixSharp + threeDaysUs) (sixSharp + threeDaysUs))]

def threeDaysOn : List PurgedEvent :=
  firstMorning.map .goesOn ++ [.cleanedUp (sixSharp + threeDaysUs)] ++ fourthMorning.map .goesOn

theorem cleanupOldReminders_unnoticed_threeDaysOn
    : (Run.exec PurgedEvent.step noRows threeDaysOn).map (·.routines.table.map (·.key.periodKey)) =
        some [⟨4, 13, 7200⟩] ∧
      (Run.exec Routines.step {} (threeDaysOn.filterMap PurgedEvent.event)).map (·.table.map (·.key.periodKey)) =
        some [⟨1, 13, 7200⟩, ⟨4, 13, 7200⟩] ∧
      (Run.exec PurgedEvent.step noRows threeDaysOn).map (fun s => besidesTable s.routines) =
        (Run.exec Routines.step noRows.routines (threeDaysOn.filterMap PurgedEvent.event)).map besidesTable := by
  refine ⟨by decide +kernel, by decide +kernel, ?_⟩
  have hstamped : Stamped noRows.routines.table := List.forall_mem_nil _
  have htimely : Run.StepsMeet PurgedEvent.step Timely noRows threeDaysOn := by decide +kernel
  exact cleanupOldReminders_unnoticed (fun _ => rfl) hstamped (List.forall_mem_nil _) htimely

end Routines

end Scheduler.Reminders
