import VoltykBot.Schedule.Announce
import VoltykBot.Schedule.Patch

/-!
This module contains what the 06:00 flush sends for a change that was queued in quiet hours, against what
the checker would have sent itself and against what the users were told before the night.
-/

namespace Scheduler

variable {Hash : Type}

theorem waits_toPending (blast : Blast) (createdAt : Int)
    : (blast.toPending createdAt).waits blast.pair = true := by
  simp [PendingNotification.waits, Blast.toPending]

theorem getLatestPendingNotification_save {store : Store Hash} {blast : Blast} {createdAt : Int}
    (h : ∀ row ∈ store.pending, row.waits blast.pair = true → row.createdAt < createdAt)
    : (store.savePendingNotification (blast.toPending createdAt)).getLatestPendingNotification
        blast.pair = some (blast.toPending createdAt) := by
  rw [Store.getLatestPendingNotification_eq]
  unfold Store.savePendingNotification
  rw [List.filter_append, List.filter_singleton, waits_toPending, Bool.cond_true]
  apply Latest.latest_append_newer
  intro row hrow
  exact h row (List.mem_filter.mp hrow).1 (List.mem_filter.mp hrow).2

variable [DecidableEq Hash] (calculateScheduleHash : List ScheduleEvent → Hash)

theorem classify_untagged (snapshot yesterdaySnapshot : Option (DailySnapshot Hash))
    (events : List ScheduleEvent) (todayDate tomorrowDate : Date)
    : (classify calculateScheduleHash snapshot yesterdaySnapshot events todayDate
          tomorrowDate).1.dailyPlanned = false ∧
        (classify calculateScheduleHash snapshot yesterdaySnapshot events todayDate
          tomorrowDate).1.initial = false := by
  unfold classify
  cases snapshot with
  | none => exact ⟨rfl, rfl⟩
  | some snapshot => exact ⟨rfl, rfl⟩

theorem isDailyPlanned_changeBlast (store : Store Hash) (pair : Pair) (sched : Sched)
    (reads : CheckReads)
    : let blast := changeBlast calculateScheduleHash store pair sched reads
      blast.isDailyPlanned = (blast.updateType.initial || blast.updateType.dailyPlanned) := by
  have htags := classify_untagged calculateScheduleHash (store.snapshots pair reads.todayDate)
    (store.snapshots pair reads.yesterdayDate) sched.events reads.todayDate reads.tomorrowDate
  unfold changeBlast
  dsimp only
  rw [htags.1, htags.2, Bool.false_or, Bool.false_or]
  -- an initial load is not tagged as daily planned, and need not be
  cases (store.lastHash pair).isNone with
  | true => rfl
  | false => rw [Bool.not_false, Bool.and_true, Bool.false_or]

theorem toBlast_toPending_eq {blast : Blast} (createdAt : Int)
    (h : blast.isDailyPlanned = (blast.updateType.initial || blast.updateType.dailyPlanned))
    : (blast.toPending createdAt).toBlast blast.pair = some blast := by
  rcases blast with ⟨pair, sched, updateType, ⟨added, removed⟩, isDailyPlanned⟩
  dsimp only at h
  rw [h]
  -- changes without an event are stored as NULL
  cases added with
  | cons ev added => rfl
  | nil =>
    cases removed with
    | cons ev removed => rfl
    | nil => rfl

theorem toBlast_toPending_changeBlast (store : Store Hash) (pair : Pair) (sched : Sched)
    (reads : CheckReads) (createdAt : Int)
    : ((changeBlast calculateScheduleHash store pair sched reads).toPending createdAt).toBlast pair =
        some (changeBlast calculateScheduleHash store pair sched reads) :=
  toBlast_toPending_eq createdAt (isDailyPlanned_changeBlast calculateScheduleHash store pair sched reads)

omit [DecidableEq Hash] in
theorem flushPair_of_latest {store : Store Hash} {pair : Pair} {row : PendingNotification}
    {blast : Blast} (hrow : store.getLatestPendingNotification pair = some row)
    (hblast : row.toBlast pair = some blast) (fetched : Option Sched) (flushReads : FlushReads)
    : (flushPair calculateScheduleHash store pair true fetched flushReads).2 = some blast := by
  unfold flushPair
  rw [hrow]
  dsimp only
  rw [hblast]

variable {calculateScheduleHash}

/--
A change found in quiet hours is queued as a row of which the flush makes the blast that the checker
itself sends for the change outside quiet hours.
-/
theorem flushed_eq_immediate {store : Store Hash} {pair : Pair} {sched : Sched} {reads : CheckReads}
    {night day : WallTime} {createdAt : Int}
    (hchanged : store.lastHash pair ≠ some (calculateScheduleHash sched.events))
    (hnight : night.isQuietHours = true) (hday : day.isQuietHours = false)
    : ∃ row,
        (checkSingleQueue calculateScheduleHash store pair (some sched) { reads with quiet := night }
          createdAt).1.pending = store.pending ++ [row] ∧
        row.waits pair = true ∧
        ∀ later : Store Hash, later.getLatestPendingNotification pair = some row →
          ∀ fetched flushReads createdAt',
            (flushPair calculateScheduleHash later pair true fetched flushReads).2 =
                (checkSingleQueue calculateScheduleHash store pair (some sched)
                  { reads with quiet := day } createdAt').2 ∧
              ((flushPair calculateScheduleHash later pair true fetched flushReads).2).isSome := by
  have himmediate (createdAt' : Int) : (checkSingleQueue calculateScheduleHash store pair (some sched)
      { reads with quiet := day } createdAt').2 =
        some (changeBlast calculateScheduleHash store pair sched reads) := by
    simp only [checkSingleQueue, if_neg hchanged, hday]
    rfl
  refine ⟨(changeBlast calculateScheduleHash store pair sched reads).toPending createdAt, ?_,
    waits_toPending _ _, ?_⟩
  . simp only [checkSingleQueue, if_neg hchanged, hnight, if_true, writeChange]
    rfl
  . intro later hlatest fetched flushReads createdAt'
    have hflushed := flushPair_of_latest calculateScheduleHash hlatest
      (toBlast_toPending_changeBlast calculateScheduleHash store pair sched reads createdAt)
      fetched flushReads
    rw [hflushed, himmediate]
    exact ⟨rfl, rfl⟩

theorem flushed_eq_immediate_morningStore
    : ∃ row,
        (checkSingleQueue id morningStore ("kyiv", "1.1") (some (morningOutage true))
          { sampleReads with quiet := hourUs } 7).1.pending = morningStore.pending ++ [row] ∧
        row.waits ("kyiv", "1.1") = true ∧
        ∀ later : Store (List ScheduleEvent),
          later.getLatestPendingNotification ("kyiv", "1.1") = some row →
            ∀ fetched flushReads createdAt',
              (flushPair id later ("kyiv", "1.1") true fetched flushReads).2 =
                  (checkSingleQueue id morningStore ("kyiv", "1.1") (some (morningOutage true))
                    { sampleReads with quiet := 12 * hourUs } createdAt').2 ∧
                ((flushPair id later ("kyiv", "1.1") true fetched flushReads).2).isSome :=
  flushed_eq_immediate (by decide +kernel) (by decide) (by decide)

structure NightCheck where
  sched : Sched
  reads : CheckReads
  createdAt : Int

def NightCheck.InNight (c : NightCheck) (date : Date) : Prop :=
  c.reads.OneDay ∧ c.reads.todayDate = date ∧ c.reads.quiet.isQuietHours = true

instance (c : NightCheck) (date : Date) : Decidable (c.InNight date) :=
  inferInstanceAs (Decidable (_ ∧ _))

/--
The announced changes are the difference, by start and end, between the schedule that was sent before and
the one that is sent now.
-/
structure NetChange (blast : Blast) (sent : List ScheduleEvent) (todayDate tomorrowDate : Date)
    : Prop where
  added : ∀ key, key ∈ blast.changes.added.map (·.key) ↔
    key ∈ (eventsNotIn (bothDays blast.sched.events todayDate tomorrowDate)
      (bothDays sent todayDate tomorrowDate)).map (·.key)
  removed : ∀ key, key ∈ blast.changes.removed.map (·.key) ↔
    key ∈ (eventsNotIn (bothDays sent todayDate tomorrowDate)
      (bothDays blast.sched.events todayDate tomorrowDate)).map (·.key)

def SamePeriods (events events' : List ScheduleEvent) (todayDate tomorrowDate : Date) : Prop :=
  ∀ key, key ∈ (bothDays events todayDate tomorrowDate).map (·.key) ↔
    key ∈ (bothDays events' todayDate tomorrowDate).map (·.key)

section

variable (calculateScheduleHash : List ScheduleEvent → Hash)

/--
The events that a check compares with: those of today's snapshot, or yesterday's view of today, or what
was parsed itself when there is neither.
-/
def comparedWith (store : Store Hash) (pair : Pair) (c : NightCheck) : List ScheduleEvent :=
  let eventsOf := fun row : DailySnapshot Hash => (row.scheduleData.loads.map (·.events)).getD []
  match store.snapshots pair c.reads.todayDate with
  | some row => eventsOf row
  | none =>
    match store.snapshots pair c.reads.yesterdayDate with
    | some row => filterEventsForDate (eventsOf row) c.reads.todayDate
    | none => filterEventsForDate c.sched.events c.reads.todayDate

def nightCheck (store : Store Hash) (pair : Pair) (c : NightCheck) : Store Hash :=
  (checkSingleQueue calculateScheduleHash store pair (some c.sched) c.reads c.createdAt).1

def nightChecks (store : Store Hash) (pair : Pair) (checks : List NightCheck) : Store Hash :=
  checks.foldl (nightCheck calculateScheduleHash · pair ·) store

def lastQueued (store : Store Hash) (pair : Pair) (checks : List NightCheck)
    : Option (Store Hash × NightCheck) :=
  match checks with
  | [] => none
  | c :: checks =>
    (lastQueued (nightCheck calculateScheduleHash store pair c) pair checks).or
      (if store.lastHash pair = some (calculateScheduleHash c.sched.events) then
        none
      else
        some (store, c))

end

theorem filterEventsForDate_self (events : List ScheduleEvent) (date : Date)
    : filterEventsForDate (filterEventsForDate events date) date = filterEventsForDate events date := by
  unfold filterEventsForDate
  rw [List.filter_filter]
  simp only [Bool.and_self]

theorem filterEventsForDate_ne (events : List ScheduleEvent) {date date' : Date} (hne : date ≠ date')
    : filterEventsForDate (filterEventsForDate events date) date' = [] := by
  apply List.eq_nil_iff_forall_not_mem.mpr
  intro ev hev
  rw [mem_filterEventsForDate, mem_filterEventsForDate] at hev
  exact hne (hev.1.2.symm.trans hev.2)

theorem changes_eq_classifyDays (hinj : Function.Injective calculateScheduleHash) {store : Store Hash}
    (pair : Pair) {c : NightCheck} (hsound : SnapshotsSound calculateScheduleHash store)
    (hreads : c.reads.OneDay)
    : let basis := comparedWith store pair c
      (changeBlast calculateScheduleHash store pair c.sched c.reads).changes =
        (classifyDays (filterEventsForDate basis c.reads.todayDate)
          (filterEventsForDate c.sched.events c.reads.todayDate)
          (filterEventsForDate basis c.reads.tomorrowDate)
          (filterEventsForDate c.sched.events c.reads.tomorrowDate)).2 := by
  have htomorrow := tomorrowDate_of_oneDay hreads
  have hdate : c.reads.todayDate ≠ c.reads.tomorrowDate := by
    rw [htomorrow]
    exact Int.ne_of_lt (Int.lt_succ _)
  have hyesterday : c.reads.yesterdayDate + 1 = c.reads.todayDate := by
    unfold CheckReads.yesterdayDate CheckReads.todayDate
    rw [date_sub_dayUs, hreads.1, Int.sub_add_cancel]
  unfold changeBlast classify comparedWith
  dsimp only
  cases hsnapshot : store.snapshots pair c.reads.todayDate with
  | some row =>
    rcases hsound pair _ row hsnapshot with ⟨old, hloads, hrow⟩
    dsimp only
    rw [hloads, hrow, ← htomorrow, classifyAgain_eq hinj hdate hloads]
    rfl
  | none =>
    cases hsnapshot' : store.snapshots pair c.reads.yesterdayDate with
    | some row =>
      rcases hsound pair _ row hsnapshot' with ⟨old, hloads, hrow⟩
      dsimp only
      rw [hloads, hrow, hyesterday, classifyFirstOfDay_eq hinj hdate hloads]
      dsimp only [Option.map_some, Option.getD_some]
      rw [filterEventsForDate_self, filterEventsForDate_ne _ hdate]
    | none =>
      dsimp only
      rw [filterEventsForDate_self, filterEventsForDate_ne _ hdate]
      simp only [classifyFirstOfDay, classifyDays, computeChanges, isSome_computeDateHash,
        todayChanges, mergeTomorrowEventsIntoChanges, Option.bind_none, Option.any_none,
        eventsNotIn_self, eventsNotIn_nil, nil_eventsNotIn, List.nil_append, ne_eq, true_and]
      split
      . rfl
      . simp

theorem keys_classifyDays (basis new : List ScheduleEvent) {todayDate tomorrowDate : Date}
    (hdate : todayDate ≠ tomorrowDate)
    : let changes := (classifyDays (filterEventsForDate basis todayDate)
        (filterEventsForDate new todayDate) (filterEventsForDate basis tomorrowDate)
        (filterEventsForDate new tomorrowDate)).2
      (∀ key, key ∈ changes.added.map (·.key) ↔
        key ∈ (eventsNotIn (bothDays new todayDate tomorrowDate)
          (bothDays basis todayDate tomorrowDate)).map (·.key)) ∧
      changes.removed = eventsNotIn (bothDays basis todayDate tomorrowDate)
        (bothDays new todayDate tomorrowDate) := by
  dsimp only
  rw [eventsNotIn_bothDays _ _ hdate, eventsNotIn_bothDays _ _ hdate]
  exact ⟨(exact_classifyDays _ _ _ _).addedKeys, rfl⟩

theorem netChange_iff {blast : Blast} {basis sent : List ScheduleEvent} {todayDate tomorrowDate : Date}
    (hadded : ∀ key, key ∈ blast.changes.added.map (·.key) ↔
      key ∈ (eventsNotIn (bothDays blast.sched.events todayDate tomorrowDate)
        (bothDays basis todayDate tomorrowDate)).map (·.key))
    (hremoved : blast.changes.removed = eventsNotIn (bothDays basis todayDate tomorrowDate)
      (bothDays blast.sched.events todayDate tomorrowDate))
    : NetChange blast sent todayDate tomorrowDate ↔ SamePeriods basis sent todayDate tomorrowDate := by
  have hiff : ((∀ key, key ∈ (eventsNotIn (bothDays blast.sched.events todayDate tomorrowDate)
            (bothDays basis todayDate tomorrowDate)).map (·.key) ↔
          key ∈ (eventsNotIn (bothDays blast.sched.events todayDate tomorrowDate)
            (bothDays sent todayDate tomorrowDate)).map (·.key)) ∧
        ∀ key, key ∈ (eventsNotIn (bothDays basis todayDate tomorrowDate)
            (bothDays blast.sched.events todayDate tomorrowDate)).map (·.key) ↔
          key ∈ (eventsNotIn (bothDays sent todayDate tomorrowDate)
            (bothDays blast.sched.events todayDate tomorrowDate)).map (·.key))
      ↔ SamePeriods basis sent todayDate tomorrowDate := by
    simp only [eventsNotIn_eq_missing]
    exact KeyDiff.same_differences_iff
  rw [← hiff]
  constructor
  . intro h
    constructor
    . intro key
      rw [← hadded, h.added]
    . intro key
      rw [← hremoved, h.removed]
  . intro h
    constructor
    . intro key
      rw [hadded, h.1]
    . intro key
      rw [hremoved, h.2]

def queuedRow (calculateScheduleHash : List ScheduleEvent → Hash) (pair : Pair)
    (queued : Store Hash × NightCheck) : PendingNotification :=
  (changeBlast calculateScheduleHash queued.1 pair queued.2.sched queued.2.reads).toPending
    queued.2.createdAt

omit [DecidableEq Hash] in
theorem getLatestPendingNotification_congr {store store' : Store Hash} (pair : Pair)
    (h : store.pending = store'.pending)
    : store.getLatestPendingNotification pair = store'.getLatestPendingNotification pair := by
  unfold Store.getLatestPendingNotification
  rw [h]

theorem nightCheck_unchanged {store : Store Hash} {pair : Pair} {c : NightCheck}
    (h : store.lastHash pair = some (calculateScheduleHash c.sched.events))
    : (nightCheck calculateScheduleHash store pair c).pending = store.pending := by
  unfold nightCheck checkSingleQueue
  dsimp only
  rw [if_pos h]
  unfold refreshSnapshot
  split <;> rfl

theorem nightCheck_changed {store : Store Hash} {pair : Pair} {c : NightCheck}
    (hquiet : c.reads.quiet.isQuietHours = true)
    (h : store.lastHash pair ≠ some (calculateScheduleHash c.sched.events))
    : (nightCheck calculateScheduleHash store pair c).pending =
        (store.savePendingNotification (queuedRow calculateScheduleHash pair (store, c))).pending := by
  simp only [nightCheck, checkSingleQueue, if_neg h, hquiet, if_true, writeChange]
  rfl

theorem latest_nightChecks {store : Store Hash} {pair : Pair} {checks : List NightCheck}
    (hquiet : ∀ c ∈ checks, c.reads.quiet.isQuietHours = true)
    (hcreated : (checks.map (·.createdAt)).Pairwise (· < ·))
    (hwaiting : ∀ row ∈ store.pending, row.waits pair = true → ∀ c ∈ checks,
      row.createdAt < c.createdAt)
    : (nightChecks calculateScheduleHash store pair checks).getLatestPendingNotification pair =
        ((lastQueued calculateScheduleHash store pair checks).map
          (queuedRow calculateScheduleHash pair)).or (store.getLatestPendingNotification pair) := by
  induction checks generalizing store with
  | nil => rfl
  | cons c checks ih =>
    rw [List.map_cons, List.pairwise_cons] at hcreated
    have hlater : ∀ c' ∈ checks, c.createdAt < c'.createdAt :=
      fun c' hc' => hcreated.1 _ (List.mem_map_of_mem hc')
    have hquiet' : ∀ c' ∈ checks, c'.reads.quiet.isQuietHours = true :=
      fun c' hc' => hquiet c' (List.mem_cons_of_mem _ hc')
    have hold : ∀ row ∈ store.pending, row.waits pair = true → ∀ c' ∈ checks,
        row.createdAt < c'.createdAt :=
      fun row hrow hwaits c' hc' => hwaiting row hrow hwaits c' (List.mem_cons_of_mem _ hc')
    unfold nightChecks lastQueued
    rw [List.foldl_cons]
    by_cases hsame : store.lastHash pair = some (calculateScheduleHash c.sched.events)
    . have hpending := nightCheck_unchanged hsame
      rw [if_pos hsame, Option.or_none, ← getLatestPendingNotification_congr pair hpending]
      apply ih hquiet' hcreated.2
      rw [hpending]
      exact hold
    . have hpending := nightCheck_changed (hquiet c List.mem_cons_self) hsame
      have hlatest : (nightCheck calculateScheduleHash store pair c).getLatestPendingNotification pair =
          some (queuedRow calculateScheduleHash pair (store, c)) := by
        rw [getLatestPendingNotification_congr pair hpending]
        apply getLatestPendingNotification_save
        intro row hrow hwaits
        exact hwaiting row hrow hwaits c List.mem_cons_self
      have hold' : ∀ row ∈ (nightCheck calculateScheduleHash store pair c).pending,
          row.waits pair = true → ∀ c' ∈ checks, row.createdAt < c'.createdAt := by
        rw [hpending]
        intro row hrow hwaits c' hc'
        cases List.mem_append.mp hrow with
        | inl hrow => exact hold row hrow hwaits c' hc'
        | inr hrow =>
          rw [List.mem_singleton.mp hrow]
          exact hlater c' hc'
      rw [if_neg hsame]
      refine (ih hquiet' hcreated.2 hold').trans ?_
      rw [hlatest]
      cases lastQueued calculateScheduleHash (nightCheck calculateScheduleHash store pair c) pair
        checks with
      | none => rfl
      | some queued => rfl

theorem sound_of_lastQueued {store : Store Hash} {pair : Pair} {checks : List NightCheck} {date : Date}
    (hsound : SnapshotsSound calculateScheduleHash store) (hnight : ∀ c ∈ checks, c.InNight date)
    {queued : Store Hash × NightCheck}
    (h : lastQueued calculateScheduleHash store pair checks = some queued)
    : SnapshotsSound calculateScheduleHash queued.1 ∧ queued.2 ∈ checks := by
  induction checks generalizing store with
  | nil => cases h
  | cons c checks ih =>
    have hc := hnight c List.mem_cons_self
    unfold lastQueued at h
    cases hrest : lastQueued calculateScheduleHash (nightCheck calculateScheduleHash store pair c) pair
      checks with
    | some queued' =>
      rw [hrest, Option.some_or] at h
      cases h
      have hqueued := ih (snapshotsSound_checkSingleQueue hsound hc.1)
        (fun c' hc' => hnight c' (List.mem_cons_of_mem _ hc')) hrest
      exact ⟨hqueued.1, List.mem_cons_of_mem _ hqueued.2⟩
    | none =>
      rw [hrest, Option.none_or] at h
      split at h
      . cases h
      . cases h
        exact ⟨hsound, List.mem_cons_self⟩

/--
The events that the changes the flush sends are relative to: what the last change was compared with, or
the fetched schedule itself if nothing was queued.
-/
def sentAgainst (calculateScheduleHash : List ScheduleEvent → Hash) (store : Store Hash) (pair : Pair)
    (checks : List NightCheck) (fetched : Option Sched) : List ScheduleEvent :=
  match lastQueued calculateScheduleHash store pair checks with
  | some queued => comparedWith queued.1 pair queued.2
  | none => (fetched.map (·.events)).getD []

/--
After a night of checks the flush sends the net change since the schedule that was sent last if and only
if what its changes are relative to has the periods of that schedule.
-/
theorem netChange_iff_samePeriods (hinj : Function.Injective calculateScheduleHash)
    {m : Announcer Hash} {es : List Announcer.Event} (hdays : ∀ e ∈ es, e.OneDay)
    (hrun : Run.exec (Announcer.step calculateScheduleHash) {} es = some m) {pair : Pair}
    {lastSent : Sched} (_ : m.lastSent pair = some lastSent)
    {checks : List NightCheck} {date : Date} (hnight : ∀ c ∈ checks, c.InNight date)
    (hcreated : (checks.map (·.createdAt)).Pairwise (· < ·))
    (hwaiting : ∀ row ∈ m.store.pending, row.waits pair = true → ∀ c ∈ checks,
      row.createdAt < c.createdAt)
    (hqueue : (lastQueued calculateScheduleHash m.store pair checks).isSome ∨
      ¬ m.store.HasPending pair)
    {fetched : Option Sched} {flushReads : FlushReads} {blast : Blast}
    (hflush :
      let store := nightChecks calculateScheduleHash m.store pair checks
      (flushPair calculateScheduleHash store pair (decide (pair ∈ store.getAllPendingRegionQueuePairs))
        fetched flushReads).2 = some blast)
    : NetChange blast lastSent.events date (date + 1)
        ↔
      SamePeriods (sentAgainst calculateScheduleHash m.store pair checks fetched) lastSent.events date
        (date + 1) := by
  have hsound := snapshotsSound_of_run hdays hrun
  have hlatest : (nightChecks calculateScheduleHash m.store pair checks).getLatestPendingNotification
      pair = ((lastQueued calculateScheduleHash m.store pair checks).map
        (queuedRow calculateScheduleHash pair)).or (m.store.getLatestPendingNotification pair) :=
    latest_nightChecks (fun c hc => (hnight c hc).2.2) hcreated hwaiting
  generalize hstore : nightChecks calculateScheduleHash m.store pair checks = store at hlatest hflush
  dsimp only at hflush
  unfold sentAgainst
  cases hqueued : lastQueued calculateScheduleHash m.store pair checks with
  | some queued =>
    rcases sound_of_lastQueued hsound hnight hqueued with ⟨hsound', hc⟩
    rcases hnight _ hc with ⟨hreads, hdate, _⟩
    rw [hqueued, Option.map_some, Option.some_or] at hlatest
    have hpending : store.HasPending pair := by
      rw [← Store.getLatestPendingNotification_isSome, hlatest]
      rfl
    rw [decide_eq_true (Store.hasPending_iff.mp hpending),
      flushPair_of_latest calculateScheduleHash hlatest
        (toBlast_toPending_changeBlast calculateScheduleHash _ _ _ _ _)] at hflush
    cases hflush
    have htomorrow := tomorrowDate_of_oneDay hreads
    have hne : queued.2.reads.todayDate ≠ queued.2.reads.tomorrowDate := by
      rw [htomorrow]
      exact Int.ne_of_lt (Int.lt_succ _)
    have hkeys := keys_classifyDays (comparedWith queued.1 pair queued.2) queued.2.sched.events hne
    have hchanges := changes_eq_classifyDays hinj pair hsound' hreads
    dsimp only at hkeys hchanges ⊢
    rw [← hchanges, htomorrow, hdate] at hkeys
    exact netChange_iff hkeys.1 hkeys.2
  | none =>
    have hstart : m.store.getLatestPendingNotification pair = none := by
      rw [← Option.not_isSome_iff_eq_none, Store.getLatestPendingNotification_isSome]
      apply hqueue.resolve_left
      rw [hqueued]
      exact Bool.false_ne_true
    rw [hqueued, Option.map_none, Option.none_or, hstart] at hlatest
    have hpending : ¬ store.HasPending pair := by
      rw [← Store.getLatestPendingNotification_isSome, hlatest]
      exact Bool.false_ne_true
    rw [decide_eq_false (Store.hasPending_iff.not.mp hpending)] at hflush
    unfold flushPair flushDailyPlanned at hflush
    dsimp only at hflush ⊢
    cases fetched with
    | none => cases hflush
    | some sched =>
      cases hflush
      apply netChange_iff
      . intro key
        simp
      . simp

def outageAt (half : Nat) : Sched where
  hasData := true
  events := [{ start := ⟨1, half, 7200⟩, endAt := ⟨1, half + 2, 7200⟩, isPossible := false }]
  queue := "1.1"
  dtekUpdatedAt := none

def eveningRun : List Announcer.Event := [
  .cycleStarted [("kyiv", "1.1")],
  .pairChecked (some (outageAt 20)) sampleReads 0,
  .cycleEnded]

def readsAt (hour : Int) : CheckReads where
  today := dayUs + hour * hourUs
  yesterday := dayUs + hour * hourUs
  tomorrow := dayUs + hour * hourUs
  quiet := dayUs + hour * hourUs

def restoredNight : List NightCheck := [
  { sched := outageAt 24, reads := readsAt 1, createdAt := 1 },
  { sched := outageAt 20, reads := readsAt 2, createdAt := 2 }]

def morningReads : FlushReads where
  today := dayUs + 6 * hourUs
  tomorrow := dayUs + 6 * hourUs

theorem netChange_iff_samePeriods_restoredNight
    : ∃ m blast,
        Run.exec (Announcer.step id) {} eveningRun = some m ∧
        (NetChange blast (outageAt 20).events 1 2 ↔
          SamePeriods (sentAgainst id m.store ("kyiv", "1.1") restoredNight none) (outageAt 20).events
            1 2) := by
  have hrun : (Run.exec (Announcer.step id) {} eveningRun).isSome := by decide +kernel
  have hflush : (flushPair id (nightChecks id (Option.get _ hrun).store ("kyiv", "1.1") restoredNight)
      ("kyiv", "1.1") (decide (("kyiv", "1.1") ∈ (nightChecks id (Option.get _ hrun).store
        ("kyiv", "1.1") restoredNight).getAllPendingRegionQueuePairs)) none morningReads).2.isSome := by
    decide +kernel +revert
  have hsent : (Option.get _ hrun).lastSent ("kyiv", "1.1") = some (outageAt 20) := by
    decide +kernel +revert
  have hqueue : (lastQueued id (Option.get _ hrun).store ("kyiv", "1.1") restoredNight).isSome := by
    decide +kernel +revert
  have hwaiting : ∀ row ∈ (Option.get _ hrun).store.pending, row.waits ("kyiv", "1.1") = true →
      ∀ c ∈ restoredNight, row.createdAt < c.createdAt := by
    decide +kernel +revert
  refine ⟨_, _, (Option.some_get hrun).symm, netChange_iff_samePeriods Function.injective_id
    (by decide +kernel) (Option.some_get hrun).symm hsent ?_ (by decide +kernel) hwaiting (.inl hqueue)
    (Option.some_get hflush).symm⟩
  decide +kernel

theorem not_netChange_restoredNight
    : ∃ m blast,
        Run.exec (Announcer.step id) {} eveningRun = some m ∧
        m.lastSent ("kyiv", "1.1") = some (outageAt 20) ∧
        (let store := nightChecks id m.store ("kyiv", "1.1") restoredNight
        (flushPair id store ("kyiv", "1.1")
          (decide (("kyiv", "1.1") ∈ store.getAllPendingRegionQueuePairs)) none morningReads).2 =
            some blast) ∧
        blast.sched = outageAt 20 ∧
        ¬ NetChange blast (outageAt 20).events 1 2 := by
  have hrun : (Run.exec (Announcer.step id) {} eveningRun).isSome := by decide +kernel
  have hflush : (flushPair id (nightChecks id (Option.get _ hrun).store ("kyiv", "1.1") restoredNight)
      ("kyiv", "1.1") (decide (("kyiv", "1.1") ∈ (nightChecks id (Option.get _ hrun).store
        ("kyiv", "1.1") restoredNight).getAllPendingRegionQueuePairs)) none morningReads).2.isSome := by
    decide +kernel +revert
  have hsent : (Option.get _ hrun).lastSent ("kyiv", "1.1") = some (outageAt 20) := by
    decide +kernel +revert
  have hsched : (Option.get _ hflush).sched = outageAt 20 := by decide +kernel +revert
  have hkey : (⟨1, 20, 7200⟩, ⟨1, 22, 7200⟩) ∈ (Option.get _ hflush).changes.added.map (·.key) := by
    decide +kernel +revert
  refine ⟨_, _, (Option.some_get hrun).symm, hsent, (Option.some_get hflush).symm, hsched, ?_⟩
  intro h
  have hnew := (h.added _).mp hkey
  rw [hsched, eventsNotIn_self] at hnew
  exact List.not_mem_nil hnew

end Scheduler
