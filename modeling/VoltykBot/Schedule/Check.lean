import VoltykBot.Lib.Run
import VoltykBot.Schedule.Store

/-!
This module contains `_check_single_queue` and the body of the 06:00 flush for one pair, as they read and
write the tables, and the runs in which cycles of the checker and flushes follow each other.
-/

namespace Scheduler

structure CheckReads where
  today : WallTime
  yesterday : WallTime
  tomorrow : WallTime
  quiet : WallTime
  deriving DecidableEq, Repr

namespace CheckReads

def todayDate (reads : CheckReads) : Date := reads.today.date

def yesterdayDate (reads : CheckReads) : Date := (reads.yesterday - dayUs : WallTime).date

def tomorrowDate (reads : CheckReads) : Date := (reads.tomorrow + dayUs : WallTime).date

def OneDay (reads : CheckReads) : Prop :=
  reads.yesterday.date = reads.today.date ∧ reads.tomorrow.date = reads.today.date ∧
    reads.quiet.date = reads.today.date

instance (reads : CheckReads) : Decidable reads.OneDay := inferInstanceAs (Decidable (_ ∧ _))

end CheckReads

structure FlushReads where
  today : WallTime
  tomorrow : WallTime
  deriving DecidableEq, Repr

namespace FlushReads

def todayDate (reads : FlushReads) : Date := reads.today.date

def tomorrowDate (reads : FlushReads) : Date := (reads.tomorrow + dayUs : WallTime).date

def OneDay (reads : FlushReads) : Prop := reads.tomorrow.date = reads.today.date

instance (reads : FlushReads) : Decidable reads.OneDay := inferInstanceAs (Decidable (_ = _))

end FlushReads

theorem date_add_dayUs (t : WallTime) : (t + dayUs : WallTime).date = t.date + 1 := by
  unfold WallTime.date
  have hday : dayUs ≠ 0 := by decide
  rw [Int.add_ediv_of_dvd_right (Int.dvd_refl dayUs), Int.ediv_self hday]

theorem date_sub_dayUs (t : WallTime) : (t - dayUs : WallTime).date = t.date - 1 := by
  have hadd := date_add_dayUs (t - dayUs)
  rw [Int.sub_add_cancel] at hadd
  rw [hadd, Int.add_sub_cancel]

section

variable {Hash : Type} [DecidableEq Hash] (calculateScheduleHash : List ScheduleEvent → Hash)

def todayChanges (todayUpdated : Bool) (oldSched : Option Sched) (events : List ScheduleEvent)
    (todayDate : Date) : Changes :=
  match todayUpdated, oldSched with
  | true, some sched =>
    computeChanges (filterEventsForDate sched.events todayDate) (filterEventsForDate events todayDate)
  | _, _ => {}

def classifyFirstOfDay (yesterdaySnapshot : Option (DailySnapshot Hash))
    (events : List ScheduleEvent) (todayDate tomorrowDate : Date) : UpdateType × Changes :=
  let newTodayHash := computeDateHash calculateScheduleHash events todayDate
  let newTomorrowHash := computeDateHash calculateScheduleHash events tomorrowDate
  let yesterdaySched := yesterdaySnapshot.bind fun row =>
    row.scheduleData.loads.map fun sched => (row, sched)
  let todayUpdated := yesterdaySched.any fun item => item.1.tomorrowHash ≠ newTodayHash
  let changes := todayChanges todayUpdated (yesterdaySched.map (·.2)) events todayDate
  let tomorrowAppeared := newTomorrowHash.isSome
  let changes :=
    if tomorrowAppeared then mergeTomorrowEventsIntoChanges changes events tomorrowDate else changes
  let todayUnchanged := tomorrowAppeared && !todayUpdated && yesterdaySched.isSome
  ({
      todayUpdated := todayUpdated
      tomorrowAppeared := tomorrowAppeared
      todayUnchanged := todayUnchanged },
    changes)

def mergeTomorrowChanges (changes : Changes) (oldSched : Option Sched) (events : List ScheduleEvent)
    (tomorrowDate : Date) : Changes :=
  match oldSched with
  | some sched =>
    let tomorrowChanges := computeChanges (filterEventsForDate sched.events tomorrowDate)
      (filterEventsForDate events tomorrowDate)
    {
      added := appendNewEvents changes.added tomorrowChanges.added
      removed := changes.removed ++ tomorrowChanges.removed }
  | none => changes

def classifyAgain (snapshot : DailySnapshot Hash) (events : List ScheduleEvent)
    (todayDate tomorrowDate : Date) : UpdateType × Changes :=
  let newTodayHash := computeDateHash calculateScheduleHash events todayDate
  let newTomorrowHash := computeDateHash calculateScheduleHash events tomorrowDate
  let todayUpdated := decide (snapshot.todayHash ≠ newTodayHash)
  let changes := todayChanges todayUpdated snapshot.scheduleData.loads events todayDate
  let tomorrowAppeared := snapshot.tomorrowHash.isNone && newTomorrowHash.isSome
  let tomorrowChanged :=
    snapshot.tomorrowHash.isSome && decide (newTomorrowHash ≠ snapshot.tomorrowHash)
  let tomorrowCancelled := tomorrowChanged && newTomorrowHash.isNone
  let tomorrowUpdated := tomorrowChanged && newTomorrowHash.isSome
  let changes :=
    if tomorrowAppeared then
      mergeTomorrowEventsIntoChanges changes events tomorrowDate
    else if tomorrowChanged then
      mergeTomorrowChanges changes snapshot.scheduleData.loads events tomorrowDate
    else
      changes
  let todayUnchanged := (tomorrowAppeared || tomorrowUpdated || tomorrowCancelled) && !todayUpdated
  ({
      todayUpdated := todayUpdated
      tomorrowAppeared := tomorrowAppeared
      tomorrowCancelled := tomorrowCancelled
      tomorrowUpdated := tomorrowUpdated
      todayUnchanged := todayUnchanged },
    changes)

def classify (snapshot yesterdaySnapshot : Option (DailySnapshot Hash))
    (events : List ScheduleEvent) (todayDate tomorrowDate : Date) : UpdateType × Changes :=
  match snapshot with
  | none => classifyFirstOfDay calculateScheduleHash yesterdaySnapshot events todayDate tomorrowDate
  | some snapshot => classifyAgain calculateScheduleHash snapshot events todayDate tomorrowDate

/-! ## `_check_single_queue` -/

def snapshotRow (scheduleData : JsonText Sched) (events : List ScheduleEvent)
    (todayDate tomorrowDate : Date) : DailySnapshot Hash where
  scheduleData := scheduleData
  todayHash := computeDateHash calculateScheduleHash events todayDate
  tomorrowHash := computeDateHash calculateScheduleHash events tomorrowDate

def changeBlast (store : Store Hash) (pair : Pair) (sched : Sched) (reads : CheckReads) : Blast :=
  let isInitial := (store.lastHash pair).isNone
  let classified := classify calculateScheduleHash (store.snapshots pair reads.todayDate)
    (store.snapshots pair reads.yesterdayDate) sched.events reads.todayDate reads.tomorrowDate
  let updateType := classified.1
  {
    pair := pair
    sched := sched
    updateType := { updateType with
      dailyPlanned := updateType.dailyPlanned || (updateType.isEmpty && !isInitial)
      initial := updateType.initial || isInitial }
    changes := classified.2
    isDailyPlanned := isInitial || updateType.isEmpty }

def Blast.toPending (blast : Blast) (createdAt : Int) : PendingNotification where
  pair := blast.pair
  scheduleData := .dumped blast.sched
  updateType := some (.dumped blast.updateType)
  changes :=
    if blast.changes.added.isEmpty && blast.changes.removed.isEmpty then
      none
    else
      some (.dumped blast.changes)
  createdAt := createdAt

def writeChange (store : Store Hash) (blast : Blast) (reads : CheckReads) (createdAt : Int)
    : Store Hash :=
  let events := blast.sched.events
  let store := store.setLastHash blast.pair (calculateScheduleHash events)
  let store := store.upsertDailySnapshot blast.pair reads.todayDate
    (snapshotRow calculateScheduleHash (.dumped blast.sched) events reads.todayDate reads.tomorrowDate)
  if reads.quiet.isQuietHours then store.savePendingNotification (blast.toPending createdAt) else store

def refreshSnapshot (store : Store Hash) (pair : Pair) (sched : Sched) (reads : CheckReads)
    : Store Hash :=
  match store.snapshots pair reads.todayDate with
  | none => store.upsertDailySnapshot pair reads.todayDate
      (snapshotRow calculateScheduleHash (.dumped sched) sched.events reads.todayDate
        reads.tomorrowDate)
  | some _ => store

/--
`_check_single_queue` with what it sends; the schedule is missing when nothing could be fetched.
-/
def checkSingleQueue (store : Store Hash) (pair : Pair) (sched : Option Sched) (reads : CheckReads)
    (createdAt : Int) : Store Hash × Option Blast :=
  match sched with
  | none => (store, none)
  | some sched =>
    if store.lastHash pair = some (calculateScheduleHash sched.events) then
      (refreshSnapshot calculateScheduleHash store pair sched reads, none)
    else
      let blast := changeBlast calculateScheduleHash store pair sched reads
      let store := writeChange calculateScheduleHash store blast reads createdAt
      if reads.quiet.isQuietHours then
        (store, none)
      else
        (store.markPendingNotificationsSent pair, some blast)

def loadsOr {α : Type} (text : Option (JsonText α)) (default : α) : Option α :=
  -- the outer option is `none` where `json.loads` raises
  match text with
  | none => some default
  | some text => text.loads

def PendingNotification.toBlast (row : PendingNotification) (pair : Pair) : Option Blast := do
  -- `none` where `json.loads` raises
  let sched ← row.scheduleData.loads
  let updateType ← loadsOr row.updateType {}
  let changes ← loadsOr row.changes {}
  some {
    pair := pair
    sched := sched
    updateType := updateType
    changes := changes
    isDailyPlanned := updateType.initial || updateType.dailyPlanned }

def writeFlushed (store : Store Hash) (pair : Pair) (scheduleData : JsonText Sched)
    (events : List ScheduleEvent) (reads : FlushReads) : Store Hash :=
  (store.setLastHash pair (calculateScheduleHash events)).upsertDailySnapshot pair reads.todayDate
    (snapshotRow calculateScheduleHash scheduleData events reads.todayDate reads.tomorrowDate)

def flushDailyPlanned (store : Store Hash) (pair : Pair) (sched : Option Sched) (reads : FlushReads)
    : Store Hash × Option Blast :=
  match sched with
  | none => (store, none)
  | some sched =>
    let blast := {
      pair := pair
      sched := sched
      updateType := {}
      changes := {}
      isDailyPlanned := true }
    (writeFlushed calculateScheduleHash store pair (.dumped sched) sched.events reads, some blast)

/--
The body of `_flush_pending_notifications_locked` for one pair. The schedule is the fetched one, missing
when nothing could be fetched; it is used if no row of the pair waits.
-/
def flushPair (store : Store Hash) (pair : Pair) (inPendingSet : Bool) (sched : Option Sched)
    (reads : FlushReads) : Store Hash × Option Blast :=
  match inPendingSet, store.getLatestPendingNotification pair with
  | true, some row =>
    match row.toBlast pair with
    | none => (store, none)
    | some blast =>
      let store := store.markPendingNotificationsSent pair
      (writeFlushed calculateScheduleHash store pair row.scheduleData blast.sched.events reads,
        some blast)
  | _, _ => flushDailyPlanned calculateScheduleHash store pair sched reads

end

/--
Who holds the locks. The advisory key is held until the flush has purged old rows, so that no cycle
comes between its body and the purge.
-/
inductive Phase where
  | idle
  | checking (todo : List Pair)
  | flushing (pendingSet : List Pair) (todo : List Pair)
  | purging
  deriving DecidableEq, Repr

/--
The tables and the holder of the locks. `lastSent` records the schedule that
`_send_notifications_for_pair` was given last for a pair, `changeBlasts` the blasts of the checker with
the hash that was stored before.
-/
structure Announcer (Hash : Type) where
  store : Store Hash := { lastHash := fun _ => none, snapshots := fun _ _ => none, pending := [] }
  phase : Phase := .idle
  lastSent : Pair → Option Sched := fun _ => none
  changeBlasts : List (Blast × Option Hash) := []

namespace Announcer

inductive Event where
  | cycleStarted (pairs : List Pair)
  | pairChecked (sched : Option Sched) (reads : CheckReads) (createdAt : Int)
  | cycleEnded
  | flushStarted (pairs : List Pair)
  | pairFlushed (sched : Option Sched) (reads : FlushReads)
  | bodyEnded
  | purged (cutoff : Int)

variable {Hash : Type}

def recordSent (m : Announcer Hash) (blast : Option Blast) : Announcer Hash :=
  match blast with
  | none => m
  | some blast => { m with lastSent := Function.update m.lastSent blast.pair (some blast.sched) }

@[simp]
theorem store_recordSent (m : Announcer Hash) (blast : Option Blast)
    : (m.recordSent blast).store = m.store := by
  cases blast <;> rfl

variable [DecidableEq Hash] (calculateScheduleHash : List ScheduleEvent → Hash)

def checkPair (m : Announcer Hash) (pair : Pair) (sched : Option Sched) (reads : CheckReads)
    (createdAt : Int) : Announcer Hash :=
  let r := checkSingleQueue calculateScheduleHash m.store pair sched reads createdAt
  { m with
    store := r.1
    changeBlasts := (r.2.map fun blast => (blast, m.store.lastHash pair)).toList ++ m.changeBlasts
    : Announcer Hash }.recordSent r.2

def flushPair (m : Announcer Hash) (pair : Pair) (pendingSet : List Pair) (sched : Option Sched)
    (reads : FlushReads) : Announcer Hash :=
  let inPendingSet := decide (pair ∈ pendingSet)
  let r := Scheduler.flushPair calculateScheduleHash m.store pair inPendingSet sched reads
  { m with store := r.1 : Announcer Hash }.recordSent r.2

def step (m : Announcer Hash) (e : Event) : Option (Announcer Hash) :=
  match m.phase, e with
  | .idle, .cycleStarted pairs => some { m with phase := .checking pairs }
  | .checking (pair :: todo), .pairChecked sched reads createdAt =>
    some { m.checkPair calculateScheduleHash pair sched reads createdAt with phase := .checking todo }
  | .checking [], .cycleEnded => some { m with phase := .idle }
  | .idle, .flushStarted pairs =>
    some { m with phase := .flushing m.store.getAllPendingRegionQueuePairs pairs }
  | .flushing pendingSet (pair :: todo), .pairFlushed sched reads =>
    some { m.flushPair calculateScheduleHash pair pendingSet sched reads with
      phase := .flushing pendingSet todo }
  | .flushing _ [], .bodyEnded => some { m with phase := .purging }
  | .purging, .purged cutoff =>
    some { m with store := m.store.deleteOldPendingNotifications cutoff, phase := .idle }
  | _, _ => none

end Announcer

end Scheduler
