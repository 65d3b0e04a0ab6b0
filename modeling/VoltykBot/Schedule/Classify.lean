import VoltykBot.Schedule.Check
import VoltykBot.Schedule.Parse

/-!
This module contains what `update_type` and `changes` say of a changed schedule in a store that only the
checker and the flush have written to.
-/

namespace Scheduler

structure Exact (updateType : UpdateType) (changes : Changes)
    (oldToday newToday oldTomorrow newTomorrow : List ScheduleEvent) : Prop where
  todayUpdated : updateType.todayUpdated = true ↔ oldToday ≠ newToday
  tomorrowAppeared : updateType.tomorrowAppeared = true ↔ oldTomorrow = [] ∧ newTomorrow ≠ []
  tomorrowCancelled : updateType.tomorrowCancelled = true ↔ oldTomorrow ≠ [] ∧ newTomorrow = []
  tomorrowUpdated : updateType.tomorrowUpdated = true ↔
    oldTomorrow ≠ [] ∧ newTomorrow ≠ [] ∧ oldTomorrow ≠ newTomorrow
  todayUnchanged : updateType.todayUnchanged = true ↔
    (updateType.tomorrowAppeared = true ∨ updateType.tomorrowCancelled = true ∨
      updateType.tomorrowUpdated = true) ∧ updateType.todayUpdated = false
  addedKeys : ∀ key, key ∈ changes.added.map (·.key) ↔
    key ∈ (eventsNotIn newToday oldToday ++ eventsNotIn newTomorrow oldTomorrow).map (·.key)

theorem mem_keys_appendNewEvents {added events : List ScheduleEvent} {key : IsoTime × IsoTime}
    : key ∈ (appendNewEvents added events).map (·.key) ↔
        key ∈ added.map (·.key) ∨ key ∈ events.map (·.key) := by
  unfold appendNewEvents
  induction events generalizing added with
  | nil => simp
  | cons ev events ih =>
    rw [List.foldl_cons, ih]
    split
    . next hmem =>
      constructor
      . rintro (hadded | hevents)
        . exact .inl hadded
        . exact .inr (List.mem_cons_of_mem _ hevents)
      . rintro (hadded | hevents)
        . exact .inl hadded
        . rw [List.map_cons, List.mem_cons] at hevents
          cases hevents with
          | inl heq => exact .inl (heq ▸ hmem)
          | inr hevents => exact .inr hevents
    . simp only [List.map_append, List.mem_append, List.map_cons, List.map_nil, List.mem_cons,
        List.not_mem_nil, or_false, or_assoc]

def classifyDays (oldToday newToday oldTomorrow newTomorrow : List ScheduleEvent)
    : UpdateType × Changes :=
  let todayUpdated := decide (oldToday ≠ newToday)
  let today := computeChanges oldToday newToday
  let tomorrow := computeChanges oldTomorrow newTomorrow
  let tomorrowAppeared := decide (oldTomorrow = [] ∧ newTomorrow ≠ [])
  let tomorrowCancelled := decide (oldTomorrow ≠ [] ∧ newTomorrow = [])
  let tomorrowUpdated := decide (oldTomorrow ≠ [] ∧ newTomorrow ≠ [] ∧ oldTomorrow ≠ newTomorrow)
  let updateType := {
    todayUpdated := todayUpdated
    tomorrowAppeared := tomorrowAppeared
    tomorrowCancelled := tomorrowCancelled
    tomorrowUpdated := tomorrowUpdated
    todayUnchanged :=
      (tomorrowAppeared || tomorrowUpdated || tomorrowCancelled) && !todayUpdated }
  let added :=
    if tomorrowAppeared then
      today.added ++ newTomorrow
    else if tomorrowCancelled || tomorrowUpdated then
      appendNewEvents today.added tomorrow.added
    else
      today.added
  (updateType, { added := added, removed := today.removed ++ tomorrow.removed })

theorem eventsNotIn_of_unchanged {old new : List ScheduleEvent} (happeared : ¬ (old = [] ∧ new ≠ []))
    (hupdated : ¬ (old ≠ [] ∧ new ≠ [] ∧ old ≠ new)) : eventsNotIn new old = [] := by
  by_cases hnew : new = []
  . rw [hnew]
    rfl
  . have hold : old ≠ [] := fun hold => happeared ⟨hold, hnew⟩
    have hsame : old = new := by
      by_contra hne
      exact hupdated ⟨hold, hnew, hne⟩
    rw [hsame, eventsNotIn_self]

theorem exact_classifyDays (oldToday newToday oldTomorrow newTomorrow : List ScheduleEvent)
    : Exact (classifyDays oldToday newToday oldTomorrow newTomorrow).1
        (classifyDays oldToday newToday oldTomorrow newTomorrow).2 oldToday newToday oldTomorrow
        newTomorrow := by
  constructor
  . exact decide_eq_true_iff
  . exact decide_eq_true_iff
  . exact decide_eq_true_iff
  . exact decide_eq_true_iff
  . unfold classifyDays
    simp only [Bool.and_eq_true, Bool.or_eq_true, Bool.not_eq_true']
    tauto
  . intro key
    unfold classifyDays computeChanges
    dsimp only
    split
    . next happeared =>
      rw [decide_eq_true_eq] at happeared
      rw [happeared.1, eventsNotIn_nil]
    . split
      . rw [mem_keys_appendNewEvents, List.map_append, List.mem_append]
      . next hnot hsame =>
        rw [decide_eq_true_eq] at hnot
        rw [Bool.or_eq_true, not_or, decide_eq_true_eq, decide_eq_true_eq] at hsame
        rw [eventsNotIn_of_unchanged hnot hsame.2, List.append_nil]

theorem added_classifyDays {oldToday newToday oldTomorrow newTomorrow : List ScheduleEvent}
    (hnew : ∀ ev ∈ newTomorrow, ev.key ∉ (eventsNotIn newToday oldToday).map (·.key))
    (hunique : KeysUnique newTomorrow)
    : (classifyDays oldToday newToday oldTomorrow newTomorrow).2.added =
        eventsNotIn newToday oldToday ++ eventsNotIn newTomorrow oldTomorrow := by
  unfold classifyDays computeChanges
  dsimp only
  split
  . next happeared =>
    rw [decide_eq_true_eq] at happeared
    rw [happeared.1, eventsNotIn_nil]
  . split
    . apply appendNewEvents_eq
      . exact hunique.sublist List.filter_sublist
      . intro ev hev
        exact hnew ev (mem_eventsNotIn.mp hev).1
    . next hnot hsame =>
      rw [decide_eq_true_eq] at hnot
      rw [Bool.or_eq_true, not_or, decide_eq_true_eq, decide_eq_true_eq] at hsame
      rw [eventsNotIn_of_unchanged hnot hsame.2, List.append_nil]

section

variable {Hash : Type} {calculateScheduleHash : List ScheduleEvent → Hash}

theorem isNone_computeDateHash (events : List ScheduleEvent) (date : Date)
    : (computeDateHash calculateScheduleHash events date).isNone =
        decide (filterEventsForDate events date = []) := by
  rw [Bool.eq_iff_iff, Option.isNone_iff_eq_none, computeDateHash_eq_none, decide_eq_true_eq]

theorem isSome_computeDateHash (events : List ScheduleEvent) (date : Date)
    : (computeDateHash calculateScheduleHash events date).isSome =
        decide (filterEventsForDate events date ≠ []) := by
  rw [← Option.not_isNone, isNone_computeDateHash, decide_not]

def SnapshotsSound (calculateScheduleHash : List ScheduleEvent → Hash) (store : Store Hash) : Prop :=
  ∀ pair date row, store.snapshots pair date = some row →
    ∃ sched, row.scheduleData.loads = some sched ∧
      row = snapshotRow calculateScheduleHash row.scheduleData sched.events date (date + 1)

theorem SnapshotsSound.upsert {store : Store Hash} (h : SnapshotsSound calculateScheduleHash store)
    (pair : Pair) {scheduleData : JsonText Sched} {sched : Sched} {date nextDate : Date}
    (hloads : scheduleData.loads = some sched) (hnext : nextDate = date + 1)
    : SnapshotsSound calculateScheduleHash (store.upsertDailySnapshot pair date
        (snapshotRow calculateScheduleHash scheduleData sched.events date nextDate)) := by
  intro pair' date' row hrow
  unfold Store.upsertDailySnapshot at hrow
  dsimp only at hrow
  by_cases hpair : pair' = pair
  . subst hpair
    rw [Function.update_self] at hrow
    by_cases hdate : date' = date
    . subst hdate
      rw [Function.update_self] at hrow
      cases hrow
      refine ⟨sched, hloads, ?_⟩
      rw [hnext]
      rfl
    . rw [Function.update_of_ne hdate] at hrow
      exact h pair' date' row hrow
  . rw [Function.update_of_ne hpair] at hrow
    exact h pair' date' row hrow

theorem flushTomorrowDate_of_oneDay {reads : FlushReads} (h : reads.OneDay)
    : reads.tomorrowDate = reads.todayDate + 1 := by
  unfold FlushReads.tomorrowDate FlushReads.todayDate
  rw [date_add_dayUs, h]

theorem snapshotsSound_flushPair {store : Store Hash} {pair : Pair} {inPendingSet : Bool}
    {sched : Option Sched} {reads : FlushReads} (h : SnapshotsSound calculateScheduleHash store)
    (hreads : reads.OneDay)
    : SnapshotsSound calculateScheduleHash
        (flushPair calculateScheduleHash store pair inPendingSet sched reads).1 := by
  have hnext := flushTomorrowDate_of_oneDay hreads
  unfold flushPair
  split
  . next row _ =>
    split
    . exact h
    . next blast hblast =>
      have hloads : row.scheduleData.loads = some blast.sched := by
        simp only [PendingNotification.toBlast, Option.bind_eq_bind, Option.bind_eq_some_iff] at hblast
        obtain ⟨sched, hsched, _, _, _, _, hblast⟩ := hblast
        cases hblast
        exact hsched
      have hset : SnapshotsSound calculateScheduleHash
          ((store.markPendingNotificationsSent pair).setLastHash pair
            (calculateScheduleHash blast.sched.events)) := h
      exact hset.upsert pair hloads hnext
  . unfold flushDailyPlanned
    split
    . exact h
    . next sched =>
      have hset : SnapshotsSound calculateScheduleHash
          (store.setLastHash pair (calculateScheduleHash sched.events)) := h
      exact hset.upsert pair rfl hnext

variable [DecidableEq Hash]

theorem decide_computeDateHash_ne (hinj : Function.Injective calculateScheduleHash)
    (events events' : List ScheduleEvent) (date : Date)
    : decide (computeDateHash calculateScheduleHash events date ≠
          computeDateHash calculateScheduleHash events' date) =
        decide (filterEventsForDate events date ≠ filterEventsForDate events' date) := by
  rw [decide_eq_decide, Ne, Ne, computeDateHash_inj hinj]

theorem mergeTomorrowEvents_eq {changes : Changes} {events : List ScheduleEvent} {tomorrowDate : Date}
    (hnew : ∀ ev ∈ filterEventsForDate events tomorrowDate, ev.key ∉ changes.added.map (·.key))
    : mergeTomorrowEventsIntoChanges changes events tomorrowDate =
        { changes with added := changes.added ++ filterEventsForDate events tomorrowDate } := by
  unfold mergeTomorrowEventsIntoChanges
  congr 2
  rw [eventsNotIn, List.filter_eq_self]
  intro ev hev
  rw [decide_eq_true_eq]
  exact hnew ev hev

theorem todayChanges_eq {old : Sched} {events : List ScheduleEvent} {todayDate : Date}
    : todayChanges
          (decide (filterEventsForDate old.events todayDate ≠ filterEventsForDate events todayDate))
          (some old) events todayDate =
        computeChanges (filterEventsForDate old.events todayDate)
          (filterEventsForDate events todayDate) := by
  by_cases hsame : filterEventsForDate old.events todayDate = filterEventsForDate events todayDate
  . simp [todayChanges, computeChanges, hsame]
  . simp [todayChanges, hsame]

theorem classifyAgain_eq (hinj : Function.Injective calculateScheduleHash)
    {scheduleData : JsonText Sched} {old : Sched} {events : List ScheduleEvent}
    {todayDate tomorrowDate : Date} (hdate : todayDate ≠ tomorrowDate)
    (hloads : scheduleData.loads = some old)
    : classifyAgain calculateScheduleHash
          (snapshotRow calculateScheduleHash scheduleData old.events todayDate tomorrowDate) events
          todayDate tomorrowDate =
        classifyDays (filterEventsForDate old.events todayDate) (filterEventsForDate events todayDate)
          (filterEventsForDate old.events tomorrowDate) (filterEventsForDate events tomorrowDate) := by
  have hnew : ∀ ev ∈ filterEventsForDate events tomorrowDate,
      ev.key ∉ (eventsNotIn (filterEventsForDate events todayDate)
        (filterEventsForDate old.events todayDate)).map (·.key) :=
    fun ev hev => key_notMem_of_date hdate hev
  unfold classifyAgain snapshotRow
  simp only [isNone_computeDateHash, isSome_computeDateHash, decide_computeDateHash_ne hinj, hloads,
    todayChanges_eq]
  rw [mergeTomorrowEvents_eq (by exact hnew)]
  unfold mergeTomorrowChanges
  dsimp only
  generalize filterEventsForDate old.events tomorrowDate = oldTomorrow
  generalize filterEventsForDate events tomorrowDate = newTomorrow
  generalize filterEventsForDate old.events todayDate = oldToday
  generalize filterEventsForDate events todayDate = newToday
  -- the days decide alike which of the branches is taken
  by_cases hold : oldTomorrow = []
  . by_cases hnil : newTomorrow = []
    . simp [classifyDays, computeChanges, hold, hnil]
    . simp [classifyDays, computeChanges, hold, hnil]
  . by_cases hnil : newTomorrow = []
    . simp [classifyDays, computeChanges, hold, hnil, Ne.symm hold]
    . by_cases hsame : oldTomorrow = newTomorrow
      . simp [classifyDays, computeChanges, hnil, hsame]
      . simp [classifyDays, computeChanges, hold, hnil, hsame, Ne.symm hsame]

theorem classifyFirstOfDay_eq (hinj : Function.Injective calculateScheduleHash)
    {scheduleData : JsonText Sched} {old : Sched} {events : List ScheduleEvent}
    {yesterdayDate todayDate tomorrowDate : Date} (hdate : todayDate ≠ tomorrowDate)
    (hloads : scheduleData.loads = some old)
    : classifyFirstOfDay calculateScheduleHash
          (some (snapshotRow calculateScheduleHash scheduleData old.events yesterdayDate todayDate))
          events todayDate tomorrowDate =
        classifyDays (filterEventsForDate old.events todayDate) (filterEventsForDate events todayDate)
          [] (filterEventsForDate events tomorrowDate) := by
  have hnew : ∀ ev ∈ filterEventsForDate events tomorrowDate,
      ev.key ∉ (eventsNotIn (filterEventsForDate events todayDate)
        (filterEventsForDate old.events todayDate)).map (·.key) :=
    fun ev hev => key_notMem_of_date hdate hev
  unfold classifyFirstOfDay snapshotRow
  simp only [Option.bind_some, hloads, Option.map_some, Option.any_some, isSome_computeDateHash,
    decide_computeDateHash_ne hinj, todayChanges_eq, Option.isSome_some, Bool.and_true]
  rw [mergeTomorrowEvents_eq (by exact hnew)]
  generalize filterEventsForDate events tomorrowDate = newTomorrow
  by_cases hnil : newTomorrow = []
  . simp [classifyDays, computeChanges, hnil]
  . simp [classifyDays, computeChanges, hnil]

theorem tomorrowDate_of_oneDay {reads : CheckReads} (h : reads.OneDay)
    : reads.tomorrowDate = reads.todayDate + 1 := by
  unfold CheckReads.tomorrowDate CheckReads.todayDate
  rw [date_add_dayUs, h.2.1]

theorem snapshotsSound_checkSingleQueue {store : Store Hash} {pair : Pair} {sched : Option Sched}
    {reads : CheckReads} {createdAt : Int} (h : SnapshotsSound calculateScheduleHash store)
    (hreads : reads.OneDay)
    : SnapshotsSound calculateScheduleHash
        (checkSingleQueue calculateScheduleHash store pair sched reads createdAt).1 := by
  have hnext := tomorrowDate_of_oneDay hreads
  unfold checkSingleQueue
  split
  . exact h
  . next sched =>
    split
    . unfold refreshSnapshot
      split
      . exact h.upsert pair rfl hnext
      . exact h
    . have hwrite : SnapshotsSound calculateScheduleHash (writeChange calculateScheduleHash store
          (changeBlast calculateScheduleHash store pair sched reads) reads createdAt) := by
        have hset : SnapshotsSound calculateScheduleHash
            (store.setLastHash pair (calculateScheduleHash sched.events)) := h
        unfold writeChange
        dsimp only
        split
        . exact hset.upsert pair rfl hnext
        . exact hset.upsert pair rfl hnext
      dsimp only
      split
      . exact hwrite
      . exact hwrite

end

def Announcer.Event.OneDay (e : Announcer.Event) : Prop :=
  match e with
  | .pairChecked _ reads _ => reads.OneDay
  | .pairFlushed _ reads => reads.OneDay
  | _ => True

instance (e : Announcer.Event) : Decidable e.OneDay :=
  match e with
  | .pairChecked _ reads _ => inferInstanceAs (Decidable reads.OneDay)
  | .pairFlushed _ reads => inferInstanceAs (Decidable reads.OneDay)
  | .cycleStarted _ => .isTrue trivial
  | .cycleEnded => .isTrue trivial
  | .flushStarted _ => .isTrue trivial
  | .bodyEnded => .isTrue trivial
  | .purged _ => .isTrue trivial

section

variable {Hash : Type} [DecidableEq Hash] {calculateScheduleHash : List ScheduleEvent → Hash}

theorem snapshotsSound_step {m m' : Announcer Hash} {e : Announcer.Event}
    (h : SnapshotsSound calculateScheduleHash m.store) (hday : e.OneDay)
    (hstep : m.step calculateScheduleHash e = some m')
    : SnapshotsSound calculateScheduleHash m'.store := by
  unfold Announcer.step at hstep
  split at hstep
  . cases hstep
    exact h
  . cases hstep
    dsimp only [Announcer.checkPair]
    rw [Announcer.store_recordSent]
    exact snapshotsSound_checkSingleQueue h hday
  . cases hstep
    exact h
  . cases hstep
    exact h
  . cases hstep
    dsimp only [Announcer.flushPair]
    rw [Announcer.store_recordSent]
    exact snapshotsSound_flushPair h hday
  . cases hstep
    exact h
  . cases hstep
    exact h
  . cases hstep

theorem snapshotsSound_of_run {m : Announcer Hash} {es : List Announcer.Event}
    (hdays : ∀ e ∈ es, e.OneDay)
    (hrun : Run.exec (Announcer.step calculateScheduleHash) {} es = some m)
    : SnapshotsSound calculateScheduleHash m.store :=
  Run.invariant (C := fun _ e => e.OneDay)
    (I := fun m => SnapshotsSound calculateScheduleHash m.store) snapshotsSound_step
    (fun _ _ _ hrow => by cases hrow) (Run.StepsMeet.of_events hdays) hrun

theorem keysUnique_added {events oldToday oldTomorrow : List ScheduleEvent}
    {todayDate tomorrowDate : Date} (hdate : todayDate ≠ tomorrowDate) (hunique : KeysUnique events)
    : KeysUnique (eventsNotIn (filterEventsForDate events todayDate) oldToday ++
        eventsNotIn (filterEventsForDate events tomorrowDate) oldTomorrow) := by
  unfold KeysUnique
  rw [List.map_append, List.nodup_append]
  refine ⟨?_, ?_, ?_⟩
  . exact hunique.sublist (List.filter_sublist.trans List.filter_sublist)
  . exact hunique.sublist (List.filter_sublist.trans List.filter_sublist)
  . intro key hkey key' hkey' heq
    obtain ⟨ev', hev', rfl⟩ := List.mem_map.mp hkey'
    exact key_notMem_of_date hdate (mem_eventsNotIn.mp hev').1 (heq ▸ hkey)

/--
`update_type` and `changes` of a blast tell how the two days have changed from the old events. If the
schedule repeats no key, the added events are listed once each, those of today first.
-/
structure BlastExact (noRepeats : Prop) (blast : Blast) (todayDate tomorrowDate : Date)
    (oldToday oldTomorrow : List ScheduleEvent) : Prop where
  exact : Exact blast.updateType blast.changes oldToday
    (filterEventsForDate blast.sched.events todayDate) oldTomorrow
    (filterEventsForDate blast.sched.events tomorrowDate)
  added : noRepeats → KeysUnique blast.changes.added ∧
    blast.changes.added =
      eventsNotIn (filterEventsForDate blast.sched.events todayDate) oldToday ++
        eventsNotIn (filterEventsForDate blast.sched.events tomorrowDate) oldTomorrow

theorem BlastExact.of_classifyDays {noRepeats : Prop} {blast : Blast} {todayDate tomorrowDate : Date}
    {oldToday oldTomorrow : List ScheduleEvent} (isInitial : Bool)
    (hdate : todayDate ≠ tomorrowDate) (hunique : noRepeats → KeysUnique blast.sched.events)
    (hclassified : (blast.updateType, blast.changes) =
      let classified := classifyDays oldToday (filterEventsForDate blast.sched.events todayDate)
        oldTomorrow (filterEventsForDate blast.sched.events tomorrowDate)
      ({ classified.1 with
          dailyPlanned := classified.1.dailyPlanned || (classified.1.isEmpty && !isInitial)
          initial := classified.1.initial || isInitial },
        classified.2))
    : BlastExact noRepeats blast todayDate tomorrowDate oldToday oldTomorrow := by
  obtain ⟨hupdateType, hchanges⟩ := Prod.mk.inj hclassified
  have hexact := exact_classifyDays oldToday (filterEventsForDate blast.sched.events todayDate)
    oldTomorrow (filterEventsForDate blast.sched.events tomorrowDate)
  constructor
  . rw [hupdateType, hchanges]
    exact ⟨hexact.todayUpdated, hexact.tomorrowAppeared, hexact.tomorrowCancelled,
      hexact.tomorrowUpdated, hexact.todayUnchanged, hexact.addedKeys⟩
  . intro hrepeats
    have hunique := hunique hrepeats
    have hadded : blast.changes.added =
        eventsNotIn (filterEventsForDate blast.sched.events todayDate) oldToday ++
          eventsNotIn (filterEventsForDate blast.sched.events tomorrowDate) oldTomorrow := by
      rw [hchanges]
      apply added_classifyDays
      . intro ev hev
        exact key_notMem_of_date hdate hev
      . exact hunique.sublist List.filter_sublist
    refine ⟨?_, hadded⟩
    rw [hadded]
    exact keysUnique_added hdate hunique

/--
In a store that only the checker and the flush have written to, each of their calls on one day, a blast
says exactly what has changed since today's snapshot, or without one since yesterday's.
-/
theorem blastExact_of_run (hinj : Function.Injective calculateScheduleHash)
    {m : Announcer Hash} {es : List Announcer.Event} (hdays : ∀ e ∈ es, e.OneDay)
    (hrun : Run.exec (Announcer.step calculateScheduleHash) {} es = some m)
    {env : ParseEnv} {rawData : Json} {pair : Pair} {sched : Sched} {reads : CheckReads}
    (hreads : reads.OneDay) (hparse : parseScheduleForQueue env rawData pair.2 = some sched)
    : (∀ snapshot, m.store.snapshots pair reads.todayDate = some snapshot →
        ∃ old, snapshot.scheduleData.loads = some old ∧
          BlastExact (DistinctDays env rawData)
            (changeBlast calculateScheduleHash m.store pair sched reads) reads.todayDate
            reads.tomorrowDate (filterEventsForDate old.events reads.todayDate)
            (filterEventsForDate old.events reads.tomorrowDate)) ∧
      (m.store.snapshots pair reads.todayDate = none →
        ∀ snapshot, m.store.snapshots pair reads.yesterdayDate = some snapshot →
          ∃ old, snapshot.scheduleData.loads = some old ∧
            BlastExact (DistinctDays env rawData)
              (changeBlast calculateScheduleHash m.store pair sched reads) reads.todayDate
              reads.tomorrowDate (filterEventsForDate old.events reads.todayDate) []) := by
  have hsound := snapshotsSound_of_run hdays hrun
  have htomorrow := tomorrowDate_of_oneDay hreads
  have hdate : reads.todayDate ≠ reads.tomorrowDate := by
    rw [htomorrow]
    exact (Int.ne_of_lt (Int.lt_succ _))
  have hunique (hdays : DistinctDays env rawData) : KeysUnique sched.events :=
    keysUnique_parseScheduleForQueue hdays hparse
  constructor
  . intro snapshot hsnapshot
    obtain ⟨old, hloads, hrow⟩ := hsound pair reads.todayDate snapshot hsnapshot
    refine ⟨old, hloads, .of_classifyDays (m.store.lastHash pair).isNone hdate hunique ?_⟩
    unfold changeBlast classify
    dsimp only
    rw [hsnapshot]
    dsimp only
    rw [hrow, ← htomorrow, classifyAgain_eq hinj hdate hloads]
  . intro hnone snapshot hsnapshot
    obtain ⟨old, hloads, hrow⟩ := hsound pair reads.yesterdayDate snapshot hsnapshot
    have hyesterday : reads.yesterdayDate + 1 = reads.todayDate := by
      unfold CheckReads.yesterdayDate CheckReads.todayDate
      rw [date_sub_dayUs, hreads.1, Int.sub_add_cancel]
    refine ⟨old, hloads, .of_classifyDays (m.store.lastHash pair).isNone hdate hunique ?_⟩
    unfold changeBlast classify
    dsimp only
    rw [hnone, hsnapshot]
    dsimp only
    rw [hrow, hyesterday, classifyFirstOfDay_eq hinj hdate hloads]

end

def sampleEnv : ParseEnv where
  int text := [("0", 0), ("3600", 3600), ("86400", 86400)].lookup text
  fromtimestamp ts := some ((ts + 7200) / 86400)
  utcOffset _ _ := 7200
  normalizeDtekUpdatedAt _ := some none

def samplePayload (tomorrowTs : String) : Json :=
  let hours := Json.obj [("GPV1.1", .obj [("1", .str "no")])]
  .obj [("fact", .obj [("data", .obj [("0", hours), (tomorrowTs, hours)])])]

def sampleReads : CheckReads where
  today := 12 * hourUs
  yesterday := 12 * hourUs
  tomorrow := 12 * hourUs
  quiet := 12 * hourUs

def sampleRun : List Announcer.Event := [
  .cycleStarted [("kyiv", "1.1")],
  .pairChecked (some (noData "1.1")) sampleReads 0,
  .cycleEnded]

theorem blastExact_of_run_sampleRun
    : ∃ m sched snapshot old,
        Run.exec (Announcer.step id) {} sampleRun = some m ∧
        parseScheduleForQueue sampleEnv (samplePayload "86400") "1.1" = some sched ∧
        m.store.snapshots ("kyiv", "1.1") sampleReads.todayDate = some snapshot ∧
        snapshot.scheduleData.loads = some old ∧
        BlastExact (DistinctDays sampleEnv (samplePayload "86400"))
          (changeBlast id m.store ("kyiv", "1.1") sched sampleReads) sampleReads.todayDate
          sampleReads.tomorrowDate (filterEventsForDate old.events sampleReads.todayDate)
          (filterEventsForDate old.events sampleReads.tomorrowDate) := by
  have hrun : (Run.exec (Announcer.step id) {} sampleRun).isSome := by decide +kernel
  have hparse : (parseScheduleForQueue sampleEnv (samplePayload "86400") "1.1").isSome := by
    decide +kernel
  have hsnapshot : ((Option.get _ hrun).store.snapshots ("kyiv", "1.1")
      sampleReads.todayDate).isSome := by
    decide +kernel +revert
  have hreads : sampleReads.OneDay := by decide +kernel
  obtain ⟨old, hloads, hexact⟩ := (blastExact_of_run Function.injective_id (by decide +kernel)
    (Option.some_get hrun).symm hreads (Option.some_get hparse).symm).1 _
      (Option.some_get hsnapshot).symm
  exact ⟨_, _, _, old, (Option.some_get hrun).symm, (Option.some_get hparse).symm,
    (Option.some_get hsnapshot).symm, hloads, hexact⟩

theorem not_keysUnique_sampleRun
    : ∃ m sched,
        Run.exec (Announcer.step id) {} sampleRun = some m ∧
        parseScheduleForQueue sampleEnv (samplePayload "3600") "1.1" = some sched ∧
        m.store.lastHash ("kyiv", "1.1") ≠ some sched.events ∧
        (m.store.snapshots ("kyiv", "1.1") sampleReads.todayDate).isSome ∧
        ¬ KeysUnique (changeBlast id m.store ("kyiv", "1.1") sched sampleReads).changes.added := by
  have hrun : (Run.exec (Announcer.step id) {} sampleRun).isSome := by decide +kernel
  have hparse : (parseScheduleForQueue sampleEnv (samplePayload "3600") "1.1").isSome := by
    decide +kernel
  refine ⟨_, _, (Option.some_get hrun).symm, (Option.some_get hparse).symm, ?_, ?_, ?_⟩
  . decide +kernel +revert
  . decide +kernel +revert
  . decide +kernel +revert

end Scheduler
