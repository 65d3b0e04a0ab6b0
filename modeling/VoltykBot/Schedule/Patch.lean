import VoltykBot.Lib.KeyDiff
import VoltykBot.Schedule.Classify

/-!
This module contains the changes that a changed schedule is announced with, read as a patch of the
events of today and tomorrow.
-/

namespace Scheduler

theorem eventsNotIn_eq_missing (new old : List ScheduleEvent)
    : eventsNotIn new old = KeyDiff.missing ScheduleEvent.key new old := by
  unfold eventsNotIn KeyDiff.missing
  apply List.filter_congr
  intro ev _
  rw [decide_eq_decide]

def bothDays (events : List ScheduleEvent) (todayDate tomorrowDate : Date) : List ScheduleEvent :=
  filterEventsForDate events todayDate ++ filterEventsForDate events tomorrowDate

def Changes.applyTo (changes : Changes) (events : List ScheduleEvent) : List ScheduleEvent :=
  KeyDiff.patch events changes.removed changes.added

/--
The changes turn the old events of the two days into the new ones, and say something when a day was
updated.
-/
structure IsPatch (blast : Blast) (oldBoth newBoth : List ScheduleEvent) : Prop where
  exact : ∀ ev, ev ∈ blast.changes.applyTo oldBoth ↔ ev ∈ newBoth
  nonempty : blast.updateType.todayUpdated = true ∨ blast.updateType.tomorrowUpdated = true →
    blast.changes ≠ {}

/--
A period that both schedules have is planned in both or possible in both. The other two fields are about
payloads that give one day twice: what a changed tomorrow adds has each period once, and the lists of a
day do not differ only in order or repetitions.
-/
structure KeepsPossible (old new : List ScheduleEvent) (todayDate tomorrowDate : Date) : Prop where
  agree : KeyDiff.Agree ScheduleEvent.key (bothDays old todayDate tomorrowDate)
    (bothDays new todayDate tomorrowDate)
  addedOnce : filterEventsForDate old tomorrowDate ≠ [] →
    ∀ ev ∈ eventsNotIn (filterEventsForDate new tomorrowDate) (filterEventsForDate old tomorrowDate),
      ∀ ev' ∈ eventsNotIn (filterEventsForDate new tomorrowDate) (filterEventsForDate old tomorrowDate),
        ev.key = ev'.key → ev = ev'
  ordered : (∀ ev, ev ∈ bothDays old todayDate tomorrowDate ↔ ev ∈ bothDays new todayDate tomorrowDate) →
    filterEventsForDate old todayDate = filterEventsForDate new todayDate ∧
      filterEventsForDate old tomorrowDate = filterEventsForDate new tomorrowDate

theorem mem_bothDays {events : List ScheduleEvent} {todayDate tomorrowDate : Date} {ev : ScheduleEvent}
    : ev ∈ bothDays events todayDate tomorrowDate ↔
        ev ∈ events ∧ (ev.start.date = todayDate ∨ ev.start.date = tomorrowDate) := by
  unfold bothDays
  rw [List.mem_append, mem_filterEventsForDate, mem_filterEventsForDate, and_or_left]

theorem key_mem_bothDays {events : List ScheduleEvent} {todayDate tomorrowDate : Date}
    (hdate : todayDate ≠ tomorrowDate) {ev : ScheduleEvent}
    : (ev.start.date = todayDate → (ev.key ∈ (bothDays events todayDate tomorrowDate).map (·.key) ↔
          ev.key ∈ (filterEventsForDate events todayDate).map (·.key))) ∧
      (ev.start.date = tomorrowDate → (ev.key ∈ (bothDays events todayDate tomorrowDate).map (·.key) ↔
          ev.key ∈ (filterEventsForDate events tomorrowDate).map (·.key))) := by
  have hother {date : Date} (hne : ev.start.date ≠ date)
      : ev.key ∉ (filterEventsForDate events date).map (·.key) := by
    intro hkey
    rcases List.mem_map.mp hkey with ⟨ev', hev', heq⟩
    apply key_ne_of_date _ heq
    rw [(mem_filterEventsForDate.mp hev').2]
    exact hne.symm
  unfold bothDays
  rw [List.map_append, List.mem_append]
  constructor
  . intro hev
    apply or_iff_left
    apply hother
    rw [hev]
    exact hdate
  . intro hev
    apply or_iff_right
    apply hother
    rw [hev]
    exact hdate.symm

theorem eventsNotIn_bothDays (new old : List ScheduleEvent) {todayDate tomorrowDate : Date}
    (hdate : todayDate ≠ tomorrowDate)
    : eventsNotIn (bothDays new todayDate tomorrowDate) (bothDays old todayDate tomorrowDate) =
        eventsNotIn (filterEventsForDate new todayDate) (filterEventsForDate old todayDate) ++
          eventsNotIn (filterEventsForDate new tomorrowDate) (filterEventsForDate old tomorrowDate) := by
  conv_lhs => rw [bothDays, eventsNotIn, List.filter_append]
  congr 1
  . apply List.filter_congr
    intro ev hev
    rw [decide_eq_decide, (key_mem_bothDays hdate).1 (mem_filterEventsForDate.mp hev).2]
  . apply List.filter_congr
    intro ev hev
    rw [decide_eq_decide, (key_mem_bothDays hdate).2 (mem_filterEventsForDate.mp hev).2]

theorem days_of_same {old new : List ScheduleEvent} {todayDate tomorrowDate : Date}
    (hsame : ∀ ev, ev ∈ bothDays old todayDate tomorrowDate → ev ∈ bothDays new todayDate tomorrowDate)
    (hnew : filterEventsForDate new tomorrowDate = []) : filterEventsForDate old tomorrowDate = [] := by
  apply List.eq_nil_iff_forall_not_mem.mpr
  intro ev hev
  apply List.not_mem_nil (a := ev)
  rw [← hnew, mem_filterEventsForDate]
  rw [mem_filterEventsForDate] at hev
  exact ⟨(mem_bothDays.mp (hsame ev (mem_bothDays.mpr ⟨hev.1, .inr hev.2⟩))).1, hev.2⟩

theorem exists_appendNewEvents (added events : List ScheduleEvent)
    : ∃ tail, appendNewEvents added events = added ++ tail ∧ KeysUnique tail ∧
        ∀ ev ∈ tail, ev ∈ events ∧ ev.key ∉ added.map (·.key) := by
  unfold appendNewEvents
  induction events generalizing added with
  | nil => exact ⟨[], by simp, List.nodup_nil, List.forall_mem_nil _⟩
  | cons ev events ih =>
    rw [List.foldl_cons]
    split
    . rcases ih added with ⟨tail, heq, hunique, htail⟩
      refine ⟨tail, heq, hunique, ?_⟩
      intro ev' hev'
      exact ⟨List.mem_cons_of_mem _ (htail ev' hev').1, (htail ev' hev').2⟩
    . next hnew =>
      rcases ih (added ++ [ev]) with ⟨tail, heq, hunique, htail⟩
      have hkeys : ∀ ev' ∈ tail, ev'.key ∉ added.map (·.key) ∧ ev'.key ≠ ev.key := by
        intro ev' hev'
        have hnot := (htail ev' hev').2
        rwa [List.map_append, List.mem_append, not_or, List.map_singleton, List.mem_singleton] at hnot
      refine ⟨ev :: tail, ?_, ?_, ?_⟩
      . rw [heq, List.append_assoc, List.singleton_append]
      . unfold KeysUnique
        rw [List.map_cons, List.nodup_cons]
        refine ⟨?_, hunique⟩
        intro hmem
        rcases List.mem_map.mp hmem with ⟨ev', hev', hkey⟩
        exact (hkeys ev' hev').2 hkey
      . intro ev' hev'
        cases List.mem_cons.mp hev' with
        | inl hfirst =>
          rw [hfirst]
          exact ⟨List.mem_cons_self, hnew⟩
        | inr hrest => exact ⟨List.mem_cons_of_mem _ (htail ev' hrest).1, (hkeys ev' hrest).1⟩

theorem mem_of_mem_appendNewEvents {added events : List ScheduleEvent} {ev : ScheduleEvent}
    (h : ev ∈ appendNewEvents added events) : ev ∈ added ∨ ev ∈ events := by
  rcases exists_appendNewEvents added events with ⟨tail, heq, _, htail⟩
  rw [heq, List.mem_append] at h
  exact h.imp_right fun hev => (htail ev hev).1

theorem appendNewEvents_complete_iff {added events : List ScheduleEvent}
    (hnew : ∀ ev ∈ events, ev.key ∉ added.map (·.key))
    : (∀ ev ∈ events, ev ∈ appendNewEvents added events)
        ↔
      ∀ ev ∈ events, ∀ ev' ∈ events, ev.key = ev'.key → ev = ev' := by
  rcases exists_appendNewEvents added events with ⟨tail, heq, hunique, htail⟩
  have hmem {ev : ScheduleEvent} (hev : ev ∈ events) (hin : ev ∈ appendNewEvents added events)
      : ev ∈ tail := by
    rw [heq, List.mem_append] at hin
    apply hin.resolve_left
    intro hadded
    exact hnew ev hev (List.mem_map_of_mem hadded)
  constructor
  . intro h ev hev ev' hev' hkey
    exact List.inj_on_of_nodup_map hunique (hmem hev (h ev hev)) (hmem hev' (h ev' hev')) hkey
  . intro h ev hev
    have hkey : ev.key ∈ (appendNewEvents added events).map (·.key) := by
      rw [mem_keys_appendNewEvents]
      exact .inr (List.mem_map_of_mem hev)
    rcases List.mem_map.mp hkey with ⟨ev', hev', heq'⟩
    cases mem_of_mem_appendNewEvents hev' with
    | inl hadded =>
      apply absurd _ (hnew ev hev)
      rw [← heq']
      exact List.mem_map_of_mem hadded
    | inr hevents => exact h ev' hevents ev hev heq' ▸ hev'

theorem added_classifyDays_subset {oldToday newToday oldTomorrow newTomorrow : List ScheduleEvent}
    {ev : ScheduleEvent}
    (h : ev ∈ (classifyDays oldToday newToday oldTomorrow newTomorrow).2.added)
    : ev ∈ eventsNotIn newToday oldToday ∨ ev ∈ eventsNotIn newTomorrow oldTomorrow := by
  unfold classifyDays computeChanges at h
  dsimp only at h
  split at h
  . next happeared =>
    rw [decide_eq_true_eq] at happeared
    rw [happeared.1, eventsNotIn_nil, ← List.mem_append]
    exact h
  . split at h
    . exact mem_of_mem_appendNewEvents h
    . exact .inl h

theorem added_classifyDays_complete_iff
    {oldToday newToday oldTomorrow newTomorrow : List ScheduleEvent}
    (hnew : ∀ ev ∈ newTomorrow, ev.key ∉ (eventsNotIn newToday oldToday).map (·.key))
    : (∀ ev, ev ∈ eventsNotIn newToday oldToday ∨ ev ∈ eventsNotIn newTomorrow oldTomorrow →
        ev ∈ (classifyDays oldToday newToday oldTomorrow newTomorrow).2.added)
        ↔
      (oldTomorrow ≠ [] → ∀ ev ∈ eventsNotIn newTomorrow oldTomorrow,
        ∀ ev' ∈ eventsNotIn newTomorrow oldTomorrow, ev.key = ev'.key → ev = ev') := by
  unfold classifyDays computeChanges
  dsimp only
  split
  . next happeared =>
    rw [decide_eq_true_eq] at happeared
    rw [happeared.1, eventsNotIn_nil]
    simp only [List.mem_append, imp_self, implies_true, ne_eq, not_true_eq_false, false_implies]
  . next hnot =>
    rw [decide_eq_true_eq] at hnot
    split
    . next hchanged =>
      have hold : oldTomorrow ≠ [] := by
        rw [Bool.or_eq_true, decide_eq_true_eq, decide_eq_true_eq] at hchanged
        cases hchanged with
        | inl hcancelled => exact hcancelled.1
        | inr hupdated => exact hupdated.1
      have hkeys : ∀ ev ∈ eventsNotIn newTomorrow oldTomorrow,
          ev.key ∉ (eventsNotIn newToday oldToday).map (·.key) :=
        fun ev hev => hnew ev (mem_eventsNotIn.mp hev).1
      rw [forall_prop_of_true hold, ← appendNewEvents_complete_iff hkeys]
      constructor
      . intro h ev hev
        exact h ev (.inr hev)
      . intro h ev hev
        cases hev with
        | inl htoday =>
          rcases exists_appendNewEvents (eventsNotIn newToday oldToday)
            (eventsNotIn newTomorrow oldTomorrow) with ⟨tail, heq, _⟩
          rw [heq]
          exact List.mem_append_left _ htoday
        | inr htomorrow => exact h ev htomorrow
    . next hsame =>
      rw [Bool.or_eq_true, not_or, decide_eq_true_eq, decide_eq_true_eq] at hsame
      rw [eventsNotIn_of_unchanged hnot hsame.2]
      simp

theorem Changes.eq_empty {changes : Changes} (hadded : changes.added = [])
    (hremoved : changes.removed = []) : changes = {} := by
  cases changes
  simp only at hadded hremoved
  rw [hadded, hremoved]

theorem mem_applyTo_nil {events : List ScheduleEvent} {ev : ScheduleEvent}
    : ev ∈ Changes.applyTo {} events ↔ ev ∈ events := by
  simp [Changes.applyTo, KeyDiff.patch]

section

variable {blast : Blast} {old new : List ScheduleEvent} {todayDate tomorrowDate : Date}

theorem mem_applyTo_iff (hdate : todayDate ≠ tomorrowDate)
    (hchanges : blast.changes =
      (classifyDays (filterEventsForDate old todayDate) (filterEventsForDate new todayDate)
        (filterEventsForDate old tomorrowDate) (filterEventsForDate new tomorrowDate)).2)
    : (∀ ev, ev ∈ blast.changes.applyTo (bothDays old todayDate tomorrowDate) ↔
        ev ∈ bothDays new todayDate tomorrowDate)
        ↔
      KeyDiff.Agree ScheduleEvent.key (bothDays old todayDate tomorrowDate)
          (bothDays new todayDate tomorrowDate) ∧
        (filterEventsForDate old tomorrowDate ≠ [] →
          ∀ ev ∈ eventsNotIn (filterEventsForDate new tomorrowDate)
              (filterEventsForDate old tomorrowDate),
            ∀ ev' ∈ eventsNotIn (filterEventsForDate new tomorrowDate)
                (filterEventsForDate old tomorrowDate),
              ev.key = ev'.key → ev = ev') := by
  have hremoved : blast.changes.removed = KeyDiff.missing ScheduleEvent.key
      (bothDays old todayDate tomorrowDate) (bothDays new todayDate tomorrowDate) := by
    rw [hchanges, ← eventsNotIn_eq_missing, eventsNotIn_bothDays _ _ hdate]
    rfl
  have hmissing (ev : ScheduleEvent) : ev ∈ KeyDiff.missing ScheduleEvent.key
      (bothDays new todayDate tomorrowDate) (bothDays old todayDate tomorrowDate) ↔
        ev ∈ eventsNotIn (filterEventsForDate new todayDate) (filterEventsForDate old todayDate) ∨
          ev ∈ eventsNotIn (filterEventsForDate new tomorrowDate)
            (filterEventsForDate old tomorrowDate) := by
    rw [← eventsNotIn_eq_missing, eventsNotIn_bothDays _ _ hdate, List.mem_append]
  have hsubset : ∀ ev ∈ blast.changes.added, ev ∈ KeyDiff.missing ScheduleEvent.key
      (bothDays new todayDate tomorrowDate) (bothDays old todayDate tomorrowDate) := by
    intro ev hev
    rw [hmissing]
    apply added_classifyDays_subset
    rwa [← hchanges]
  have hnew : ∀ ev ∈ filterEventsForDate new tomorrowDate,
      ev.key ∉ (eventsNotIn (filterEventsForDate new todayDate)
        (filterEventsForDate old todayDate)).map (·.key) :=
    fun ev hev => key_notMem_of_date hdate hev
  unfold Changes.applyTo
  rw [hremoved, KeyDiff.mem_patch_iff hsubset, ← added_classifyDays_complete_iff hnew, ← hchanges]
  simp only [hmissing]

theorem ordered_of_nonempty (hdate : todayDate ≠ tomorrowDate)
    (hexact : Exact blast.updateType blast.changes (filterEventsForDate old todayDate)
      (filterEventsForDate new todayDate) (filterEventsForDate old tomorrowDate)
      (filterEventsForDate new tomorrowDate))
    (hchanges : blast.changes =
      (classifyDays (filterEventsForDate old todayDate) (filterEventsForDate new todayDate)
        (filterEventsForDate old tomorrowDate) (filterEventsForDate new tomorrowDate)).2)
    (hnonempty : blast.updateType.todayUpdated = true ∨ blast.updateType.tomorrowUpdated = true →
      blast.changes ≠ {})
    (hsame : ∀ ev, ev ∈ bothDays old todayDate tomorrowDate ↔ ev ∈ bothDays new todayDate tomorrowDate)
    : filterEventsForDate old todayDate = filterEventsForDate new todayDate ∧
        filterEventsForDate old tomorrowDate = filterEventsForDate new tomorrowDate := by
  have hempty : blast.changes = {} := by
    have hremoved : eventsNotIn (bothDays old todayDate tomorrowDate)
        (bothDays new todayDate tomorrowDate) = [] := by
      rw [eventsNotIn_eq_missing]
      exact KeyDiff.missing_eq_nil_of_same fun ev => (hsame ev).mp
    have hadded : eventsNotIn (bothDays new todayDate tomorrowDate)
        (bothDays old todayDate tomorrowDate) = [] := by
      rw [eventsNotIn_eq_missing]
      exact KeyDiff.missing_eq_nil_of_same fun ev => (hsame ev).mpr
    rw [eventsNotIn_bothDays _ _ hdate] at hremoved hadded
    rw [hchanges]
    refine Changes.eq_empty ?_ hremoved
    apply List.eq_nil_iff_forall_not_mem.mpr
    intro ev hev
    apply List.not_mem_nil (a := ev)
    rw [← hadded, List.mem_append]
    exact added_classifyDays_subset hev
  have hflags : ¬ (blast.updateType.todayUpdated = true ∨ blast.updateType.tomorrowUpdated = true) :=
    fun hflag => hnonempty hflag hempty
  rw [not_or, hexact.todayUpdated, hexact.tomorrowUpdated, not_not] at hflags
  refine ⟨hflags.1, ?_⟩
  by_cases hnew : filterEventsForDate new tomorrowDate = []
  . rw [hnew]
    exact days_of_same (fun ev => (hsame ev).mp) hnew
  . by_contra hne
    apply hflags.2
    refine ⟨?_, hnew, hne⟩
    intro hold
    exact hnew (days_of_same (fun ev => (hsame ev).mpr) hold)

theorem isPatch_iff_keepsPossible (hdate : todayDate ≠ tomorrowDate)
    (hexact : Exact blast.updateType blast.changes (filterEventsForDate old todayDate)
      (filterEventsForDate new todayDate) (filterEventsForDate old tomorrowDate)
      (filterEventsForDate new tomorrowDate))
    (hchanges : blast.changes =
      (classifyDays (filterEventsForDate old todayDate) (filterEventsForDate new todayDate)
        (filterEventsForDate old tomorrowDate) (filterEventsForDate new tomorrowDate)).2)
    : IsPatch blast (bothDays old todayDate tomorrowDate) (bothDays new todayDate tomorrowDate)
        ↔
      KeepsPossible old new todayDate tomorrowDate := by
  have hpatch := mem_applyTo_iff hdate hchanges
  constructor
  . intro h
    have hagree := hpatch.mp h.exact
    exact ⟨hagree.1, hagree.2, ordered_of_nonempty hdate hexact hchanges h.nonempty⟩
  . intro h
    have hpatched := hpatch.mpr ⟨h.agree, h.addedOnce⟩
    refine ⟨hpatched, ?_⟩
    intro hflag hempty
    -- changes that say nothing leave the events as they were
    simp only [hempty, mem_applyTo_nil] at hpatched
    have hsame := h.ordered hpatched
    rw [hexact.todayUpdated, hexact.tomorrowUpdated] at hflag
    cases hflag with
    | inl htoday => exact htoday hsame.1
    | inr htomorrow => exact htomorrow.2.2 hsame.2

end

section

variable {Hash : Type} [DecidableEq Hash] {calculateScheduleHash : List ScheduleEvent → Hash}

theorem changeBlast_of_snapshot (hinj : Function.Injective calculateScheduleHash)
    {store : Store Hash} {pair : Pair} {old : Sched} (sched : Sched) {reads : CheckReads}
    (hdate : reads.todayDate ≠ reads.tomorrowDate)
    (hsnapshot : store.snapshots pair reads.todayDate = some (snapshotRow calculateScheduleHash
      (.dumped old) old.events reads.todayDate reads.tomorrowDate))
    : let classified := classifyDays (filterEventsForDate old.events reads.todayDate)
          (filterEventsForDate sched.events reads.todayDate)
          (filterEventsForDate old.events reads.tomorrowDate)
          (filterEventsForDate sched.events reads.tomorrowDate)
      let isInitial := (store.lastHash pair).isNone
      let blast := changeBlast calculateScheduleHash store pair sched reads
      (blast.updateType, blast.changes) =
        ({ classified.1 with
            dailyPlanned := classified.1.dailyPlanned || (classified.1.isEmpty && !isInitial)
            initial := classified.1.initial || isInitial },
          classified.2) := by
  unfold changeBlast classify
  dsimp only
  rw [hsnapshot]
  dsimp only
  rw [classifyAgain_eq hinj hdate rfl]

theorem todayDate_lt_tomorrowDate {reads : CheckReads} (h : reads.today ≤ reads.tomorrow)
    : reads.todayDate < reads.tomorrowDate := by
  unfold CheckReads.todayDate CheckReads.tomorrowDate
  rw [date_add_dayUs]
  apply Int.lt_add_one_of_le
  exact Int.ediv_le_ediv (by decide) h

/--
The changes announced against today's snapshot are a patch if and only if no period changes between
planned and possible.
-/
theorem isPatch_iff (hinj : Function.Injective calculateScheduleHash) {store : Store Hash} {pair : Pair}
    {old sched : Sched} {reads : CheckReads} (hreads : reads.today ≤ reads.tomorrow)
    (hsnapshot : store.snapshots pair reads.todayDate = some (snapshotRow calculateScheduleHash
      (.dumped old) old.events reads.todayDate reads.tomorrowDate))
    : IsPatch (changeBlast calculateScheduleHash store pair sched reads)
          (bothDays old.events reads.todayDate reads.tomorrowDate)
          (bothDays sched.events reads.todayDate reads.tomorrowDate)
        ↔
      KeepsPossible old.events sched.events reads.todayDate reads.tomorrowDate := by
  have hdate := Int.ne_of_lt (todayDate_lt_tomorrowDate hreads)
  have hblast := changeBlast_of_snapshot hinj sched hdate hsnapshot
  have hexact : BlastExact False (changeBlast calculateScheduleHash store pair sched reads) _ _ _ _ :=
    .of_classifyDays (store.lastHash pair).isNone hdate (fun h => h.elim) hblast
  exact isPatch_iff_keepsPossible hdate hexact.exact (Prod.mk.inj hblast).2

end

def morningOutage (isPossible : Bool) : Sched where
  hasData := true
  events := [{ start := ⟨0, 20, 7200⟩, endAt := ⟨0, 22, 7200⟩, isPossible := isPossible }]
  queue := "1.1"
  dtekUpdatedAt := none

def morningStore : Store (List ScheduleEvent) :=
  (checkSingleQueue id (Announcer.store {}) ("kyiv", "1.1") (some (morningOutage false)) sampleReads 0).1

theorem isPatch_iff_morningStore
    : IsPatch (changeBlast id morningStore ("kyiv", "1.1") (morningOutage true) sampleReads)
          (bothDays (morningOutage false).events 0 1) (bothDays (morningOutage true).events 0 1)
        ↔
      KeepsPossible (morningOutage false).events (morningOutage true).events 0 1 :=
  isPatch_iff Function.injective_id (by decide) rfl

theorem not_isPatch_morningStore
    : (changeBlast id morningStore ("kyiv", "1.1") (morningOutage true)
          sampleReads).updateType.todayUpdated = true ∧
        ¬ IsPatch (changeBlast id morningStore ("kyiv", "1.1") (morningOutage true) sampleReads)
          (bothDays (morningOutage false).events 0 1) (bothDays (morningOutage true).events 0 1) := by
  have hupdated : (changeBlast id morningStore ("kyiv", "1.1") (morningOutage true)
      sampleReads).updateType.todayUpdated = true := by
    decide +kernel
  refine ⟨hupdated, ?_⟩
  intro h
  apply h.nonempty (.inl hupdated)
  decide +kernel

end Scheduler
