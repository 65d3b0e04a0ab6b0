import Mathlib.Data.List.Nodup
import VoltykBot.Schedule.Clock

/-!
This module contains the events of a parsed schedule, their hashes, and the changes between two
schedules as `_check_single_queue` computes them.
-/

namespace Scheduler

/--
A datetime of the Kyiv zone that `isoformat` spells: a day, the half hours since its midnight, and the
offset from UTC in seconds. Two of them have the same text if and only if they are equal.
-/
structure IsoTime where
  date : Date
  half : Nat
  offset : Int
  deriving DecidableEq, Repr

structure ScheduleEvent where
  start : IsoTime
  endAt : IsoTime
  isPossible : Bool
  deriving DecidableEq, Repr

def ScheduleEvent.key (e : ScheduleEvent) : IsoTime × IsoTime := (e.start, e.endAt)

structure Sched where
  hasData : Bool
  events : List ScheduleEvent
  queue : String
  dtekUpdatedAt : Option String
  deriving DecidableEq, Repr

def filterEventsForDate (events : List ScheduleEvent) (date : Date) : List ScheduleEvent :=
  events.filter (·.start.date = date)

section Hash

variable {Hash : Type}

/--
`_compute_date_hash`, where `calculateScheduleHash` is SHA-256 of the events' JSON text.
-/
def computeDateHash (calculateScheduleHash : List ScheduleEvent → Hash) (events : List ScheduleEvent)
    (date : Date) : Option Hash :=
  let dayEvents := filterEventsForDate events date
  if dayEvents.isEmpty then none else some (calculateScheduleHash dayEvents)

variable {calculateScheduleHash : List ScheduleEvent → Hash}

theorem computeDateHash_eq_none {events : List ScheduleEvent} {date : Date}
    : computeDateHash calculateScheduleHash events date = none
        ↔
      filterEventsForDate events date = [] := by
  unfold computeDateHash
  dsimp only
  split
  . next hempty =>
    rw [List.isEmpty_iff] at hempty
    simp only [hempty]
  . next hempty =>
    rw [List.isEmpty_iff] at hempty
    simp only [hempty, reduceCtorEq]

theorem computeDateHash_inj (hinj : Function.Injective calculateScheduleHash)
    {events events' : List ScheduleEvent} {date : Date}
    : computeDateHash calculateScheduleHash events date =
          computeDateHash calculateScheduleHash events' date
        ↔
      filterEventsForDate events date = filterEventsForDate events' date := by
  constructor
  . intro heq
    unfold computeDateHash at heq
    dsimp only at heq
    split at heq
    . next hempty =>
      split at heq
      . next hempty' => rw [List.isEmpty_iff.mp hempty, List.isEmpty_iff.mp hempty']
      . cases heq
    . split at heq
      . cases heq
      . exact hinj (Option.some.inj heq)
  . intro heq
    unfold computeDateHash
    rw [heq]

end Hash

structure Changes where
  added : List ScheduleEvent := []
  removed : List ScheduleEvent := []
  deriving DecidableEq, Repr

def eventsNotIn (new old : List ScheduleEvent) : List ScheduleEvent :=
  new.filter (·.key ∉ old.map (·.key))

def computeChanges (oldEvents newEvents : List ScheduleEvent) : Changes where
  added := eventsNotIn newEvents oldEvents
  removed := eventsNotIn oldEvents newEvents

def mergeTomorrowEventsIntoChanges (changes : Changes) (events : List ScheduleEvent)
    (tomorrowDate : Date) : Changes :=
  { changes with
    added := changes.added ++ eventsNotIn (filterEventsForDate events tomorrowDate) changes.added }

/--
The loop of `_check_single_queue` that appends what a changed tomorrow adds; here the keys grow with the
list.
-/
def appendNewEvents (added events : List ScheduleEvent) : List ScheduleEvent :=
  events.foldl (fun added ev => if ev.key ∈ added.map (·.key) then added else added ++ [ev]) added

@[simp]
theorem eventsNotIn_self (events : List ScheduleEvent) : eventsNotIn events events = [] := by
  unfold eventsNotIn
  rw [List.filter_eq_nil_iff]
  intro ev hev
  simpa using ⟨ev, hev, rfl⟩

@[simp]
theorem eventsNotIn_nil (events : List ScheduleEvent) : eventsNotIn events [] = events := by
  simp [eventsNotIn]

@[simp]
theorem nil_eventsNotIn (old : List ScheduleEvent) : eventsNotIn [] old = [] := rfl

theorem mem_eventsNotIn {new old : List ScheduleEvent} {ev : ScheduleEvent}
    : ev ∈ eventsNotIn new old ↔ ev ∈ new ∧ ev.key ∉ old.map (·.key) := by
  simp [eventsNotIn]

theorem mem_filterEventsForDate {events : List ScheduleEvent} {date : Date} {ev : ScheduleEvent}
    : ev ∈ filterEventsForDate events date ↔ ev ∈ events ∧ ev.start.date = date := by
  simp [filterEventsForDate]

def KeysUnique (events : List ScheduleEvent) : Prop :=
  (events.map (·.key)).Nodup

instance (events : List ScheduleEvent) : Decidable (KeysUnique events) :=
  inferInstanceAs (Decidable (List.Nodup _))

theorem KeysUnique.sublist {events events' : List ScheduleEvent} (h : KeysUnique events)
    (hsub : events'.Sublist events) : KeysUnique events' :=
  List.Nodup.sublist (hsub.map _) h

theorem appendNewEvents_eq {added events : List ScheduleEvent} (hunique : KeysUnique events)
    (hnew : ∀ ev ∈ events, ev.key ∉ added.map (·.key)) : appendNewEvents added events = added ++ events := by
  unfold appendNewEvents
  induction events generalizing added with
  | nil => simp
  | cons ev events ih =>
    rw [KeysUnique, List.map_cons, List.nodup_cons] at hunique
    rw [List.foldl_cons, if_neg (hnew ev List.mem_cons_self), ih hunique.2]
    . simp
    . intro ev' hev'
      rw [List.map_append, List.mem_append, not_or]
      constructor
      . exact hnew ev' (List.mem_cons_of_mem _ hev')
      . intro hkey
        rw [List.map_cons, List.map_nil, List.mem_singleton] at hkey
        apply hunique.1
        rw [← hkey]
        exact List.mem_map_of_mem hev'

theorem key_ne_of_date {ev ev' : ScheduleEvent} (h : ev.start.date ≠ ev'.start.date)
    : ev.key ≠ ev'.key := by
  intro hkey
  apply h
  rw [(Prod.mk.inj hkey).1]

theorem key_notMem_of_date {events events' old : List ScheduleEvent} {date date' : Date}
    (hne : date ≠ date') {ev : ScheduleEvent} (hev : ev ∈ filterEventsForDate events date')
    : ev.key ∉ (eventsNotIn (filterEventsForDate events' date) old).map (·.key) := by
  intro hkey
  obtain ⟨ev', hev', heq⟩ := List.mem_map.mp hkey
  have hdate' := (mem_filterEventsForDate.mp (mem_eventsNotIn.mp hev').1).2
  have hdate := (mem_filterEventsForDate.mp hev).2
  apply key_ne_of_date _ heq
  rw [hdate, hdate']
  exact hne

end Scheduler
