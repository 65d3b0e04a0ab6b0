import VoltykBot.Schedule.Events

/-!
This module contains `find_next_event`: the next time that the power goes off or comes on, and how it
stays the same while time passes.
-/

namespace Scheduler

def IsoTime.instant (t : IsoTime) : Int := ((t.half : Int) * 1800 + t.date * 86400 - t.offset) * 1000000

inductive EventType where
  | powerOff
  | powerOn
  deriving DecidableEq, Repr

structure NextEvent where
  type : EventType
  time : IsoTime
  startTime : Option IsoTime
  endTime : Option IsoTime
  minutes : Int
  isPossible : Bool
  deriving DecidableEq, Repr

def minutesUntil (t : IsoTime) (now : Int) : Int :=
  -- `int` of a float rounds towards zero
  (t.instant - now).tdiv minuteUs

/--
The end of the outages that follow each other without a gap, and whether one of them is only possible.
-/
def followingEnd (finalEnd : IsoTime) (isPossible : Bool) (events : List ScheduleEvent)
    : IsoTime × Bool :=
  match events with
  | [] => (finalEnd, isPossible)
  | ev :: events =>
    if ev.start.instant = finalEnd.instant then
      followingEnd ev.endAt (isPossible || ev.isPossible) events
    else
      (finalEnd, isPossible)

def nextOf (now : Int) (events : List ScheduleEvent) : Option NextEvent :=
  match events with
  | [] => none
  | ev :: events =>
    if ev.start.instant ≤ now ∧ now < ev.endAt.instant then
      let final := followingEnd ev.endAt ev.isPossible events
      some {
        type := .powerOn
        time := final.1
        startTime := some ev.start
        endTime := none
        minutes := minutesUntil final.1 now
        isPossible := final.2 }
    else if now < ev.start.instant then
      some {
        type := .powerOff
        time := ev.start
        startTime := none
        endTime := some ev.endAt
        minutes := minutesUntil ev.start now
        isPossible := ev.isPossible }
    else
      nextOf now events

def findNextEvent (sched : Sched) (now : Int) : Option NextEvent :=
  if sched.hasData then nextOf now sched.events else none

theorem minutes_nextOf {now : Int} {events : List ScheduleEvent} {next : NextEvent}
    (h : nextOf now events = some next) : next.minutes = minutesUntil next.time now := by
  induction events with
  | nil => cases h
  | cons ev events ih =>
    unfold nextOf at h
    split at h
    . cases h
      rfl
    . split at h
      . cases h
        rfl
      . exact ih h

theorem minutes_findNextEvent {sched : Sched} {now : Int} {next : NextEvent}
    (h : findNextEvent sched now = some next) : next.minutes = minutesUntil next.time now := by
  unfold findNextEvent at h
  split at h
  . exact minutes_nextOf h
  . cases h

theorem nextOf_ahead {now : Int} {ev : ScheduleEvent} (events : List ScheduleEvent)
    (h : now < ev.start.instant)
    : ∃ next, nextOf now (ev :: events) = some next ∧ next.type = .powerOff ∧ next.time = ev.start := by
  unfold nextOf
  rw [if_neg (fun hgoes => Int.not_lt.mpr hgoes.1 h), if_pos h]
  exact ⟨_, rfl, rfl, rfl⟩

theorem fst_followingEnd (finalEnd : IsoTime) (isPossible isPossible' : Bool)
    (events : List ScheduleEvent)
    : (followingEnd finalEnd isPossible events).1 = (followingEnd finalEnd isPossible' events).1 := by
  induction events generalizing finalEnd isPossible isPossible' with
  | nil => rfl
  | cons ev events ih =>
    unfold followingEnd
    split
    . apply ih
    . rfl

theorem nextOf_following {now : Int} {ev : ScheduleEvent} {events : List ScheduleEvent}
    {isPossible : Bool} (hstart : ev.start.instant ≤ now)
    (hnow : now < (followingEnd ev.endAt isPossible events).1.instant)
    : ∃ next, nextOf now (ev :: events) = some next ∧ next.type = .powerOn ∧
        next.time = (followingEnd ev.endAt isPossible events).1 := by
  induction events generalizing ev isPossible with
  | nil =>
    unfold nextOf
    rw [if_pos ⟨hstart, hnow⟩]
    exact ⟨_, rfl, rfl, rfl⟩
  | cons ev' events ih =>
    unfold nextOf
    by_cases hend : now < ev.endAt.instant
    . rw [if_pos ⟨hstart, hend⟩]
      exact ⟨_, rfl, rfl, fst_followingEnd _ _ _ _⟩
    . -- the first outage is over, and the others still follow
      rw [if_neg (fun hgoes => hend hgoes.2), if_neg (Int.not_lt.mpr hstart)]
      unfold followingEnd at hnow ⊢
      split at hnow
      . next hchain =>
        rw [if_pos hchain]
        apply ih
        . omega
        . exact hnow
      . exact absurd hnow hend

theorem nextOf_stable {now now' : Int} {events : List ScheduleEvent} {next : NextEvent}
    (h : nextOf now events = some next) (hle : now ≤ now') (hlt : now' < next.time.instant)
    : ∃ next', nextOf now' events = some next' ∧ next'.type = next.type ∧ next'.time = next.time := by
  induction events with
  | nil => cases h
  | cons ev events ih =>
    unfold nextOf at h
    split at h
    . next hgoes =>
      cases h
      exact nextOf_following (Int.le_trans hgoes.1 hle) hlt
    . next hgoes =>
      split at h
      . next hahead =>
        cases h
        exact nextOf_ahead events hlt
      . next hahead =>
        unfold nextOf
        rw [if_neg, if_neg]
        . exact ih h
        . omega
        . omega

theorem findNextEvent_stable {sched : Sched} {now now' : Int} {next : NextEvent}
    (h : findNextEvent sched now = some next) (hle : now ≤ now') (hlt : now' < next.time.instant)
    : ∃ next', findNextEvent sched now' = some next' ∧ next'.type = next.type ∧
        next'.time = next.time := by
  unfold findNextEvent at h ⊢
  split at h
  . next hdata =>
    rw [if_pos hdata]
    exact nextOf_stable h hle hlt
  . cases h

end Scheduler
