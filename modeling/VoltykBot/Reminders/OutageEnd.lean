import VoltykBot.Reminders.NextEvent
import VoltykBot.Schedule.HourStates

/-!
This module contains the end of an outage as `find_next_event` announces it before the outage, and as it
announces it while the outage goes on.
-/

namespace Scheduler

def touching (finalEnd : IsoTime) (events : List ScheduleEvent) : List ScheduleEvent :=
  match events with
  | [] => []
  | ev :: events =>
    if ev.start.instant = finalEnd.instant then ev :: touching ev.endAt events else []

def lastEnd (finalEnd : IsoTime) (events : List ScheduleEvent) : IsoTime :=
  (events.getLast?.map (·.endAt)).getD finalEnd

theorem lastEnd_cons (finalEnd : IsoTime) (ev : ScheduleEvent) (events : List ScheduleEvent)
    : lastEnd finalEnd (ev :: events) = lastEnd ev.endAt events := by
  cases events with
  | nil => rfl
  | cons ev' events => simp [lastEnd, List.getLast?_cons]

theorem followingEnd_eq (finalEnd : IsoTime) (isPossible : Bool) (events : List ScheduleEvent)
    : followingEnd finalEnd isPossible events =
        (lastEnd finalEnd (touching finalEnd events),
          isPossible || (touching finalEnd events).any (·.isPossible)) := by
  induction events generalizing finalEnd isPossible with
  | nil => simp [followingEnd, touching, lastEnd]
  | cons ev events ih =>
    unfold followingEnd touching
    split
    . rw [ih, lastEnd_cons, List.any_cons, Bool.or_assoc]
    . simp [lastEnd]

def upcoming (now : Int) (events : List ScheduleEvent) : List ScheduleEvent :=
  events.dropWhile (fun ev => decide (ev.start.instant ≤ now ∧ ev.endAt.instant ≤ now))

theorem nextOf_upcoming {now now' : Int} (hle : now ≤ now') (events : List ScheduleEvent)
    : nextOf now' (upcoming now events) = nextOf now' events := by
  unfold upcoming
  induction events with
  | nil => rfl
  | cons ev events ih =>
    rw [List.dropWhile_cons]
    split
    . next hover =>
      rw [decide_eq_true_eq] at hover
      rw [ih]
      conv => rhs; unfold nextOf
      rw [if_neg, if_neg]
      . omega
      . omega
    . rfl

theorem nextOf_powerOff {now : Int} {events : List ScheduleEvent} {next : NextEvent}
    (h : nextOf now events = some next) (htype : next.type = .powerOff)
    : ∃ ev rest, upcoming now events = ev :: rest ∧ now < ev.start.instant ∧ next.time = ev.start ∧
        next.endTime = some ev.endAt ∧ next.isPossible = ev.isPossible := by
  rw [← nextOf_upcoming (Int.le_refl now)] at h
  have hhead : ∀ ev ∈ (upcoming now events).head?,
      ¬ (ev.start.instant ≤ now ∧ ev.endAt.instant ≤ now) := by
    intro ev hev hover
    have hnot := List.head?_dropWhile_not (p :=
      fun ev => decide (ev.start.instant ≤ now ∧ ev.endAt.instant ≤ now)) events
    unfold upcoming at hev
    rw [Option.mem_def.mp hev] at hnot
    simp [hover] at hnot
  generalize upcoming now events = ahead at h hhead
  cases ahead with
  | nil => cases h
  | cons ev rest =>
    have hev := hhead ev rfl
    unfold nextOf at h
    split at h
    . cases h
      cases htype
    . split at h
      . next hahead =>
        cases h
        exact ⟨ev, rest, rfl, hahead, rfl, rfl, rfl⟩
      . omega

/--
At `now` the power is announced to return when the outage of `off` was announced to end, and the outage is
still a possible or a planned one.
-/
def ReturnsAsAnnounced (sched : Sched) (off : NextEvent) (now : Int) : Prop :=
  ∃ on, findNextEvent sched now = some on ∧ on.type = .powerOn ∧ off.endTime = some on.time ∧
    on.isPossible = off.isPossible

/--
The events that go on when the next outage ends add nothing to what was announced: they end when it does,
and they are possible only if it is.
-/
def EndAnnounced (sched : Sched) (now : Int) : Prop :=
  ∃ ev rest, upcoming now sched.events = ev :: rest ∧
    lastEnd ev.endAt (touching ev.endAt rest) = ev.endAt ∧
    ∀ ev' ∈ touching ev.endAt rest, ev'.isPossible → ev.isPossible

theorem or_any_eq_iff {isPossible : Bool} {events : List ScheduleEvent}
    : (isPossible || events.any (·.isPossible)) = isPossible
        ↔
      ∀ ev ∈ events, ev.isPossible → isPossible := by
  cases isPossible <;> simp

theorem findNextEvent_during {sched : Sched} {now now' : Int} {ev : ScheduleEvent}
    {rest : List ScheduleEvent} (hdata : sched.hasData) (hle : now ≤ now')
    (hahead : upcoming now sched.events = ev :: rest) (hstart : ev.start.instant ≤ now')
    (hend : now' < ev.endAt.instant)
    : findNextEvent sched now' = some {
        type := .powerOn
        time := lastEnd ev.endAt (touching ev.endAt rest)
        startTime := some ev.start
        endTime := none
        minutes := minutesUntil (lastEnd ev.endAt (touching ev.endAt rest)) now'
        isPossible := ev.isPossible || (touching ev.endAt rest).any (·.isPossible) } := by
  unfold findNextEvent
  rw [if_pos hdata, ← nextOf_upcoming hle, hahead]
  unfold nextOf
  rw [if_pos ⟨hstart, hend⟩, followingEnd_eq]

theorem returnsAsAnnounced_iff {sched : Sched} {now now' : Int} {off : NextEvent} {finish : IsoTime}
    (hoff : findNextEvent sched now = some off) (htype : off.type = .powerOff)
    (hfinish : off.endTime = some finish) (hlt : now < now') (hstart : off.time.instant ≤ now')
    (hend : now' < finish.instant) : ReturnsAsAnnounced sched off now' ↔ EndAnnounced sched now := by
  unfold findNextEvent at hoff
  split at hoff
  . next hdata =>
    rcases nextOf_powerOff hoff htype with ⟨ev, rest, hahead, -, htime, hendTime, hpossible⟩
    rw [hfinish, Option.some.injEq] at hendTime
    subst hendTime
    rw [htime] at hstart
    have hduring := findNextEvent_during hdata (Int.le_of_lt hlt) hahead hstart hend
    constructor
    . rintro ⟨on, hon, -, htimeOn, hpossibleOn⟩
      rw [hduring, Option.some.injEq] at hon
      subst hon
      rw [hfinish, Option.some.injEq] at htimeOn
      rw [hpossible] at hpossibleOn
      exact ⟨ev, rest, hahead, htimeOn.symm, or_any_eq_iff.mp hpossibleOn⟩
    . rintro ⟨ev', rest', hahead', hlast, hall⟩
      rw [hahead, List.cons.injEq] at hahead'
      rcases hahead' with ⟨rfl, rfl⟩
      refine ⟨_, hduring, rfl, ?_, ?_⟩
      . rw [hfinish, hlast]
      . rw [hpossible]
        exact or_any_eq_iff.mpr hall
  . cases hoff

instance (sched : Sched) (off : NextEvent) (now : Int) : Decidable (ReturnsAsAnnounced sched off now) :=
  match h : findNextEvent sched now with
  | none => isFalse (by simp [ReturnsAsAnnounced, h])
  | some on =>
    decidable_of_iff
      (on.type = .powerOn ∧ off.endTime = some on.time ∧ on.isPossible = off.isPossible)
      (by simp [ReturnsAsAnnounced, h])

def mondayAt (minute : Int) : Int := (1768168800 + minute * 60) * 1000000

def mondayMaps (today : List (String × Json)) : Option Sched :=
  parseScheduleForQueue januaryEnv (payloadWith "1768168800" "1768255200" today []) "1.1"

def loneOutage : Sched where
  hasData := true
  events := [⟨⟨20465, 20, 7200⟩, ⟨20465, 22, 7200⟩, false⟩]
  queue := "1.1"
  dtekUpdatedAt := none

theorem returnsAsAnnounced_iff_loneOutage
    : mondayMaps [("11", .str "no")] = some loneOutage ∧
        ∃ off, findNextEvent loneOutage (mondayAt 540) = some off ∧
          ReturnsAsAnnounced loneOutage off (mondayAt 630) := by
  have hlt : mondayAt 540 < mondayAt 630 := by decide
  have hend : mondayAt 630 < (IsoTime.mk 20465 22 7200).instant := by decide
  refine ⟨by decide +kernel, _, rfl, ?_⟩
  refine (returnsAsAnnounced_iff rfl rfl rfl hlt (by decide) hend).mpr ?_
  exact ⟨⟨⟨20465, 20, 7200⟩, ⟨20465, 22, 7200⟩, false⟩, [], rfl, rfl, nofun⟩

theorem not_returnsAsAnnounced_mondayMaps
    : ∃ sched off finish,
        mondayMaps [("11", .str "no"), ("12", .str "maybe")] = some sched ∧
        findNextEvent sched (mondayAt 540) = some off ∧ off.type = .powerOff ∧
        off.endTime = some finish ∧ off.time.instant ≤ mondayAt 630 ∧ mondayAt 630 < finish.instant ∧
        ¬ ReturnsAsAnnounced sched off (mondayAt 630) := by
  let sched : Sched := {
    hasData := true
    events := [
      ⟨⟨20465, 20, 7200⟩, ⟨20465, 22, 7200⟩, false⟩,
      ⟨⟨20465, 22, 7200⟩, ⟨20465, 24, 7200⟩, true⟩]
    queue := "1.1"
    dtekUpdatedAt := none }
  refine ⟨sched, _, ⟨20465, 22, 7200⟩, by decide +kernel, rfl, rfl, rfl, ?_, ?_, ?_⟩
  . decide
  . decide
  . decide

end Scheduler
