import Mathlib.Data.Int.ConditionallyCompleteOrder
import Mathlib.Order.ConditionallyCompleteLattice.Basic
import VoltykBot.Lib.Timeline
import VoltykBot.Reminders.OutageEnd

/-!
This module contains what `find_next_event` returns, in terms of the instants that the events of a
schedule in normal form cover.
-/

namespace Scheduler

open Timeline

abbrev ScheduleEvent.from (ev : ScheduleEvent) : Int := ev.start.instant

abbrev ScheduleEvent.until (ev : ScheduleEvent) : Int := ev.endAt.instant

def coveredBy (events : List ScheduleEvent) : Set Int :=
  covered ScheduleEvent.from ScheduleEvent.until events

/--
The events are non-empty half open intervals, sorted by where they start, no two of which overlap.
-/
def InNormalForm (events : List ScheduleEvent) : Prop :=
  NormalForm ScheduleEvent.from ScheduleEvent.until events

inductive Stop (now : Int) (events : List ScheduleEvent) : Option NextEvent → Prop where
  | goesOn {before rest : List ScheduleEvent} {ev : ScheduleEvent}
    (split : events = before ++ ev :: rest)
    (passed : ∀ ev' ∈ before, ev'.until ≤ now)
    (covers : now ∈ Set.Ico ev.from ev.until)
    : Stop now events (some {
        type := .powerOn
        time := (followingEnd ev.endAt ev.isPossible rest).1
        startTime := some ev.start
        endTime := none
        minutes := minutesUntil (followingEnd ev.endAt ev.isPossible rest).1 now
        isPossible := (followingEnd ev.endAt ev.isPossible rest).2 })
  | ahead {before rest : List ScheduleEvent} {ev : ScheduleEvent}
    (split : events = before ++ ev :: rest)
    (passed : ∀ ev' ∈ before, ev'.until ≤ now)
    (starts : now < ev.from)
    : Stop now events (some {
        type := .powerOff
        time := ev.start
        startTime := none
        endTime := some ev.endAt
        minutes := minutesUntil ev.start now
        isPossible := ev.isPossible })
  | allOver (passed : ∀ ev ∈ events, ev.until ≤ now) : Stop now events none

theorem Stop.cons {now : Int} {ev : ScheduleEvent} {events : List ScheduleEvent}
    {next : Option NextEvent} (hover : ev.until ≤ now) (h : Stop now events next)
    : Stop now (ev :: events) next := by
  have hcons {before : List ScheduleEvent} (hbefore : ∀ ev' ∈ before, ev'.until ≤ now)
      : ∀ ev' ∈ ev :: before, ev'.until ≤ now :=
    List.forall_mem_cons.mpr ⟨hover, hbefore⟩
  cases h with
  | goesOn split passed covers => exact .goesOn (by rw [split]; rfl) (hcons passed) covers
  | ahead split passed starts => exact .ahead (by rw [split]; rfl) (hcons passed) starts
  | allOver passed => exact .allOver (hcons passed)

theorem stop_nextOf {now : Int} {events : List ScheduleEvent}
    (hlong : ∀ ev ∈ events, ev.from < ev.until) : Stop now events (nextOf now events) := by
  induction events with
  | nil => exact .allOver (List.forall_mem_nil _)
  | cons ev events ih =>
    unfold nextOf
    split
    . next hcovers => exact .goesOn (List.nil_append _).symm (List.forall_mem_nil _) hcovers
    . next hcovers =>
      split
      . next hahead => exact .ahead (List.nil_append _).symm (List.forall_mem_nil _) hahead
      . next hahead =>
        have hover : ev.until ≤ now := by
          by_contra hlater
          exact hcovers ⟨Int.not_lt.mp hahead, Int.not_le.mp hlater⟩
        exact (ih fun ev' hev' => hlong ev' (List.mem_cons_of_mem ev hev')).cons hover

theorem notMem_coveredBy_of_over {now : Int} {events : List ScheduleEvent}
    (hover : ∀ ev ∈ events, ev.until ≤ now) {t : Int} (ht : now ≤ t) : t ∉ coveredBy events := by
  rintro ⟨ev, hev, hmem⟩
  exact Int.not_le.mpr hmem.2 (Int.le_trans (hover ev hev) ht)

theorem mem_coveredBy_of_over {now : Int} {before events : List ScheduleEvent}
    (hover : ∀ ev ∈ before, ev.until ≤ now) {t : Int} (ht : now ≤ t)
    : t ∈ coveredBy (before ++ events) ↔ t ∈ coveredBy events := by
  rw [coveredBy, covered_append]
  exact or_iff_right (notMem_coveredBy_of_over hover ht)

theorem isLeast_followingEnd {now : Int} {ev : ScheduleEvent} {rest : List ScheduleEvent}
    (h : InNormalForm (ev :: rest)) (isPossible : Bool) (hcovers : now ∈ Set.Ico ev.from ev.until)
    : IsLeast {t | now < t ∧ t ∉ coveredBy (ev :: rest)}
        (followingEnd ev.endAt isPossible rest).1.instant := by
  have hlower {t : Int} (ht : now < t) (hfree : t ∉ coveredBy (ev :: rest)) : ev.until ≤ t := by
    by_contra hlt
    exact hfree (mem_covered_cons.mpr (.inl ⟨hcovers.1.trans ht.le, not_le.mp hlt⟩))
  induction rest generalizing now ev isPossible with
  | nil =>
    refine ⟨⟨hcovers.2, ?_⟩, fun t ht => hlower ht.1 ht.2⟩
    exact h.notMem_covered_finish nofun
  | cons ev' rest ih =>
    unfold followingEnd
    split
    . next htouches =>
      -- the next outage covers the instant it starts at, from where the chain goes on
      have hcovers' : ev.until ∈ Set.Ico ev'.from ev'.until :=
        ⟨htouches.le, htouches.symm.trans_lt h.tail.head_lt⟩
      have hlower' {t : Int} (ht : ev.until < t) (hfree : t ∉ coveredBy (ev' :: rest))
          : ev'.until ≤ t := by
        by_contra hlt
        exact hfree (mem_covered_cons.mpr (.inl ⟨hcovers'.1.trans ht.le, not_le.mp hlt⟩))
      have hleast := ih h.tail (isPossible || ev'.isPossible) hcovers' hlower'
      constructor
      . refine ⟨hcovers.2.trans hleast.1.1, ?_⟩
        rw [coveredBy, mem_covered_cons]
        rintro (hmem | hmem)
        . exact lt_asymm hmem.2 hleast.1.1
        . exact hleast.1.2 hmem
      . rintro t ⟨ht, hfree⟩
        have hfree' : t ∉ coveredBy (ev' :: rest) := fun hmem =>
          hfree (mem_covered_cons.mpr (.inr hmem))
        have hne : t ≠ ev.until := by
          rintro rfl
          exact hfree' (mem_covered_cons.mpr (.inl hcovers'))
        exact hleast.2 ⟨lt_of_le_of_ne (hlower ht hfree) hne.symm, hfree'⟩
    . next hgap =>
      refine ⟨⟨hcovers.2, ?_⟩, fun t ht => hlower ht.1 ht.2⟩
      refine h.notMem_covered_finish ?_
      rintro _ ⟨⟩
      exact hgap

theorem isLeast_of_over {now : Int} {before events : List ScheduleEvent} {t : Int}
    (hover : ∀ ev ∈ before, ev.until ≤ now)
    (h : IsLeast {t | now < t ∧ t ∉ coveredBy events} t)
    : IsLeast {t | now < t ∧ t ∉ coveredBy (before ++ events)} t := by
  have hset : {t | now < t ∧ t ∉ coveredBy (before ++ events)} =
      {t | now < t ∧ t ∉ coveredBy events} := by
    ext t'
    refine and_congr_right fun ht => not_congr ?_
    exact mem_coveredBy_of_over hover ht.le
  rwa [hset]

theorem normalForm_of_append {before events : List ScheduleEvent}
    (h : InNormalForm (before ++ events)) : InNormalForm events := by
  induction before with
  | nil => exact h
  | cons ev before ih => exact ih h.tail

/-! ## `find_next_event` -/

theorem minutesUntil_eq {t : IsoTime} {now : Int} (h : now ≤ t.instant)
    : 0 ≤ minutesUntil t now ∧ minutesUntil t now = (t.instant - now) / minuteUs := by
  have hnonneg : 0 ≤ t.instant - now := Int.sub_nonneg_of_le h
  have heq : minutesUntil t now = (t.instant - now) / minuteUs :=
    Int.tdiv_eq_ediv_of_nonneg hnonneg
  refine ⟨?_, heq⟩
  rw [heq]
  exact Int.ediv_nonneg hnonneg (by decide)

structure NextEventIsRight (events : List ScheduleEvent) (now : Int) (next? : Option NextEvent)
    : Prop where
  powerOn_iff : (∃ next, next? = some next ∧ next.type = .powerOn) ↔ now ∈ coveredBy events
  powerOn_time : ∀ next, next? = some next → next.type = .powerOn →
    IsLeast {t | now < t ∧ t ∉ coveredBy events} next.time.instant
  powerOff_iff : (∃ next, next? = some next ∧ next.type = .powerOff) ↔
    now ∉ coveredBy events ∧ ∃ ev ∈ events, now < ev.from
  powerOff_time : ∀ next, next? = some next → next.type = .powerOff →
    ∃ ev, events.find? (now < ·.from) = some ev ∧ next.time = ev.start ∧ next.endTime = some ev.endAt
  none_iff : next? = none ↔ ∀ ev ∈ events, ev.until ≤ now
  minutes : ∀ next, next? = some next →
    0 ≤ next.minutes ∧ next.minutes = (next.time.instant - now) / minuteUs
  isPossible : ∀ next, next? = some next → next.type = .powerOn →
    ∃ before ev rest, events = before ++ ev :: rest ∧ now ∈ Set.Ico ev.from ev.until ∧
      (next.isPossible ↔ ∃ ev' ∈ ev :: touching ev.endAt rest, ev'.isPossible)

theorem find?_of_over {now : Int} {before rest : List ScheduleEvent} {ev : ScheduleEvent}
    (hlong : ∀ ev' ∈ before ++ ev :: rest, ev'.from < ev'.until)
    (hover : ∀ ev' ∈ before, ev'.until ≤ now) (hstarts : now < ev.from)
    : (before ++ ev :: rest).find? (now < ·.from) = some ev := by
  have hbefore : before.find? (now < ·.from) = none := by
    rw [List.find?_eq_none]
    intro ev' hev' hlater
    have hlong' := hlong ev' (List.mem_append_left _ hev')
    have hover' := hover ev' hev'
    rw [decide_eq_true_eq] at hlater
    omega
  rw [List.find?_append, hbefore, List.find?_cons_of_pos (by rwa [decide_eq_true_eq])]
  rfl

theorem notMem_coveredBy_of_starts {now : Int} {before rest : List ScheduleEvent}
    {ev : ScheduleEvent} (h : InNormalForm (before ++ ev :: rest))
    (hover : ∀ ev' ∈ before, ev'.until ≤ now) (hstarts : now < ev.from)
    : now ∉ coveredBy (before ++ ev :: rest) := by
  rw [mem_coveredBy_of_over hover le_rfl]
  exact (normalForm_of_append h).notMem_covered_of_lt hstarts

theorem nextEventIsRight_of_stop {now : Int} {events : List ScheduleEvent} {next? : Option NextEvent}
    (hnormal : InNormalForm events) (h : Stop now events next?)
    : NextEventIsRight events now next? := by
  cases h with
  | @goesOn before rest ev split passed covers =>
    subst split
    have hcovered : now ∈ coveredBy (before ++ ev :: rest) :=
      (mem_coveredBy_of_over passed le_rfl).mpr (mem_covered_cons.mpr (.inl covers))
    have hleast := isLeast_of_over passed
      (isLeast_followingEnd (normalForm_of_append hnormal) ev.isPossible covers)
    constructor
    case powerOn_iff => exact iff_of_true ⟨_, rfl, rfl⟩ hcovered
    case powerOn_time =>
      rintro _ ⟨⟩ _
      exact hleast
    case powerOff_iff =>
      refine iff_of_false ?_ fun hfree => hfree.1 hcovered
      rintro ⟨_, ⟨⟩, htype⟩
      cases htype
    case powerOff_time =>
      rintro _ ⟨⟩ htype
      cases htype
    case none_iff =>
      refine iff_of_false nofun fun hover => ?_
      have hev := hover ev (List.mem_append_right _ List.mem_cons_self)
      exact Int.not_le.mpr covers.2 hev
    case minutes =>
      rintro _ ⟨⟩
      exact minutesUntil_eq hleast.1.1.le
    case isPossible =>
      rintro _ ⟨⟩ _
      refine ⟨before, ev, rest, rfl, covers, ?_⟩
      rw [followingEnd_eq, ← List.any_cons, List.any_eq_true]
  | @ahead before rest ev split passed starts =>
    subst split
    have hfree := notMem_coveredBy_of_starts hnormal passed starts
    have hmem : ev ∈ before ++ ev :: rest := List.mem_append_right _ List.mem_cons_self
    constructor
    case powerOn_iff =>
      refine iff_of_false ?_ hfree
      rintro ⟨_, ⟨⟩, htype⟩
      cases htype
    case powerOn_time =>
      rintro _ ⟨⟩ htype
      cases htype
    case powerOff_iff => exact iff_of_true ⟨_, rfl, rfl⟩ ⟨hfree, ev, hmem, starts⟩
    case powerOff_time =>
      rintro _ ⟨⟩ _
      exact ⟨ev, find?_of_over hnormal.nonempty passed starts, rfl, rfl⟩
    case none_iff =>
      refine iff_of_false nofun fun hover => ?_
      have hlong := hnormal.nonempty ev hmem
      have hev := hover ev hmem
      omega
    case minutes =>
      rintro _ ⟨⟩
      exact minutesUntil_eq starts.le
    case isPossible =>
      rintro _ ⟨⟩ htype
      cases htype
  | allOver passed =>
    constructor
    case powerOn_iff =>
      exact iff_of_false (by rintro ⟨_, ⟨⟩, _⟩) (notMem_coveredBy_of_over passed le_rfl)
    case powerOff_iff =>
      refine iff_of_false (by rintro ⟨_, ⟨⟩, _⟩) ?_
      rintro ⟨_, ev, hev, hstarts⟩
      have hlong := hnormal.nonempty ev hev
      have hover := passed ev hev
      omega
    case none_iff => exact iff_of_true rfl passed
    all_goals
      rintro _ ⟨⟩

theorem findNextEvent_isRight {sched : Sched} (hdata : sched.hasData)
    (hnormal : InNormalForm sched.events) (now : Int)
    : NextEventIsRight sched.events now (findNextEvent sched now) := by
  unfold findNextEvent
  rw [if_pos hdata]
  exact nextEventIsRight_of_stop hnormal (stop_nextOf hnormal.nonempty)

def mondayOutages : Sched where
  hasData := true
  events := [
    ⟨⟨20465, 20, 7200⟩, ⟨20465, 22, 7200⟩, false⟩,
    ⟨⟨20465, 22, 7200⟩, ⟨20465, 24, 7200⟩, true⟩,
    ⟨⟨20465, 40, 7200⟩, ⟨20465, 42, 7200⟩, false⟩]
  queue := "1.1"
  dtekUpdatedAt := none

theorem findNextEvent_isRight_mondayOutages
    : mondayMaps [("11", .str "no"), ("12", .str "maybe"), ("21", .str "no")] = some mondayOutages ∧
        NextEventIsRight mondayOutages.events (mondayAt 630)
          (findNextEvent mondayOutages (mondayAt 630)) := by
  refine ⟨by decide +kernel, findNextEvent_isRight rfl ?_ (mondayAt 630)⟩
  refine normalForm_iff.mpr ⟨?_, ?_⟩
  . decide
  . decide

end Scheduler
