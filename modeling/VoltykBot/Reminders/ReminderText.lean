import VoltykBot.Reminders.Covered
import VoltykBot.Reminders.Due
import VoltykBot.Schedule.Message

/-!
This module contains the text of a reminder, and what it tells of the instants that the schedule covers.
-/

namespace Scheduler

def findNextOutageAfter (sched : Sched) (afterDt : Int) : Option ScheduleEvent :=
  sched.events.find? fun ev => afterDt ≤ ev.start.instant ∧ ¬ ev.isPossible

namespace Reminders

open Formatter

def Remind.label (m : Remind) : String :=
  match m with
  | .h1 => "1 годину"
  | .m30 => "30 хвилин"
  | .m15 => "15 хвилин"

def regionNames : List (String × String) :=
  [("kyiv", "Київ"), ("kyiv-region", "Київщина"), ("dnipro", "Дніпропетровщина"), ("odesa", "Одещина")]

def regionName (region : String) : String := (regionNames.lookup region).getD region

def header (type : EventType) (m : Remind) : String :=
  match type with
  | .powerOff => "⚠️ <b>Відключення через " ++ m.label ++ "</b>"
  | .powerOn => "⚡️ <b>Увімкнення через " ++ m.label ++ "</b>"

def regionLine (region queue : String) : String := "🌍 " ++ regionName region ++ " · Черга " ++ queue

/--
`start_dt` and `end_dt`; without one of them there is no line of the schedule.
-/
def scheduleBlock (next : NextEvent) : Option (IsoTime × IsoTime) :=
  match next.type with
  | .powerOff => next.endTime.map fun endDt => (next.time, endDt)
  | .powerOn => next.startTime.map fun startDt => (startDt, next.time)

def durStr (startDt endDt : IsoTime) : String :=
  -- `int` rounds towards zero
  let totalMin := (endDt.instant - startDt.instant).tdiv minuteUs
  if totalMin % 60 ≠ 0 then
    toString (totalMin / 60) ++ " год " ++ toString (totalMin % 60) ++ " хв"
  else
    toString (totalMin / 60) ++ " год"

def scheduleLine (startDt endDt : IsoTime) : String :=
  "📋 " ++ formatTime startDt ++ " – " ++ formatTime endDt ++ " (" ++ durStr startDt endDt ++ ")"

def returnLine (endDt : IsoTime) : String := "💡 Увімкнення о " ++ formatTime endDt

def nextOutageLine (nextOutage : ScheduleEvent) : String :=
  "⚠️ Наступне відключення о " ++ formatTime nextOutage.start

def noMoreLine : String := "🌙 Більше відключень сьогодні немає"

def possibleLine : String := "⚠️ Можливе відключення"

def contextLine (type : EventType) (sched : Sched) (endDt : IsoTime) : String :=
  match type, findNextOutageAfter sched endDt.instant with
  | .powerOff, some nextOutage => returnLine endDt ++ "\n" ++ nextOutageLine nextOutage
  | .powerOff, none => returnLine endDt
  | .powerOn, some nextOutage => nextOutageLine nextOutage
  | .powerOn, none => noMoreLine

def buildReminderText (next : NextEvent) (m : Remind) (sched : Sched) (region queue : String) (isPossible : Bool)
    : String :=
  let schedule := ((scheduleBlock next).map fun block => scheduleLine block.1 block.2).getD ""
  let context := ((scheduleBlock next).map fun block => contextLine next.type sched block.2).getD ""
  let context :=
    if isPossible then possibleLine ++ (if context = "" then "" else "\n" ++ context) else context
  "\n".intercalate ([header next.type m, regionLine region queue] ++ (if schedule = "" then [] else [schedule]) ++
    (if context = "" then [] else [context]))

def outageLines (type : EventType) (nextOutage : Option ScheduleEvent) : List String :=
  match type, nextOutage with
  | _, some nextOutage => [nextOutageLine nextOutage]
  | .powerOff, none => []
  | .powerOn, none => [noMoreLine]

def returnLines (type : EventType) (endDt : IsoTime) : List String :=
  match type with
  | .powerOff => [returnLine endDt]
  | .powerOn => []

def reminderLines (type : EventType) (m : Remind) (region queue : String) (isPossible : Bool)
    (startDt endDt : IsoTime) (nextOutage : Option ScheduleEvent) : List String :=
  [header type m, regionLine region queue, scheduleLine startDt endDt] ++ (if isPossible then [possibleLine] else []) ++
    returnLines type endDt ++ outageLines type nextOutage

theorem contextLine_eq (type : EventType) (sched : Sched) (endDt : IsoTime)
    : contextLine type sched endDt = "\n".intercalate
        (returnLines type endDt ++ outageLines type (findNextOutageAfter sched endDt.instant)) := by
  unfold contextLine
  cases type with
  | powerOff =>
    cases findNextOutageAfter sched endDt.instant with
    | some nextOutage => rfl
    | none => rfl
  | powerOn =>
    cases findNextOutageAfter sched endDt.instant with
    | some nextOutage => rfl
    | none => rfl

theorem append_ne_empty {s : String} (h : s ≠ "") (t : String) : s ++ t ≠ "" := by
  intro hempty
  exact h (String.append_eq_empty_iff.mp hempty).1

theorem contextLine_ne_empty (type : EventType) (sched : Sched) (endDt : IsoTime)
    : contextLine type sched endDt ≠ "" := by
  have hreturn : returnLine endDt ≠ "" := append_ne_empty (by decide) _
  unfold contextLine
  cases type with
  | powerOff =>
    cases findNextOutageAfter sched endDt.instant with
    | some nextOutage => exact append_ne_empty (append_ne_empty hreturn _) _
    | none => exact hreturn
  | powerOn =>
    cases findNextOutageAfter sched endDt.instant with
    | some nextOutage => exact append_ne_empty (by decide) _
    | none => exact (by decide : noMoreLine ≠ "")

theorem contextLines_ne_nil (type : EventType) (nextOutage : Option ScheduleEvent) (endDt : IsoTime)
    : returnLines type endDt ++ outageLines type nextOutage ≠ [] := by
  cases type with
  | powerOff => exact List.cons_ne_nil _ _
  | powerOn =>
    cases nextOutage with
    | some nextOutage => exact List.cons_ne_nil _ _
    | none => exact List.cons_ne_nil _ _

theorem intercalate_concat_intercalate {s : String} {front lines : List String} (hfront : front ≠ [])
    (hlines : lines ≠ []) : s.intercalate (front ++ [s.intercalate lines]) = s.intercalate (front ++ lines) := by
  rw [String.intercalate_append_of_ne_nil hfront (List.cons_ne_nil _ _), String.intercalate_singleton,
    String.intercalate_append_of_ne_nil hfront hlines]

theorem buildReminderText_eq {next : NextEvent} {startDt endDt : IsoTime}
    (hblock : scheduleBlock next = some (startDt, endDt)) (m : Remind) (sched : Sched) (region queue : String)
    (isPossible : Bool)
    : buildReminderText next m sched region queue isPossible =
        "\n".intercalate (reminderLines next.type m region queue isPossible startDt endDt
          (findNextOutageAfter sched endDt.instant)) := by
  have hschedule : scheduleLine startDt endDt ≠ "" := by
    unfold scheduleLine
    simp only [String.append_assoc]
    exact append_ne_empty (by decide) _
  have hcontext := contextLine_ne_empty next.type sched endDt
  have hlines := contextLines_ne_nil next.type (findNextOutageAfter sched endDt.instant) endDt
  unfold buildReminderText reminderLines
  rw [hblock]
  dsimp only [Option.map_some, Option.getD_some]
  rw [if_neg hschedule, if_neg hcontext, List.append_assoc _ (returnLines _ _)]
  cases isPossible with
  | true =>
    have hpossible : possibleLine ++ ("\n" ++ contextLine next.type sched endDt) ≠ "" :=
      append_ne_empty (by decide) _
    rw [if_pos rfl, if_pos rfl, if_neg hpossible, contextLine_eq, ← String.append_assoc,
      ← String.intercalate_cons_of_ne_nil hlines,
      intercalate_concat_intercalate (by exact List.cons_ne_nil _ _) (List.cons_ne_nil _ _)]
    rfl
  | false =>
    rw [if_neg Bool.false_ne_true, if_neg Bool.false_ne_true, if_neg hcontext, contextLine_eq,
      intercalate_concat_intercalate (by exact List.cons_ne_nil _ _) hlines]
    rfl

end Reminders

open Timeline

section

variable {events : List ScheduleEvent} {ev ev' : ScheduleEvent} {now : Int}

def planned (events : List ScheduleEvent) : List ScheduleEvent := events.filter fun ev => !ev.isPossible

theorem until_le_of_from_lt (h : InNormalForm events) (hev : ev ∈ events) (hev' : ev' ∈ events)
    (hlt : ev'.from < ev.until) : ev'.until ≤ ev.until := by
  rcases List.append_of_mem hev with ⟨before, rest, rfl⟩
  have hpairs := (normalForm_iff.mp h).2
  rcases List.mem_append.mp hev' with hbefore | hrest
  . have hle : ev'.until ≤ ev.from := (List.pairwise_append.mp hpairs).2.2 ev' hbefore ev List.mem_cons_self
    exact hle.trans (h.nonempty ev hev).le
  . rcases List.mem_cons.mp hrest with rfl | hrest
    . exact le_rfl
    . have hle : ev.until ≤ ev'.from := (normalForm_of_append h).finish_le hrest
      exact absurd hlt (not_lt.mpr hle)

theorem end_notMem_coveredBy_iff (h : InNormalForm events) (hev : ev ∈ events)
    : ev.until ∉ coveredBy events ↔ ∀ ev' ∈ events, ev'.from ≠ ev.until := by
  constructor
  . intro hfree ev' hev' heq
    have hcovers : ev.until ∈ Set.Ico ev'.from ev'.until := by
      rw [← heq]
      exact ⟨le_rfl, h.nonempty ev' hev'⟩
    exact hfree ⟨ev', hev', hcovers⟩
  . rintro hgap ⟨ev', hev', hle, hlt⟩
    exact absurd (until_le_of_from_lt h hev hev' (lt_of_le_of_ne hle (hgap ev' hev'))) (not_le.mpr hlt)

theorem isLeast_end_iff (h : InNormalForm events) (hev : ev ∈ events)
    : IsLeast {t | ev.from ≤ t ∧ t ∉ coveredBy events} ev.until ↔ ∀ ev' ∈ events, ev'.from ≠ ev.until := by
  rw [← end_notMem_coveredBy_iff h hev]
  constructor
  . exact fun hleast => hleast.1.2
  . intro hfree
    refine ⟨⟨(h.nonempty ev hev).le, hfree⟩, ?_⟩
    rintro t ⟨hle, hnot⟩
    by_contra hlt
    exact hnot ⟨ev, hev, hle, not_le.mp hlt⟩

def IsNextPlanned (events : List ScheduleEvent) (afterDt : Int) (nextOutage : Option ScheduleEvent) : Prop :=
  match nextOutage with
  | some ev => ev ∈ events ∧ IsLeast {t | afterDt ≤ t ∧ t ∈ coveredBy (planned events)} ev.from
  | none => ∀ t, afterDt ≤ t → t ∉ coveredBy (planned events)

theorem mem_planned : ev ∈ planned events ↔ ev ∈ events ∧ ev.isPossible = false := by
  unfold planned
  rw [List.mem_filter, Bool.not_eq_true']

theorem isNextPlanned_findNextOutageAfter {sched : Sched} (h : InNormalForm sched.events) (hev : ev ∈ sched.events)
    : IsNextPlanned sched.events ev.until (findNextOutageAfter sched ev.until) := by
  have hlater {ev' : ScheduleEvent} {t : Int} (hev' : ev' ∈ sched.events) (ht : ev.until ≤ t)
      (hcovers : t ∈ Set.Ico ev'.from ev'.until) : ev.until ≤ ev'.from := by
    by_contra hlt
    exact absurd ((until_le_of_from_lt h hev hev' (not_le.mp hlt)).trans ht) (not_le.mpr hcovers.2)
  unfold findNextOutageAfter IsNextPlanned
  cases hfind : sched.events.find? fun ev' => ev.until ≤ ev'.start.instant ∧ ¬ ev'.isPossible with
  | none =>
    rintro t ht ⟨ev', hev', hcovers⟩
    rw [mem_planned] at hev'
    apply List.find?_eq_none.mp hfind ev' hev'.1
    rw [decide_eq_true_eq, hev'.2]
    exact ⟨hlater hev'.1 ht hcovers, Bool.false_ne_true⟩
  | some found =>
    rcases List.find?_eq_some_iff_append.mp hfind with ⟨hfound, before, rest, heq, hbefore⟩
    rw [decide_eq_true_eq, Bool.not_eq_true] at hfound
    have hmem : found ∈ sched.events := heq ▸ List.mem_append_right _ List.mem_cons_self
    refine ⟨hmem, ⟨hfound.1, found, mem_planned.mpr ⟨hmem, hfound.2⟩, le_rfl, h.nonempty found hmem⟩, ?_⟩
    rintro t ⟨ht, ev', hev', hcovers⟩
    rw [mem_planned] at hev'
    have hmem' : ev' ∈ before ++ found :: rest := heq ▸ hev'.1
    rcases List.mem_append.mp hmem' with hbefore' | hrest
    . have hpassed := hbefore ev' hbefore'
      simp [hev'.2] at hpassed
      exact absurd (hlater hev'.1 ht hcovers) (not_le.mpr hpassed)
    . rcases List.mem_cons.mp hrest with rfl | hrest
      . exact hcovers.1
      . have hle : found.until ≤ ev'.from := (normalForm_of_append (heq ▸ h)).finish_le hrest
        exact ((h.nonempty found hmem).le.trans hle).trans hcovers.1

theorem exists_followingEnd (isPossible : Bool) (ev : ScheduleEvent) (rest : List ScheduleEvent)
    : ∃ last ∈ ev :: rest, last.endAt = (followingEnd ev.endAt isPossible rest).1 := by
  induction rest generalizing ev isPossible with
  | nil => exact ⟨ev, List.mem_singleton_self ev, rfl⟩
  | cons ev' rest ih =>
    unfold followingEnd
    split
    . rcases ih (isPossible || ev'.isPossible) ev' with ⟨last, hlast, heq⟩
      exact ⟨last, List.mem_cons_of_mem ev hlast, heq⟩
    . exact ⟨ev, List.mem_cons_self, rfl⟩

/--
What a reminder announces: the outage from `startDt` to `endDt`, which is the next one or goes on, and the planned one
behind it.
-/
structure AnnouncedRight (events : List ScheduleEvent) (now : Int) (next : NextEvent) (startDt endDt : IsoTime)
    (nextOutage : Option ScheduleEvent) : Prop where
  block : Reminders.scheduleBlock next = some (startDt, endDt)
  event : ∃ ev ∈ events, ev.start = startDt ∧ (next.type = .powerOff → ev.endAt = endDt) ∧
    (next.type = .powerOn → now ∈ Set.Ico ev.from ev.until)
  goesOff : next.type = .powerOff → now < startDt.instant ∧ IsLeast {t | now ≤ t ∧ t ∈ coveredBy events} startDt.instant
  comesOn : next.type = .powerOn → now < endDt.instant ∧
    IsLeast {t | startDt.instant ≤ t ∧ t ∉ coveredBy events} endDt.instant
  comesOn_iff : IsLeast {t | startDt.instant ≤ t ∧ t ∉ coveredBy events} endDt.instant ↔
    ∀ ev ∈ events, ev.from ≠ endDt.instant
  nextPlanned : IsNextPlanned events endDt.instant nextOutage

theorem isLeast_coveredBy_of_starts {before rest : List ScheduleEvent} (h : InNormalForm (before ++ ev :: rest))
    (hover : ∀ ev' ∈ before, ev'.until ≤ now) (hstarts : now < ev.from)
    : IsLeast {t | now ≤ t ∧ t ∈ coveredBy (before ++ ev :: rest)} ev.from := by
  have hev : ev ∈ before ++ ev :: rest := List.mem_append_right _ List.mem_cons_self
  refine ⟨⟨hstarts.le, ev, hev, le_rfl, h.nonempty ev hev⟩, ?_⟩
  rintro t ⟨ht, hcovered⟩
  by_contra hlt
  rw [mem_coveredBy_of_over hover ht] at hcovered
  exact (normalForm_of_append h).notMem_covered_of_lt (not_le.mp hlt) hcovered

theorem isLeast_of_goesOn {before rest : List ScheduleEvent} (h : InNormalForm (before ++ ev :: rest))
    (hover : ∀ ev' ∈ before, ev'.until ≤ now) (hcovers : now ∈ Set.Ico ev.from ev.until)
    : IsLeast {t | ev.from ≤ t ∧ t ∉ coveredBy (before ++ ev :: rest)}
        (followingEnd ev.endAt ev.isPossible rest).1.instant := by
  have hleast := isLeast_of_over hover (isLeast_followingEnd (normalForm_of_append h) ev.isPossible hcovers)
  refine ⟨⟨hcovers.1.trans hleast.1.1.le, hleast.1.2⟩, ?_⟩
  rintro t ⟨hle, hfree⟩
  apply hleast.2 ⟨_, hfree⟩
  -- up to `now` the outage goes on
  by_contra hlt
  exact hfree ⟨ev, List.mem_append_right _ List.mem_cons_self, hle, (not_lt.mp hlt).trans_lt hcovers.2⟩

theorem announcedRight_findNextEvent {sched : Sched} (hnormal : InNormalForm sched.events) {next : NextEvent}
    (hnext : findNextEvent sched now = some next)
    : ∃ startDt endDt,
        AnnouncedRight sched.events now next startDt endDt (findNextOutageAfter sched endDt.instant) := by
  unfold findNextEvent at hnext
  split at hnext
  . have hstop : Stop now sched.events _ := stop_nextOf hnormal.nonempty
    rw [hnext] at hstop
    cases hstop with
    | @goesOn before rest ev split passed covers =>
      have hleast := isLeast_of_goesOn (split ▸ hnormal) passed covers
      have hahead := isLeast_of_over passed
        (isLeast_followingEnd (normalForm_of_append (split ▸ hnormal)) ev.isPossible covers)
      rw [← split] at hleast
      rcases exists_followingEnd ev.isPossible ev rest with ⟨last, hlast, heq⟩
      have hev : ev ∈ sched.events := split ▸ List.mem_append_right _ List.mem_cons_self
      have hmem : last ∈ sched.events := split ▸ List.mem_append_right _ hlast
      refine ⟨ev.start, (followingEnd ev.endAt ev.isPossible rest).1, rfl, ?_, nofun, ?_, ?_, ?_⟩
      . exact ⟨ev, hev, rfl, nofun, fun _ => covers⟩
      . exact fun _ => ⟨hahead.1.1, hleast⟩
      . refine iff_of_true hleast ?_
        rw [← heq] at hleast ⊢
        exact (end_notMem_coveredBy_iff hnormal hmem).mp hleast.1.2
      . rw [← heq]
        exact isNextPlanned_findNextOutageAfter hnormal hmem
    | @ahead before rest ev split passed starts =>
      have hmem : ev ∈ sched.events := split ▸ List.mem_append_right _ List.mem_cons_self
      have hleast := isLeast_coveredBy_of_starts (split ▸ hnormal) passed starts
      rw [← split] at hleast
      exact ⟨ev.start, ev.endAt, rfl, ⟨ev, hmem, rfl, fun _ => rfl, nofun⟩, fun _ => ⟨starts, hleast⟩, nofun,
        isLeast_end_iff hnormal hmem, isNextPlanned_findNextOutageAfter hnormal hmem⟩
  . cases hnext

end

namespace Reminders

/--
A reminder shows the outage that goes on or comes next, the next planned one behind it, and that there is none only if
that is so. When the power comes on is right if and only if no other outage starts there.
-/
theorem reminder_isRight {sched : Sched} {now : Int} {next : NextEvent} (hnormal : InNormalForm sched.events)
    (hnext : findNextEvent sched now = some next) (m : Remind) (region queue : String)
    : ∃ startDt endDt nextOutage,
        buildReminderText next m sched region queue next.isPossible =
          "\n".intercalate (reminderLines next.type m region queue next.isPossible startDt endDt nextOutage) ∧
        AnnouncedRight sched.events now next startDt endDt nextOutage := by
  rcases announcedRight_findNextEvent hnormal hnext with ⟨startDt, endDt, hright⟩
  exact ⟨startDt, endDt, _, buildReminderText_eq hright.block m sched region queue next.isPossible, hright⟩

theorem reminder_isRight_mondayOutages
    : ∃ next, findNextEvent mondayOutages (mondayAt 570) = some next ∧
        ∃ startDt endDt nextOutage,
          buildReminderText next .m30 mondayOutages "kyiv" "1.1" next.isPossible =
            "\n".intercalate (reminderLines next.type .m30 "kyiv" "1.1" next.isPossible startDt endDt nextOutage) ∧
          AnnouncedRight mondayOutages.events (mondayAt 570) next startDt endDt nextOutage := by
  have hnext : (findNextEvent mondayOutages (mondayAt 570)).isSome := by decide
  refine ⟨_, (Option.some_get hnext).symm, ?_⟩
  refine reminder_isRight (Timeline.normalForm_iff.mpr ⟨?_, ?_⟩) (Option.some_get hnext).symm .m30 "kyiv" "1.1"
  . decide
  . decide

end Reminders

end Scheduler
