import VoltykBot.Reminders.ReminderText

/-!
This module contains the popup of the timer, and what it tells of the instants that the schedule covers. The events of
tomorrow, which it would list when no event is ahead, are never listed.
-/

namespace Scheduler

open Formatter Timeline

def formatTimeRemaining (minutes : Int) : String := hoursAndMinutes (minutes / 60) (minutes % 60)

section

variable (offsetAt : Int → Int)

def kyivDate (now : Int) : Date := (now / 1000000 + offsetAt (now / 1000000)) / 86400

def notPublishedLine : String := "ℹ️ Дані на завтра ще не опубліковані"

def tomorrowLine (ev : ScheduleEvent) : String := "• " ++ formatTime ev.start ++ "–" ++ formatTime ev.endAt

def tomorrowLines (now : Int) (scheduleData : Option Sched) : List String :=
  match scheduleData with
  | none => [notPublishedLine]
  | some sched =>
    if sched.events = [] then
      [notPublishedLine]
    else
      let tomorrowEvents := sched.events.filter (eventStartsOn offsetAt ((kyivDate offsetAt now + 1) * dayUs))
      if tomorrowEvents = [] then [notPublishedLine] else "📅 Завтра:" :: tomorrowEvents.map tomorrowLine

def timeOr (t : Option IsoTime) : String :=
  match t with
  | some t => formatTime t
  | none => "?"

def popupLines (now : Int) (nextEvent : Option NextEvent) (scheduleData : Option Sched) : List String :=
  match nextEvent with
  | none => ["🎉 Сьогодні без відключень!", ""] ++ tomorrowLines offsetAt now scheduleData
  | some next =>
    match next.type with
    | .powerOff =>
      ["За графіком зараз:", "🟢 Світло зараз є", "", "⏳ Вимкнення через " ++ formatTimeRemaining next.minutes,
        "📅 Очікуємо - " ++ formatTime next.time ++ "–" ++ timeOr next.endTime]
    | .powerOn =>
      ["За графіком зараз:", "🔴 Світла немає", "", "⏳ До увімкнення " ++ formatTimeRemaining next.minutes,
        "📅 Поточне - " ++ timeOr next.startTime ++ "–" ++ formatTime next.time]

def formatTimerPopup (now : Int) (nextEvent : Option NextEvent) (scheduleData : Option Sched) : String :=
  "\n".intercalate (popupLines offsetAt now nextEvent scheduleData)

/--
The clock of the zone is never set back to the day before.
-/
def DaysGoOn : Prop := ∀ t t', t ≤ t' → (t + offsetAt t) / 86400 ≤ (t' + offsetAt t') / 86400

end

section

variable {offsetAt : Int → Int} {sched : Sched} {now now' : Int} {ev : ScheduleEvent}

theorem not_eventStartsOn_tomorrow (hzone : DaysGoOn offsetAt) (hpast : ev.start.instant ≤ now)
    : eventStartsOn offsetAt ((kyivDate offsetAt now + 1) * dayUs) ev = false := by
  have hsec : (ev.start.half : Int) * 1800 + ev.start.date * 86400 - ev.start.offset ≤ now / 1000000 := by
    unfold IsoTime.instant at hpast
    omega
  have hday := hzone _ _ hsec
  unfold eventStartsOn
  rw [decide_eq_false_iff_not]
  rintro ⟨hle, -⟩
  unfold parseEventDt wallTime utcSecond kyivDate dayUs hourUs at hle
  change (_ : Int) ≤ _ at hle
  omega

theorem tomorrowLines_of_over (hzone : DaysGoOn offsetAt) (hnormal : InNormalForm sched.events)
    (hover : ∀ ev ∈ sched.events, ev.until ≤ now)
    : tomorrowLines offsetAt now (some sched) = [notPublishedLine] := by
  have hnone : sched.events.filter (eventStartsOn offsetAt ((kyivDate offsetAt now + 1) * dayUs)) = [] := by
    rw [List.filter_eq_nil_iff]
    intro ev hev
    rw [not_eventStartsOn_tomorrow hzone ((hnormal.nonempty ev hev).le.trans (hover ev hev))]
    exact Bool.false_ne_true
  unfold tomorrowLines
  dsimp only
  rw [hnone, if_pos rfl, ite_self]

def announcement (type : EventType) : String :=
  match type with
  | .powerOff => "📅 Очікуємо - "
  | .powerOn => "📅 Поточне - "

structure PopupShows (text : String) (next? : Option NextEvent) : Prop where
  light : markedLines '🟢' text ≠ [] ↔ ∃ next, next? = some next ∧ next.type = .powerOff
  dark : markedLines '🔴' text ≠ [] ↔ ∃ next, next? = some next ∧ next.type = .powerOn
  dayOver : markedLines '🎉' text ≠ [] ↔ next? = none
  notPublished : markedLines 'ℹ' text ≠ [] ↔ next? = none
  tomorrow : markedLines '•' text = []
  outage : ∀ next startDt endDt, next? = some next → Reminders.scheduleBlock next = some (startDt, endDt) →
    markedLines '📅' text = [(announcement next.type ++ formatTime startDt ++ "–" ++ formatTime endDt).toList]

theorem beginsWith_of_head {s : String} {c : Char} (hs : s.toList.head? = some c) (mark : Char)
    : beginsWith mark s = decide (c = mark) := by
  unfold beginsWith
  rw [hs, decide_eq_decide, Option.some_inj]

theorem beginsWith_empty (mark : Char) : beginsWith mark "" = false := rfl

theorem avoids_formatTimeRemaining (minutes : Int) : Avoids ['\n'] (formatTimeRemaining minutes) :=
  (avoids_hoursAndMinutes _ _).subset (by decide)

theorem avoids_formatTime_newline (t : IsoTime) : Avoids ['\n'] (formatTime t) :=
  (avoids_formatTime t).subset (by decide)

theorem popupShows_none : PopupShows ("\n".intercalate ["🎉 Сьогодні без відключень!", "", notPublishedLine]) none := by
  have hplain : ∀ line ∈ ["🎉 Сьогодні без відключень!", "", notPublishedLine], Avoids ['\n'] line := by
    simp only [List.forall_mem_cons]
    exact ⟨by decide, by decide, by decide, nofun⟩
  have hmarked := markedLines_intercalate (List.cons_ne_nil _ _) hplain
  have hover := beginsWith_of_head (s := "🎉 Сьогодні без відключень!") (c := '🎉') rfl
  have htomorrow := beginsWith_of_head (s := notPublishedLine) (c := 'ℹ') rfl
  constructor
  case outage => rintro next startDt endDt ⟨⟩
  all_goals
    simp only [hmarked]
    simp [hover, htomorrow, beginsWith_empty]

theorem markedLines_of_next {light remaining outage : String}
    (hplain : ∀ line ∈ [light, remaining, outage], Avoids ['\n'] line) {mark : Char} (hmark : 'З' ≠ mark)
    : markedLines mark ("\n".intercalate ["За графіком зараз:", light, "", remaining, outage]) =
        ([light, remaining, outage].filter (beginsWith mark)).map String.toList := by
  have hnow := beginsWith_of_head (s := "За графіком зараз:") (c := 'З') rfl mark
  rw [decide_eq_false hmark] at hnow
  rw [markedLines_intercalate (List.cons_ne_nil _ _)]
  . simp only [List.filter_cons, hnow, beginsWith_empty, Bool.false_eq_true, if_false]
  . simp only [List.forall_mem_cons] at hplain ⊢
    exact ⟨by decide, hplain.1, by decide, hplain.2⟩

def lightLine (type : EventType) : String :=
  match type with
  | .powerOff => "🟢 Світло зараз є"
  | .powerOn => "🔴 Світла немає"

def lightMark (type : EventType) : Char :=
  match type with
  | .powerOff => '🟢'
  | .powerOn => '🔴'

def remainingLine (type : EventType) (minutes : Int) : String :=
  match type with
  | .powerOff => "⏳ Вимкнення через " ++ formatTimeRemaining minutes
  | .powerOn => "⏳ До увімкнення " ++ formatTimeRemaining minutes

def outageLine (type : EventType) (startDt endDt : IsoTime) : String :=
  announcement type ++ formatTime startDt ++ "–" ++ formatTime endDt

theorem beginsWith_lightLine (type : EventType) (mark : Char)
    : beginsWith mark (lightLine type) = decide (lightMark type = mark) := by
  cases type with
  | powerOff => exact beginsWith_of_head rfl mark
  | powerOn => exact beginsWith_of_head rfl mark

theorem beginsWith_remainingLine (type : EventType) (minutes : Int) (mark : Char)
    : beginsWith mark (remainingLine type minutes) = decide ('⏳' = mark) := by
  cases type with
  | powerOff => exact beginsWith_append rfl _
  | powerOn => exact beginsWith_append rfl _

theorem beginsWith_outageLine (type : EventType) (startDt endDt : IsoTime) (mark : Char)
    : beginsWith mark (outageLine type startDt endDt) = decide ('📅' = mark) := by
  unfold outageLine
  simp only [String.append_assoc]
  cases type with
  | powerOff => exact beginsWith_append rfl _
  | powerOn => exact beginsWith_append rfl _

theorem avoids_lightLine (type : EventType) : Avoids ['\n'] (lightLine type) := by
  cases type <;> decide

theorem avoids_remainingLine (type : EventType) (minutes : Int) : Avoids ['\n'] (remainingLine type minutes) := by
  cases type <;> exact .append (by decide) (avoids_formatTimeRemaining _)

theorem avoids_outageLine (type : EventType) (startDt endDt : IsoTime)
    : Avoids ['\n'] (outageLine type startDt endDt) := by
  refine .append (.append (.append ?_ (avoids_formatTime_newline _)) (by decide)) (avoids_formatTime_newline _)
  cases type <;> decide

theorem popupLines_some {next : NextEvent} {startDt endDt : IsoTime}
    (hblock : Reminders.scheduleBlock next = some (startDt, endDt)) (scheduleData : Option Sched)
    : popupLines offsetAt now (some next) scheduleData =
        ["За графіком зараз:", lightLine next.type, "", remainingLine next.type next.minutes,
          outageLine next.type startDt endDt] := by
  unfold Reminders.scheduleBlock at hblock
  unfold popupLines
  dsimp only
  cases htype : next.type with
  | powerOff =>
    rw [htype] at hblock
    rcases Option.map_eq_some_iff.mp hblock with ⟨e, hend, heq⟩
    cases heq
    dsimp only
    rw [hend]
    rfl
  | powerOn =>
    rw [htype] at hblock
    rcases Option.map_eq_some_iff.mp hblock with ⟨e, hstart, heq⟩
    cases heq
    dsimp only
    rw [hstart]
    rfl

theorem popupShows_some {next : NextEvent} {startDt endDt : IsoTime}
    (hblock : Reminders.scheduleBlock next = some (startDt, endDt)) (scheduleData : Option Sched)
    : PopupShows (formatTimerPopup offsetAt now (some next) scheduleData) (some next) := by
  unfold formatTimerPopup
  rw [popupLines_some hblock]
  have hplain : ∀ line ∈ [lightLine next.type, remainingLine next.type next.minutes,
      outageLine next.type startDt endDt], Avoids ['\n'] line := by
    simp only [List.forall_mem_cons]
    exact ⟨avoids_lightLine _, avoids_remainingLine _ _, avoids_outageLine _ _ _, nofun⟩
  have hmarked {mark : Char} (hmark : 'З' ≠ mark) := markedLines_of_next hplain hmark
  simp only [List.filter_cons, beginsWith_lightLine, beginsWith_remainingLine, beginsWith_outageLine] at hmarked
  constructor
  case outage =>
    rintro _ startDt' endDt' ⟨⟩ hblock'
    rw [hblock] at hblock'
    cases hblock'
    rw [hmarked (by decide)]
    cases htype : next.type <;> simp [lightMark, outageLine]
  all_goals
    rw [hmarked (by decide)]
    cases htype : next.type <;> simp [lightMark, htype]

/--
The popup for the event that is next at `now`. The list of the events of tomorrow is never there.
-/
structure PopupIsRight (events : List ScheduleEvent) (now : Int) (next? : Option NextEvent) (text : String) : Prop where
  light : markedLines '🟢' text ≠ [] ↔ now ∉ coveredBy events ∧ ∃ ev ∈ events, now < ev.from
  dark : markedLines '🔴' text ≠ [] ↔ now ∈ coveredBy events
  dayOver : markedLines '🎉' text ≠ [] ↔ ∀ ev ∈ events, ev.until ≤ now
  notPublished : markedLines 'ℹ' text ≠ [] ↔ ∀ ev ∈ events, ev.until ≤ now
  tomorrow : markedLines '•' text = []
  outage : ∀ next, next? = some next → ∃ startDt endDt nextOutage,
    markedLines '📅' text = [(announcement next.type ++ formatTime startDt ++ "–" ++ formatTime endDt).toList] ∧
      AnnouncedRight events now next startDt endDt nextOutage

theorem findNextEvent_eq_nextOf (hdata : sched.hasData = !sched.events.isEmpty) (now : Int)
    : findNextEvent sched now = nextOf now sched.events := by
  unfold findNextEvent
  split
  . rfl
  . next hnone =>
    rw [hdata, Bool.not_eq_true', Bool.not_eq_false, List.isEmpty_iff] at hnone
    rw [hnone]
    rfl

/--
`format_timer_popup` reads the clock after `find_next_event` has.
-/
theorem popup_isRight (hzone : DaysGoOn offsetAt) (hdata : sched.hasData = !sched.events.isEmpty)
    (hnormal : InNormalForm sched.events) (hle : now ≤ now')
    : PopupIsRight sched.events now (findNextEvent sched now)
        (formatTimerPopup offsetAt now' (findNextEvent sched now) (some sched)) := by
  have hright : NextEventIsRight sched.events now (findNextEvent sched now) := by
    rw [findNextEvent_eq_nextOf hdata]
    exact nextEventIsRight_of_stop hnormal (stop_nextOf hnormal.nonempty)
  cases hnext : findNextEvent sched now with
  | none =>
    have hover := hright.none_iff.mp hnext
    have hshows : PopupShows (formatTimerPopup offsetAt now' none (some sched)) none := by
      unfold formatTimerPopup popupLines
      dsimp only
      rw [tomorrowLines_of_over hzone hnormal fun ev hev => (hover ev hev).trans hle]
      exact popupShows_none
    rw [hnext] at hright
    exact ⟨hshows.light.trans hright.powerOff_iff, hshows.dark.trans hright.powerOn_iff,
      hshows.dayOver.trans hright.none_iff, hshows.notPublished.trans hright.none_iff, hshows.tomorrow, nofun⟩
  | some next =>
    rcases announcedRight_findNextEvent hnormal hnext with ⟨startDt, endDt, hannounced⟩
    have hblock := hannounced.block
    have hshows : PopupShows (formatTimerPopup offsetAt now' (some next) (some sched)) (some next) :=
      popupShows_some hblock (some sched)
    rw [hnext] at hright
    refine ⟨hshows.light.trans hright.powerOff_iff, hshows.dark.trans hright.powerOn_iff,
      hshows.dayOver.trans hright.none_iff, hshows.notPublished.trans hright.none_iff, hshows.tomorrow, ?_⟩
    rintro _ ⟨⟩
    exact ⟨startDt, endDt, _, hshows.outage next startDt endDt rfl hblock, hannounced⟩

theorem popup_isRight_mondayOutages
    : PopupIsRight mondayOutages.events (mondayAt 1300) (findNextEvent mondayOutages (mondayAt 1300))
          (formatTimerPopup (fun _ => 7200) (mondayAt 1301) (findNextEvent mondayOutages (mondayAt 1300))
            (some mondayOutages)) ∧
        PopupIsRight mondayOutages.events (mondayAt 500) (findNextEvent mondayOutages (mondayAt 500))
          (formatTimerPopup (fun _ => 7200) (mondayAt 500) (findNextEvent mondayOutages (mondayAt 500))
            (some mondayOutages)) := by
  have hzone : DaysGoOn fun _ => 7200 := by
    intro t t' hle
    dsimp only
    omega
  have hnormal : InNormalForm mondayOutages.events := normalForm_iff.mpr ⟨by decide, by decide⟩
  exact ⟨popup_isRight hzone rfl hnormal (by decide), popup_isRight hzone rfl hnormal (Int.le_refl _)⟩

end

end Scheduler
