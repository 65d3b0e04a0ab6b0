import VoltykBot.Lib.Civil
import VoltykBot.Schedule.Classify
import VoltykBot.Schedule.ParsedForm

/-!
This module contains the text of a schedule message and what it shows of the events and the changes of a
blast.
-/

namespace Scheduler

namespace Formatter

def dayNames : List String :=
  ["Понеділок", "Вівторок", "Середа", "Четвер", "П'ятниця", "Субота", "Неділя"]

def dayName (date : Date) : String :=
  -- day 0 was a Thursday
  dayNames.getD ((date + 3) % 7).toNat ""

def formatDate (date : Date) : String :=
  -- in the calendar day 0 is the first of January of 1970
  (Civil.ofDays (date + 719162)).dayMonthYear

def formatTime (t : IsoTime) : String :=
  Civil.twoDigits (t.half / 2) ++ ":" ++ Civil.twoDigits (t.half % 2 * 30)

def hoursAndMinutes (hours minutes : Int) : String :=
  if 0 < hours then
    if 0 < minutes then
      toString hours ++ " год " ++ toString minutes ++ " хв"
    else
      toString hours ++ " год"
  else
    toString minutes ++ " хв"

def formatDuration (seconds : Int) : String :=
  -- `int` rounds towards zero
  let totalMinutes := seconds.tdiv 60
  hoursAndMinutes (totalMinutes / 60) (totalMinutes % 60)

def totalStr (seconds : Int) : String :=
  let restSeconds := seconds % 3600
  -- `round` takes the even one of two minutes that are equally near
  let minutes :=
    if restSeconds % 60 < 30 ∨ (restSeconds % 60 = 30 ∧ restSeconds / 60 % 2 = 0) then
      restSeconds / 60
    else
      restSeconds / 60 + 1
  hoursAndMinutes (seconds.tdiv 60 / 60) minutes

def nothingPlanned : String :=
  "<tg-emoji emoji-id=\"5870509845911702494\">✅</tg-emoji> Відключень не заплановано"

def dayHeader (title day : String) (date : Date) (tail : String) : String :=
  "<i>" ++ title ++ " <b>" ++ day ++ ", " ++ formatDate date ++ " (" ++ dayName date ++ "),</b> " ++
    tail ++ ":</i>"

section

variable (offsetAt : Int → Int)

/--
`parse_event_dt` of an `isoformat` text, of a time that the calendar has in UTC and in the zone
-/
def parseEventDt (t : IsoTime) : WallTime := wallTime offsetAt t

def eventStartsOn (dayStart : WallTime) (ev : ScheduleEvent) : Bool :=
  dayStart ≤ parseEventDt offsetAt ev.start ∧ parseEventDt offsetAt ev.start < dayStart + dayUs

def durationSeconds (ev : ScheduleEvent) : Int :=
  (parseEventDt offsetAt ev.endAt - parseEventDt offsetAt ev.start) / 1000000

def span (ev : ScheduleEvent) : String :=
  formatTime ev.start ++ " - " ++ formatTime ev.endAt ++ " (~" ++
    formatDuration (durationSeconds offsetAt ev) ++ ")"

def eventLine (newEventKeys : List (IsoTime × IsoTime)) (ev : ScheduleEvent) : String :=
  "🪫 <b>" ++ span offsetAt ev ++ "</b>" ++ (if ev.isPossible then " ⚠️" else "") ++
    (if newEventKeys.contains ev.key then " 🆕" else "")

def cancelledLine (ev : ScheduleEvent) : String :=
  "❌ <s>" ++ span offsetAt ev ++ "</s> <i>скасовано</i>"

def totalLine (events : List ScheduleEvent) : String :=
  "Загалом без світла:<b> ~" ++ totalStr (events.map (durationSeconds offsetAt)).sum ++ "</b>"

def dayLines (newEventKeys : List (IsoTime × IsoTime)) (events removed : List ScheduleEvent)
    : List String :=
  events.map (eventLine offsetAt newEventKeys) ++ removed.map (cancelledLine offsetAt) ++
    [if events.isEmpty then nothingPlanned else totalLine offsetAt events]

def forQueue (queue : String) : String := "для черги " ++ queue

def tomorrowHeader (updateType : UpdateType) (tomorrow : Date) (queue : String) : String :=
  let title :=
    if updateType.tomorrowAppeared then "💡 Зʼявився графік відключень"
    else if updateType.tomorrowUpdated then "💡 Оновлено графік відключень"
    else if updateType.tomorrowCancelled then "💡 Скасовано всі відключення"
    else "💡 Графік відключень"
  dayHeader title "на завтра" tomorrow (forQueue queue)

def plainHeader (isDailyPlanned : Bool) (today : Date) (queue : String) : String :=
  let baseEmoji := if isDailyPlanned then "📅" else "💡"
  dayHeader (baseEmoji ++ " Графік відключень") "на сьогодні" today (forQueue queue)

def todayHeader (updateType : UpdateType) (tomorrowSectionShown isDailyPlanned : Bool) (today : Date)
    (queue : String) : String :=
  if updateType.todayUnchanged && tomorrowSectionShown then
    dayHeader "💡 Графік відключень" "на сьогодні" today "без змін"
  else if updateType.todayUpdated && (updateType.tomorrowAppeared || updateType.tomorrowUpdated ||
      updateType.tomorrowCancelled) then
    "<i>💡 Оновлено графік <b>на сьогодні:</b></i>"
  else if updateType.todayUpdated then
    dayHeader "💡 Оновлено графік відключень" "на сьогодні" today (forQueue queue)
  else
    plainHeader isDailyPlanned today queue

def tomorrowSection (updateType : UpdateType) (tomorrow : Date) (queue : String)
    (newEventKeys : List (IsoTime × IsoTime)) (events removed : List ScheduleEvent) : List String :=
  if events.isEmpty && removed.isEmpty then
    []
  else
    tomorrowHeader updateType tomorrow queue :: "" :: dayLines offsetAt newEventKeys events removed ++
      [""]

def todaySection (updateType : UpdateType) (tomorrowSectionShown isDailyPlanned : Bool) (today : Date)
    (queue : String) (newEventKeys : List (IsoTime × IsoTime)) (events removed : List ScheduleEvent)
    : List String :=
  if events.isEmpty && removed.isEmpty then
    [plainHeader isDailyPlanned today queue, "", nothingPlanned]
  else
    todayHeader updateType tomorrowSectionShown isDailyPlanned today queue :: "" ::
      dayLines offsetAt newEventKeys events removed

/--
The `lines` of `format_schedule_message` on the day `today`. The start of a removed event is compared by
the first ten characters of its text.
-/
def scheduleLines (today : Date) (queue : String) (sched : Sched) (changes : Changes)
    (updateType : UpdateType) (isDailyPlanned : Bool) : List String :=
  if !sched.hasData then
    [plainHeader isDailyPlanned today queue, "", nothingPlanned]
  else
    let newEventKeys := changes.added.map (·.key)
    let todayEvents := sched.events.filter (eventStartsOn offsetAt (today * dayUs))
    let tomorrowEvents := sched.events.filter (eventStartsOn offsetAt ((today + 1) * dayUs))
    let removedTomorrow := filterEventsForDate changes.removed (today + 1)
    let removedToday := filterEventsForDate changes.removed today
    let tomorrowSectionShown := !(tomorrowEvents.isEmpty && removedTomorrow.isEmpty)
    tomorrowSection offsetAt updateType (today + 1) queue newEventKeys tomorrowEvents removedTomorrow ++
      todaySection offsetAt updateType tomorrowSectionShown isDailyPlanned today queue newEventKeys
        todayEvents removedToday

/--
`format_schedule_message`, where missing `changes` or `update_type` are as empty ones.
-/
def formatScheduleMessage (today : Date) (region queue : String) (sched : Sched)
    (changes : Option Changes) (updateType : Option UpdateType) (isDailyPlanned : Bool) : String :=
  if region = "" ∨ queue = "" then
    "⚠️ Помилка: відсутні дані про регіон або чергу"
  else
    "\n".intercalate (scheduleLines offsetAt today queue sched (changes.getD {}) (updateType.getD {})
      isDailyPlanned)

def notificationText (today : Date) (region queue : String) (blast : Blast) : String :=
  let changes :=
    if blast.changes.added.isEmpty && blast.changes.removed.isEmpty then none else some blast.changes
  let updateType := if blast.updateType.isEmpty then none else some blast.updateType
  formatScheduleMessage offsetAt today region queue blast.sched changes updateType blast.isDailyPlanned

end

def markedLines (mark : Char) (text : String) : List (List Char) :=
  (text.toList.splitOn '\n').filter (·.head? = some mark)

def Avoids (bad : List Char) (s : String) : Prop := ∀ c ∈ bad, c ∉ s.toList

instance (bad : List Char) (s : String) : Decidable (Avoids bad s) :=
  List.decidableBAll (· ∉ s.toList) bad

theorem Avoids.append {bad : List Char} {s t : String} (hs : Avoids bad s) (ht : Avoids bad t)
    : Avoids bad (s ++ t) := by
  intro c hc
  rw [String.toList_append, List.mem_append, not_or]
  exact ⟨hs c hc, ht c hc⟩

theorem Avoids.subset {bad bad' : List Char} {s : String} (h : Avoids bad s) (hsub : bad' ⊆ bad)
    : Avoids bad' s :=
  fun c hc => h c (hsub hc)

theorem Avoids.ite {bad : List Char} {s t : String} {p : Prop} [Decidable p] (hs : Avoids bad s)
    (ht : Avoids bad t) : Avoids bad (if p then s else t) := by
  split
  . exact hs
  . exact ht

def signs : List Char := ['\n', '🆕', '⚠']

theorem avoids_repr (n : Nat) : Avoids signs n.repr := by
  intro c hc hmem
  unfold Nat.repr at hmem
  rw [String.toList_ofList] at hmem
  have hdigit := Nat.isDigit_of_mem_toDigits (by decide) (by decide) hmem
  have hsigns : signs.all (!·.isDigit) = true := by decide
  have hnot := List.all_eq_true.mp hsigns c hc
  rw [hdigit] at hnot
  cases hnot

theorem avoids_toString (n : Int) : Avoids signs (toString n) := by
  rw [Int.toString_eq_repr, Int.repr_eq_if]
  split
  . exact avoids_repr _
  . exact .append (by decide) (avoids_repr _)

theorem avoids_twoDigits (n : Nat) : Avoids signs (Civil.twoDigits n) := by
  unfold Civil.twoDigits
  split
  . exact .append (by decide) (avoids_repr _)
  . exact avoids_repr _

theorem avoids_hoursAndMinutes (hours minutes : Int) : Avoids signs (hoursAndMinutes hours minutes) := by
  unfold hoursAndMinutes
  have hhours := avoids_toString hours
  have hminutes := avoids_toString minutes
  split
  . split
    . exact .append (.append (.append hhours (by decide)) hminutes) (by decide)
    . exact .append hhours (by decide)
  . exact .append hminutes (by decide)

theorem avoids_formatTime (t : IsoTime) : Avoids signs (formatTime t) :=
  .append (.append (avoids_twoDigits _) (by decide)) (avoids_twoDigits _)

theorem avoids_dayHeader {title day tail : String} (date : Date) (htitle : Avoids ['\n'] title)
    (hday : Avoids ['\n'] day) (htail : Avoids ['\n'] tail)
    : Avoids ['\n'] (dayHeader title day date tail) := by
  have hdate : Avoids ['\n'] (formatDate date) := by
    have hsigns : Avoids signs (formatDate date) :=
      .append (.append (.append (.append (avoids_twoDigits _) (by decide)) (avoids_twoDigits _))
        (by decide)) (avoids_toString _)
    exact hsigns.subset (by decide)
  have hname : Avoids ['\n'] (dayName date) := by
    have hnames : ∀ name ∈ dayNames, Avoids ['\n'] name := by decide
    unfold dayName
    generalize ((date + 3) % 7).toNat = i
    rw [List.getD_eq_getElem?_getD]
    cases hi : dayNames[i]? with
    | none => exact (by decide : Avoids ['\n'] "")
    | some name => exact hnames name (List.mem_of_getElem? hi)
  unfold dayHeader
  generalize formatDate date = dateText at hdate
  generalize dayName date = name at hname
  repeat' apply Avoids.append
  all_goals first | assumption | decide

section

variable {offsetAt : Int → Int}

theorem avoids_span (ev : ScheduleEvent) : Avoids signs (span offsetAt ev) :=
  .append (.append (.append (.append (.append (avoids_formatTime _) (by decide)) (avoids_formatTime _))
    (by decide)) (avoids_hoursAndMinutes _ _)) (by decide)

theorem eventLine_eq (newEventKeys : List (IsoTime × IsoTime)) (ev : ScheduleEvent)
    : ∃ s, Avoids signs s ∧ eventLine offsetAt newEventKeys ev =
        "🪫" ++ s ++ (if ev.isPossible then " ⚠️" else "") ++
          (if newEventKeys.contains ev.key then " 🆕" else "") := by
  refine ⟨" <b>" ++ span offsetAt ev ++ "</b>", ?_, ?_⟩
  . exact .append (.append (by decide) (avoids_span ev)) (by decide)
  . unfold eventLine
    have hstart : "🪫 <b>" = "🪫" ++ " <b>" := by decide
    rw [hstart]
    simp only [String.append_assoc]

theorem marks_eventLine (newEventKeys : List (IsoTime × IsoTime)) (ev : ScheduleEvent)
    : ('🆕' ∈ (eventLine offsetAt newEventKeys ev).toList ↔ ev.key ∈ newEventKeys) ∧
      ('⚠' ∈ (eventLine offsetAt newEventKeys ev).toList ↔ ev.isPossible = true) := by
  obtain ⟨s, hs, heq⟩ := eventLine_eq newEventKeys ev
  rw [heq]
  have hnew := hs '🆕' (by decide)
  have hpossible := hs '⚠' (by decide)
  constructor
  . split <;> split <;> simp_all
  . split <;> split <;> simp_all

def beginsWith (mark : Char) (line : String) : Bool := line.toList.head? = some mark

theorem markedLines_intercalate {lines : List String} (hne : lines ≠ [])
    (hplain : ∀ line ∈ lines, Avoids ['\n'] line) (mark : Char)
    : markedLines mark ("\n".intercalate lines) =
        (lines.filter (beginsWith mark)).map String.toList := by
  have hnewline : "\n".toList = ['\n'] := rfl
  unfold markedLines
  rw [String.toList_intercalate, hnewline, List.splitOn_intercalate, List.filter_map]
  . rfl
  . intro chars hchars
    obtain ⟨line, hline, rfl⟩ := List.mem_map.mp hchars
    exact hplain line hline '\n' List.mem_cons_self
  . intro hmap
    exact hne (List.map_eq_nil_iff.mp hmap)

variable (offsetAt) in
structure LinesShow (newEventKeys : List (IsoTime × IsoTime)) (lines : List String)
    (events removed : List ScheduleEvent) : Prop where
  plain : ∀ line ∈ lines, Avoids ['\n'] line
  events : lines.filter (beginsWith '🪫') = events.map (eventLine offsetAt newEventKeys)
  cancelled : lines.filter (beginsWith '❌') = removed.map (cancelledLine offsetAt)

variable {newEventKeys : List (IsoTime × IsoTime)}

theorem LinesShow.append {lines lines' : List String} {events removed events' removed' : List ScheduleEvent}
    (h : LinesShow offsetAt newEventKeys lines events removed)
    (h' : LinesShow offsetAt newEventKeys lines' events' removed')
    : LinesShow offsetAt newEventKeys (lines ++ lines') (events ++ events') (removed ++ removed') where
  plain line hline := (List.mem_append.mp hline).elim (h.plain line) (h'.plain line)
  events := by rw [List.filter_append, List.map_append, h.events, h'.events]
  cancelled := by rw [List.filter_append, List.map_append, h.cancelled, h'.cancelled]

theorem linesShow_nil : LinesShow offsetAt newEventKeys [] [] [] := ⟨nofun, rfl, rfl⟩

theorem beginsWith_append {mark c : Char} {chars : List Char} {s : String} (hs : s.toList = c :: chars)
    (t : String) : beginsWith mark (s ++ t) = decide (c = mark) := by
  unfold beginsWith
  rw [String.toList_append, hs, List.cons_append, List.head?_cons, decide_eq_decide, Option.some_inj]

theorem filter_map_beginsWith {f : ScheduleEvent → String} {c : Char}
    (hbegins : ∀ mark ev, beginsWith mark (f ev) = decide (c = mark)) (mark : Char)
    (events : List ScheduleEvent)
    : (events.map f).filter (beginsWith mark) = if c = mark then events.map f else [] := by
  split
  . next hmark =>
    rw [List.filter_eq_self]
    intro line hline
    obtain ⟨ev, _, rfl⟩ := List.mem_map.mp hline
    rw [hbegins, decide_eq_true hmark]
  . next hmark =>
    rw [List.filter_eq_nil_iff]
    intro line hline
    obtain ⟨ev, _, rfl⟩ := List.mem_map.mp hline
    rw [hbegins, decide_eq_true_eq]
    exact hmark

theorem linesShow_events (events : List ScheduleEvent)
    : LinesShow offsetAt newEventKeys (events.map (eventLine offsetAt newEventKeys)) events [] := by
  have hbegins (mark : Char) (ev : ScheduleEvent)
      : beginsWith mark (eventLine offsetAt newEventKeys ev) = decide ('🪫' = mark) := by
    unfold eventLine
    rw [String.append_assoc, String.append_assoc, String.append_assoc]
    exact beginsWith_append rfl _
  constructor
  . intro line hline
    obtain ⟨ev, _, rfl⟩ := List.mem_map.mp hline
    obtain ⟨s, hs, heq⟩ := eventLine_eq newEventKeys ev
    rw [heq]
    refine .append (.append (.append (by decide) (hs.subset (by decide))) ?_) ?_
    . exact .ite (by decide) (by decide)
    . exact .ite (by decide) (by decide)
  . rw [filter_map_beginsWith hbegins, if_pos rfl]
  . rw [filter_map_beginsWith hbegins, if_neg (by decide)]
    rfl

theorem linesShow_removed (removed : List ScheduleEvent)
    : LinesShow offsetAt newEventKeys (removed.map (cancelledLine offsetAt)) [] removed := by
  have hbegins (mark : Char) (ev : ScheduleEvent)
      : beginsWith mark (cancelledLine offsetAt ev) = decide ('❌' = mark) := by
    unfold cancelledLine
    rw [String.append_assoc]
    exact beginsWith_append rfl _
  constructor
  . intro line hline
    obtain ⟨ev, _, rfl⟩ := List.mem_map.mp hline
    exact .append (.append (by decide) ((avoids_span ev).subset (by decide))) (by decide)
  . rw [filter_map_beginsWith hbegins, if_neg (by decide)]
    rfl
  . rw [filter_map_beginsWith hbegins, if_pos rfl]

structure IsOther (line : String) : Prop where
  plain : Avoids ['\n'] line
  noEvent : beginsWith '🪫' line = false
  notCancelled : beginsWith '❌' line = false

theorem isOther_empty : IsOther "" := ⟨by decide, rfl, rfl⟩

theorem isOther_nothingPlanned : IsOther nothingPlanned := ⟨by decide, by decide, by decide⟩

theorem isOther_dayHeader {title day tail : String} (date : Date) (htitle : Avoids ['\n'] title)
    (hday : Avoids ['\n'] day) (htail : Avoids ['\n'] tail) : IsOther (dayHeader title day date tail) := by
  have hbegins (mark : Char) : beginsWith mark (dayHeader title day date tail) = decide ('<' = mark) := by
    unfold dayHeader
    simp only [String.append_assoc]
    exact beginsWith_append rfl _
  refine ⟨avoids_dayHeader date htitle hday htail, ?_, ?_⟩
  . rw [hbegins]
    decide
  . rw [hbegins]
    decide

theorem isOther_totalLine (events : List ScheduleEvent) : IsOther (totalLine offsetAt events) := by
  have hbegins (mark : Char) : beginsWith mark (totalLine offsetAt events) = decide ('З' = mark) := by
    unfold totalLine
    rw [String.append_assoc]
    exact beginsWith_append rfl _
  have htotal : Avoids signs (totalStr (events.map (durationSeconds offsetAt)).sum) :=
    avoids_hoursAndMinutes _ _
  refine ⟨.append (.append (by decide) (htotal.subset (by decide))) (by decide), ?_, ?_⟩
  . rw [hbegins]
    decide
  . rw [hbegins]
    decide

theorem LinesShow.cons {line : String} {lines : List String} {events removed : List ScheduleEvent}
    (hother : IsOther line) (h : LinesShow offsetAt newEventKeys lines events removed)
    : LinesShow offsetAt newEventKeys (line :: lines) events removed where
  plain line' hline' := by
    cases List.mem_cons.mp hline' with
    | inl heq => exact heq ▸ hother.plain
    | inr hrest => exact h.plain line' hrest
  events := by rw [List.filter_cons_of_neg (by simp [hother.noEvent]), h.events]
  cancelled := by rw [List.filter_cons_of_neg (by simp [hother.notCancelled]), h.cancelled]

theorem linesShow_dayLines (events removed : List ScheduleEvent)
    : LinesShow offsetAt newEventKeys (dayLines offsetAt newEventKeys events removed) events removed := by
  have hlast : IsOther (if events.isEmpty then nothingPlanned else totalLine offsetAt events) := by
    split
    . exact isOther_nothingPlanned
    . exact isOther_totalLine events
  have hevents : LinesShow offsetAt newEventKeys (events.map (eventLine offsetAt newEventKeys)) events [] :=
    linesShow_events events
  have h := (hevents.append (linesShow_removed removed)).append (linesShow_nil.cons hlast)
  rw [List.append_nil, List.append_nil, List.append_nil, List.nil_append] at h
  exact h

variable {queue : String}

theorem isOther_plainHeader (hqueue : Avoids ['\n'] queue) (isDailyPlanned : Bool) (today : Date)
    : IsOther (plainHeader isDailyPlanned today queue) := by
  apply isOther_dayHeader today _ (by decide) (.append (by decide) hqueue)
  exact .append (.ite (by decide) (by decide)) (by decide)

theorem isOther_tomorrowHeader (hqueue : Avoids ['\n'] queue) (updateType : UpdateType)
    (tomorrow : Date) : IsOther (tomorrowHeader updateType tomorrow queue) := by
  apply isOther_dayHeader tomorrow _ (by decide) (.append (by decide) hqueue)
  exact .ite (by decide) (.ite (by decide) (.ite (by decide) (by decide)))

theorem isOther_todayHeader (hqueue : Avoids ['\n'] queue) (updateType : UpdateType)
    (tomorrowSectionShown isDailyPlanned : Bool) (today : Date)
    : IsOther (todayHeader updateType tomorrowSectionShown isDailyPlanned today queue) := by
  unfold todayHeader
  split
  . exact isOther_dayHeader today (by decide) (by decide) (by decide)
  . split
    . exact ⟨by decide, by decide, by decide⟩
    . split
      . exact isOther_dayHeader today (by decide) (by decide) (.append (by decide) hqueue)
      . exact isOther_plainHeader hqueue isDailyPlanned today

theorem eq_nil_of_isEmpty {events removed : List ScheduleEvent}
    (h : (events.isEmpty && removed.isEmpty) = true) : events = [] ∧ removed = [] := by
  rw [Bool.and_eq_true, List.isEmpty_iff, List.isEmpty_iff] at h
  exact h

theorem linesShow_tomorrowSection (hqueue : Avoids ['\n'] queue) (updateType : UpdateType)
    (tomorrow : Date) (events removed : List ScheduleEvent)
    : LinesShow offsetAt newEventKeys
        (tomorrowSection offsetAt updateType tomorrow queue newEventKeys events removed) events
        removed := by
  unfold tomorrowSection
  split
  . next hempty =>
    rw [(eq_nil_of_isEmpty hempty).1, (eq_nil_of_isEmpty hempty).2]
    exact linesShow_nil
  . have hday : LinesShow offsetAt newEventKeys (dayLines offsetAt newEventKeys events removed) events
        removed := linesShow_dayLines events removed
    have h := (hday.cons isOther_empty).cons (isOther_tomorrowHeader hqueue updateType tomorrow)
    have hall := h.append (linesShow_nil.cons isOther_empty)
    rw [List.append_nil, List.append_nil] at hall
    exact hall

theorem linesShow_todaySection (hqueue : Avoids ['\n'] queue) (updateType : UpdateType)
    (tomorrowSectionShown isDailyPlanned : Bool) (today : Date) (events removed : List ScheduleEvent)
    : LinesShow offsetAt newEventKeys
        (todaySection offsetAt updateType tomorrowSectionShown isDailyPlanned today queue newEventKeys
          events removed) events removed := by
  unfold todaySection
  split
  . next hempty =>
    rw [(eq_nil_of_isEmpty hempty).1, (eq_nil_of_isEmpty hempty).2]
    exact ((linesShow_nil.cons isOther_nothingPlanned).cons isOther_empty).cons
      (isOther_plainHeader hqueue isDailyPlanned today)
  . exact ((linesShow_dayLines events removed).cons isOther_empty).cons
      (isOther_todayHeader hqueue updateType tomorrowSectionShown isDailyPlanned today)

end

def twoDays (events : List ScheduleEvent) (today : Date) : List ScheduleEvent :=
  filterEventsForDate events (today + 1) ++ filterEventsForDate events today

/--
A wall clock time that `fromtimestamp` has put on a date is shown on that date again when it comes back
through UTC.
-/
def KeepsDates (env : ParseEnv) (offsetAt : Int → Int) : Prop :=
  ∀ date half, half < 48 →
    @Eq Int (parseEventDt offsetAt { date := date, half := half, offset := env.utcOffset date half }).date date

section

variable {env : ParseEnv} {offsetAt : Int → Int} {sched : Sched} {today : Date} {queue : String}

theorem start_of_mem_dayEvents {factData : List (String × Json)} {ts : Int} {queueKey : String}
    {events : List ScheduleEvent} (h : dayEvents env factData ts queueKey = some events)
    {ev : ScheduleEvent} (hev : ev ∈ events)
    : ∃ date half, half < 48 ∧
        ev.start = { date := date, half := half, offset := env.utcOffset date half } := by
  rcases dayEvents_cases h with rfl | ⟨date, hourlyData, _, rfl⟩
  . cases hev
  . obtain ⟨half, hhalf, hstart⟩ := start_of_mem_eventsOfMap hev
    exact ⟨date, half, hhalf, hstart⟩

theorem start_of_mem_parseEvents {factData : List (String × Json)} {timestamps : List Int}
    {queueKey : String} {events : List ScheduleEvent}
    (h : parseEvents env factData timestamps queueKey = some events) {ev : ScheduleEvent}
    (hev : ev ∈ events)
    : ∃ date half, half < 48 ∧
        ev.start = { date := date, half := half, offset := env.utcOffset date half } := by
  unfold parseEvents at h
  split at h
  . cases h
    cases hev
  . exact start_of_mem_dayEvents h hev
  . simp only [Option.bind_eq_bind, Option.bind_eq_some_iff] at h
    obtain ⟨today, htoday, h⟩ := h
    split at h
    . rw [Option.bind_eq_some_iff] at h
      obtain ⟨tomorrow, htomorrow, h⟩ := h
      cases h
      cases List.mem_append.mp hev with
      | inl hev => exact start_of_mem_dayEvents htoday hev
      | inr hev => exact start_of_mem_dayEvents htomorrow hev
    . cases h
      exact start_of_mem_dayEvents htoday hev

theorem start_of_parsed {rawData : Json} (h : parseScheduleForQueue env rawData queue = some sched)
    {ev : ScheduleEvent} (hev : ev ∈ sched.events)
    : ∃ date half, half < 48 ∧
        ev.start = { date := date, half := half, offset := env.utcOffset date half } := by
  unfold parseScheduleForQueue at h
  split at h
  . cases h
    cases hev
  . simp only [Option.bind_eq_bind, Option.bind_eq_some_iff] at h
    obtain ⟨timestamps, _, events, hevents, _, _, h⟩ := h
    cases h
    exact start_of_mem_parseEvents hevents (mem_sortEvents.mp hev)

theorem filter_eventStartsOn_parsed (hzone : KeepsDates env offsetAt) {rawData : Json}
    (h : parseScheduleForQueue env rawData queue = some sched) (date : Date)
    : sched.events.filter (eventStartsOn offsetAt (date * dayUs)) = filterEventsForDate sched.events date := by
  unfold filterEventsForDate
  apply List.filter_congr
  intro ev hev
  obtain ⟨date', half, hhalf, hstart⟩ := start_of_parsed h hev
  have hdate := hzone date' half hhalf
  unfold eventStartsOn
  rw [hstart, decide_eq_decide]
  unfold WallTime.date dayUs hourUs at *
  dsimp only
  change @LE.le Int _ _ _ ∧ @LT.lt Int _ _ _ ↔ @Eq Int _ _
  omega

theorem linesShow_scheduleLines (hqueue : Avoids ['\n'] queue) (hdata : sched.hasData = true)
    (hevents : ∀ date, sched.events.filter (eventStartsOn offsetAt (date * dayUs)) =
      filterEventsForDate sched.events date)
    (changes : Changes) (updateType : UpdateType) (isDailyPlanned : Bool)
    : LinesShow offsetAt (changes.added.map (·.key))
        (scheduleLines offsetAt today queue sched changes updateType isDailyPlanned)
        (twoDays sched.events today) (twoDays changes.removed today) := by
  unfold scheduleLines twoDays
  rw [if_neg (by simp [hdata]), ← hevents, ← hevents]
  exact (linesShow_tomorrowSection hqueue _ _ _ _).append (linesShow_todaySection hqueue _ _ _ _ _ _)

theorem getD_changes (changes : Changes)
    : (if changes.added.isEmpty && changes.removed.isEmpty then none else some changes).getD {} =
        changes := by
  cases changes with
  | mk added removed =>
    split
    . next hempty =>
      obtain ⟨hadded, hremoved⟩ := eq_nil_of_isEmpty hempty
      dsimp only at hadded hremoved
      rw [hadded, hremoved]
      rfl
    . rfl

theorem notificationText_eq (today : Date) (region queue : String) (blast : Blast)
    : notificationText offsetAt today region queue blast =
        if region = "" ∨ queue = "" then
          "⚠️ Помилка: відсутні дані про регіон або чергу"
        else
          "\n".intercalate (scheduleLines offsetAt today queue blast.sched blast.changes blast.updateType
            blast.isDailyPlanned) := by
  have hupdate : (if blast.updateType.isEmpty then none else some blast.updateType).getD {} =
      blast.updateType := by
    split
    . next hempty => exact (of_decide_eq_true hempty).symm
    . rfl
  unfold notificationText formatScheduleMessage
  dsimp only
  rw [getD_changes, hupdate]

/--
What the text shows: every event of the two days on a line of its own with its marks, and every removed
event of the two days on a line of its own.
-/
structure MessageComplete (offsetAt : Int → Int) (today : Date) (events : List ScheduleEvent)
    (changes : Changes) (text : String) : Prop where
  eventLines : markedLines '🪫' text = (twoDays events today).map fun ev =>
    (eventLine offsetAt (changes.added.map (·.key)) ev).toList
  newMarks : ∀ ev ∈ twoDays events today,
    '🆕' ∈ (eventLine offsetAt (changes.added.map (·.key)) ev).toList ↔
      ev.key ∈ changes.added.map (·.key)
  possibleMarks : ∀ ev ∈ twoDays events today,
    '⚠' ∈ (eventLine offsetAt (changes.added.map (·.key)) ev).toList ↔ ev.isPossible = true
  cancelledLines : markedLines '❌' text = (twoDays changes.removed today).map fun ev =>
    (cancelledLine offsetAt ev).toList

theorem scheduleLines_ne_nil (changes : Changes) (updateType : UpdateType) (isDailyPlanned : Bool)
    : scheduleLines offsetAt today queue sched changes updateType isDailyPlanned ≠ [] := by
  unfold scheduleLines todaySection
  split
  . exact List.cons_ne_nil _ _
  . intro hnil
    have htoday := (List.append_eq_nil_iff.mp hnil).2
    split at htoday
    . cases htoday
    . cases htoday

theorem markedLines_noData {blast : Blast} {region : String} (hqueue : Avoids ['\n'] queue)
    (hno : region = "" ∨ queue = "" ∨ blast.sched.hasData = false) {mark : Char} (hmark : mark ∈ ['🪫', '❌'])
    : markedLines mark (notificationText offsetAt today region queue blast) = [] := by
  rw [notificationText_eq]
  split
  . rw [List.mem_cons, List.mem_singleton] at hmark
    rcases hmark with rfl | rfl
    . decide
    . decide
  . next hnames =>
    rw [not_or] at hnames
    have hdata : blast.sched.hasData = false :=
      (hno.resolve_left hnames.1).resolve_left hnames.2
    have hplain : LinesShow offsetAt [] (scheduleLines offsetAt today queue blast.sched blast.changes
        blast.updateType blast.isDailyPlanned) [] [] := by
      unfold scheduleLines
      rw [if_pos (by simp [hdata])]
      exact ((linesShow_nil.cons isOther_nothingPlanned).cons isOther_empty).cons
        (isOther_plainHeader hqueue blast.isDailyPlanned today)
    rw [markedLines_intercalate (scheduleLines_ne_nil _ _ _) hplain.plain]
    rw [List.mem_cons, List.mem_singleton] at hmark
    rcases hmark with rfl | rfl
    . rw [hplain.events]
      rfl
    . rw [hplain.cancelled]
      rfl

/--
The names are known, and either the schedule has data or nothing was removed from the two days; or there
is nothing to show at all.
-/
def CanShowAll (today : Date) (region queue : String) (blast : Blast) : Prop :=
  twoDays blast.sched.events today = [] ∧ twoDays blast.changes.removed today = [] ∨
    region ≠ "" ∧ queue ≠ "" ∧
      (blast.sched.hasData = true ∨ twoDays blast.changes.removed today = [])

instance (today : Date) (region queue : String) (blast : Blast)
    : Decidable (CanShowAll today region queue blast) :=
  inferInstanceAs (Decidable (_ ∨ _))

theorem notificationText_complete_iff {rawData : Json} {parsedQueue region : String} {blast : Blast}
    (hzone : KeepsDates env offsetAt)
    (hparse : parseScheduleForQueue env rawData parsedQueue = some blast.sched)
    (hqueue : '\n' ∉ queue.toList)
    : MessageComplete offsetAt today blast.sched.events blast.changes
          (notificationText offsetAt today region queue blast)
        ↔
      CanShowAll today region queue blast := by
  have hplain : Avoids ['\n'] queue := by
    intro c hc
    rw [List.mem_singleton.mp hc]
    exact hqueue
  have hmarks (ev : ScheduleEvent) :=
    @marks_eventLine offsetAt (blast.changes.added.map (·.key)) ev
  by_cases hno : region = "" ∨ queue = "" ∨ blast.sched.hasData = false
  . have hnone {mark : Char} (hmark : mark ∈ ['🪫', '❌'])
        : markedLines mark (notificationText offsetAt today region queue blast) = [] :=
      markedLines_noData hplain hno hmark
    constructor
    . intro hcomplete
      have hevents := hcomplete.eventLines
      have hremoved := hcomplete.cancelledLines
      rw [hnone (by decide)] at hevents hremoved
      exact .inl ⟨List.map_eq_nil_iff.mp hevents.symm, List.map_eq_nil_iff.mp hremoved.symm⟩
    . intro hcan
      have hnothing : twoDays blast.sched.events today = [] ∧ twoDays blast.changes.removed today = [] := by
        cases hcan with
        | inl hnothing => exact hnothing
        | inr hcan =>
          obtain ⟨hregion, hqueue, hcan⟩ := hcan
          have hdata := (hno.resolve_left hregion).resolve_left hqueue
          have hempty : blast.sched.events = [] := by
            have hevents := hasData_parseScheduleForQueue hparse
            rw [hdata] at hevents
            simpa using hevents
          refine ⟨by rw [hempty]; rfl, hcan.resolve_left ?_⟩
          rw [hdata]
          exact Bool.false_ne_true
      constructor
      . rw [hnone (by decide), hnothing.1, List.map_nil]
      . exact fun ev _ => (hmarks ev).1
      . exact fun ev _ => (hmarks ev).2
      . rw [hnone (by decide), hnothing.2, List.map_nil]
  . rw [not_or, not_or, Bool.not_eq_false] at hno
    obtain ⟨hregion, hqueue, hdata⟩ := hno
    constructor
    . intro _
      exact .inr ⟨hregion, hqueue, .inl hdata⟩
    . intro _
      have hlines : LinesShow offsetAt (blast.changes.added.map (·.key))
          (scheduleLines offsetAt today queue blast.sched blast.changes blast.updateType blast.isDailyPlanned)
          (twoDays blast.sched.events today) (twoDays blast.changes.removed today) :=
        linesShow_scheduleLines hplain hdata (filter_eventStartsOn_parsed hzone hparse) blast.changes
          blast.updateType blast.isDailyPlanned
      have htext := @notificationText_eq offsetAt today region queue blast
      rw [if_neg (not_or.mpr ⟨hregion, hqueue⟩)] at htext
      have hmarked := markedLines_intercalate (scheduleLines_ne_nil _ _ _) hlines.plain
      rw [← htext] at hmarked
      constructor
      . rw [hmarked, hlines.events, List.map_map]
        rfl
      . exact fun ev _ => (hmarks ev).1
      . exact fun ev _ => (hmarks ev).2
      . rw [hmarked, hlines.cancelled, List.map_map]
        rfl

end

theorem keepsDates_sampleEnv : KeepsDates sampleEnv fun _ => 7200 := by
  intro date half hhalf
  unfold WallTime.date parseEventDt wallTime utcSecond sampleEnv dayUs hourUs
  dsimp only
  omega

def sampleSched : Sched where
  hasData := true
  events := [
    { start := ⟨0, 0, 7200⟩, endAt := ⟨0, 2, 7200⟩, isPossible := false },
    { start := ⟨1, 0, 7200⟩, endAt := ⟨1, 2, 7200⟩, isPossible := false }]
  queue := "1.1"
  dtekUpdatedAt := none

theorem parse_sampleSched
    : parseScheduleForQueue sampleEnv (samplePayload "86400") "1.1" = some sampleSched := by
  decide +kernel

def sampleBlast : Blast :=
  changeBlast id ({} : Announcer _).store ("kyiv", "1.1") sampleSched sampleReads

theorem notificationText_complete_sampleBlast
    : twoDays sampleBlast.sched.events 0 ≠ [] ∧
        MessageComplete (fun _ => 7200) 0 sampleBlast.sched.events sampleBlast.changes
          (notificationText (fun _ => 7200) 0 "kyiv" "1.1" sampleBlast) := by
  refine ⟨by decide +kernel, ?_⟩
  exact (notificationText_complete_iff keepsDates_sampleEnv parse_sampleSched (by decide)).mpr
    (by decide +kernel)

def emptiedBlast : Blast :=
  let store := (checkSingleQueue id ({} : Announcer _).store ("kyiv", "1.1") (some sampleSched)
    sampleReads 0).1
  changeBlast id store ("kyiv", "1.1") (noData "1.1") sampleReads

theorem not_messageComplete_emptiedBlast
    : parseScheduleForQueue sampleEnv (payloadWith "0" "86400" [] []) "1.1" = some emptiedBlast.sched ∧
        (checkSingleQueue id (checkSingleQueue id ({} : Announcer _).store ("kyiv", "1.1")
          (some sampleSched) sampleReads 0).1 ("kyiv", "1.1") (some emptiedBlast.sched) sampleReads 1).2 =
            some emptiedBlast ∧
        ¬ MessageComplete (fun _ => 7200) sampleReads.todayDate emptiedBlast.sched.events
          emptiedBlast.changes
          (notificationText (fun _ => 7200) sampleReads.todayDate "kyiv" "1.1" emptiedBlast) := by
  refine ⟨by decide +kernel, by decide +kernel, ?_⟩
  intro hcomplete
  have hremoved := hcomplete.cancelledLines
  rw [markedLines_noData (by decide) (.inr (.inr rfl)) (by decide)] at hremoved
  have hnone := List.map_eq_nil_iff.mp hremoved.symm
  revert hnone
  decide +kernel

end Formatter

end Scheduler
