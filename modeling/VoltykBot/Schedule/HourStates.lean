import VoltykBot.Lib.Paint
import VoltykBot.Schedule.HourMaps

/-!
This module contains the rows of the chart, which `_get_hour_states` makes of the events of a day, and
their agreement with the hourly maps that the events were parsed from.
-/

namespace Scheduler

def halfHourUs : Int := 1800 * 1000000

/--
0001-01-01, the first day of `datetime`.
-/
def firstDate : Date := -719162

def OnCalendar (second : Int) : Prop := firstDate * 86400 ≤ second ∧ second < (lastDate + 1) * 86400

instance (second : Int) : Decidable (OnCalendar second) := inferInstanceAs (Decidable (_ ∧ _))

def utcSecond (t : IsoTime) : Int := t.half * 1800 + t.date * 86400 - t.offset

section

/-
What the clocks of the zone are ahead of UTC, in seconds, at an instant given in seconds of UTC.
-/
variable (offsetAt : Int → Int)

def wallTime (t : IsoTime) : WallTime := (utcSecond t + offsetAt (utcSecond t)) * 1000000

/--
`_parse_dt` of an `isoformat` text
-/
def parseDt (t : IsoTime) : Option WallTime :=
  -- `astimezone` raises where the time leaves the calendar in UTC or in the zone
  if OnCalendar (utcSecond t) ∧ OnCalendar (utcSecond t + offsetAt (utcSecond t)) then
    some (wallTime offsetAt t)
  else
    none

structure Span where
  first : Nat
  last : Nat
  value : Nat

def spanOf (dayStart : WallTime) (ev : ScheduleEvent) : Option Span := do
  -- `int` of a float rounds towards zero
  let start ← parseDt offsetAt ev.start
  let a := max 0 ((start - dayStart).tdiv halfHourUs)
  let endAt ← parseDt offsetAt ev.endAt
  let b := min 48 ((endAt - dayStart).tdiv halfHourUs)
  some { first := a.toNat, last := b.toNat, value := halfValue ev }

def halfMap (events : List ScheduleEvent) (dayStart : WallTime) : Option (List Nat) := do
  let spans ← events.mapM (spanOf offsetAt dayStart)
  some (Paint.paint Span.first Span.last Span.value (List.replicate 48 0) spans)

def hourState (f s : Nat) : HourState :=
  if f = 0 ∧ s = 0 then .on
  else if f = 1 ∧ s = 1 then .no
  else if f = 2 ∧ s = 2 then .maybe
  else if f = 1 ∧ s = 0 then .nfirst
  else if f = 0 ∧ s = 1 then .nsecond
  else if f = 2 ∧ s = 0 then .mfirst
  else if f = 0 ∧ s = 2 then .msecond
  else if f = 1 ∨ s = 1 then .no
  else .maybe

def statesOf (map : List Nat) : List HourState :=
  (List.range 24).map fun h => hourState (map.getD (h * 2) 0) (map.getD (h * 2 + 1) 0)

def getHourStates (events : List ScheduleEvent) (dayStart : WallTime) : Option (List HourState) :=
  (halfMap offsetAt events dayStart).map statesOf

def startsOn (dayStart : WallTime) (ev : ScheduleEvent) : Option Bool := do
  let start ← parseDt offsetAt ev.start
  some (dayStart ≤ start ∧ start < dayStart + dayUs)

def dayRow (events : List ScheduleEvent) (dayStart : WallTime) : Option (List HourState) := do
  let dayEv ← events.filterM (startsOn offsetAt dayStart)
  getHourStates offsetAt dayEv dayStart

end

@[simp]
theorem hourState_half (state : HourState)
    : hourState (state.half false) (state.half true) = state := by
  cases state <;> rfl

theorem hourlyRow_eq (hourlyData : List (String × Json))
    : hourlyRow hourlyData =
        (List.range 24).map fun h =>
          hourState (halfOf hourlyData (h * 2)) (halfOf hourlyData (h * 2 + 1)) := by
  unfold hourlyRow halfOf
  apply List.map_congr_left
  intro h _
  have hfirst : h * 2 / 2 = h := by omega
  have hsecond : (h * 2 + 1) / 2 = h := by omega
  have heven : h * 2 % 2 = 0 := by omega
  have hodd : (h * 2 + 1) % 2 = 1 := by omega
  rw [hfirst, hsecond, heven, hodd]
  exact (hourState_half _).symm

/--
On this day the clocks stay at one offset, and they are not put back at the midnight that ends it.
-/
structure NoDstChange (env : ParseEnv) (offsetAt : Int → Int) (date offset : Int) : Prop where
  wall : ∀ half < 48, env.utcOffset date half = offset
  midnight : env.utcOffset (date + 1) 0 = offset
  instant : ∀ utc, date * 86400 ≤ utc + offset → utc + offset < (date + 1) * 86400 →
    offsetAt utc = offset
  notBack : offset ≤ offsetAt ((date + 1) * 86400 - offset)

variable {env : ParseEnv} {offsetAt : Int → Int} {date offset : Int}

theorem utcSecond_timeOfHalf (h : NoDstChange env offsetAt date offset) {half : Nat} (hle : half ≤ 48)
    : utcSecond (timeOfHalf env date half) = half * 1800 + date * 86400 - offset := by
  unfold timeOfHalf
  split
  . next hlt =>
    unfold utcSecond halfTime
    dsimp only
    rw [h.wall half hlt]
  . next hlt =>
    obtain rfl : half = 48 := by omega
    unfold utcSecond halfTime
    dsimp only
    rw [Nat.sub_self, h.midnight]
    omega

theorem wallSecond_timeOfHalf (h : NoDstChange env offsetAt date offset) {half : Nat} (hhalf : half < 48)
    : utcSecond (timeOfHalf env date half) + offsetAt (utcSecond (timeOfHalf env date half)) =
        half * 1800 + date * 86400 := by
  rw [utcSecond_timeOfHalf h hhalf.le, h.instant]
  . omega
  . omega
  . omega

theorem wallSecond_midnight (h : NoDstChange env offsetAt date offset)
    : (date + 1) * 86400 ≤
        utcSecond (timeOfHalf env date 48) + offsetAt (utcSecond (timeOfHalf env date 48)) := by
  have hback := h.notBack
  have hutc : utcSecond (timeOfHalf env date 48) = (date + 1) * 86400 - offset := by
    rw [utcSecond_timeOfHalf h le_rfl]
    omega
  rw [hutc]
  omega

theorem parseDt_eq_some {t : IsoTime} (h : (parseDt offsetAt t).isSome)
    : parseDt offsetAt t = some (wallTime offsetAt t) := by
  unfold parseDt at h ⊢
  split at h
  . next hcalendar => rw [if_pos hcalendar]
  . cases h

theorem spanOf_isSome_iff {dayStart : WallTime} {ev : ScheduleEvent}
    : (spanOf offsetAt dayStart ev).isSome ↔
        (parseDt offsetAt ev.start).isSome ∧ (parseDt offsetAt ev.endAt).isSome := by
  unfold spanOf
  cases parseDt offsetAt ev.start with
  | none => simp
  | some start => cases parseDt offsetAt ev.endAt <;> simp

theorem tdiv_halfHourUs_eq {second half : Int} (h : second = half * 1800 + date * 86400)
    : (second * 1000000 - date * dayUs).tdiv halfHourUs = half := by
  have hus : second * 1000000 - date * dayUs = half * halfHourUs := by
    unfold dayUs hourUs halfHourUs
    omega
  rw [hus, Int.mul_tdiv_cancel _ (by decide)]

theorem le_tdiv_halfHourUs {second : Int} (h : (date + 1) * 86400 ≤ second)
    : 48 ≤ (second * 1000000 - date * dayUs).tdiv halfHourUs := by
  unfold dayUs hourUs halfHourUs
  rw [Int.tdiv_eq_ediv_of_nonneg (by omega)]
  omega

theorem spanOf_periodEvent (h : NoDstChange env offsetAt date offset) {isPossible : Bool} {p : Period}
    (hstart : p.start < 48) (hend : p.endAt ≤ 48) {span : Span}
    (hspan : spanOf offsetAt (date * dayUs) (periodEvent env date isPossible p) = some span)
    : span.first = p.start ∧ span.last = p.endAt ∧ span.value = if isPossible then 2 else 1 := by
  have hsome := spanOf_isSome_iff.mp (Option.isSome_of_eq_some hspan)
  unfold spanOf at hspan
  rw [parseDt_eq_some hsome.1, parseDt_eq_some hsome.2] at hspan
  cases hspan
  unfold periodEvent
  refine ⟨?_, ?_, rfl⟩
  . have hfirst := tdiv_halfHourUs_eq (wallSecond_timeOfHalf h hstart)
    dsimp only
    unfold wallTime
    rw [hfirst]
    omega
  . dsimp only
    unfold wallTime
    cases Nat.lt_or_eq_of_le hend with
    | inl hlt =>
      have hlast := tdiv_halfHourUs_eq (wallSecond_timeOfHalf h hlt)
      rw [hlast]
      omega
    | inr heq =>
      have hlast := le_tdiv_halfHourUs (wallSecond_midnight h)
      rw [heq]
      omega

theorem startsOn_periodEvent (h : NoDstChange env offsetAt date offset) {isPossible : Bool} {p : Period}
    (hstart : p.start < 48)
    (hsome : (parseDt offsetAt (periodEvent env date isPossible p).start).isSome) (day : Int)
    : startsOn offsetAt (day * dayUs) (periodEvent env date isPossible p) = some (decide (day = date)) := by
  unfold startsOn
  rw [parseDt_eq_some hsome]
  unfold wallTime periodEvent
  dsimp only
  rw [wallSecond_timeOfHalf h hstart]
  unfold dayUs hourUs
  refine congrArg some (decide_eq_decide.mpr ?_)
  change @LE.le Int _ _ _ ∧ @LT.lt Int _ _ _ ↔ @Eq Int _ _
  omega

structure PaintsMap (spans : List Span) (hourlyData : List (String × Json)) : Prop where
  agree : ∀ i < 48, ∀ span ∈ spans, Paint.Covers Span.first Span.last span i →
    span.value = halfOf hourlyData i
  covered : ∀ i < 48, halfOf hourlyData i ≠ 0 →
    ∃ span ∈ spans, Paint.Covers Span.first Span.last span i
  value : ∀ span ∈ spans, span.value ≠ 0

theorem PaintsMap.statesOf {spans : List Span} {hourlyData : List (String × Json)}
    (h : PaintsMap spans hourlyData)
    : Scheduler.statesOf (Paint.paint Span.first Span.last Span.value (List.replicate 48 0) spans) =
        hourlyRow hourlyData := by
  have hhalf {i : Nat} (hi : i < 48)
      : (Paint.paint Span.first Span.last Span.value (List.replicate 48 0) spans).getD i 0 =
          halfOf hourlyData i := by
    have hcell : (List.replicate 48 0)[i]? = some 0 := by
      rw [List.getElem?_replicate, if_pos hi]
    rw [List.getD_eq_getElem?_getD]
    by_cases hzero : halfOf hourlyData i = 0
    . rw [Paint.getElem?_paint_of_uncovered, hcell, hzero]
      . rfl
      . intro span hspan hcovers
        exact h.value span hspan ((h.agree i hi span hspan hcovers).trans hzero)
    . rw [Paint.getElem?_paint_of_covered (h.agree i hi) (h.covered i hi hzero), hcell]
      rfl
  unfold Scheduler.statesOf
  rw [hourlyRow_eq]
  apply List.map_congr_left
  intro hour hhour
  rw [List.mem_range] at hhour
  rw [hhalf (by omega), hhalf (by omega)]

theorem paintsMap_of_mapM (h : NoDstChange env offsetAt date offset)
    {hourlyData : List (String × Json)} {events : List ScheduleEvent} {spans : List Span}
    (hmem : ∀ ev, ev ∈ events ↔ ev ∈ eventsOfMap env date hourlyData)
    (hspans : events.mapM (spanOf offsetAt (date * dayUs)) = some spans) : PaintsMap spans hourlyData := by
  obtain ⟨hfrom, hto⟩ := Checked.mem_of_mapM hspans
  have hspan : ∀ span ∈ spans, ∃ ev ∈ events, ∃ p : Period, p.start < p.endAt ∧
      (∀ i, p.start ≤ i → i < p.endAt → halfOf hourlyData i = halfValue ev) ∧
      span.first = p.start ∧ span.last = p.endAt ∧ span.value = halfValue ev := by
    intro span hmemspan
    obtain ⟨ev, hev, heq⟩ := hfrom span hmemspan
    obtain ⟨p, hlong, hend, hperiod, hhalf⟩ := mem_eventsOfMap ((hmem ev).mp hev)
    refine ⟨ev, hev, p, hlong, hhalf, ?_⟩
    rw [hperiod] at heq
    exact spanOf_periodEvent h (by omega) hend heq
  constructor
  . intro i hi span hmemspan hcovers
    obtain ⟨ev, _, p, _, hhalf, hfirst, hlast, hvalue⟩ := hspan span hmemspan
    unfold Paint.Covers at hcovers
    rw [hvalue, hhalf i (by omega) (by omega)]
  . intro i hi hmarked
    obtain ⟨p, isPossible, hev, hstart, hlt, hend, _⟩ := exists_mem_eventsOfMap env date hi hmarked
    obtain ⟨span, hmemspan, heq⟩ := hto _ ((hmem _).mpr hev)
    obtain ⟨hfirst, hlast, _⟩ := spanOf_periodEvent h (by omega) hend heq
    unfold Paint.Covers
    exact ⟨span, hmemspan, by omega, by omega⟩
  . intro span hmemspan
    obtain ⟨ev, _, _, _, _, _, _, hvalue⟩ := hspan span hmemspan
    rw [hvalue]
    exact halfValue_ne_zero ev

theorem getHourStates_of_readable (h : NoDstChange env offsetAt date offset)
    {hourlyData : List (String × Json)} {events : List ScheduleEvent}
    (hmem : ∀ ev, ev ∈ events ↔ ev ∈ eventsOfMap env date hourlyData)
    (hread : ∀ ev ∈ events, (spanOf offsetAt (date * dayUs) ev).isSome)
    : getHourStates offsetAt events (date * dayUs) = some (hourlyRow hourlyData) := by
  obtain ⟨spans, hspans⟩ := Option.isSome_iff_exists.mp (Checked.mapM_isSome hread)
  unfold getHourStates halfMap
  rw [hspans]
  exact congrArg some (paintsMap_of_mapM h hmem hspans).statesOf

theorem readable_of_getHourStates {events : List ScheduleEvent} {dayStart : WallTime}
    {row : List HourState} (h : getHourStates offsetAt events dayStart = some row)
    : ∀ ev ∈ events, (parseDt offsetAt ev.start).isSome ∧ (parseDt offsetAt ev.endAt).isSome := by
  unfold getHourStates halfMap at h
  simp only [Option.bind_eq_bind, Option.map_eq_some_iff, Option.bind_eq_some_iff] at h
  obtain ⟨_, ⟨spans, hspans, _⟩, _⟩ := h
  intro ev hev
  obtain ⟨span, _, hspan⟩ := (Checked.mem_of_mapM hspans).2 ev hev
  exact spanOf_isSome_iff.mp (Option.isSome_of_eq_some hspan)

theorem startsOn_isSome_iff (dayStart : WallTime) {ev : ScheduleEvent}
    : (startsOn offsetAt dayStart ev).isSome ↔ (parseDt offsetAt ev.start).isSome := by
  unfold startsOn
  cases parseDt offsetAt ev.start <;> simp

def ReadsHalf (env : ParseEnv) (offsetAt : Int → Int) (date : Date) (half : Nat) : Prop :=
  ((hourToDatetime env date half).bind (parseDt offsetAt)).isSome

instance (env : ParseEnv) (offsetAt : Int → Int) (date : Date) (half : Nat)
    : Decidable (ReadsHalf env offsetAt date half) :=
  inferInstanceAs (Decidable (_ = true))

def ReadsMarked (env : ParseEnv) (offsetAt : Int → Int) (date : Date) (hourlyData : List (String × Json))
    : Prop :=
  ∀ i < 48, halfOf hourlyData i ≠ 0 → ReadsHalf env offsetAt date i ∧ ReadsHalf env offsetAt date (i + 1)

instance (env : ParseEnv) (offsetAt : Int → Int) (date : Date) (hourlyData : List (String × Json))
    : Decidable (ReadsMarked env offsetAt date hourlyData) :=
  Nat.decidableBallLT 48 fun i _ => halfOf hourlyData i ≠ 0 → _ ∧ _

theorem readsHalf_iff {half : Nat}
    : ReadsHalf env offsetAt date half ↔
        (half < 48 ∨ date < lastDate) ∧ (parseDt offsetAt (timeOfHalf env date half)).isSome := by
  unfold ReadsHalf
  rw [hourToDatetime_eq]
  split
  . next hin => simp [hin]
  . next hout => simp [hout]

theorem onCalendar_between {a b c : Int} (ha : OnCalendar a) (hc : OnCalendar c) (hab : a ≤ b)
    (hbc : b ≤ c) : OnCalendar b :=
  ⟨ha.1.trans hab, hbc.trans_lt hc.2⟩

theorem parseDt_isSome_iff {t : IsoTime}
    : (parseDt offsetAt t).isSome ↔
        OnCalendar (utcSecond t) ∧ OnCalendar (utcSecond t + offsetAt (utcSecond t)) := by
  unfold parseDt
  split
  . next hin => simp [hin]
  . next hout => simp [hout]

theorem readsHalf_between (h : NoDstChange env offsetAt date offset) {half first last : Nat}
    (hfirst : first ≤ half) (hlast : half < last) (hend : last ≤ 48)
    (hread : ReadsHalf env offsetAt date first) (hread' : ReadsHalf env offsetAt date last)
    : ReadsHalf env offsetAt date half := by
  have hutc {half : Nat} (hle : half ≤ 48) := utcSecond_timeOfHalf h hle
  rw [readsHalf_iff, parseDt_isSome_iff] at hread hread' ⊢
  obtain ⟨_, hutcFirst, hwallFirst⟩ := hread
  obtain ⟨_, hutcLast, hwallLast⟩ := hread'
  refine ⟨.inl (by omega), onCalendar_between hutcFirst hutcLast ?_ ?_, onCalendar_between hwallFirst hwallLast ?_ ?_⟩
  . rw [hutc (by omega), hutc (by omega)]
    omega
  . rw [hutc (by omega), hutc (by omega)]
    omega
  . rw [wallSecond_timeOfHalf h (by omega), wallSecond_timeOfHalf h (by omega)]
    omega
  . rw [wallSecond_timeOfHalf h (by omega)]
    cases Nat.lt_or_eq_of_le hend with
    | inl hlt =>
      rw [wallSecond_timeOfHalf h hlt]
      omega
    | inr heq =>
      have hmidnight := wallSecond_midnight h
      rw [heq]
      omega

theorem readsMarked_iff (h : NoDstChange env offsetAt date offset) {hourlyData : List (String × Json)}
    : ReadsMarked env offsetAt date hourlyData ↔
        EndsInCalendar date hourlyData ∧ ∀ ev ∈ eventsOfMap env date hourlyData,
          (parseDt offsetAt ev.start).isSome ∧ (parseDt offsetAt ev.endAt).isSome := by
  constructor
  . intro hread
    constructor
    . by_cases hmarked : halfOf hourlyData 47 = 0
      . exact .inr hmarked
      . have hmidnight := readsHalf_iff.mp (hread 47 (by decide) hmarked).2
        exact .inl (hmidnight.1.resolve_left (by decide))
    . intro ev hev
      obtain ⟨p, hlong, hend, heq, hhalf⟩ := mem_eventsOfMap hev
      have hmarked {i : Nat} (hstart : p.start ≤ i) (hlt : i < p.endAt) : halfOf hourlyData i ≠ 0 :=
        hhalf i hstart hlt ▸ halfValue_ne_zero ev
      have hfirst := (hread p.start (by omega) (hmarked le_rfl hlong)).1
      have hlast := (hread (p.endAt - 1) (by omega) (hmarked (by omega) (by omega))).2
      rw [Nat.sub_add_cancel (by omega)] at hlast
      rw [heq]
      exact ⟨(readsHalf_iff.mp hfirst).2, (readsHalf_iff.mp hlast).2⟩
  . rintro ⟨hcalendar, hread⟩ i hi hmarked
    obtain ⟨p, isPossible, hev, hstart, hlt, hend, hhalf⟩ := exists_mem_eventsOfMap env date hi hmarked
    obtain ⟨hfirst, hlast⟩ := hread _ hev
    have hreadFirst : ReadsHalf env offsetAt date p.start :=
      readsHalf_iff.mpr ⟨.inl (by omega), hfirst⟩
    have hreadLast : ReadsHalf env offsetAt date p.endAt := by
      refine readsHalf_iff.mpr ⟨?_, hlast⟩
      by_cases hmidnight : p.endAt < 48
      . exact .inl hmidnight
      . exact .inr (hcalendar.resolve_right (hhalf 47 (by omega) (by omega)))
    have hwithin {half : Nat} (hfirst : p.start ≤ half) (hlast : half ≤ p.endAt)
        : ReadsHalf env offsetAt date half := by
      cases Nat.lt_or_eq_of_le hlast with
      | inl hlt => exact readsHalf_between h hfirst hlt hend hreadFirst hreadLast
      | inr heq => exact heq ▸ hreadLast
    exact ⟨hwithin hstart hlt.le, hwithin (by omega) (by omega)⟩

theorem dayRow_of_readable (h : NoDstChange env offsetAt date offset) {events : List ScheduleEvent}
    {hourlyData : List (String × Json)}
    (hread : ∀ ev ∈ events, (parseDt offsetAt ev.start).isSome ∧ (parseDt offsetAt ev.endAt).isSome)
    (hmem : ∀ ev, ev ∈ events ∧ startsOn offsetAt (date * dayUs) ev = some true ↔
      ev ∈ eventsOfMap env date hourlyData)
    : dayRow offsetAt events (date * dayUs) = some (hourlyRow hourlyData) := by
  have hfilter := Checked.filterM_of_isSome fun ev hev =>
    (startsOn_isSome_iff (date * dayUs)).mpr (hread ev hev).1
  unfold dayRow
  rw [hfilter]
  apply getHourStates_of_readable h
  . intro ev
    rw [List.mem_filter, decide_eq_true_eq]
    exact hmem ev
  . intro ev hev
    exact spanOf_isSome_iff.mpr (hread ev (List.mem_of_mem_filter hev))

theorem readable_of_dayRow {events : List ScheduleEvent} {dayStart : WallTime} {row : List HourState}
    (h : dayRow offsetAt events dayStart = some row)
    : ∀ ev ∈ events, (parseDt offsetAt ev.start).isSome ∧
        (startsOn offsetAt dayStart ev = some true → (parseDt offsetAt ev.endAt).isSome) := by
  unfold dayRow at h
  rw [Option.bind_eq_bind, Option.bind_eq_some_iff] at h
  obtain ⟨dayEv, hdayEv, hrow⟩ := h
  have hsome := Checked.isSome_of_filterM hdayEv
  have hfilter := Checked.filterM_of_isSome hsome
  rw [hdayEv, Option.some.injEq] at hfilter
  intro ev hev
  refine ⟨(startsOn_isSome_iff _).mp (hsome ev hev), ?_⟩
  intro hstarts
  refine (readable_of_getHourStates hrow ev ?_).2
  rw [hfilter, List.mem_filter]
  exact ⟨hev, decide_eq_true hstarts⟩

/--
The chart of the parsed schedule shows the two maps of the payload hour by hour.
-/
def ShowsMaps (env : ParseEnv) (offsetAt : Int → Int) (rawData : Json) (queue : String) (date : Int)
    (today tomorrow : List (String × Json)) : Prop :=
  ∃ sched, parseScheduleForQueue env rawData queue = some sched ∧
    dayRow offsetAt sched.events (date * dayUs) = some (hourlyRow today) ∧
    dayRow offsetAt sched.events ((date + 1) * dayUs) = some (hourlyRow tomorrow)

theorem dayRows_iff {offset' : Int} (hdst : NoDstChange env offsetAt date offset)
    (hdst' : NoDstChange env offsetAt (date + 1) offset') {today tomorrow : List (String × Json)}
    {events : List ScheduleEvent}
    (hmem : ∀ ev, ev ∈ events ↔ ev ∈ eventsOfMap env date today ++ eventsOfMap env (date + 1) tomorrow)
    {row row' : List HourState}
    : dayRow offsetAt events (date * dayUs) = some row ∧
          dayRow offsetAt events ((date + 1) * dayUs) = some row'
        ↔
      (∀ ev ∈ events, (parseDt offsetAt ev.start).isSome ∧ (parseDt offsetAt ev.endAt).isSome) ∧
        hourlyRow today = row ∧ hourlyRow tomorrow = row' := by
  have hne : date ≠ date + 1 := by omega
  have hstarts {d o : Int} (h : NoDstChange env offsetAt d o) {hourlyData : List (String × Json)}
      {ev : ScheduleEvent} (hev : ev ∈ eventsOfMap env d hourlyData)
      (hread : (parseDt offsetAt ev.start).isSome) (day : Int)
      : startsOn offsetAt (day * dayUs) ev = some (decide (day = d)) := by
    obtain ⟨p, hlong, hend, heq, _⟩ := mem_eventsOfMap hev
    rw [heq] at hread ⊢
    exact startsOn_periodEvent h (by omega) hread day
  have hrows (hread : ∀ ev ∈ events,
      (parseDt offsetAt ev.start).isSome ∧ (parseDt offsetAt ev.endAt).isSome)
      : dayRow offsetAt events (date * dayUs) = some (hourlyRow today) ∧
          dayRow offsetAt events ((date + 1) * dayUs) = some (hourlyRow tomorrow) := by
    constructor
    . apply dayRow_of_readable hdst hread
      intro ev
      constructor
      . rintro ⟨hev, hday⟩
        cases List.mem_append.mp ((hmem ev).mp hev) with
        | inl htoday => exact htoday
        | inr htomorrow =>
          rw [hstarts hdst' htomorrow (hread ev hev).1, Option.some.injEq, decide_eq_true_eq] at hday
          exact absurd hday hne
      . intro hev
        have hevents := (hmem ev).mpr (List.mem_append_left _ hev)
        rw [hstarts hdst hev (hread ev hevents).1, decide_eq_true rfl]
        exact ⟨hevents, rfl⟩
    . apply dayRow_of_readable hdst' hread
      intro ev
      constructor
      . rintro ⟨hev, hday⟩
        cases List.mem_append.mp ((hmem ev).mp hev) with
        | inl htoday =>
          rw [hstarts hdst htoday (hread ev hev).1, Option.some.injEq, decide_eq_true_eq] at hday
          exact absurd hday.symm hne
        | inr htomorrow => exact htomorrow
      . intro hev
        have hevents := (hmem ev).mpr (List.mem_append_right _ hev)
        rw [hstarts hdst' hev (hread ev hevents).1, decide_eq_true rfl]
        exact ⟨hevents, rfl⟩
  constructor
  . rintro ⟨hrow, hrow'⟩
    have hread : ∀ ev ∈ events,
        (parseDt offsetAt ev.start).isSome ∧ (parseDt offsetAt ev.endAt).isSome := by
      intro ev hev
      have hfirst := readable_of_dayRow hrow ev hev
      have hsecond := readable_of_dayRow hrow' ev hev
      refine ⟨hfirst.1, ?_⟩
      cases List.mem_append.mp ((hmem ev).mp hev) with
      | inl htoday =>
        apply hfirst.2
        rw [hstarts hdst htoday hfirst.1, decide_eq_true rfl]
      | inr htomorrow =>
        apply hsecond.2
        rw [hstarts hdst' htomorrow hfirst.1, decide_eq_true rfl]
    have hboth := hrows hread
    rw [hrow, hrow', Option.some.injEq, Option.some.injEq] at hboth
    exact ⟨hread, hboth.1.symm, hboth.2.symm⟩
  . rintro ⟨hread, rfl, rfl⟩
    exact hrows hread

theorem hourlyRow_nil_eq_iff {hourlyData : List (String × Json)}
    : hourlyRow [] = hourlyRow hourlyData ↔ ∀ state ∈ hourlyRow hourlyData, state = .on := by
  have hnil : hourlyRow [] = List.replicate (hourlyRow hourlyData).length .on := by
    unfold hourlyRow
    rw [List.length_map]
    rfl
  rw [hnil, eq_comm, List.eq_replicate_iff]
  exact and_iff_right rfl

theorem allOn_iff {hourlyData : List (String × Json)}
    : (∀ state ∈ hourlyRow hourlyData, state = .on) ↔ ∀ i < 48, halfOf hourlyData i = 0 := by
  constructor
  . intro hon i hi
    have hstate := hon _ (List.mem_map_of_mem (List.mem_range.mpr (show i / 2 < 24 by omega)))
    unfold halfOf
    rw [hstate]
    rfl
  . intro hzero state hstate
    rw [hourlyRow_eq] at hstate
    obtain ⟨hour, hhour, rfl⟩ := List.mem_map.mp hstate
    rw [List.mem_range] at hhour
    rw [hzero _ (by omega), hzero _ (by omega)]
    rfl

theorem readsMarked_of_allOn {hourlyData : List (String × Json)}
    (hon : ∀ state ∈ hourlyRow hourlyData, state = .on) : ReadsMarked env offsetAt date hourlyData :=
  fun i hi hmarked => absurd (allOn_iff.mp hon i hi) hmarked

/--
Parser and chart agree hour by hour if and only if the second timestamp is not 0 or its map has no outage,
and all outages are at times of the calendar.
-/
theorem showsMaps_iff {rawData : Json} {queue : String} {payload : Payload}
    (hpayload : payloadOf rawData = some payload)
    (hmetadata : iterCandidates payload.fact ++ iterCandidates payload.raw = [])
    {todayTs tomorrowTs : Int} {rest : List Int}
    (htimestamps : timestampsOf env payload.factData = some (todayTs :: tomorrowTs :: rest))
    (htoday : env.fromtimestamp todayTs = some date)
    (htomorrow : env.fromtimestamp tomorrowTs = some (date + 1))
    {today tomorrow : List (String × Json)}
    (hmap : HourlyMap payload.factData todayTs ("GPV" ++ queue) today)
    (hmap' : HourlyMap payload.factData tomorrowTs ("GPV" ++ queue) tomorrow)
    {offset' : Int} (hdst : NoDstChange env offsetAt date offset)
    (hdst' : NoDstChange env offsetAt (date + 1) offset')
    : ShowsMaps env offsetAt rawData queue date today tomorrow
        ↔
      (tomorrowTs ≠ 0 ∨ ∀ state ∈ hourlyRow tomorrow, state = .on) ∧
        ReadsMarked env offsetAt date today ∧ ReadsMarked env offsetAt (date + 1) tomorrow := by
  obtain ⟨schedOf, hsched, hevents⟩ := parseScheduleForQueue_eq queue hpayload hmetadata htimestamps
  rw [parseEvents_eq rest htoday htomorrow hmap hmap'] at hsched
  have hmem (ev : ScheduleEvent)
      : ev ∈ sortEvents (eventsOfMap env date today ++
          eventsOfMap env (date + 1) (parsedTomorrow tomorrowTs tomorrow)) ↔ _ := mem_sortEvents
  have hiff : ShowsMaps env offsetAt rawData queue date today tomorrow ↔
      hourlyRow (parsedTomorrow tomorrowTs tomorrow) = hourlyRow tomorrow ∧
        ReadsMarked env offsetAt date today ∧
        ReadsMarked env offsetAt (date + 1) (parsedTomorrow tomorrowTs tomorrow) := by
    unfold ShowsMaps
    rw [hsched, readsMarked_iff hdst, readsMarked_iff hdst']
    by_cases hcalendar : EndsInCalendar date today ∧
        EndsInCalendar (date + 1) (parsedTomorrow tomorrowTs tomorrow)
    . rw [if_pos hcalendar]
      simp only [Option.map_some, Option.some.injEq, exists_eq_left', hevents, dayRows_iff hdst hdst' hmem,
        mem_sortEvents, List.mem_append, true_and, hcalendar.1, hcalendar.2]
      constructor
      . rintro ⟨hread, hrow⟩
        exact ⟨hrow, fun ev hev => hread ev (.inl hev), fun ev hev => hread ev (.inr hev)⟩
      . rintro ⟨hrow, hread, hread'⟩
        exact ⟨fun ev hev => hev.elim (hread ev) (hread' ev), hrow⟩
    . rw [if_neg hcalendar]
      apply iff_of_false
      . rintro ⟨_, hnone, _⟩
        cases hnone
      . rintro ⟨_, hread, hread'⟩
        exact hcalendar ⟨hread.1, hread'.1⟩
  rw [hiff]
  unfold parsedTomorrow
  split
  . next hne => exact and_congr_left' (iff_of_true rfl (.inl hne))
  . next hzero =>
    rw [hourlyRow_nil_eq_iff, or_iff_right hzero]
    apply and_congr_right
    intro hon
    apply and_congr_right'
    exact iff_of_true (fun i _ hmarked => absurd rfl hmarked) (readsMarked_of_allOn hon)

def payloadWith (todayTs tomorrowTs : String) (today tomorrow : List (String × Json)) : Json :=
  .obj [("fact", .obj [("data", .obj [
    (todayTs, .obj [("GPV1.1", .obj today)]),
    (tomorrowTs, .obj [("GPV1.1", .obj tomorrow)])])])]

def fixedEnv (offset : Int) (texts : List (String × Int)) : ParseEnv where
  int text := texts.lookup text
  fromtimestamp ts := some ((ts + offset) / 86400)
  utcOffset _ _ := offset
  normalizeDtekUpdatedAt _ := some none

theorem noDstChange_fixedEnv (offset : Int) (texts : List (String × Int)) (date : Int)
    : NoDstChange (fixedEnv offset texts) (fun _ => offset) date offset where
  wall _ _ := rfl
  midnight := rfl
  instant _ _ _ := rfl
  notBack := Int.le_refl offset

def januaryEnv : ParseEnv :=
  fixedEnv 7200 [("1768168800", 1768168800), ("1768255200", 1768255200)]

def januaryToday : List (String × Json) := [("24", .str "no"), ("13", .str "msecond")]

def januaryTomorrow : List (String × Json) := [("1", .str "maybe"), ("2", .str "nonsense")]

theorem showsMaps_iff_january
    : ShowsMaps januaryEnv (fun _ => 7200)
        (payloadWith "1768168800" "1768255200" januaryToday januaryTomorrow) "1.1" 20465 januaryToday
        januaryTomorrow := by
  have htimestamps : timestampsOf januaryEnv [
      ("1768168800", .obj [("GPV1.1", .obj januaryToday)]),
      ("1768255200", .obj [("GPV1.1", .obj januaryTomorrow)])] = some [1768168800, 1768255200] := by
    decide +kernel
  have hmap : HourlyMap [
      ("1768168800", .obj [("GPV1.1", .obj januaryToday)]),
      ("1768255200", .obj [("GPV1.1", .obj januaryTomorrow)])] 1768168800 ("GPV" ++ "1.1")
        januaryToday := ⟨_, rfl, rfl⟩
  have hmap' : HourlyMap [
      ("1768168800", .obj [("GPV1.1", .obj januaryToday)]),
      ("1768255200", .obj [("GPV1.1", .obj januaryTomorrow)])] 1768255200 ("GPV" ++ "1.1")
        januaryTomorrow := ⟨_, rfl, rfl⟩
  refine (showsMaps_iff rfl rfl htimestamps rfl rfl hmap hmap' (noDstChange_fixedEnv 7200 _ 20465)
    (noDstChange_fixedEnv 7200 _ 20466)).mpr ⟨?_, ?_, ?_⟩
  . decide
  . decide +kernel
  . decide +kernel

def epochEnv : ParseEnv := fixedEnv 10800 [("-86400", -86400), ("0", 0)]

def epochPayload : Json := payloadWith "-86400" "0" [("1", .str "no")] [("1", .str "no")]

theorem not_showsMaps_epochPayload
    : payloadOf epochPayload ≠ none ∧
        ¬ ShowsMaps epochEnv (fun _ => 10800) epochPayload "1.1" (-1) [("1", .str "no")]
          [("1", .str "no")] := by
  refine ⟨nofun, ?_⟩
  rintro ⟨sched, hsched, _, hrow⟩
  have hon : (parseScheduleForQueue epochEnv epochPayload "1.1").map
      (fun sched => dayRow (fun _ => 10800) sched.events ((-1 + 1) * dayUs)) =
        some (some (List.replicate 24 .on)) := by
    decide +kernel
  rw [hsched, Option.map_some, hrow] at hon
  revert hon
  decide +kernel

end Scheduler
