import Mathlib.Data.List.Sort
import VoltykBot.Lib.Checked
import VoltykBot.Schedule.Events

/-!
This module contains `parse_schedule_for_queue`: the hourly maps of the two first days of a payload
become the events of a schedule.
-/

namespace Scheduler

/--
A value that `json.loads` returns. A float is given by its decimal mantissa and exponent; the keys of a
dict are unique.
-/
inductive Json where
  | null
  | bool (b : Bool)
  | int (n : Int)
  | float (mantissa exponent : Int)
  | str (s : String)
  | arr (items : List Json)
  | obj (fields : List (String × Json))

namespace Json

def truthy (j : Json) : Bool :=
  match j with
  | .null => false
  | .bool b => b
  | .int n => n ≠ 0
  | .float mantissa _ => mantissa ≠ 0
  | .str s => s ≠ ""
  | .arr items => !items.isEmpty
  | .obj fields => !fields.isEmpty

def nonemptyFields (j : Json) : Option (List (String × Json)) :=
  match j with
  | .obj [] => none
  | .obj fields => some fields
  | _ => none

def get (j : Json) (key : String) : Option (Option Json) :=
  -- raises unless `j` is a dict
  match j with
  | .obj fields => some (fields.lookup key)
  | _ => none

end Json

structure Period where
  start : Nat
  endAt : Nat
  deriving DecidableEq, Repr

def addOrExtend (periods : List Period) (start endAt : Nat) : List Period :=
  match periods.getLast? with
  | some last =>
    if last.endAt = start then
      periods.dropLast ++ [{ last with endAt := endAt }]
    else
      periods ++ [{ start := start, endAt := endAt }]
  | none => [{ start := start, endAt := endAt }]

def addOutagePeriod (periods : List Period) (hour : Nat) (value : String) : List Period :=
  -- hour 14 is the one from 13:00 to 14:00
  if value = "no" ∨ value = "maybe" then
    addOrExtend periods (2 * (hour - 1)) (2 * hour)
  else if value = "first" ∨ value = "mfirst" then
    addOrExtend periods (2 * (hour - 1)) (2 * hour - 1)
  else if value = "second" ∨ value = "msecond" then
    addOrExtend periods (2 * hour - 1) (2 * hour)
  else
    periods

def mergeConsecutive (periods : List Period) : List Period :=
  periods.foldl (fun merged p => addOrExtend merged p.start p.endAt) []

/--
One turn of the loop of `_parse_hourly_schedule`. The keys of a JSON object are texts, so that the lookup
of the hour as a number finds nothing.
-/
def parseHour (hourlyData : List (String × Json)) (periods : List Period × List Period) (hour : Nat)
    : List Period × List Period :=
  match hourlyData.lookup (toString hour) with
  | some (.str value) =>
    if value ∈ ["no", "first", "second"] then
      (addOutagePeriod periods.1 hour value, periods.2)
    else if value ∈ ["maybe", "mfirst", "msecond"] then
      (periods.1, addOutagePeriod periods.2 hour value)
    else
      periods
  | _ => periods

def parseHourlySchedule (hourlyData : List (String × Json)) : List Period × List Period :=
  let periods := (List.range' 1 24).foldl (parseHour hourlyData) ([], [])
  (mergeConsecutive periods.1, mergeConsecutive periods.2)

/--
What the parser takes from its surroundings: `int` of a text, the Kyiv zone (the day that a timestamp
falls on, and the offset that a wall clock time has) and `_normalize_dtek_updated_at`. Where the outer
option is `none`, the call raises.
-/
structure ParseEnv where
  int : String → Option Int
  fromtimestamp : Int → Option Date
  utcOffset : Date → Nat → Int
  normalizeDtekUpdatedAt : Json → Option (Option String)

variable (env : ParseEnv)

/--
9999-12-31, the last day of `datetime`.
-/
def lastDate : Date := 2932896

def halfTime (date : Date) (half : Nat) : IsoTime where
  date := date
  half := half
  offset := env.utcOffset date half

def hourToDatetime (baseDate : Date) (half : Nat) : Option IsoTime :=
  -- hour 24 is the midnight of the next day, and raises where there is none
  if half < 48 then
    some (halfTime env baseDate half)
  else if baseDate < lastDate then
    some (halfTime env (baseDate + 1) (half - 48))
  else
    none

def eventOfPeriod (baseDate : Date) (isPossible : Bool) (p : Period) : Option ScheduleEvent := do
  let start ← hourToDatetime env baseDate p.start
  let endAt ← hourToDatetime env baseDate p.endAt
  some { start := start, endAt := endAt, isPossible := isPossible }

def dayEvents (factData : List (String × Json)) (ts : Int) (queueKey : String)
    : Option (List ScheduleEvent) := do
  let schedule ← ((factData.lookup (toString ts)).getD (.obj [])).get queueKey
  let schedule := schedule.getD .null
  if schedule.truthy then
    let date ← env.fromtimestamp ts
    match schedule with
    | .obj hourlyData =>
      let periods := parseHourlySchedule hourlyData
      let planned ← periods.1.mapM (eventOfPeriod env date false)
      let possible ← periods.2.mapM (eventOfPeriod env date true)
      some (planned ++ possible)
    | _ => none
  else
    some []

def candidateKeys : List String := [
  "update", "updated", "updated_at", "updatedAt", "last_update", "lastUpdated", "last_updated_at",
  "generated_at", "generatedAt", "timestamp", "ts"]

def nestedContainers : List String := [
  "meta", "metadata", "info", "header", "source", "mirror", "attrs", "timestamps", "payload", "result"]

def iterCandidates (container : List (String × Json)) : List Json :=
  candidateKeys.filterMap (container.lookup ·) ++
    nestedContainers.flatMap fun nested =>
      match container.lookup nested with
      | some (.obj fields) => candidateKeys.filterMap (fields.lookup ·)
      | _ => []

def extractDtekUpdatedAt (candidates : List Json) : Option (Option String) :=
  match candidates with
  | [] => some none
  | candidate :: rest =>
    match env.normalizeDtekUpdatedAt candidate with
    | none => none
    | some none => extractDtekUpdatedAt rest
    | some (some normalized) => some (some normalized)

def IsoTime.le (a b : IsoTime) : Bool :=
  -- `sort` compares the texts of the starts
  a.date < b.date ∨ (a.date = b.date ∧
    (a.half < b.half ∨ (a.half = b.half ∧ a.offset ≤ b.offset)))

def noData (queue : String) : Sched where
  hasData := false
  events := []
  queue := queue
  dtekUpdatedAt := none

def sortEvents (events : List ScheduleEvent) : List ScheduleEvent :=
  events.insertionSort fun a b => a.start.le b.start = true

/--
The events of the two first timestamps. A second timestamp that is 0 counts as absent.
-/
def parseEvents (factData : List (String × Json)) (timestamps : List Int) (queueKey : String)
    : Option (List ScheduleEvent) :=
  match timestamps with
  | [] => some []
  | [todayTs] => dayEvents env factData todayTs queueKey
  | todayTs :: tomorrowTs :: _ => do
    let today ← dayEvents env factData todayTs queueKey
    if tomorrowTs ≠ 0 then
      let tomorrow ← dayEvents env factData tomorrowTs queueKey
      some (today ++ tomorrow)
    else
      some today

def timestampsOf (factData : List (String × Json)) : Option (List Int) := do
  -- `sorted(int(ts) for ts in fact_data.keys())`
  let timestamps ← factData.mapM fun field => env.int field.1
  some (timestamps.insertionSort (· ≤ ·))

structure Payload where
  raw : List (String × Json)
  fact : List (String × Json)
  factData : List (String × Json)

def payloadOf (rawData : Json) : Option Payload := do
  let raw ← rawData.nonemptyFields
  let fact ← ((raw.lookup "fact").getD .null).nonemptyFields
  let factData ← ((fact.lookup "data").getD .null).nonemptyFields
  some { raw := raw, fact := fact, factData := factData }

/--
`parse_schedule_for_queue`; `none` where the source raises.
-/
def parseScheduleForQueue (rawData : Json) (queue : String) : Option Sched :=
  match payloadOf rawData with
  | none => some (noData queue)
  | some payload => do
    let timestamps ← timestampsOf env payload.factData
    let events ← parseEvents env payload.factData timestamps ("GPV" ++ queue)
    let events := sortEvents events
    let dtekUpdatedAt ←
      extractDtekUpdatedAt env (iterCandidates payload.fact ++ iterCandidates payload.raw)
    some {
      hasData := !events.isEmpty
      events := events
      queue := queue
      dtekUpdatedAt := dtekUpdatedAt }

def startsOf (periods : List Period) : List Nat := periods.map (·.start)

theorem startsOf_addOrExtend (periods : List Period) (start endAt : Nat)
    : startsOf (addOrExtend periods start endAt) = startsOf periods ∨
      startsOf (addOrExtend periods start endAt) = startsOf periods ++ [start] := by
  unfold addOrExtend startsOf
  split
  . next last hlast =>
    split
    . left
      have hsplit : periods.dropLast ++ [last] = periods := List.dropLast_append_getLast? last hlast
      conv_rhs => rw [← hsplit]
      simp only [List.map_append, List.map_cons, List.map_nil]
    . right
      simp only [List.map_append, List.map_cons, List.map_nil]
  . next hlast =>
    right
    rw [List.getLast?_eq_none_iff] at hlast
    rw [hlast]
    rfl

theorem startsOf_mergeConsecutive (periods : List Period)
    : (startsOf (mergeConsecutive periods)).Sublist (startsOf periods) := by
  unfold mergeConsecutive
  suffices h : ∀ merged, (startsOf (periods.foldl
      (fun merged p => addOrExtend merged p.start p.endAt) merged)).Sublist
        (startsOf merged ++ startsOf periods) by
    exact h []
  induction periods with
  | nil =>
    intro merged
    rw [List.foldl_nil, startsOf, startsOf, List.map_nil, List.append_nil]
  | cons p periods ih =>
    intro merged
    rw [List.foldl_cons]
    refine (ih _).trans ?_
    cases startsOf_addOrExtend merged p.start p.endAt with
    | inl hsame =>
      rw [hsame]
      exact (List.sublist_cons_self p.start (startsOf periods)).append_left (startsOf merged)
    | inr hnew =>
      rw [hnew, List.append_assoc]
      exact List.Sublist.refl _

structure StartsBefore (n : Nat) (periods : List Period × List Period) : Prop where
  lt : ∀ start ∈ startsOf periods.1 ++ startsOf periods.2, start < n
  nodup : (startsOf periods.1 ++ startsOf periods.2).Nodup

theorem StartsBefore.mono {n n' : Nat} {periods : List Period × List Period}
    (h : StartsBefore n periods) (hle : n ≤ n') : StartsBefore n' periods where
  lt start hstart := Nat.lt_of_lt_of_le (h.lt start hstart) hle
  nodup := h.nodup

theorem StartsBefore.of_starts {n n' start : Nat} {periods periods' : List Period × List Period}
    (h : StartsBefore n periods) (hn : n ≤ start) (hn' : start < n')
    (hperm : (startsOf periods'.1 ++ startsOf periods'.2).Perm
      (start :: (startsOf periods.1 ++ startsOf periods.2)))
    : StartsBefore n' periods' := by
  constructor
  . intro start' hstart'
    cases List.mem_cons.mp (hperm.subset hstart') with
    | inl heq => omega
    | inr hold =>
      have hlt := h.lt start' hold
      omega
  . apply hperm.nodup_iff.mpr
    rw [List.nodup_cons]
    refine ⟨?_, h.nodup⟩
    intro hmem
    have hlt := h.lt start hmem
    omega

theorem StartsBefore.addPlanned {n n' start endAt : Nat} {periods : List Period × List Period}
    (h : StartsBefore n periods) (hn : n ≤ start) (hn' : start < n')
    : StartsBefore n' (addOrExtend periods.1 start endAt, periods.2) := by
  cases startsOf_addOrExtend periods.1 start endAt with
  | inl hsame =>
    have hsame' : StartsBefore n (addOrExtend periods.1 start endAt, periods.2) :=
      ⟨hsame ▸ h.lt, hsame ▸ h.nodup⟩
    apply hsame'.mono
    omega
  | inr hnew =>
    apply h.of_starts hn hn'
    dsimp only
    rw [hnew, List.append_assoc]
    exact List.perm_middle

theorem StartsBefore.swap {n : Nat} {planned possible : List Period}
    (h : StartsBefore n (planned, possible)) : StartsBefore n (possible, planned) where
  lt start hstart := h.lt start (List.perm_append_comm.subset hstart)
  nodup := (List.perm_append_comm.nodup_iff).mp h.nodup

theorem StartsBefore.addOutagePeriod {hour : Nat} {periods : List Period × List Period}
    (h : StartsBefore (2 * hour) periods) (value : String)
    : StartsBefore (2 * (hour + 1)) (addOutagePeriod periods.1 (hour + 1) value, periods.2) := by
  unfold Scheduler.addOutagePeriod
  split
  . apply h.addPlanned <;> omega
  . split
    . apply h.addPlanned <;> omega
    . split
      . apply h.addPlanned <;> omega
      . apply h.mono
        omega

theorem startsBefore_parseHour (hourlyData : List (String × Json)) {hour : Nat}
    {periods : List Period × List Period} (h : StartsBefore (2 * hour) periods)
    : StartsBefore (2 * (hour + 1)) (parseHour hourlyData periods (hour + 1)) := by
  have hmono : StartsBefore (2 * (hour + 1)) periods := by
    apply h.mono
    omega
  unfold parseHour
  split
  . split
    . exact h.addOutagePeriod _
    . split
      . exact (h.swap.addOutagePeriod _).swap
      . exact hmono
  . exact hmono

theorem startsBefore_foldl_parseHour (hourlyData : List (String × Json)) (len : Nat)
    {hour : Nat} {periods : List Period × List Period} (h : StartsBefore (2 * hour) periods)
    : StartsBefore (2 * (hour + len))
        ((List.range' (hour + 1) len).foldl (parseHour hourlyData) periods) := by
  induction len generalizing hour periods with
  | zero => exact h
  | succ len ih =>
    rw [List.range'_succ, List.foldl_cons]
    have htail := ih (startsBefore_parseHour hourlyData h)
    rwa [Nat.add_assoc, Nat.add_comm 1 len] at htail

theorem startsBefore_parseHourlySchedule (hourlyData : List (String × Json))
    : StartsBefore 48 (parseHourlySchedule hourlyData) := by
  have hstart : StartsBefore (2 * 0) ([], []) := ⟨nofun, List.nodup_nil⟩
  have hfold := startsBefore_foldl_parseHour hourlyData 24 hstart
  unfold parseHourlySchedule
  dsimp only
  have hsub := (startsOf_mergeConsecutive
    ((List.range' 1 24).foldl (parseHour hourlyData) ([], [])).1).append
      (startsOf_mergeConsecutive ((List.range' 1 24).foldl (parseHour hourlyData) ([], [])).2)
  exact ⟨fun start hstart => hfold.lt start (hsub.subset hstart), hfold.nodup.sublist hsub⟩

def timeOfHalf (baseDate : Date) (half : Nat) : IsoTime :=
  if half < 48 then halfTime env baseDate half else halfTime env (baseDate + 1) (half - 48)

def periodEvent (baseDate : Date) (isPossible : Bool) (p : Period) : ScheduleEvent where
  start := timeOfHalf env baseDate p.start
  endAt := timeOfHalf env baseDate p.endAt
  isPossible := isPossible

def eventsOfMap (date : Date) (hourlyData : List (String × Json)) : List ScheduleEvent :=
  let periods := parseHourlySchedule hourlyData
  periods.1.map (periodEvent env date false) ++ periods.2.map (periodEvent env date true)

variable {env}

theorem hourToDatetime_eq (baseDate : Date) (half : Nat)
    : hourToDatetime env baseDate half =
        if half < 48 ∨ baseDate < lastDate then some (timeOfHalf env baseDate half) else none := by
  unfold hourToDatetime timeOfHalf
  by_cases hhalf : half < 48
  . simp [hhalf]
  . simp [hhalf]

theorem eventOfPeriod_eq {baseDate : Date} {isPossible : Bool} {p : Period} (hstart : p.start < 48)
    : eventOfPeriod env baseDate isPossible p =
        if p.endAt < 48 ∨ baseDate < lastDate then some (periodEvent env baseDate isPossible p)
        else none := by
  unfold eventOfPeriod
  rw [hourToDatetime_eq, hourToDatetime_eq, if_pos (.inl hstart)]
  split <;> rfl

theorem mapM_eventOfPeriod {baseDate : Date} {isPossible : Bool} {periods : List Period}
    (hstart : ∀ p ∈ periods, p.start < 48)
    : periods.mapM (eventOfPeriod env baseDate isPossible) =
        if ∀ p ∈ periods, p.endAt < 48 ∨ baseDate < lastDate then
          some (periods.map (periodEvent env baseDate isPossible))
        else
          none :=
  Checked.mapM_of_guard fun p hp => eventOfPeriod_eq (hstart p hp)

theorem start_of_mem_periods (hourlyData : List (String × Json))
    : (∀ p ∈ (parseHourlySchedule hourlyData).1, p.start < 48) ∧
        ∀ p ∈ (parseHourlySchedule hourlyData).2, p.start < 48 := by
  have hlt := (startsBefore_parseHourlySchedule hourlyData).lt
  constructor
  . intro p hp
    exact hlt _ (List.mem_append_left _ (List.mem_map_of_mem hp))
  . intro p hp
    exact hlt _ (List.mem_append_right _ (List.mem_map_of_mem hp))

theorem start_periodEvent {baseDate : Date} {isPossible : Bool} {p : Period} (h : p.start < 48)
    : (periodEvent env baseDate isPossible p).start = halfTime env baseDate p.start := by
  unfold periodEvent timeOfHalf
  rw [if_pos h]

theorem start_of_mem_eventsOfMap {date : Date} {hourlyData : List (String × Json)} {ev : ScheduleEvent}
    (h : ev ∈ eventsOfMap env date hourlyData) : ∃ half < 48, ev.start = halfTime env date half := by
  cases List.mem_append.mp h with
  | inl h =>
    obtain ⟨p, hp, rfl⟩ := List.mem_map.mp h
    have hstart := (start_of_mem_periods _).1 p hp
    exact ⟨p.start, hstart, start_periodEvent hstart⟩
  | inr h =>
    obtain ⟨p, hp, rfl⟩ := List.mem_map.mp h
    have hstart := (start_of_mem_periods _).2 p hp
    exact ⟨p.start, hstart, start_periodEvent hstart⟩

theorem keysUnique_eventsOfMap (date : Date) (hourlyData : List (String × Json))
    : KeysUnique (eventsOfMap env date hourlyData) := by
  have hnodup := (startsBefore_parseHourlySchedule hourlyData).nodup
  have hstarts := start_of_mem_periods hourlyData
  unfold eventsOfMap
  generalize parseHourlySchedule hourlyData = periods at hnodup hstarts
  have hhalf : (periods.1.map (periodEvent env date false) ++
      periods.2.map (periodEvent env date true)).map (·.start.half) =
        startsOf periods.1 ++ startsOf periods.2 := by
    rw [List.map_append, List.map_map, List.map_map, startsOf, startsOf]
    congr 1
    . apply List.map_congr_left
      intro p hp
      dsimp only [Function.comp]
      rw [start_periodEvent (hstarts.1 p hp), halfTime]
    . apply List.map_congr_left
      intro p hp
      dsimp only [Function.comp]
      rw [start_periodEvent (hstarts.2 p hp), halfTime]
  rw [← hhalf] at hnodup
  apply List.Nodup.of_map (fun key => key.1.half)
  rw [List.map_map]
  exact hnodup

theorem dayEvents_cases {factData : List (String × Json)} {ts : Int} {queueKey : String}
    {events : List ScheduleEvent} (h : dayEvents env factData ts queueKey = some events)
    : events = [] ∨ ∃ date hourlyData, env.fromtimestamp ts = some date ∧
        events = eventsOfMap env date hourlyData := by
  simp only [dayEvents, Option.bind_eq_bind, Option.bind_eq_some_iff] at h
  obtain ⟨schedule, _, h⟩ := h
  split at h
  . rw [Option.bind_eq_some_iff] at h
    obtain ⟨date, hdate, h⟩ := h
    split at h
    . next hourlyData _ =>
      rw [mapM_eventOfPeriod (start_of_mem_periods _).1,
        mapM_eventOfPeriod (start_of_mem_periods _).2] at h
      right
      refine ⟨date, hourlyData, hdate, ?_⟩
      split at h
      . split at h
        . cases h
          rfl
        . cases h
      . cases h
    . cases h
  . cases h
    exact .inl rfl

theorem keysUnique_dayEvents {factData : List (String × Json)} {ts : Int} {queueKey : String}
    {events : List ScheduleEvent} (h : dayEvents env factData ts queueKey = some events)
    : KeysUnique events ∧ ∀ ev ∈ events, env.fromtimestamp ts = some ev.start.date := by
  rcases dayEvents_cases h with rfl | ⟨date, hourlyData, hdate, rfl⟩
  . exact ⟨List.nodup_nil, nofun⟩
  . refine ⟨keysUnique_eventsOfMap date hourlyData, ?_⟩
    intro ev hev
    obtain ⟨half, _, hstart⟩ := start_of_mem_eventsOfMap hev
    rw [hdate, hstart, halfTime]

variable (env) in
/--
The two smallest timestamps of the payload fall on different days.
-/
def DistinctDays (rawData : Json) : Prop :=
  ∀ payload, payloadOf rawData = some payload →
    ∀ todayTs tomorrowTs rest,
      timestampsOf env payload.factData = some (todayTs :: tomorrowTs :: rest) →
        ∀ date, env.fromtimestamp todayTs = some date → env.fromtimestamp tomorrowTs ≠ some date

theorem keysUnique_parseEvents {factData : List (String × Json)} {timestamps : List Int}
    {queueKey : String} {events : List ScheduleEvent}
    (hdays : ∀ todayTs tomorrowTs rest, timestamps = todayTs :: tomorrowTs :: rest →
      ∀ date, env.fromtimestamp todayTs = some date → env.fromtimestamp tomorrowTs ≠ some date)
    (h : parseEvents env factData timestamps queueKey = some events) : KeysUnique events := by
  unfold parseEvents at h
  split at h
  . cases h
    exact List.nodup_nil
  . exact (keysUnique_dayEvents h).1
  . next todayTs tomorrowTs rest =>
    simp only [Option.bind_eq_bind, Option.bind_eq_some_iff] at h
    obtain ⟨today, htoday, h⟩ := h
    obtain ⟨hunique, hdate⟩ := keysUnique_dayEvents htoday
    split at h
    . rw [Option.bind_eq_some_iff] at h
      obtain ⟨tomorrow, htomorrow, h⟩ := h
      obtain ⟨hunique', hdate'⟩ := keysUnique_dayEvents htomorrow
      cases h
      unfold KeysUnique
      rw [List.map_append, List.nodup_append]
      refine ⟨hunique, hunique', ?_⟩
      intro key hkey key' hkey' heq
      obtain ⟨ev, hev, rfl⟩ := List.mem_map.mp hkey
      obtain ⟨ev', hev', rfl⟩ := List.mem_map.mp hkey'
      apply key_ne_of_date _ heq
      intro hsame
      apply hdays todayTs tomorrowTs rest rfl _ (hdate ev hev)
      rw [hsame]
      exact hdate' ev' hev'
    . cases h
      exact hunique

theorem keysUnique_parseScheduleForQueue {rawData : Json} {queue : String} {sched : Sched}
    (hdays : DistinctDays env rawData) (h : parseScheduleForQueue env rawData queue = some sched)
    : KeysUnique sched.events := by
  unfold parseScheduleForQueue at h
  split at h
  . cases h
    exact List.nodup_nil
  . next payload hpayload =>
    simp only [Option.bind_eq_bind, Option.bind_eq_some_iff] at h
    obtain ⟨timestamps, htimestamps, events, hevents, _, _, h⟩ := h
    cases h
    have hunique := keysUnique_parseEvents
      (fun todayTs tomorrowTs rest heq => hdays payload hpayload todayTs tomorrowTs rest (heq ▸ htimestamps))
      hevents
    exact ((List.perm_insertionSort _ events).map _).nodup_iff.mpr hunique

end Scheduler
