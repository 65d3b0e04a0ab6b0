import VoltykBot.Schedule.Stamp

/-!
This module contains what `parse_schedule_for_queue` owes to the metadata of a payload: the events do not
depend on it, and whether the parser returns does.
-/

namespace Scheduler

theorem lookup_filter {β : Type} (keep : String → Bool) (fields : List (String × β)) (key : String)
    : (fields.filter fun field => keep field.1).lookup key =
        if keep key then fields.lookup key else none := by
  induction fields with
  | nil => simp
  | cons field fields ih =>
    obtain ⟨key', value⟩ := field
    by_cases hkey : key = key'
    . subst hkey
      cases hkeep : keep key <;> simp [hkeep, ih]
    . have hne : (key == key') = false := beq_eq_false_iff_ne.mpr hkey
      cases hkeep : keep key' <;> simp [hkeep, ih, List.lookup_cons, hne]

theorem lookup_map_value {β γ : Type} (f : String → β → γ) (fields : List (String × β)) (key : String)
    : (fields.map fun field => (field.1, f field.1 field.2)).lookup key = (fields.lookup key).map (f key) := by
  induction fields with
  | nil => rfl
  | cons field fields ih =>
    obtain ⟨key', value⟩ := field
    rw [List.map_cons, List.lookup_cons, List.lookup_cons, ih]
    by_cases hkey : key = key'
    . subst hkey
      simp
    . simp [beq_eq_false_iff_ne.mpr hkey]

def Json.mapFields (f : List (String × Json) → List (String × Json)) (j : Json) : Json :=
  match j with
  | .obj fields => .obj (f fields)
  | j => j

def removeKeys (fields : List (String × Json)) : List (String × Json) :=
  fields.filter fun field => field.1 ∉ candidateKeys

/--
A container without its update timestamps and without those of its nested containers
-/
def removeStamps (container : List (String × Json)) : List (String × Json) :=
  (removeKeys container).map fun field =>
    (field.1, if field.1 ∈ nestedContainers then field.2.mapFields removeKeys else field.2)

def withoutStamps (rawData : Json) : Json :=
  rawData.mapFields fun raw =>
    (removeStamps raw).map fun field =>
      (field.1, if field.1 = "fact" then field.2.mapFields removeStamps else field.2)

theorem lookup_removeKeys (fields : List (String × Json)) (key : String)
    : (removeKeys fields).lookup key = if key ∈ candidateKeys then none else fields.lookup key := by
  unfold removeKeys
  rw [lookup_filter (fun key => decide (key ∉ candidateKeys))]
  by_cases hkey : key ∈ candidateKeys <;> simp [hkey]

theorem lookup_removeStamps (container : List (String × Json)) (key : String)
    : (removeStamps container).lookup key =
        if key ∈ candidateKeys then
          none
        else if key ∈ nestedContainers then
          (container.lookup key).map (Json.mapFields removeKeys)
        else
          container.lookup key := by
  unfold removeStamps
  rw [lookup_map_value fun key (value : Json) =>
    if key ∈ nestedContainers then value.mapFields removeKeys else value, lookup_removeKeys]
  by_cases hcandidate : key ∈ candidateKeys
  . rw [if_pos hcandidate, if_pos hcandidate]
    rfl
  . rw [if_neg hcandidate, if_neg hcandidate]
    by_cases hnested : key ∈ nestedContainers
    . simp only [if_pos hnested]
    . simp only [if_neg hnested]
      exact Option.map_id'

theorem candidates_eq_nil {fields : List (String × Json)}
    (h : ∀ key ∈ candidateKeys, fields.lookup key = none)
    : candidateKeys.filterMap (fields.lookup ·) = [] := by
  rw [List.filterMap_eq_nil_iff]
  exact h

theorem iterCandidates_congr {container container' : List (String × Json)}
    (h : ∀ key ∈ candidateKeys ++ nestedContainers, container.lookup key = container'.lookup key)
    : iterCandidates container = iterCandidates container' := by
  unfold iterCandidates
  congr 1
  . apply List.filterMap_congr
    intro key hkey
    exact h key (List.mem_append_left _ hkey)
  . apply List.flatMap_congr
    intro nested hnested
    rw [h nested (List.mem_append_right _ hnested)]

theorem iterCandidates_removeStamps (container : List (String × Json))
    : iterCandidates (removeStamps container) = [] := by
  unfold iterCandidates
  rw [List.append_eq_nil_iff]
  constructor
  . apply candidates_eq_nil
    intro key hkey
    rw [lookup_removeStamps, if_pos hkey]
  . rw [List.flatMap_eq_nil_iff]
    intro nested hnested
    have hkey : nested ∉ candidateKeys := by
      revert nested
      decide
    rw [lookup_removeStamps, if_neg hkey, if_pos hnested]
    cases container.lookup nested with
    | none => rfl
    | some value =>
      cases value with
      | obj fields =>
        apply candidates_eq_nil
        intro key hkey
        rw [lookup_removeKeys, if_pos hkey]
      | _ => rfl

theorem nonemptyFields_eq_some_iff {j : Json} {fields : List (String × Json)}
    : j.nonemptyFields = some fields ↔ j = .obj fields ∧ fields ≠ [] := by
  unfold Json.nonemptyFields
  split
  . simp only [reduceCtorEq, Json.obj.injEq, false_iff, not_and]
    rintro rfl
    exact fun hne => hne rfl
  . next fields' hne =>
    rw [Option.some.injEq, Json.obj.injEq]
    refine ⟨?_, fun h => h.1⟩
    rintro rfl
    refine ⟨rfl, ?_⟩
    rintro rfl
    exact hne rfl
  . next _ hne =>
    apply iff_of_false
    . exact nofun
    . rintro ⟨rfl, hfields⟩
      exact hne fields rfl

theorem ne_nil_of_lookup {fields : List (String × Json)} {key : String} {value : Json}
    (h : fields.lookup key = some value) : fields ≠ [] := by
  rintro rfl
  cases h

theorem payloadOf_eq_some_iff {rawData : Json} {payload : Payload}
    : payloadOf rawData = some payload ↔
        rawData = .obj payload.raw ∧ payload.raw.lookup "fact" = some (.obj payload.fact) ∧
          payload.fact.lookup "data" = some (.obj payload.factData) ∧ payload.factData ≠ [] := by
  have hget {fields fields' : List (String × Json)} {key : String}
      : ((fields.lookup key).getD .null).nonemptyFields = some fields' ↔
          fields.lookup key = some (.obj fields') ∧ fields' ≠ [] := by
    rw [nonemptyFields_eq_some_iff]
    cases fields.lookup key with
    | none => simp
    | some value => simp
  unfold payloadOf
  simp only [Option.bind_eq_bind, Option.bind_eq_some_iff, nonemptyFields_eq_some_iff, hget]
  constructor
  . rintro ⟨raw, ⟨rfl, _⟩, fact, ⟨hfact, _⟩, factData, ⟨hdata, hne⟩, heq⟩
    cases heq
    exact ⟨rfl, hfact, hdata, hne⟩
  . rintro ⟨rfl, hfact, hdata, hne⟩
    exact ⟨payload.raw, ⟨rfl, ne_nil_of_lookup hfact⟩, payload.fact, ⟨hfact, ne_nil_of_lookup hdata⟩,
      payload.factData, ⟨hdata, hne⟩, rfl⟩

theorem payloadOf_withoutStamps {rawData : Json} {payload : Payload}
    (h : payloadOf rawData = some payload)
    : ∃ stripped, payloadOf (withoutStamps rawData) = some stripped ∧
        stripped.factData = payload.factData ∧
        iterCandidates stripped.fact ++ iterCandidates stripped.raw = [] := by
  obtain ⟨rfl, hfact, hdata, hne⟩ := payloadOf_eq_some_iff.mp h
  have hlookup (key : String) := lookup_map_value
    (fun key value => if key = "fact" then Json.mapFields removeStamps value else value)
    (removeStamps payload.raw) key
  refine ⟨{ raw := _, fact := removeStamps payload.fact, factData := payload.factData },
    payloadOf_eq_some_iff.mpr ⟨rfl, ?_, ?_, hne⟩, rfl, ?_⟩
  . rw [hlookup, lookup_removeStamps, if_neg (by decide), if_neg (by decide), hfact]
    rfl
  . rw [lookup_removeStamps, if_neg (by decide), if_neg (by decide), hdata]
  . rw [iterCandidates_removeStamps, List.nil_append, ← iterCandidates_removeStamps payload.raw]
    apply iterCandidates_congr
    intro key hkey
    have hother : key ≠ "fact" := by
      rintro rfl
      revert hkey
      decide
    rw [hlookup]
    simp only [if_neg hother]
    exact Option.map_id'

variable {env : ParseEnv}

/--
The keys are timestamps of days, and each of them has a dict with hourly maps of the queues.
-/
structure WellFormedData (env : ParseEnv) (factData : List (String × Json)) (queueKey : String) : Prop where
  timestamps : ∀ field ∈ factData, ∃ ts, env.int field.1 = some ts
  days : ∀ ts, (∃ field ∈ factData, env.int field.1 = some ts) → ∃ date, env.fromtimestamp ts = some date
  maps : ∀ key value, factData.lookup key = some value → ∃ day, value = .obj day ∧
    ∀ schedule, day.lookup queueKey = some schedule → ∃ hourlyData, schedule = .obj hourlyData

theorem WellFormedData.timestampsOf {factData : List (String × Json)} {queueKey : String}
    (h : WellFormedData env factData queueKey)
    : ∃ timestamps, Scheduler.timestampsOf env factData = some timestamps ∧
        ∀ ts ∈ timestamps, ∃ date, env.fromtimestamp ts = some date := by
  have hread : ∀ fields : List (String × Json), (∀ field ∈ fields, field ∈ factData) →
      ∃ timestamps, (fields.mapM fun field => env.int field.1) = some timestamps ∧
        ∀ ts ∈ timestamps, ∃ field ∈ factData, env.int field.1 = some ts := by
    intro fields hsub
    induction fields with
    | nil => exact ⟨[], rfl, nofun⟩
    | cons field fields ih =>
      obtain ⟨ts, hts⟩ := h.timestamps field (hsub field List.mem_cons_self)
      obtain ⟨timestamps, htimestamps, hfrom⟩ :=
        ih fun field hfield => hsub field (List.mem_cons_of_mem _ hfield)
      refine ⟨ts :: timestamps, ?_, ?_⟩
      . rw [List.mapM_cons, hts, htimestamps]
        rfl
      . rw [List.forall_mem_cons]
        exact ⟨⟨field, hsub field List.mem_cons_self, hts⟩, hfrom⟩
  obtain ⟨timestamps, htimestamps, hfrom⟩ := hread factData fun _ hfield => hfield
  refine ⟨timestamps.insertionSort (· ≤ ·), ?_, ?_⟩
  . unfold Scheduler.timestampsOf
    rw [htimestamps]
    rfl
  . intro ts hts
    exact h.days ts (hfrom ts ((List.perm_insertionSort _ _).mem_iff.mp hts))

def parsedTimestamps (timestamps : List Int) : List Int :=
  match timestamps with
  | [] => []
  | [todayTs] => [todayTs]
  | todayTs :: tomorrowTs :: _ => if tomorrowTs ≠ 0 then [todayTs, tomorrowTs] else [todayTs]

def DataInCalendar (env : ParseEnv) (factData : List (String × Json)) (queueKey : String) : Prop :=
  ∀ timestamps, timestampsOf env factData = some timestamps → ∀ ts ∈ parsedTimestamps timestamps,
    ∀ date, env.fromtimestamp ts = some date →
      ∀ hourlyData, HourlyMap factData ts queueKey hourlyData → EndsInCalendar date hourlyData

theorem WellFormedData.dayEvents_isSome_iff {factData : List (String × Json)} {queueKey : String}
    (h : WellFormedData env factData queueKey) {ts : Int} {date : Date}
    (hdate : env.fromtimestamp ts = some date)
    : (dayEvents env factData ts queueKey).isSome ↔
        ∀ hourlyData, HourlyMap factData ts queueKey hourlyData → EndsInCalendar date hourlyData := by
  cases hlookup : factData.lookup (toString ts) with
  | none =>
    apply iff_of_true
    . unfold dayEvents
      rw [hlookup]
      rfl
    . rintro hourlyData ⟨day, hday, _⟩
      rw [hlookup] at hday
      cases hday
  | some value =>
    obtain ⟨day, rfl, hmaps⟩ := h.maps _ _ hlookup
    have hmap : ∃ hourlyData, HourlyMap factData ts queueKey hourlyData := by
      cases hschedule : day.lookup queueKey with
      | none => exact ⟨[], day, hlookup, by rw [hschedule]; rfl⟩
      | some schedule =>
        obtain ⟨hourlyData, rfl⟩ := hmaps schedule hschedule
        exact ⟨hourlyData, day, hlookup, by rw [hschedule]; rfl⟩
    obtain ⟨hourlyData, hmap⟩ := hmap
    have hunique : ∀ hourlyData', HourlyMap factData ts queueKey hourlyData' → hourlyData' = hourlyData := by
      rintro hourlyData' ⟨day', hday', heq'⟩
      obtain ⟨day, hday, heq⟩ := hmap
      rw [hday, Option.some.injEq, Json.obj.injEq] at hday'
      rw [← hday', heq, Json.obj.injEq] at heq'
      exact heq'.symm
    rw [dayEvents_of_hourlyMap hmap hdate]
    constructor
    . intro hsome hourlyData' hmap'
      rw [hunique hourlyData' hmap']
      split at hsome
      . assumption
      . cases hsome
    . intro hall
      rw [if_pos (hall hourlyData hmap)]
      rfl

theorem parseEvents_isSome_iff {factData : List (String × Json)} {timestamps : List Int}
    {queueKey : String}
    : (parseEvents env factData timestamps queueKey).isSome ↔
        ∀ ts ∈ parsedTimestamps timestamps, (dayEvents env factData ts queueKey).isSome := by
  unfold parseEvents parsedTimestamps
  match timestamps with
  | [] => simp
  | [todayTs] => simp
  | todayTs :: tomorrowTs :: rest =>
    dsimp only [Option.bind_eq_bind]
    cases htoday : dayEvents env factData todayTs queueKey with
    | none =>
      by_cases hts : tomorrowTs ≠ 0 <;> simp [hts, htoday]
    | some today =>
      by_cases hts : tomorrowTs ≠ 0
      . cases htomorrow : dayEvents env factData tomorrowTs queueKey <;> simp [hts, htoday, htomorrow]
      . simp [hts, htoday]

theorem parseScheduleForQueue_wellFormed {factData : List (String × Json)} {queue : String}
    (h : WellFormedData env factData ("GPV" ++ queue))
    : ∃ parsed : Option (List ScheduleEvent), (parsed.isSome ↔ DataInCalendar env factData ("GPV" ++ queue)) ∧
        ∀ rawData payload, payloadOf rawData = some payload → payload.factData = factData →
          parseScheduleForQueue env rawData queue = parsed.bind fun events =>
            (extractDtekUpdatedAt env (iterCandidates payload.fact ++ iterCandidates payload.raw)).map
              fun dtekUpdatedAt =>
                { hasData := !events.isEmpty, events := events, queue := queue,
                  dtekUpdatedAt := dtekUpdatedAt } := by
  obtain ⟨timestamps, htimestamps, hdates⟩ := h.timestampsOf
  refine ⟨(parseEvents env factData timestamps ("GPV" ++ queue)).map sortEvents, ?_, ?_⟩
  . rw [Option.isSome_map, parseEvents_isSome_iff]
    have hday {ts : Int} (hts : ts ∈ parsedTimestamps timestamps) : ∃ date, env.fromtimestamp ts = some date := by
      apply hdates
      unfold parsedTimestamps at hts
      split at hts
      . cases hts
      . exact hts
      . split at hts
        . simp only [List.mem_cons, List.not_mem_nil, or_false] at hts ⊢
          exact hts.imp id Or.inl
        . exact List.mem_cons.mpr (.inl (List.mem_singleton.mp hts))
    constructor
    . intro hsome timestamps' htimestamps' ts hts date hdate
      rw [htimestamps, Option.some.injEq] at htimestamps'
      subst htimestamps'
      exact (h.dayEvents_isSome_iff hdate).mp (hsome ts hts)
    . intro hcalendar ts hts
      obtain ⟨date, hdate⟩ := hday hts
      exact (h.dayEvents_isSome_iff hdate).mpr (hcalendar timestamps htimestamps ts hts date hdate)
  . rintro rawData payload hpayload rfl
    unfold parseScheduleForQueue
    rw [hpayload]
    dsimp only [Option.bind_eq_bind]
    rw [htimestamps, Option.bind_some]
    cases parseEvents env payload.factData timestamps ("GPV" ++ queue) with
    | none => rfl
    | some events =>
      cases extractDtekUpdatedAt env (iterCandidates payload.fact ++ iterCandidates payload.raw) <;> rfl

/--
The parser returns, its events, `hasData` and `queue` are the ones of the payload without stamps, and the
update time has the format or is absent.
-/
def MetadataHarmless (env : ParseEnv) (rawData : Json) (queue : String) : Prop :=
  ∃ sched sched', parseScheduleForQueue env rawData queue = some sched ∧
    parseScheduleForQueue env (withoutStamps rawData) queue = some sched' ∧
    sched.events = sched'.events ∧ sched.hasData = sched'.hasData ∧ sched.queue = sched'.queue ∧
    ∀ text ∈ sched.dtekUpdatedAt, StampEnv.IsStamp text

/--
The metadata does no harm if and only if the first candidate that the normalizer does not ignore has a
date, and no outage ends with the calendar.
-/
theorem metadataHarmless_iff (z : StampEnv) {rawData : Json} {payload : Payload} {queue : String}
    (hpayload : payloadOf rawData = some payload)
    (hdata : WellFormedData env payload.factData ("GPV" ++ queue))
    : MetadataHarmless (z.parseEnv env) rawData queue
        ↔
      z.FirstStampIsDated (iterCandidates payload.fact ++ iterCandidates payload.raw) ∧
        DataInCalendar env payload.factData ("GPV" ++ queue) := by
  obtain ⟨stripped, hstripped, hsame, hnone⟩ := payloadOf_withoutStamps hpayload
  have hdata' : WellFormedData (z.parseEnv env) payload.factData ("GPV" ++ queue) :=
    ⟨hdata.timestamps, hdata.days, hdata.maps⟩
  obtain ⟨parsed, hcalendar, hparse⟩ := parseScheduleForQueue_wellFormed hdata'
  have hcalendar : parsed.isSome ↔ DataInCalendar env payload.factData ("GPV" ++ queue) := hcalendar
  rw [← StampEnv.extractDtekUpdatedAt_iff env, ← hcalendar]
  unfold MetadataHarmless
  rw [hparse _ _ hpayload rfl, hparse _ _ hstripped hsame, hnone]
  cases parsed with
  | none =>
    apply iff_of_false
    . rintro ⟨_, _, hsched, _⟩
      cases hsched
    . rintro ⟨_, hsome⟩
      cases hsome
  | some events =>
    rw [Option.bind_some, Option.bind_some, Option.isSome_some, and_iff_left rfl]
    constructor
    . rintro ⟨sched, _, hsched, _, _, _, _, hstamp⟩
      obtain ⟨dtekUpdatedAt, hextract, rfl⟩ := Option.map_eq_some_iff.mp hsched
      exact ⟨dtekUpdatedAt, hextract, hstamp⟩
    . rintro ⟨dtekUpdatedAt, hextract, hstamp⟩
      rw [hextract]
      exact ⟨_, _, rfl, rfl, rfl, rfl, rfl, hstamp⟩

def januaryData : List (String × Json) := [("1768168800", .obj [("GPV1.1", .obj januaryToday)])]

def payloadUpdated (fact raw : List (String × Json)) : Json :=
  .obj (("fact", .obj (("data", .obj januaryData) :: fact)) :: raw)

def januaryStamps : StampEnv where
  offsetAt _ := 7200
  intOfFloat _ _ := .error .overflowError
  strptime _ _ := none
  fromisoformat _ := none

theorem wellFormed_januaryData : WellFormedData januaryEnv januaryData "GPV1.1" where
  timestamps := by
    intro field hfield
    rw [List.mem_singleton.mp hfield]
    exact ⟨1768168800, by decide⟩
  days ts _ := ⟨_, rfl⟩
  maps := by
    intro key value hlookup
    unfold januaryData at hlookup
    rw [List.lookup_cons] at hlookup
    split at hlookup
    . cases hlookup
      refine ⟨_, rfl, ?_⟩
      intro schedule hschedule
      cases hschedule
      exact ⟨_, rfl⟩
    . cases hlookup

theorem metadataHarmless_digitsInMeta
    : MetadataHarmless (januaryStamps.parseEnv januaryEnv)
        (payloadUpdated [("update", .null), ("meta", .obj [("ts", .str " 1768168800 ")])] [("ts", .bool true)])
        "1.1" := by
  have hstrip : PyText.strip " 1768168800 ".toList = "1768168800".toList := by decide +kernel
  have hdated : januaryStamps.Dated (.str " 1768168800 ") := by
    unfold StampEnv.Dated
    dsimp only
    rw [hstrip]
    refine ⟨by decide, .inl ⟨by decide +kernel, 1768168800, by decide +kernel, ?_⟩⟩
    unfold StampEnv.HasFourDigitYear
    decide
  refine (metadataHarmless_iff januaryStamps rfl wellFormed_januaryData).mpr ⟨?_, ?_⟩
  . exact Or.inr ⟨trivial, Or.inl hdated⟩
  . intro timestamps htimestamps ts hts date hdate hourlyData _
    have hone : timestampsOf januaryEnv januaryData = some [1768168800] := by decide +kernel
    rw [hone, Option.some.injEq] at htimestamps
    subst htimestamps
    cases List.mem_singleton.mp hts
    cases hdate
    exact .inl (by decide)

theorem not_metadataHarmless_milliseconds
    : WellFormedData januaryEnv januaryData "GPV1.1" ∧
        ¬ MetadataHarmless (januaryStamps.parseEnv januaryEnv)
          (payloadUpdated [("update", .int 1768168800000)] []) "1.1" := by
  refine ⟨wellFormed_januaryData, ?_⟩
  rintro ⟨sched, _, hsched, _⟩
  have hraises : (parseScheduleForQueue (januaryStamps.parseEnv januaryEnv)
      (payloadUpdated [("update", .int 1768168800000)] []) "1.1").isNone = true := by
    decide +kernel
  rw [hsched] at hraises
  cases hraises

end Scheduler
