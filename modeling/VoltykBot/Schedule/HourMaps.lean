import VoltykBot.Schedule.Parse

/-!
This module contains what the hourly maps of a payload say, and what `parse_schedule_for_queue` makes of
them.
-/

namespace Scheduler

inductive HourState where
  | on
  | no
  | maybe
  | nfirst
  | nsecond
  | mfirst
  | msecond
  deriving DecidableEq, Repr

def stateOfValue (value : Option Json) : HourState :=
  match value with
  | some (.str "no") => .no
  | some (.str "maybe") => .maybe
  | some (.str "first") => .nfirst
  | some (.str "second") => .nsecond
  | some (.str "mfirst") => .mfirst
  | some (.str "msecond") => .msecond
  | _ => .on

def hourlyRow (hourlyData : List (String × Json)) : List HourState :=
  (List.range 24).map fun h => stateOfValue (hourlyData.lookup (toString (h + 1)))

def HourState.half (state : HourState) (second : Bool) : Nat :=
  match state, second with
  | .on, _ => 0
  | .no, _ => 1
  | .maybe, _ => 2
  | .nfirst, false => 1
  | .nfirst, true => 0
  | .nsecond, false => 0
  | .nsecond, true => 1
  | .mfirst, false => 2
  | .mfirst, true => 0
  | .msecond, false => 0
  | .msecond, true => 2

def halfOf (hourlyData : List (String × Json)) (i : Nat) : Nat :=
  (stateOfValue (hourlyData.lookup (toString (i / 2 + 1)))).half (i % 2 = 1)

theorem half_eq_one_or_two {state : HourState} {second : Bool} (h : state.half second ≠ 0)
    : state.half second = 1 ∨ state.half second = 2 := by
  revert h
  cases state <;> cases second <;> decide

def CoversHalf (periods : List Period) (i : Nat) : Prop :=
  ∃ p ∈ periods, p.start ≤ i ∧ i < p.endAt

theorem coversHalf_append {periods periods' : List Period} {i : Nat}
    : CoversHalf (periods ++ periods') i ↔ CoversHalf periods i ∨ CoversHalf periods' i := by
  unfold CoversHalf
  simp only [List.mem_append, or_and_right, exists_or]

theorem coversHalf_singleton {p : Period} {i : Nat}
    : CoversHalf [p] i ↔ p.start ≤ i ∧ i < p.endAt := by
  unfold CoversHalf
  simp only [List.mem_singleton, exists_eq_left]

def EndsBy (n : Nat) (periods : List Period) : Prop :=
  ∀ p ∈ periods, p.start < p.endAt ∧ p.endAt ≤ n

theorem EndsBy.mono {n n' : Nat} {periods : List Period} (h : EndsBy n periods) (hle : n ≤ n')
    : EndsBy n' periods := by
  intro p hp
  have hends := h p hp
  omega

theorem addOrExtend_cases (periods : List Period) (start endAt : Nat)
    : (∃ front last, periods = front ++ [last] ∧ last.endAt = start ∧
        addOrExtend periods start endAt = front ++ [{ last with endAt := endAt }]) ∨
      ((∀ last ∈ periods.getLast?, last.endAt ≠ start) ∧
        addOrExtend periods start endAt = periods ++ [{ start := start, endAt := endAt }]) := by
  unfold addOrExtend
  split
  . next last hlast =>
    have hsplit : periods.dropLast ++ [last] = periods := List.dropLast_append_getLast? last hlast
    split
    . next heq => exact .inl ⟨periods.dropLast, last, hsplit.symm, heq, rfl⟩
    . next hne =>
      refine .inr ⟨?_, rfl⟩
      intro last' hlast'
      rw [hlast, Option.mem_some_iff] at hlast'
      exact hlast' ▸ hne
  . next hlast =>
    rw [List.getLast?_eq_none_iff] at hlast
    rw [hlast]
    exact .inr ⟨nofun, rfl⟩

theorem EndsBy.addOrExtend {n n' start endAt : Nat} {periods : List Period} (h : EndsBy n periods)
    (hn : n ≤ n') (hlt : start < endAt) (hend : endAt ≤ n')
    : EndsBy n' (Scheduler.addOrExtend periods start endAt) := by
  rcases addOrExtend_cases periods start endAt with ⟨front, last, rfl, hlast, heq⟩ | ⟨_, heq⟩
  . rw [heq]
    intro p hp
    cases List.mem_append.mp hp with
    | inl hp =>
      have hends := h p (List.mem_append_left _ hp)
      omega
    | inr hp =>
      have hends := h last (List.mem_append_right _ (List.mem_singleton_self _))
      rw [List.mem_singleton.mp hp]
      dsimp only
      omega
  . rw [heq]
    intro p hp
    cases List.mem_append.mp hp with
    | inl hp => exact h.mono hn p hp
    | inr hp =>
      rw [List.mem_singleton.mp hp]
      exact ⟨hlt, hend⟩

theorem coversHalf_addOrExtend {n start endAt : Nat} {periods : List Period} (h : EndsBy n periods)
    (hlt : start < endAt) (i : Nat)
    : CoversHalf (addOrExtend periods start endAt) i ↔
        CoversHalf periods i ∨ (start ≤ i ∧ i < endAt) := by
  rcases addOrExtend_cases periods start endAt with ⟨front, last, rfl, hlast, heq⟩ | ⟨_, heq⟩
  . have hends := h last (List.mem_append_right _ (List.mem_singleton_self _))
    rw [heq, coversHalf_append, coversHalf_append, coversHalf_singleton, coversHalf_singleton, or_assoc]
    dsimp only
    apply or_congr_right
    omega
  . rw [heq, coversHalf_append, coversHalf_singleton]

theorem mergeConsecutive_spec {n : Nat} {periods : List Period} (h : EndsBy n periods)
    : EndsBy n (mergeConsecutive periods) ∧
        ∀ i, CoversHalf (mergeConsecutive periods) i ↔ CoversHalf periods i := by
  unfold mergeConsecutive
  suffices hfold : ∀ merged, EndsBy n merged →
      EndsBy n (periods.foldl (fun merged p => addOrExtend merged p.start p.endAt) merged) ∧
        ∀ i, CoversHalf (periods.foldl (fun merged p => addOrExtend merged p.start p.endAt) merged) i ↔
          CoversHalf merged i ∨ CoversHalf periods i by
    have hnil : EndsBy n [] := nofun
    refine ⟨(hfold [] hnil).1, ?_⟩
    intro i
    rw [(hfold [] hnil).2 i]
    apply or_iff_right
    rintro ⟨p, hp, _⟩
    cases hp
  induction periods with
  | nil =>
    intro merged hmerged
    refine ⟨hmerged, ?_⟩
    intro i
    rw [List.foldl_nil]
    symm
    apply or_iff_left
    rintro ⟨p, hp, _⟩
    cases hp
  | cons p periods ih =>
    intro merged hmerged
    have hp := h p List.mem_cons_self
    have hrest : EndsBy n periods := fun p' hp' => h p' (List.mem_cons_of_mem _ hp')
    have hfold := ih hrest _ (hmerged.addOrExtend (Nat.le_refl n) hp.1 hp.2)
    rw [List.foldl_cons]
    refine ⟨hfold.1, ?_⟩
    intro i
    rw [hfold.2 i, coversHalf_addOrExtend hmerged hp.1, or_assoc]
    apply or_congr_right
    rw [← coversHalf_singleton, ← coversHalf_append]
    rfl

theorem stateOfValue_other {value : String} (hplanned : value ∉ ["no", "first", "second"])
    (hpossible : value ∉ ["maybe", "mfirst", "msecond"]) : stateOfValue (some (.str value)) = .on := by
  unfold stateOfValue
  split
  all_goals simp_all

theorem half_whole_ne_zero {state : HourState} (h : state = .no ∨ state = .maybe) (second : Bool)
    : state.half second ≠ 0 := by
  rcases h with rfl | rfl
  . cases second <;> decide
  . cases second <;> decide

theorem half_first_ne_zero {state : HourState} (h : state = .nfirst ∨ state = .mfirst) (second : Bool)
    : state.half second ≠ 0 ↔ second = false := by
  rcases h with rfl | rfl
  . cases second <;> decide
  . cases second <;> decide

theorem half_second_ne_zero {state : HourState} (h : state = .nsecond ∨ state = .msecond)
    (second : Bool) : state.half second ≠ 0 ↔ second = true := by
  rcases h with rfl | rfl
  . cases second <;> decide
  . cases second <;> decide

theorem addOrExtend_spec {hour start endAt : Nat} {periods : List Period}
    (h : EndsBy (2 * hour) periods) (hstart : 2 * hour ≤ start) (hlt : start < endAt)
    (hend : endAt ≤ 2 * (hour + 1)) {state : HourState}
    (hhalf : ∀ i, i / 2 = hour → (state.half (i % 2 = 1) ≠ 0 ↔ start ≤ i ∧ i < endAt))
    : EndsBy (2 * (hour + 1)) (addOrExtend periods start endAt) ∧
        ∀ i, CoversHalf (addOrExtend periods start endAt) i ↔
          CoversHalf periods i ∨ (i / 2 = hour ∧ state.half (i % 2 = 1) ≠ 0) := by
  refine ⟨h.addOrExtend (by omega) hlt hend, ?_⟩
  intro i
  rw [coversHalf_addOrExtend h hlt]
  apply or_congr_right
  constructor
  . intro hin
    have hi : i / 2 = hour := by omega
    exact ⟨hi, (hhalf i hi).mpr hin⟩
  . intro hin
    exact (hhalf i hin.1).mp hin.2

theorem addOutagePeriod_spec {hour : Nat} {periods : List Period} (h : EndsBy (2 * hour) periods)
    (value : String)
    : EndsBy (2 * (hour + 1)) (addOutagePeriod periods (hour + 1) value) ∧
        ∀ i, CoversHalf (addOutagePeriod periods (hour + 1) value) i ↔
          CoversHalf periods i ∨
            (i / 2 = hour ∧ (stateOfValue (some (.str value))).half (i % 2 = 1) ≠ 0) := by
  unfold addOutagePeriod
  split
  . next hvalue =>
    apply addOrExtend_spec h (by omega) (by omega) (by omega)
    intro i hi
    have hstate : stateOfValue (some (.str value)) = .no ∨ stateOfValue (some (.str value)) = .maybe := by
      rcases hvalue with rfl | rfl
      . exact .inl rfl
      . exact .inr rfl
    apply iff_of_true
    . exact half_whole_ne_zero hstate _
    . omega
  . split
    . next hvalue =>
      apply addOrExtend_spec h (by omega) (by omega) (by omega)
      intro i hi
      have hstate : stateOfValue (some (.str value)) = .nfirst ∨
          stateOfValue (some (.str value)) = .mfirst := by
        rcases hvalue with rfl | rfl
        . exact .inl rfl
        . exact .inr rfl
      rw [half_first_ne_zero hstate, decide_eq_false_iff_not]
      omega
    . split
      . next hvalue =>
        apply addOrExtend_spec h (by omega) (by omega) (by omega)
        intro i hi
        have hstate : stateOfValue (some (.str value)) = .nsecond ∨
            stateOfValue (some (.str value)) = .msecond := by
          rcases hvalue with rfl | rfl
          . exact .inl rfl
          . exact .inr rfl
        rw [half_second_ne_zero hstate, decide_eq_true_eq]
        omega
      . next hwhole hfirst hsecond =>
        have hstate : stateOfValue (some (.str value)) = .on := by
          apply stateOfValue_other
          . simp_all
          . simp_all
        refine ⟨h.mono (by omega), ?_⟩
        intro i
        symm
        apply or_iff_left
        rw [hstate]
        rintro ⟨_, hhalf⟩
        exact hhalf rfl

structure Shows (hourlyData : List (String × Json)) (hour : Nat) (periods : List Period × List Period)
    : Prop where
  endsBy : EndsBy (2 * hour) periods.1 ∧ EndsBy (2 * hour) periods.2
  planned : ∀ i, CoversHalf periods.1 i ↔ i < 2 * hour ∧ halfOf hourlyData i = 1
  possible : ∀ i, CoversHalf periods.2 i ↔ i < 2 * hour ∧ halfOf hourlyData i = 2

theorem half_of_planned {value : String} (h : value ∈ ["no", "first", "second"]) (second : Bool)
    : (stateOfValue (some (.str value))).half second ≠ 0 ↔
        (stateOfValue (some (.str value))).half second = 1 := by
  simp only [List.mem_cons, List.not_mem_nil, or_false] at h
  rcases h with rfl | rfl | rfl
  all_goals cases second <;> decide

theorem half_of_possible {value : String} (h : value ∈ ["maybe", "mfirst", "msecond"]) (second : Bool)
    : (stateOfValue (some (.str value))).half second ≠ 0 ↔
        (stateOfValue (some (.str value))).half second = 2 := by
  simp only [List.mem_cons, List.not_mem_nil, or_false] at h
  rcases h with rfl | rfl | rfl
  all_goals cases second <;> decide

theorem halfOf_eq {hourlyData : List (String × Json)} {hour i : Nat} {value : Option Json}
    (hlookup : hourlyData.lookup (toString (hour + 1)) = value) (hi : i / 2 = hour)
    : halfOf hourlyData i = (stateOfValue value).half (i % 2 = 1) := by
  unfold halfOf
  rw [hi, hlookup]

theorem next_hour_iff {hour i : Nat} {P P' : Nat → Prop} {Q : Nat → Prop}
    (hold : ∀ i, P i ↔ i < 2 * hour ∧ Q i) (hnew : ∀ i, P' i ↔ P i ∨ (i / 2 = hour ∧ Q i))
    : P' i ↔ i < 2 * (hour + 1) ∧ Q i := by
  have hsplit : i < 2 * (hour + 1) ↔ i < 2 * hour ∨ i / 2 = hour := by omega
  rw [hnew, hold, hsplit, or_and_right]

theorem next_hour_none {hour i : Nat} {P : Nat → Prop} {Q : Nat → Prop}
    (hold : ∀ i, P i ↔ i < 2 * hour ∧ Q i) (hnone : ∀ i, i / 2 = hour → ¬ Q i)
    : P i ↔ i < 2 * (hour + 1) ∧ Q i := by
  apply next_hour_iff hold
  intro i
  symm
  apply or_iff_left
  rintro ⟨hi, hQ⟩
  exact hnone i hi hQ

theorem Shows.parseHour {hourlyData : List (String × Json)} {hour : Nat}
    {periods : List Period × List Period} (h : Shows hourlyData hour periods)
    : Shows hourlyData (hour + 1) (Scheduler.parseHour hourlyData periods (hour + 1)) := by
  have hends : EndsBy (2 * (hour + 1)) periods.1 ∧ EndsBy (2 * (hour + 1)) periods.2 :=
    ⟨h.endsBy.1.mono (by omega), h.endsBy.2.mono (by omega)⟩
  unfold Scheduler.parseHour
  split
  . next value hlookup =>
    have hhalf : ∀ i, i / 2 = hour → halfOf hourlyData i = _ := fun i hi => halfOf_eq hlookup hi
    split
    . next hplanned =>
      have hspec := addOutagePeriod_spec h.endsBy.1 value
      refine ⟨⟨hspec.1, hends.2⟩, ?_, ?_⟩
      . intro i
        apply next_hour_iff h.planned
        intro i
        rw [hspec.2]
        apply or_congr_right
        apply and_congr_right
        intro hi
        rw [hhalf i hi, half_of_planned hplanned]
      . intro i
        apply next_hour_none h.possible
        intro i hi
        rw [hhalf i hi]
        intro htwo
        have hone := (half_of_planned hplanned (i % 2 = 1)).mp (by omega)
        omega
    . split
      . next hpossible =>
        have hspec := addOutagePeriod_spec h.endsBy.2 value
        refine ⟨⟨hends.1, hspec.1⟩, ?_, ?_⟩
        . intro i
          apply next_hour_none h.planned
          intro i hi
          rw [hhalf i hi]
          intro hone
          have htwo := (half_of_possible hpossible (i % 2 = 1)).mp (by omega)
          omega
        . intro i
          apply next_hour_iff h.possible
          intro i
          rw [hspec.2]
          apply or_congr_right
          apply and_congr_right
          intro hi
          rw [hhalf i hi, half_of_possible hpossible]
      . next hplanned hpossible =>
        have hstate := stateOfValue_other hplanned hpossible
        refine ⟨hends, ?_, ?_⟩
        all_goals
          intro i
          apply next_hour_none
          . first | exact h.planned | exact h.possible
          . intro i hi
            rw [hhalf i hi, hstate]
            exact nofun
  . next hother =>
    have hstate : stateOfValue (hourlyData.lookup (toString (hour + 1))) = .on := by
      unfold stateOfValue
      split
      all_goals simp_all
    refine ⟨hends, ?_, ?_⟩
    all_goals
      intro i
      apply next_hour_none
      . first | exact h.planned | exact h.possible
      . intro i hi
        rw [halfOf_eq rfl hi, hstate]
        exact nofun

theorem Shows.foldl {hourlyData : List (String × Json)} (len : Nat) {hour : Nat}
    {periods : List Period × List Period} (h : Shows hourlyData hour periods)
    : Shows hourlyData (hour + len)
        ((List.range' (hour + 1) len).foldl (Scheduler.parseHour hourlyData) periods) := by
  induction len generalizing hour periods with
  | zero => exact h
  | succ len ih =>
    rw [List.range'_succ, List.foldl_cons]
    have htail := ih h.parseHour
    rwa [Nat.add_assoc, Nat.add_comm 1 len] at htail

theorem shows_parseHourlySchedule (hourlyData : List (String × Json))
    : Shows hourlyData 24 (parseHourlySchedule hourlyData) := by
  have hstart : Shows hourlyData 0 ([], []) := by
    refine ⟨⟨nofun, nofun⟩, ?_, ?_⟩
    all_goals
      intro i
      constructor
      . rintro ⟨p, hp, _⟩
        cases hp
      . intro hi
        omega
  have hfold := hstart.foldl 24
  rw [Nat.zero_add] at hfold
  have hplanned := mergeConsecutive_spec hfold.endsBy.1
  have hpossible := mergeConsecutive_spec hfold.endsBy.2
  unfold parseHourlySchedule
  refine ⟨⟨hplanned.1, hpossible.1⟩, ?_, ?_⟩
  . intro i
    exact (hplanned.2 i).trans (hfold.planned i)
  . intro i
    exact (hpossible.2 i).trans (hfold.possible i)

def halfValue (ev : ScheduleEvent) : Nat := if ev.isPossible then 2 else 1

theorem halfValue_ne_zero (ev : ScheduleEvent) : halfValue ev ≠ 0 := by
  unfold halfValue
  split <;> decide

variable {env : ParseEnv} {date : Date}

theorem mem_eventsOfMap {hourlyData : List (String × Json)} {ev : ScheduleEvent}
    (h : ev ∈ eventsOfMap env date hourlyData)
    : ∃ p, p.start < p.endAt ∧ p.endAt ≤ 48 ∧ ev = periodEvent env date ev.isPossible p ∧
        ∀ i, p.start ≤ i → i < p.endAt → halfOf hourlyData i = halfValue ev := by
  have hshows := shows_parseHourlySchedule hourlyData
  cases List.mem_append.mp h with
  | inl h =>
    obtain ⟨p, hp, rfl⟩ := List.mem_map.mp h
    have hends := hshows.endsBy.1 p hp
    refine ⟨p, hends.1, hends.2, rfl, ?_⟩
    intro i hstart hend
    exact ((hshows.planned i).mp ⟨p, hp, hstart, hend⟩).2
  | inr h =>
    obtain ⟨p, hp, rfl⟩ := List.mem_map.mp h
    have hends := hshows.endsBy.2 p hp
    refine ⟨p, hends.1, hends.2, rfl, ?_⟩
    intro i hstart hend
    exact ((hshows.possible i).mp ⟨p, hp, hstart, hend⟩).2

theorem exists_mem_eventsOfMap (env : ParseEnv) (date : Date) {hourlyData : List (String × Json)} {i : Nat}
    (hi : i < 48) (hmarked : halfOf hourlyData i ≠ 0)
    : ∃ p isPossible, periodEvent env date isPossible p ∈ eventsOfMap env date hourlyData ∧
        p.start ≤ i ∧ i < p.endAt ∧ p.endAt ≤ 48 ∧
        ∀ k, p.start ≤ k → k < p.endAt → halfOf hourlyData k ≠ 0 := by
  have hshows := shows_parseHourlySchedule hourlyData
  cases half_eq_one_or_two hmarked with
  | inl hplanned =>
    obtain ⟨p, hp, hcovers⟩ := (hshows.planned i).mpr ⟨hi, hplanned⟩
    refine ⟨p, false, List.mem_append_left _ (List.mem_map_of_mem hp), hcovers.1, hcovers.2,
      (hshows.endsBy.1 p hp).2, ?_⟩
    intro k hstart hlt
    rw [((hshows.planned k).mp ⟨p, hp, hstart, hlt⟩).2]
    decide
  | inr hpossible =>
    obtain ⟨p, hp, hcovers⟩ := (hshows.possible i).mpr ⟨hi, hpossible⟩
    refine ⟨p, true, List.mem_append_right _ (List.mem_map_of_mem hp), hcovers.1, hcovers.2,
      (hshows.endsBy.2 p hp).2, ?_⟩
    intro k hstart hlt
    rw [((hshows.possible k).mp ⟨p, hp, hstart, hlt⟩).2]
    decide

/--
The hourly map that a payload has for a queue on the day of a timestamp; a missing one counts as empty.
-/
def HourlyMap (factData : List (String × Json)) (ts : Int) (queueKey : String)
    (hourlyData : List (String × Json)) : Prop :=
  ∃ day, factData.lookup (toString ts) = some (.obj day) ∧
    (day.lookup queueKey).getD (.obj []) = .obj hourlyData

/--
The midnight that ends the day is in the calendar, or no outage ends there.
-/
def EndsInCalendar (date : Date) (hourlyData : List (String × Json)) : Prop :=
  date < lastDate ∨ halfOf hourlyData 47 = 0

instance (date : Date) (hourlyData : List (String × Json)) : Decidable (EndsInCalendar date hourlyData) :=
  inferInstanceAs (Decidable (_ ∨ _))

theorem endsInCalendar_iff {hourlyData : List (String × Json)}
    : EndsInCalendar date hourlyData ↔
        (∀ p ∈ (parseHourlySchedule hourlyData).1, p.endAt < 48 ∨ date < lastDate) ∧
          ∀ p ∈ (parseHourlySchedule hourlyData).2, p.endAt < 48 ∨ date < lastDate := by
  have hshows := shows_parseHourlySchedule hourlyData
  unfold EndsInCalendar
  by_cases hdate : date < lastDate
  . simp [hdate]
  . constructor
    . intro hmarked
      have hzero := hmarked.resolve_left hdate
      constructor
      . intro p hp
        have hends := hshows.endsBy.1 p hp
        by_contra hlast
        have hcovers := (hshows.planned 47).mp ⟨p, hp, by omega, by omega⟩
        omega
      . intro p hp
        have hends := hshows.endsBy.2 p hp
        by_contra hlast
        have hcovers := (hshows.possible 47).mp ⟨p, hp, by omega, by omega⟩
        omega
    . rintro ⟨hplanned, hpossible⟩
      right
      by_contra hmarked
      cases half_eq_one_or_two hmarked with
      | inl hone =>
        obtain ⟨p, hp, _, hlt⟩ := (hshows.planned 47).mpr ⟨by decide, hone⟩
        have hends := (hplanned p hp).resolve_right hdate
        omega
      | inr htwo =>
        obtain ⟨p, hp, _, hlt⟩ := (hshows.possible 47).mpr ⟨by decide, htwo⟩
        have hends := (hpossible p hp).resolve_right hdate
        omega

theorem dayEvents_of_hourlyMap {factData hourlyData : List (String × Json)} {ts : Int}
    {queueKey : String} (h : HourlyMap factData ts queueKey hourlyData)
    (hdate : env.fromtimestamp ts = some date)
    : dayEvents env factData ts queueKey =
        if EndsInCalendar date hourlyData then some (eventsOfMap env date hourlyData) else none := by
  rcases h with ⟨day, hday, hmap⟩
  unfold dayEvents
  rw [hday]
  dsimp only [Option.getD_some, Json.get, Option.bind_eq_bind, Option.bind_some]
  have hempty : EndsInCalendar date [] := .inr rfl
  cases hlookup : day.lookup queueKey with
  | none =>
    rw [hlookup] at hmap
    cases hmap
    rw [if_pos hempty]
    rfl
  | some schedule =>
    rw [hlookup] at hmap
    cases hmap
    cases hourlyData with
    | nil =>
      rw [if_pos hempty]
      rfl
    | cons field fields =>
      dsimp only [Option.getD_some]
      have htruthy : (Json.obj (field :: fields)).truthy = true := rfl
      rw [hdate, if_pos htruthy, Option.bind_some, mapM_eventOfPeriod (start_of_mem_periods _).1,
        mapM_eventOfPeriod (start_of_mem_periods _).2]
      by_cases hplanned : ∀ p ∈ (parseHourlySchedule (field :: fields)).1, p.endAt < 48 ∨ date < lastDate
      . rw [if_pos hplanned, Option.bind_some]
        by_cases hpossible : ∀ p ∈ (parseHourlySchedule (field :: fields)).2, p.endAt < 48 ∨ date < lastDate
        . rw [if_pos hpossible, if_pos (endsInCalendar_iff.mpr ⟨hplanned, hpossible⟩)]
          rfl
        . rw [if_neg hpossible, Option.bind_none,
            if_neg fun hends => hpossible (endsInCalendar_iff.mp hends).2]
      . rw [if_neg hplanned, Option.bind_none,
          if_neg fun hends => hplanned (endsInCalendar_iff.mp hends).1]

theorem parseScheduleForQueue_eq {rawData : Json} (queue : String) {payload : Payload}
    (hpayload : payloadOf rawData = some payload)
    (hmetadata : iterCandidates payload.fact ++ iterCandidates payload.raw = [])
    {timestamps : List Int} (htimestamps : timestampsOf env payload.factData = some timestamps)
    : ∃ schedOf, parseScheduleForQueue env rawData queue =
          (parseEvents env payload.factData timestamps ("GPV" ++ queue)).map schedOf ∧
        ∀ events, (schedOf events).events = sortEvents events := by
  unfold parseScheduleForQueue
  rw [hpayload]
  dsimp only [Option.bind_eq_bind]
  rw [htimestamps, Option.bind_some, hmetadata]
  refine ⟨fun events => ⟨!(sortEvents events).isEmpty, sortEvents events, queue, none⟩, ?_, fun _ => rfl⟩
  cases parseEvents env payload.factData timestamps ("GPV" ++ queue) <;> rfl

theorem mem_sortEvents {events : List ScheduleEvent} {ev : ScheduleEvent}
    : ev ∈ sortEvents events ↔ ev ∈ events :=
  (List.perm_insertionSort _ events).mem_iff

/--
The map that is parsed as the second day's. Like a missing timestamp, one that is 0 has none.
-/
def parsedTomorrow (tomorrowTs : Int) (tomorrow : List (String × Json)) : List (String × Json) :=
  if tomorrowTs ≠ 0 then tomorrow else []

theorem parseEvents_eq {factData today tomorrow : List (String × Json)} {todayTs tomorrowTs date' : Int}
    (rest : List Int) {queueKey : String} (htoday : env.fromtimestamp todayTs = some date)
    (htomorrow : env.fromtimestamp tomorrowTs = some date')
    (hmap : HourlyMap factData todayTs queueKey today)
    (hmap' : HourlyMap factData tomorrowTs queueKey tomorrow)
    : parseEvents env factData (todayTs :: tomorrowTs :: rest) queueKey =
        if EndsInCalendar date today ∧ EndsInCalendar date' (parsedTomorrow tomorrowTs tomorrow) then
          some (eventsOfMap env date today ++ eventsOfMap env date' (parsedTomorrow tomorrowTs tomorrow))
        else
          none := by
  unfold parseEvents parsedTomorrow
  dsimp only [Option.bind_eq_bind]
  rw [dayEvents_of_hourlyMap hmap htoday, dayEvents_of_hourlyMap hmap' htomorrow]
  by_cases hends : EndsInCalendar date today
  . rw [if_pos hends, Option.bind_some]
    by_cases hts : tomorrowTs ≠ 0
    . rw [if_pos hts, if_pos hts]
      by_cases hends' : EndsInCalendar date' tomorrow
      . rw [if_pos hends', if_pos ⟨hends, hends'⟩]
        rfl
      . rw [if_neg hends', if_neg fun h => hends' h.2]
        rfl
    . rw [if_neg hts, if_neg hts, if_pos ⟨hends, .inr rfl⟩]
      exact congrArg some (List.append_nil _).symm
  . rw [if_neg hends, Option.bind_none, if_neg fun hboth => hends hboth.1]

end Scheduler
