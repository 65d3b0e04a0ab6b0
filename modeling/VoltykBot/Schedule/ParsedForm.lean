import Mathlib.Data.List.Pairwise
import VoltykBot.Reminders.Covered

/-!
This module contains the form of the events that `parse_schedule_for_queue` makes of two hourly maps: in
which order they are, what they cover, and where they touch.
-/

namespace Scheduler

open Timeline

structure Runs (n : Nat) (periods : List Period) : Prop where
  long : ∀ p ∈ periods, p.start < p.endAt
  ends : ∀ p ∈ periods, p.endAt ≤ n
  apart : periods.Pairwise fun p q => p.endAt < q.start

theorem Runs.mono {n n' : Nat} {periods : List Period} (h : Runs n periods) (hle : n ≤ n')
    : Runs n' periods :=
  { h with ends := fun p hp => Nat.le_trans (h.ends p hp) hle }

theorem Runs.append_singleton {n : Nat} {periods : List Period} {p : Period} (h : Runs n periods)
    (hlong : p.start < p.endAt) (hapart : ∀ q ∈ periods, q.endAt < p.start)
    : Runs (max n p.endAt) (periods ++ [p]) where
  long q hq := by
    cases List.mem_append.mp hq with
    | inl hq => exact h.long q hq
    | inr hq => exact List.mem_singleton.mp hq ▸ hlong
  ends q hq := by
    cases List.mem_append.mp hq with
    | inl hq => exact Nat.le_trans (h.ends q hq) (Nat.le_max_left _ _)
    | inr hq => exact List.mem_singleton.mp hq ▸ Nat.le_max_right _ _
  apart := by
    rw [List.pairwise_append]
    refine ⟨h.apart, List.pairwise_singleton _ _, ?_⟩
    intro q hq p' hp'
    exact List.mem_singleton.mp hp' ▸ hapart q hq

theorem Runs.of_append {n : Nat} {front : List Period} {last : Period}
    (h : Runs n (front ++ [last])) : Runs n front ∧ ∀ q ∈ front, q.endAt < last.start := by
  have hapart := List.pairwise_append.mp h.apart
  refine ⟨⟨?_, ?_, hapart.1⟩, ?_⟩
  . intro p hp
    exact h.long p (List.mem_append_left _ hp)
  . intro p hp
    exact h.ends p (List.mem_append_left _ hp)
  . intro q hq
    exact hapart.2.2 q hq last (List.mem_singleton_self _)

theorem Runs.lt_of_last_ne {n start : Nat} {periods : List Period} (h : Runs n periods)
    (hn : n ≤ start) (hlast : ∀ last ∈ periods.getLast?, last.endAt ≠ start)
    : ∀ q ∈ periods, q.endAt < start := by
  intro q hq
  have hne : periods ≠ [] := List.ne_nil_of_mem hq
  have hsplit := List.dropLast_append_getLast hne
  have hlong := h.long _ (List.getLast_mem hne)
  have hends := h.ends _ (List.getLast_mem hne)
  rw [← hsplit] at h hq
  cases List.mem_append.mp hq with
  | inl hq =>
    have hlt := h.of_append.2 q hq
    omega
  | inr hq =>
    have hq : q = periods.getLast hne := List.mem_singleton.mp hq
    have hne' := hlast q (by rw [List.getLast?_eq_some_getLast hne, hq]; rfl)
    rw [← hq] at hends
    omega

theorem Runs.addOrExtend {n n' start endAt : Nat} {periods : List Period} (h : Runs n periods)
    (hn : n ≤ start) (hlt : start < endAt) (hend : endAt ≤ n')
    : Runs n' (Scheduler.addOrExtend periods start endAt) := by
  rcases addOrExtend_cases periods start endAt with ⟨front, last, rfl, hlast, heq⟩ | ⟨hlast, heq⟩
  . rw [heq]
    have hlong := h.long last (List.mem_append_right _ (List.mem_singleton_self _))
    have hfront := h.of_append
    refine (hfront.1.append_singleton (p := { last with endAt := endAt }) ?_ hfront.2).mono ?_
    . dsimp only
      omega
    . dsimp only
      omega
  . rw [heq]
    refine (h.append_singleton (p := { start := start, endAt := endAt }) hlt ?_).mono ?_
    . exact h.lt_of_last_ne hn hlast
    . dsimp only
      omega

theorem Runs.addOutagePeriod {hour : Nat} {periods : List Period} (h : Runs (2 * hour) periods)
    (value : String) : Runs (2 * (hour + 1)) (Scheduler.addOutagePeriod periods (hour + 1) value) := by
  unfold Scheduler.addOutagePeriod
  split
  . apply h.addOrExtend <;> omega
  . split
    . apply h.addOrExtend <;> omega
    . split
      . apply h.addOrExtend <;> omega
      . apply h.mono
        omega

theorem runs_parseHour (hourlyData : List (String × Json)) {hour : Nat}
    {periods : List Period × List Period} (h : Runs (2 * hour) periods.1 ∧ Runs (2 * hour) periods.2)
    : Runs (2 * (hour + 1)) (parseHour hourlyData periods (hour + 1)).1 ∧
        Runs (2 * (hour + 1)) (parseHour hourlyData periods (hour + 1)).2 := by
  have hmono : Runs (2 * (hour + 1)) periods.1 ∧ Runs (2 * (hour + 1)) periods.2 :=
    ⟨h.1.mono (by omega), h.2.mono (by omega)⟩
  unfold parseHour
  split
  . split
    . exact ⟨h.1.addOutagePeriod _, hmono.2⟩
    . split
      . exact ⟨hmono.1, h.2.addOutagePeriod _⟩
      . exact hmono
  . exact hmono

theorem runs_foldl_parseHour (hourlyData : List (String × Json)) (len : Nat) {hour : Nat}
    {periods : List Period × List Period} (h : Runs (2 * hour) periods.1 ∧ Runs (2 * hour) periods.2)
    : Runs (2 * (hour + len)) ((List.range' (hour + 1) len).foldl (parseHour hourlyData) periods).1 ∧
        Runs (2 * (hour + len))
          ((List.range' (hour + 1) len).foldl (parseHour hourlyData) periods).2 := by
  induction len generalizing hour periods with
  | zero => exact h
  | succ len ih =>
    rw [List.range'_succ, List.foldl_cons]
    have htail := ih (runs_parseHour hourlyData h)
    rwa [Nat.add_assoc, Nat.add_comm 1 len] at htail

theorem Runs.mergeConsecutive {n : Nat} {periods : List Period} (h : Runs n periods)
    : Scheduler.mergeConsecutive periods = periods := by
  unfold Scheduler.mergeConsecutive
  suffices hfold : ∀ merged, (merged ++ periods).Pairwise (fun p q => p.endAt < q.start) →
      periods.foldl (fun merged p => Scheduler.addOrExtend merged p.start p.endAt) merged =
        merged ++ periods by
    exact hfold [] h.apart
  clear h
  induction periods with
  | nil =>
    intro merged _
    rw [List.foldl_nil, List.append_nil]
  | cons p periods ih =>
    intro merged hapart
    have hadd : Scheduler.addOrExtend merged p.start p.endAt = merged ++ [p] := by
      rcases addOrExtend_cases merged p.start p.endAt with ⟨front, last, rfl, hlast, _⟩ | ⟨_, heq⟩
      . have hlt := (List.pairwise_append.mp hapart).2.2 last
          (List.mem_append_right _ (List.mem_singleton_self _)) p List.mem_cons_self
        omega
      . exact heq
    rw [List.foldl_cons, hadd, ih, List.append_assoc]
    . rfl
    . rwa [List.append_assoc]

theorem runs_parseHourlySchedule (hourlyData : List (String × Json))
    : Runs 48 (parseHourlySchedule hourlyData).1 ∧ Runs 48 (parseHourlySchedule hourlyData).2 := by
  have hnil : Runs (2 * 0) [] := ⟨nofun, nofun, List.Pairwise.nil⟩
  have hfold := runs_foldl_parseHour hourlyData 24
    (show Runs (2 * 0) ([], []).1 ∧ Runs (2 * 0) ([], []).2 from ⟨hnil, hnil⟩)
  rw [Nat.zero_add] at hfold
  unfold parseHourlySchedule
  dsimp only
  rw [hfold.1.mergeConsecutive, hfold.2.mergeConsecutive]
  exact hfold

def halfInstant (date offset : Int) (half : Nat) : Int :=
  ((half : Int) * 1800 + date * 86400 - offset) * 1000000

theorem halfInstant_le_iff {date offset : Int} {half half' : Nat}
    : halfInstant date offset half ≤ halfInstant date offset half' ↔ half ≤ half' := by
  unfold halfInstant
  omega

theorem halfInstant_lt_iff {date offset : Int} {half half' : Nat}
    : halfInstant date offset half < halfInstant date offset half' ↔ half < half' := by
  unfold halfInstant
  omega

variable {env : ParseEnv} {offsetAt : Int → Int} {date date' offset offset' : Int}

theorem instant_timeOfHalf (h : NoDstChange env offsetAt date offset) {half : Nat}
    (hle : half ≤ 48) : (timeOfHalf env date half).instant = halfInstant date offset half := by
  have hutc := utcSecond_timeOfHalf h hle
  unfold utcSecond at hutc
  unfold IsoTime.instant halfInstant
  rw [hutc]

theorem span_periodEvent (h : NoDstChange env offsetAt date offset) (isPossible : Bool) {p : Period}
    (hlong : p.start < p.endAt) (hend : p.endAt ≤ 48)
    : (periodEvent env date isPossible p).from = halfInstant date offset p.start ∧
        (periodEvent env date isPossible p).until = halfInstant date offset p.endAt :=
  ⟨instant_timeOfHalf h (by omega), instant_timeOfHalf h hend⟩

def daySpan (date offset : Int) : Set Int :=
  Set.Ico (halfInstant date offset 0) (halfInstant date offset 48)

theorem disjoint_daySpan (h : NoDstChange env offsetAt date offset)
    (h' : NoDstChange env offsetAt date' offset') (hne : date ≠ date')
    : Disjoint (daySpan date offset) (daySpan date' offset') := by
  rw [Set.disjoint_left]
  rintro t ⟨hfrom, huntil⟩ ⟨hfrom', huntil'⟩
  unfold halfInstant at hfrom huntil hfrom' huntil'
  have hoffset : offsetAt (t / 1000000) = offset := h.instant _ (by omega) (by omega)
  have hoffset' : offsetAt (t / 1000000) = offset' := h'.instant _ (by omega) (by omega)
  rw [hoffset] at hoffset'
  omega

structure OnDay (date offset : Int) (ev : ScheduleEvent) (p : Period) : Prop where
  long : p.start < p.endAt
  ends : p.endAt ≤ 48
  start : ev.start = { date := date, half := p.start, offset := offset }
  from_eq : ev.from = halfInstant date offset p.start
  until_eq : ev.until = halfInstant date offset p.endAt

theorem onDay_periodEvent (h : NoDstChange env offsetAt date offset) (isPossible : Bool) {p : Period}
    (hlong : p.start < p.endAt) (hend : p.endAt ≤ 48)
    : OnDay date offset (periodEvent env date isPossible p) p where
  long := hlong
  ends := hend
  start := by
    rw [start_periodEvent (by omega), halfTime, h.wall p.start (by omega)]
  from_eq := (span_periodEvent h isPossible hlong hend).1
  until_eq := (span_periodEvent h isPossible hlong hend).2

theorem OnDay.subset {ev : ScheduleEvent} {p : Period} (h : OnDay date offset ev p)
    : Set.Ico ev.from ev.until ⊆ daySpan date offset := by
  rw [h.from_eq, h.until_eq]
  exact Set.Ico_subset_Ico (halfInstant_le_iff.mpr (Nat.zero_le _)) (halfInstant_le_iff.mpr h.ends)

theorem OnDay.disjoint {ev ev' : ScheduleEvent} {p q : Period} (h : OnDay date offset ev p)
    (h' : OnDay date offset ev' q) (hapart : p.endAt ≤ q.start ∨ q.endAt ≤ p.start)
    : Disjoint (Set.Ico ev.from ev.until) (Set.Ico ev'.from ev'.until) := by
  rw [Set.Ico_disjoint_Ico, h.from_eq, h.until_eq, h'.from_eq, h'.until_eq]
  cases hapart with
  | inl hle => exact (min_le_left _ _).trans ((halfInstant_le_iff.mpr hle).trans (le_max_right _ _))
  | inr hle => exact (min_le_right _ _).trans ((halfInstant_le_iff.mpr hle).trans (le_max_left _ _))

def periodsOf (hourlyData : List (String × Json)) (isPossible : Bool) : List Period :=
  if isPossible then (parseHourlySchedule hourlyData).2 else (parseHourlySchedule hourlyData).1

theorem runs_periodsOf (hourlyData : List (String × Json)) (isPossible : Bool)
    : Runs 48 (periodsOf hourlyData isPossible) := by
  unfold periodsOf
  split
  . exact (runs_parseHourlySchedule hourlyData).2
  . exact (runs_parseHourlySchedule hourlyData).1

theorem coversHalf_periodsOf (hourlyData : List (String × Json)) (isPossible : Bool) {i : Nat}
    (hi : i < 48)
    : CoversHalf (periodsOf hourlyData isPossible) i ↔
        halfOf hourlyData i = if isPossible then 2 else 1 := by
  have hshows := shows_parseHourlySchedule hourlyData
  unfold periodsOf
  split
  . rw [hshows.possible]
    exact and_iff_right hi
  . rw [hshows.planned]
    exact and_iff_right hi

theorem mem_eventsOfMap_iff {hourlyData : List (String × Json)} {ev : ScheduleEvent}
    : ev ∈ eventsOfMap env date hourlyData ↔
        ∃ p ∈ periodsOf hourlyData ev.isPossible, ev = periodEvent env date ev.isPossible p := by
  unfold eventsOfMap periodsOf
  dsimp only
  rw [List.mem_append, List.mem_map, List.mem_map]
  constructor
  . rintro (⟨p, hp, rfl⟩ | ⟨p, hp, rfl⟩)
    . exact ⟨p, hp, rfl⟩
    . exact ⟨p, hp, rfl⟩
  . rintro ⟨p, hp, heq⟩
    cases hpossible : ev.isPossible with
    | false =>
      rw [hpossible] at hp heq
      exact .inl ⟨p, hp, heq.symm⟩
    | true =>
      rw [hpossible] at hp heq
      exact .inr ⟨p, hp, heq.symm⟩

theorem onDay_of_mem (h : NoDstChange env offsetAt date offset)
    {hourlyData : List (String × Json)} {ev : ScheduleEvent} (hev : ev ∈ eventsOfMap env date hourlyData)
    : ∃ p ∈ periodsOf hourlyData ev.isPossible, OnDay date offset ev p := by
  obtain ⟨p, hp, heq⟩ := mem_eventsOfMap_iff.mp hev
  have hruns := runs_periodsOf hourlyData ev.isPossible
  refine ⟨p, hp, ?_⟩
  rw [heq]
  exact onDay_periodEvent h _ (hruns.long p hp) (hruns.ends p hp)

theorem apart_of_kinds {hourlyData : List (String × Json)} {p q : Period}
    (hp : p ∈ periodsOf hourlyData false) (hq : q ∈ periodsOf hourlyData true)
    : p.endAt ≤ q.start ∨ q.endAt ≤ p.start := by
  have hruns := runs_periodsOf hourlyData false
  have hruns' := runs_periodsOf hourlyData true
  have hp' := hruns.long p hp
  have hq' := hruns'.long q hq
  have hends := hruns.ends p hp
  have hends' := hruns'.ends q hq
  by_contra hoverlap
  -- the later one of the two starts would be marked twice
  have hi : max p.start q.start < 48 := by omega
  have hplanned := (coversHalf_periodsOf hourlyData false hi).mp ⟨p, hp, by omega, by omega⟩
  have hpossible := (coversHalf_periodsOf hourlyData true hi).mp ⟨q, hq, by omega, by omega⟩
  rw [hplanned] at hpossible
  cases hpossible

theorem disjoint_eventsOfMap (h : NoDstChange env offsetAt date offset)
    (hourlyData : List (String × Json))
    : (eventsOfMap env date hourlyData).Pairwise fun ev ev' =>
        Disjoint (Set.Ico ev.from ev.until) (Set.Ico ev'.from ev'.until) := by
  have hruns := runs_parseHourlySchedule hourlyData
  have hsame {periods : List Period} (hruns : Runs 48 periods) (isPossible : Bool)
      : (periods.map (periodEvent env date isPossible)).Pairwise fun ev ev' =>
          Disjoint (Set.Ico ev.from ev.until) (Set.Ico ev'.from ev'.until) := by
    rw [List.pairwise_map]
    refine hruns.apart.imp_of_mem ?_
    intro p q hp hq hlt
    exact (onDay_periodEvent h isPossible (hruns.long p hp) (hruns.ends p hp)).disjoint
      (onDay_periodEvent h isPossible (hruns.long q hq) (hruns.ends q hq)) (.inl hlt.le)
  unfold eventsOfMap
  rw [List.pairwise_append]
  refine ⟨hsame hruns.1 false, hsame hruns.2 true, ?_⟩
  intro ev hev ev' hev'
  obtain ⟨p, hp, rfl⟩ := List.mem_map.mp hev
  obtain ⟨q, hq, rfl⟩ := List.mem_map.mp hev'
  exact (onDay_periodEvent h false (hruns.1.long p hp) (hruns.1.ends p hp)).disjoint
    (onDay_periodEvent h true (hruns.2.long q hq) (hruns.2.ends q hq)) (apart_of_kinds hp hq)

/--
The instants in the halves of the day that the map marks as planned or as possible outages.
-/
def markedHalves (date offset : Int) (hourlyData : List (String × Json)) (isPossible : Bool)
    : Set Int :=
  {t | ∃ i < 48, halfOf hourlyData i = (if isPossible then 2 else 1) ∧
    t ∈ Set.Ico (halfInstant date offset i) (halfInstant date offset (i + 1))}

theorem exists_half {t : Int} (h : t ∈ daySpan date offset)
    : ∃ i < 48, t ∈ Set.Ico (halfInstant date offset i) (halfInstant date offset (i + 1)) := by
  unfold daySpan halfInstant at h
  obtain ⟨hfrom, huntil⟩ := h
  refine ⟨((t / 1000000 + offset - date * 86400) / 1800).toNat, ?_, ?_, ?_⟩
  . omega
  . unfold halfInstant
    omega
  . unfold halfInstant
    omega

theorem covered_eventsOfMap (h : NoDstChange env offsetAt date offset)
    (hourlyData : List (String × Json)) (isPossible : Bool)
    : coveredBy ((eventsOfMap env date hourlyData).filter (·.isPossible = isPossible)) =
        markedHalves date offset hourlyData isPossible := by
  ext t
  constructor
  . rintro ⟨ev, hev, ht⟩
    rw [List.mem_filter, decide_eq_true_eq] at hev
    obtain ⟨hev, hkind⟩ := hev
    obtain ⟨p, hp, hday⟩ := onDay_of_mem h hev
    obtain ⟨i, hi, hhalf⟩ := exists_half (hday.subset ht)
    rw [hday.from_eq, hday.until_eq] at ht
    have hstart : p.start < i + 1 := halfInstant_lt_iff.mp (ht.1.trans_lt hhalf.2)
    have hend : i < p.endAt := halfInstant_lt_iff.mp (hhalf.1.trans_lt ht.2)
    refine ⟨i, hi, ?_, hhalf⟩
    rw [← hkind]
    exact (coversHalf_periodsOf hourlyData ev.isPossible hi).mp ⟨p, hp, by omega, hend⟩
  . rintro ⟨i, hi, hmarked, hhalf⟩
    obtain ⟨p, hp, hstart, hend⟩ := (coversHalf_periodsOf hourlyData isPossible hi).mpr hmarked
    have hruns := runs_periodsOf hourlyData isPossible
    have hday := onDay_periodEvent h isPossible (hruns.long p hp) (hruns.ends p hp)
    refine ⟨periodEvent env date isPossible p, ?_, ?_⟩
    . rw [List.mem_filter, decide_eq_true_eq]
      exact ⟨mem_eventsOfMap_iff.mpr ⟨p, hp, rfl⟩, rfl⟩
    . rw [hday.from_eq, hday.until_eq]
      exact ⟨(halfInstant_le_iff.mpr hstart).trans hhalf.1,
        hhalf.2.trans_le (halfInstant_le_iff.mpr hend)⟩

theorem Runs.ne {n : Nat} {periods : List Period} (h : Runs n periods) {p q : Period}
    (hp : p ∈ periods) (hq : q ∈ periods) : p.endAt ≠ q.start := by
  by_cases heq : p = q
  . subst heq
    exact (h.long p hp).ne'
  . have : Std.Symm fun p q : Period => p.endAt < q.start ∨ q.endAt < p.start := ⟨fun _ _ => Or.symm⟩
    have happart : periods.Pairwise fun p q => p.endAt < q.start ∨ q.endAt < p.start :=
      h.apart.imp Or.inl
    have heither := happart.forall hp hq heq
    have hlong := h.long p hp
    have hlong' := h.long q hq
    omega

theorem apart_eventsOfMap (h : NoDstChange env offsetAt date offset)
    {hourlyData : List (String × Json)} {ev ev' : ScheduleEvent}
    (hev : ev ∈ eventsOfMap env date hourlyData) (hev' : ev' ∈ eventsOfMap env date hourlyData)
    (hkind : ev.isPossible = ev'.isPossible) : ev.until ≠ ev'.from := by
  obtain ⟨p, hp, hday⟩ := onDay_of_mem h hev
  obtain ⟨q, hq, hday'⟩ := onDay_of_mem h hev'
  rw [← hkind] at hq
  rw [hday.until_eq, hday'.from_eq]
  intro htouch
  apply (runs_periodsOf hourlyData ev.isPossible).ne hp hq
  exact Nat.le_antisymm (halfInstant_le_iff.mp htouch.le) (halfInstant_le_iff.mp htouch.ge)

/--
The events of the day cover just what the map marks, kind by kind, and no two of one kind touch.
-/
structure DayIsExact (events : List ScheduleEvent) (date offset : Int)
    (hourlyData : List (String × Json)) : Prop where
  marked : ∀ isPossible,
    coveredBy ((filterEventsForDate events date).filter (·.isPossible = isPossible)) =
      markedHalves date offset hourlyData isPossible
  apart : ∀ ev ∈ filterEventsForDate events date, ∀ ev' ∈ filterEventsForDate events date,
    ev.isPossible = ev'.isPossible → ev.until ≠ ev'.from

theorem dayIsExact_of_mem (h : NoDstChange env offsetAt date offset) {events : List ScheduleEvent}
    {hourlyData : List (String × Json)}
    (hmem : ∀ ev, ev ∈ filterEventsForDate events date ↔ ev ∈ eventsOfMap env date hourlyData)
    : DayIsExact events date offset hourlyData where
  marked isPossible := by
    rw [← covered_eventsOfMap h]
    apply covered_congr
    intro ev
    rw [List.mem_filter, List.mem_filter, hmem]
  apart ev hev ev' hev' := apart_eventsOfMap h ((hmem ev).mp hev) ((hmem ev').mp hev')

/--
As `utcoffset` has it: less than a day ahead of UTC or behind it.
-/
def OffsetsWithinDay (env : ParseEnv) : Prop :=
  ∀ date half, -86400 < env.utcOffset date half ∧ env.utcOffset date half < 86400

theorem daySpan_before (h : NoDstChange env offsetAt date offset)
    (h' : NoDstChange env offsetAt date' offset') (hzone : OffsetsWithinDay env) (hlt : date < date')
    : halfInstant date offset 48 ≤ halfInstant date' offset' 0 := by
  have hdisjoint := disjoint_daySpan h h' (ne_of_lt hlt)
  have hoffset := hzone date 0
  have hoffset' := hzone date' 0
  rw [h.wall 0 (by omega)] at hoffset
  rw [h'.wall 0 (by omega)] at hoffset'
  unfold daySpan at hdisjoint
  rw [Set.Ico_disjoint_Ico] at hdisjoint
  unfold halfInstant at hdisjoint ⊢
  omega

variable {today tomorrow : List (String × Json)}

theorem date_of_mem (h : NoDstChange env offsetAt date offset) {ev : ScheduleEvent}
    (hev : ev ∈ eventsOfMap env date today) : ev.start.date = date := by
  obtain ⟨p, _, hday⟩ := onDay_of_mem h hev
  rw [hday.start]

theorem IsoTime.le_iff {a b : IsoTime}
    : a.le b = true ↔ @LT.lt Int _ a.date b.date ∨ (@Eq Int a.date b.date ∧
        (a.half < b.half ∨ (a.half = b.half ∧ a.offset ≤ b.offset))) := by
  unfold IsoTime.le
  rw [decide_eq_true_eq]

theorem IsoTime.le_total (a b : IsoTime) : a.le b = true ∨ b.le a = true := by
  rw [IsoTime.le_iff, IsoTime.le_iff]
  omega

theorem IsoTime.le_trans {a b c : IsoTime} (h : a.le b = true) (h' : b.le c = true)
    : a.le c = true := by
  rw [IsoTime.le_iff] at h h' ⊢
  omega

theorem pairwise_sortEvents (events : List ScheduleEvent)
    : (sortEvents events).Pairwise fun ev ev' => ev.start.le ev'.start = true := by
  unfold sortEvents
  have : Std.Total fun a b : ScheduleEvent => a.start.le b.start = true :=
    ⟨fun a b => IsoTime.le_total a.start b.start⟩
  have : IsTrans ScheduleEvent fun a b => a.start.le b.start = true :=
    ⟨fun _ _ _ => IsoTime.le_trans⟩
  apply List.pairwise_insertionSort

theorem from_le_of_le (h : NoDstChange env offsetAt date offset)
    (h' : NoDstChange env offsetAt date' offset') (hzone : OffsetsWithinDay env)
    {ev ev' : ScheduleEvent} {p q : Period} (hday : OnDay date offset ev p)
    (hday' : OnDay date' offset' ev' q) (hle : ev.start.le ev'.start = true) : ev.from ≤ ev'.from := by
  rw [IsoTime.le_iff, hday.start, hday'.start] at hle
  rw [hday.from_eq, hday'.from_eq]
  rcases hle with hlt | ⟨heq, hhalf⟩
  . have hbefore := daySpan_before h h' hzone hlt
    have hlong := hday.long
    have hends := hday.ends
    calc halfInstant date offset p.start
      _ ≤ halfInstant date offset 48 := halfInstant_le_iff.mpr (by omega)
      _ ≤ halfInstant date' offset' 0 := hbefore
      _ ≤ halfInstant date' offset' q.start := halfInstant_le_iff.mpr (Nat.zero_le _)
  . dsimp only at heq hhalf
    subst heq
    have hoffset := (h.wall 0 (by omega)).symm.trans (h'.wall 0 (by omega))
    subst hoffset
    exact halfInstant_le_iff.mpr (by omega)

theorem normalForm_twoDays (h : NoDstChange env offsetAt date offset)
    (h' : NoDstChange env offsetAt date' offset') (hzone : OffsetsWithinDay env) (hne : date ≠ date')
    : InNormalForm (sortEvents (eventsOfMap env date today ++ eventsOfMap env date' tomorrow)) where
  nonempty := by
    intro ev hev
    cases List.mem_append.mp (mem_sortEvents.mp hev) with
    | inl hev =>
      obtain ⟨p, _, hday⟩ := onDay_of_mem h hev
      rw [hday.from_eq, hday.until_eq]
      exact halfInstant_lt_iff.mpr hday.long
    | inr hev =>
      obtain ⟨p, _, hday⟩ := onDay_of_mem h' hev
      rw [hday.from_eq, hday.until_eq]
      exact halfInstant_lt_iff.mpr hday.long
  sorted := by
    refine (pairwise_sortEvents _).imp_of_mem ?_
    intro ev ev' hev hev' hle
    cases List.mem_append.mp (mem_sortEvents.mp hev) with
    | inl hev =>
      obtain ⟨p, _, hday⟩ := onDay_of_mem h hev
      cases List.mem_append.mp (mem_sortEvents.mp hev') with
      | inl hev' =>
        obtain ⟨q, _, hday'⟩ := onDay_of_mem h hev'
        exact from_le_of_le h h hzone hday hday' hle
      | inr hev' =>
        obtain ⟨q, _, hday'⟩ := onDay_of_mem h' hev'
        exact from_le_of_le h h' hzone hday hday' hle
    | inr hev =>
      obtain ⟨p, _, hday⟩ := onDay_of_mem h' hev
      cases List.mem_append.mp (mem_sortEvents.mp hev') with
      | inl hev' =>
        obtain ⟨q, _, hday'⟩ := onDay_of_mem h hev'
        exact from_le_of_le h' h hzone hday hday' hle
      | inr hev' =>
        obtain ⟨q, _, hday'⟩ := onDay_of_mem h' hev'
        exact from_le_of_le h' h' hzone hday hday' hle
  disjoint := by
    have hperm := List.perm_insertionSort (fun a b : ScheduleEvent => a.start.le b.start = true)
      (eventsOfMap env date today ++ eventsOfMap env date' tomorrow)
    refine (hperm.pairwise_iff fun hdisjoint => hdisjoint.symm).mpr ?_
    rw [List.pairwise_append]
    refine ⟨disjoint_eventsOfMap h today, disjoint_eventsOfMap h' tomorrow, ?_⟩
    intro ev hev ev' hev'
    obtain ⟨p, _, hday⟩ := onDay_of_mem h hev
    obtain ⟨q, _, hday'⟩ := onDay_of_mem h' hev'
    exact (disjoint_daySpan h h' hne).mono hday.subset hday'.subset

theorem mem_filterEventsForDate_twoDays (h : NoDstChange env offsetAt date offset)
    (h' : NoDstChange env offsetAt date' offset') (hne : date ≠ date') {ev : ScheduleEvent}
    : (ev ∈ filterEventsForDate
          (sortEvents (eventsOfMap env date today ++ eventsOfMap env date' tomorrow)) date ↔
        ev ∈ eventsOfMap env date today) ∧
      (ev ∈ filterEventsForDate
          (sortEvents (eventsOfMap env date today ++ eventsOfMap env date' tomorrow)) date' ↔
        ev ∈ eventsOfMap env date' tomorrow) := by
  unfold filterEventsForDate
  simp only [List.mem_filter, mem_sortEvents, List.mem_append, decide_eq_true_eq]
  constructor
  . constructor
    . rintro ⟨hev | hev, hdate⟩
      . exact hev
      . exact absurd (hdate.symm.trans (date_of_mem h' hev)) hne
    . intro hev
      exact ⟨.inl hev, date_of_mem h hev⟩
  . constructor
    . rintro ⟨hev | hev, hdate⟩
      . exact absurd ((date_of_mem h hev).symm.trans hdate) hne
      . exact hev
    . intro hev
      exact ⟨.inr hev, date_of_mem h' hev⟩

/-! ## `parse_schedule_for_queue` -/

/--
The parser returns events in normal form, all of them on the two days and exact for the maps of these.
-/
def ParsesToNormalForm (env : ParseEnv) (rawData : Json) (queue : String) (date offset : Int)
    (today : List (String × Json)) (date' offset' : Int) (tomorrow : List (String × Json)) : Prop :=
  ∃ sched, parseScheduleForQueue env rawData queue = some sched ∧
    InNormalForm sched.events ∧
    DayIsExact sched.events date offset today ∧ DayIsExact sched.events date' offset' tomorrow ∧
    ∀ ev ∈ sched.events, ev.start.date = date ∨ ev.start.date = date'

theorem markedHalves_eq_empty_iff {hourlyData : List (String × Json)}
    : (∀ isPossible, markedHalves date offset hourlyData isPossible = ∅) ↔
        ∀ i < 48, halfOf hourlyData i = 0 := by
  constructor
  . intro hempty i hi
    by_contra hmarked
    have hinstant : halfInstant date offset i ∈
        Set.Ico (halfInstant date offset i) (halfInstant date offset (i + 1)) :=
      ⟨le_rfl, halfInstant_lt_iff.mpr (Nat.lt_succ_self i)⟩
    cases half_eq_one_or_two hmarked with
    | inl hplanned =>
      exact (Set.eq_empty_iff_forall_notMem.mp (hempty false)) _ ⟨i, hi, hplanned, hinstant⟩
    | inr hpossible =>
      exact (Set.eq_empty_iff_forall_notMem.mp (hempty true)) _ ⟨i, hi, hpossible, hinstant⟩
  . intro hzero isPossible
    rw [Set.eq_empty_iff_forall_notMem]
    rintro t ⟨i, hi, hmarked, _⟩
    rw [hzero i hi] at hmarked
    cases isPossible <;> cases hmarked

theorem markedHalves_nil (isPossible : Bool) : markedHalves date offset [] isPossible = ∅ :=
  markedHalves_eq_empty_iff.mpr (fun _ _ => rfl) isPossible

structure TwoDays (events : List ScheduleEvent) (date offset : Int) (today : List (String × Json))
    (date' offset' : Int) (tomorrow : List (String × Json)) : Prop where
  normal : InNormalForm events
  today : DayIsExact events date offset today
  tomorrow : DayIsExact events date' offset' tomorrow
  dates : ∀ ev ∈ events, ev.start.date = date ∨ ev.start.date = date'

theorem twoDays_sortEvents (h : NoDstChange env offsetAt date offset)
    (h' : NoDstChange env offsetAt date' offset') (hzone : OffsetsWithinDay env) (hne : date ≠ date')
    : TwoDays (sortEvents (eventsOfMap env date today ++ eventsOfMap env date' tomorrow)) date offset today
        date' offset' tomorrow where
  normal := normalForm_twoDays h h' hzone hne
  today := dayIsExact_of_mem h fun _ => (mem_filterEventsForDate_twoDays h h' hne).1
  tomorrow := dayIsExact_of_mem h' fun _ => (mem_filterEventsForDate_twoDays h h' hne).2
  dates ev hev := by
    rw [mem_sortEvents, List.mem_append] at hev
    exact hev.imp (date_of_mem h) (date_of_mem h')

theorem twoDays_iff {events : List ScheduleEvent} {parsed : List (String × Json)}
    (h : TwoDays events date offset today date' offset' parsed)
    : TwoDays events date offset today date' offset' tomorrow ↔
        ∀ isPossible, markedHalves date' offset' parsed isPossible =
          markedHalves date' offset' tomorrow isPossible := by
  constructor
  . intro h' isPossible
    rw [← h.tomorrow.marked, h'.tomorrow.marked]
  . intro hmarked
    refine { h with tomorrow := ⟨?_, h.tomorrow.apart⟩ }
    intro isPossible
    rw [h.tomorrow.marked, hmarked]

/--
The parser returns the normal form of the two maps if and only if the second timestamp is not 0 or its
map marks no outage, and no outage ends with the calendar.
-/
theorem parsesToNormalForm_iff {rawData : Json} {queue : String} {payload : Payload}
    (hpayload : payloadOf rawData = some payload)
    (hmetadata : iterCandidates payload.fact ++ iterCandidates payload.raw = [])
    {todayTs tomorrowTs : Int} {rest : List Int}
    (htimestamps : timestampsOf env payload.factData = some (todayTs :: tomorrowTs :: rest))
    (htoday : env.fromtimestamp todayTs = some date)
    (htomorrow : env.fromtimestamp tomorrowTs = some date') (hne : date ≠ date')
    (hmap : HourlyMap payload.factData todayTs ("GPV" ++ queue) today)
    (hmap' : HourlyMap payload.factData tomorrowTs ("GPV" ++ queue) tomorrow)
    (hzone : OffsetsWithinDay env) (hdst : NoDstChange env offsetAt date offset)
    (hdst' : NoDstChange env offsetAt date' offset')
    : ParsesToNormalForm env rawData queue date offset today date' offset' tomorrow
        ↔
      (tomorrowTs ≠ 0 ∨ ∀ state ∈ hourlyRow tomorrow, state = .on) ∧
        EndsInCalendar date today ∧ EndsInCalendar date' tomorrow := by
  obtain ⟨schedOf, hsched, hevents⟩ := parseScheduleForQueue_eq queue hpayload hmetadata htimestamps
  rw [parseEvents_eq rest htoday htomorrow hmap hmap'] at hsched
  have htwo : TwoDays (sortEvents (eventsOfMap env date today ++
      eventsOfMap env date' (parsedTomorrow tomorrowTs tomorrow))) date offset today date' offset'
        (parsedTomorrow tomorrowTs tomorrow) :=
    twoDays_sortEvents hdst hdst' hzone hne
  have hiff : ParsesToNormalForm env rawData queue date offset today date' offset' tomorrow ↔
      (∀ isPossible, markedHalves date' offset' (parsedTomorrow tomorrowTs tomorrow) isPossible =
        markedHalves date' offset' tomorrow isPossible) ∧
        EndsInCalendar date today ∧ EndsInCalendar date' (parsedTomorrow tomorrowTs tomorrow) := by
    unfold ParsesToNormalForm
    rw [hsched, ← twoDays_iff htwo]
    by_cases hcalendar : EndsInCalendar date today ∧
        EndsInCalendar date' (parsedTomorrow tomorrowTs tomorrow)
    . rw [if_pos hcalendar]
      simp only [Option.map_some, Option.some.injEq, exists_eq_left', hevents]
      constructor
      . rintro ⟨hnormal, htoday, htomorrow, hdates⟩
        exact ⟨⟨hnormal, htoday, htomorrow, hdates⟩, hcalendar⟩
      . rintro ⟨h, _⟩
        exact ⟨h.normal, h.today, h.tomorrow, h.dates⟩
    . rw [if_neg hcalendar]
      apply iff_of_false
      . rintro ⟨_, hnone, _⟩
        cases hnone
      . exact fun h => hcalendar h.2
  rw [hiff]
  unfold parsedTomorrow
  split
  . next hts => exact and_congr_left' (iff_of_true (fun _ => rfl) (.inl hts))
  . next hts =>
    have hempty : (∀ isPossible, markedHalves date' offset' tomorrow isPossible = ∅) ↔ _ :=
      markedHalves_eq_empty_iff
    rw [or_iff_right hts, allOn_iff, ← hempty]
    simp only [markedHalves_nil, eq_comm (a := (∅ : Set Int))]
    apply and_congr_right
    intro hnone
    apply and_congr_right'
    exact iff_of_true (.inr rfl) (.inr (hempty.mp hnone 47 (by decide)))

theorem offsetsWithinDay_fixedEnv {offset : Int} (texts : List (String × Int)) (hlow : -86400 < offset)
    (hhigh : offset < 86400) : OffsetsWithinDay (fixedEnv offset texts) :=
  fun _ _ => ⟨hlow, hhigh⟩

theorem parsesToNormalForm_january
    : ParsesToNormalForm januaryEnv
        (payloadWith "1768168800" "1768255200" januaryToday januaryTomorrow) "1.1" 20465 7200
        januaryToday 20466 7200 januaryTomorrow := by
  have htimestamps : timestampsOf januaryEnv [
      ("1768168800", .obj [("GPV1.1", .obj januaryToday)]),
      ("1768255200", .obj [("GPV1.1", .obj januaryTomorrow)])] = some [1768168800, 1768255200] := by
    decide +kernel
  have hmap : HourlyMap [
      ("1768168800", .obj [("GPV1.1", .obj januaryToday)]),
      ("1768255200", .obj [("GPV1.1", .obj januaryTomorrow)])] 1768168800 ("GPV" ++ "1.1")
        januaryToday := ⟨_, rfl, rfl⟩
  have hmap' : HourlyMap [
      ("1768168800", .obj [("GPV1.1", .obj januaryToday)]),
      ("1768255200", .obj [("GPV1.1", .obj januaryTomorrow)])] 1768255200 ("GPV" ++ "1.1")
        januaryTomorrow := ⟨_, rfl, rfl⟩
  refine (parsesToNormalForm_iff rfl rfl htimestamps rfl rfl (by decide) hmap hmap' ?_
    (noDstChange_fixedEnv 7200 _ 20465) (noDstChange_fixedEnv 7200 _ 20466)).mpr ⟨?_, ?_, ?_⟩
  . exact offsetsWithinDay_fixedEnv _ (by decide) (by decide)
  . decide
  . decide +kernel
  . decide +kernel

theorem not_parsesToNormalForm_epochPayload
    : payloadOf epochPayload ≠ none ∧
        ¬ ParsesToNormalForm epochEnv epochPayload "1.1" (-1) 10800 [("1", .str "no")] 0 10800
          [("1", .str "no")] := by
  refine ⟨nofun, ?_⟩
  rintro ⟨sched, hsched, _, _, hexact, _⟩
  have hnone : (parseScheduleForQueue epochEnv epochPayload "1.1").map
      (fun sched => filterEventsForDate sched.events 0) = some [] := by
    decide +kernel
  rw [hsched, Option.map_some, Option.some.injEq] at hnone
  have hmarked := hexact.marked false
  rw [hnone, List.filter_nil, coveredBy, covered_nil] at hmarked
  have hmidnight : halfInstant 0 10800 0 ∈ markedHalves 0 10800 [("1", .str "no")] false :=
    ⟨0, by decide, by decide, by decide, by decide⟩
  rw [← hmarked] at hmidnight
  exact hmidnight

theorem hasData_parseScheduleForQueue {rawData : Json} {queue : String} {sched : Sched}
    (h : parseScheduleForQueue env rawData queue = some sched)
    : sched.hasData = !sched.events.isEmpty := by
  unfold parseScheduleForQueue at h
  split at h
  . cases h
    rfl
  . simp only [Option.bind_eq_bind, Option.bind_eq_some_iff] at h
    obtain ⟨_, _, _, _, _, _, h⟩ := h
    cases h
    rfl

end Scheduler
