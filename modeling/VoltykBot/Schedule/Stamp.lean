import VoltykBot.Lib.Civil
import VoltykBot.Lib.PyText
import VoltykBot.Schedule.HourStates

/-!
This module contains `_normalize_dtek_updated_at`, which reads the update timestamps of a payload in many
spellings, and what the parsed schedule owes to these timestamps.
-/

namespace Scheduler

/--
The end of the calendar, counted from the first of January of year 1.
-/
def calendarEndUs : Int := 3652059 * dayUs

def InCalendar (us : Int) : Prop := 0 ≤ us ∧ us < calendarEndUs

instance (us : Int) : Decidable (InCalendar us) := inferInstanceAs (Decidable (_ ∧ _))

abbrev NaiveTime := { us : Int // InCalendar us }

inductive PyError where
  | valueError
  | overflowError
  | osError
  deriving DecidableEq, Repr

/--
What the normalizer takes from its surroundings: what the clocks of the zone are ahead of UTC, in seconds;
`int` of a float; `strptime` for a format, and `fromisoformat` with the offset in microseconds, both
`none` where they raise a `ValueError`.
-/
structure StampEnv where
  offsetAt : Int → Int
  intOfFloat : Int → Int → Except PyError Int
  strptime : String → List Char → Option NaiveTime
  fromisoformat : List Char → Option (NaiveTime × Option Int)

namespace StampEnv

variable (z : StampEnv)

def kyivUs (utcUs : Int) : Int := utcUs + z.offsetAt (utcUs / 1000000) * 1000000

def fromutc (utcUs : Int) : Except PyError NaiveTime :=
  if h : InCalendar (z.kyivUs utcUs) then .ok ⟨_, h⟩ else .error .overflowError

/--
The timestamps between these are the ones whose year fits into an `int` of C.
-/
def firstTmTimestamp : Int := -67768040609740800

def endTmTimestamp : Int := 67768036191676800

def utcUsOf (ts : Int) : Int := (ts + 62135596800) * 1000000

def fromtimestamp (ts : Int) : Except PyError NaiveTime :=
  if ts < -2 ^ 63 ∨ 2 ^ 63 ≤ ts then .error .overflowError
  else if ts < firstTmTimestamp ∨ endTmTimestamp ≤ ts then .error .osError
  else if InCalendar (utcUsOf ts) then z.fromutc (utcUsOf ts)
  else .error .valueError

def astimezone (t : NaiveTime) (offset : Int) : Except PyError NaiveTime :=
  if InCalendar (t - offset) then z.fromutc (t - offset) else .error .overflowError

/--
`strftime("%d.%m.%Y %H:%M")`
-/
def strftime (t : NaiveTime) : String :=
  (Civil.ofDays (t / dayUs)).dayMonthYear ++ " " ++ Civil.twoDigits (t % dayUs / hourUs).toNat ++ ":" ++
    Civil.twoDigits (t % hourUs / minuteUs).toNat

def shown (t : Except PyError NaiveTime) : Except PyError (Option String) :=
  t.map fun t => some (strftime t)

def knownFormats : List String := [
  "%d.%m.%Y %H:%M", "%d.%m.%Y %H:%M:%S", "%Y-%m-%d %H:%M", "%Y-%m-%d %H:%M:%S", "%Y-%m-%dT%H:%M",
  "%Y-%m-%dT%H:%M:%S"]

def readKnown (raw : List Char) : Option NaiveTime := knownFormats.findSome? (z.strptime · raw)

def readIso (raw : List Char) : Option (NaiveTime × Option Int) :=
  z.fromisoformat (raw.flatMap fun c => if c = 'Z' then "+00:00".toList else [c])

def normalizeDigits (raw : List Char) : Except PyError (Option String) :=
  match PyText.int raw with
  | none => .ok none
  | some ts =>
    match z.fromtimestamp ts with
    | .ok t => .ok (some (strftime t))
    | .error .osError => .error .osError
    | .error _ => .ok none

def normalizeText (raw : List Char) : Except PyError (Option String) :=
  if raw = [] then
    .ok none
  else if raw.all PyText.isDigit then
    z.normalizeDigits raw
  else
    match z.readKnown raw with
    -- a naive time gets the Kyiv zone, and `astimezone` to its own zone changes nothing
    | some t => .ok (some (strftime t))
    | none =>
      match z.readIso raw with
      | none => .ok none
      | some (t, none) => .ok (some (strftime t))
      | some (t, some offset) => shown (z.astimezone t offset)

def normalizeDtekUpdatedAt (value : Json) : Except PyError (Option String) :=
  match value with
  | .bool b => shown (z.fromtimestamp (if b then 1 else 0))
  | .int n => shown (z.fromtimestamp n)
  | .float mantissa exponent => shown ((z.intOfFloat mantissa exponent).bind z.fromtimestamp)
  | .str s => z.normalizeText (PyText.strip s.toList)
  | .null => .ok none
  | .arr _ => .ok none
  | .obj _ => .ok none

def parseEnv (env : ParseEnv) : ParseEnv :=
  { env with normalizeDtekUpdatedAt := fun value => (z.normalizeDtekUpdatedAt value).toOption }

def stampShape : List Char := "DD.MM.YYYY HH:MM".toList

def fits (shape c : Char) : Bool := if shape.isAlpha then c.isDigit else c = shape

def IsStamp (text : String) : Prop :=
  List.Forall₂ (fun shape c => fits shape c = true) stampShape text.toList

def millenniumUs : Int := 364877 * dayUs

theorem digits_year {year : Int} (hpos : 0 < year)
    : (∀ c ∈ (toString year).toList, c.isDigit = true) ∧
        ∀ k, 0 < k → ((toString year).toList.length ≤ k ↔ year < 10 ^ k) := by
  obtain ⟨n, rfl⟩ := Int.eq_ofNat_of_zero_le (Int.le_of_lt hpos)
  have htext : (toString (n : Int)).toList = Nat.toDigits 10 n := by
    rw [Int.toString_eq_repr, Int.repr_eq_if, if_pos (Int.natCast_nonneg n), Int.toNat_natCast,
      Nat.toList_repr]
  rw [htext]
  refine ⟨fun c hc => Nat.isDigit_of_mem_toDigits (by decide) (by decide) hc, ?_⟩
  intro k hk
  rw [Nat.length_toDigits_le_iff (by decide) hk]
  norm_cast

theorem isStamp_iff_length {text : String} {d d' m m' h h' n n' : Char} {year : List Char}
    (htext : text.toList = d :: d' :: '.' :: m :: m' :: '.' :: (year ++ [' ', h, h', ':', n, n']))
    (hdigits : ∀ c ∈ d :: d' :: m :: m' :: h :: h' :: n :: n' :: year, c.isDigit = true)
    : IsStamp text ↔ year.length = 4 := by
  unfold IsStamp
  rw [htext]
  constructor
  . intro hfits
    have hlength := hfits.length_eq
    simp only [List.length_cons, List.length_append, List.length_nil] at hlength
    have hshape : stampShape.length = 16 := rfl
    omega
  . intro hlength
    match year, hlength with
    | [y₁, y₂, y₃, y₄], _ =>
      simp only [List.forall_mem_cons] at hdigits
      have hshape : stampShape = ['D', 'D', '.', 'M', 'M', '.', 'Y', 'Y', 'Y', 'Y', ' ', 'H', 'H', ':', 'M',
        'M'] := rfl
      rw [hshape]
      simp [fits, hdigits]

theorem isStamp_strftime (t : NaiveTime) : IsStamp (strftime t) ↔ millenniumUs ≤ t := by
  obtain ⟨us, hfrom, huntil⟩ := t
  dsimp only
  have hdays : 0 ≤ us / dayUs ∧ us / dayUs < 3652059 ∧ (364877 ≤ us / dayUs ↔ millenniumUs ≤ us) := by
    unfold calendarEndUs at huntil
    unfold millenniumUs
    unfold dayUs hourUs at *
    omega
  obtain ⟨hnonneg, hlt, hmillennium⟩ := hdays
  obtain ⟨h1000, h10000, hpos⟩ := @Civil.year_bounds (us / dayUs)
  obtain ⟨⟨_, hmonth, _, hday⟩, _⟩ := Civil.ofDays_spec (us / dayUs)
  have hday := Nat.le_trans hday (Civil.monthLengths_le _ _)
  have hhour : (us % dayUs / hourUs).toNat < 100 := by
    unfold dayUs hourUs
    omega
  have hminute : (us % hourUs / minuteUs).toNat < 100 := by
    unfold hourUs minuteUs
    omega
  obtain ⟨d, d', hdayText, hd, hd'⟩ :=
    Civil.digits_twoDigits (show (Civil.ofDays (us / dayUs)).day < 100 by omega)
  obtain ⟨m, m', hmonthText, hm, hm'⟩ :=
    Civil.digits_twoDigits (show (Civil.ofDays (us / dayUs)).month < 100 by omega)
  obtain ⟨h, h', hhourText, hh, hh'⟩ := Civil.digits_twoDigits hhour
  obtain ⟨n, n', hminuteText, hn, hn'⟩ := Civil.digits_twoDigits hminute
  obtain ⟨hyear, hlength⟩ := digits_year (hpos.mpr hnonneg)
  have htext : (strftime ⟨us, hfrom, huntil⟩).toList = d :: d' :: '.' :: m :: m' :: '.' ::
      ((toString (Civil.ofDays (us / dayUs)).year).toList ++ [' ', h, h', ':', n, n']) := by
    unfold strftime Civil.Date.dayMonthYear
    simp only [String.toList_append, hdayText, hmonthText, hhourText, hminuteText]
    simp
  rw [isStamp_iff_length htext]
  . have hle := hlength 4 (by decide)
    have hgt := hlength 3 (by decide)
    omega
  . simp only [List.forall_mem_cons]
    exact ⟨hd, hd', hm, hm', hh, hh', hn, hn', hyear⟩

theorem shown_ne_none (t : Except PyError NaiveTime) : shown t ≠ .ok none := by
  cases t <;> exact nofun

theorem shown_isStamp_iff {t : Except PyError NaiveTime}
    : (∃ text, shown t = .ok (some text) ∧ IsStamp text) ↔ ∃ time, t = .ok time ∧ millenniumUs ≤ time := by
  cases t with
  | error e =>
    apply iff_of_false
    . rintro ⟨_, hshown, _⟩
      cases hshown
    . rintro ⟨_, ht, _⟩
      cases ht
  | ok time =>
    constructor
    . rintro ⟨text, hshown, hstamp⟩
      have htext : strftime time = text := Option.some.inj (Except.ok.inj hshown)
      rw [← htext] at hstamp
      exact ⟨time, rfl, (isStamp_strftime time).mp hstamp⟩
    . rintro ⟨_, ht, hmillennium⟩
      cases ht
      exact ⟨_, rfl, (isStamp_strftime time).mpr hmillennium⟩

variable {z}

theorem fromutc_eq_ok_iff {utcUs : Int} {time : NaiveTime}
    : z.fromutc utcUs = .ok time ↔ z.kyivUs utcUs = time := by
  unfold fromutc
  split
  . next hin =>
    rw [Except.ok.injEq, Subtype.ext_iff]
  . next hout =>
    apply iff_of_false
    . exact nofun
    . intro heq
      exact hout (heq ▸ time.property)

theorem bounds_of_inCalendar {ts : Int} (h : InCalendar (utcUsOf ts))
    : -62135596800 ≤ ts ∧ ts < 253402300800 := by
  unfold InCalendar utcUsOf calendarEndUs dayUs hourUs at h
  omega

theorem fromtimestamp_of_inCalendar {ts : Int} (h : InCalendar (utcUsOf ts))
    : z.fromtimestamp ts = z.fromutc (utcUsOf ts) := by
  have hbounds := bounds_of_inCalendar h
  unfold fromtimestamp firstTmTimestamp endTmTimestamp
  rw [if_neg (by omega), if_neg (by omega), if_pos h]

theorem fromtimestamp_eq_ok_iff {ts : Int} {time : NaiveTime}
    : z.fromtimestamp ts = .ok time ↔ InCalendar (utcUsOf ts) ∧ z.kyivUs (utcUsOf ts) = time := by
  by_cases h : InCalendar (utcUsOf ts)
  . rw [fromtimestamp_of_inCalendar h, fromutc_eq_ok_iff, and_iff_right h]
  . apply iff_of_false
    . unfold fromtimestamp
      rw [if_neg h]
      split
      . exact nofun
      . split <;> exact nofun
    . exact fun hboth => h hboth.1

theorem fromtimestamp_osError_iff {ts : Nat}
    : z.fromtimestamp ts = .error .osError ↔ endTmTimestamp ≤ ts ∧ (ts : Int) < 2 ^ 63 := by
  by_cases h : InCalendar (utcUsOf ts)
  . have hbounds := bounds_of_inCalendar h
    rw [fromtimestamp_of_inCalendar h]
    apply iff_of_false
    . unfold fromutc
      split <;> exact nofun
    . unfold endTmTimestamp
      omega
  . unfold fromtimestamp
    rw [if_neg h]
    split
    . next hoverflow =>
      apply iff_of_false
      . exact nofun
      . omega
    . split
      . next hos =>
        refine iff_of_true rfl ?_
        unfold firstTmTimestamp at hos
        omega
      . next hos =>
        apply iff_of_false
        . exact nofun
        . omega

variable (z)

def TimestampInCalendar (ts : Int) : Prop := InCalendar (utcUsOf ts) ∧ InCalendar (z.kyivUs (utcUsOf ts))

def HasFourDigitYear (utcUs : Int) : Prop :=
  InCalendar utcUs ∧ millenniumUs ≤ z.kyivUs utcUs ∧ z.kyivUs utcUs < calendarEndUs

def TextIgnored (raw : List Char) : Prop :=
  raw = [] ∨
    (raw.all PyText.isDigit = true ∧ ∀ ts, PyText.int raw = some ts →
      ¬ z.TimestampInCalendar ts ∧ ¬ (endTmTimestamp ≤ ts ∧ (ts : Int) < 2 ^ 63)) ∨
    (raw.all PyText.isDigit = false ∧ z.readKnown raw = none ∧ z.readIso raw = none)

def TextDated (raw : List Char) : Prop :=
  raw ≠ [] ∧
    ((raw.all PyText.isDigit = true ∧ ∃ ts, PyText.int raw = some ts ∧ z.HasFourDigitYear (utcUsOf ts)) ∨
      (raw.all PyText.isDigit = false ∧
        ((∃ t, z.readKnown raw = some t ∧ millenniumUs ≤ t) ∨
          (z.readKnown raw = none ∧
            ((∃ t, z.readIso raw = some (t, none) ∧ millenniumUs ≤ t) ∨
              ∃ t offset, z.readIso raw = some (t, some offset) ∧ z.HasFourDigitYear (t - offset))))))

def Ignored (value : Json) : Prop :=
  match value with
  | .null | .arr _ | .obj _ => True
  | .str s => z.TextIgnored (PyText.strip s.toList)
  | .bool _ | .int _ | .float _ _ => False

def Dated (value : Json) : Prop :=
  match value with
  | .null | .arr _ | .obj _ => False
  | .str s => z.TextDated (PyText.strip s.toList)
  | .bool b => z.HasFourDigitYear (utcUsOf (if b then 1 else 0))
  | .int n => z.HasFourDigitYear (utcUsOf n)
  | .float mantissa exponent =>
    ∃ ts, z.intOfFloat mantissa exponent = .ok ts ∧ z.HasFourDigitYear (utcUsOf ts)

variable {z}

theorem inCalendar_of_millennium {us : Int} (h : millenniumUs ≤ us) : 0 ≤ us := by
  unfold millenniumUs dayUs hourUs at h
  omega

theorem fromutc_fourDigitYear_iff {utcUs : Int} (h : InCalendar utcUs)
    : (∃ time, z.fromutc utcUs = .ok time ∧ millenniumUs ≤ time) ↔ z.HasFourDigitYear utcUs := by
  constructor
  . rintro ⟨time, htime, hmillennium⟩
    rw [fromutc_eq_ok_iff] at htime
    unfold HasFourDigitYear
    rw [htime]
    exact ⟨h, hmillennium, time.property.2⟩
  . rintro ⟨_, hmillennium, hend⟩
    exact ⟨⟨_, inCalendar_of_millennium hmillennium, hend⟩, fromutc_eq_ok_iff.mpr rfl, hmillennium⟩

theorem fromtimestamp_fourDigitYear_iff {ts : Int}
    : (∃ time, z.fromtimestamp ts = .ok time ∧ millenniumUs ≤ time) ↔
        z.HasFourDigitYear (utcUsOf ts) := by
  by_cases h : InCalendar (utcUsOf ts)
  . rw [fromtimestamp_of_inCalendar h, fromutc_fourDigitYear_iff h]
  . apply iff_of_false
    . rintro ⟨time, htime, _⟩
      exact h (fromtimestamp_eq_ok_iff.mp htime).1
    . exact fun hyear => h hyear.1

theorem astimezone_fourDigitYear_iff {t : NaiveTime} {offset : Int}
    : (∃ time, z.astimezone t offset = .ok time ∧ millenniumUs ≤ time) ↔
        z.HasFourDigitYear (t - offset) := by
  unfold astimezone
  split
  . next h => exact fromutc_fourDigitYear_iff h
  . next h =>
    apply iff_of_false
    . rintro ⟨_, htime, _⟩
      cases htime
    . exact fun hyear => h hyear.1

theorem normalizeDigits_eq (raw : List Char)
    : (z.normalizeDigits raw = .ok none ↔ ∀ ts, PyText.int raw = some ts →
        ¬ z.TimestampInCalendar ts ∧ ¬ (endTmTimestamp ≤ ts ∧ (ts : Int) < 2 ^ 63)) ∧
      ((∃ text, z.normalizeDigits raw = .ok (some text) ∧ IsStamp text) ↔
        ∃ ts, PyText.int raw = some ts ∧ z.HasFourDigitYear (utcUsOf ts)) := by
  unfold normalizeDigits
  cases PyText.int raw with
  | none =>
    refine ⟨iff_of_true rfl nofun, ?_⟩
    apply iff_of_false
    . rintro ⟨_, hnone, _⟩
      cases hnone
    . rintro ⟨_, hnone, _⟩
      cases hnone
  | some ts =>
    simp only [Option.some.injEq, forall_eq', exists_eq_left']
    rw [← fromtimestamp_osError_iff (z := z), ← fromtimestamp_fourDigitYear_iff]
    have hin : z.TimestampInCalendar ts ↔ ∃ time, z.fromtimestamp ts = .ok time := by
      simp only [fromtimestamp_eq_ok_iff, TimestampInCalendar, exists_and_left, Subtype.exists, exists_prop]
      simp
    rw [hin]
    cases z.fromtimestamp ts with
    | ok time =>
      simp [isStamp_strftime]
    | error e => cases e <;> simp

theorem normalizeText_eq (raw : List Char)
    : (z.normalizeText raw = .ok none ↔ z.TextIgnored raw) ∧
      ((∃ text, z.normalizeText raw = .ok (some text) ∧ IsStamp text) ↔ z.TextDated raw) := by
  unfold normalizeText TextIgnored TextDated
  split
  . next hempty => simp [hempty]
  . next hempty =>
    split
    . next hdigits =>
      have hboth := normalizeDigits_eq (z := z) raw
      simp only [hempty, hdigits, ne_eq, not_false_eq_true, true_and, false_or, reduceCtorEq, false_and,
        or_false]
      exact hboth
    . next hdigits =>
      rw [Bool.not_eq_true] at hdigits
      simp only [hempty, hdigits, ne_eq, not_false_eq_true, true_and, false_or, Bool.false_eq_true,
        false_and]
      cases hknown : z.readKnown raw with
      | some t => simp [isStamp_strftime]
      | none =>
        cases hiso : z.readIso raw with
        | none => simp
        | some read =>
          obtain ⟨t, offset⟩ := read
          cases offset with
          | none => simp [isStamp_strftime]
          | some offset =>
            simp only [shown_ne_none, shown_isStamp_iff, astimezone_fourDigitYear_iff]
            simp

theorem normalizeDtekUpdatedAt_eq (value : Json)
    : (z.normalizeDtekUpdatedAt value = .ok none ↔ z.Ignored value) ∧
      ((∃ text, z.normalizeDtekUpdatedAt value = .ok (some text) ∧ IsStamp text) ↔ z.Dated value) := by
  have hnothing : ¬ ∃ text, (.ok none : Except PyError (Option String)) = .ok (some text) ∧
      IsStamp text := by
    rintro ⟨_, hnone, _⟩
    cases hnone
  cases value with
  | null => exact ⟨iff_of_true rfl trivial, iff_of_false hnothing not_false⟩
  | arr items => exact ⟨iff_of_true rfl trivial, iff_of_false hnothing not_false⟩
  | obj fields => exact ⟨iff_of_true rfl trivial, iff_of_false hnothing not_false⟩
  | str s => exact normalizeText_eq (PyText.strip s.toList)
  | bool b =>
    refine ⟨iff_of_false (shown_ne_none _) not_false, ?_⟩
    exact shown_isStamp_iff.trans fromtimestamp_fourDigitYear_iff
  | int n =>
    refine ⟨iff_of_false (shown_ne_none _) not_false, ?_⟩
    exact shown_isStamp_iff.trans fromtimestamp_fourDigitYear_iff
  | float mantissa exponent =>
    refine ⟨iff_of_false (shown_ne_none _) not_false, ?_⟩
    refine shown_isStamp_iff.trans ?_
    unfold Dated
    dsimp only
    cases z.intOfFloat mantissa exponent with
    | error e => simp [Except.bind]
    | ok ts =>
      simp only [Except.bind, Except.ok.injEq, exists_eq_left', fromtimestamp_fourDigitYear_iff]

theorem normalizeDtekUpdatedAt_parseEnv (env : ParseEnv) (value : Json)
    : (z.parseEnv env).normalizeDtekUpdatedAt value = (z.normalizeDtekUpdatedAt value).toOption := rfl

variable (z) in
/--
The first candidate that the normalizer does not ignore has a date.
-/
def FirstStampIsDated (candidates : List Json) : Prop :=
  match candidates with
  | [] => True
  | candidate :: rest => z.Dated candidate ∨ (z.Ignored candidate ∧ FirstStampIsDated rest)

theorem extractDtekUpdatedAt_iff (env : ParseEnv) (candidates : List Json)
    : (∃ dtekUpdatedAt, extractDtekUpdatedAt (z.parseEnv env) candidates = some dtekUpdatedAt ∧
          ∀ text ∈ dtekUpdatedAt, IsStamp text) ↔
        z.FirstStampIsDated candidates := by
  induction candidates with
  | nil => exact iff_of_true ⟨none, rfl, nofun⟩ trivial
  | cons candidate rest ih =>
    obtain ⟨hignored, hdated⟩ := normalizeDtekUpdatedAt_eq (z := z) candidate
    unfold extractDtekUpdatedAt FirstStampIsDated
    rw [← hignored, ← hdated, normalizeDtekUpdatedAt_parseEnv]
    cases z.normalizeDtekUpdatedAt candidate with
    | error e => simp [Except.toOption]
    | ok normalized =>
      cases normalized with
      | none =>
        simp only [Except.toOption]
        rw [ih]
        simp
      | some text => simp [Except.toOption]

end StampEnv

end Scheduler
