import Mathlib.Algebra.Ring.Int.Defs
import Mathlib.Algebra.Ring.Nat
import Mathlib.Data.Int.Basic

/-!
This module contains the proleptic Gregorian calendar: days are counted from the first of January of year
1, which is day 0.
-/

namespace Civil

structure Date where
  year : Int
  month : Nat
  day : Nat
  deriving DecidableEq, Repr

def isLeap (year : Int) : Bool :=
  year % 4 = 0 ∧ (year % 100 ≠ 0 ∨ year % 400 = 0)

def monthLengths (year : Int) : List Nat :=
  [31, if isLeap year then 29 else 28, 31, 30, 31, 30, 31, 31, 30, 31, 30, 31]

def daysBeforeYear (year : Int) : Int :=
  (year - 1) * 365 + (year - 1) / 4 - (year - 1) / 100 + (year - 1) / 400

def yearOf (days : Int) : Int :=
  -- at most one year off the average
  let year := days * 400 / 146097 + 1
  if days < daysBeforeYear year then
    year - 1
  else if daysBeforeYear (year + 1) ≤ days then
    year + 1
  else
    year

/--
The month and the day of a day of the year, counted from 0; the months that are left start with `month`.
-/
def monthAndDay (lengths : List Nat) (month dayOfYear : Nat) : Nat × Nat :=
  match lengths with
  | [] => (month, dayOfYear + 1)
  | [_] => (month, dayOfYear + 1)
  | len :: lengths =>
    if dayOfYear < len then (month, dayOfYear + 1) else monthAndDay lengths (month + 1) (dayOfYear - len)

def ofDays (days : Int) : Date :=
  let year := yearOf days
  let rest := monthAndDay (monthLengths year) 1 (days - daysBeforeYear year).toNat
  { year := year, month := rest.1, day := rest.2 }

def IsValid (date : Date) : Prop :=
  1 ≤ date.month ∧ date.month ≤ 12 ∧ 1 ≤ date.day ∧
    date.day ≤ (monthLengths date.year).getD (date.month - 1) 0

def twoDigits (n : Nat) : String :=
  if n < 10 then "0" ++ toString n else toString n

/--
`strftime("%d.%m.%Y")`, which does not pad the year.
-/
def Date.dayMonthYear (date : Date) : String :=
  twoDigits date.day ++ "." ++ twoDigits date.month ++ "." ++ toString date.year

instance (date : Date) : Decidable (IsValid date) :=
  inferInstanceAs (Decidable (_ ∧ _ ∧ _ ∧ _))

def toDays (date : Date) : Int :=
  daysBeforeYear date.year + ((monthLengths date.year).take (date.month - 1)).sum + date.day - 1

theorem yearOf_spec (days : Int)
    : daysBeforeYear (yearOf days) ≤ days ∧ days < daysBeforeYear (yearOf days + 1) := by
  unfold yearOf
  dsimp only
  split
  . unfold daysBeforeYear at *
    omega
  . split
    . unfold daysBeforeYear at *
      omega
    . unfold daysBeforeYear at *
      omega

theorem sum_monthLengths (year : Int)
    : ((monthLengths year).sum : Int) = daysBeforeYear (year + 1) - daysBeforeYear year := by
  unfold monthLengths daysBeforeYear isLeap
  simp only [List.sum_cons, List.sum_nil, decide_eq_true_eq]
  split
  . omega
  . omega

theorem monthAndDay_spec {lengths : List Nat} (hne : lengths ≠ []) (month : Nat) {dayOfYear : Nat}
    (hlt : dayOfYear < lengths.sum)
    : ∃ i, i < lengths.length ∧ (monthAndDay lengths month dayOfYear).1 = month + i ∧
        1 ≤ (monthAndDay lengths month dayOfYear).2 ∧
        (monthAndDay lengths month dayOfYear).2 ≤ lengths.getD i 0 ∧
        (lengths.take i).sum + (monthAndDay lengths month dayOfYear).2 = dayOfYear + 1 := by
  induction lengths generalizing month dayOfYear with
  | nil => exact absurd rfl hne
  | cons len lengths ih =>
    cases lengths with
    | nil =>
      rw [List.sum_cons, List.sum_nil] at hlt
      refine ⟨0, by simp, rfl, ?_, ?_, ?_⟩
      . exact Nat.le_add_left 1 _
      . exact hlt
      . simp [monthAndDay]
    | cons len' lengths =>
      unfold monthAndDay
      split
      . next hin =>
        refine ⟨0, by simp, rfl, ?_, ?_, ?_⟩
        . exact Nat.le_add_left 1 _
        . exact hin
        . simp
      . next hout =>
        rw [List.sum_cons] at hlt
        obtain ⟨i, hi, hmonth, hday, hle, hsum⟩ :=
          ih (List.cons_ne_nil _ _) (month + 1) (show dayOfYear - len < _ by omega)
        refine ⟨i + 1, by simpa using hi, by omega, hday, by simpa using hle, ?_⟩
        rw [List.take_succ_cons, List.sum_cons]
        omega

theorem ofDays_spec (days : Int) : IsValid (ofDays days) ∧ toDays (ofDays days) = days := by
  obtain ⟨hfrom, huntil⟩ := yearOf_spec days
  have hsum := sum_monthLengths (yearOf days)
  have hlen : (monthLengths (yearOf days)).length = 12 := rfl
  have hne : monthLengths (yearOf days) ≠ [] := List.cons_ne_nil _ _
  obtain ⟨i, hi, hmonth, hday, hle, hpos⟩ := monthAndDay_spec hne 1
    (show (days - daysBeforeYear (yearOf days)).toNat < (monthLengths (yearOf days)).sum by omega)
  unfold ofDays IsValid toDays
  dsimp only
  rw [hmonth, Nat.add_sub_cancel_left]
  refine ⟨⟨by omega, by omega, hday, hle⟩, ?_⟩
  omega

theorem monthLengths_le (year : Int) (i : Nat) : (monthLengths year).getD i 0 ≤ 31 := by
  have hall : ∀ len ∈ monthLengths year, len ≤ 31 := by
    unfold monthLengths
    split
    . decide
    . decide
  rw [List.getD_eq_getElem?_getD]
  cases hi : (monthLengths year)[i]? with
  | none => exact Nat.zero_le 31
  | some len => exact hall len (List.mem_of_getElem? hi)

theorem year_bounds {days : Int}
    : (1000 ≤ (ofDays days).year ↔ 364877 ≤ days) ∧ ((ofDays days).year < 10000 ↔ days < 3652059) ∧
        (0 < (ofDays days).year ↔ 0 ≤ days) := by
  obtain ⟨hfrom, huntil⟩ := yearOf_spec days
  unfold ofDays
  dsimp only
  unfold daysBeforeYear at hfrom huntil
  omega

theorem digits_twoDigits {n : Nat} (h : n < 100)
    : ∃ a b : Char, (twoDigits n).toList = [a, b] ∧ a.isDigit = true ∧ b.isDigit = true := by
  have hall : ∀ n < 100, (twoDigits n).toList.length = 2 ∧ (twoDigits n).toList.all Char.isDigit := by
    decide +kernel
  obtain ⟨hlength, hdigits⟩ := hall n h
  match (twoDigits n).toList, hlength, hdigits with
  | [a, b], _, hdigits =>
    rw [List.all_cons, List.all_cons, List.all_nil, Bool.and_true, Bool.and_eq_true] at hdigits
    exact ⟨a, b, rfl, hdigits.1, hdigits.2⟩

end Civil
